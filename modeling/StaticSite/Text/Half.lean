import StaticSite.Text.Hex

/-!
# Halves of surrogate pairs

A code from `0xD800` up to `0xDFFF` is half of a pair and no character. Where such a half stands alone, a
text holds the private character `halfOffset` further on in its place: it counts as one character, is not
printable, and cannot be written as UTF-8.
-/

namespace StaticSite.Text

def isHighHalf (n : Nat) : Bool := 0xD800 ≤ n && n < 0xDC00

def isLowHalf (n : Nat) : Bool := 0xDC00 ≤ n && n < 0xE000

def isHalf (n : Nat) : Bool := isHighHalf n || isLowHalf n

def halfOffset : Nat := 0xF0000

/-- The character of a code. -/
def ofCode (n : Nat) : Char := Char.ofNat (if isHalf n then halfOffset + n else n)

/-- The half that a character stands for. -/
def half? (c : Char) : Option Nat :=
  let n := c.toNat % 0x10000
  if halfOffset + n = c.toNat ∧ isHalf n then some n else none

/-- The character of a high and a low half. -/
def ofHalves (high low : Nat) : Char :=
  Char.ofNat (0x10000 + (high - 0xD800) * 0x400 + (low - 0xDC00))

theorem toNat_ofNat {n : Nat} (h : n.isValidChar) : (Char.ofNat n).toNat = n := by
  unfold Char.ofNat
  rw [dif_pos h]
  rfl

theorem half?_ofCode {n : Nat} (h : isHalf n = true) : half? (ofCode n) = some n := by
  have hb : 0xD800 ≤ n ∧ n < 0xE000 := by
    simp only [isHalf, isHighHalf, isLowHalf, Bool.or_eq_true, Bool.and_eq_true, decide_eq_true_eq] at h
    omega
  have hv : (halfOffset + n).isValidChar := by
    right; simp only [halfOffset]; omega
  have low : (halfOffset + n) % 0x10000 = n := by simp only [halfOffset]; omega
  rw [half?, ofCode, if_pos h, toNat_ofNat hv, low, if_pos ⟨rfl, h⟩]

/-! ## Writing UTF-8 -/

/-- Halves in a text that is to be written. -/
structure Unwritable where
  position : Nat
  count : Nat
  /-- The first half. -/
  code : Nat
  deriving DecidableEq, Repr

def Unwritable.message (u : Unwritable) : String :=
  "'utf-8' codec can't encode " ++
    (if u.count = 1 then
        "character '\\u" ++ String.ofList (hexDigits 4 u.code) ++ s!"' in position {u.position}"
      else s!"characters in position {u.position}-{u.position + u.count - 1}") ++
    ": surrogates not allowed"

/-- The first halves in a text, which begins at `position`. -/
def unwritable? (position : Nat) : List Char → Option Unwritable
  | [] => none
  | c :: cs => match half? c with
    | some code => some ⟨position, 1 + (cs.takeWhile (half? · |>.isSome)).length, code⟩
    | none => unwritable? (position + 1) cs

/-- Low halves that stand for a byte each in the names of files. -/
def isByteHalf (n : Nat) : Bool := 0xDC80 ≤ n && n < 0xDD00

/-- The first halves in the text of a path, which begins at `position`, that stand for no byte. -/
def unnameable? (position : Nat) : List Char → Option Unwritable
  | [] => none
  | c :: cs => match half? c with
    | some code =>
      if isByteHalf code then unnameable? (position + 1) cs
      else some ⟨position, 1 + (cs.takeWhile (half? · |>.isSome)).length, code⟩
    | none => unnameable? (position + 1) cs

/-- The bytes of a text. -/
def encode (s : String) : Except Unwritable ByteArray :=
  match unwritable? 0 s.toList with
  | some u => .error u
  | none => .ok s.toUTF8

end StaticSite.Text
