/-!
# Base64

`Base64.decode?` reads bytes written in digits of six bits. Characters that are no digits are skipped; a
padding mark counts only where it completes a group, and what follows that is not read.
-/

namespace StaticSite.Text.Base64

/-- The value of a digit. -/
def digit? (c : Char) : Option Nat :=
  if 'A' ≤ c ∧ c ≤ 'Z' then some (c.toNat - 65)
  else if 'a' ≤ c ∧ c ≤ 'z' then some (c.toNat - 71)
  else if '0' ≤ c ∧ c ≤ '9' then some (c.toNat + 4)
  else if c = '+' then some 62
  else if c = '/' then some 63
  else none

/-- The bytes of the rest of a text: `count` digits of a group are read, `held` are their bits that no byte
has yet, and `pads` is the number of marks since the last digit. -/
def decodeFrom (count held pads : Nat) : List Char → Option (List UInt8)
  | [] => if count = 0 then some [] else none
  | '=' :: cs =>
    if count < 2 then decodeFrom count held pads cs
    else if 4 ≤ count + pads + 1 then some []
    else decodeFrom count held (pads + 1) cs
  | c :: cs => match digit? c with
    | none => decodeFrom count held pads cs
    | some d => match count with
      | 0 => decodeFrom 1 d 0 cs
      | 1 => (decodeFrom 2 (d % 16) 0 cs).map ((held * 4 + d / 16).toUInt8 :: ·)
      | 2 => (decodeFrom 3 (d % 4) 0 cs).map ((held * 16 + d / 4).toUInt8 :: ·)
      | _ => (decodeFrom 0 0 0 cs).map ((held * 64 + d).toUInt8 :: ·)

def decode? (cs : List Char) : Option (List UInt8) := decodeFrom 0 0 0 cs

theorem digit?_lt {c : Char} {d : Nat} (h : digit? c = some d) : d < 64 := by
  have le_of (a b : Char) : a ≤ b → a.toNat ≤ b.toNat := fun h => h
  unfold digit? at h
  split at h
  · next hc => have := le_of _ _ hc.2; cases h; simp at this ⊢; omega
  split at h
  · next hc => have := le_of _ _ hc.2; cases h; simp at this ⊢; omega
  split at h
  · next hc => have := le_of _ _ hc.2; cases h; simp at this ⊢; omega
  split at h
  · cases h; decide
  split at h
  · cases h; decide
  · cases h

end StaticSite.Text.Base64
