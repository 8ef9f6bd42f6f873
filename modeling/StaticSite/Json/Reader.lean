import StaticSite.Json.Fault
import StaticSite.Text.Half
import StaticSite.Value.Basic

/-!
# Reading JSON

`Json.read` reads one value with blanks around it. `NaN`, `Infinity` and `-Infinity` are numbers; of two
entries with one name the later value counts, at the place of the first. Every scanner takes the rest
of the text and gives what it read with what is left; a fault keeps the text from where it was found.
-/

namespace StaticSite.Json

/-- A fault with the text that begins where it was found. -/
inductive Stop where
  | found (issue : Issue) (rest : List Char)
  | number (fault : Number.Fault)
  | tooDeep (inMap : Bool)

abbrev Scan (α : Type) := Except Stop (α × List Char)

def isBlank (c : Char) : Bool := c == ' ' || c == '\t' || c == '\n' || c == '\r'

def skipBlanks (cs : List Char) : List Char := cs.dropWhile isBlank

/-! ## Texts -/

def hexDigit? (c : Char) : Option Nat :=
  if '0' ≤ c ∧ c ≤ '9' then some (c.toNat - 48)
  else if 'a' ≤ c ∧ c ≤ 'f' then some (c.toNat - 87)
  else if 'A' ≤ c ∧ c ≤ 'F' then some (c.toNat - 55)
  else none

def hexValue? (ds : List Char) : Option Nat :=
  ds.foldlM (fun n d => (hexDigit? d).map (n * 16 + ·)) 0

/-- The four digits of a `\u` escape and what follows them, which may not be the end of the text. -/
def fourDigits : List Char → Option (Nat × List Char)
  | a :: b :: c :: d :: rest =>
    if rest.isEmpty then none else (hexValue? [a, b, c, d]).map fun n => (n, rest)
  | _ => none

/-- The second half of a surrogate pair whose first half is `high`. -/
def lowHalf (high : Nat) (cs : List Char) : Scan Char :=
  match cs with
  | '\\' :: 'u' :: rest =>
    if rest.length ≤ 4 then .ok (Text.ofCode high, cs)
    else match fourDigits rest with
      | none => .error (.found .unicodeEscape ('u' :: rest))
      | some (low, after) =>
        if Text.isLowHalf low then .ok (Text.ofHalves high low, after)
        else .ok (Text.ofCode high, cs)
  | _ => .ok (Text.ofCode high, cs)

def simpleEscape? (c : Char) : Option Char :=
  match c with
  | '"' => some '"'
  | '\\' => some '\\'
  | '/' => some '/'
  | 'b' => some '\x08'
  | 'f' => some '\x0c'
  | 'n' => some '\n'
  | 'r' => some '\r'
  | 't' => some '\t'
  | _ => none

/-- The character that an escape stands for, given the text after the backslash. -/
def escaped (opening : List Char) : List Char → Scan Char
  | [] => .error (.found .unterminatedText opening)
  | 'u' :: rest =>
    match fourDigits rest with
    | none => .error (.found .unicodeEscape ('u' :: rest))
    | some (n, after) => if Text.isHighHalf n then lowHalf n after else .ok (Text.ofCode n, after)
  | c :: rest =>
    match simpleEscape? c with
    | some d => .ok (d, rest)
    | none => .error (.found .escape ('\\' :: c :: rest))

theorem length_of_fourDigits {cs rest : List Char} {n : Nat} (h : fourDigits cs = some (n, rest)) :
    rest.length ≤ cs.length := by
  unfold fourDigits at h
  split at h
  · split at h
    · cases h
    · obtain ⟨m, -, hm⟩ := Option.map_eq_some_iff.1 h
      cases hm
      simp only [List.length_cons]
      omega
  · cases h

theorem length_of_lowHalf {high : Nat} {cs rest : List Char} {c : Char}
    (h : lowHalf high cs = .ok (c, rest)) : rest.length ≤ cs.length := by
  unfold lowHalf at h
  split at h
  · split at h
    · cases h; simp
    · split at h
      · cases h
      · next hd =>
        have := length_of_fourDigits hd
        split at h <;> simp only [Except.ok.injEq, Prod.mk.injEq] at h <;> obtain ⟨-, rfl⟩ := h <;>
          simp only [List.length_cons] <;> omega
  · simp only [Except.ok.injEq, Prod.mk.injEq] at h; simp [h.2]

theorem length_of_escaped {opening cs rest : List Char} {c : Char}
    (h : escaped opening cs = .ok (c, rest)) : rest.length ≤ cs.length := by
  unfold escaped at h
  split at h
  · cases h
  · split at h
    · cases h
    · next hd =>
      have := length_of_fourDigits hd
      split at h
      · have := length_of_lowHalf h
        simp only [List.length_cons]; omega
      · cases h; simp only [List.length_cons]; omega
  · split at h <;> cases h
    simp

/-- The rest of a text up to its closing quotation mark; `opening` begins with the opening one. -/
def restOfText (opening cs : List Char) : Scan (List Char) :=
  match cs with
  | [] => .error (.found .unterminatedText opening)
  | '"' :: rest => .ok ([], rest)
  | '\\' :: rest =>
    match _h : escaped opening rest with
    | .error stop => .error stop
    | .ok (c, after) => (restOfText opening after).map fun (s, rest) => (c :: s, rest)
  | c :: rest =>
    if c.toNat < 32 then .error (.found .controlCharacter (c :: rest))
    else (restOfText opening rest).map fun (s, rest) => (c :: s, rest)
  termination_by cs.length
  decreasing_by
    · have := length_of_escaped _h
      simp only [List.length_cons]; omega
    · simp

/-! ## Numbers -/

/-- The digits after the point, if there are any. -/
def fraction : List Char → List Char × List Char
  | '.' :: d :: rest => if Number.isDigit d then (d :: rest).span Number.isDigit else ([], '.' :: d :: rest)
  | cs => ([], cs)

/-- The exponent, if there is one with digits. -/
def exponent (cs : List Char) : Option Int × List Char :=
  match cs with
  | e :: rest =>
    let (down, ds) := Number.cutSign rest
    let (ds, after) := ds.span Number.isDigit
    if (e == 'e' || e == 'E') && !ds.isEmpty then
      let n : Int := Number.digitsValue ds
      (some (if down then -n else n), after)
    else (none, cs)
  | [] => (none, cs)

/-- A number without its sign: an integer if it has neither fraction nor exponent. -/
def unsignedNumber (negative : Bool) (whole rest : List Char) : Scan Value :=
  let (fractional, rest) := fraction rest
  let (power, rest) := exponent rest
  if fractional.isEmpty && power.isNone then
    if whole.length > Number.maxDigits then .error (.number (.tooManyDigits whole.length))
    else
      let n : Int := Number.digitsValue whole
      .ok (.int (if negative then -n else n), rest)
  else
    .ok (.float (Binary64.ofDecimal negative (Number.digitsValue (whole ++ fractional))
      (power.getD 0 - fractional.length)), rest)

def number (cs : List Char) : Scan Value :=
  let (negative, body) := match cs with
    | '-' :: body => (true, body)
    | _ => (false, cs)
  match body with
  | '0' :: rest => unsignedNumber negative ['0'] rest
  | c :: _ =>
    if Number.isDigit c then
      let (whole, rest) := body.span Number.isDigit
      unsignedNumber negative whole rest
    else .error (.found .expectingValue cs)
  | [] => .error (.found .expectingValue cs)

/-! ## Values -/

/-- The values that are written as a word. -/
def words : List (List Char × Value) := [
  ("null".toList, .null), ("true".toList, .bool true), ("false".toList, .bool false),
  ("NaN".toList, .float .nan), ("Infinity".toList, .float (.infinity false)),
  ("-Infinity".toList, .float (.infinity true))]

def word? (cs : List Char) : Option (Value × List Char) :=
  (words.find? fun (w, _) => w.isPrefixOf cs).map fun (w, v) => (v, cs.drop w.length)

/-- How deep lists and maps may be nested. -/
def maxDepth : Nat := 988

mutual

/-- A value. The first argument bounds the number of steps; two for each character and one more are enough.
The second one says how many lists and maps may be opened inside each other. -/
def value : Nat → Nat → List Char → Except Stop (Value × List Char)
  | 0, _, cs => .error (.found .expectingValue cs)
  | n + 1, depth, cs =>
    match cs, depth with
    | '"' :: rest, _ => (restOfText cs rest).map fun (s, rest) => (.text (String.ofList s), rest)
    | '{' :: _, 0 => .error (.tooDeep true)
    | '[' :: _, 0 => .error (.tooDeep false)
    | '{' :: rest, depth + 1 =>
      match skipBlanks rest with
      | '}' :: rest => .ok (.map [], rest)
      | rest => members n depth [] rest
    | '[' :: rest, depth + 1 =>
      match skipBlanks rest with
      | ']' :: rest => .ok (.list [], rest)
      | rest => items n depth [] rest
    | cs, _ => match word? cs with
      | some found => .ok found
      | none => number cs

/-- The items of a list, from one on, after those in `before`, the latest first. -/
def items : Nat → Nat → List Value → List Char → Except Stop (Value × List Char)
  | 0, _, _, cs => .error (.found .expectingValue cs)
  | n + 1, depth, before, cs => do
    let (v, rest) ← value n depth cs
    match skipBlanks rest with
    | ']' :: rest => .ok (.list (v :: before).reverse, rest)
    | ',' :: rest => items n depth (v :: before) (skipBlanks rest)
    | rest => .error (.found .expectingComma rest)

/-- The members of a map, from one on, after those in `before`. -/
def members : Nat → Nat → Record → List Char → Except Stop (Value × List Char)
  | 0, _, _, cs => .error (.found .expectingValue cs)
  | n + 1, depth, before, cs =>
    match cs with
    | '"' :: rest => do
      let (name, rest) ← restOfText cs rest
      match skipBlanks rest with
      | ':' :: rest => do
        let (v, rest) ← value n depth (skipBlanks rest)
        let entries := before.set (.text (String.ofList name)) v
        match skipBlanks rest with
        | '}' :: rest => .ok (.map entries, rest)
        | ',' :: rest => members n depth entries (skipBlanks rest)
        | rest => .error (.found .expectingComma rest)
      | rest => .error (.found .expectingColon rest)
    | cs => .error (.found .expectingName cs)

end

/-- One value, and nothing but blanks around it. -/
def document (cs : List Char) : Except Stop Value :=
  match cs with
  | '\uFEFF' :: _ => .error (.found .byteOrderMark cs)
  | _ => do
    let (v, rest) ← value (2 * cs.length + 1) maxDepth (skipBlanks cs)
    match skipBlanks rest with
    | [] => return v
    | rest => .error (.found .extraData rest)

/-- The fault at its position in the text `cs`. -/
def Stop.fault (cs : List Char) : Stop → Fault
  | .found issue rest => .found issue (Text.positionAfter (cs.take (cs.length - rest.length)))
  | .number fault => .number fault
  | .tooDeep inMap => .tooDeep inMap

def read (s : String) : Except Fault Value := (document s.toList).mapError (Stop.fault s.toList)

end StaticSite.Json
