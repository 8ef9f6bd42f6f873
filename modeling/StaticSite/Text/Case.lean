import StaticSite.Text.CaseTable

/-!
# Upper and lower case

`upper` and `lower` are the full case mappings of the Unicode standard: a letter may become several
(`ß` to `SS`), and a capital sigma becomes `ς` at the end of a word and `σ` elsewhere. `caselessEq`
compares two characters by their simple mappings.
-/

namespace StaticSite.Text

def isAscii (c : Char) : Bool := c.toNat < 128

def asciiLower (c : Char) : Char := if 'A' ≤ c ∧ c ≤ 'Z' then Char.ofNat (c.toNat + 32) else c

def asciiUpper (c : Char) : Char := if 'a' ≤ c ∧ c ≤ 'z' then Char.ofNat (c.toNat - 32) else c

/-- The upper-case mapping of one character. -/
def upperChar (c : Char) : List Char :=
  if isAscii c then [asciiUpper c]
  else match upperExpansions.lookup c.toNat with
    | some ns => ns.map Char.ofNat
    | none => [((shift? upperRuns c.toNat).map Char.ofNat).getD c]

/-- The lower-case mapping of one character, capital sigma as inside a word. -/
def lowerChar (c : Char) : List Char :=
  if isAscii c then [asciiLower c]
  else if c = 'İ' then ['i', '\u0307']
  else [((shift? lowerRuns c.toNat).map Char.ofNat).getD c]

/-- The first character of `cs` that is not case-ignorable has case. -/
def casedAhead (cs : List Char) : Bool :=
  match cs.dropWhile caseIgnorable.mem with
  | [] => false
  | c :: _ => cased.mem c

/-- `inWord` says that the last character that is not case-ignorable has case. -/
def lowerFrom (inWord : Bool) : List Char → List Char
  | [] => []
  | c :: cs =>
    (if c = 'Σ' then [if inWord && !casedAhead cs then 'ς' else 'σ'] else lowerChar c) ++
      lowerFrom (if caseIgnorable.mem c then inWord else cased.mem c) cs

def lower (s : String) : String := String.ofList (lowerFrom false s.toList)

def upper (s : String) : String := String.ofList (s.toList.flatMap upperChar)

/-! ## Comparing without case -/

/-- Lower-case characters that share an upper-case one, the representative first. -/
def caselessClasses : List (List Nat) := [
  [0x69, 0x131], [0x73, 0x17f], [0xb5, 0x3bc], [0x345, 0x3b9, 0x1fbe], [0x390, 0x1fd3],
  [0x3b0, 0x1fe3], [0x3b2, 0x3d0], [0x3b5, 0x3f5], [0x3b8, 0x3d1], [0x3ba, 0x3f0],
  [0x3c0, 0x3d6], [0x3c1, 0x3f1], [0x3c2, 0x3c3], [0x3c6, 0x3d5], [0x432, 0x1c80],
  [0x434, 0x1c81], [0x43e, 0x1c82], [0x441, 0x1c83], [0x442, 0x1c84, 0x1c85], [0x44a, 0x1c86],
  [0x463, 0x1c87], [0x1c88, 0xa64b], [0x1e61, 0x1e9b], [0xfb05, 0xfb06]]

/-- The simple lower-case mapping: always one character. -/
def simpleLower (n : Nat) : Nat := if n = 0x130 then 0x69 else (shift? lowerRuns n).getD n

def caselessClass (n : Nat) : List Nat := (caselessClasses.find? (·.contains n)).getD [n]

/-- The representative of the characters that differ from `c` by case only. -/
def caselessKey (c : Char) : Nat := (caselessClass (simpleLower c.toNat)).headD 0

def caselessEq (c d : Char) : Bool := caselessKey c == caselessKey d

/-- Every character that differs from `c` by case only, `c` included. -/
def caselessVariants (c : Char) : List Nat :=
  let ls := caselessClass (simpleLower c.toNat)
  ls ++ ls.flatMap (unshift lowerRuns) ++ (if ls.contains 0x69 then [0x130] else [])

end StaticSite.Text
