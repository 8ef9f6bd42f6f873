import StaticSite.Yaml.Cursor
import StaticSite.Number.Reading
import StaticSite.Text.Split

/-!
# Tags

The tag of a node says what value it stands for. A plain scalar without a tag gets one from its text:
`Tag.ofPlain` knows the words for nothing and for truth values, integers in four bases and in base
sixty, decimals, dates and moments.
-/

namespace StaticSite.Yaml

inductive Tag where
  | null
  | bool
  | int
  | float
  | text
  | bytes
  | timestamp
  | sequence
  | mapping
  | set
  | pairs
  | merge
  | value
  | other (uri : String)
  deriving DecidableEq, Repr

namespace Tag

def space : String := "tag:yaml.org,2002:"

def known : List (String × Tag) := [
  ("null", .null), ("bool", .bool), ("int", .int), ("float", .float), ("str", .text),
  ("binary", .bytes), ("timestamp", .timestamp), ("seq", .sequence), ("map", .mapping), ("set", .set),
  ("omap", .pairs), ("pairs", .pairs), ("merge", .merge), ("value", .value)]

def ofUri (uri : String) : Tag :=
  ((known.find? fun (name, _) => space ++ name == uri).map (·.2)).getD (.other uri)

/-! ## Plain scalars -/

def nullWords : List String := ["", "~", "null", "Null", "NULL"]

def boolWords : List String := [
  "yes", "Yes", "YES", "no", "No", "NO", "true", "True", "TRUE", "false", "False", "FALSE",
  "on", "On", "ON", "off", "Off", "OFF"]

/-- Marks that stand for nothing on their own. -/
def markWords : List String := ["!", "&", "*"]

def isOneOf (set : String) (c : Char) : Bool := set.toList.contains c

/-- One character or more, all of them in the set. -/
def isRunOf (set : String) (cs : List Char) : Bool := !cs.isEmpty && cs.all (isOneOf set)

def digits : String := "0123456789"

def unsigned : List Char → List Char
  | '-' :: cs => cs
  | '+' :: cs => cs
  | cs => cs

/-- A digit and then digits and underscores. -/
def isDigitRun (lead : String) : List Char → Bool
  | [] => false
  | c :: cs => isOneOf lead c && cs.all (isOneOf "0123456789_")

/-- A part in base sixty: at most 59. -/
def isSexagesimal : List Char → Bool
  | [d] => Number.isDigit d
  | [t, d] => isOneOf "012345" t && Number.isDigit d
  | _ => false

/-- A run of digits and then parts in base sixty, one at least. -/
def isBaseSixty (lead : String) (cs : List Char) : Bool :=
  match Text.splitOn ':' cs with
  | first :: part :: parts => isDigitRun lead first && (part :: parts).all isSexagesimal
  | _ => false

def isInt (cs : List Char) : Bool :=
  let body := unsigned cs
  (match body with
    | '0' :: 'b' :: ds => isRunOf "01_" ds
    | '0' :: 'x' :: ds => isRunOf "0123456789abcdefABCDEF_" ds
    | ['0'] => true
    | '0' :: ds => isRunOf "01234567_" ds
    | _ => isDigitRun "123456789" body) || isBaseSixty "123456789" body

/-- An exponent with its sign, or nothing. -/
def isExponent : List Char → Bool
  | [] => true
  | e :: sign :: ds => isOneOf "eE" e && isOneOf "+-" sign && isRunOf digits ds
  | _ => false

/-- Digits and underscores, and an exponent or nothing. -/
def isFraction (cs : List Char) : Bool := isExponent (cs.dropWhile (isOneOf "0123456789_"))

def isFloat (cs : List Char) : Bool :=
  let body := unsigned cs
  match cs, body, Text.cut '.' body with
  | _, _, (whole, some fraction) =>
    if whole.isEmpty then
      fraction ∈ ["inf".toList, "Inf".toList, "INF".toList] ||
        (cs == body && (fraction ∈ ["nan".toList, "NaN".toList, "NAN".toList] ||
          (fraction.head?.any Number.isDigit && isFraction fraction)))
    else
      (isDigitRun digits whole && isFraction fraction) ||
        (isBaseSixty digits whole && fraction.all (isOneOf "0123456789_"))
  | _, _, (_, none) => false

/-! ## Dates and moments -/

end Tag

/-- A moment as it is written. -/
structure Stamp where
  year : List Char
  month : List Char
  day : List Char
  /-- Hour, minute, second and fraction. -/
  time : Option (List Char × List Char × List Char × List Char) := none
  /-- The sign of the offset with its hours and minutes; none for universal time. -/
  offset : Option (Option (Char × List Char × List Char)) := none

namespace Stamp

/-- At most `most` digits, and the rest; none if there are fewer than `least`. -/
def cutDigits (least most : Nat) (cs : List Char) : Option (List Char × List Char) :=
  let ds := (cs.take most).takeWhile Number.isDigit
  if ds.length < least then none else some (ds, cs.drop ds.length)

def cutChar (c : Char) : List Char → Option (List Char)
  | d :: cs => if d = c then some cs else none
  | [] => none

def isBlank (c : Char) : Bool := c == ' ' || c == '\t'

/-- The gap between date and time: a `T` or blanks. -/
def cutGap : List Char → Option (List Char)
  | 'T' :: cs => some cs
  | 't' :: cs => some cs
  | c :: cs => if isBlank c then some (cs.dropWhile isBlank) else none
  | [] => none

/-- The offset at the end. -/
def zone (cs : List Char) : Option (Option (Option (Char × List Char × List Char))) := do
  match cs.dropWhile isBlank with
  | [] => if cs.isEmpty then some none else none
  | ['Z'] => some (some none)
  | sign :: rest =>
    if sign ≠ '+' ∧ sign ≠ '-' then none
    let (hours, rest) ← cutDigits 1 2 rest
    match rest with
    | [] => some (some (some (sign, hours, [])))
    | ':' :: rest =>
      let (minutes, rest) ← cutDigits 2 2 rest
      if rest.isEmpty then some (some (some (sign, hours, minutes))) else none
    | _ => none

def read? (cs : List Char) : Option Stamp := do
  let (year, cs) ← cutDigits 4 4 cs
  let (month, cs) ← cutDigits 1 2 (← cutChar '-' cs)
  let (day, cs) ← cutDigits 1 2 (← cutChar '-' cs)
  if cs.isEmpty then return { year, month, day }
  let (hour, cs) ← cutDigits 1 2 (← cutGap cs)
  let (minute, cs) ← cutDigits 2 2 (← cutChar ':' cs)
  let (second, cs) ← cutDigits 2 2 (← cutChar ':' cs)
  let (fraction, cs) := match cs with
    | '.' :: cs => cs.span Number.isDigit
    | _ => ([], cs)
  let offset ← zone cs
  return { year, month, day, time := some (hour, minute, second, fraction), offset }

/-- The moment in a text, with or without a line end after it. -/
def ofText? (s : String) : Option Stamp :=
  let cs := s.toList
  read? (if cs.getLast? = some '\n' then cs.dropLast else cs)

/-- A date has to be written with two digits for month and day if it stands alone. -/
def isPlain (cs : List Char) : Bool :=
  match read? cs with
  | some stamp =>
    stamp.time.isSome || (stamp.month.length == 2 && stamp.day.length == 2)
  | none => false

end Stamp

namespace Tag

/-- A text without the line end that may stand after a plain scalar. -/
def withoutLineEnd (s : String) : String :=
  let cs := s.toList
  if cs.length ≠ 1 ∧ cs.getLast? = some '\n' then String.ofList cs.dropLast else s

def ofPlain (s : String) : Tag :=
  let word := withoutLineEnd s
  let cs := word.toList
  if boolWords.contains word then .bool
  else if isFloat cs then .float
  else if isInt cs then .int
  else if word = "<<" then .merge
  else if nullWords.contains word then .null
  else if Stamp.isPlain cs then .timestamp
  else if word = "=" then .value
  else if markWords.contains word then .other (space ++ "yaml")
  else .text

end Tag

end StaticSite.Yaml
