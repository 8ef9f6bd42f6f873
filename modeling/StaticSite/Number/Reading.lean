import StaticSite.Number.Decimal
import StaticSite.Text.Digit
import StaticSite.Text.Case
import StaticSite.Text.Quoted

/-!
# Reading numbers

`readInteger` and `readReal` read the text of a number as a configuration may spell it: blanks
around it, digits of any script, single underscores between digits. An integer has at most 4300
digits.
-/

namespace StaticSite.Number

/-- Blanks around a number: those of `isBlank` but the ASCII separators. -/
def isNumberBlank (c : Char) : Bool :=
  Text.isBlank c && (c.toNat < 28 || 31 < c.toNat)

/-- Digits of any script as ASCII digits. -/
def plainDigit (c : Char) : Char :=
  if c.toNat < 128 then c else match Text.digit? c with
    | some d => Char.ofNat (48 + d)
    | none => c

def trim (cs : List Char) : List Char :=
  ((cs.dropWhile isNumberBlank).reverse.dropWhile isNumberBlank).reverse

def normalized (s : String) : List Char := trim (s.toList.map plainDigit)

def isDigit (c : Char) : Bool := '0' ≤ c && c ≤ '9'

def digitsValue (ds : List Char) : Nat := ds.foldl (fun n c => n * 10 + (c.toNat - 48)) 0

/-- The sign, and the rest. -/
def cutSign : List Char → Bool × List Char
  | '-' :: cs => (true, cs)
  | '+' :: cs => (false, cs)
  | cs => (false, cs)

/-- Why a text or a value is no number. -/
inductive Fault where
  /-- What was given comes quoted. -/
  | notInteger (base : Nat) (quoted : String)
  | tooManyDigits (count : Nat)
  /-- An integer that has too many digits to be written. -/
  | tooLongToWrite
  | notReal (quoted : String)
  | nanToInteger
  | infinityToInteger
  | tooLarge
  /-- A value of a type that is no number, named. -/
  | integerOf (type : String)
  | realOf (type : String)
  deriving DecidableEq, Repr

/-- The number of digits an integer may have. -/
def maxDigits : Nat := 4300

/-- The least integer with too many digits. -/
def unwritable : Nat := Nat.pow 10 maxDigits

def isWritable (n : Int) : Bool := n.natAbs < unwritable

def Fault.message : Fault → String
  | .notInteger base quoted =>
    s!"invalid literal for int() with base {base}: " ++ String.ofList (quoted.toList.take 200)
  | .tooManyDigits count =>
    s!"Exceeds the limit ({maxDigits} digits) for integer string conversion: " ++
      s!"value has {count} digits; use sys.set_int_max_str_digits() to increase the limit"
  | .tooLongToWrite =>
    s!"Exceeds the limit ({maxDigits} digits) for integer string conversion; " ++
      "use sys.set_int_max_str_digits() to increase the limit"
  | .notReal quoted => "could not convert string to float: " ++ quoted
  | .nanToInteger => "cannot convert float NaN to integer"
  | .infinityToInteger => "cannot convert float infinity to integer"
  | .tooLarge => "int too large to convert to float"
  | .integerOf type =>
    "int() argument must be a string, a bytes-like object or a real number, not '" ++ type ++ "'"
  | .realOf type => "float() argument must be a string or a real number, not '" ++ type ++ "'"

/-- Digits with single underscores between them; the digits and what follows. None if an underscore
stands anywhere else. -/
def cutDigits : Bool → List Char → Option (List Char × List Char)
  | afterDigit, '_' :: c :: cs =>
    if afterDigit && isDigit c then (cutDigits true cs).map fun (ds, rest) => (c :: ds, rest)
    else none
  | _, ['_'] => none
  | _, c :: cs =>
    if isDigit c then (cutDigits true cs).map fun (ds, rest) => (c :: ds, rest)
    else some ([], c :: cs)
  | _, [] => some ([], [])

def readInteger (s : String) : Except Fault Int :=
  let (negative, cs) := cutSign (normalized s)
  match cutDigits false cs with
  | none => .error (.notInteger 10 (Text.quote s))
  | some (ds, rest) =>
    if ds.length > maxDigits then .error (.tooManyDigits ds.length)
    else if ds.isEmpty || !rest.isEmpty then .error (.notInteger 10 (Text.quote s))
    else .ok (if negative then -(digitsValue ds : Int) else digitsValue ds)

/-- The value of a digit up to `f`. -/
def digitValue (c : Char) : Nat :=
  if isDigit c then c.toNat - 48
  else if 'a' ≤ c ∧ c ≤ 'z' then c.toNat - 87
  else if 'A' ≤ c ∧ c ≤ 'Z' then c.toNat - 55
  else 99

/-- The mark that may stand before the digits in a base. -/
def baseMark (base : Nat) : Char := if base = 2 then 'b' else if base = 8 then 'o' else 'x'

def dropBaseMark (base : Nat) : List Char → List Char
  | '0' :: m :: cs => if Text.asciiLower m = baseMark base then cs else '0' :: m :: cs
  | cs => cs

/-- An integer in base 2, 8 or 16, without underscores. -/
def readIntegerIn (base : Nat) (s : String) : Except Fault Int :=
  let (negative, cs) := cutSign (normalized s)
  let ds := (dropBaseMark base cs).map digitValue
  if ds.isEmpty || ds.any (base ≤ ·) then .error (.notInteger base (Text.quote s))
  else
    let n : Nat := ds.foldl (fun n d => n * base + d) 0
    .ok (if negative then -n else n)

/-- The text without underscores, each of which must stand between digits. -/
def dropUnderscores : Bool → List Char → Option (List Char)
  | _, [] => some []
  | afterDigit, '_' :: c :: cs =>
    if afterDigit && isDigit c then (dropUnderscores true cs).map (c :: ·) else none
  | _, ['_'] => none
  | _, c :: cs => (dropUnderscores (isDigit c) cs).map (c :: ·)

/-- A decimal with an optional point and an optional exponent, none if anything else follows. -/
def readDecimal? (negative : Bool) (cs : List Char) : Option Binary64 :=
  let (whole, rest) := cs.span isDigit
  let (fraction, rest) := match rest with
    | '.' :: more => more.span isDigit
    | _ => ([], rest)
  let digits := digitsValue (whole ++ fraction)
  if whole.isEmpty && fraction.isEmpty then none
  else match rest with
    | [] => some (Binary64.ofDecimal negative digits (-fraction.length))
    | c :: more =>
      let (down, es) := cutSign more
      if (c == 'e' || c == 'E') && !es.isEmpty && es.all isDigit then
        let e : Int := digitsValue es
        some (Binary64.ofDecimal negative digits ((if down then -e else e) - fraction.length))
      else none

def readReal? (cs : List Char) : Option Binary64 :=
  let (negative, body) := cutSign cs
  match String.ofList (body.map Text.asciiLower) with
  | "inf" | "infinity" => some (Binary64.infinity negative)
  | "nan" => some Binary64.nan
  | _ => readDecimal? negative body

def readReal (s : String) : Except Fault Binary64 :=
  match (dropUnderscores false (normalized s)).bind readReal? with
  | some x => .ok x
  | none => .error (.notReal (Text.quote s))

/-! ## Bytes -/

/-- The text of some bytes, which is no number if one of them is not ASCII. -/
def asciiText (bytes : List UInt8) : String :=
  String.ofList (bytes.map fun b => if b.toNat < 0x80 then Char.ofNat b.toNat else '\x00')

/-- A fault as it names bytes that were given. -/
def Fault.ofBytes (bytes : List UInt8) : Fault → Fault
  | .notInteger base _ => .notInteger base (Text.quoteBytes bytes)
  | .notReal _ => .notReal (Text.quoteBytes bytes)
  | fault => fault

def readIntegerBytes (bytes : List UInt8) : Except Fault Int :=
  (readInteger (asciiText bytes)).mapError (Fault.ofBytes bytes)

def readRealBytes (bytes : List UInt8) : Except Fault Binary64 :=
  (readReal (asciiText bytes)).mapError (Fault.ofBytes bytes)

/-! ## Values of numbers -/

/-- The integer part of a number. -/
def integerOfReal (x : Binary64) : Except Fault Int :=
  if x.isNan then .error .nanToInteger
  else match x.truncate? with
    | some n => .ok n
    | none => .error .infinityToInteger

/-- The number nearest to an integer. -/
def realOfInteger (n : Int) : Except Fault Binary64 :=
  let x := Binary64.ofInt n
  if x.isInfinite then .error .tooLarge else .ok x

end StaticSite.Number
