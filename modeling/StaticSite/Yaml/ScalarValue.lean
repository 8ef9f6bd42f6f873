import StaticSite.Text.Base64
import StaticSite.Text.Case
import StaticSite.Value.Basic
import StaticSite.Yaml.Fault
import StaticSite.Yaml.Tag

/-!
# Values of scalars

`scalarValue tag s` is the value that the text of a scalar spells out by its tag.
-/

namespace StaticSite.Yaml

/-! ## Numbers -/

def truthWords : List (String × Bool) := [
  ("yes", true), ("no", false), ("true", true), ("false", false), ("on", true), ("off", false)]

/-- Parts in base sixty, the highest first. -/
def sexagesimal (parts : List Int) : Int := parts.foldl (fun n p => n * 60 + p) 0

def sexagesimalReal (parts : List Binary64) : Binary64 :=
  (parts.reverse.foldl (fun (x, base) p =>
    (x.add (p.mul (Binary64.ofInt base)), base * 60)) (Binary64.zero, (1 : Int))).1

def parts (s : String) : List String := Text.pieces ':' s

def withoutUnderscores (s : String) : List Char := s.toList.filter (· ≠ '_')

/-- An integer without its sign, whose text is not empty. -/
def unsignedInt (body : String) : Except Number.Fault Int :=
  match body.toList with
  | ['0'] => .ok 0
  | '0' :: 'b' :: ds => Number.readIntegerIn 2 (String.ofList ds)
  | '0' :: 'x' :: ds => Number.readIntegerIn 16 (String.ofList ds)
  | '0' :: _ => Number.readIntegerIn 8 body
  | cs =>
    if ':' ∈ cs then ((parts body).mapM Number.readInteger).map sexagesimal
    else Number.readInteger body

def intOf (s : String) : Except Fault Int :=
  let cs := withoutUnderscores s
  let (negative, body) := Number.cutSign cs
  if body = [] then .error .emptyNumber
  else match unsignedInt (String.ofList body) with
    | .ok n => .ok (if negative then -n else n)
    | .error fault => .error (.number fault)

def unsignedFloat (body : String) : Except Number.Fault Binary64 :=
  if body = ".inf" then .ok (.infinity false)
  else if ':' ∈ body.toList then ((parts body).mapM Number.readReal).map sexagesimalReal
  else Number.readReal body

def floatOf (s : String) : Except Fault Binary64 :=
  let cs := (Text.lower (String.ofList (withoutUnderscores s))).toList
  let (negative, body) := Number.cutSign cs
  if cs = [] then .error .emptyNumber
  else if body = ".nan".toList then .ok .nan
  else match unsignedFloat (String.ofList body) with
    | .ok x => .ok (if negative then x.neg else x)
    | .error fault => .error (.number fault)

/-! ## Moments -/

/-- The first six digits after the point, as millionths. -/
def microseconds (fraction : List Char) : Nat :=
  Number.digitsValue ((fraction ++ List.replicate 6 '0').take 6)

def checkDate (d : Date) : Except MomentIssue Unit :=
  if d.year = 0 then .error (.year d.year)
  else if d.month = 0 ∨ 12 < d.month then .error .month
  else if d.day = 0 ∨ Date.daysIn d.year d.month < d.day then .error .day
  else .ok ()

def offsetOf : Option (Option (Char × List Char × List Char)) → Except MomentIssue (Option Int)
  | none => .ok none
  | some none => .ok (some 0)
  | some (some (sign, hours, minutes)) =>
    let m : Int := Number.digitsValue hours * 60 + Number.digitsValue minutes
    let m := if sign = '-' then -m else m
    if m.natAbs < 1440 then .ok (some m) else .error (.offset m)

def momentOf (stamp : Stamp) : Except MomentIssue Value := do
  let date : Date := ⟨Number.digitsValue stamp.year, Number.digitsValue stamp.month,
    Number.digitsValue stamp.day⟩
  match stamp.time with
  | none =>
    checkDate date
    return .date date
  | some (hour, minute, second, fraction) =>
    let offset ← offsetOf stamp.offset
    checkDate date
    let t : Moment := ⟨date, Number.digitsValue hour, Number.digitsValue minute,
      Number.digitsValue second, microseconds fraction, offset⟩
    if 23 < t.hour then throw .hour
    else if 59 < t.minute then throw .minute
    else if 59 < t.second then throw .second
    else return .moment t

/-! ## All scalars -/

def bytesOf (s : String) : Except Fault (List UInt8) :=
  if s.toList.all (·.toNat < 0x80) then
    match Text.Base64.decode? s.toList with
    | some bs => .ok bs
    | none => .error .notYaml
  else .error .notYaml

def scalarValue (tag : Tag) (s : String) : Except Fault Value :=
  match tag with
  | .null => .ok .null
  | .text => .ok (.text s)
  | .bool =>
    let word := Text.lower s
    match truthWords.lookup word with
    | some b => .ok (.bool b)
    | none => .error (.noTruthValue word)
  | .int => (intOf s).map .int
  | .float => (floatOf s).map .float
  | .bytes => (bytesOf s).map .bytes
  | .timestamp => match Stamp.ofText? s with
    | some stamp => (momentOf stamp).mapError .moment
    | none => .error .noMoment
  | _ => .error .notYaml

end StaticSite.Yaml
