import StaticSite.Number.Reading

/-!
# What is wrong with a YAML text

A text that is not YAML is one fault. The others are values that the text spells out but that do not exist.
-/

namespace StaticSite.Yaml

/-- The part of a moment that is out of range. -/
inductive MomentIssue where
  | year (given : Nat)
  | month
  | day
  | hour
  | minute
  | second
  /-- An offset of this many minutes from universal time. -/
  | offset (minutes : Int)
  deriving DecidableEq, Repr

def offsetRepr (minutes : Int) : String :=
  let days := Int.fdiv minutes 1440
  let seconds := Int.fmod minutes 1440 * 60
  "datetime.timedelta(" ++ ", ".intercalate
    ((if days = 0 then [] else [s!"days={days}"]) ++
      (if seconds = 0 then [] else [s!"seconds={seconds}"])) ++ ")"

def MomentIssue.message : MomentIssue → String
  | .year given => s!"year {given} is out of range"
  | .month => "month must be in 1..12"
  | .day => "day is out of range for month"
  | .hour => "hour must be in 0..23"
  | .minute => "minute must be in 0..59"
  | .second => "second must be in 0..59"
  | .offset minutes =>
    "offset must be a timedelta strictly between -timedelta(hours=24) and timedelta(hours=24), not " ++
      offsetRepr minutes ++ "."

inductive Fault where
  | notYaml
  /-- An escape for a code beyond the last character, or beyond what a code may be. -/
  | noCharacter
  | codeTooLarge
  | number (fault : Number.Fault)
  /-- An empty text for a number. -/
  | emptyNumber
  /-- A text for a truth value that is none. -/
  | noTruthValue (given : String)
  | noMoment
  /-- Entries where the text of a moment is due. -/
  | momentOfEntries
  | moment (issue : MomentIssue)
  deriving DecidableEq, Repr

def Fault.message : Fault → String
  | .notYaml => "not YAML"
  | .noCharacter => "chr() arg not in range(0x110000)"
  | .codeTooLarge => "Python int too large to convert to C int"
  | .number fault => fault.message
  | .emptyNumber => "string index out of range"
  | .noTruthValue given => Text.quote given
  | .noMoment => "'NoneType' object has no attribute 'groupdict'"
  | .momentOfEntries => "expected string or bytes-like object, got 'list'"
  | .moment issue => issue.message

end StaticSite.Yaml
