import StaticSite.Number.Decimal
import StaticSite.Number.Reading
import StaticSite.Text.Quoted
import StaticSite.Value.Basic

/-!
# The text of a value

`Value.toText` is how a value is printed: a text as it is, everything else as `Value.literal`,
which quotes the texts inside collections. A value with an integer of too many digits has no text.
-/

namespace StaticSite.Value

def momentLiteral (t : Moment) : String :=
  let parts := [t.date.year, t.date.month, t.date.day, t.hour, t.minute]
  let parts := if t.second = 0 ∧ t.microsecond = 0 then parts else parts ++ [t.second]
  let parts := if t.microsecond = 0 then parts else parts ++ [t.microsecond]
  "datetime.datetime(" ++ ", ".intercalate (parts.map toString) ++
    (match t.offset with
      | none => ""
      | some 0 => ", tzinfo=datetime.timezone.utc"
      | some m => ", tzinfo=datetime.timezone(" ++
          (if m < 0 then "datetime.timedelta(days=-1, seconds=" ++ toString (86400 + 60 * m)
            else "datetime.timedelta(seconds=" ++ toString (60 * m)) ++ "))") ++ ")"

mutual

def literal : Value → String
  | .null => "None"
  | .bool b => if b then "True" else "False"
  | .int n => toString n
  | .float x => x.text
  | .text s => Text.quote s
  | .bytes bs => Text.quoteBytes bs
  | .list items => "[" ++ ", ".intercalate (literals items) ++ "]"
  | .tuple [v] => "(" ++ literal v ++ ",)"
  | .tuple items => "(" ++ ", ".intercalate (literals items) ++ ")"
  | .set [] => "set()"
  | .set items => "\x7b" ++ ", ".intercalate (literals items) ++ "\x7d"
  | .map entries => "\x7b" ++ ", ".intercalate (entryLiterals entries) ++ "\x7d"
  | .date d => s!"datetime.date({d.year}, {d.month}, {d.day})"
  | .moment t => momentLiteral t
  | .knot v => literal v
  | .back _ isMap => if isMap then "\x7b...\x7d" else "[...]"

def literals : List Value → List String
  | [] => []
  | v :: vs => literal v :: literals vs

def entryLiterals : List (Value × Value) → List String
  | [] => []
  | (k, v) :: es => (literal k ++ ": " ++ literal v) :: entryLiterals es

end

mutual

/-- No integer in the value has too many digits. -/
def isWritable : Value → Bool
  | .int n => Number.isWritable n
  | .list items => areWritable items
  | .tuple items => areWritable items
  | .set items => areWritable items
  | .map entries => haveWritable entries
  | .knot v => isWritable v
  | _ => true

def areWritable : List Value → Bool
  | [] => true
  | v :: vs => isWritable v && areWritable vs

def haveWritable : List (Value × Value) → Bool
  | [] => true
  | (k, v) :: es => isWritable k && isWritable v && haveWritable es

end

/-- The text of a value whose integers can be written. -/
def plainText : Value → String
  | .text s => s
  | .date d => d.text
  | .moment t => t.text
  | v => v.literal

def toText (v : Value) : Except Number.Fault String :=
  if v.isWritable then .ok v.plainText else .error .tooLongToWrite

end StaticSite.Value
