import StaticSite.Number.Reading
import StaticSite.Text.Position

/-!
# What is wrong with a JSON text
-/

namespace StaticSite.Json

inductive Issue where
  | byteOrderMark
  | expectingValue
  | expectingName
  | expectingColon
  | expectingComma
  | extraData
  | unterminatedText
  | controlCharacter
  | escape
  | unicodeEscape
  deriving DecidableEq, Repr

def Issue.text : Issue → String
  | .byteOrderMark => "Unexpected UTF-8 BOM (decode using utf-8-sig)"
  | .expectingValue => "Expecting value"
  | .expectingName => "Expecting property name enclosed in double quotes"
  | .expectingColon => "Expecting ':' delimiter"
  | .expectingComma => "Expecting ',' delimiter"
  | .extraData => "Extra data"
  | .unterminatedText => "Unterminated string starting at"
  | .controlCharacter => "Invalid control character at"
  | .escape => "Invalid \\escape"
  | .unicodeEscape => "Invalid \\uXXXX escape"

inductive Fault where
  | found (issue : Issue) (position : Text.Position)
  | number (fault : Number.Fault)
  /-- Lists and maps nested too deep; `inMap` says what the one too many is. -/
  | tooDeep (inMap : Bool)
  deriving DecidableEq, Repr

def Fault.message : Fault → String
  | .found issue position => issue.text ++ ": " ++ position.text
  | .number fault => fault.message
  | .tooDeep inMap =>
    "maximum recursion depth exceeded while decoding a JSON " ++
      (if inMap then "object" else "array") ++ " from a unicode string"

/-- The text is beyond what can be read, whether it is JSON or not. -/
def Fault.isTooDeep : Fault → Bool
  | .tooDeep _ => true
  | _ => false

end StaticSite.Json
