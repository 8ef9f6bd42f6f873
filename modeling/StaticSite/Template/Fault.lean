import StaticSite.Number.Reading
import StaticSite.Path.Basic
import StaticSite.Text.Quoted
import StaticSite.Text.Utf8

/-!
# What can go wrong in a template

A template may be unreadable, refer to templates, filters or tests that are not there, use a value that is
missing, or use a value as what it is not. Every cause has one message.
-/

namespace StaticSite.Template

/-- What a missing value stands for. -/
inductive Missing where
  | name (name : String)
  | attribute (owner name : String)
  | element (owner key : String)
  | firstItem
  | lastItem
  /-- The value of a choice that has no other branch. -/
  | choice (line : Nat) (template : String)
  | upperBlock (name : String)
  deriving DecidableEq, Repr

def Missing.message : Missing → String
  | .name s => Text.quote s ++ " is undefined"
  | .attribute owner s => Text.quote owner ++ " has no attribute " ++ Text.quote s
  | .element owner key => owner ++ " has no element " ++ key
  | .firstItem => "No first item, sequence was empty."
  | .lastItem => "No last item, sequence was empty."
  | .choice line template =>
    "the inline if-expression on line " ++ toString line ++ " in " ++ Text.quote template ++
      " evaluated to false and no else section was defined."
  | .upperBlock s => "there is no parent block called " ++ Text.quote s ++ "."

/-- Arguments that a function does not take. -/
inductive Misfit where
  /-- More values than the `least` to `most` parameters can take. -/
  | tooMany (function : String) (least most given : Nat)
  | unknownName (function name : String)
  /-- A parameter that has its value already. -/
  | givenTwice (function name : String)
  /-- A parameter that is never given by name. -/
  | onlyByPlace (function name : String)
  | notOne (function : String) (given : Nat)
  | noNames (function : String)
  deriving DecidableEq, Repr

def Misfit.message : Misfit → String
  | .tooMany function least most given =>
    function ++ "() takes " ++
      (if least = most then s!"{most} positional argument" ++ (if most = 1 then "" else "s")
        else s!"from {least} to {most} positional arguments") ++ s!" but {given} were given"
  | .unknownName function name =>
    function ++ "() got an unexpected keyword argument '" ++ name ++ "'"
  | .givenTwice function name =>
    function ++ "() got multiple values for argument '" ++ name ++ "'"
  | .onlyByPlace function name =>
    function ++ "() got some positional-only arguments passed as keyword arguments: '" ++ name ++ "'"
  | .notOne function given => function ++ s!"() takes exactly one argument ({given} given)"
  | .noNames function => function ++ "() takes no keyword arguments"

/-- The use of a value as what it is not; types are given by name. -/
inductive Misuse where
  | operands (op left right : String)
  | concat (left right : String)
  | concatBytes (right : String)
  | times (count : String)
  | sign (op type : String)
  | order (op left right : String)
  | momentOrder (left right : String)
  | offsetOrder
  | unhashable (type : String)
  | memberOfText (type : String)
  | memberOfBytes (type : String)
  | notContainer (type : String)
  | notIterable (type : String)
  | notReversible (type : String)
  | notUnpackable (type : String)
  | noLength (type : String)
  | notCallable (type : String)
  | arguments (misfit : Misfit)
  deriving DecidableEq, Repr

def Misuse.message : Misuse → String
  | .operands op left right =>
    "unsupported operand type(s) for " ++ op ++ ": '" ++ left ++ "' and '" ++ right ++ "'"
  | .concat left right =>
    "can only concatenate " ++ left ++ " (not \"" ++ right ++ "\") to " ++ left
  | .concatBytes right => "can't concat " ++ right ++ " to bytes"
  | .times count => "can't multiply sequence by non-int of type '" ++ count ++ "'"
  | .sign op type => "bad operand type for unary " ++ op ++ ": '" ++ type ++ "'"
  | .order op left right =>
    "'" ++ op ++ "' not supported between instances of '" ++ left ++ "' and '" ++ right ++ "'"
  | .momentOrder left right => "can't compare " ++ left ++ " to " ++ right
  | .offsetOrder => "can't compare offset-naive and offset-aware datetimes"
  | .unhashable type => "unhashable type: '" ++ type ++ "'"
  | .memberOfText type => "'in <string>' requires string as left operand, not " ++ type
  | .memberOfBytes type => "a bytes-like object is required, not '" ++ type ++ "'"
  | .notContainer type => "argument of type '" ++ type ++ "' is not iterable"
  | .notIterable type => "'" ++ type ++ "' object is not iterable"
  | .notReversible type => "'" ++ type ++ "' object is not reversible"
  | .notUnpackable type => "cannot unpack non-iterable " ++ type ++ " object"
  | .noLength type => "object of type '" ++ type ++ "' has no len()"
  | .notCallable type => "'" ++ type ++ "' object is not callable"
  | .arguments misfit => misfit.message

inductive Fault where
  /-- The kinds of tags begin alike. -/
  | marks
  /-- The text is no template. -/
  | malformed (problem : String)
  | unknownFilter (name : String)
  | unknownTest (name : String)
  | blockTwice (name : String)
  /-- A template is extended from inside a loop or a block. -/
  | innerExtends
  /-- The name of the loop state is used for its items. -/
  | loopTarget
  | notFound (name : String) (searched : Option Path)
  | noneFound (names : List String)
  | noNames
  /-- None of the templates named by the keys of a map is there. -/
  | noneOfKeys
  | noPath
  | nameType (type : String)
  | bytes (fault : Text.Utf8.Fault)
  | tooDeep
  | missing (what : Missing)
  /-- A filter or test that is only known to be missing when it is used. -/
  | notThere (kind name : String)
  | extendsTwice
  /-- A number that is not finite is used; in a program it would be a name without a value. -/
  | endless (name : String)
  /-- A field is given a value. -/
  | fieldTarget
  | misuse (what : Misuse)
  | division (exact : Bool)
  | quotientTooLarge
  | numberTooLarge
  /-- An integer in the template has too many digits. -/
  | tooManyDigits (count : Nat)
  /-- An integer has too many digits to be printed. -/
  | tooLongToWrite
  /-- A number is looked for in bytes that is none. -/
  | noByte
  | tooFewValues (wanted given : Nat)
  | tooManyValues (wanted : Nat)
  deriving DecidableEq, Repr

def Fault.message : Fault → String
  | .marks => "block, variable and comment start strings must be different."
  | .malformed problem => problem
  | .unknownFilter name => "No filter named " ++ Text.quote name ++ "."
  | .unknownTest name => "No test named " ++ Text.quote name ++ "."
  | .blockTwice name => "block " ++ Text.quote name ++ " defined twice"
  | .innerExtends => "cannot use extend from a non top-level scope"
  | .loopTarget => "Can't assign to special loop variable in for-loop target"
  | .notFound name none => name
  | .notFound name (some searched) =>
    Text.quote name ++ " not found in search path: " ++ Text.quote searched.text
  | .noneFound names => "none of the templates given were found: " ++ ", ".intercalate names
  | .noNames => "Tried to select from an empty list of templates."
  | .noneOfKeys => "-1"
  | .noPath => "tuple index out of range"
  | .nameType type => "'" ++ type ++ "' object has no attribute 'split'"
  | .bytes fault => fault.message
  | .tooDeep => "maximum recursion depth exceeded"
  | .missing what => what.message
  | .notThere kind name => "No " ++ kind ++ " named " ++ Text.quote name ++ " found."
  | .extendsTwice => "extended multiple times"
  | .endless name => "name '" ++ name ++ "' is not defined"
  | .fieldTarget => "cannot assign attribute on non-namespace object"
  | .misuse what => what.message
  | .division exact => if exact then "division by zero" else "float division by zero"
  | .quotientTooLarge => "integer division result too large for a float"
  | .numberTooLarge => "int too large to convert to float"
  | .tooManyDigits count => (Number.Fault.tooManyDigits count).message
  | .tooLongToWrite => Number.Fault.tooLongToWrite.message
  | .noByte => "byte must be in range(0, 256)"
  | .tooFewValues wanted given => s!"not enough values to unpack (expected {wanted}, got {given})"
  | .tooManyValues wanted => s!"too many values to unpack (expected {wanted})"

end StaticSite.Template
