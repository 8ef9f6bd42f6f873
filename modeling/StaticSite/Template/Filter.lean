import StaticSite.Template.Field
import StaticSite.Template.Operation
import StaticSite.Text.Case

/-!
# Filters

A filter makes an item from an item. `applyFilter` finds it by its name and gives it its arguments by
place or by name.
-/

namespace StaticSite.Template

namespace Item

/-- Changes the text of an item; a safe text stays safe. -/
def mapText (f : String → String) : Item → Except Fault Item
  | .safe s => .ok (.safe (f s))
  | item => item.toText.map fun s => text (f s)

def first (strict : Bool) (item : Item) : Except Fault Item := do
  return (← item.elements).head?.getD (.missing .firstItem strict)

/-- The items from the back; characters of a safe text are safe. -/
def fromBack : Item → Except Fault (List Item)
  | .safe s => .ok (s.toList.reverse.map fun c => .safe c.toString)
  | .plain (.set _) => misuse (.notReversible "set")
  | item => match item.elements with
    | .error (.misuse _) => misuse (.notReversible item.typeName)
    | .error fault => .error fault
    | .ok items => .ok items.reverse

def last (strict : Bool) (item : Item) : Except Fault Item := do
  return (← item.fromBack).head?.getD (.missing .lastItem strict)

/-- The keys on the way to a part: names between points, numbers as numbers. -/
def partKeys (way : Item) : List Item :=
  match way with
  | .plain .null => []
  | .plain (.text s) => (Text.pieces '.' s).map fun piece =>
    match piece.toNat? with
    | some n => if piece.all Char.isDigit then int n else text piece
    | none => text piece
  | way => [way]

/-- The texts of the items with `between` between them; one safe text makes the result safe. -/
def joinWith (between : Item) (items : List Item) : Except Fault Item := do
  let isSafe (item : Item) : Bool := item matches .safe _
  if isSafe between || items.any isSafe then
    let texts ← items.mapM printed
    return .safe ((← between.printed).intercalate texts)
  else
    let texts ← items.mapM toText
    return text ((← between.toText).intercalate texts)

def joined (strict : Bool) (item between way : Item) : Except Fault Item := do
  let items ← item.elements
  joinWith between (← items.mapM fun item => (partKeys way).foldlM (part strict) item)

def orDefault (item other onlyTrue : Item) : Except Fault Item := do
  match item with
  | .missing _ _ => return other
  | item =>
    if ← onlyTrue.isTrue then
      if ← item.isTrue then return item else return other
    else return item

end Item

/-! ## Arguments -/

/-- The parameters of a function: those that have their values before any argument, and the others with
what they are if left out. -/
structure Signature where
  /-- The name of the function in messages. -/
  function : String
  filled : List String
  optional : List (String × Item) := []

namespace Signature

/-- Refuses a named argument after `count` arguments by place. -/
def checkName (g : Signature) (count : Nat) (name : String) : Except Fault Unit :=
  let taken := g.filled ++ (g.optional.take count).map (·.1)
  if name ∈ taken then Item.misuse (.arguments (.givenTwice g.function name))
  else if (g.optional.lookup name).isSome then .ok ()
  else Item.misuse (.arguments (.unknownName g.function name))

/-- The value of every optional parameter. -/
def bind (g : Signature) (args : List Item) (named : List (String × Item)) :
    Except Fault (List Item) := do
  let _ ← named.mapM fun (name, _) => g.checkName args.length name
  let least := g.filled.length
  let most := least + g.optional.length
  if most < least + args.length then
    Item.misuse (.arguments (.tooMany g.function least most (least + args.length)))
  else
    return args ++ (g.optional.drop args.length).map fun (s, v) => (named.lookup s).getD v

end Signature

/-- The parameters of the filters and tests. -/
def signatures : List (String × Signature) := [
  ("upper", ⟨"do_upper", ["s"], []⟩),
  ("lower", ⟨"do_lower", ["s"], []⟩),
  ("first", ⟨"sync_do_first", ["environment", "seq"], []⟩),
  ("last", ⟨"do_last", ["environment", "seq"], []⟩),
  ("join", ⟨"sync_do_join", ["eval_ctx", "value"],
    [("d", .text ""), ("attribute", .plain .null)]⟩),
  ("default", ⟨"do_default", ["value"], [("default_value", .text ""), ("boolean", .bool false)]⟩),
  ("d", ⟨"do_default", ["value"], [("default_value", .text ""), ("boolean", .bool false)]⟩),
  ("safe", ⟨"do_mark_safe", ["value"], []⟩),
  ("escape", ⟨"escape", ["s"], []⟩),
  ("e", ⟨"escape", ["s"], []⟩),
  ("defined", ⟨"test_defined", ["value"], []⟩),
  ("undefined", ⟨"test_undefined", ["value"], []⟩)]

/-- The arguments of the filter for lengths, which has none. -/
def bindLength (args : List Item) (named : List (String × Item)) : Except Fault (List Item) :=
  if !named.isEmpty then Item.misuse (.arguments (.noNames "len"))
  else if !args.isEmpty then Item.misuse (.arguments (.notOne "len" (args.length + 1)))
  else .ok []

/-- The values of the optional parameters of a filter or test. -/
def bindArguments (name : String) (args : List Item) (named : List (String × Item)) :
    Except Fault (List Item) :=
  if name = "length" ∨ name = "count" then bindLength args named
  else match signatures.lookup name with
    | some g =>
      if g.function = "escape" ∧ named.any (·.1 == "s") then
        Item.misuse (.arguments (.onlyByPlace g.function "s"))
      else g.bind args named
    | none => .ok []

def applyFilter (strict : Bool) (filter : String) (item : Item) (args : List Item)
    (named : List (String × Item)) : Except Fault Item := do
  match filter, ← bindArguments filter args named with
  | "upper", _ => item.mapText Text.upper
  | "lower", _ => item.mapText Text.lower
  | "length", _ => return .int (← item.length)
  | "count", _ => return .int (← item.length)
  | "first", _ => item.first strict
  | "last", _ => item.last strict
  | "join", [between, way] => item.joined strict between way
  | "default", [other, onlyTrue] => item.orDefault other onlyTrue
  | "d", [other, onlyTrue] => item.orDefault other onlyTrue
  | "safe", _ => return .safe (← item.toText)
  | "escape", _ => return .safe (← item.printed)
  | "e", _ => return .safe (← item.printed)
  | filter, _ => throw (.notThere "filter" filter)

def applyTest (name : String) (item : Item) (args : List Item) (named : List (String × Item)) :
    Except Fault Bool := do
  let isMissing := item matches .missing _ _
  match name, ← bindArguments name args named with
  | "defined", _ => return !isMissing
  | "undefined", _ => return isMissing
  | name, _ => throw (.notThere "test" name)

end StaticSite.Template
