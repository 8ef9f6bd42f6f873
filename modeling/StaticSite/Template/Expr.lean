import StaticSite.Template.Operation

/-!
# Expressions and statements

What a template consists of. A template is a list of statements; a block may stand anywhere among them and is
known by its name.
-/

namespace StaticSite.Template

inductive Expr where
  | literal (item : Item)
  | name (s : String)
  | list (items : List Expr)
  | tuple (items : List Expr)
  | map (entries : List (Expr × Expr))
  /-- The part of an item with a key. -/
  | part (e key : Expr)
  | field (e : Expr) (name : String)
  | call (f : Expr) (args : List Expr) (named : List (String × Expr))
  | filter (e : Expr) (name : String) (args : List Expr) (named : List (String × Expr))
  | test (e : Expr) (name : String) (args : List Expr) (named : List (String × Expr))
  | signed (negative : Bool) (e : Expr)
  | operate (op : Operator) (a b : Expr)
  | join (items : List Expr)
  /-- A chain of comparisons, each between neighbours. -/
  | compare (e : Expr) (rest : List (Comparison × Expr))
  | not (e : Expr)
  | and (a b : Expr)
  | or (a b : Expr)
  | choose (condition yes no : Expr)
  /-- The other branch of a choice that has none: a missing value that is never strict. -/
  | noBranch (line : Nat)
  /-- An expression whose value is known before the template runs. -/
  | known (e : Expr) (item : Item)
  deriving Repr, Inhabited

/-- What takes a value: a name, or several targets that share its parts. -/
inductive Target where
  | name (s : String)
  /-- A field of an item; no item lets a template change its fields. -/
  | field (s field : String)
  | tuple (targets : List Target)
  deriving Repr, Inhabited

inductive Statement where
  | data (s : String)
  | output (e : Expr)
  | branch (branches : List (Expr × List Statement)) (otherwise : List Statement)
  /-- A loop over the items that pass the test; `otherwise` if there are none. -/
  | loop (target : Target) (items : Expr) (test : Option Expr) (body otherwise : List Statement)
  | assign (target : Target) (e : Expr)
  /-- Gives a target the output of statements. -/
  | capture (target : Target) (body : List Statement)
  /-- Puts the output of another template here. -/
  | embed (name : Expr) (mayMiss : Bool)
  /-- Makes the template give its blocks to another one. -/
  | extend (name : Expr)
  /-- A block, which may see the variables of the loops around it. -/
  | block (name : String) (seesLoops : Bool) (body : List Statement)
  deriving Repr, Inhabited

namespace Expr

mutual

/-- What `f` finds in an expression and inside it; choices and known expressions are looked into if
`choices` is set. -/
def findAll {α : Type} (choices : Bool) (f : Expr → Option α) : Expr → List α
  | .literal item => (f (.literal item)).toList
  | .name s => (f (.name s)).toList
  | .list items => (f (.list items)).toList ++ findIn choices f items
  | .tuple items => (f (.tuple items)).toList ++ findIn choices f items
  | .map entries => (f (.map entries)).toList ++ findInEntries choices f entries
  | .part e key => (f (.part e key)).toList ++ findAll choices f e ++ findAll choices f key
  | .field e s => (f (.field e s)).toList ++ findAll choices f e
  | .call g args named =>
    (f (.call g args named)).toList ++ findAll choices f g ++ findIn choices f args ++
      findInNamed choices f named
  | .filter e s args named =>
    (f (.filter e s args named)).toList ++ findAll choices f e ++ findIn choices f args ++
      findInNamed choices f named
  | .test e s args named =>
    (f (.test e s args named)).toList ++ findAll choices f e ++ findIn choices f args ++
      findInNamed choices f named
  | .signed negative e => (f (.signed negative e)).toList ++ findAll choices f e
  | .operate op a b => (f (.operate op a b)).toList ++ findAll choices f a ++ findAll choices f b
  | .join items => (f (.join items)).toList ++ findIn choices f items
  | .compare e rest => (f (.compare e rest)).toList ++ findAll choices f e ++ findInRest choices f rest
  | .not e => (f (.not e)).toList ++ findAll choices f e
  | .and a b => (f (.and a b)).toList ++ findAll choices f a ++ findAll choices f b
  | .or a b => (f (.or a b)).toList ++ findAll choices f a ++ findAll choices f b
  | .choose c yes no =>
    (f (.choose c yes no)).toList ++
      if choices then findAll choices f c ++ findAll choices f yes ++ findAll choices f no else []
  | .noBranch line => (f (.noBranch line)).toList
  | .known e _ => if choices then findAll choices f e else []

def findIn {α : Type} (choices : Bool) (f : Expr → Option α) : List Expr → List α
  | [] => []
  | e :: es => findAll choices f e ++ findIn choices f es

def findInEntries {α : Type} (choices : Bool) (f : Expr → Option α) : List (Expr × Expr) → List α
  | [] => []
  | (k, v) :: es => findAll choices f k ++ findAll choices f v ++ findInEntries choices f es

def findInNamed {α : Type} (choices : Bool) (f : Expr → Option α) : List (String × Expr) → List α
  | [] => []
  | (_, e) :: es => findAll choices f e ++ findInNamed choices f es

def findInRest {α : Type} (choices : Bool) (f : Expr → Option α) :
    List (Comparison × Expr) → List α
  | [] => []
  | (_, e) :: es => findAll choices f e ++ findInRest choices f es

end

/-- The names that an expression uses. -/
def names (e : Expr) : List String :=
  e.findAll true fun
    | .name s => some s
    | _ => none

/-- The value of an expression that needs nothing else. -/
def known? : Expr → Option Item
  | .literal item => some item
  | .known _ item => some item
  | _ => none

end Expr

namespace Target

mutual

def names : Target → List String
  | .name s => [s]
  | .field _ _ => []
  | .tuple targets => namesOf targets

def namesOf : List Target → List String
  | [] => []
  | t :: ts => names t ++ namesOf ts

end

end Target

end StaticSite.Template
