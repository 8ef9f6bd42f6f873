import StaticSite.Template.Expr
import StaticSite.Template.Filter

/-!
# The value of an expression

An expression is evaluated in a scope: the variables of the template, those of the loops and blocks around the
expression, and the outputs of the blocks that it may call.
-/

namespace StaticSite.Template

/-- Names with their items, the latest first. -/
abbrev Variables := List (String × Item)

/-- The variables of a template, a block or a loop. -/
structure Frame where
  /-- Names that have no value until a statement gives them one. -/
  pending : List String := []
  values : Variables := []

structure Scope where
  /-- Missing values are strict. -/
  strict : Bool
  template : String
  globals : Variables
  /-- The frames around the expression, the innermost first. -/
  frames : List Frame
  /-- The output of a block of the template that is so many steps up. -/
  block : String → Nat → Except Fault String
  /-- The template does not run yet: names have no values, and joining makes no text safe. -/
  early : Bool := false

namespace Scope

/-- The scope before the template runs. -/
def ahead (strict : Bool) : Scope :=
  { strict, template := "", globals := [], frames := []
    block := fun s _ => .error (.missing (.upperBlock s)), early := true }

/-- The value of a name in a frame; a name that waits for one is missing. -/
def findIn? (scope : Scope) (name : String) (frame : Frame) : Option Item :=
  frame.values.lookup name <|>
    if name ∈ frame.pending then some (.missing (.name name) scope.strict) else none

def find (scope : Scope) (name : String) : Except Fault Item :=
  if scope.early then .error (.missing (.name name))
  else .ok (((scope.frames.findSome? (scope.findIn? name)) <|> scope.globals.lookup name).getD
    (.missing (.name name) scope.strict))

/-- The item that a choice gives if it has no branch to take. -/
def noBranch (scope : Scope) (line : Nat) : Except Fault Item :=
  let what := Missing.choice line scope.template
  if scope.early then .error (.missing what) else .ok (.missing what false)

/-- An item that is known before the template runs. -/
def literal (scope : Scope) (item : Item) : Except Fault Item :=
  if scope.early then .ok item
  else match item.endless? with
    | some name => .error (.endless name)
    | none => if item.isWritable then .ok item else .error .tooLongToWrite

def join (scope : Scope) (items : List Item) : Except Fault Item := do
  if scope.early then return .text (String.join (← items.mapM Item.toText)) else Item.join items

/-- A block one step up takes no arguments. -/
def blockSignature : Signature := ⟨"BlockReference.__call__", ["self"], []⟩

def call (scope : Scope) (f : Item) (args : List Item) (named : List (String × Item)) :
    Except Fault Item := do
  match f with
  | .missing what _ => throw (.missing what)
  | .upper block level =>
    let _ ← blockSignature.bind args named
    return .safe (← scope.block block level)
  | f => Item.misuse (.notCallable f.typeName)

end Scope

namespace Expr

mutual

def eval (scope : Scope) : Expr → Except Fault Item
  | .literal item => scope.literal item
  | .name s => scope.find s
  | .list items => do return .list (← evalAll scope items)
  | .tuple items => do return .tuple (← evalAll scope items)
  | .map entries => do return .map (← evalEntries scope [] entries)
  | .part e key => do
    let item ← eval scope e
    item.part scope.strict (← eval scope key)
  | .field e s => do (← eval scope e).get scope.strict s
  | .call f args named => do
    let f ← eval scope f
    let args ← evalAll scope args
    scope.call f args (← evalNamed scope named)
  | .filter e s args named => do
    let item ← eval scope e
    let args ← evalAll scope args
    applyFilter scope.strict s item args (← evalNamed scope named)
  | .test e s args named => do
    let item ← eval scope e
    let args ← evalAll scope args
    return .bool (← applyTest s item args (← evalNamed scope named))
  | .signed negative e => do (← eval scope e).signed negative
  | .operate op a b => do
    let a ← eval scope a
    a.operate op (← eval scope b)
  | .join items => do scope.join (← evalAll scope items)
  | .compare e rest => do evalRest scope (← eval scope e) rest
  | .not e => do return .bool !(← (← eval scope e).isTrue)
  | .and a b => do
    let a ← eval scope a
    if ← a.isTrue then eval scope b else return a
  | .or a b => do
    let a ← eval scope a
    if ← a.isTrue then return a else eval scope b
  | .choose c yes no => do
    if ← (← eval scope c).isTrue then eval scope yes else eval scope no
  | .noBranch line => scope.noBranch line
  | .known _ item => scope.literal item

def evalAll (scope : Scope) : List Expr → Except Fault (List Item)
  | [] => .ok []
  | e :: es => do
    let item ← eval scope e
    return item :: (← evalAll scope es)

/-- The entries of a map after those given. -/
def evalEntries (scope : Scope) (done : List (Item × Item)) :
    List (Expr × Expr) → Except Fault (List (Item × Item))
  | [] => .ok done
  | (k, v) :: es => do
    let key ← eval scope k
    let item ← eval scope v
    key.asKey
    evalEntries scope (← Item.setEntry key item done) es

def evalNamed (scope : Scope) : List (String × Expr) → Except Fault (List (String × Item))
  | [] => .ok []
  | (s, e) :: es => do
    let item ← eval scope e
    return (s, item) :: (← evalNamed scope es)

/-- Compares `a` with the first expression, and if that holds, that one with the rest. -/
def evalRest (scope : Scope) (a : Item) : List (Comparison × Expr) → Except Fault Item
  | [] => .ok (.bool true)
  | (c, e) :: rest => do
    let b ← eval scope e
    if ← a.compare c b then evalRest scope b rest else return .bool false

end

end Expr

end StaticSite.Template
