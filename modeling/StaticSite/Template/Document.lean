import StaticSite.Template.Folding
import StaticSite.Template.Reader.Statement

/-!
# Templates as documents

A document is a template that was read: its statements and all of its blocks. `Document.ofText` refuses
filters and tests that are not known, except where a condition guards them, two blocks of one name, and
`extends` inside loops and blocks.
-/

namespace StaticSite.Template

def filterNames : List String :=
  ["upper", "lower", "length", "count", "join", "first", "last", "default", "d", "safe", "escape",
    "e"]

def testNames : List String := ["defined", "undefined"]

namespace Statement

mutual

/-- A statement and all those inside it, an outer one before its inner ones; blocks are looked into if
`blocks` is set. -/
def within (blocks : Bool) : Statement → List Statement
  | .branch branches otherwise =>
    .branch branches otherwise :: (withinBranches blocks branches ++ withinAll blocks otherwise)
  | .loop target items test body otherwise =>
    .loop target items test body otherwise :: (withinAll blocks body ++ withinAll blocks otherwise)
  | .capture target body => .capture target body :: withinAll blocks body
  | .block name seesLoops body =>
    .block name seesLoops body :: if blocks then withinAll blocks body else []
  | s => [s]

def withinAll (blocks : Bool) : List Statement → List Statement
  | [] => []
  | s :: ss => s.within blocks ++ withinAll blocks ss

def withinBranches (blocks : Bool) : List (Expr × List Statement) → List Statement
  | [] => []
  | (_, body) :: bs => withinAll blocks body ++ withinBranches blocks bs

end

/-- The expressions of a statement itself. -/
def exprs : Statement → List Expr
  | .output e => [e]
  | .branch branches _ => branches.map (·.1)
  | .loop _ items test _ _ => items :: test.toList
  | .assign _ e => [e]
  | .embed e _ => [e]
  | .extend e => [e]
  | _ => []

/-- The statements use the name outside of the blocks in them. -/
def anyMentions (name : String) (ss : List Statement) : Bool :=
  (withinAll false ss).any fun s => s.exprs.any (name ∈ ·.names)

def block? : Statement → Option (String × List Statement)
  | .block name _ body => some (name, body)
  | _ => none

/-- The names that a statement itself gives values to. -/
def assigned : Statement → List String
  | .loop target _ _ _ _ => target.names
  | .assign target _ => target.names
  | .capture target _ => target.names
  | _ => []

/-- A loop with this body and this other branch keeps its state: the body uses it, or a block in the
loop sees it. -/
def keepsState (body otherwise : List Statement) : Bool :=
  anyMentions "loop" body ||
    (withinAll true body ++ withinAll true otherwise).any fun s => s matches .block _ true _

/-! ## Checks -/

/-- Where a statement stands. -/
structure Place where
  /-- Under a condition. -/
  guarded : Bool := false
  /-- Outside of all loops and blocks. -/
  top : Bool := false
  /-- Behind `extends`, where outputs are left out. -/
  silent : Bool := false

/-- The filter or test of an expression if it is not known. -/
def unknown? (e : Expr) : Option Fault :=
  match e with
  | .filter _ name _ _ => if name ∈ filterNames then none else some (.unknownFilter name)
  | .test _ name _ _ => if name ∈ testNames then none else some (.unknownTest name)
  | _ => none

def checkExpr (place : Place) (e : Expr) : Except Fault Unit :=
  match if place.guarded then none else (e.findAll false unknown?).head? with
  | some fault => .error fault
  | none => .ok ()

mutual

def check (place : Place) : Statement → Except Fault Unit
  | .data _ => .ok ()
  | .output e => if place.silent then .ok () else checkExpr place e
  | .branch branches otherwise => do
    checkBranches { place with guarded := true } branches
    checkAll { place with guarded := true } otherwise
  | .loop target items test body otherwise => do
    checkExpr place items
    if "loop" ∈ target.names ++ (withinAll true body ++ withinAll true otherwise).flatMap assigned then
      throw .loopTarget
    let inner : Place := { silent := place.silent }
    match test with
    | some e => checkExpr inner e
    | none => pure ()
    checkAll inner body
    checkAll inner otherwise
  | .assign _ e => checkExpr place e
  | .capture _ body => checkAll {} body
  | .embed e _ => checkExpr place e
  | .extend e => if place.top then checkExpr place e else .error .innerExtends
  | .block _ _ body => checkAll {} body

def checkAll (place : Place) : List Statement → Except Fault Unit
  | [] => .ok ()
  | s :: ss => do
    check place s
    let extended := place.top && !place.guarded && s matches .extend _
    checkAll { place with silent := place.silent || extended } ss

def checkBranches (place : Place) : List (Expr × List Statement) → Except Fault Unit
  | [] => .ok ()
  | (e, body) :: bs => do checkExpr place e; checkAll place body; checkBranches place bs

end

end Statement

structure Document where
  name : String
  body : List Statement
  blocks : List (String × List Statement)
  deriving Repr, Inhabited

namespace Document

/-- The first name that stands twice in a list. -/
def repeated? : List String → Option String
  | [] => none
  | s :: ss => if s ∈ ss then some s else repeated? ss

/-- The document that a text holds. -/
def ofText (m : Marks) (strict : Bool) (name s : String) : Except Fault Document := do
  let body := Statement.foldAll strict (← statementsOf (← Token.ofText m s))
  let blocks := (Statement.withinAll true body).filterMap Statement.block?
  match repeated? (blocks.map (·.1)) with
  | some block => throw (.blockTwice block)
  | none =>
    Statement.checkAll { top := true } body
    return ⟨name, body, blocks⟩

end Document

end StaticSite.Template
