import StaticSite.Template.Evaluation

/-!
# Values known before the template runs

`Statement.fold strict` finds the parts of a statement's expressions that depend on no variable and gives them
their values. A part that fails is left as it is and fails when it is used; so is one whose value could be told
only by a branch that is not there. Texts joined with `~` in such a part are plain even if one of them is safe.
-/

namespace StaticSite.Template

namespace Expr

/-- The expression with its value, if that is known and consists of data. -/
def settle (strict : Bool) (e : Expr) : Expr :=
  match e.eval (.ahead strict) with
  | .ok item => if item.isData then .known e item else e
  | .error _ => e

mutual

/-- The expression with the values of all its known parts. -/
def fold (strict : Bool) : Expr → Expr
  | .list items => settle strict (.list (foldAll strict items))
  | .tuple items => settle strict (.tuple (foldAll strict items))
  | .map entries => settle strict (.map (foldEntries strict entries))
  | .part e key => settle strict (.part (fold strict e) (fold strict key))
  | .field e s => settle strict (.field (fold strict e) s)
  | .call f args named => .call (fold strict f) (foldAll strict args) (foldNamed strict named)
  | .filter e s args named =>
    settle strict (.filter (fold strict e) s (foldAll strict args) (foldNamed strict named))
  | .test e s args named =>
    settle strict (.test (fold strict e) s (foldAll strict args) (foldNamed strict named))
  | .signed negative e => settle strict (.signed negative (fold strict e))
  | .operate op a b => settle strict (.operate op (fold strict a) (fold strict b))
  | .join items => settle strict (.join (foldAll strict items))
  | .compare e rest => settle strict (.compare (fold strict e) (foldRest strict rest))
  | .not e => settle strict (.not (fold strict e))
  | .and a b => settle strict (.and (fold strict a) (fold strict b))
  | .or a b => settle strict (.or (fold strict a) (fold strict b))
  | .choose c yes no => settle strict (.choose (fold strict c) (fold strict yes) (fold strict no))
  | e => e

def foldAll (strict : Bool) : List Expr → List Expr
  | [] => []
  | e :: es => fold strict e :: foldAll strict es

def foldEntries (strict : Bool) : List (Expr × Expr) → List (Expr × Expr)
  | [] => []
  | (k, v) :: es => (fold strict k, fold strict v) :: foldEntries strict es

def foldNamed (strict : Bool) : List (String × Expr) → List (String × Expr)
  | [] => []
  | (s, e) :: es => (s, fold strict e) :: foldNamed strict es

def foldRest (strict : Bool) : List (Comparison × Expr) → List (Comparison × Expr)
  | [] => []
  | (c, e) :: es => (c, fold strict e) :: foldRest strict es

end

end Expr

namespace Statement

mutual

/-- The statement with the values of all known parts of its expressions. -/
def fold (strict : Bool) : Statement → Statement
  | .data s => .data s
  | .output e => .output (e.fold strict)
  | .branch branches otherwise =>
    .branch (foldBranches strict branches) (foldAll strict otherwise)
  | .loop target items test body otherwise =>
    .loop target (items.fold strict) (test.map (·.fold strict)) (foldAll strict body)
      (foldAll strict otherwise)
  | .assign target e => .assign target (e.fold strict)
  | .capture target body => .capture target (foldAll strict body)
  | .embed e mayMiss => .embed (e.fold strict) mayMiss
  | .extend e => .extend (e.fold strict)
  | .block name seesLoops body => .block name seesLoops (foldAll strict body)

def foldAll (strict : Bool) : List Statement → List Statement
  | [] => []
  | s :: ss => fold strict s :: foldAll strict ss

def foldBranches (strict : Bool) :
    List (Expr × List Statement) → List (Expr × List Statement)
  | [] => []
  | (e, body) :: bs => (e.fold strict, foldAll strict body) :: foldBranches strict bs

end

end Statement

end StaticSite.Template
