import StaticSite.Template.Expr

/-!
# Names before they have a value

A loop, a block and a template each have variables of their own: the names that their statements give values
to. If the statements use such a name first, it begins with the value from around; otherwise it has none until
it is given one, and `Names.pending` lists it. What an inner loop does counts for the inner loop alone.
-/

namespace StaticSite.Template

/-- What some statements refer to. -/
structure Names where
  /-- Every name that they refer to, and whether it is given a value before it is used. -/
  found : List (String × Bool) := []
  given : List String := []

namespace Names

def knows (ns : Names) (name : String) : Bool := (ns.found.lookup name).isSome

def all (ns : Names) : List String := ns.found.map (·.1)

/-- The names without a value at first. -/
def pending (ns : Names) : List String := (ns.found.filter (·.2)).map (·.1)

/-- Names that have their values from the beginning. -/
def ofKnown (names : List String) : Names := ⟨names.map (·, false), names⟩

theorem pending_ofKnown (names : List String) : (ofKnown names).pending = [] := by
  induction names with
  | nil => rfl
  | cons n ns ih => simp [ofKnown, pending]

/-- A name is used; `outer` are the names known around. -/
def use (outer : List String) (ns : Names) (name : String) : Names :=
  if name ∈ outer ∨ ns.knows name then ns else { ns with found := (name, false) :: ns.found }

/-- A name is given a value. -/
def give (outer : List String) (ns : Names) (name : String) : Names :=
  { found := if ns.knows name then ns.found else (name, decide (name ∉ outer)) :: ns.found
    given := name :: ns.given }

/-- One of three ways is taken, each of which went on from the same names. -/
def join (ns first second third : Names) : Names :=
  let fresh := (first.all ++ second.all ++ third.all).eraseDups.filter fun name => !ns.knows name
  let isPending (name : String) : Bool :=
    first.given.contains name && second.given.contains name && third.given.contains name &&
      third.pending.contains name
  { found := ns.found ++ fresh.map fun name => (name, isPending name)
    given := first.given ++ second.given ++ third.given }

end Names

namespace Statement

mutual

/-- The names after a statement. -/
def names (outer : List String) : Statement → Names → Names
  | .data _, ns => ns
  | .output e, ns => e.names.foldl (Names.use outer) ns
  | .branch [] otherwise, ns => namesOfAll outer otherwise ns
  | .branch ((e, body) :: more) otherwise, ns =>
    let ns := e.names.foldl (Names.use outer) ns
    ns.join (namesOfAll outer body ns) (namesOfBranches outer more ns) (namesOfAll outer otherwise ns)
  | .loop _ items _ _ _, ns => items.names.foldl (Names.use outer) ns
  | .assign target e, ns =>
    target.names.foldl (Names.give outer) (e.names.foldl (Names.use outer) ns)
  | .capture target _, ns => target.names.foldl (Names.give outer) ns
  | .embed e _, ns => e.names.foldl (Names.use outer) ns
  | .extend e, ns => e.names.foldl (Names.use outer) ns
  | .block _ _ _, ns => ns

def namesOfAll (outer : List String) : List Statement → Names → Names
  | [], ns => ns
  | s :: ss, ns => namesOfAll outer ss (names outer s ns)

/-- Each branch may be taken or not. -/
def namesOfBranches (outer : List String) : List (Expr × List Statement) → Names → Names
  | [], ns => ns
  | (e, body) :: more, ns =>
    let ns := e.names.foldl (Names.use outer) ns
    namesOfBranches outer more (ns.join (namesOfAll outer body ns) ns ns)

end

end Statement

end StaticSite.Template
