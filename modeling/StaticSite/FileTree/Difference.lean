import StaticSite.FileTree.Basic

/-!
# Differences of file trees

`lost` and `fresh` say how one tree became another: what is gone, and what is new or different.
-/

namespace StaticSite.FileTree

/-- What stood in the tree `before` and stands in `after` no more. -/
def lost (before after : FileTree) : List (Location × Node) :=
  before.entries.filter fun e => (after.get? e.1).isNone

/-- What stands in the tree `after` and did not so in `before`. -/
def fresh (before after : FileTree) : List (Location × Node) :=
  after.entries.filter fun e => before.get? e.1 ≠ some e.2

theorem lost_self (t : FileTree) (h : ∀ e ∈ t.entries, t.get? e.1 = some e.2) : t.lost t = [] := by
  simp only [lost, List.filter_eq_nil_iff]
  intro e he
  simp [h e he]

theorem fresh_self (t : FileTree) (h : ∀ e ∈ t.entries, t.get? e.1 = some e.2) :
    t.fresh t = [] := by
  simp only [fresh, List.filter_eq_nil_iff]
  intro e he
  simp [h e he]

end StaticSite.FileTree
