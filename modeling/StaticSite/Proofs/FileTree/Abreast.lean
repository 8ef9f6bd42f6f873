import StaticSite.Proofs.Site.Draft
import StaticSite.Proofs.Site.Standing

/-!
# Two trees of one shape

The same operation on trees that differ only in the contents of files has the same result, and what it changes is the
same in both (`abreast_makeDirs`, `abreast_putFile`). A step keeps two trees abreast of those they started from: each
place holds the same in both or in each what it held at the start.
-/

namespace StaticSite.FileTree

variable {t t' u u' : FileTree}

/-! ## Shapes -/

/-- The same directories and files stand in both trees, files perhaps with other contents. -/
def SameShape (t t' : FileTree) : Prop := ∀ l, t'.get? l = t.get? l ∨ t.hasFile l = true ∧ t'.hasFile l = true

theorem SameShape.refl (t : FileTree) : SameShape t t := fun _ => .inl rfl

namespace SameShape

variable (h : SameShape t t')
include h

theorem isSome_eq (l : Location) : (t'.get? l).isSome = (t.get? l).isSome := by
  rcases h l with same | ⟨before, after⟩
  · rw [same]
  · obtain ⟨_, hb⟩ := hasFile_iff.1 before
    obtain ⟨_, ha⟩ := hasFile_iff.1 after
    rw [hb, ha]
    rfl

theorem dir_iff (l : Location) : t'.get? l = some .dir ↔ t.get? l = some .dir := by
  rcases h l with same | ⟨before, after⟩
  · rw [same]
  · obtain ⟨_, hb⟩ := hasFile_iff.1 before
    obtain ⟨_, ha⟩ := hasFile_iff.1 after
    simp [hb, ha]

theorem walk_eq (loc : Location) (segs : List String) : t'.walk loc segs = t.walk loc segs := by
  induction segs generalizing loc with
  | nil => rfl
  | cons s segs ih =>
    rw [walk, walk]
    rcases h loc with same | ⟨before, after⟩
    · rw [same]
      split <;> first | rfl | exact ih _
    · obtain ⟨_, hb⟩ := hasFile_iff.1 before
      obtain ⟨_, ha⟩ := hasFile_iff.1 after
      rw [hb, ha]

theorem locate_eq (p : Path) : t'.locate p = t.locate p := h.walk_eq [] p.segments

theorem isDir_eq (p : Path) : t'.isDir p = t.isDir p := by
  rw [Bool.eq_iff_iff, isDir_iff, isDir_iff]
  simp only [h.dir_iff]

end SameShape

/-! ## Trees that come of two trees -/

/-- Each place holds the same in `u` and `u'`, or it holds what it held in `t` and `t'`. -/
def Abreast (t t' u u' : FileTree) : Prop :=
  SameShape u u' ∧ ∀ l, u'.get? l = u.get? l ∨ u.get? l = t.get? l ∧ u'.get? l = t'.get? l

theorem Abreast.start (h : SameShape t t') : Abreast t t' t t' := ⟨h, fun _ => .inr ⟨rfl, rfl⟩⟩

theorem Abreast.put (h : Abreast t t' u u') {loc : Location} (hl : loc ≠ []) (node : Node) :
    Abreast t t' (u.put loc node) (u'.put loc node) := by
  refine ⟨fun l => ?_, fun l => ?_⟩
  · rw [hasFile, hasFile, get?_put _ _ hl, get?_put _ _ hl]
    by_cases here : l = loc
    · simp [here]
    · rw [if_neg here, if_neg here]
      exact h.1 l
  · rw [get?_put _ _ hl, get?_put _ _ hl]
    by_cases here : l = loc
    · simp [here]
    · rw [if_neg here, if_neg here]
      exact h.2 l

/-- Work on both trees has the same result and keeps them abreast. -/
structure AbreastIn {ε : Type} (t t' : FileTree) (c c' : FileTree × Except ε Unit) : Prop where
  trees : Abreast t t' c.1 c'.1
  result : c'.2 = c.2

theorem abreast_makeDir (h : Abreast t t' u u') (p : Path) : AbreastIn t t' (u.makeDir p) (u'.makeDir p) := by
  rw [makeDir, makeDir, h.1.locate_eq]
  cases u.locate p with
  | error cause => exact ⟨h, rfl⟩
  | ok loc =>
    dsimp only
    rw [h.1.isSome_eq]
    split
    · exact ⟨h, rfl⟩
    · next missing =>
      have nonempty : loc ≠ [] := fun root => missing (by rw [root]; rfl)
      exact ⟨h.put nonempty .dir, rfl⟩

theorem AbreastIn.orThere {c c' : Changed Unit} (h : AbreastIn t t' c c') (p : Path) :
    AbreastIn t t' (orThere p c) (orThere p c') := by
  obtain ⟨u, r⟩ := c
  obtain ⟨u', r'⟩ := c'
  obtain ⟨trees, result⟩ := h
  obtain rfl : r' = r := result
  cases r' with
  | ok _ => exact ⟨trees, rfl⟩
  | error fault =>
    rw [FileTree.orThere, FileTree.orThere, trees.1.isDir_eq]
    split
    · exact ⟨trees, rfl⟩
    · exact ⟨trees, rfl⟩

theorem abreast_makeDirsUp (h : Abreast t t' u u') (root : Root) (up : List String) :
    AbreastIn t t' (u.makeDirsUp root up) (u'.makeDirsUp root up) := by
  induction up with
  | nil => exact ⟨h, rfl⟩
  | cons s up ih =>
    have made := abreast_makeDir h ⟨root, (s :: up).reverse⟩
    rw [makeDirsUp, makeDirsUp]
    generalize u.makeDir ⟨root, (s :: up).reverse⟩ = c at made ⊢
    generalize u'.makeDir ⟨root, (s :: up).reverse⟩ = c' at made ⊢
    obtain ⟨v, r⟩ := c
    obtain ⟨v', r'⟩ := c'
    obtain rfl : r' = r := made.result
    rcases r' with ⟨cause, q⟩ | _ | _
    · cases cause with
      | notFound =>
        dsimp only
        generalize u.makeDirsUp root up = above at ih ⊢
        generalize u'.makeDirsUp root up = above' at ih ⊢
        obtain ⟨w, r⟩ := above
        obtain ⟨w', r'⟩ := above'
        obtain rfl : r' = r := ih.result
        cases r' with
        | ok _ => exact (abreast_makeDir ih.trees _).orThere _
        | error fault => exact ih
      | alreadyThere | notDirectory | isDirectory => exact made.orThere _
    · exact made.orThere _
    · exact made.orThere _

theorem abreast_makeDirs (h : Abreast t t' u u') (p : Path) : AbreastIn t t' (u.makeDirs p) (u'.makeDirs p) :=
  abreast_makeDirsUp h p.root p.segments.reverse

theorem abreast_putFile (h : Abreast t t' u u') (p : Path) (content : ByteArray) :
    AbreastIn t t' (u.putFile p content) (u'.putFile p content) := by
  have same := h.1.locate_eq p
  cases located : u.locate p with
  | error cause =>
    rw [located] at same
    rw [putFile, putFile, same, located]
    exact ⟨h, rfl⟩
  | ok loc =>
    rw [located] at same
    by_cases dir : u.get? loc = some .dir
    · rw [putFile_of_dir located dir, putFile_of_dir same ((h.1.dir_iff loc).2 dir)]
      exact ⟨h, rfl⟩
    · have nonempty : loc ≠ [] := fun root => dir (by rw [root]; rfl)
      rw [putFile_of_free located dir, putFile_of_free same (mt (h.1.dir_iff loc).1 dir)]
      exact ⟨h.put nonempty _, rfl⟩

end StaticSite.FileTree
