import StaticSite.Proofs.FileTree.Growing

/-!
# Trees with one file rewritten

A tree in which one file gets another content has the same directories and files as before, and all that is read of
other files is the same.
-/

namespace StaticSite

open Path (collapse)

namespace FileTree

variable {loc : Location} {T T' : FileTree}

/-- The file at one location may have another content, all else is the same. -/
structure Rewritten (loc : Location) (T T' : FileTree) : Prop where
  before : T.hasFile loc = true
  after : T'.hasFile loc = true
  other : ∀ l, l ≠ loc → T'.get? l = T.get? l

theorem Rewritten.dir_iff (h : Rewritten loc T T') {l : Location} :
    T'.get? l = some .dir ↔ T.get? l = some .dir := by
  have notDir : ∀ {t : FileTree}, t.hasFile loc = true → t.get? loc ≠ some .dir := fun hf hd => by
    rw [hasFile_of_dir hd] at hf; cases hf
  by_cases hl : l = loc
  · subst hl
    exact ⟨fun hd => absurd hd (notDir h.after), fun hd => absurd hd (notDir h.before)⟩
  · rw [h.other l hl]

theorem Rewritten.hasFile_eq (h : Rewritten loc T T') (l : Location) : T'.hasFile l = T.hasFile l := by
  by_cases hl : l = loc
  · rw [hl, h.before, h.after]
  · rw [hasFile, hasFile, h.other l hl]

theorem Rewritten.grows (h : Rewritten loc T T') : Grows T T' :=
  ⟨h.dir_iff.2, fun hf => (h.hasFile_eq _).trans hf⟩

theorem Rewritten.isSome_iff (h : Rewritten loc T T') {l : Location} : (T'.get? l).isSome ↔ (T.get? l).isSome := by
  refine ⟨fun hs => ?_, h.grows.isSome⟩
  rcases dir_or_file hs with hd | hf
  · rw [h.dir_iff.1 hd]; rfl
  · obtain ⟨content, hc⟩ := hasFile_iff.1 ((h.hasFile_eq l).symm.trans hf)
    rw [hc]; rfl

theorem Rewritten.isTree (h : Rewritten loc T T') (ht : IsTree T) : IsTree T' := fun l s hs =>
  h.dir_iff.2 (ht l s (h.isSome_iff.1 hs))

theorem Rewritten.hurdle?_eq (h : Rewritten loc T T') (ls : List Location) : T'.hurdle? ls = T.hurdle? ls := by
  induction ls with
  | nil => rfl
  | cons l ls ih =>
    rw [hurdle?, hurdle?]
    by_cases hl : l = loc
    · obtain ⟨before, hb⟩ := hasFile_iff.1 h.before
      obtain ⟨after, ha⟩ := hasFile_iff.1 h.after
      rw [hl, hb, ha]
    · rw [h.other l hl, ih]

/-- What is read elsewhere is the same. -/
theorem Rewritten.read_eq (h : Rewritten loc T T') {p : Path} (hp : collapse p.segments ≠ loc) :
    T'.read p = T.read p := by
  rw [read, read, locate_eq, locate_eq, h.hurdle?_eq]
  cases T.hurdle? (trail [] p.segments).dropLast with
  | some cause => rfl
  | none =>
    dsimp only
    rw [h.other _ hp]

/-- The way to what can be read leads through directories. -/
theorem hurdle?_of_read {t : FileTree} {p : Path} {content : ByteArray} (h : t.read p = .ok content) :
    t.hurdle? (trail [] p.segments).dropLast = none := by
  rw [read, locate_eq] at h
  cases way : t.hurdle? (trail [] p.segments).dropLast with
  | some cause => rw [way] at h; cases h
  | none => rfl

theorem located_of_read {t : FileTree} {p : Path} {content : ByteArray} (h : t.read p = .ok content) :
    t.locate p = .ok (collapse p.segments) ∧ t.get? (collapse p.segments) = some (.file content) := by
  have way := hurdle?_of_read h
  refine ⟨by rw [locate_eq, way], ?_⟩
  rw [read, locate_eq, way] at h
  dsimp only at h
  split at h
  · cases h
  · cases h
  · next found hf => cases h; exact hf

/-- A file that was rewritten can be read. -/
theorem Rewritten.read_ok {p : Path} (h : Rewritten (collapse p.segments) T T') {old : ByteArray}
    (hr : T.read p = .ok old) : ∃ new, T'.read p = .ok new := by
  obtain ⟨new, hn⟩ := hasFile_iff.1 h.after
  refine ⟨new, ?_⟩
  rw [read, locate_eq, h.hurdle?_eq, hurdle?_of_read hr]
  simp only [hn]

/-- To write over a file that is there rewrites it. -/
theorem rewritten_putFile {t : FileTree} {p : Path} {old : ByteArray} (h : t.read p = .ok old) (new : ByteArray) :
    Rewritten (collapse p.segments) t (t.putFile p new).1 := by
  obtain ⟨located, file⟩ := located_of_read h
  have nonempty : collapse p.segments ≠ [] := fun he => by rw [he] at file; cases file
  have put : (t.putFile p new).1 = t.put (collapse p.segments) (.file new) := by
    rw [putFile, located]
    simp only [file]
  rw [put]
  exact ⟨hasFile_iff.2 ⟨old, file⟩, hasFile_iff.2 ⟨new, by rw [get?_put _ _ nonempty, if_pos rfl]⟩,
    fun l hl => by rw [get?_put _ _ nonempty, if_neg hl]⟩

end FileTree

end StaticSite
