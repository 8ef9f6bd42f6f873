import StaticSite.Proofs.Glob.View

/-!
# The names in a found path

Every segment of a path that a pattern finds is the name of something in the tree or stands in the pattern
(`name_of_mem_files`). Where all names in the tree are names that files can have (`Named`), the paths found are
such as texts are read as (`isRead_of_mem_files`), and only the pattern can make them lead up.
-/

namespace StaticSite

/-- A file or directory can have this name. -/
def IsName (s : String) : Prop := (s ≠ "" ∧ s ≠ "." ∧ '/' ∉ s.toList) ∧ s ≠ ".."

instance : DecidablePred IsName := fun _ => inferInstanceAs (Decidable ((_ ∧ _ ∧ _) ∧ _))

namespace FileTree

/-- Something in the tree, or a directory above it, has this name. -/
def HasName (t : FileTree) (s : String) : Prop := ∃ l, (t.get? l).isSome ∧ s ∈ l

/-- The tree holds only names that files and directories can have. -/
def Named (t : FileTree) : Prop := ∀ s, t.HasName s → IsName s

theorem named_of_entries {t : FileTree} (h : ∀ e ∈ t.entries, ∀ s ∈ e.1, IsName s) : t.Named := by
  rintro s ⟨l, hl, hs⟩
  obtain ⟨node, hn⟩ := (exists_entry_iff (List.ne_nil_of_mem hs)).2 hl
  exact h _ hn s hs

/-- What stands in a tree of names stands at a plain location. -/
theorem Named.plain {t : FileTree} (h : t.Named) {l : Location} (hl : (t.get? l).isSome) : Path.Plain l :=
  ⟨fun hs => (h _ ⟨l, hl, hs⟩).1.2.1 rfl, fun hs => (h _ ⟨l, hl, hs⟩).2 rfl⟩

end FileTree

namespace Glob

variable {t : FileTree}

theorem name_of_mem_found {base : Location} {lead : List String} {pieces : List Piece} {segs : List String}
    (h : segs ∈ found t base lead pieces) {s : String} (hs : s ∈ segs) :
    s ∈ lead ∨ .name s ∈ pieces ∨ t.HasName s := by
  induction pieces generalizing lead with
  | nil =>
    rw [found, List.mem_singleton] at h
    exact .inl (h ▸ hs)
  | cons piece rest ih =>
    -- what the first piece stands for joins the lead of the others
    have later : ∀ {lead'}, segs ∈ found t base lead' rest → (s ∈ lead' → s ∈ lead ∨ .name s = piece ∨ t.HasName s) →
        s ∈ lead ∨ .name s ∈ piece :: rest ∨ t.HasName s := by
      intro lead' hm first
      rcases ih hm with hl | hp | hn
      · rcases first hl with hl | hp | hn
        · exact .inl hl
        · exact .inr (.inl (hp ▸ List.mem_cons_self))
        · exact .inr (.inr hn)
      · exact .inr (.inl (List.mem_cons_of_mem _ hp))
      · exact .inr (.inr hn)
    cases piece with
    | name u =>
      rw [found] at h
      split at h
      · cases h
      · refine later h fun hl => ?_
        rcases List.mem_append.1 hl with hl | hl
        · exact .inl hl
        · exact .inr (.inl (congrArg Piece.name (List.mem_singleton.1 hl)))
    | pattern items hidden =>
      obtain ⟨u, hu, hm⟩ := List.mem_flatMap.1 h
      refine later hm fun hl => ?_
      rcases List.mem_append.1 hl with hl | hl
      · exact .inl hl
      · obtain ⟨loc, -, -, matching⟩ := mem_atLocation.1 hu
        rw [matchingNames, List.mem_filter, listed, List.mem_filter, FileTree.mem_children] at matching
        rw [List.mem_singleton.1 hl]
        exact .inr (.inr ⟨_, matching.1.1, by simp⟩)
    | deep =>
      rcases List.mem_append.1 h with h | h
      · exact later h .inl
      · obtain ⟨more, hmore, hm⟩ := List.mem_flatMap.1 h
        refine later hm fun hl => ?_
        rcases List.mem_append.1 hl with hl | hl
        · exact .inl hl
        · obtain ⟨loc, -, -, under⟩ := mem_atLocation.1 hmore
          exact .inr (.inr ⟨_, (mem_below.1 under).2.1, List.mem_append_right _ hl⟩)

theorem name_of_mem_foundFrom {base : Location} {pieces : List Piece} {segs : List String}
    (h : segs ∈ foundFrom t base pieces) {s : String} (hs : s ∈ segs) : .name s ∈ pieces ∨ t.HasName s := by
  unfold foundFrom at h
  dsimp only at h
  split at h
  · rcases name_of_mem_found h hs with hl | hp
    · cases hl
    · exact hp
  · rcases name_of_mem_found h hs with hl | hp | hn
    · obtain ⟨piece, hpiece, he⟩ := List.mem_filterMap.1 hl
      cases piece with
      | name u =>
        obtain rfl := Option.some.inj he
        exact .inl (List.takeWhile_subset _ hpiece)
      | pattern items hidden => cases he
      | deep => cases he
    · exact .inl (List.dropWhile_subset _ hp)
    · exact .inr hn

/-- A segment that a pattern holds as it is stands in the pattern between slashes. -/
theorem mem_pieces_of_name {pattern s : String} {pieces : List Piece} (h : pieces? pattern = some pieces)
    (hs : .name s ∈ pieces) : s ∈ Text.pieces '/' pattern ∧ s ≠ "" := by
  unfold pieces? at h
  dsimp only at h
  split at h
  · cases h
  · obtain rfl := Option.some.inj h
    obtain ⟨u, hu, he⟩ := List.mem_map.1 hs
    unfold Piece.ofString at he
    split at he
    · cases he
    · split at he
      · cases he
      · cases he
        simpa using hu

theorem name_of_mem_plainFiles {base p : Path} {pattern : String} (h : p ∈ plainFiles t base pattern) :
    p.root = Path.rootOf pattern.toList ∧
      ∀ s ∈ p.segments, s ≠ "." ∧ (s ∈ Text.pieces '/' pattern ∧ s ≠ "" ∨ t.HasName s) := by
  unfold plainFiles at h
  dsimp only at h
  split at h
  · next pieces loc hpieces _ =>
    obtain ⟨segs, hsegs, h⟩ := List.mem_filterMap.1 h
    obtain ⟨all, hall, rfl⟩ := List.mem_map.1 hsegs
    have names : ∀ s ∈ all, .name s ∈ pieces ∨ t.HasName s := fun s hs =>
      name_of_mem_foundFrom (List.mem_filter.1 hall).1 hs
    split at h
    · split at h
      · obtain rfl := Option.some.inj h
        refine ⟨rfl, fun s hs => ?_⟩
        obtain ⟨hs, hdot⟩ := List.mem_filter.1 hs
        exact ⟨by simpa using hdot, (names s hs).imp_left (mem_pieces_of_name hpieces)⟩
      · cases h
    · cases h
  · cases h

/-- What stands between slashes in a path that is found stands so in the pattern, one of its groups chosen, or
is a name in the tree. -/
theorem name_of_mem_files {base p : Path} {pattern : String} (h : p ∈ files t base pattern) :
    ∃ plain ∈ expandBraces pattern, p.root = Path.rootOf plain.toList ∧
      ∀ s ∈ p.segments, s ≠ "." ∧ (s ∈ Text.pieces '/' plain ∧ s ≠ "" ∨ t.HasName s) := by
  rw [files, Path.mem_sortDistinct, List.mem_flatMap] at h
  obtain ⟨plain, hp, h⟩ := h
  exact ⟨plain, hp, name_of_mem_plainFiles h⟩

/-- What is found is a path that texts are read as. -/
theorem isRead_of_mem_files (ht : t.Named) {base p : Path} {pattern : String} (h : p ∈ files t base pattern) :
    p.IsRead := by
  obtain ⟨plain, -, -, names⟩ := name_of_mem_files h
  intro s hs
  obtain ⟨hdot, ⟨hp, hne⟩ | hn⟩ := names s hs
  · obtain ⟨piece, hpiece, rfl⟩ := List.mem_map.1 hp
    exact ⟨hne, hdot, by simpa using Text.notMem_of_mem_splitOn hpiece⟩
  · exact (ht s hn).1

end Glob

end StaticSite
