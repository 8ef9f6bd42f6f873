import StaticSite.Glob.Files
import StaticSite.Proofs.FileTree.Trail
import StaticSite.Proofs.Path.Sorted

/-!
# Files found in a tree

Which files match a pattern depends on what stands where, not on how the tree lists it (`files_same`). What is
found are files, so each can be read (`read_of_mem_files`).
-/

namespace StaticSite

namespace FileTree

/-! ## What a tree lists -/

theorem isSome_lookup_iff {es : List (Location × Node)} {l : Location} :
    (es.lookup l).isSome ↔ ∃ node, (l, node) ∈ es := by
  induction es with
  | nil => simp
  | cons e es ih =>
    obtain ⟨m, node⟩ := e
    rw [lookup_cons_eq]
    by_cases h : l = m
    · subst h; simp
    · simp [h, ih]

theorem exists_entry_iff {t : FileTree} {l : Location} (h : l ≠ []) :
    (∃ node, (l, node) ∈ t.entries) ↔ (t.get? l).isSome := by
  rw [← isSome_lookup_iff, get?, if_neg h]

theorem mem_children {t : FileTree} {loc : Location} {name : String} :
    name ∈ t.children loc ↔ (t.get? (loc ++ [name])).isSome := by
  rw [← exists_entry_iff (by simp), children, List.mem_filterMap]
  constructor
  · rintro ⟨⟨l, node⟩, hm, h⟩
    dsimp only at h
    split at h
    · next hl =>
      have last : l.getLast hl.1 = name := by
        rw [List.getLast?_eq_some_getLast hl.1] at h
        exact Option.some.inj h
      rw [← hl.2, ← last, List.dropLast_concat_getLast]
      exact ⟨node, hm⟩
    · cases h
  · rintro ⟨node, hm⟩
    exact ⟨(loc ++ [name], node), hm, by simp⟩

theorem walk_same {t t' : FileTree} (h : Same t t') (loc : Location) (segs : List String) :
    t'.walk loc segs = t.walk loc segs := by
  induction segs generalizing loc with
  | nil => rfl
  | cons s segs ih =>
    rw [walk, walk, h loc]
    cases t.get? loc with
    | none => rfl
    | some node => cases node with
      | file content => rfl
      | dir => exact ih _

theorem walk_append (t : FileTree) (loc : Location) (segs more : List String) :
    t.walk loc (segs ++ more) = (t.walk loc segs).bind (t.walk · more) := by
  induction segs generalizing loc with
  | nil => rfl
  | cons s segs ih =>
    rw [List.cons_append, walk, walk]
    cases t.get? loc with
    | none => rfl
    | some node => cases node with
      | file content => rfl
      | dir => exact ih _

end FileTree

namespace Glob

open FileTree (Same)

variable {t t' : FileTree}

/-! ## Following a pattern -/

theorem mem_below {dirsOnly : Bool} {loc segs : Location} :
    segs ∈ below t dirsOnly loc ↔ segs ≠ [] ∧ (t.get? (loc ++ segs)).isSome ∧
      (!dirsOnly || t.get? (loc ++ segs) = some .dir) = true ∧ segs.all (!isHidden ·) = true := by
  rw [below, List.mem_filterMap]
  constructor
  · rintro ⟨⟨l, node⟩, hm, h⟩
    dsimp only at h
    split at h
    · next hl =>
      obtain ⟨hp, hne, hd, hh⟩ := hl
      obtain ⟨more, rfl⟩ := List.isPrefixOf_iff_prefix.1 hp
      obtain rfl : more = segs := by simpa using h
      have nonempty : more ≠ [] := fun he => hne (by simp [he])
      exact ⟨nonempty, (FileTree.exists_entry_iff (by simp [nonempty])).1 ⟨node, hm⟩, hd, by simpa using hh⟩
    · cases h
  · rintro ⟨hne, hs, hd, hh⟩
    obtain ⟨node, hm⟩ := (FileTree.exists_entry_iff (by simp [hne])).2 hs
    refine ⟨(loc ++ segs, node), hm, ?_⟩
    dsimp only
    rw [if_pos ⟨by simp, by simpa using hne, hd, by simpa using hh⟩]
    simp

theorem mem_below_same (h : Same t t') {dirsOnly : Bool} {loc segs : Location} :
    segs ∈ below t' dirsOnly loc ↔ segs ∈ below t dirsOnly loc := by
  rw [mem_below, mem_below, h]

theorem mem_matchingNames_same (h : Same t t') {dirsOnly : Bool} {items : List Item} {hidden : Bool}
    {loc : Location} {name : String} :
    name ∈ matchingNames t' dirsOnly items hidden loc ↔ name ∈ matchingNames t dirsOnly items hidden loc := by
  simp only [matchingNames, listed, List.mem_filter, FileTree.mem_children, h (loc ++ [name])]

theorem mem_atLocation {α : Type} {base : Location} {segs : List String} {f : Location → List α} {a : α} :
    a ∈ atLocation t base segs f ↔ ∃ loc, t.walk base segs = .ok loc ∧ (t.get? loc).isSome ∧ a ∈ f loc := by
  unfold atLocation
  cases t.walk base segs with
  | error cause => simp
  | ok loc =>
    by_cases hs : (t.get? loc).isSome
    · simp [hs]
    · simp [hs]

theorem mem_atLocation_same (h : Same t t') {α : Type} {base : Location} {segs : List String}
    {f f' : Location → List α} {a : α} (hf : ∀ loc, a ∈ f' loc ↔ a ∈ f loc) :
    a ∈ atLocation t' base segs f' ↔ a ∈ atLocation t base segs f := by
  rw [mem_atLocation, mem_atLocation, FileTree.walk_same h]
  refine exists_congr fun loc => and_congr_right fun _ => ?_
  rw [h, hf]

theorem isEmpty_atLocation_same (h : Same t t') {base : Location} {segs : List String} :
    (atLocation t' base segs fun _ => [()]) = atLocation t base segs fun _ => [()] := by
  unfold atLocation
  rw [FileTree.walk_same h]
  cases t.walk base segs with
  | error cause => rfl
  | ok loc => dsimp only; rw [h]

theorem mem_found_same (h : Same t t') {base : Location} {lead : List String} {pieces : List Piece}
    {segs : List String} : segs ∈ found t' base lead pieces ↔ segs ∈ found t base lead pieces := by
  induction pieces generalizing lead with
  | nil => rfl
  | cons piece rest ih =>
    cases piece with
    | name s =>
      rw [found, found, isEmpty_atLocation_same h]
      split
      · rfl
      · exact ih
    | pattern items hidden =>
      simp only [found, List.mem_flatMap]
      exact exists_congr fun name => and_congr
        (mem_atLocation_same h fun loc => mem_matchingNames_same h) ih
    | deep =>
      simp only [found, List.mem_append, List.mem_flatMap]
      exact or_congr ih (exists_congr fun more => and_congr
        (mem_atLocation_same h fun loc => mem_below_same h) ih)

theorem mem_foundFrom_same (h : Same t t') {base : Location} {pieces : List Piece} {segs : List String} :
    segs ∈ foundFrom t' base pieces ↔ segs ∈ foundFrom t base pieces := by
  unfold foundFrom
  dsimp only
  split
  · exact mem_found_same h
  · exact mem_found_same h

/-! ## Files -/

theorem locate_same (h : Same t t') (p : Path) : t'.locate p = t.locate p := FileTree.walk_same h [] p.segments

theorem mem_plainFiles_same (h : Same t t') {base : Path} {pattern : String} {p : Path} :
    p ∈ plainFiles t' base pattern ↔ p ∈ plainFiles t base pattern := by
  have get : ∀ l, t'.get? l = t.get? l := h
  unfold plainFiles
  dsimp only
  rw [locate_same h]
  split
  · simp only [List.mem_filterMap, List.mem_map, List.mem_filter, mem_foundFrom_same h,
      FileTree.walk_same h, get]
  · rfl

/-- The files that match a pattern depend only on what stands where. -/
theorem files_same (h : Same t t') (base : Path) (pattern : String) :
    files t' base pattern = files t base pattern := by
  refine Path.sortDistinct_congr fun p => ?_
  simp only [List.mem_flatMap, mem_plainFiles_same h]

/-- What is found is a file, and its path has no segment that is `.`. -/
theorem read_of_mem_files {base p : Path} {pattern : String} (h : p ∈ files t base pattern) :
    "." ∉ p.segments ∧ ∃ content, t.read (base / p) = .ok content := by
  rw [files, Path.mem_sortDistinct, List.mem_flatMap] at h
  obtain ⟨plain, -, h⟩ := h
  unfold plainFiles at h
  dsimp only at h
  split at h
  · next pieces loc _ located =>
    obtain ⟨segs, hsegs, h⟩ := List.mem_filterMap.1 h
    obtain ⟨found, -, rfl⟩ := List.mem_map.1 hsegs
    split at h
    · next target walked =>
      split at h
      · next content hc =>
        obtain rfl := Option.some.inj h
        refine ⟨by simp, content, ?_⟩
        have located' : t.locate (base / ⟨Path.rootOf plain.toList, found.filter (· ≠ ".")⟩) = .ok target := by
          simp only [HDiv.hDiv, Div.div, Path.join, Path.isAbsolute]
          by_cases hr : Path.rootOf plain.toList = .relative
          · rw [if_pos hr] at located
            simp only [hr, ne_eq, not_true, decide_false, Bool.false_eq_true, if_false]
            rw [FileTree.locate] at located ⊢
            rw [FileTree.walk_append, located]
            exact walked
          · rw [if_neg hr] at located
            cases located
            simpa [hr, FileTree.locate] using walked
        rw [FileTree.read, located']
        dsimp only
        rw [hc]
      · cases h
    · cases h
  · cases h

end Glob

end StaticSite
