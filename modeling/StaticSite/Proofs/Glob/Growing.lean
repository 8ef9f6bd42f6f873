import StaticSite.Proofs.FileTree.Growing
import StaticSite.Proofs.Glob.View

/-!
# Files found in a tree that grows

What a pattern finds it finds in every tree that has grown from this one (`files_grows`). It may find more there,
but only along ways that lead through something new (`mem_files_of_there`): where no match does, it finds the same
files as before (`files_eq`).
-/

namespace StaticSite

open FileTree (trail Grows)
open Path (descend)

namespace FileTree

variable {t t' : FileTree}

theorem hurdle?_of_dirs (h : Grows t t') {ls : List Location} (hn : t.hurdle? ls = none) : t'.hurdle? ls = none :=
  hurdle?_eq_none.2 fun l hl => h.dir (hurdle?_eq_none.1 hn l hl)

/-- Segments that lead somewhere lead through their trail. -/
theorem walk_eq_ok {loc target : Location} {segs : List String} :
    t.walk loc segs = .ok target ↔
      t.hurdle? (loc :: trail loc segs).dropLast = none ∧ segs.foldl descend loc = target := by
  rw [walk_eq]
  cases t.hurdle? (loc :: trail loc segs).dropLast <;> simp

theorem walk_grows (h : Grows t t') {loc target : Location} {segs : List String}
    (hw : t.walk loc segs = .ok target) : t'.walk loc segs = .ok target := by
  rw [walk_eq_ok] at hw ⊢
  exact ⟨hurdle?_of_dirs h hw.1, hw.2⟩

/-- The end of a walk is on its trail, or the walk is at its end. -/
theorem end_mem_trail {loc target : Location} {segs : List String} (hw : t.walk loc segs = .ok target) :
    target = loc ∨ target ∈ trail loc segs := by
  rw [← (walk_eq_ok.1 hw).2]
  by_cases hs : segs = []
  · exact .inl (by rw [hs]; rfl)
  · exact .inr (foldl_mem_trail loc hs)

/-- A walk in a tree that has grown leads to the same place in the tree before, if all on the way was there. -/
theorem walk_of_there (h : Grows t t') {loc target : Location} {segs : List String}
    (hl : (t.get? loc).isSome) (there : ∀ l ∈ trail loc segs, (t.get? l).isSome)
    (hw : t'.walk loc segs = .ok target) : t.walk loc segs = .ok target ∧ (t.get? target).isSome := by
  have isThere : (t.get? target).isSome := by
    rcases end_mem_trail hw with rfl | hm
    · exact hl
    · exact there _ hm
  rw [walk_eq_ok] at hw ⊢
  refine ⟨⟨hurdle?_eq_none.2 fun l hm => ?_, hw.2⟩, isThere⟩
  have dir := hurdle?_eq_none.1 hw.1 l hm
  rcases List.mem_cons.1 (List.dropLast_subset _ hm) with rfl | hm
  · exact (h.dir_iff hl).1 dir
  · exact (h.dir_iff (there l hm)).1 dir

theorem trail_subset_of_prefix {loc : Location} {segs more : List String} (h : segs <+: more) :
    trail loc segs ⊆ trail loc more := by
  obtain ⟨rest, rfl⟩ := h
  rw [trail_append]
  exact List.subset_append_left _ _

/-- To stay where one is leads nowhere. -/
theorem mem_trail_filter {loc l : Location} {segs : List String} (h : l ∈ trail loc segs) :
    l = loc ∨ l ∈ trail loc (segs.filter (· ≠ ".")) := by
  induction segs generalizing loc with
  | nil => cases h
  | cons s segs ih =>
    by_cases hs : s = "."
    · have stay : descend loc s = loc := by rw [descend, if_pos hs]
      rw [trail, stay] at h
      rw [List.filter_cons_of_neg (by simp [hs])]
      rcases List.mem_cons.1 h with rfl | h
      · exact .inl rfl
      · exact ih h
    · rw [List.filter_cons_of_pos (by simpa using hs), trail]
      rcases List.mem_cons.1 h with rfl | h
      · exact .inr List.mem_cons_self
      · rcases ih h with rfl | h
        · exact .inr List.mem_cons_self
        · exact .inr (List.mem_cons_of_mem _ h)

end FileTree

namespace Glob

variable {t t' : FileTree}

/-! ## In the tree that has grown -/

theorem or_dir_grows (h : Grows t t') {dirsOnly : Bool} {l : Location}
    (hd : (!dirsOnly || t.get? l = some .dir) = true) : (!dirsOnly || t'.get? l = some .dir) = true := by
  simp only [Bool.or_eq_true, Bool.not_eq_true', decide_eq_true_eq] at hd ⊢
  exact hd.imp_right h.dir

theorem mem_atLocation_grows (h : Grows t t') {α : Type} {base : Location} {segs : List String}
    {f f' : Location → List α} {a : α} (hf : ∀ loc, a ∈ f loc → a ∈ f' loc)
    (ha : a ∈ atLocation t base segs f) : a ∈ atLocation t' base segs f' := by
  obtain ⟨loc, walked, isThere, found⟩ := mem_atLocation.1 ha
  exact mem_atLocation.2 ⟨loc, FileTree.walk_grows h walked, h.isSome isThere, hf loc found⟩

theorem mem_matchingNames {dirsOnly : Bool} {items : List Item} {hidden : Bool} {loc : Location} {name : String} :
    name ∈ matchingNames t dirsOnly items hidden loc ↔ ((t.get? (loc ++ [name])).isSome ∧
      (!dirsOnly || t.get? (loc ++ [name]) = some .dir) = true) ∧
      ((hidden || !isHidden name) && matchItems CharSet.accepts items name.toList) = true := by
  rw [matchingNames, List.mem_filter, listed, List.mem_filter, FileTree.mem_children]

/-- A name leads on if something stands where it leads to. -/
theorem leads_on_iff {base : Location} {segs : List String} :
    (atLocation t base segs fun _ => [()]).isEmpty = false ↔
      ∃ loc, t.walk base segs = .ok loc ∧ (t.get? loc).isSome := by
  rw [List.isEmpty_eq_false_iff_exists_mem]
  constructor
  · rintro ⟨u, hu⟩
    obtain ⟨loc, walked, isThere, -⟩ := mem_atLocation.1 hu
    exact ⟨loc, walked, isThere⟩
  · rintro ⟨loc, walked, isThere⟩
    exact ⟨(), mem_atLocation.2 ⟨loc, walked, isThere, by simp⟩⟩

theorem mem_found_name {base : Location} {lead : List String} {s : String} {rest : List Piece}
    {segs : List String} : segs ∈ found t base lead (.name s :: rest) ↔
      (∃ loc, t.walk base (lead ++ [s]) = .ok loc ∧ (t.get? loc).isSome) ∧ segs ∈ found t base (lead ++ [s]) rest := by
  rw [found, ← leads_on_iff]
  split
  · next he => simp [he]
  · next he => simp [he]

theorem mem_found_grows (h : Grows t t') {base : Location} {lead : List String} {pieces : List Piece}
    {segs : List String} (hs : segs ∈ found t base lead pieces) : segs ∈ found t' base lead pieces := by
  induction pieces generalizing lead with
  | nil => exact hs
  | cons piece rest ih =>
    cases piece with
    | name s =>
      rw [mem_found_name] at hs ⊢
      obtain ⟨⟨loc, walked, isThere⟩, hs⟩ := hs
      exact ⟨⟨loc, FileTree.walk_grows h walked, h.isSome isThere⟩, ih hs⟩
    | pattern items hidden =>
      simp only [found, List.mem_flatMap] at hs ⊢
      obtain ⟨name, hname, hs⟩ := hs
      refine ⟨name, mem_atLocation_grows h (fun loc hm => ?_) hname, ih hs⟩
      rw [mem_matchingNames] at hm ⊢
      exact ⟨⟨h.isSome hm.1.1, or_dir_grows h hm.1.2⟩, hm.2⟩
    | deep =>
      simp only [found, List.mem_append, List.mem_flatMap] at hs ⊢
      rcases hs with hs | ⟨more, hmore, hs⟩
      · exact .inl (ih hs)
      · refine .inr ⟨more, mem_atLocation_grows h (fun loc hm => ?_) hmore, ih hs⟩
        rw [mem_below] at hm ⊢
        exact ⟨hm.1, h.isSome hm.2.1, or_dir_grows h hm.2.2.1, hm.2.2.2⟩

theorem mem_foundFrom_grows (h : Grows t t') {base : Location} {pieces : List Piece} {segs : List String}
    (hs : segs ∈ foundFrom t base pieces) : segs ∈ foundFrom t' base pieces := by
  unfold foundFrom at hs ⊢
  dsimp only at hs ⊢
  split at hs <;> exact mem_found_grows h hs

/-- The location that a pattern is followed from. -/
def startPath (base : Path) (pattern : String) : Path :=
  if Path.rootOf pattern.toList = .relative then base else ⟨.slash, []⟩

/-- What it means that a pattern without brace groups matches. -/
theorem mem_plainFiles {base p : Path} {pattern : String} : p ∈ plainFiles t base pattern ↔
    ∃ pieces loc segs target, pieces? pattern = some pieces ∧ t.locate (startPath base pattern) = .ok loc ∧
      segs ∈ foundFrom t loc pieces ∧ segs ≠ [] ∧ t.walk loc (segs.filter (· ≠ ".")) = .ok target ∧
      t.hasFile target = true ∧ p = ⟨Path.rootOf pattern.toList, segs.filter (· ≠ ".")⟩ := by
  unfold plainFiles
  dsimp only
  constructor
  · intro h
    split at h
    · next pieces loc hp located =>
      obtain ⟨path, hpath, h⟩ := List.mem_filterMap.1 h
      obtain ⟨segs, hsegs, rfl⟩ := List.mem_map.1 hpath
      obtain ⟨hsegs, hne⟩ := List.mem_filter.1 hsegs
      split at h
      · next target walked =>
        split at h
        · next content hc =>
          exact ⟨pieces, loc, segs, target, hp, located, hsegs, by simpa using hne, walked,
            FileTree.hasFile_iff.2 ⟨content, hc⟩, (Option.some.inj h).symm⟩
        · cases h
      · cases h
    · cases h
  · rintro ⟨pieces, loc, segs, target, hp, located, hsegs, hne, walked, file, rfl⟩
    obtain ⟨content, hc⟩ := FileTree.hasFile_iff.1 file
    unfold startPath at located
    rw [hp, located]
    refine List.mem_filterMap.2 ⟨segs.filter (· ≠ "."), List.mem_map.2 ⟨segs, ?_, rfl⟩, ?_⟩
    · exact List.mem_filter.2 ⟨hsegs, by simpa using hne⟩
    · simp only [walked, hc]

/-- What a pattern finds it finds in every tree that has grown. -/
theorem files_grows (h : Grows t t') {base p : Path} {pattern : String} (hp : p ∈ files t base pattern) :
    p ∈ files t' base pattern := by
  rw [files, Path.mem_sortDistinct, List.mem_flatMap] at hp ⊢
  obtain ⟨plain, hplain, hp⟩ := hp
  refine ⟨plain, hplain, ?_⟩
  rw [mem_plainFiles] at hp ⊢
  obtain ⟨pieces, loc, segs, target, hpieces, located, hsegs, hne, walked, file, he⟩ := hp
  exact ⟨pieces, loc, segs, target, hpieces, FileTree.walk_grows h located, mem_foundFrom_grows h hsegs, hne,
    FileTree.walk_grows h walked, h.file file, he⟩

/-! ## In the tree before -/

theorem prefix_of_mem_found {base : Location} {lead : List String} {pieces : List Piece} {segs : List String}
    (hs : segs ∈ found t base lead pieces) : lead <+: segs := by
  induction pieces generalizing lead with
  | nil => rw [found, List.mem_singleton] at hs; exact hs ▸ List.prefix_rfl
  | cons piece rest ih =>
    have longer : ∀ {more}, segs ∈ found t base (lead ++ more) rest → lead <+: segs := fun hm =>
      (List.prefix_append _ _).trans (ih hm)
    cases piece with
    | name s => exact longer (mem_found_name.1 hs).2
    | pattern items hidden =>
      obtain ⟨name, -, hs⟩ := List.mem_flatMap.1 hs
      exact longer hs
    | deep =>
      rcases List.mem_append.1 hs with hs | hs
      · exact ih hs
      · obtain ⟨more, -, hs⟩ := List.mem_flatMap.1 hs
        exact longer hs

/-- What is found in a directory of the tree that has grown is found in the tree before, if it was there. -/
theorem mem_atLocation_of_there (h : Grows t t') {α : Type} {base : Location} {segs : List String}
    {f f' : Location → List α} {a : α} (hb : (t.get? base).isSome)
    (there : ∀ l ∈ trail base segs, (t.get? l).isSome)
    (hf : ∀ loc, segs.foldl descend base = loc → a ∈ f' loc → a ∈ f loc)
    (ha : a ∈ atLocation t' base segs f') : a ∈ atLocation t base segs f := by
  obtain ⟨loc, walked, -, found⟩ := mem_atLocation.1 ha
  obtain ⟨walked', isThere⟩ := FileTree.walk_of_there h hb there walked
  exact mem_atLocation.2 ⟨loc, walked', isThere, hf loc (FileTree.walk_eq_ok.1 walked).2 found⟩

/-- Where plain segments lead to from the end of others. -/
theorem append_mem_trail {base : Location} {lead more segs : List String} (hm : Path.Plain more) (hne : more ≠ [])
    (hs : lead ++ more <+: segs) : lead.foldl descend base ++ more ∈ trail base segs := by
  refine FileTree.trail_subset_of_prefix hs ?_
  rw [FileTree.trail_append]
  refine List.mem_append_right _ ?_
  have last := FileTree.foldl_mem_trail (lead.foldl descend base) hne
  rwa [Path.foldl_descend_of_plain hm] at last

theorem or_dir_of_there (h : Grows t t') {dirsOnly : Bool} {l : Location} (hl : (t.get? l).isSome)
    (hd : (!dirsOnly || t'.get? l = some .dir) = true) : (!dirsOnly || t.get? l = some .dir) = true := by
  simp only [Bool.or_eq_true, Bool.not_eq_true', decide_eq_true_eq] at hd ⊢
  exact hd.imp_right (h.dir_iff hl).1

theorem mem_found_of_there (h : Grows t t') (hp : t'.Plainly) {base : Location} (hb : (t.get? base).isSome)
    {lead : List String} {pieces : List Piece} {segs : List String}
    (there : ∀ l ∈ trail base segs, (t.get? l).isSome) (hs : segs ∈ found t' base lead pieces) :
    segs ∈ found t base lead pieces := by
  induction pieces generalizing lead with
  | nil => exact hs
  | cons piece rest ih =>
    have way : ∀ {some}, some <+: segs → ∀ l ∈ trail base some, (t.get? l).isSome := fun hsome l hl =>
      there l (FileTree.trail_subset_of_prefix hsome hl)
    cases piece with
    | name s =>
      rw [mem_found_name] at hs ⊢
      obtain ⟨⟨loc, walked, -⟩, hs⟩ := hs
      exact ⟨⟨loc, FileTree.walk_of_there h hb (way (prefix_of_mem_found hs)) walked⟩, ih hs⟩
    | pattern items hidden =>
      simp only [found, List.mem_flatMap] at hs ⊢
      obtain ⟨name, hname, hs⟩ := hs
      have longer := prefix_of_mem_found hs
      refine ⟨name, mem_atLocation_of_there h hb (way ((List.prefix_append _ _).trans longer))
        (fun loc hloc hm => ?_) hname, ih hs⟩
      rw [mem_matchingNames] at hm ⊢
      -- a name of something in the tree is neither `.` nor `..`
      have whole := hp _ hm.1.1
      have plain : Path.Plain [name] := ⟨fun hn => whole.1 (List.mem_append_right _ hn),
        fun hn => whole.2 (List.mem_append_right _ hn)⟩
      have isThere := there _ (append_mem_trail plain (by simp) longer)
      rw [hloc] at isThere
      exact ⟨⟨isThere, or_dir_of_there h isThere hm.1.2⟩, hm.2⟩
    | deep =>
      simp only [found, List.mem_append, List.mem_flatMap] at hs ⊢
      rcases hs with hs | ⟨more, hmore, hs⟩
      · exact .inl (ih hs)
      · have longer := prefix_of_mem_found hs
        refine .inr ⟨more, mem_atLocation_of_there h hb (way ((List.prefix_append _ _).trans longer))
          (fun loc hloc hm => ?_) hmore, ih hs⟩
        rw [mem_below] at hm ⊢
        have whole := hp _ hm.2.1
        have plain : Path.Plain more := ⟨fun hn => whole.1 (List.mem_append_right _ hn),
          fun hn => whole.2 (List.mem_append_right _ hn)⟩
        have isThere := there _ (append_mem_trail plain hm.1 longer)
        rw [hloc] at isThere
        exact ⟨hm.1, isThere, or_dir_of_there h isThere hm.2.2.1, hm.2.2.2⟩

theorem mem_foundFrom_of_there (h : Grows t t') (hp : t'.Plainly) {base : Location} (hb : (t.get? base).isSome)
    {pieces : List Piece} {segs : List String} (there : ∀ l ∈ trail base segs, (t.get? l).isSome)
    (hs : segs ∈ foundFrom t' base pieces) : segs ∈ foundFrom t base pieces := by
  unfold foundFrom at hs ⊢
  dsimp only at hs ⊢
  split at hs <;> exact mem_found_of_there h hp hb there hs

/-- The way of a path that a pattern finds. -/
theorem segments_startPath {base : Path} {pattern : String} {segs : List String} :
    (base / (⟨Path.rootOf pattern.toList, segs⟩ : Path)).segments = (startPath base pattern).segments ++ segs := by
  simp only [HDiv.hDiv, Div.div, Path.join, Path.isAbsolute, startPath]
  by_cases hr : Path.rootOf pattern.toList = .relative <;> simp [hr]

/-- A file that is found in the tree that has grown was found before, if all on the way to it was there. -/
theorem mem_files_of_there (h : Grows t t') (hplain : t'.Plainly) {base p : Path} {pattern : String}
    (there : ∀ l ∈ trail [] (base / p).segments, (t.get? l).isSome) (hp : p ∈ files t' base pattern) :
    p ∈ files t base pattern := by
  rw [files, Path.mem_sortDistinct, List.mem_flatMap] at hp ⊢
  obtain ⟨plain, hm, hp⟩ := hp
  refine ⟨plain, hm, ?_⟩
  rw [mem_plainFiles] at hp ⊢
  obtain ⟨pieces, loc, segs, target, hpieces, located, hsegs, hne, walked, file, rfl⟩ := hp
  rw [segments_startPath, FileTree.trail_append] at there
  have located : t'.walk [] (startPath base plain).segments = .ok loc := located
  have start := FileTree.walk_of_there h rfl (fun l hl => there l (List.mem_append_left _ hl)) located
  have hloc := (FileTree.walk_eq_ok.1 located).2
  rw [hloc] at there
  have onWay : ∀ l ∈ trail loc (segs.filter (· ≠ ".")), (t.get? l).isSome := fun l hl =>
    there l (List.mem_append_right _ hl)
  have onTrail : ∀ l ∈ trail loc segs, (t.get? l).isSome := fun l hl => by
    rcases FileTree.mem_trail_filter hl with rfl | hl
    · exact start.2
    · exact onWay l hl
  obtain ⟨walked', isThere⟩ := FileTree.walk_of_there h start.2 onWay walked
  exact ⟨pieces, loc, segs, target, hpieces, start.1, mem_foundFrom_of_there h hplain start.2 onTrail hsegs, hne,
    walked', (h.file_iff isThere).1 file, rfl⟩

/-- Where no match leads through something new, the same files are found. -/
theorem files_eq (h : Grows t t') (hplain : t'.Plainly) {base : Path} {pattern : String}
    (there : ∀ p ∈ files t' base pattern, ∀ l ∈ trail [] (base / p).segments, (t.get? l).isSome) :
    files t' base pattern = files t base pattern := by
  refine Path.sortDistinct_congr fun p => ?_
  have same : p ∈ files t' base pattern ↔ p ∈ files t base pattern :=
    ⟨fun hp => mem_files_of_there h hplain (there p hp) hp, files_grows h⟩
  rwa [files, files, Path.mem_sortDistinct, Path.mem_sortDistinct] at same

end Glob

end StaticSite
