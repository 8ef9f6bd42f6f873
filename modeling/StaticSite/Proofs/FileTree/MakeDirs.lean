import StaticSite.Proofs.FileTree.Trail

/-!
# Making directories

`pave` makes directories along segments, from the first to the last, as far as no file stands on the way.
`makeDirs` leaves the paved tree (`makeDirs_tree`) and succeeds if there is no file on the trail
(`makeDirs_ok_iff`). Why the system refuses is said by `makeDirs_of_clear` and `makeDirs_of_notDirectory` for
trails on which nothing is missing before the first file.
-/

namespace StaticSite.FileTree

open Path (descend collapse)

/-- A file stands at the location. -/
def hasFile (t : FileTree) (l : Location) : Bool := t.get? l matches some (.file _)

theorem hasFile_eq_false_iff {t : FileTree} {l : Location} :
    t.hasFile l = false ↔ t.get? l = none ∨ t.get? l = some .dir := by
  unfold hasFile
  rcases t.get? l with - | ⟨content | -⟩ <;> simp

theorem hasFile_iff {t : FileTree} {l : Location} :
    t.hasFile l = true ↔ ∃ content, t.get? l = some (.file content) := by
  unfold hasFile
  rcases t.get? l with - | ⟨content | -⟩ <;> simp

/-- Makes directories along the way from the directory at `loc`, up to the first file. -/
def pave (t : FileTree) (loc : Location) : List String → FileTree
  | [] => t
  | s :: rest => match t.get? (descend loc s) with
    | none => (t.put (descend loc s) .dir).pave (descend loc s) rest
    | some .dir => t.pave (descend loc s) rest
    | some (.file _) => t

/-- The locations before the first file. -/
def passed (t : FileTree) (ls : List Location) : List Location := ls.takeWhile fun l => !t.hasFile l

theorem passed_congr {t t' : FileTree} {ls : List Location}
    (h : ∀ l ∈ ls, t'.hasFile l = t.hasFile l) : t'.passed ls = t.passed ls := by
  induction ls with
  | nil => rfl
  | cons l ls ih =>
    have rest := ih fun m hm => h m (List.mem_cons_of_mem _ hm)
    unfold passed at rest ⊢
    rw [List.takeWhile_cons, List.takeWhile_cons, h l List.mem_cons_self, rest]

theorem passed_cons {t : FileTree} {l : Location} (h : t.hasFile l = false) (ls : List Location) :
    t.passed (l :: ls) = l :: t.passed ls := by
  rw [passed, List.takeWhile_cons, h]; rfl

theorem passed_cons_of_file {t : FileTree} {l : Location} (h : t.hasFile l = true) (ls : List Location) :
    t.passed (l :: ls) = [] := by
  rw [passed, List.takeWhile_cons, h]; rfl

theorem hasFile_put_dir {t : FileTree} {d : Location} (hd : t.get? d = none) (l : Location) :
    (t.put d .dir).hasFile l = t.hasFile l := by
  unfold hasFile
  rw [get?_put _ _ (ne_root_of_get? hd)]
  by_cases h : l = d
  · subst h; simp [hd]
  · simp [h]

theorem get?_pave (t : FileTree) (loc : Location) (segs : List String) (l : Location) :
    (t.pave loc segs).get? l =
      if t.get? l = none ∧ l ∈ t.passed (trail loc segs) then some .dir else t.get? l := by
  induction segs generalizing t loc with
  | nil => simp [pave, passed, trail]
  | cons s segs ih =>
    unfold pave
    split
    · next hd =>
      have same : (t.put (descend loc s) .dir).passed (trail (descend loc s) segs) =
          t.passed (trail (descend loc s) segs) := passed_congr fun m _ => hasFile_put_dir hd m
      have free : t.hasFile (descend loc s) = false := hasFile_eq_false_iff.2 (.inl hd)
      rw [ih, same, get?_put _ _ (ne_root_of_get? hd), trail, passed_cons free]
      by_cases hl : l = descend loc s
      · subst hl; simp [hd]
      · simp [hl]
    · next hd =>
      have free : t.hasFile (descend loc s) = false := hasFile_eq_false_iff.2 (.inr hd)
      rw [ih, trail, passed_cons free]
      by_cases hl : l = descend loc s
      · subst hl; simp [hd]
      · simp only [List.mem_cons, hl, false_or]
    · next content hd =>
      rw [trail, passed_cons_of_file (hasFile_iff.2 ⟨content, hd⟩)]
      simp

theorem hasFile_pave (t : FileTree) (loc : Location) (segs : List String) (l : Location) :
    (t.pave loc segs).hasFile l = t.hasFile l := by
  unfold hasFile
  rw [get?_pave]
  by_cases h : t.get? l = none ∧ l ∈ t.passed (trail loc segs)
  · rw [if_pos h, h.1]
  · rw [if_neg h]

/-- A step from a directory that leads to none leads down. -/
theorem descend_of_not_dir {t : FileTree} (ht : IsTree t) {loc : Location}
    (hl : t.get? loc = some .dir) {s : String} (hd : t.get? (descend loc s) ≠ some .dir) :
    descend loc s = loc ++ [s] := by
  unfold descend at hd ⊢
  by_cases h1 : s = "."
  · rw [if_pos h1] at hd; exact absurd hl hd
  · rw [if_neg h1] at hd ⊢
    by_cases h2 : s = ".."
    · rw [if_pos h2] at hd; exact absurd (ht.dir_dropLast hl) hd
    · rw [if_neg h2]

/-- Where no directory is at the end of the way, the last segment leads down from one. -/
theorem collapse_of_not_dir {t : FileTree} (ht : IsTree t) {segs : List String}
    (way : t.hurdle? (trail [] segs).dropLast = none) (hd : t.get? (collapse segs) ≠ some .dir) :
    ∃ init s, segs = init ++ [s] ∧ collapse segs = collapse init ++ [s] ∧ t.get? (collapse init) = some .dir := by
  rcases List.eq_nil_or_concat segs with rfl | ⟨init, s, rfl⟩
  · exact absurd rfl hd
  rw [List.concat_eq_append] at way hd ⊢
  have ends : collapse (init ++ [s]) = descend (collapse init) s := Path.collapse_append init [s]
  rw [dropLast_trail, List.dropLast_concat] at way
  have dir : t.get? (collapse init) = some .dir := by
    by_cases hi : init = []
    · rw [hi]; rfl
    · exact hurdle?_eq_none.1 way _ (foldl_mem_trail [] hi)
  rw [ends] at hd
  exact ⟨init, s, rfl, ends.trans (descend_of_not_dir ht dir hd), dir⟩

theorem isTree_pave {t : FileTree} (ht : IsTree t) {loc : Location} (hl : t.get? loc = some .dir)
    (segs : List String) : IsTree (t.pave loc segs) := by
  induction segs generalizing t loc with
  | nil => exact ht
  | cons s segs ih =>
    unfold pave
    split
    · next hd =>
      have down := descend_of_not_dir ht hl (by rw [hd]; simp)
      have hne : t.get? (loc ++ [s]) ≠ some .dir := by rw [← down, hd]; simp
      refine ih ?_ ?_
      · rw [down]; exact ht.put hl hne
      · rw [get?_put _ _ (ne_root_of_get? hd), if_pos rfl]
    · next hd => exact ih ht hd
    · exact ht

theorem passed_of_no_file {t : FileTree} {ls : List Location} (h : ∀ l ∈ ls, t.hasFile l = false) :
    t.passed ls = ls := by
  induction ls with
  | nil => rfl
  | cons l ls ih =>
    rw [passed_cons (h l List.mem_cons_self), ih fun m hm => h m (List.mem_cons_of_mem _ hm)]

theorem pave_append (t : FileTree) (loc : Location) (segs more : List String)
    (h : ∀ l ∈ trail loc segs, t.hasFile l = false) :
    t.pave loc (segs ++ more) = (t.pave loc segs).pave (segs.foldl descend loc) more := by
  induction segs generalizing t loc with
  | nil => rfl
  | cons s segs ih =>
    simp only [trail, List.mem_cons, forall_eq_or_imp] at h
    rw [List.cons_append, pave, pave, List.foldl_cons]
    rcases hasFile_eq_false_iff.1 h.1 with hd | hd
    · simp only [hd]
      exact ih _ _ fun l hl => by rw [hasFile_put_dir hd]; exact h.2 l hl
    · simp only [hd]
      exact ih _ _ h.2

theorem pave_append_of_file (t : FileTree) (loc : Location) (segs more : List String)
    (h : ∃ l ∈ trail loc segs, t.hasFile l = true) : t.pave loc (segs ++ more) = t.pave loc segs := by
  induction segs generalizing t loc with
  | nil => obtain ⟨l, hl, -⟩ := h; cases hl
  | cons s segs ih =>
    have later : t.hasFile (descend loc s) = false → ∃ l ∈ trail (descend loc s) segs, t.hasFile l = true := by
      intro hf
      obtain ⟨l, hl, h⟩ := h
      rcases List.mem_cons.1 hl with rfl | hl
      · rw [hf] at h; cases h
      · exact ⟨l, hl, h⟩
    rw [List.cons_append, pave, pave]
    cases hd : t.get? (descend loc s) with
    | none =>
      obtain ⟨l, hl, h⟩ := later (hasFile_eq_false_iff.2 (.inl hd))
      exact ih _ _ ⟨l, hl, by rw [hasFile_put_dir hd]; exact h⟩
    | some node =>
      cases node with
      | file content => rfl
      | dir => exact ih _ _ (later (hasFile_eq_false_iff.2 (.inr hd)))

/-- Nothing is made where a file stops one before anything is missing. -/
theorem pave_of_notDirectory {t : FileTree} {loc : Location} {segs : List String}
    (h : t.hurdle? (trail loc segs) = some .notDirectory) : t.pave loc segs = t := by
  induction segs generalizing loc with
  | nil => rfl
  | cons s segs ih =>
    rw [trail, hurdle?] at h
    rw [pave]
    cases hd : t.get? (descend loc s) with
    | none => rw [hd] at h; cases h
    | some node =>
      cases node with
      | file content => rfl
      | dir => rw [hd] at h; exact ih h

theorem pave_of_dirs {t : FileTree} {loc : Location} {segs : List String}
    (h : ∀ l ∈ trail loc segs, t.get? l = some .dir) : t.pave loc segs = t := by
  induction segs generalizing loc with
  | nil => rfl
  | cons s segs ih =>
    simp only [trail, List.mem_cons, forall_eq_or_imp] at h
    rw [pave, h.1]
    exact ih h.2

/-! ## Making a directory and those above it -/

theorem makeDir_of_hurdle {t : FileTree} {p : Path} {cause : OsCause}
    (h : t.hurdle? (trail [] p.segments).dropLast = some cause) :
    t.makeDir p = (t, .error (.refused cause p)) := by
  rw [makeDir, locate_eq, h]

theorem makeDir_of_clear {t : FileTree} {p : Path}
    (h : t.hurdle? (trail [] p.segments).dropLast = none) :
    t.makeDir p = (t.put (collapse p.segments) .dir, .ok ()) ∨
      t.makeDir p = (t, .error (.refused .alreadyThere p)) := by
  rw [makeDir, locate_eq, h]
  dsimp only
  split
  · exact .inr rfl
  · exact .inl rfl

theorem orThere_of_hurdle {t : FileTree} {p : Path} {cause : OsCause} {fault : OsFault}
    (h : t.hurdle? (trail [] p.segments).dropLast = some cause) :
    orThere p (t, .error fault) = (t, .error fault) := by
  rw [orThere, isDir, node?, locate_eq, h]
  rfl

/-- Where the way is clear, only a file keeps a directory from being made. -/
theorem orThere_makeDir {t : FileTree} {root : Root} {segs : List String} {s : String}
    (h : t.hurdle? (trail [] segs) = none) :
    orThere ⟨root, segs ++ [s]⟩ (t.makeDir ⟨root, segs ++ [s]⟩) =
      match t.get? (descend (collapse segs) s) with
      | none => (t.put (descend (collapse segs) s) .dir, .ok ())
      | some .dir => (t, .ok ())
      | some (.file _) => (t, .error (.refused .alreadyThere ⟨root, segs ++ [s]⟩)) := by
  have located : t.locate ⟨root, segs ++ [s]⟩ = .ok (descend (collapse segs) s) := by
    rw [locate_eq, trail_concat, List.dropLast_concat, h]
    simp [collapse]
  rw [makeDir, located]
  dsimp only
  cases hd : t.get? (descend (collapse segs) s) with
  | none => rfl
  | some node => cases node <;> simp [orThere, isDir, node?, located, hd]

theorem hurdle?_cases (t : FileTree) (ls : List Location) :
    t.hurdle? ls = none ∨ t.hurdle? ls = some .notFound ∨ t.hurdle? ls = some .notDirectory := by
  induction ls with
  | nil => exact .inl rfl
  | cons l ls ih =>
    rw [hurdle?]
    split
    · exact .inr (.inl rfl)
    · exact .inr (.inr rfl)
    · exact ih

theorem exists_file_of_notDirectory {t : FileTree} {ls : List Location}
    (h : t.hurdle? ls = some .notDirectory) : ∃ l ∈ ls, t.hasFile l = true := by
  induction ls with
  | nil => cases h
  | cons l ls ih =>
    rw [hurdle?] at h
    split at h
    · cases h
    · next content hl => exact ⟨l, List.mem_cons_self, hasFile_iff.2 ⟨content, hl⟩⟩
    · obtain ⟨m, hm, hf⟩ := ih h
      exact ⟨m, List.mem_cons_of_mem _ hm, hf⟩

/-- Once the directories before it are made, the last one is made unless a file is in its place. -/
theorem orThere_makeDir_pave {t : FileTree} {root : Root} {segs : List String} {s : String}
    (h : ∀ l ∈ trail [] segs, t.hasFile l = false) :
    let made := orThere ⟨root, segs ++ [s]⟩ ((t.pave [] segs).makeDir ⟨root, segs ++ [s]⟩)
    made.1 = t.pave [] (segs ++ [s]) ∧
      (made.2 = .ok () ↔ t.hasFile (descend (collapse segs) s) = false) := by
  have paved : ∀ l ∈ trail [] segs, (t.pave [] segs).get? l = some .dir := by
    intro l hl
    rw [get?_pave, passed_of_no_file h]
    rcases hasFile_eq_false_iff.1 (h l hl) with hn | hd
    · rw [if_pos ⟨hn, hl⟩]
    · rw [if_neg (by simp [hd]), hd]
  rw [orThere_makeDir (hurdle?_eq_none.2 paved), ← hasFile_pave t [] segs, pave_append _ _ _ _ h]
  simp only [pave]
  change _ ∧ (_ ↔ hasFile _ (descend (collapse segs) s) = false)
  unfold hasFile collapse
  cases hd : (t.pave [] segs).get? (descend (segs.foldl descend []) s) with
  | none => simp
  | some node => cases node <;> simp

theorem makeDirsUp_spec (t : FileTree) (root : Root) (up : List String) :
    (t.makeDirsUp root up).1 = t.pave [] up.reverse ∧
      ((t.makeDirsUp root up).2 = .ok () ↔ ∀ l ∈ trail [] up.reverse, t.hasFile l = false) := by
  induction up with
  | nil => simp [makeDirsUp, pave, trail]
  | cons s up ih =>
    obtain ⟨tree, ok⟩ := ih
    have clear : (∀ l ∈ trail [] (up.reverse ++ [s]), t.hasFile l = false) ↔
        (∀ l ∈ trail [] up.reverse, t.hasFile l = false) ∧
          t.hasFile (descend (collapse up.reverse) s) = false := by
      simp [trail_concat, or_imp, forall_and]
    rw [makeDirsUp, List.reverse_cons, clear]
    have way : (trail [] (up.reverse ++ [s])).dropLast = trail [] up.reverse := by
      rw [trail_concat, List.dropLast_concat]
    rcases t.hurdle?_cases (trail [] up.reverse) with h | h | h
    · have dirs := hurdle?_eq_none.1 h
      have free : ∀ l ∈ trail [] up.reverse, t.hasFile l = false :=
        fun l hl => hasFile_eq_false_iff.2 (.inr (dirs l hl))
      have made := @orThere_makeDir_pave t root up.reverse s free
      rw [pave_of_dirs dirs] at made
      rcases makeDir_of_clear (p := ⟨root, up.reverse ++ [s]⟩) (way ▸ h) with hm | hm <;>
        simp only [hm] at made ⊢ <;> exact ⟨made.1, made.2.trans ⟨fun h => ⟨free, h⟩, And.right⟩⟩
    · have missing := makeDir_of_hurdle (p := ⟨root, up.reverse ++ [s]⟩) (way ▸ h)
      simp only [missing]
      generalize hu : t.makeDirsUp root up = made at tree ok ⊢
      obtain ⟨t', made⟩ := made
      cases made with
      | ok u =>
        have free := ok.1 rfl
        have last := @orThere_makeDir_pave t root up.reverse s free
        simp only at tree
        rw [← tree] at last
        exact ⟨last.1, last.2.trans ⟨fun h => ⟨free, h⟩, And.right⟩⟩
      | error fault =>
        have blocked : ¬ ∀ l ∈ trail [] up.reverse, t.hasFile l = false := fun h => by cases ok.2 h
        refine ⟨?_, ?_⟩
        · simp only [not_forall, Bool.not_eq_false] at blocked
          obtain ⟨l, hl, hf⟩ := blocked
          rw [pave_append_of_file _ _ _ _ ⟨l, hl, hf⟩]
          exact tree
        · constructor
          · intro h
            cases h
          · intro h
            exact absurd h.1 blocked
    · have stopped := makeDir_of_hurdle (p := ⟨root, up.reverse ++ [s]⟩) (way ▸ h)
      simp only [stopped, orThere_of_hurdle (p := ⟨root, up.reverse ++ [s]⟩) (way ▸ h)]
      obtain ⟨l, hl, hf⟩ := exists_file_of_notDirectory h
      refine ⟨?_, ?_⟩
      · rw [pave_append_of_file _ _ _ _ ⟨l, hl, hf⟩, pave_of_notDirectory h]
      · constructor
        · intro h
          cases h
        · intro h
          have clear := h.1 l hl
          rw [hf] at clear; cases clear

/-- The directories that are made are those along the path, up to the first file. -/
theorem makeDirs_tree (t : FileTree) (p : Path) : (t.makeDirs p).1 = t.pave [] p.segments := by
  have := (makeDirsUp_spec t p.root p.segments.reverse).1
  rwa [List.reverse_reverse] at this

theorem makeDirs_ok_iff (t : FileTree) (p : Path) :
    (t.makeDirs p).2 = .ok () ↔ ∀ l ∈ trail [] p.segments, t.hasFile l = false := by
  have := (makeDirsUp_spec t p.root p.segments.reverse).2
  rwa [List.reverse_reverse] at this

/-- Why directories cannot be made along a path on which nothing is missing before the first file. -/
def refusal (t : FileTree) (p : Path) : OsFault :=
  match t.hurdle? (trail [] p.segments).dropLast with
  | none => .refused .alreadyThere p
  | some cause => .refused cause p

theorem makeDirs_refused {t : FileTree} {p : Path}
    (hf : ∃ l ∈ trail [] p.segments, t.hasFile l = true)
    (hm : t.hurdle? (trail [] p.segments).dropLast ≠ some .notFound) :
    (t.makeDirs p).2 = .error (t.refusal p) := by
  obtain ⟨root, segs⟩ := p
  rcases segs.eq_nil_or_concat with rfl | ⟨segs, s, rfl⟩
  · obtain ⟨l, hl, -⟩ := hf; cases hl
  rw [List.concat_eq_append] at *
  have way : (trail [] (segs ++ [s])).dropLast = trail [] segs := by
    rw [trail_concat, List.dropLast_concat]
  have reversed : (segs ++ [s]).reverse = s :: segs.reverse := by simp
  rw [makeDirs, refusal, reversed, makeDirsUp]
  simp only [List.reverse_cons, List.reverse_reverse, way] at hm ⊢
  rcases t.hurdle?_cases (trail [] segs) with h | h | h
  · have blocked : ∃ content, t.get? (descend (collapse segs) s) = some (.file content) := by
      obtain ⟨l, hl, hf⟩ := hf
      simp only [trail_concat, List.mem_append, List.mem_singleton] at hl
      rcases hl with hl | rfl
      · rw [hasFile_eq_false_iff.2 (.inr (hurdle?_eq_none.1 h l hl))] at hf; cases hf
      · exact hasFile_iff.1 hf
    obtain ⟨content, hd⟩ := blocked
    have refused := @orThere_makeDir t root segs s h
    rcases makeDir_of_clear (p := ⟨root, segs ++ [s]⟩) (way ▸ h) with hm | hm <;>
      simp only [hm, hd, h] at refused ⊢ <;> rw [refused]
  · exact absurd h hm
  · have stopped := makeDir_of_hurdle (p := ⟨root, segs ++ [s]⟩) (way ▸ h)
    simp only [stopped, orThere_of_hurdle (p := ⟨root, segs ++ [s]⟩) (way ▸ h), h]

/-- What is missing first on the way is missing from a directory that is there. -/
theorem exists_missing {t : FileTree} (ht : IsTree t) {loc : Location} (hl : t.get? loc = some .dir)
    {segs : List String} (h : t.hurdle? (trail loc segs) = some .notFound) :
    ∃ l ∈ trail loc segs, t.get? l = none ∧ t.get? l.dropLast = some .dir := by
  induction segs generalizing loc with
  | nil => cases h
  | cons s segs ih =>
    rw [trail, hurdle?] at h
    split at h
    · next hd =>
      refine ⟨descend loc s, List.mem_cons_self, hd, ?_⟩
      rw [descend_of_not_dir ht hl (by rw [hd]; simp), List.dropLast_concat]
      exact hl
    · cases h
    · next hd =>
      obtain ⟨l, hl, hn, hp⟩ := ih hd h
      exact ⟨l, List.mem_cons_of_mem _ hl, hn, hp⟩

/-- On a way down to one location, with detours through directories that are there, no file stands if
something is missing from a directory. -/
theorem no_file_of_missing {t : FileTree} (ht : IsTree t) {ls : List Location} {goal l : Location}
    (hs : ∀ m ∈ ls, m <+: goal ∨ t.get? m = some .dir) (hl : l ∈ ls) (hn : t.get? l = none)
    (hd : t.get? l.dropLast = some .dir) : ∀ m ∈ ls, t.hasFile m = false := by
  intro m hm
  refine hasFile_eq_false_iff.2 ?_
  rcases hs m hm with hmg | hmd
  swap
  · exact .inr hmd
  rcases hs l hl with hlg | hld
  swap
  · rw [hn] at hld; cases hld
  cases hnode : t.get? m with
  | none => exact .inl rfl
  | some node =>
    have there : (t.get? m).isSome := by rw [hnode]; rfl
    refine .inr (hnode ▸ ?_)
    rcases List.prefix_or_prefix_of_prefix hlg hmg with hp | hp
    · by_cases he : l = m
      · rw [← he, hn] at hnode; cases hnode
      · have := ht.dir_of_prefix hp he there
        rw [hn] at this; cases this
    · have hne : m ≠ l := by rintro rfl; rw [hn] at hnode; cases hnode
      have above : m <+: l.dropLast := (prefix_dropLast_iff (ne_root_of_get? hn)).2 ⟨hp, hne⟩
      by_cases he : m = l.dropLast
      · rw [he, hd]
      · exact ht.dir_of_prefix above he (by rw [hd]; rfl)

end StaticSite.FileTree
