import Mathlib.Data.List.TakeWhile
import StaticSite.Proofs.FileTree.Area
import StaticSite.Proofs.FileTree.MakeDirs

/-!
# Work done again

A piece of work that puts a file makes directories and leaves the file behind (`Leaves`), so the tree grows: what
was a directory stays one and what was a file stays a file. `Lasting` work can be done again on any tree that has
grown from the one it left, and then puts the same file once more and makes nothing. `Retraced` relates the tree
that a second run of such work has come to with the tree of the first run and the one at its end
(`Retraced.imprint`), which are the same when the second run has come to the end as well (`Retraced.same`).
-/

namespace StaticSite.FileTree

variable {t t' t'' w T : FileTree}

/-! ## Trees that grow -/

/-- What was there is there, a directory as a directory and a file as a file. -/
structure Grows (t t' : FileTree) : Prop where
  dir : ∀ {l}, t.get? l = some .dir → t'.get? l = some .dir
  file : ∀ {l}, t.hasFile l = true → t'.hasFile l = true

theorem Grows.refl (t : FileTree) : Grows t t := ⟨id, id⟩

theorem Grows.trans (h : Grows t t') (h' : Grows t' t'') : Grows t t'' :=
  ⟨fun hd => h'.dir (h.dir hd), fun hf => h'.file (h.file hf)⟩

theorem hasFile_of_dir {l : Location} (h : t.get? l = some .dir) : t.hasFile l = false :=
  hasFile_eq_false_iff.2 (.inr h)

/-- Something that stands at a location is a directory or a file. -/
theorem dir_or_file {l : Location} (h : (t.get? l).isSome) : t.get? l = some .dir ∨ t.hasFile l = true := by
  cases hf : t.hasFile l with
  | true => exact .inr rfl
  | false =>
    rcases hasFile_eq_false_iff.1 hf with hn | hd
    · rw [hn] at h; cases h
    · exact .inl hd

theorem Grows.isSome (h : Grows t t') {l : Location} (hl : (t.get? l).isSome) : (t'.get? l).isSome := by
  rcases dir_or_file hl with hd | hf
  · rw [h.dir hd]; rfl
  · obtain ⟨content, hc⟩ := hasFile_iff.1 (h.file hf)
    rw [hc]; rfl

/-- Where something stood before, there is a directory now only if there was one. -/
theorem Grows.dir_iff (h : Grows t t') {l : Location} (hl : (t.get? l).isSome) :
    t'.get? l = some .dir ↔ t.get? l = some .dir := by
  refine ⟨fun hd => (dir_or_file hl).resolve_right fun hf => ?_, h.dir⟩
  have file := h.file hf
  rw [hasFile_of_dir hd] at file
  cases file

theorem Grows.file_iff (h : Grows t t') {l : Location} (hl : (t.get? l).isSome) :
    t'.hasFile l = true ↔ t.hasFile l = true := by
  refine ⟨fun hf => (dir_or_file hl).resolve_left fun hd => ?_, h.file⟩
  rw [hasFile_of_dir (h.dir hd)] at hf
  cases hf

/-- Who is stopped before anything is missing is stopped in the same way after the tree has grown. -/
theorem hurdle?_grows (h : Grows t t') {ls : List Location} (hm : t.hurdle? ls ≠ some .notFound) :
    t'.hurdle? ls = t.hurdle? ls := by
  induction ls with
  | nil => rfl
  | cons l ls ih =>
    unfold hurdle? at hm ⊢
    cases hl : t.get? l with
    | none => rw [hl] at hm; exact absurd rfl hm
    | some node =>
      cases node with
      | dir =>
        rw [hl] at hm
        rw [h.dir hl]
        exact ih hm
      | file content =>
        obtain ⟨content', hc⟩ := hasFile_iff.1 (h.file (hasFile_iff.2 ⟨content, hl⟩))
        rw [hc]

/-- Nothing is made where all is there before the first file. -/
theorem pave_of_passed {loc : Location} {segs : List String}
    (h : ∀ l ∈ t.passed (trail loc segs), t.get? l = some .dir) : t.pave loc segs = t := by
  induction segs generalizing loc with
  | nil => rfl
  | cons s segs ih =>
    rw [trail] at h
    rw [pave]
    cases hf : t.hasFile (Path.descend loc s) with
    | true =>
      obtain ⟨content, hc⟩ := hasFile_iff.1 hf
      rw [hc]
    | false =>
      rw [passed_cons hf] at h
      rw [h _ List.mem_cons_self]
      exact ih fun l hl => h l (List.mem_cons_of_mem _ hl)

theorem Grows.passed (h : Grows t t') {ls : List Location} {l : Location} (hl : l ∈ t'.passed ls) :
    l ∈ t.passed ls := by
  induction ls with
  | nil => exact hl
  | cons m ls ih =>
    cases hf : t'.hasFile m with
    | true => rw [passed_cons_of_file hf] at hl; cases hl
    | false =>
      have before : t.hasFile m = false := by
        by_contra hn
        rw [h.file (by simpa using hn)] at hf
        cases hf
      rw [passed_cons hf] at hl
      rw [passed_cons before]
      rcases List.mem_cons.1 hl with rfl | hl
      · exact List.mem_cons_self
      · exact List.mem_cons_of_mem _ (ih hl)

/-- Directories that were made once are not made again. -/
theorem pave_again {loc : Location} {segs : List String} (h : Grows (t.pave loc segs) t') :
    t'.pave loc segs = t' := by
  refine pave_of_passed fun l hl => h.dir ?_
  have hl : l ∈ (t.pave loc segs).passed (trail loc segs) := h.passed hl
  rw [passed_congr fun m _ => hasFile_pave t loc segs m] at hl
  have free : t.hasFile l = false := by simpa using List.mem_takeWhile_imp hl
  rw [get?_pave]
  rcases hasFile_eq_false_iff.1 free with hn | hd
  · rw [if_pos ⟨hn, hl⟩]
  · rw [if_neg (by simp [hd]), hd]

/-! ## What work leaves -/

/-- The tree with a file put into it, if there is one to put. -/
def imprint (t : FileTree) : Option (Location × ByteArray) → FileTree
  | none => t
  | some (l, content) => t.put l (.file content)

/-- What a piece of work leaves: the file that it put, if any, and directories that it made. -/
structure Leaves (t t' : FileTree) (mark : Option (Location × ByteArray)) : Prop where
  put : ∀ {l content}, mark = some (l, content) →
    t.get? l ≠ some .dir ∧ t'.get? l = some (.file content) ∧ Path.Plain l
  other : ∀ {l}, (∀ content, mark ≠ some (l, content)) →
    t'.get? l = t.get? l ∨ t.get? l = none ∧ t'.get? l = some .dir ∧ Path.Plain l

theorem Leaves.still (t : FileTree) : Leaves t t none := ⟨fun h => (nomatch h), fun _ => .inl rfl⟩

theorem Leaves.grows {mark : Option (Location × ByteArray)} (h : Leaves t t' mark) : Grows t t' := by
  refine ⟨fun {l} hd => ?_, fun {l} hf => ?_⟩
  · rcases h.other (l := l) fun content hm => (h.put hm).1 hd with he | ⟨hn, -⟩
    · exact he.trans hd
    · rw [hd] at hn; cases hn
  · by_cases hm : ∃ content, mark = some (l, content)
    · obtain ⟨content, hm⟩ := hm
      exact hasFile_iff.2 ⟨content, (h.put hm).2.1⟩
    · obtain ⟨content, hc⟩ := hasFile_iff.1 hf
      rcases h.other fun content hc => hm ⟨content, hc⟩ with he | ⟨hn, -⟩
      · exact hasFile_iff.2 ⟨content, he.trans hc⟩
      · rw [hc] at hn; cases hn

/-- Who leaves directories and then a file leaves both. -/
theorem Leaves.andThen {mark : Option (Location × ByteArray)} (h : Leaves t t' none) (h' : Leaves t' t'' mark) :
    Leaves t t'' mark := by
  refine ⟨fun hm => ?_, fun {l} hm => ?_⟩
  · obtain ⟨notDir, put, plain⟩ := h'.put hm
    exact ⟨fun hd => notDir (h.grows.dir hd), put, plain⟩
  · rcases h'.other hm with he | ⟨hn, hd, plain⟩
    · rcases h.other (l := l) (fun _ hc => nomatch hc) with he' | ⟨hn', hd', plain⟩
      · exact .inl (he.trans he')
      · exact .inr ⟨hn', he.trans hd', plain⟩
    · rcases h.other (l := l) (fun _ hc => nomatch hc) with he' | ⟨hn', -, -⟩
      · exact .inr ⟨he' ▸ hn, hd, plain⟩
      · exact .inr ⟨hn', hd, plain⟩

/-- All that stands in the tree stands at a plain location. -/
def Plainly (t : FileTree) : Prop := ∀ l, (t.get? l).isSome → Path.Plain l

theorem Leaves.plainly {mark : Option (Location × ByteArray)} (h : Leaves t t' mark) (ht : t.Plainly) :
    t'.Plainly := by
  intro l hl
  by_cases hm : ∃ content, mark = some (l, content)
  · obtain ⟨content, hm⟩ := hm
    exact (h.put hm).2.2
  · rcases h.other fun content hc => hm ⟨content, hc⟩ with he | ⟨-, -, plain⟩
    · exact ht l (he ▸ hl)
    · exact plain

/-- The tree has grown, and what is new in it stands at plain locations. -/
structure Onward (t t' : FileTree) : Prop where
  grows : Grows t t'
  plainly : t.Plainly → t'.Plainly

theorem Onward.refl (t : FileTree) : Onward t t := ⟨.refl t, id⟩

theorem Onward.trans (h : Onward t t') (h' : Onward t' t'') : Onward t t'' :=
  ⟨h.grows.trans h'.grows, fun ht => h'.plainly (h.plainly ht)⟩

theorem Leaves.onward {mark : Option (Location × ByteArray)} (h : Leaves t t' mark) : Onward t t' :=
  ⟨h.grows, h.plainly⟩

/-- The file that work has put is there, so to put it once more changes nothing. -/
theorem put_of_get? {l : Location} {node : Node} (hl : l ≠ []) (h : t.get? l = some node) : t.put l node = t := by
  have same : ∀ es : List (Location × Node), es.lookup l = some node → putEntry l node es = es := by
    intro es
    induction es with
    | nil => intro he; cases he
    | cons e es ih =>
      obtain ⟨m, other⟩ := e
      intro he
      rw [lookup_cons_eq] at he
      rw [putEntry]
      by_cases hm : m = l
      · rw [if_pos hm.symm] at he
        rw [if_pos hm, Option.some.inj he]
      · rw [if_neg (Ne.symm hm)] at he
        rw [if_neg hm, ih he]
  rw [get?, if_neg hl] at h
  rw [put, same t.entries h]

/-! ## Lasting work -/

/-- Work `f` that lasts: it may put a file at a place of its own, and `g`, done on a tree that has grown from what
it left, puts the same file and makes nothing; the results are related by `near`. -/
def Lasting {R : Type} (K K' : FileTree → Prop) (own : Location → Prop) (near : R → R → Prop)
    (f g : FileTree → FileTree × R) : Prop :=
  ∀ t, K t → ∃ mark, (∀ l content, mark = some (l, content) → own l) ∧ Leaves t (f t).1 mark ∧
    ∀ w, K' w → Grows (f t).1 w → (g w).1 = imprint w mark ∧ near (f t).2 (g w).2

section
variable {R S : Type} {K K' : FileTree → Prop} {own : Location → Prop} {near : R → R → Prop}

/-- What leaves the tree as it is lasts. -/
theorem Lasting.still {r r' : FileTree → R} (hn : ∀ t w, near (r t) (r' w)) :
    Lasting K K' own near (fun t => (t, r t)) fun w => (w, r' w) := fun t _ =>
  ⟨none, fun _ _ h => (nomatch h), .still t, fun w _ _ => ⟨rfl, hn t w⟩⟩

theorem Lasting.onward {f g : FileTree → FileTree × R} (h : Lasting K K' own near f g) (ht : K t) :
    Onward t (f t).1 := by
  obtain ⟨mark, -, leaves, -⟩ := h t ht
  exact leaves.onward

theorem Lasting.congr {f g g' : FileTree → FileTree × R} (h : Lasting K K' own near f g)
    (he : ∀ w, K' w → g' w = g w) : Lasting K K' own near f g' := fun t ht => by
  obtain ⟨mark, own, leaves, again⟩ := h t ht
  exact ⟨mark, own, leaves, fun w hw grows => by rw [he w hw]; exact again w hw grows⟩

theorem Lasting.map {f g : FileTree → FileTree × R} {near' : S → S → Prop} {φ : R → S}
    (h : Lasting K K' own near f g) (hn : ∀ r r', near r r' → near' (φ r) (φ r')) :
    Lasting K K' own near' (fun t => ((f t).1, φ (f t).2)) fun t => ((g t).1, φ (g t).2) := fun t ht => by
  obtain ⟨mark, own, leaves, again⟩ := h t ht
  exact ⟨mark, own, leaves, fun w hw grows => (again w hw grows).imp_right (hn _ _)⟩

end

/-- The tree `w` of a second run, with the tree `t` of the first one at the same point and the tree `T` at the end
of that: where `w` is not yet as at the end, it holds the file that the first run had there. -/
def Retraced (T t w : FileTree) : Prop :=
  ∀ l, w.get? l = T.get? l ∨ w.get? l = t.get? l ∧ w.hasFile l = true ∧ T.hasFile l = true

theorem Retraced.start (T t : FileTree) : Retraced T t T := fun _ => .inl rfl

theorem Retraced.same (h : Retraced T T w) : Same T w := fun l => (h l).elim id And.left

theorem Retraced.grows (h : Retraced T t w) : Grows T w := by
  refine ⟨fun {l} hd => ?_, fun {l} hf => ?_⟩
  · rcases h l with he | ⟨-, -, hf⟩
    · exact he.trans hd
    · rw [hasFile_of_dir hd] at hf; cases hf
  · rcases h l with he | ⟨-, hw, -⟩
    · rwa [hasFile, he]
    · exact hw

theorem Retraced.grown (h : Retraced T t w) : Grows w T := by
  refine ⟨fun {l} hd => ?_, fun {l} hf => ?_⟩
  · rcases h l with he | ⟨-, hf, -⟩
    · exact he ▸ hd
    · rw [hasFile_of_dir hd] at hf; cases hf
  · rcases h l with he | ⟨-, -, hT⟩
    · rwa [hasFile, he] at hf
    · exact hT

/-- After the same work on both sides the second run is still on the trace of the first. -/
theorem Retraced.imprint {mark : Option (Location × ByteArray)} (h : Retraced T t w) (hl : Leaves t t' mark)
    (hT : Grows t' T) : Retraced T t' (w.imprint mark) := by
  -- away from the mark the first run has kept its files
  have other : ∀ l, (∀ content, mark ≠ some (l, content)) → (w.imprint mark).get? l = w.get? l →
      (w.imprint mark).get? l = T.get? l ∨
        (w.imprint mark).get? l = t'.get? l ∧ (w.imprint mark).hasFile l = true ∧ T.hasFile l = true := by
    intro l hm same
    rw [hasFile, same]
    rcases h l with he | ⟨he, hw, hf⟩
    · exact .inl he
    · rcases hl.other hm with kept | ⟨hn, -⟩
      · exact .inr ⟨he.trans kept.symm, hw, hf⟩
      · rw [hasFile, he, hn] at hw; cases hw
  intro l
  cases mark with
  | none => exact other l (by simp) rfl
  | some m =>
    obtain ⟨l', content⟩ := m
    obtain ⟨-, put, -⟩ := hl.put rfl
    have nonempty : l' ≠ [] := by rintro rfl; cases put
    have get := get?_put w (.file content) nonempty l
    by_cases he : l = l'
    · subst he
      rw [if_pos rfl] at get
      have file : T.hasFile l = true := hT.file (hasFile_iff.2 ⟨content, put⟩)
      exact .inr ⟨get.trans put.symm, hasFile_iff.2 ⟨content, get⟩, file⟩
    · rw [if_neg he] at get
      exact other l (fun c hc => he (Prod.mk.inj (Option.some.inj hc)).1.symm) get

/-- Lasting work on both sides keeps the second run on the trace of the first. -/
theorem Retraced.lasting {R : Type} {K K' : FileTree → Prop} {own : Location → Prop} {near : R → R → Prop}
    {f g : FileTree → FileTree × R} (h : Retraced T t w) (hl : Lasting K K' own near f g) (ht : K t) (hw : K' w)
    (hT : Grows (f t).1 T) : Retraced T (f t).1 (g w).1 ∧ near (f t).2 (g w).2 := by
  obtain ⟨mark, -, leaves, again⟩ := hl t ht
  obtain ⟨tree, near⟩ := again w hw (hT.trans h.grows)
  exact ⟨tree ▸ h.imprint leaves hT, near⟩

end StaticSite.FileTree
