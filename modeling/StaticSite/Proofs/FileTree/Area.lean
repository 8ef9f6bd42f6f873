import StaticSite.Proofs.FileTree.Trail

/-!
# Operations with an area of their own

An operation is `Local` to an area if it changes a tree only there and if what it does depends on no more than
what stands there. On its way it may find directories that others have made and make those that are missing.
Operations whose areas are apart can change places (`Local.commute`), so a list of them leaves the same tree in
every order (`same_after_perm`).
-/

namespace StaticSite.FileTree

/-- Where an operation leaves its marks: on its way it makes directories where nothing stands, what is its own
it may change in any way. -/
structure Area where
  own : Location → Prop
  way : Location → Prop

/-- The area of what leaves no marks. -/
def Area.none : Area := ⟨fun _ => False, fun _ => False⟩

/-- Nothing changed, or a directory was made where nothing was. -/
def Grown (n n' : Option Node) : Prop := n' = n ∨ n = none ∧ n' = some .dir

theorem Grown.trans {n n' n'' : Option Node} (h : Grown n n') (h' : Grown n' n'') : Grown n n'' := by
  rcases h with rfl | ⟨rfl, rfl⟩
  · exact h'
  · rcases h' with rfl | ⟨h, -⟩
    · exact .inr ⟨rfl, rfl⟩
    · cases h

/-- The second tree is the first but for directories on the way, as far as the area goes. -/
structure Area.Sees (A : Area) (t t' : FileTree) : Prop where
  own : ∀ l, A.own l → t'.get? l = t.get? l
  way : ∀ l, A.way l → Grown (t.get? l) (t'.get? l)

theorem Area.Sees.refl (A : Area) (t : FileTree) : A.Sees t t := ⟨fun _ _ => rfl, fun _ _ => .inl rfl⟩

theorem Area.Sees.trans {A : Area} {t t' t'' : FileTree} (h : A.Sees t t') (h' : A.Sees t' t'') :
    A.Sees t t'' :=
  ⟨fun l hl => (h'.own l hl).trans (h.own l hl), fun l hl => (h.way l hl).trans (h'.way l hl)⟩

theorem Area.Sees.of_same (A : Area) {t t' : FileTree} (h : Same t t') : A.Sees t t' :=
  ⟨fun l _ => h l, fun l _ => .inl (h l)⟩

/-- The area of two operations in turn. What is one's own is not on the way. -/
def Area.union (A B : Area) : Area where
  own l := A.own l ∨ B.own l
  way l := (A.way l ∨ B.way l) ∧ ¬ (A.own l ∨ B.own l)

/-- What is one operation's own the other does not touch. -/
structure Area.Apart (A B : Area) : Prop where
  left : ∀ l, A.own l → ¬ B.own l ∧ ¬ B.way l
  right : ∀ l, B.own l → ¬ A.way l

theorem Area.Apart.symm {A B : Area} (h : A.Apart B) : B.Apart A where
  left l hb := ⟨fun ha => (h.left l ha).1 hb, h.right l hb⟩
  right l ha := (h.left l ha).2

theorem Area.Apart.union {A B C : Area} (ha : A.Apart C) (hb : B.Apart C) : (A.union B).Apart C where
  left l h := h.elim (ha.left l) (hb.left l)
  right l hc h := h.1.elim (ha.right l hc) (hb.right l hc)

theorem Area.Apart.none (A : Area) : Area.none.Apart A := ⟨fun _ h => h.elim, fun _ _ h => h.elim⟩

/-- On trees of the class `K`, the operation `f` stays in its area and does not depend on anything else; its
results are compared by `near`. -/
structure Local {R : Type} (K : FileTree → Prop) (A : Area) (near : R → R → Prop)
    (f : FileTree → FileTree × R) : Prop where
  keeps : ∀ {t}, K t → K (f t).1
  frame : ∀ {t}, K t → ∀ l, ¬ A.own l →
    (f t).1.get? l = t.get? l ∨ A.way l ∧ t.get? l = none ∧ (f t).1.get? l = some .dir
  own : ∀ {t t'}, K t → K t' → A.Sees t t' → ∀ l, A.own l → (f t').1.get? l = (f t).1.get? l
  way : ∀ {t t'}, K t → K t' → A.Sees t t' → ∀ l, A.way l →
    ((f t').1.get? l = some .dir ↔ (f t).1.get? l = some .dir ∨ t'.get? l = some .dir)
  near : ∀ {t t'}, K t → K t' → A.Sees t t' → near (f t).2 (f t').2

section
variable {R S : Type} {K : FileTree → Prop} {A B : Area} {near : R → R → Prop} {near' : S → S → Prop}
  {f : FileTree → FileTree × R} {g : FileTree → FileTree × S} {t t' : FileTree}

/-- An operation that is apart changes nothing that another one sees, but for directories on the way. -/
theorem Local.sees (hg : Local K B near' g) (h : A.Apart B) (ht : K t) : A.Sees t (g t).1 where
  own l hl := by
    rcases hg.frame ht l (h.left l hl).1 with he | ⟨hw, -⟩
    · exact he
    · exact absurd hw (h.left l hl).2
  way l hl := by
    have notOwn : ¬ B.own l := fun hb => h.right l hb hl
    rcases hg.frame ht l notOwn with he | ⟨-, hn, hd⟩
    · exact .inl he
    · exact .inr ⟨hn, hd⟩

/-- What is not an operation's own stays as it is where the operation makes no directory. -/
theorem Local.get?_of_not_made (hf : Local K A near f) (ht : K t) (ht' : K t') (hs : A.Sees t t')
    {l : Location} (hl : ¬ A.own l) (hn : ¬ (A.way l ∧ (f t).1.get? l = some .dir)) :
    (f t').1.get? l = t'.get? l := by
  rcases hf.frame ht' l hl with he | ⟨hw, hm, hd⟩
  · exact he
  · rcases (hf.way ht ht' hs l hw).1 hd with h | h
    · exact absurd ⟨hw, h⟩ hn
    · rw [hm] at h; cases h

theorem Local.same (hf : Local K A near f) (ht : K t) (ht' : K t') (h : Same t t') :
    Same (f t).1 (f t').1 := by
  intro l
  have hs := Area.Sees.of_same A h
  by_cases hl : A.own l
  · exact hf.own ht ht' hs l hl
  by_cases hd : A.way l ∧ (f t).1.get? l = some .dir
  · rw [hd.2, (hf.way ht ht' hs l hd.1).2 (.inl hd.2)]
  · rw [hf.get?_of_not_made ht ht' hs hl hd, hf.get?_of_not_made ht ht (.refl A t) hl hd, h l]

/-- Operations whose areas are apart can change places. -/
theorem Local.commute (hf : Local K A near f) (hg : Local K B near' g) (h : A.Apart B) (ht : K t) :
    Same (g (f t).1).1 (f (g t).1).1 := by
  have sf := hg.sees h ht
  have sg := hf.sees h.symm ht
  have hft := hf.keeps ht
  have hgt := hg.keeps ht
  intro l
  by_cases ha : A.own l
  · rw [hf.own ht hgt sf l ha]
    rcases hg.frame hft l (h.left l ha).1 with he | ⟨hw, -⟩
    · exact he.symm
    · exact absurd hw (h.left l ha).2
  by_cases hb : B.own l
  · rw [hg.own ht hft sg l hb]
    rcases hf.frame hgt l ha with he | ⟨hw, -⟩
    · exact he
    · exact absurd hw (h.right l hb)
  -- elsewhere each of them can only make a directory
  by_cases hfd : A.way l ∧ (f t).1.get? l = some .dir <;>
    by_cases hgd : B.way l ∧ (g t).1.get? l = some .dir
  · rw [(hf.way ht hgt sf l hfd.1).2 (.inl hfd.2), (hg.way ht hft sg l hgd.1).2 (.inl hgd.2)]
  · rw [(hf.way ht hgt sf l hfd.1).2 (.inl hfd.2), hg.get?_of_not_made ht hft sg hb hgd, hfd.2]
  · rw [(hg.way ht hft sg l hgd.1).2 (.inl hgd.2), hf.get?_of_not_made ht hgt sf ha hfd, hgd.2]
  · rw [hf.get?_of_not_made ht hgt sf ha hfd, hg.get?_of_not_made ht hft sg hb hgd,
      hf.get?_of_not_made ht ht (.refl A t) ha hfd, hg.get?_of_not_made ht ht (.refl B t) hb hgd]

theorem Local.get?_congr (hf : Local K A near f) (ht : K t) (ht' : K t') (hs : A.Sees t t')
    {l : Location} (he : t'.get? l = t.get? l) : (f t').1.get? l = (f t).1.get? l := by
  by_cases ha : A.own l
  · exact hf.own ht ht' hs l ha
  rcases hf.frame ht l ha with h | ⟨hw, hn, hd⟩
  · rcases hf.frame ht' l ha with h' | ⟨hw, hn, hd⟩
    · rw [h, h', he]
    · rcases (hf.way ht ht' hs l hw).1 hd with hm | hm
      · rw [hm, hd]
      · rw [hn] at hm; cases hm
  · rw [hd, (hf.way ht ht' hs l hw).2 (.inl hd)]

theorem Local.grown (hf : Local K A near f) (ht : K t) (ht' : K t') (hs : A.Sees t t')
    {l : Location} (hg : Grown (t.get? l) (t'.get? l)) : Grown ((f t).1.get? l) ((f t').1.get? l) := by
  rcases hg with he | ⟨hn, hd⟩
  · exact .inl (hf.get?_congr ht ht' hs he)
  have ha : ¬ A.own l := fun ha => by
    have := hs.own l ha
    rw [hn, hd] at this; cases this
  have there : (f t').1.get? l = some .dir := by
    rcases hf.frame ht' l ha with h | ⟨-, -, h⟩
    · rw [h, hd]
    · exact h
  rcases hf.frame ht l ha with h | ⟨-, -, h⟩
  · exact .inr ⟨h.trans hn, there⟩
  · exact .inl (there.trans h.symm)

/-- A directory that is there is left alone where an operation has nothing of its own. -/
theorem Local.dir_stays (hf : Local K A near f) (ht : K t) {l : Location} (ha : ¬ A.own l)
    (hd : t.get? l = some .dir) : (f t).1.get? l = some .dir := by
  rcases hf.frame ht l ha with h | ⟨-, -, h⟩
  · exact h.trans hd
  · exact h

/-- Two local operations in turn are local, if the second one does not depend on how near results of the first
one differ. -/
theorem Local.andThen {next : R → FileTree → FileTree × S} (hf : Local K A near f)
    (hg : ∀ r, Local K B near' (next r)) (hn : ∀ r r', near r r' → next r' = next r) :
    Local K (A.union B) near' fun t => next (f t).2 (f t).1 := by
  have seesA : ∀ {t t'}, (A.union B).Sees t t' → A.Sees t t' := fun hs =>
    ⟨fun l h => hs.own l (.inl h), fun l h => by
      by_cases ho : A.own l ∨ B.own l
      · exact .inl (hs.own l ho)
      · exact hs.way l ⟨.inl h, ho⟩⟩
  have seesB : ∀ {t t'}, K t → K t' → (A.union B).Sees t t' → B.Sees (f t).1 (f t').1 :=
    fun ht ht' hs => ⟨fun l h => hf.get?_congr ht ht' (seesA hs) (hs.own l (.inr h)), fun l h => by
      by_cases ho : A.own l ∨ B.own l
      · exact .inl (hf.get?_congr ht ht' (seesA hs) (hs.own l ho))
      · exact hf.grown ht ht' (seesA hs) (hs.way l ⟨.inr h, ho⟩)⟩
  -- the second operation is the same one after either tree
  have same : ∀ {t t'}, K t → K t' → (A.union B).Sees t t' →
      next (f t').2 (f t').1 = next (f t).2 (f t').1 := fun ht ht' hs => by
    rw [hn _ _ (hf.near ht ht' (seesA hs))]
  have congr : ∀ {t t'}, K t → K t' → (A.union B).Sees t t' → ∀ l, t'.get? l = t.get? l →
      (next (f t').2 (f t').1).1.get? l = (next (f t).2 (f t).1).1.get? l := fun ht ht' hs l he => by
    rw [same ht ht' hs]
    exact (hg _).get?_congr (hf.keeps ht) (hf.keeps ht') (seesB ht ht' hs)
      (hf.get?_congr ht ht' (seesA hs) he)
  refine ⟨fun ht => (hg _).keeps (hf.keeps ht), fun {t} ht l hl => ?_,
    fun ht ht' hs l hl => congr ht ht' hs l (hs.own l hl), fun {t t'} ht ht' hs l hl => ?_,
    fun {t t'} ht ht' hs => ?_⟩
  · have notA : ¬ A.own l := fun h => hl (.inl h)
    have notB : ¬ B.own l := fun h => hl (.inr h)
    rcases (hg (f t).2).frame (hf.keeps ht) l notB with h2 | ⟨hw2, hn2, hd2⟩
    · rcases hf.frame ht l notA with h1 | ⟨hw1, hn1, hd1⟩
      · exact .inl (h2.trans h1)
      · exact .inr ⟨⟨.inl hw1, hl⟩, hn1, h2.trans hd1⟩
    · rcases hf.frame ht l notA with h1 | ⟨-, -, hd1⟩
      · exact .inr ⟨⟨.inr hw2, hl⟩, h1 ▸ hn2, hd2⟩
      · rw [hd1] at hn2; cases hn2
  · have notA : ¬ A.own l := fun h => hl.2 (.inl h)
    have notB : ¬ B.own l := fun h => hl.2 (.inr h)
    have grown : Grown ((next (f t).2 (f t).1).1.get? l) ((next (f t').2 (f t').1).1.get? l) := by
      rw [same ht ht' hs]
      exact (hg _).grown (hf.keeps ht) (hf.keeps ht') (seesB ht ht' hs)
        (hf.grown ht ht' (seesA hs) (hs.way l hl))
    constructor
    · intro hd
      rcases hs.way l hl with he | ⟨-, hd'⟩
      · exact .inl ((congr ht ht' hs l he).symm.trans hd)
      · exact .inr hd'
    · rintro (hd | hd)
      · rcases grown with he | ⟨hn, -⟩
        · exact he.trans hd
        · rw [hd] at hn; cases hn
      · exact (hg _).dir_stays (hf.keeps ht') notB (hf.dir_stays ht' notA hd)
  · rw [same ht ht' hs]
    exact (hg _).near (hf.keeps ht) (hf.keeps ht') (seesB ht ht' hs)

/-- To look at a tree is local to any area that shows all that is looked at. -/
theorem Local.still {look : FileTree → R} (h : ∀ {t t'}, K t → K t' → A.Sees t t' → near (look t) (look t')) :
    Local K A near fun t => (t, look t) where
  keeps ht := ht
  frame _ _ _ := .inl rfl
  own _ _ hs l hl := hs.own l hl
  way _ _ hs l hl := by
    refine ⟨.inr, fun hd => hd.elim (fun hd => ?_) id⟩
    rcases hs.way l hl with he | ⟨hn, -⟩
    · exact he.trans hd
    · rw [hn] at hd; cases hd
  near := h

/-- An operation stays local with another result that is made of its own. -/
theorem Local.map (hf : Local K A near f) {g : R → S} (h : ∀ r r', near r r' → near' (g r) (g r')) :
    Local K A near' fun t => ((f t).1, g (f t).2) :=
  ⟨hf.keeps, hf.frame, hf.own, hf.way, fun ht ht' hs => h _ _ (hf.near ht ht' hs)⟩

/-- An operation that leaves the trees of a local one is local, whatever its results. -/
theorem Local.of_tree (hf : Local K A near f) (h : ∀ t, (g t).1 = (f t).1) :
    Local K A (fun _ _ => True) g where
  keeps ht := by rw [h]; exact hf.keeps ht
  frame ht := by rw [h]; exact hf.frame ht
  own ht ht' hs := by rw [h, h]; exact hf.own ht ht' hs
  way ht ht' hs := by rw [h, h]; exact hf.way ht ht' hs
  near _ _ _ := trivial

end

/-! ## Lists of operations -/

section
variable {α R : Type} {K : FileTree → Prop} {area : α → Area} {near : R → R → Prop}
  {step : FileTree → α → FileTree × R}

/-- The tree after operations in turn. -/
def after (step : FileTree → α → FileTree × R) (t : FileTree) (as : List α) : FileTree :=
  as.foldl (fun t a => (step t a).1) t

theorem keeps_after {as : List α} (hs : ∀ a ∈ as, Local K (area a) near (step · a)) {t : FileTree}
    (ht : K t) : K (after step t as) := by
  induction as generalizing t with
  | nil => exact ht
  | cons a as ih =>
    exact ih (fun b hb => hs b (List.mem_cons_of_mem _ hb)) ((hs a List.mem_cons_self).keeps ht)

theorem same_after {as : List α} (hs : ∀ a ∈ as, Local K (area a) near (step · a)) {t t' : FileTree}
    (ht : K t) (ht' : K t') (same : Same t t') : Same (after step t as) (after step t' as) := by
  induction as generalizing t t' with
  | nil => exact same
  | cons a as ih =>
    have first := hs a List.mem_cons_self
    exact ih (fun b hb => hs b (List.mem_cons_of_mem _ hb)) (first.keeps ht) (first.keeps ht')
      (first.same ht ht' same)

/-- Operations whose areas are apart leave the same tree in every order. -/
theorem same_after_perm {as bs : List α} (h : as.Perm bs)
    (hs : ∀ a ∈ as, Local K (area a) near (step · a))
    (ha : as.Pairwise fun a b => (area a).Apart (area b)) {t t' : FileTree} (ht : K t) (ht' : K t')
    (same : Same t t') : Same (after step t as) (after step t' bs) := by
  induction h generalizing t t' with
  | nil => exact same
  | cons a _ ih =>
    have first := hs a List.mem_cons_self
    exact ih (fun b hb => hs b (List.mem_cons_of_mem _ hb)) ha.of_cons (first.keeps ht)
      (first.keeps ht') (first.same ht ht' same)
  | swap a b as =>
    have sa := hs a (by simp)
    have sb := hs b (by simp)
    have apart : (area b).Apart (area a) := (List.pairwise_cons.1 ha).1 a List.mem_cons_self
    have rest : ∀ c ∈ as, Local K (area c) near (step · c) := fun c hc => hs c (by simp [hc])
    have swapped : Same (step (step t b).1 a).1 (step (step t' a).1 b).1 :=
      (sb.commute sa apart ht).trans
        (sb.same (sa.keeps ht) (sa.keeps ht') (sa.same ht ht' same))
    exact same_after rest (sa.keeps (sb.keeps ht)) (sb.keeps (sa.keeps ht')) swapped
  | trans h1 h2 ih1 ih2 =>
    have middle := ih1 hs ha ht ht (.refl t)
    exact middle.trans (ih2 (fun b hb => hs b (h1.mem_iff.2 hb))
      ((h1.pairwise_iff fun h => h.symm).1 ha) ht ht' same)

end

end StaticSite.FileTree
