import StaticSite.Proofs.Site.Lasting

/-!
# Work with nothing to do

Lasting work is idle on a tree that holds all that was there when it was done, and in its own area just that
(`idle_of_lasting`, `idle_inTurn`). A run through a list in which some items are idle does what the run through the
others does (`inTurn_of_idle`).
-/

namespace StaticSite.Site

open FileTree (Area Local Grows Lasting)

variable {K K' : FileTree → Prop} {t w T : FileTree} {A : Area}

/-- Work that does nothing to a tree that has grown from `T` and is the same as `T` in the area. -/
def Idle (K : FileTree → Prop) (T : FileTree) (A : Area) (f : FileTree → FileTree) : Prop :=
  ∀ w, K w → Grows T w → (∀ l, A.own l → w.get? l = T.get? l) → f w = w

/-- Lasting work that was done is idle. -/
theorem idle_of_lasting {R : Type} {near : R → R → Prop} {f g : FileTree → FileTree × R}
    (h : Lasting K K' A.own near f g) (ht : K t) (hT : Grows (f t).1 T)
    (hown : ∀ l, A.own l → T.get? l = (f t).1.get? l) : Idle K' T A fun w => (g w).1 := by
  intro w hw grows same
  obtain ⟨mark, own, leaves, again⟩ := h t ht
  refine (again w hw (hT.trans grows)).1.trans ?_
  cases mark with
  | none => rfl
  | some m =>
    obtain ⟨l, content⟩ := m
    obtain ⟨-, put, -⟩ := leaves.put rfl
    have nonempty : l ≠ [] := by rintro rfl; cases put
    have there : w.get? l = some (.file content) := by
      rw [same l (own l content rfl), hown l (own l content rfl), put]
    exact FileTree.put_of_get? nonempty there

section
variable {α β : Type} {area : α → Area} {near : Except Fault β → Except Fault β → Prop}
  {step : FileTree → α → Step β} {as : List α}

/-- Work on items that are apart is not seen. -/
theorem sees_inTurn (hs : ∀ a ∈ as, Local K (area a) near fun t => (step t a).done)
    (ha : ∀ a ∈ as, A.Apart (area a)) (ht : K t) : A.Sees t (inTurn step t as).1 := by
  induction as generalizing t with
  | nil => exact .refl A t
  | cons a as ih =>
    have first := hs a List.mem_cons_self
    exact (first.sees (ha a List.mem_cons_self) ht).trans (ih (fun b hb => hs b (List.mem_cons_of_mem _ hb))
      (fun b hb => ha b (List.mem_cons_of_mem _ hb)) (first.keeps ht))

theorem grows_inTurn (hs : ∀ a ∈ as, ∀ {t}, K t → K (step t a).tree ∧ Grows t (step t a).tree) (ht : K t) :
    Grows t (inTurn step t as).1 := by
  induction as generalizing t with
  | nil => exact .refl t
  | cons a as ih =>
    obtain ⟨kept, grows⟩ := hs a List.mem_cons_self ht
    exact grows.trans (ih (fun b hb => hs b (List.mem_cons_of_mem _ hb)) kept)

/-- Lasting work that was done in a run through items that are apart from each other is idle afterwards. -/
theorem idle_inTurn {near' : Except Fault β → Except Fault β → Prop} {step' : FileTree → α → Step β}
    (hs : ∀ a ∈ as, Local K (area a) near fun t => (step t a).done)
    (apart : as.Pairwise fun a b => (area a).Apart (area b))
    (grows : ∀ a ∈ as, ∀ {t}, K t → Grows t (step t a).tree) (ht : K t) (hT : Grows (inTurn step t as).1 T)
    {a : α} (ha : a ∈ as) (hown : ∀ l, (area a).own l → T.get? l = (inTurn step t as).1.get? l)
    (hl : Lasting K K' (area a).own near' (fun t => (step t a).done) fun w => (step' w a).done) :
    Idle K' T (area a) fun w => (step' w a).tree := by
  induction as generalizing t with
  | nil => cases ha
  | cons b as ih =>
    obtain ⟨first, rest⟩ := List.pairwise_cons.1 apart
    have locals := fun c hc => hs c (List.mem_cons_of_mem b hc)
    have kept : K (step t b).tree := (hs b List.mem_cons_self).keeps ht
    rcases List.mem_cons.1 ha with rfl | ha
    · -- what comes after the item does not touch what it has put
      have later : Grows (step t a).tree (inTurn step (step t a).tree as).1 :=
        grows_inTurn (fun c hc => fun {u} hu => ⟨(locals c hc).keeps hu, grows c (List.mem_cons_of_mem _ hc) hu⟩) kept
      refine idle_of_lasting hl ht (later.trans hT) fun l ho => (hown l ho).trans ?_
      exact (sees_inTurn locals first kept).own l ho
    · exact ih locals rest (fun c hc => grows c (List.mem_cons_of_mem _ hc)) kept hT ha hown

/-! ## Runs with idle items -/

/-- The results of those items that are meant. -/
def resultsAt (meant : α → Bool) (as : List α) (results : List (Except Fault β)) : List (Except Fault β) :=
  ((as.zip results).filter fun item => meant item.1).map Prod.snd

/-- A run through items of which some are idle does what the run through the others does. -/
theorem inTurn_of_idle {Inv : FileTree → Prop} {meant : α → Bool}
    (idle : ∀ a ∈ as, meant a = false → ∀ w, Inv w → (step w a).tree = w)
    (keeps : ∀ a ∈ as, meant a = true → ∀ w, Inv w → Inv (step w a).tree) (hw : Inv w) :
    (inTurn step w as).1 = (inTurn step w (as.filter meant)).1 ∧
      resultsAt meant as (inTurn step w as).2.2 = (inTurn step w (as.filter meant)).2.2 ∧
      Inv (inTurn step w as).1 := by
  induction as generalizing w with
  | nil => exact ⟨rfl, rfl, hw⟩
  | cons a as ih =>
    have rest := fun {u} => @ih u (fun b hb => idle b (List.mem_cons_of_mem _ hb))
      fun b hb => keeps b (List.mem_cons_of_mem _ hb)
    cases hm : meant a with
    | false =>
      have still := idle a List.mem_cons_self hm w hw
      obtain ⟨tree, results, inv⟩ := rest hw
      rw [List.filter_cons_of_neg (by simp [hm])]
      simp only [inTurn, still, resultsAt, List.zip_cons_cons]
      rw [List.filter_cons_of_neg (by simp [hm])]
      exact ⟨tree, results, inv⟩
    | true =>
      obtain ⟨tree, results, inv⟩ := rest (keeps a List.mem_cons_self hm w hw)
      rw [List.filter_cons_of_pos hm]
      simp only [inTurn, resultsAt, List.zip_cons_cons]
      rw [List.filter_cons_of_pos (by exact hm), List.map_cons]
      exact ⟨tree, congrArg _ results, inv⟩

end

end StaticSite.Site
