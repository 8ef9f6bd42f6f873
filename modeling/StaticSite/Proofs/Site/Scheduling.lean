import StaticSite.Proofs.FileTree.Area
import StaticSite.Proofs.Site.Working
import StaticSite.Site.Schedule

/-!
# Work in the order of a schedule

If the work on each of several items is local and their areas are apart, the order in which the items are taken
up does not matter: the tree that is left is the same (`tree_run_same`), and each result is near to the one that
the item has alone (`results_run_near`).
-/

namespace StaticSite.Site

open FileTree (Area Local Same after)

/-! ## Positions -/

section
variable {α β : Type}

theorem mem_picked {order : List Nat} {as : List α} {i : Nat} {a : α} :
    (i, a) ∈ picked order as ↔ i ∈ order ∧ as[i]? = some a := by
  simp only [picked, List.mem_filterMap, Option.map_eq_some_iff]
  constructor
  · rintro ⟨j, hj, b, hb, h⟩
    cases h
    exact ⟨hj, hb⟩
  · rintro ⟨hi, ha⟩
    exact ⟨i, hi, a, ha, rfl⟩

theorem picked_perm {order order' : List Nat} (h : order.Perm order') (as : List α) :
    (picked order as).Perm (picked order' as) := h.filterMap _

/-- The result that is kept for a position is the one of the item there. -/
theorem exists_lookup_zip {P : α → β → Prop} {as : List α} {items : List (Nat × α)} {results : List β}
    (hi : ∀ item ∈ items, as[item.1]? = some item.2)
    (h : List.Forall₂ (fun item r => P item.2 r) items results) {i : Nat} {a : α} (ha : (i, a) ∈ items) :
    ∃ r, ((items.map Prod.fst).zip results).lookup i = some r ∧ P a r := by
  induction h with
  | nil => cases ha
  | cons first _ ih =>
    rename_i item r items results _
    obtain ⟨j, b⟩ := item
    rw [List.map_cons, List.zip_cons_cons, List.lookup_cons]
    by_cases hij : i = j
    · subst hij
      have here := hi (i, b) List.mem_cons_self
      have there := hi (i, a) ha
      rw [here] at there
      obtain rfl := Option.some.inj there
      exact ⟨r, by simp, first⟩
    · have hb : (i == j) = false := by simpa using hij
      rw [hb]
      have rest : (i, a) ∈ items := (List.mem_cons.1 ha).resolve_left fun he => hij (by cases he; rfl)
      exact ih (fun item hm => hi item (List.mem_cons_of_mem _ hm)) rest

theorem forall₂_filterMap_range {P : α → β → Prop} {as : List α} {f : Nat → Option β}
    (h : ∀ i a, as[i]? = some a → ∃ r, f i = some r ∧ P a r) :
    List.Forall₂ P as ((List.range as.length).filterMap f) := by
  induction as generalizing f with
  | nil => exact .nil
  | cons a as ih =>
    obtain ⟨r, hr, hp⟩ := h 0 a rfl
    rw [List.length_cons, List.range_succ_eq_map, List.filterMap_cons, hr, List.filterMap_map]
    exact .cons hp (ih fun i b hb => h (i + 1) b hb)

theorem picked_range (as : List α) : (picked (List.range as.length) as).map Prod.snd = as := by
  have items : List.Forall₂ Eq as ((List.range as.length).filterMap fun i => as[i]?) :=
    forall₂_filterMap_range fun i a h => ⟨a, h, rfl⟩
  rw [List.forall₂_eq_eq_eq] at items
  rw [picked, List.map_filterMap]
  refine Eq.trans ?_ items.symm
  refine List.filterMap_congr fun i _ => ?_
  cases as[i]? <;> rfl

theorem map_fst_picked_range (as : List α) :
    (picked (List.range as.length) as).map Prod.fst = List.range as.length := by
  rw [picked, List.map_filterMap]
  refine Eq.trans (List.filterMap_congr fun i hi => ?_) List.filterMap_some
  rw [List.getElem?_eq_getElem (List.mem_range.1 hi)]
  rfl

theorem lookup_zip_map (ks : List Nat) (vs : List α) (f : α → β) (k : Nat) :
    (ks.zip (vs.map f)).lookup k = ((ks.zip vs).lookup k).map f := by
  induction ks generalizing vs with
  | nil => rfl
  | cons j ks ih =>
    cases vs with
    | nil => rfl
    | cons v vs =>
      rw [List.map_cons, List.zip_cons_cons, List.zip_cons_cons, List.lookup_cons, List.lookup_cons]
      cases k == j
      · exact ih vs
      · rfl

/-- Values that are looked up by their keys in turn are the values. -/
theorem filterMap_lookup_zip {ks : List Nat} {vs : List β} (hk : ks.Nodup) (hl : ks.length = vs.length) :
    ks.filterMap ((ks.zip vs).lookup ·) = vs := by
  induction ks generalizing vs with
  | nil => exact (List.length_eq_zero_iff.1 hl.symm).symm
  | cons k ks ih =>
    cases vs with
    | nil => cases hl
    | cons v vs =>
      obtain ⟨fresh, distinct⟩ := List.nodup_cons.1 hk
      have rest : ks.filterMap (((k :: ks).zip (v :: vs)).lookup ·) = ks.filterMap ((ks.zip vs).lookup ·) := by
        refine List.filterMap_congr fun j hj => ?_
        have other : (j == k) = false := by
          rw [beq_eq_false_iff_ne]
          rintro rfl
          exact fresh hj
        rw [List.zip_cons_cons, List.lookup_cons, other]
      rw [List.filterMap_cons, rest, ih distinct (Nat.succ.inj hl)]
      simp

/-- Items taken up in the order of a schedule are the items. -/
theorem picked_order_perm (σ : Schedule) (as : List α) :
    ((picked (σ.order as.length) as).map Prod.snd).Perm as := by
  have := (picked_perm (σ.isOrder as.length) as).map Prod.snd
  rwa [picked_range] at this

end

/-! ## Runs -/

section
variable {α β : Type} {K : FileTree → Prop} {area : α → Area} {near : Except Fault β → Except Fault β → Prop}
  {step : FileTree → α → Step β} {t t' : FileTree} {as : List α}

theorem tree_inTurn (step : FileTree → α → Step β) (t : FileTree) (as : List α) :
    (inTurn step t as).1 = after (fun t a => (step t a).done) t as := by
  induction as generalizing t with
  | nil => rfl
  | cons a as ih => exact ih _

/-- Each item has a result that is near to the one on any tree that shows the same to it. -/
theorem results_inTurn_near (hs : ∀ a ∈ as, Local K (area a) near fun t => (step t a).done)
    (ha : as.Pairwise fun a b => (area a).Apart (area b)) (ht : K t) (ht' : K t')
    (hv : ∀ a ∈ as, (area a).Sees t t') :
    List.Forall₂ (fun a r => near (step t a).result r) as (inTurn step t' as).2.2 := by
  induction as generalizing t' with
  | nil => exact .nil
  | cons a as ih =>
    obtain ⟨apart, rest⟩ := List.pairwise_cons.1 ha
    have first := hs a List.mem_cons_self
    refine .cons (first.near ht ht' (hv a List.mem_cons_self)) ?_
    exact ih (fun b hb => hs b (List.mem_cons_of_mem _ hb)) rest (first.keeps ht') fun b hb =>
      (hv b (List.mem_cons_of_mem _ hb)).trans (first.sees (apart b hb).symm ht')

theorem inTurn_map {γ : Type} (step : FileTree → α → Step β) (f : γ → α) (t : FileTree) (cs : List γ) :
    inTurn (fun t c => step t (f c)) t cs = inTurn step t (cs.map f) := by
  induction cs generalizing t with
  | nil => rfl
  | cons c cs ih => simp only [inTurn, ih, List.map_cons]

/-- To take up the items from the first to the last is to work on them one by one. -/
theorem run_forward : (Schedule.forward.run : Runner α β) = inTurn := by
  funext step t as
  unfold Schedule.run
  dsimp only [Schedule.forward]
  rw [inTurn_map step Prod.snd, picked_range, map_fst_picked_range,
    filterMap_lookup_zip List.nodup_range (by rw [List.length_range, length_inTurn])]

theorem build_forward : build = buildIn .forward .forward := by
  rw [build, buildIn, run_forward, run_forward]

theorem map_snd_met (step : FileTree → α → Step β) (t : FileTree) (as : List α) :
    (met step t as).map Prod.snd = as := by
  induction as generalizing t with
  | nil => rfl
  | cons a as ih => exact congrArg (a :: ·) (ih _)

/-- Every item is taken up once, on some tree. The results are in the order of the items. -/
theorem exists_met_run (σ : Schedule) (step : FileTree → α → Step β) (t : FileTree) (as : List α) :
    ∃ ms : List (FileTree × α), ms.map Prod.snd = as ∧
      (σ.run step t as).2.2 = ms.map (fun m => (step m.1 m.2).result) ∧
      (σ.run step t as).2.1.Perm (ms.flatMap fun m => (step m.1 m.2).reports) := by
  let ks := (picked (σ.order as.length) as).map Prod.fst
  let vs := met step t ((picked (σ.order as.length) as).map Prod.snd)
  have placed : ks.Perm (List.range as.length) := by
    have perm := (picked_perm (σ.isOrder as.length) as).map Prod.fst
    rwa [map_fst_picked_range] at perm
  have items : vs.map Prod.snd = (picked (σ.order as.length) as).map Prod.snd := map_snd_met ..
  have long : ks.length = vs.length := by
    have := congrArg List.length items
    simp only [List.length_map] at this
    simp [ks, this]
  refine ⟨(List.range as.length).filterMap ((ks.zip vs).lookup ·), ?_, ?_, ?_⟩
  · rw [List.map_filterMap]
    simp only [← lookup_zip_map, items]
    have same : List.Forall₂ Eq as ((List.range as.length).filterMap
        ((ks.zip ((picked (σ.order as.length) as).map Prod.snd)).lookup ·)) := by
      refine forall₂_filterMap_range fun i a hi => ?_
      have inRange : i ∈ List.range as.length := List.mem_range.2 (List.getElem?_eq_some_iff.1 hi).1
      refine exists_lookup_zip (P := Eq) (fun item hm => (mem_picked.1 hm).2)
        (List.forall₂_map_right_iff.2 (List.forall₂_same.2 fun _ _ => rfl)) ?_
      exact mem_picked.2 ⟨(σ.isOrder as.length).mem_iff.2 inRange, hi⟩
    rw [List.forall₂_eq_eq_eq] at same
    exact same.symm
  · unfold Schedule.run
    dsimp only
    rw [inTurn_map step Prod.snd, results_inTurn, List.map_filterMap]
    exact List.filterMap_congr fun i _ => lookup_zip_map ..
  · have reordered : vs.Perm ((List.range as.length).filterMap ((ks.zip vs).lookup ·)) := by
      have := placed.filterMap ((ks.zip vs).lookup ·)
      rwa [filterMap_lookup_zip (placed.nodup_iff.2 List.nodup_range) long] at this
    unfold Schedule.run
    dsimp only
    rw [inTurn_map step Prod.snd, reports_inTurn]
    exact reordered.flatMap_right _

variable {σ : Schedule}

theorem tree_run (σ : Schedule) (step : FileTree → α → Step β) (t : FileTree) (as : List α) :
    (σ.run step t as).1 =
      after (fun t a => (step t a).done) t ((picked (σ.order as.length) as).map Prod.snd) := by
  have trees := tree_inTurn (fun t (item : Nat × α) => step t item.2) t (picked (σ.order as.length) as)
  rw [after, List.foldl_map]
  exact trees

/-- The order in which items are taken up does not matter for the tree. -/
theorem tree_run_same (hs : ∀ a ∈ as, Local K (area a) near fun t => (step t a).done)
    (ha : as.Pairwise fun a b => (area a).Apart (area b)) (ht : K t) (ht' : K t') (same : Same t t') :
    Same (inTurn step t as).1 (σ.run step t' as).1 := by
  rw [tree_inTurn, tree_run]
  exact FileTree.same_after_perm (picked_order_perm σ as).symm hs ha ht ht' same

/-- Nor does it matter for the result of an item. -/
theorem results_run_near (hs : ∀ a ∈ as, Local K (area a) near fun t => (step t a).done)
    (ha : as.Pairwise fun a b => (area a).Apart (area b)) (ht : K t) (ht' : K t')
    (hv : ∀ a ∈ as, (area a).Sees t t') :
    List.Forall₂ (fun a r => near (step t a).result r) as (σ.run step t' as).2.2 := by
  have perm := picked_order_perm σ as
  have items : List.Forall₂ (fun item r => near (step t item.2).result r) (picked (σ.order as.length) as)
      (inTurn (fun t (item : Nat × α) => step t item.2) t' (picked (σ.order as.length) as)).2.2 := by
    refine @results_inTurn_near (Nat × α) β K (fun item => area item.2) near
      (fun t item => step t item.2) t t' _ (fun item hm => hs item.2 ?_) ?_ ht ht' fun item hm => hv item.2 ?_
    · exact perm.mem_iff.1 (List.mem_map_of_mem hm)
    · have apart : ((picked (σ.order as.length) as).map Prod.snd).Pairwise fun a b =>
          (area a).Apart (area b) := (perm.pairwise_iff fun h => h.symm).2 ha
      exact (List.pairwise_map (f := Prod.snd)).1 apart
    · exact perm.mem_iff.1 (List.mem_map_of_mem hm)
  have placed : ∀ item ∈ picked (σ.order as.length) as, as[item.1]? = some item.2 :=
    fun item hm => (mem_picked.1 hm).2
  refine forall₂_filterMap_range fun i a hi =>
    exists_lookup_zip (P := fun a r => near (step t a).result r) placed items ?_
  have inRange : i ∈ List.range as.length := List.mem_range.2 (List.getElem?_eq_some_iff.1 hi).1
  exact mem_picked.2 ⟨(σ.isOrder as.length).mem_iff.2 inRange, hi⟩

end

end StaticSite.Site
