import StaticSite.Path.Basic

/-!
# Sorted paths

Paths are linearly ordered, so the sorted list of the distinct paths of a list depends on no more than which
paths are in it (`sortDistinct_congr`).
-/

namespace StaticSite.Path

/-! ## The order -/

theorem partsLe_total (as bs : List String) : partsLe as bs = true ∨ partsLe bs as = true := by
  induction as generalizing bs with
  | nil => exact .inl rfl
  | cons a as ih =>
    cases bs with
    | nil => exact .inr rfl
    | cons b bs =>
      by_cases h : a = b
      · simpa [partsLe, h] using ih bs
      · simp only [partsLe, h, Ne.symm h, if_false, decide_eq_true_eq]
        by_cases hlt : a < b
        · exact .inl hlt
        · refine .inr (Classical.byContradiction fun hgt => h ?_)
          exact String.le_antisymm (String.not_lt.1 hgt) (String.not_lt.1 hlt)

theorem partsLe_antisymm {as bs : List String} (h : partsLe as bs = true) (h' : partsLe bs as = true) :
    as = bs := by
  induction as generalizing bs with
  | nil => cases bs with
    | nil => rfl
    | cons b bs => cases h'
  | cons a as ih =>
    cases bs with
    | nil => cases h
    | cons b bs =>
      by_cases hab : a = b
      · simp only [partsLe, hab, if_true] at h h'
        rw [hab, ih h h']
      · simp only [partsLe, hab, Ne.symm hab, if_false, decide_eq_true_eq] at h h'
        exact absurd (String.lt_trans h h') (String.lt_irrefl a)

theorem partsLe_trans {as bs cs : List String} (h : partsLe as bs = true) (h' : partsLe bs cs = true) :
    partsLe as cs = true := by
  induction as generalizing bs cs with
  | nil => rfl
  | cons a as ih =>
    cases bs with
    | nil => cases h
    | cons b bs =>
      cases cs with
      | nil => cases h'
      | cons c cs =>
        by_cases hab : a = b
        · subst hab
          by_cases hac : a = c
          · subst hac
            simp only [partsLe, if_true] at h h' ⊢
            exact ih h h'
          · simpa [partsLe, hac] using h'
        · simp only [partsLe, hab, if_false, decide_eq_true_eq] at h
          by_cases hbc : b = c
          · simpa [partsLe, ← hbc, hab] using h
          · simp only [partsLe, hbc, if_false, decide_eq_true_eq] at h'
            have hlt := String.lt_trans h h'
            have hac : a ≠ c := fun he => String.lt_irrefl c (he ▸ hlt)
            simpa [partsLe, hac] using hlt

theorem le_total (p q : Path) : p.le q = true ∨ q.le p = true := by
  unfold le
  by_cases h : p.parts = q.parts
  · simpa [h] using Nat.le_total p.root.rank q.root.rank
  · simpa [h, Ne.symm h] using partsLe_total p.parts q.parts

theorem eq_of_parts {p q : Path} (hr : p.root = q.root) (hp : p.parts = q.parts) : p = q := by
  obtain ⟨root, segments⟩ := p
  obtain ⟨root', segments'⟩ := q
  cases hr
  unfold parts isAbsolute at hp
  cases root <;> simpa using hp

theorem le_antisymm {p q : Path} (h : p.le q = true) (h' : q.le p = true) : p = q := by
  unfold le at h h'
  by_cases hp : p.parts = q.parts
  · simp only [hp, if_true, decide_eq_true_eq] at h h'
    refine eq_of_parts ?_ hp
    generalize p.root = r at h h' ⊢
    generalize q.root = r' at h h' ⊢
    cases r <;> cases r' <;> first | rfl | simp [Root.rank] at h h'
  · simp only [hp, Ne.symm hp, if_false] at h h'
    exact absurd (partsLe_antisymm h h') hp

theorem le_trans {p q r : Path} (h : p.le q = true) (h' : q.le r = true) : p.le r = true := by
  unfold le at *
  by_cases hpq : p.parts = q.parts
  · by_cases hqr : q.parts = r.parts
    · simp only [hpq, hqr, if_true, decide_eq_true_eq] at *
      exact Nat.le_trans h h'
    · simpa [hpq, hqr] using h'
  · by_cases hqr : q.parts = r.parts
    · simpa [← hqr, hpq] using h
    · simp only [hpq, hqr, if_false] at h h'
      have hpr : p.parts ≠ r.parts := fun he => hpq (partsLe_antisymm h (he ▸ h'))
      simpa [hpr] using partsLe_trans h h'

/-! ## Sorting -/

theorem mem_insertSorted {p q : Path} {ps : List Path} : q ∈ insertSorted p ps ↔ q = p ∨ q ∈ ps := by
  induction ps with
  | nil => simp [insertSorted]
  | cons r ps ih =>
    rw [insertSorted]
    split
    · next h => subst h; simp
    · split
      · simp
      · simp [ih, or_left_comm]

@[simp] theorem mem_sortDistinct {p : Path} {ps : List Path} : p ∈ sortDistinct ps ↔ p ∈ ps := by
  induction ps with
  | nil => simp [sortDistinct]
  | cons q ps ih =>
    rw [sortDistinct] at ih ⊢
    rw [List.foldr_cons, mem_insertSorted, ih, List.mem_cons]

/-- The list is increasing, and no path is in it twice. -/
def Increasing (ps : List Path) : Prop := ps.Pairwise fun p q => p ≠ q ∧ p.le q = true

theorem increasing_insertSorted {p : Path} {ps : List Path} (h : Increasing ps) :
    Increasing (insertSorted p ps) := by
  induction ps with
  | nil => exact List.pairwise_singleton _ _
  | cons q ps ih =>
    obtain ⟨first, rest⟩ := List.pairwise_cons.1 h
    rw [insertSorted]
    split
    · exact h
    · next hne =>
      split
      · next hle =>
        refine List.pairwise_cons.2 ⟨fun r hr => ?_, h⟩
        rcases List.mem_cons.1 hr with rfl | hr
        · exact ⟨hne, hle⟩
        · refine ⟨?_, le_trans hle (first r hr).2⟩
          rintro rfl
          exact hne (le_antisymm hle (first p hr).2)
      · next hle =>
        have before : q.le p = true := (le_total q p).resolve_right hle
        refine List.pairwise_cons.2 ⟨fun r hr => ?_, ih rest⟩
        rcases mem_insertSorted.1 hr with rfl | hr
        · exact ⟨Ne.symm hne, before⟩
        · exact first r hr

theorem increasing_sortDistinct (ps : List Path) : Increasing (sortDistinct ps) := by
  induction ps with
  | nil => exact .nil
  | cons p ps ih => exact increasing_insertSorted ih

theorem nodup_sortDistinct (ps : List Path) : (sortDistinct ps).Nodup := (increasing_sortDistinct ps).imp And.left

/-- Lists of the same paths are sorted to the same list. -/
theorem sortDistinct_congr {ps qs : List Path} (h : ∀ p, p ∈ ps ↔ p ∈ qs) :
    sortDistinct ps = sortDistinct qs := by
  have ordered : ∀ ps, (sortDistinct ps).Pairwise fun p q => p.le q = true := fun ps =>
    (increasing_sortDistinct ps).imp And.right
  refine List.Perm.eq_of_pairwise (fun p q _ _ => le_antisymm) (ordered ps) (ordered qs) ?_
  refine (List.perm_ext_iff_of_nodup (nodup_sortDistinct ps) (nodup_sortDistinct qs)).2 fun p => ?_
  rw [mem_sortDistinct, mem_sortDistinct, h]

end StaticSite.Path
