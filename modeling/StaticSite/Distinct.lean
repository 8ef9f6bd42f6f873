/-!
# First occurrences

`distinct xs` keeps the first occurrence of every element, in order.
-/

namespace StaticSite

variable {α : Type} [DecidableEq α]

def distinct : List α → List α
  | [] => []
  | x :: xs => x :: (distinct xs).filter (· ≠ x)

@[simp] theorem mem_distinct {x : α} {xs : List α} : x ∈ distinct xs ↔ x ∈ xs := by
  induction xs with
  | nil => simp [distinct]
  | cons y ys ih => by_cases h : x = y <;> simp [distinct, ih, h]

theorem nodup_distinct (xs : List α) : (distinct xs).Nodup := by
  induction xs with
  | nil => simp [distinct]
  | cons y ys ih =>
    rw [distinct, List.nodup_cons]
    exact ⟨by simp, List.Pairwise.filter _ ih⟩

/-- What is added behind a list counts as far as it is not in the list. -/
theorem distinct_append (xs ys : List α) :
    distinct (xs ++ ys) = distinct xs ++ (distinct ys).filter (· ∉ xs) := by
  induction xs with
  | nil => exact (List.filter_eq_self.2 fun y _ => by simp).symm
  | cons x xs ih =>
    rw [List.cons_append, distinct, ih, List.filter_append, List.filter_filter, distinct, List.cons_append]
    congr 3
    funext y
    by_cases h : y = x <;> simp [h]

/-- Elements that have occurred before count no more, whatever follows. -/
theorem distinct_append_append {xs ys : List α} (h : ys ⊆ xs) (zs : List α) :
    distinct (xs ++ (ys ++ zs)) = distinct (xs ++ zs) := by
  have none : (distinct ys).filter (· ∉ xs) = [] := by
    rw [List.filter_eq_nil_iff]
    intro y hy
    simpa using h (mem_distinct.1 hy)
  have same : ((distinct zs).filter (· ∉ ys)).filter (· ∉ xs) = (distinct zs).filter (· ∉ xs) := by
    rw [List.filter_filter]
    refine List.filter_congr fun z _ => ?_
    by_cases hz : z ∈ xs
    · simp [hz]
    · have : z ∉ ys := fun hy => hz (h hy)
      simp [hz, this]
  rw [distinct_append xs (ys ++ zs), distinct_append ys zs, List.filter_append, none, same, List.nil_append,
    distinct_append]

end StaticSite
