import StaticSite.Distinct
import StaticSite.Proofs.Value.Record

/-!
# Records put over each other

A record is known from its keys, in order, and from what is found at them (`ext_of_keys`). Where one is put over
another, the keys stand in the order in which they are first seen (`keys_update_eq`), and the value of a key is that of
the upper record, if it has the key. So putting records over each other is associative (`update_assoc`), the empty
record is neutral (`nil_update`), and a record put over itself is itself (`update_self`).
-/

namespace StaticSite

/-! ## First occurrences by a form -/

section

variable {α β : Type} [DecidableEq β] {f : α → β}

/-- The elements of a list in order, without those whose form has occurred before. -/
def distinctBy (f : α → β) : List α → List α
  | [] => []
  | x :: xs => x :: (distinctBy f xs).filter (f · ≠ f x)

theorem map_distinctBy (f : α → β) (xs : List α) : (distinctBy f xs).map f = distinct (xs.map f) := by
  induction xs with
  | nil => rfl
  | cons x xs ih =>
    rw [distinctBy, List.map_cons, List.map_cons, distinct, ← ih, List.filter_map]
    rfl

theorem distinctBy_of_nodup {xs : List α} (h : (xs.map f).Nodup) : distinctBy f xs = xs := by
  induction xs with
  | nil => rfl
  | cons x xs ih =>
    obtain ⟨first, rest⟩ := List.nodup_cons.1 h
    rw [distinctBy, ih rest, List.filter_eq_self.2]
    intro y hy
    exact decide_eq_true fun same => first (same ▸ List.mem_map_of_mem hy)

/-- What is added behind a list counts as far as its form is not in the list. -/
theorem distinctBy_append (f : α → β) (xs ys : List α) :
    distinctBy f (xs ++ ys) = distinctBy f xs ++ (distinctBy f ys).filter (f · ∉ xs.map f) := by
  induction xs with
  | nil => exact (List.filter_eq_self.2 fun y _ => by simp).symm
  | cons x xs ih =>
    rw [List.cons_append, distinctBy, ih, List.filter_append, List.filter_filter, distinctBy, List.cons_append]
    congr 3
    funext y
    by_cases h : f y = f x <;> simp [h]

theorem distinctBy_distinctBy (f : α → β) (xs : List α) : distinctBy f (distinctBy f xs) = distinctBy f xs :=
  distinctBy_of_nodup (map_distinctBy f xs ▸ nodup_distinct _)

/-- The first of two parts may be thinned out beforehand. -/
theorem distinctBy_distinctBy_append (f : α → β) (xs ys : List α) :
    distinctBy f (distinctBy f xs ++ ys) = distinctBy f (xs ++ ys) := by
  rw [distinctBy_append, distinctBy_append, distinctBy_distinctBy, map_distinctBy]
  simp only [mem_distinct]

/-- What is added counts for nothing if all its forms have occurred before. -/
theorem distinctBy_append_of_known {xs ys : List α} (h : ∀ y ∈ ys, f y ∈ xs.map f) :
    distinctBy f (xs ++ ys) = distinctBy f xs := by
  rw [distinctBy_append, List.filter_eq_nil_iff.2, List.append_nil]
  intro y hy
  have known : f y ∈ ys.map f := mem_distinct.1 (map_distinctBy f ys ▸ List.mem_map_of_mem hy)
  obtain ⟨z, hz, same⟩ := List.mem_map.1 known
  simpa [← same] using h z hz

/-- The second of two parts may be thinned out beforehand. -/
theorem distinctBy_append_distinctBy (f : α → β) (xs ys : List α) :
    distinctBy f (xs ++ distinctBy f ys) = distinctBy f (xs ++ ys) := by
  rw [distinctBy_append, distinctBy_append, distinctBy_distinctBy]

end

namespace Record

variable {r s t : Record} {k v : Value}

/-! ## Records that are maps -/

/-- The record is what a map holds: its keys are scalars, and no two of them are one key. -/
structure IsMap (r : Record) : Prop where
  distinct : Distinct r
  scalar : ∀ k ∈ r.keys, k.key?.isSome

theorem isMap_nil : IsMap [] := ⟨.nil, List.forall_mem_nil _⟩

theorem IsMap.tail {e : Value × Value} (h : IsMap (e :: r)) : IsMap r :=
  ⟨(List.pairwise_cons.1 h.distinct).2, fun k hk => h.scalar k (List.mem_cons_of_mem _ hk)⟩

/-- The keys of a map have different normal forms. -/
theorem IsMap.nodup (h : IsMap r) : (r.keys.map Value.key?).Nodup := by
  induction r with
  | nil => exact List.nodup_nil
  | cons e r ih =>
    obtain ⟨apart, -⟩ := List.pairwise_cons.1 h.distinct
    refine List.nodup_cons.2 ⟨fun hm => ?_, ih h.tail⟩
    obtain ⟨k, hk, same⟩ := List.mem_map.1 hm
    obtain ⟨e', he, rfl⟩ := List.mem_map.1 hk
    have one := (Value.sameKey_iff (.inr (h.tail.scalar _ hk))).2 same.symm
    simp [apart e' he] at one

theorem isMap_iff : IsMap r ↔ (r.keys.map Value.key?).Nodup ∧ ∀ k ∈ r.keys, k.key?.isSome := by
  refine ⟨fun h => ⟨h.nodup, h.scalar⟩, fun ⟨nodup, scalar⟩ => ⟨?_, scalar⟩⟩
  have apart : r.Pairwise fun a b => a.1.key? ≠ b.1.key? := by
    rw [keys, List.map_map] at nodup
    exact List.pairwise_map.1 nodup
  refine apart.imp_of_mem fun {a b} ha _ different => ?_
  exact Bool.eq_false_iff.2 (mt (Value.sameKey_iff (.inl (scalar _ (List.mem_map_of_mem ha)))).1 different)

instance (r : Record) : Decidable r.IsMap := decidable_of_iff _ isMap_iff.symm

theorem IsMap.update (hr : IsMap r) (hs : IsMap s) : IsMap (r.update s) :=
  ⟨hr.distinct.update s, fun k hk => (keys_update hk).elim (hr.scalar k) (hs.scalar k)⟩

/-- Two maps with the same keys in the same order and the same values at them are the same. -/
theorem ext_of_keys (hr : IsMap r) (keys : r.keys = s.keys) (values : ∀ k ∈ r.keys, r.get? k = s.get? k) : r = s := by
  induction r generalizing s with
  | nil => exact (List.map_eq_nil_iff.1 keys.symm).symm
  | cons e r ih =>
    obtain ⟨k, v⟩ := e
    cases s with
    | nil => cases keys
    | cons e' s =>
      obtain ⟨k', v'⟩ := e'
      obtain ⟨rfl, rest⟩ := List.cons.inj keys
      obtain ⟨apart, -⟩ := List.pairwise_cons.1 hr.distinct
      have self : k.sameKey k = true := (Value.sameKey_iff (.inl (hr.scalar k List.mem_cons_self))).2 rfl
      have first : v = v' := by
        have found := values k List.mem_cons_self
        rw [get?_cons, get?_cons, if_pos self, if_pos self] at found
        exact Option.some.inj found
      have others : r = s := ih hr.tail rest fun l hl => by
        obtain ⟨e, he, rfl⟩ := List.mem_map.1 hl
        have found := values e.1 (List.mem_cons_of_mem _ hl)
        have other : ¬ k.sameKey e.1 = true := by simp [apart e he]
        rwa [get?_cons, get?_cons, if_neg other, if_neg other] at found
      rw [first, others]

/-! ## Keys in order -/

/-- A new key comes last, and one that is there stays in its place as it is spelled. -/
theorem keys_set_eq (hk : k.key?.isSome) :
    (r.set k v).keys = if k.key? ∈ r.keys.map Value.key? then r.keys else r.keys ++ [k] := by
  induction r with
  | nil => rfl
  | cons e r ih =>
    obtain ⟨l, w⟩ := e
    rw [Record.set]
    by_cases h : l.key? = k.key?
    · rw [if_pos ((Value.sameKey_iff (.inr hk)).2 h)]
      simp [h]
    · rw [if_neg (mt (Value.sameKey_iff (.inr hk)).1 h), keys_cons, ih, keys_cons, List.map_cons]
      simp only [List.mem_cons, Ne.symm h, false_or]
      split <;> rfl

/-- The keys of a record put over another stand in the order in which they are first seen. -/
theorem keys_update_eq (hr : IsMap r) (hs : ∀ k ∈ s.keys, k.key?.isSome) :
    (r.update s).keys = distinctBy Value.key? (r.keys ++ s.keys) := by
  induction s generalizing r with
  | nil => rw [update_nil, keys_nil, List.append_nil, distinctBy_of_nodup hr.nodup]
  | cons e s ih =>
    obtain ⟨k, v⟩ := e
    obtain ⟨first, rest⟩ := List.forall_mem_cons.1 hs
    have isMap : IsMap (r.set k v) := ⟨hr.distinct.set k v, fun l hl => by
      rcases keys_set hl with rfl | hl
      · exact first
      · exact hr.scalar l hl⟩
    rw [update_cons, ih isMap rest, keys_set_eq first, keys_cons]
    split
    · next present =>
      -- the key is spelled as it was when it was first seen
      have known : distinctBy Value.key? (r.keys ++ [k]) = distinctBy Value.key? r.keys :=
        distinctBy_append_of_known fun l hl => (List.mem_singleton.1 hl).symm ▸ present
      rw [← List.singleton_append, ← List.append_assoc, ← distinctBy_distinctBy_append _ (r.keys ++ [k]), known,
        distinctBy_distinctBy_append]
    · rw [List.append_assoc, List.singleton_append]

/-! ## Laws -/

theorem update_assoc (hr : IsMap r) (hs : IsMap s) (ht : IsMap t) :
    (r.update s).update t = r.update (s.update t) := by
  refine ext_of_keys ((hr.update hs).update ht) ?_ fun k hk => ?_
  · rw [keys_update_eq (hr.update hs) ht.scalar, keys_update_eq hr hs.scalar, distinctBy_distinctBy_append,
      keys_update_eq hr (hs.update ht).scalar, keys_update_eq hs ht.scalar, distinctBy_append_distinctBy,
      List.append_assoc]
  · have scalar := ((hr.update hs).update ht).scalar k hk
    rw [get?_update ht.distinct scalar, get?_update hs.distinct scalar, get?_update (hs.update ht).distinct scalar,
      get?_update ht.distinct scalar]
    cases t.get? k <;> rfl

theorem nil_update (hr : IsMap r) : update [] r = r := by
  refine (ext_of_keys hr ?_ fun k hk => ?_).symm
  · rw [keys_update_eq isMap_nil hr.scalar, keys_nil, List.nil_append, distinctBy_of_nodup hr.nodup]
  · rw [get?_update hr.distinct (hr.scalar k hk)]
    cases r.get? k <;> rfl

theorem update_self (hr : IsMap r) : r.update r = r := by
  refine (ext_of_keys hr ?_ fun k hk => ?_).symm
  · rw [keys_update_eq hr hr.scalar, distinctBy_append_of_known fun _ => List.mem_map_of_mem,
      distinctBy_of_nodup hr.nodup]
  · rw [get?_update hr.distinct (hr.scalar k hk)]
    cases r.get? k <;> rfl

end Record

end StaticSite
