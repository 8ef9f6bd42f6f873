import StaticSite.Proofs.Value.Key

/-!
# Records

A record is looked up by the normal form of a key. `get?_set` and `get?_update` say what is found after an entry was
set and after a record was put over another, whose keys must be distinct; `keys_update` says that no other keys come
in.
-/

namespace StaticSite.Record

variable {r s : Record} {key k v : Value}

/-- No two entries have one key. -/
def Distinct (r : Record) : Prop := r.Pairwise fun a b => a.1.sameKey b.1 = false

@[simp] theorem keys_nil : keys [] = [] := rfl

@[simp] theorem keys_cons (e : Value × Value) (r : Record) : keys (e :: r) = e.1 :: r.keys := rfl

/-! ## Looking up -/

@[simp] theorem get?_nil (key : Value) : get? [] key = none := rfl

theorem get?_cons : get? ((k, v) :: r) key = if k.sameKey key = true then some v else r.get? key := by
  unfold get?
  cases h : k.sameKey key <;> simp [h]

theorem get?_eq_none_iff (hk : key.key?.isSome) : r.get? key = none ↔ ∀ e ∈ r, e.1.key? ≠ key.key? := by
  induction r with
  | nil => simp
  | cons e r ih =>
    rw [get?_cons, List.forall_mem_cons, ← ih]
    split
    · next h => simp [(Value.sameKey_iff (.inr hk)).1 h]
    · next h => simp [mt (Value.sameKey_iff (.inr hk)).2 h]

/-! ## Setting -/

theorem get?_set (hk : key.key?.isSome) :
    (r.set k v).get? key = if k.key? = key.key? then some v else r.get? key := by
  induction r with
  | nil => simp [set, get?_cons, Value.sameKey_iff (.inr hk)]
  | cons e r ih =>
    obtain ⟨l, w⟩ := e
    rw [set]
    split
    · next same =>
      -- The key that is there and the new one have one normal form, if either has that of `key`.
      have forms : l.key? = key.key? ↔ k.key? = key.key? := by
        constructor
        · intro h
          exact ((Value.sameKey_iff (.inl (h ▸ hk))).1 same).symm.trans h
        · intro h
          exact ((Value.sameKey_iff (.inr (h ▸ hk))).1 same).trans h
      simp only [get?_cons, Value.sameKey_iff (.inr hk), forms]
      split <;> rfl
    · next other =>
      rw [get?_cons, get?_cons, ih]
      simp only [Value.sameKey_iff (.inr hk)]
      split
      · next h =>
        have apart : k.key? ≠ key.key? := fun e => other ((Value.sameKey_iff (.inl (h ▸ hk))).2 (h.trans e.symm))
        rw [if_neg apart]
      · rfl

theorem mem_set {e : Value × Value} (h : e ∈ r.set k v) : e ∈ r ∨ e.2 = v ∧ (e.1 = k ∨ e.1 ∈ r.keys) := by
  induction r with
  | nil =>
    obtain rfl := List.mem_singleton.1 h
    exact .inr ⟨rfl, .inl rfl⟩
  | cons first r ih =>
    rw [set] at h
    split at h
    · rcases List.mem_cons.1 h with rfl | h
      · exact .inr ⟨rfl, .inr List.mem_cons_self⟩
      · exact .inl (List.mem_cons_of_mem _ h)
    · rcases List.mem_cons.1 h with rfl | h
      · exact .inl List.mem_cons_self
      · rcases ih h with h | ⟨hv, hk⟩
        · exact .inl (List.mem_cons_of_mem _ h)
        · exact .inr ⟨hv, hk.imp_right (List.mem_cons_of_mem _)⟩

theorem keys_set {key : Value} (h : key ∈ (r.set k v).keys) : key = k ∨ key ∈ r.keys := by
  obtain ⟨e, he, rfl⟩ := List.mem_map.1 h
  rcases mem_set he with h | ⟨-, h⟩
  · exact .inr (List.mem_map_of_mem h)
  · exact h

theorem Distinct.set (h : Distinct r) (k v : Value) : Distinct (r.set k v) := by
  induction r with
  | nil => exact List.pairwise_singleton _ _
  | cons e r ih =>
    obtain ⟨first, rest⟩ := List.pairwise_cons.1 h
    rw [Record.set]
    split
    · exact List.pairwise_cons.2 ⟨first, rest⟩
    · next other =>
      refine List.pairwise_cons.2 ⟨fun f hf => ?_, ih rest⟩
      rcases keys_set (List.mem_map_of_mem hf) with h | h
      · simpa [h] using other
      · obtain ⟨g, hg, e⟩ := List.mem_map.1 h
        exact e ▸ first g hg

/-! ## Putting one over the other -/

@[simp] theorem update_nil (r : Record) : r.update [] = r := rfl

theorem update_cons : r.update ((k, v) :: s) = (r.set k v).update s := rfl

theorem Distinct.update (h : Distinct r) (s : Record) : Distinct (r.update s) := by
  induction s generalizing r with
  | nil => exact h
  | cons e s ih => exact ih (h.set e.1 e.2)

theorem distinct_ofEntries (entries : List (Value × Value)) : Distinct (ofEntries entries) :=
  Distinct.update List.Pairwise.nil entries

/-- After a record was put over another, its own entries come first. -/
theorem get?_update (hs : Distinct s) (hk : key.key?.isSome) :
    (r.update s).get? key = (s.get? key <|> r.get? key) := by
  induction s generalizing r with
  | nil => simp
  | cons e s ih =>
    obtain ⟨k, v⟩ := e
    obtain ⟨first, rest⟩ := List.pairwise_cons.1 hs
    rw [update_cons, ih rest, get?_set hk, get?_cons]
    simp only [Value.sameKey_iff (.inr hk)]
    split
    · next h =>
      have missing : get? s key = none := by
        refine (get?_eq_none_iff hk).2 fun e he same => ?_
        have := (Value.sameKey_iff (a := k) (.inl (h ▸ hk))).2 (h.trans same.symm)
        simp [first e he] at this
      simp [missing]
    · rfl

theorem keys_update (h : key ∈ (r.update s).keys) : key ∈ r.keys ∨ key ∈ s.keys := by
  induction s generalizing r with
  | nil => exact .inl h
  | cons e s ih =>
    rcases ih h with h | h
    · rcases keys_set h with rfl | h
      · exact .inr List.mem_cons_self
      · exact .inl h
    · exact .inr (List.mem_cons_of_mem _ h)

theorem mem_update {e : Value × Value} (h : e ∈ r.update s) : (∃ f ∈ r, f.2 = e.2) ∨ ∃ f ∈ s, f.2 = e.2 := by
  induction s generalizing r with
  | nil => exact .inl ⟨e, h, rfl⟩
  | cons f s ih =>
    rcases ih h with ⟨g, hg, e⟩ | ⟨g, hg, e⟩
    · rcases mem_set hg with hg | ⟨hv, -⟩
      · exact .inl ⟨g, hg, e⟩
      · exact .inr ⟨f, List.mem_cons_self, hv.symm.trans e⟩
    · exact .inr ⟨g, List.mem_cons_of_mem _ hg, e⟩

end StaticSite.Record
