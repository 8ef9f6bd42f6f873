import Mathlib.Data.List.Forall2

/-!
# Computations that can fail

How a computation in `Except` ends, from how its steps end: `bind_eq_ok_iff` and its like for a value, `failsIn_bind`
and its like for a fault of a kind.
-/

namespace StaticSite

variable {ε ε' α β : Type} {x : Except ε α}

/-! ## Values -/

theorem bind_eq_ok_iff {f : α → Except ε β} {b : β} : x >>= f = .ok b ↔ ∃ a, x = .ok a ∧ f a = .ok b := by
  cases x <;> simp [bind, Except.bind]

theorem map_eq_ok_iff {f : α → β} {b : β} : f <$> x = .ok b ↔ ∃ a, x = .ok a ∧ f a = b := by
  cases x <;> simp [Functor.map, Except.map]

@[simp] theorem mapError_ok (f : ε → ε') (a : α) : (.ok a : Except ε α).mapError f = .ok a := rfl

@[simp] theorem mapError_error (f : ε → ε') (e : ε) : (.error e : Except ε α).mapError f = .error (f e) := rfl

theorem mapError_eq_ok_iff {f : ε → ε'} {a : α} : x.mapError f = .ok a ↔ x = .ok a := by
  cases x <;> simp

theorem toOption_eq_some_iff {a : α} : x.toOption = some a ↔ x = .ok a := by
  cases x <;> simp [Except.toOption]

/-- Good results of several inputs are those of the inputs, one by one. -/
theorem forall₂_of_mapM {f : α → Except ε β} {as : List α} {bs : List β}
    (h : as.mapM f = .ok bs) : List.Forall₂ (fun a b => f a = .ok b) as bs := by
  induction as generalizing bs with
  | nil => cases h; exact .nil
  | cons a as ih =>
    rw [List.mapM_cons] at h
    cases ha : f a with
    | error e => rw [ha] at h; cases h
    | ok b =>
      rw [ha] at h
      cases hs : as.mapM f with
      | error e => simp only [hs] at h; cases h
      | ok bs' =>
        simp only [hs] at h
        cases h
        exact .cons ha (ih hs)

theorem mapM_eq_ok_iff {f : α → Except ε β} {as : List α} {bs : List β} :
    as.mapM f = .ok bs ↔ List.Forall₂ (fun a b => f a = .ok b) as bs := by
  refine ⟨forall₂_of_mapM, fun each => ?_⟩
  induction each with
  | nil => rfl
  | cons ha _ ih =>
    rw [List.mapM_cons, ha, ih]
    rfl

/-! ## Faults -/

variable {P : ε → Prop}

/-- The computation ends in a fault of the kind `P`. -/
def FailsIn (P : ε → Prop) (x : Except ε α) : Prop := ∃ fault, x = .error fault ∧ P fault

/-- The computation ends in a fault. -/
abbrev Fails (x : Except ε α) : Prop := FailsIn (fun _ => True) x

@[simp] theorem failsIn_ok (a : α) : ¬ FailsIn P (.ok a) := nofun

@[simp] theorem failsIn_pure (a : α) : ¬ FailsIn P (pure a) := failsIn_ok a

@[simp] theorem failsIn_error (fault : ε) : FailsIn P (.error fault : Except ε α) ↔ P fault := by
  simp [FailsIn]

@[simp] theorem failsIn_throw (fault : ε) : FailsIn P (throw fault : Except ε α) ↔ P fault := failsIn_error fault

theorem not_fails_iff : ¬ Fails x ↔ ∃ a, x = .ok a := by
  cases x <;> simp

theorem not_fails_of_isSome (h : x.toOption.isSome = true) : ¬ Fails x := by
  cases x with
  | error fault => cases h
  | ok a => simp

theorem failsIn_bind {f : α → Except ε β} :
    FailsIn P (x >>= f) ↔ FailsIn P x ∨ ∃ a, x = .ok a ∧ FailsIn P (f a) := by
  cases x with
  | error fault => simp [bind, Except.bind]
  | ok a => simp [bind, Except.bind]

/-- What is done after a step no matter how that went. -/
theorem fails_or_ok {Q : Prop} : (Fails x ∨ ∃ a, x = .ok a ∧ Q) ↔ Fails x ∨ Q := by
  cases x <;> simp

theorem failsIn_map {f : α → β} : FailsIn P (f <$> x) ↔ FailsIn P x := by
  cases x <;> simp [Functor.map, Except.map]

theorem failsIn_mapError {P : ε' → Prop} {f : ε → ε'} :
    FailsIn P (x.mapError f) ↔ FailsIn (fun fault => P (f fault)) x := by
  cases x <;> simp

theorem failsIn_mapM_option {x : Option α} {f : α → Except ε β} :
    FailsIn P (x.mapM f) ↔ ∃ a, x = some a ∧ FailsIn P (f a) := by
  cases x with
  | none => simp
  | some a => simp [failsIn_map]

/-- A list fails at its first item that fails. -/
theorem failsIn_mapM {as : List α} {f : α → Except ε β} :
    FailsIn P (as.mapM f) ↔
      ∃ before a after, as = before ++ a :: after ∧ (∀ b ∈ before, ¬ Fails (f b)) ∧ FailsIn P (f a) := by
  induction as with
  | nil => simp
  | cons a as ih =>
    simp only [List.mapM_cons, failsIn_bind, failsIn_pure, and_false, exists_false, or_false, ih]
    constructor
    · rintro (h | ⟨b, hb, before, c, after, rfl, hbefore, hc⟩)
      · exact ⟨[], a, as, rfl, by simp, h⟩
      · refine ⟨a :: before, c, after, rfl, ?_, hc⟩
        rintro d (_ | ⟨_, hd⟩)
        · exact not_fails_iff.2 ⟨b, hb⟩
        · exact hbefore d hd
    · rintro ⟨before, c, after, h, hbefore, hc⟩
      cases before with
      | nil => cases h; exact .inl hc
      | cons d before =>
        cases h
        obtain ⟨b, hb⟩ := not_fails_iff.1 (hbefore a List.mem_cons_self)
        exact .inr ⟨b, hb, before, c, after, rfl, fun e he => hbefore e (List.mem_cons_of_mem _ he), hc⟩

theorem fails_mapM {as : List α} {f : α → Except ε β} : Fails (as.mapM f) ↔ ∃ a ∈ as, Fails (f a) := by
  induction as with
  | nil => simp
  | cons a as ih =>
    simp only [List.mapM_cons, failsIn_bind, failsIn_pure, and_false, exists_false, or_false, ih, List.mem_cons,
      exists_eq_or_imp]
    constructor
    · rintro (h | ⟨_, -, h⟩)
      · exact .inl h
      · exact .inr h
    · intro h
      by_cases ha : Fails (f a)
      · exact .inl ha
      · obtain ⟨b, hb⟩ := not_fails_iff.1 ha
        exact .inr ⟨b, hb, h.resolve_left ha⟩

end StaticSite
