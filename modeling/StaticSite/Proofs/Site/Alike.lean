import Mathlib.Data.List.Forall2
import StaticSite.Proofs.Site.Finish

/-!
# Results up to the system's reason

The system says why it refuses to write or to read a file, and that may depend on directories that other work
has made. `Fault.Alike` leaves that reason out. `Near` compares results up to it, or exactly: what is built from
results that are near is near again.
-/

namespace StaticSite

theorem toOption_eq_some {ε α : Type} {r : Except ε α} {a : α} (h : r = .ok a) : r.toOption = some a := by
  rw [h]; rfl

theorem exists_of_map_eq_ok {ε α β : Type} {f : α → β} {r : Except ε α} {b : β} (h : r.map f = .ok b) :
    ∃ a, r = .ok a ∧ f a = b := by
  cases r with
  | error fault => cases h
  | ok a => cases h; exact ⟨a, rfl, rfl⟩

/-! ## Nearness -/

section
variable {ε ε' α β : Type} {alike : ε → ε → Prop} {alike' : ε' → ε' → Prop} {exact : Prop}

/-- The results are equal or, unless exactness is asked for, faults that are alike. -/
def Near (alike : ε → ε → Prop) (exact : Prop) (r r' : Except ε β) : Prop :=
  r' = r ∨ ¬ exact ∧ ∃ f f', r = .error f ∧ r' = .error f' ∧ alike f f'

theorem Near.refl (r : Except ε β) : Near alike exact r r := .inl rfl

/-- What is near to one result is near to each other. -/
theorem Near.join (symm : ∀ {f f'}, alike f f' → alike f' f)
    (trans : ∀ {f f' f''}, alike f f' → alike f' f'' → alike f f'') {r r₁ r₂ : Except ε β}
    (h₁ : Near alike exact r r₁) (h₂ : Near alike exact r r₂) : Near alike exact r₁ r₂ := by
  rcases h₁ with rfl | ⟨he, f, f₁, rfl, rfl, a₁⟩
  · exact h₂
  · rcases h₂ with rfl | ⟨-, g, f₂, hg, rfl, a₂⟩
    · exact .inr ⟨he, f₁, f, rfl, rfl, symm a₁⟩
    · cases hg
      exact .inr ⟨he, f₁, f₂, rfl, rfl, trans (symm a₁) a₂⟩

theorem Near.bind {r r' : Except ε α} (h : Near alike exact r r') (next : α → Except ε β) :
    Near alike exact (r >>= next) (r' >>= next) := by
  rcases h with rfl | ⟨he, f, f', rfl, rfl, ha⟩
  · exact .inl rfl
  · exact .inr ⟨he, f, f', rfl, rfl, ha⟩

theorem Near.map {r r' : Except ε α} (h : Near alike exact r r') (g : α → β) :
    Near alike exact (r.map g) (r'.map g) := by
  rcases h with rfl | ⟨he, f, f', rfl, rfl, ha⟩
  · exact .inl rfl
  · exact .inr ⟨he, f, f', rfl, rfl, ha⟩

theorem Near.mapError {r r' : Except ε β} (h : Near alike exact r r') {g : ε → ε'}
    (hg : ∀ f f', alike f f' → alike' (g f) (g f')) :
    Near alike' exact (r.mapError g) (r'.mapError g) := by
  rcases h with rfl | ⟨he, f, f', rfl, rfl, ha⟩
  · exact .inl rfl
  · exact .inr ⟨he, g f, g f', rfl, rfl, hg f f' ha⟩

end

/-! ## Faults -/

/-- Faults of one data file that differ at most in the system's reason. -/
inductive Data.Fault.Alike : Data.Fault → Data.Fault → Prop where
  | refl (fault : Data.Fault) : Alike fault fault
  | os (configured : String) (resolved : Path) (a b : OsFault) :
      Alike ⟨configured, resolved, .file (.os a)⟩ ⟨configured, resolved, .file (.os b)⟩

theorem Data.Fault.Alike.symm {f f' : Data.Fault} (h : f.Alike f') : f'.Alike f := by
  cases h with
  | refl => exact .refl _
  | os configured resolved a b => exact .os configured resolved b a

theorem Data.Fault.Alike.trans {f f' f'' : Data.Fault} (h : f.Alike f') (h' : f'.Alike f'') :
    f.Alike f'' := by
  cases h with
  | refl => exact h'
  | os configured resolved a b => cases h' <;> exact .os configured resolved a _

namespace Site

/-- Faults that differ at most in the system's reason. -/
inductive Fault.Alike : Fault → Fault → Prop where
  | refl (fault : Fault) : Alike fault fault
  | data (a b : Data.Fault) (h : a.Alike b) : Alike (.data a) (.data b)
  | write (path : Path) (a b : OsFault) : Alike (.write path a) (.write path b)

theorem Fault.Alike.symm {f f' : Fault} (h : f.Alike f') : f'.Alike f := by
  cases h with
  | refl => exact .refl _
  | data a b h => exact .data b a h.symm
  | write path a b => exact .write path b a

theorem Fault.Alike.trans {f f' f'' : Fault} (h : f.Alike f') (h' : f'.Alike f'') : f.Alike f'' := by
  cases h with
  | refl => exact h'
  | data a b h =>
    cases h' with
    | refl => exact .data a b h
    | data _ c h' => exact .data a c (h.trans h')
  | write path a b => cases h' <;> exact .write path a _

theorem Fault.Alike.isLocal {f f' : Fault} (h : f.Alike f') : f'.isLocal = f.isLocal := by
  cases h with
  | refl => rfl
  | data a b h => cases h <;> rfl
  | write => rfl

/-- Faults that end a build say nothing that depends on what others have made. -/
theorem Fault.Alike.eq_of_not_local {f f' : Fault} (h : f.Alike f') (hl : f.isLocal = false) : f' = f := by
  cases h with
  | refl => rfl
  | data a b h =>
    cases h with
    | refl => rfl
    | os => cases hl
  | write => cases hl

/-! ## Lists of results -/

section
variable {β : Type} {exact : Prop}

theorem goods_of_near {rs rs' : List (Except Fault β)} (h : List.Forall₂ (Near Fault.Alike exact) rs rs') :
    goods rs' = goods rs := by
  induction h with
  | nil => rfl
  | cons h _ ih =>
    rcases h with rfl | ⟨-, f, f', rfl, rfl, -⟩
    · simp only [goods, List.filterMap_cons] at ih ⊢
      rw [ih]
    · exact ih

theorem faultsOf_of_near {rs rs' : List (Except Fault β)}
    (h : List.Forall₂ (Near Fault.Alike exact) rs rs') :
    List.Forall₂ Fault.Alike (faultsOf rs) (faultsOf rs') := by
  induction h with
  | nil => exact .nil
  | cons h _ ih =>
    rename_i r r' rs rs' _
    rcases h with rfl | ⟨-, f, f', rfl, rfl, ha⟩
    · cases r' with
      | ok b => exact ih
      | error f => exact .cons (.refl f) ih
    · exact .cons ha ih

theorem eq_of_near {rs rs' : List (Except Fault β)} (h : List.Forall₂ (Near Fault.Alike exact) rs rs')
    (he : exact) : rs' = rs := by
  induction h with
  | nil => rfl
  | cons h _ ih =>
    rcases h with rfl | ⟨hn, -⟩
    · rw [ih]
    · exact absurd he hn

theorem settle_of_near {rs rs' : List (Except Fault β)}
    (h : List.Forall₂ (Near Fault.Alike exact) rs rs') :
    (∃ f, settle rs = .error f ∧ settle rs' = .error f) ∨
      (settle rs = .ok (goods rs, faultsOf rs) ∧ settle rs' = .ok (goods rs', faultsOf rs')) := by
  induction h with
  | nil => exact .inr ⟨rfl, rfl⟩
  | cons h _ ih =>
    rename_i r r' rs rs' _
    have later : ∀ f f' : Fault, f.isLocal = true → f'.isLocal = true →
        (∃ g, settle (.error f :: rs) = .error g ∧ settle (.error f' :: rs') = .error g) ∨
          (settle (.error f :: rs) = .ok (goods (.error f :: rs), faultsOf (.error f :: rs)) ∧
            settle (.error f' :: rs') = .ok (goods (.error f' :: rs'), faultsOf (.error f' :: rs'))) := by
      intro f f' hf hf'
      rw [settle, settle, if_pos hf, if_pos hf']
      rcases ih with ⟨g, h1, h2⟩ | ⟨h1, h2⟩
      · exact .inl ⟨g, by rw [h1]; rfl, by rw [h2]; rfl⟩
      · exact .inr ⟨by rw [h1]; rfl, by rw [h2]; rfl⟩
    rcases h with rfl | ⟨-, f, f', rfl, rfl, ha⟩
    · cases r' with
      | ok b =>
        rw [settle, settle]
        rcases ih with ⟨g, h1, h2⟩ | ⟨h1, h2⟩
        · exact .inl ⟨g, by rw [h1]; rfl, by rw [h2]; rfl⟩
        · exact .inr ⟨by rw [h1]; rfl, by rw [h2]; rfl⟩
      | error f =>
        cases hl : f.isLocal with
        | true => exact later f f hl hl
        | false => exact .inl ⟨f, by simp [settle, hl], by simp [settle, hl]⟩
    · cases hl : f.isLocal with
      | true => exact later f f' hl (ha.isLocal.trans hl)
      | false =>
        obtain rfl := ha.eq_of_not_local hl
        exact .inl ⟨f', by simp [settle, hl], by simp [settle, hl]⟩

end

end Site

end StaticSite
