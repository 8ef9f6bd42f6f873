import StaticSite.Config.Options
import StaticSite.Proofs.Failing

/-!
# Values that no setting takes

A layer is read from a record of any values, and some of them cannot become what the setting holds: an integer of too
many digits has no text, and not every value is a number. `fails_ofRecord` and `fails_settings` say which records
give no layer and no settings of the watcher, `failsIn_importHook` which imports fail without the user being told.
-/

namespace StaticSite

/-! ## Fields of a layer -/

theorem Value.fails_toText {v : Value} : Fails v.toText ↔ v.isWritable = false := by
  rw [Value.toText]
  cases v.isWritable <;> simp

namespace Layer

variable {r : Record}

/-- The settings that hold one text. -/
def textNames : List String :=
  ["out", "delimiter", "open_delimiter", "close_delimiter", "copy_pattern", "sitemap_prefix", "template_ext"]

/-- A record with a value that its field does not take. Only texts and numbers can go wrong: every value is true or
false, and what is no map is dropped where a map is due. -/
inductive Misfit (r : Record) : Prop where
  | entry {v item : Value} {items : List Value} : r.field? "entries" = some v → v.items? = some items →
      item ∈ items → item.isWritable = false → Misfit r
  | parallel {v : Value} : field? r "parallel" = some v → Fails (toInt v) → Misfit r
  | hook {hooks : Record} {name : String} {v : Value} : mapField? r "hooks" = some hooks →
      (name, v) ∈ namedHooks hooks → v.isWritable = false → Misfit r
  | text {name : String} {v : Value} : name ∈ textNames → field? r name = some v → v.isWritable = false → Misfit r

theorem fails_entriesField? : Fails (entriesField? r) ↔
    ∃ v items item, r.field? "entries" = some v ∧ v.items? = some items ∧ item ∈ items ∧
      item.isWritable = false := by
  unfold entriesField?
  split
  · next s h => simp [h, Value.items?]
  · next v h => simp [h, failsIn_mapM_option, fails_mapM, Value.fails_toText]
  · next h => simp [h]

theorem fails_textField? {name : String} : Fails (textField? r name) ↔
    ∃ v, field? r name = some v ∧ v.isWritable = false := by
  simp only [textField?, failsIn_mapM_option, Value.fails_toText]

theorem fails_hooksField? : Fails (hooksField? r) ↔
    ∃ hooks name v, mapField? r "hooks" = some hooks ∧ (name, v) ∈ namedHooks hooks ∧ v.isWritable = false := by
  simp only [hooksField?, failsIn_mapM_option, fails_mapM, failsIn_bind, failsIn_pure, Value.fails_toText,
    and_false, exists_false, or_false, Prod.exists]
  constructor
  · rintro ⟨hooks, h, name, v, hm, hv⟩
    exact ⟨hooks, name, v, h, hm, hv⟩
  · rintro ⟨hooks, name, v, h, hm, hv⟩
    exact ⟨hooks, h, name, v, hm, hv⟩

/-- A record gives no layer exactly if a value does not fit its field. -/
theorem fails_ofRecord : Fails (ofRecord r) ↔ Misfit r := by
  simp only [ofRecord, failsIn_bind, failsIn_pure, and_false, exists_false, or_false, fails_or_ok]
  simp only [fails_entriesField?, failsIn_mapM_option, fails_hooksField?, fails_textField?]
  constructor
  · rintro (⟨v, items, item, h, hi, hm, hw⟩ | ⟨v, h, hv⟩ | ⟨hooks, name, v, h, hm, hw⟩ | h)
    · exact .entry h hi hm hw
    · exact .parallel h hv
    · exact .hook h hm hw
    · obtain ⟨name, hn, v, h, hw⟩ : ∃ name ∈ textNames, ∃ v, field? r name = some v ∧ v.isWritable = false := by
        simpa [textNames] using h
      exact .text hn h hw
  · rintro (⟨h, hi, hm, hw⟩ | ⟨h, hv⟩ | ⟨h, hm, hw⟩ | ⟨hn, h, hw⟩)
    · exact .inl ⟨_, _, _, h, hi, hm, hw⟩
    · exact .inr (.inl ⟨_, h, hv⟩)
    · exact .inr (.inr (.inl ⟨_, _, _, h, hm, hw⟩))
    · have : ∃ name ∈ textNames, ∃ v, field? r name = some v ∧ v.isWritable = false := ⟨_, hn, _, h, hw⟩
      exact .inr (.inr (.inr (by simpa [textNames] using this)))

end Layer

/-! ## Settings of the watcher -/

/-- A record with a value that no setting of the watcher takes. -/
inductive WatchSettings.Misfit (r : Record) : Prop where
  | notIterable {v : Value} : r.field? "ignore_patterns" = some v → v.isTrue = true → (∀ s, v ≠ .text s) →
      v.listed? = none → Misfit r
  | pattern {v item : Value} {items : List Value} : r.field? "ignore_patterns" = some v → v.listed? = some items →
      item ∈ items → item.isWritable = false → Misfit r
  | interval {v : Value} : Layer.field? r "poll_interval" = some v → Fails v.toReal → Misfit r

theorem Value.isTrue_of_mem_listed {v item : Value} {items : List Value} (h : v.listed? = some items)
    (hi : item ∈ items) : v.isTrue = true := by
  have filled : items ≠ [] := List.ne_nil_of_mem hi
  cases v with
  | list | tuple | set | map | bytes =>
    have listed := Option.some.inj h
    simp only [← listed, Record.keys] at filled
    simpa [isTrue] using filled
  | knot => rfl
  | _ => simp [listed?, items?, record?] at h

theorem fails_patternTexts {v : Value} : Fails (patternTexts v) ↔
    (v.isTrue = true ∧ (∀ s, v ≠ .text s) ∧ v.listed? = none) ∨
      ∃ items item, v.listed? = some items ∧ item ∈ items ∧ item.isWritable = false := by
  unfold patternTexts
  cases ht : v.isTrue with
  | false =>
    have none_listed {items item} (h : v.listed? = some items) (hi : item ∈ items) : False := by
      simp [Value.isTrue_of_mem_listed h hi] at ht
    simp only [Bool.not_false, if_pos, failsIn_ok, Bool.false_eq_true, false_and, false_or, false_iff]
    rintro ⟨items, item, h, hi, -⟩
    exact none_listed h hi
  | true =>
    simp only [Bool.not_true, Bool.false_eq_true, if_false]
    split
    · simp [Value.listed?, Value.items?, Value.record?]
    · next h => simp [h, failsIn_mapError, fails_mapM, Value.fails_toText]
    · next hs hl => simpa [hl] using hs

theorem fails_settings {r : Record} : Fails (WatchSettings.ofRecord r) ↔ WatchSettings.Misfit r := by
  simp only [WatchSettings.ofRecord, failsIn_bind, failsIn_pure, and_false, exists_false, or_false, fails_or_ok]
  simp only [fails_patternTexts, failsIn_mapError, failsIn_mapM_option]
  constructor
  · rintro ((⟨ht, hs, hl⟩ | ⟨items, item, hl, hi, hw⟩) | ⟨v, h, hv⟩)
    · cases h : r.field? "ignore_patterns" with
      | none => simp [h, Value.isTrue] at ht
      | some v =>
        simp only [h, Option.getD_some] at ht hs hl
        exact .notIterable h ht hs hl
    · cases h : r.field? "ignore_patterns" with
      | none => simp [h, Value.listed?, Value.items?, Value.record?] at hl
      | some v =>
        simp only [h, Option.getD_some] at hl
        exact .pattern h hl hi hw
    · exact .interval h hv
  · rintro (⟨h, ht, hs, hl⟩ | ⟨h, hl, hi, hw⟩ | ⟨h, hv⟩)
    · exact .inl (.inl (by simpa [h] using ⟨ht, hs, hl⟩))
    · exact .inl (.inr ⟨_, _, by simpa [h] using hl, hi, hw⟩)
    · exact .inr ⟨_, h, hv⟩

/-- A fault in the settings of the watcher is one of a value. -/
theorem settings_fault {r : Record} {fault : OptionsFault} (h : WatchSettings.ofRecord r = .error fault) :
    (∃ f, fault = .number f) ∨ ∃ type, fault = .notIterable type := by
  have patterns (v : Value) (hf : FailsIn (· = fault) (patternTexts v)) :
      (∃ f, fault = .number f) ∨ ∃ type, fault = .notIterable type := by
    unfold patternTexts at hf
    split at hf
    · simp at hf
    · split at hf
      · simp at hf
      · obtain ⟨f, -, rfl⟩ := failsIn_mapError.1 hf
        exact .inl ⟨f, rfl⟩
      · exact .inr ⟨_, ((failsIn_error _).1 hf).symm⟩
  have failed : FailsIn (· = fault) (WatchSettings.ofRecord r) := ⟨fault, h, rfl⟩
  simp only [WatchSettings.ofRecord, failsIn_bind, failsIn_pure, and_false, exists_false, or_false] at failed
  rcases failed with hf | ⟨_, -, hf⟩
  · exact patterns _ hf
  · obtain ⟨f, -, rfl⟩ := failsIn_mapError.1 hf
    exact .inl ⟨f, rfl⟩

/-! ## Hooks -/

namespace Layer

/-- The text names a module by its place beside another, which a configuration has not. -/
def IsRelativeHook (given : String) : Prop :=
  ∃ module names, given.toList = module ++ ':' :: names ∧ ':' ∉ module ∧ module.head? = some '.' ∧ names ≠ []

theorem isRelativeHook_iff {given : String} : IsRelativeHook given ↔
    ∃ module names, Text.cut ':' given.toList = (module, some names) ∧ module.head? = some '.' ∧ names ≠ [] := by
  constructor
  · rintro ⟨module, names, h, hm, hd, hn⟩
    exact ⟨module, names, by rw [h, Text.cut_append hm], hd, hn⟩
  · rintro ⟨module, names, h, hd, hn⟩
    have parts := Text.eq_of_cut (congrArg Prod.snd h)
    have free := Text.notMem_cut ':' given.toList
    rw [h] at parts free
    exact ⟨module, names, parts, free, hd, hn⟩

/-- A module that is not found is no fault of the place that is named. -/
theorem not_relative_of_find {modules : List HookModule} {name : String} :
    ¬ FailsIn (fun fault => ∃ module, fault = .relative module) (HookModule.find modules name) := by
  unfold HookModule.find
  split
  · simp
  · split <;> simp

theorem failsIn_importHook {modules : List HookModule} {given : String} :
    FailsIn (fun fault => ∃ module, fault = .relative module) (importHook modules given) ↔
      IsRelativeHook given := by
  rw [isRelativeHook_iff]
  unfold importHook
  split
  · next h => simp [h]
  · next h =>
    simp only [failsIn_throw, reduceCtorEq, exists_false, h, Prod.mk.injEq, false_iff]
    rintro ⟨_, _, ⟨rfl, -⟩, hd, -⟩
    cases hd
  · next h => simp [h]
  · next module names hm hn h =>
    simp only [h, Prod.mk.injEq, Option.some.injEq, String.toList_ofList]
    split
    · next hd =>
      exact ⟨fun _ => ⟨module, names, ⟨rfl, rfl⟩, hd, hn⟩, fun _ => failsIn_bind.2 (.inl ⟨_, rfl, _, rfl⟩)⟩
    · next hd =>
      constructor
      · intro hf
        rcases failsIn_bind.1 hf with hf | ⟨found, -, hf⟩
        · exact absurd hf not_relative_of_find
        · split at hf <;> simp at hf
      · rintro ⟨_, _, ⟨rfl, -⟩, dotted, -⟩
        exact absurd dotted hd

/-- Whether hooks can be imported does not depend on the places that they take. -/
theorem failsIn_importNamed {modules : List HookModule} {named : List (String × String)} {P : HookFault → Prop}
    (hooks : Hooks) : FailsIn P (named.foldlM (importNamed modules) hooks) ↔
      FailsIn P (named.mapM fun e => importHook modules e.2) := by
  induction named generalizing hooks with
  | nil => simp
  | cons e named ih =>
    simp only [List.foldlM_cons, List.mapM_cons, failsIn_bind, importNamed, failsIn_pure, and_false, exists_false,
      or_false, ih]
    cases importHook modules e.2 with
    | error fault => simp [bind, Except.bind]
    | ok hook => simp [bind, Except.bind, pure, Except.pure]

end Layer

end StaticSite
