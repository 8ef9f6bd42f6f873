import StaticSite.Command.Run
import StaticSite.Proofs.Config.Fields
import StaticSite.Proofs.Config.Stack
import StaticSite.Proofs.Path.Text

/-!
# Faults of a configuration

A configuration that cannot be used ends a run: with status 2 and a message if the fault is a mistake that the user
is told of, and otherwise without a word. `Config.Stray` lists the configurations of the second kind, and
`config_ends` says that these are all of them.
-/

namespace StaticSite

/-- The computation ends in a fault that the user is not told of. -/
abbrev Escapes {α : Type} (x : Except ConfigFault α) : Prop := FailsIn (fun fault => fault.isMistake = false) x

/-! ## Paths -/

namespace Text

/-- The character can stand in the path of a file: it is neither a null byte nor a half that stands for no byte. -/
def CanName (c : Char) : Prop := c ≠ '\x00' ∧ ∀ code, half? c = some code → isByteHalf code = true

/-- The text can be a part of the path of a file. -/
def IsNameable (s : String) : Prop := ∀ c ∈ s.toList, CanName c

theorem unnameable?_eq_none_iff {position : Nat} {cs : List Char} :
    unnameable? position cs = none ↔ ∀ c ∈ cs, ∀ code, half? c = some code → isByteHalf code = true := by
  induction cs generalizing position with
  | nil => simp [unnameable?]
  | cons c cs ih =>
    rw [unnameable?]
    cases h : half? c with
    | none => simp [h, ih]
    | some code => cases hb : isByteHalf code <;> simp [h, hb, ih]

theorem exists_mem_splitOn {sep c : Char} {cs : List Char} (h : c ∈ cs) (hc : c ≠ sep) :
    ∃ piece ∈ splitOn sep cs, c ∈ piece := by
  induction cs with
  | nil => cases h
  | cons d cs ih =>
    rw [splitOn]
    split
    · next hd =>
      obtain ⟨piece, hp, hm⟩ := ih ((List.mem_cons.1 h).resolve_left fun e => hc (e.trans hd))
      exact ⟨piece, List.mem_cons_of_mem _ hp, hm⟩
    · cases hs : splitOn sep cs with
      | nil => exact absurd hs (splitOn_ne_nil sep cs)
      | cons first rest =>
        rcases List.mem_cons.1 h with rfl | h
        · exact ⟨_, List.mem_cons_self, List.mem_cons_self⟩
        · obtain ⟨piece, hp, hm⟩ := ih h
          rw [hs] at hp
          rcases List.mem_cons.1 hp with rfl | hp
          · exact ⟨_, List.mem_cons_self, List.mem_cons_of_mem _ hm⟩
          · exact ⟨piece, List.mem_cons_of_mem _ hp, hm⟩

theorem canName_slash : CanName '/' :=
  ⟨by decide, fun code h => by simp [half?, isHalf, isHighHalf, isLowHalf, halfOffset] at h⟩

theorem canName_dot : CanName '.' :=
  ⟨by decide, fun code h => by simp [half?, isHalf, isHighHalf, isLowHalf, halfOffset] at h⟩

theorem isNameable_up : IsNameable ".." := by
  have chars : "..".toList = ['.', '.'] := rfl
  simp [IsNameable, chars, canName_dot]

end Text

namespace Path

open Text (CanName IsNameable)

/-- A text and its segments have the same characters that cannot stand in a path. -/
theorem nameable_segmentsOf {given : String} : (∀ s ∈ segmentsOf given, IsNameable s) ↔ IsNameable given := by
  constructor
  · intro h c hc
    by_cases hs : c = '/'
    · exact hs ▸ Text.canName_slash
    by_cases hd : c = '.'
    · exact hd ▸ Text.canName_dot
    obtain ⟨piece, hp, hm⟩ := Text.exists_mem_splitOn hc hs
    have chars : (String.ofList piece).toList = piece := String.toList_ofList
    refine h (String.ofList piece) (List.mem_filter.2 ⟨List.mem_map_of_mem hp, ?_⟩) c (chars.symm ▸ hm)
    rw [decide_eq_true_eq]
    refine ⟨fun e => ?_, fun e => ?_⟩ <;> rw [← chars, e] at hm
    · cases hm
    · exact hd (by simpa using hm)
  · intro h s hs c hc
    obtain ⟨piece, hp, rfl⟩ := List.mem_map.1 (List.mem_filter.1 hs).1
    exact h c (Text.mem_of_mem_splitOn hp (by simpa using hc))

end Path

namespace Config

open Text (CanName IsNameable)

/-- What is spelled out so far is looked at anew for each segment, but only the last one can be at fault. -/
theorem unnameable?_text_eq_none_iff {root : Root} {before : List String} {s : String}
    (hb : ∀ s ∈ before, IsNameable s) : Text.unnameable? 0 (Path.mk root (before ++ [s])).text.toList = none ↔
      ∀ c ∈ s.toList, ∀ code, Text.half? c = some code → Text.isByteHalf code = true := by
  rw [Text.unnameable?_eq_none_iff]
  have free (c : Char) : CanName c ∨ c ≠ '/' ∧ c ≠ '.' := by
    by_cases hs : c = '/'
    · exact .inl (hs ▸ Text.canName_slash)
    by_cases hd : c = '.'
    · exact .inl (hd ▸ Text.canName_dot)
    · exact .inr ⟨hs, hd⟩
  constructor
  · intro h c hc
    rcases free c with hn | ⟨hs, hd⟩
    · exact hn.2
    · exact h c ((Path.mem_text hs hd).2 ⟨s, by simp, hc⟩)
  · intro h c hc
    rcases free c with hn | ⟨hs, hd⟩
    · exact hn.2
    · obtain ⟨segment, hm, hc⟩ := (Path.mem_text hs hd).1 hc
      rcases List.mem_append.1 hm with hm | hm
      · exact (hb segment hm c hc).2
      · exact h c (List.mem_singleton.1 hm ▸ hc)

/-- A path is followed exactly if all its segments can stand in a path. -/
theorem followFault?_eq_none_iff {root : Root} {before segments : List String} (hb : ∀ s ∈ before, IsNameable s) :
    followFault? root before segments = none ↔ ∀ s ∈ segments, IsNameable s := by
  induction segments generalizing before with
  | nil => simp [followFault?]
  | cons s rest ih =>
    rw [followFault?]
    simp only [List.forall_mem_cons]
    split
    · next up =>
      subst up
      rw [and_iff_right Text.isNameable_up]
      split
      · exact ih fun s hs => (List.mem_append.1 hs).elim (hb s) fun h => List.mem_singleton.1 h ▸ Text.isNameable_up
      · exact ih fun s hs => hb s (List.dropLast_subset _ hs)
    · split
      · next fault h =>
        have bad : ¬ IsNameable s := fun hn => by
          rw [(unnameable?_text_eq_none_iff hb).2 fun c hc => (hn c hc).2] at h
          cases h
        simp [bad]
      · next h =>
        have halves := (unnameable?_text_eq_none_iff hb).1 h
        split
        · next null =>
          have bad : ¬ IsNameable s := fun hn => (hn '\x00' (by simpa using null)).1 rfl
          simp [bad]
        · next null =>
          have good : IsNameable s := fun c hc => ⟨fun e => null (by simpa using e ▸ hc), halves c hc⟩
          rw [and_iff_right good]
          exact ih fun s hs => (List.mem_append.1 hs).elim (hb s) fun h => List.mem_singleton.1 h ▸ good

theorem isMistake_of_followFault? {root : Root} {before segments : List String} {fault : ConfigFault}
    (h : followFault? root before segments = some fault) : fault.isMistake = false := by
  induction segments generalizing before with
  | nil => cases h
  | cons s rest ih =>
    rw [followFault?] at h
    split at h
    · split at h
      · exact ih h
      · exact ih h
    · split at h
      · cases h; rfl
      · split at h
        · cases h; rfl
        · exact ih h

/-! ## Sources -/

variable {modules : List HookModule} {t : FileTree} {cwd file : Path} {s : Sources}

/-- A file that the user is not told of as a mistake: it is no UTF-8, it spells out a value that does not exist, or
it has a value that does not fit its field. -/
inductive StrayFile (t : FileTree) (cwd file : Path) : Prop where
  | bytes {bytes : ByteArray} {fault : Text.Utf8.Fault} : t.read (cwd / file) = .ok bytes →
      Text.ofFile bytes = .error fault → StrayFile t cwd file
  | value {bytes : ByteArray} {s : String} {fault : Yaml.Fault} : t.read (cwd / file) = .ok bytes →
      Text.ofFile bytes = .ok s → Yaml.read s.toList = .error fault → fault ≠ .notYaml → StrayFile t cwd file
  | field {entries : Record} : loadFile t cwd file = .ok (some entries) → Layer.Misfit entries →
      StrayFile t cwd file

theorem isThere_of_read {p : Path} {bytes : ByteArray} (h : t.read p = .ok bytes) : t.isThere p = true := by
  unfold FileTree.read at h
  unfold FileTree.isThere FileTree.node?
  cases hl : t.locate p with
  | error cause => simp [hl] at h
  | ok loc =>
    cases hn : t.get? loc with
    | none => simp [hl, hn] at h
    | some node => simp [hn]

theorem escapes_loadFile : Escapes (loadFile t cwd file) ↔ ∃ bytes, t.read (cwd / file) = .ok bytes ∧
    ((∃ fault, Text.ofFile bytes = .error fault) ∨
      ∃ s fault, Text.ofFile bytes = .ok s ∧ Yaml.read s.toList = .error fault ∧ fault ≠ .notYaml) := by
  unfold loadFile
  cases ht : t.isThere (cwd / file) with
  | false =>
    simp only [Bool.not_false, if_true, failsIn_pure, false_iff]
    rintro ⟨bytes, h, -⟩
    simp [isThere_of_read h] at ht
  | true =>
    simp only [Bool.not_true, Bool.false_eq_true, if_false, failsIn_bind]
    cases hr : t.read (cwd / file) with
    | error fault => simp [ConfigFault.isMistake]
    | ok bytes =>
      cases hs : Text.ofFile bytes with
      | error fault => simp [ConfigFault.isMistake, hs]
      | ok s =>
        simp only [mapError_ok, failsIn_ok, Except.ok.injEq, exists_eq_left', false_or, hs, reduceCtorEq,
          exists_false]
        split
        · next h => simp [h, ConfigFault.isMistake]
        · next fault hf h => simpa [h, ConfigFault.isMistake] using hf
        · next h => simp [h]
        · next h =>
          split
          · simp [h]
          · simp [h, ConfigFault.isMistake]

theorem escapes_fileLayer : Escapes (fileLayer t cwd file) ↔ StrayFile t cwd file := by
  have fields : Escapes (fileLayer t cwd file) ↔ Escapes (loadFile t cwd file) ∨
      ∃ entries, loadFile t cwd file = .ok (some entries) ∧ Layer.Misfit entries := by
    refine failsIn_bind.trans (or_congr_right ⟨?_, ?_⟩)
    · rintro ⟨_ | entries, h, hf⟩
      · simp at hf
      · obtain ⟨fault, hf, -⟩ := failsIn_mapError.1 hf
        exact ⟨entries, h, Layer.fails_ofRecord.1 ⟨fault, hf, trivial⟩⟩
    · rintro ⟨entries, h, hm⟩
      obtain ⟨fault, hf, -⟩ := Layer.fails_ofRecord.2 hm
      exact ⟨some entries, h, failsIn_mapError.2 ⟨fault, hf, rfl⟩⟩
  rw [fields, escapes_loadFile]
  constructor
  · rintro (⟨bytes, hr, ⟨fault, h⟩ | ⟨s, fault, hs, h, hn⟩⟩ | ⟨entries, h, hm⟩)
    · exact .bytes hr h
    · exact .value hr hs h hn
    · exact .field h hm
  · rintro (⟨hr, h⟩ | ⟨hr, hs, h, hn⟩ | ⟨h, hm⟩)
    · exact .inl ⟨_, hr, .inl ⟨_, h⟩⟩
    · exact .inl ⟨_, hr, .inr ⟨_, _, hs, h, hn⟩⟩
    · exact .inr ⟨_, h, hm⟩

theorem StrayFile.isThere (h : StrayFile t cwd file) : t.isThere (cwd / file) = true := by
  cases h with
  | bytes hr _ => exact isThere_of_read hr
  | value hr _ _ _ => exact isThere_of_read hr
  | field h _ =>
    cases ht : t.isThere (cwd / file) with
    | true => rfl
    | false => simp [loadFile, ht, pure, Except.pure] at h

theorem escapes_namedLayer {given : Option Path} :
    Escapes (namedLayer t cwd given) ↔ ∃ file, given = some file ∧ StrayFile t cwd file := by
  cases given with
  | none => simp [namedLayer]
  | some file =>
    simp only [namedLayer, Option.some.injEq, exists_eq_left']
    split
    · exact escapes_fileLayer
    · next missing => simpa [ConfigFault.isMistake] using fun h : StrayFile t cwd file => missing h.isThere

/-- The object of a data file or text is nested too deep, or the file has a path that cannot be followed. -/
theorem escapes_loadObject {given : String} : Escapes (loadObject t cwd given) ↔
    ¬ IsNameable given ∨
      ∃ inMap, Json.readFile t (Path.resolve cwd (Path.ofString given)) = .error (.json (.tooDeep inMap)) := by
  have followed : followFault? (Path.ofString given).root [] (Path.ofString given).segments = none ↔
      IsNameable given := (followFault?_eq_none_iff (by simp)).trans Path.nameable_segmentsOf
  unfold loadObject
  dsimp only
  split
  · next fault h =>
    have bad : ¬ IsNameable given := fun hn => by simp [followed.2 hn] at h
    simp [bad, isMistake_of_followFault? h]
  · next h =>
    have good := followed.1 h
    simp only [good, not_true_eq_false, false_or]
    split
    · next inMap hr => simp [hr, ConfigFault.isMistake]
    · next fault hf hr =>
      have shallow : ¬ ∃ inMap, Except.error (α := Value) fault = .error (.json (.tooDeep inMap)) := by
        simpa using hf
      rw [hr, iff_false_right shallow]
      split <;> simp [ConfigFault.isMistake]
    · next hr => simp [hr]
    · next hr => simp [hr, ConfigFault.isMistake]

theorem escapes_readInline {text : String} :
    Escapes (readInline text) ↔ ∃ inMap, Json.read text = .error (.tooDeep inMap) := by
  unfold readInline
  split
  · next inMap h => simp [h, ConfigFault.isMistake]
  · next fault hf h => simpa [h, ConfigFault.isMistake] using hf
  · next h => simp [h]
  · next h => simp [h, ConfigFault.isMistake]

theorem escapes_dataLayer {given : Option String} : Escapes (dataLayer t cwd given) ↔
    ∃ file, Layer.filled? given = some file ∧ Escapes (loadObject t cwd file) := by
  unfold dataLayer
  cases Layer.filled? given <;> simp [failsIn_map]

theorem escapes_inlineLayer {given : Option String} : Escapes (inlineLayer given) ↔
    ∃ text, Layer.filled? given = some text ∧ Escapes (readInline text) := by
  unfold inlineLayer
  cases Layer.filled? given <;> simp [failsIn_map]

/-! ## Options -/

/-- A merged layer whose hooks or settings of the watcher are beyond what the user is told of. -/
inductive StrayOptions (modules : List HookModule) (c : Layer) : Prop where
  | relative {before after : List (String × String)} {e : String × String} : c.hooks.getD [] = before ++ e :: after →
      (∀ b ∈ before, ∃ hook, importHook modules b.2 = .ok hook) → Layer.IsRelativeHook e.2 → StrayOptions modules c
  | unknown {e : String × String} : (∀ b ∈ c.hooks.getD [], ∃ hook, importHook modules b.2 = .ok hook) →
      e ∈ c.hooks.getD [] → HookKind.ofName? e.1 = none → StrayOptions modules c
  | watch {hooks : Hooks} : Layer.importHooks modules (c.hooks.getD []) = .ok hooks →
      WatchSettings.Misfit (c.watchOptions.getD []) → StrayOptions modules c

theorem isMistake_hook {fault : HookFault} :
    (ConfigFault.options (.hook fault)).isMistake = false ↔ ∃ module, fault = .relative module := by
  cases fault <;> simp [ConfigFault.isMistake]

theorem escapes_importHooks {named : List (String × String)} :
    FailsIn (fun fault => (ConfigFault.options fault).isMistake = false) (Layer.importHooks modules named) ↔
      (∃ before e after, named = before ++ e :: after ∧ (∀ b ∈ before, ∃ hook, importHook modules b.2 = .ok hook) ∧
        Layer.IsRelativeHook e.2) ∨
      (∀ b ∈ named, ∃ hook, importHook modules b.2 = .ok hook) ∧ ∃ e ∈ named, HookKind.ofName? e.1 = none := by
  refine failsIn_bind.trans (or_congr ?_ ?_)
  · simp only [failsIn_mapError, isMistake_hook, Layer.failsIn_importNamed, failsIn_mapM, not_fails_iff,
      Layer.failsIn_importHook]
  · have imported : (∃ hooks, (named.foldlM (Layer.importNamed modules) {}).mapError OptionsFault.hook = .ok hooks) ↔
        ∀ b ∈ named, ∃ hook, importHook modules b.2 = .ok hook := by
      rw [← not_fails_iff]
      simp only [failsIn_mapError, Layer.failsIn_importNamed, fails_mapM, not_exists, not_and, not_fails_iff]
    rw [← imported]
    constructor
    · rintro ⟨hooks, h, hf⟩
      split at hf
      · next name path hs =>
        have unknown := List.find?_some hs
        exact ⟨⟨hooks, h⟩, _, List.mem_of_find?_eq_some hs, by simpa using unknown⟩
      · simp at hf
    · rintro ⟨⟨hooks, h⟩, e, he, hu⟩
      refine ⟨hooks, h, ?_⟩
      split
      · simp [ConfigFault.isMistake]
      · next hs => exact absurd hu (by simpa using List.find?_eq_none.1 hs e he)

theorem escapes_toOptions {given : Hooks} {c : Layer} :
    Escapes ((c.toOptions modules given).mapError .options) ↔ StrayOptions modules c := by
  simp only [failsIn_mapError, Layer.toOptions, failsIn_bind, failsIn_pure, and_false, exists_false, or_false,
    escapes_importHooks]
  have watch : FailsIn (fun fault => (ConfigFault.options fault).isMistake = false)
      (WatchSettings.ofRecord (c.watchOptions.getD [])) ↔ WatchSettings.Misfit (c.watchOptions.getD []) := by
    rw [← fails_settings]
    constructor
    · rintro ⟨fault, h, -⟩
      exact ⟨fault, h, trivial⟩
    · rintro ⟨fault, h, -⟩
      refine ⟨fault, h, ?_⟩
      rcases settings_fault h with ⟨f, rfl⟩ | ⟨type, rfl⟩ <;> rfl
  rw [watch]
  constructor
  · rintro ((⟨before, e, after, h, hb, he⟩ | ⟨hn, e, he, hu⟩) | ⟨hooks, h, hw⟩)
    · exact .relative h hb he
    · exact .unknown hn he hu
    · exact .watch h hw
  · rintro (⟨h, hb, he⟩ | ⟨hn, he, hu⟩ | ⟨h, hw⟩)
    · exact .inl (.inl ⟨_, _, _, h, hb, he⟩)
    · exact .inl (.inr ⟨hn, _, he, hu⟩)
    · exact .inr ⟨_, h, hw⟩

/-! ## The configuration -/

/-- A configuration that cannot be used, which the user is not told of as a mistake. Of several faults the one of the
lowest layer counts, and those of the options come last. -/
inductive Stray (modules : List HookModule) (t : FileTree) (cwd : Path) (s : Sources) : Prop where
  | project : StrayFile t cwd (localFile cwd) → Stray modules t cwd s
  | named {project : Layer} {file : Path} : fileLayer t cwd (localFile cwd) = .ok project → s.file = some file →
      StrayFile t cwd file → Stray modules t cwd s
  /-- A path of the data file that cannot be followed. -/
  | dataPath {project named : Layer} {given : String} : fileLayer t cwd (localFile cwd) = .ok project →
      namedLayer t cwd s.file = .ok named → Layer.filled? s.dataFile = some given → ¬ IsNameable given →
      Stray modules t cwd s
  /-- A data file that is nested too deep. -/
  | dataDepth {project named : Layer} {given : String} {inMap : Bool} :
      fileLayer t cwd (localFile cwd) = .ok project → namedLayer t cwd s.file = .ok named →
      Layer.filled? s.dataFile = some given →
      Json.readFile t (Path.resolve cwd (Path.ofString given)) = .error (.json (.tooDeep inMap)) →
      Stray modules t cwd s
  | inlineDepth {project named data : Layer} {text : String} {inMap : Bool} :
      fileLayer t cwd (localFile cwd) = .ok project → namedLayer t cwd s.file = .ok named →
      dataLayer t cwd s.dataFile = .ok data → Layer.filled? s.inlineData = some text →
      Json.read text = .error (.tooDeep inMap) → Stray modules t cwd s
  | options {k : Stack} : stackOf t cwd s = .ok k → StrayOptions modules k.merged → Stray modules t cwd s

/-- The layers are read one after the other, and each needs those before it. -/
theorem escapes_stackOf : Escapes (stackOf t cwd s) ↔
    StrayFile t cwd (localFile cwd) ∨ ∃ project, fileLayer t cwd (localFile cwd) = .ok project ∧
      ((∃ file, s.file = some file ∧ StrayFile t cwd file) ∨ ∃ named, namedLayer t cwd s.file = .ok named ∧
        ((∃ given, Layer.filled? s.dataFile = some given ∧ (¬ IsNameable given ∨
            ∃ inMap, Json.readFile t (Path.resolve cwd (Path.ofString given)) = .error (.json (.tooDeep inMap)))) ∨
          ∃ data, dataLayer t cwd s.dataFile = .ok data ∧
            ∃ text, Layer.filled? s.inlineData = some text ∧ ∃ inMap, Json.read text = .error (.tooDeep inMap))) := by
  simp only [stackOf, failsIn_bind, failsIn_pure, and_false, exists_false, or_false, escapes_fileLayer,
    escapes_namedLayer, escapes_dataLayer, escapes_inlineLayer, escapes_loadObject, escapes_readInline]

theorem escapes_build : Escapes (build modules t cwd s) ↔ Stray modules t cwd s := by
  have parts : Escapes (build modules t cwd s) ↔ Escapes (stackOf t cwd s) ∨
      ∃ k, stackOf t cwd s = .ok k ∧ StrayOptions modules k.merged := by
    rw [build, merged_eq]
    refine failsIn_bind.trans (or_congr failsIn_map ?_)
    simp only [map_eq_ok_iff, failsIn_bind, failsIn_pure, and_false, exists_false, or_false, escapes_toOptions]
    constructor
    · rintro ⟨_, ⟨k, hk, rfl⟩, h⟩
      exact ⟨k, hk, h⟩
    · rintro ⟨k, hk, h⟩
      exact ⟨_, ⟨k, hk, rfl⟩, h⟩
  rw [parts, escapes_stackOf]
  constructor
  · rintro ((h | ⟨project, hp, ⟨file, hf, h⟩ |
      ⟨named, hn, ⟨given, hg, h | ⟨inMap, h⟩⟩ | ⟨data, hd, text, ht, inMap, h⟩⟩⟩) | ⟨k, hk, h⟩)
    · exact .project h
    · exact .named hp hf h
    · exact .dataPath hp hn hg h
    · exact .dataDepth hp hn hg h
    · exact .inlineDepth hp hn hd ht h
    · exact .options hk h
  · rintro (h | ⟨hp, hf, h⟩ | ⟨hp, hn, hg, h⟩ | ⟨hp, hn, hg, h⟩ | ⟨hp, hn, hd, ht, h⟩ | ⟨hk, h⟩)
    · exact .inl (.inl h)
    · exact .inl (.inr ⟨_, hp, .inl ⟨_, hf, h⟩⟩)
    · exact .inl (.inr ⟨_, hp, .inr ⟨_, hn, .inl ⟨_, hg, .inl h⟩⟩⟩)
    · exact .inl (.inr ⟨_, hp, .inr ⟨_, hn, .inl ⟨_, hg, .inr ⟨_, h⟩⟩⟩⟩)
    · exact .inl (.inr ⟨_, hp, .inr ⟨_, hn, .inr ⟨_, hd, _, ht, _, h⟩⟩⟩)
    · exact .inr ⟨_, hk, h⟩

end Config

namespace Command

theorem runWith_of_build {w : Surroundings} {t : FileTree} {a : Arguments} {s : Config.Sources} {fault : ConfigFault}
    (ha : a.sources t w.dir = .ok s) (hf : Config.build w.modules t w.dir s = .error fault) :
    runWith w t a =
      if fault.isMistake then endAt t [.error fault.message] (.done 2) else endAt t [] (.failed (.config fault)) := by
  have planned : plan w t s = .error (.config fault) := by
    rw [plan, hf]
    rfl
  rw [runWith, ha]
  dsimp only
  rw [planned]
  rfl

/-- A project whose configuration file is one byte that begins no character. -/
def byteTree : FileTree := ⟨[(["p"], .dir), (["p", ".pagesmith.yaml"], .file ⟨#[0xff]⟩)]⟩

def byteSurroundings : Surroundings := { dir := ⟨.slash, ["p"]⟩, now := ⟨⟨2024, 1, 1⟩, 0, 0, 0, 0, none⟩ }

end Command

end StaticSite
