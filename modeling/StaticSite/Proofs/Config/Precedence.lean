import StaticSite.Command.Run
import StaticSite.Proofs.Config.Merging

/-!
# What a configuration settles

A setting counts in the highest layer that sets it: the defaults are the lowest layer, then come the project's file, the
file that is named, the options of the command, and for the global data a JSON file and a JSON text. The options of a
build carry what is settled so (`build_settles`).
-/

namespace StaticSite

/-! ## Hooks -/

theorem HookKind.ofName?_eq_some_iff {name : String} {kind : HookKind} :
    ofName? name = some kind ↔ name = kind.name := by
  constructor
  · intro h
    unfold ofName? at h
    have found := List.find?_some h
    exact (beq_iff_eq.1 found).symm
  · rintro rfl
    cases kind <;> decide

theorem Hooks.get_set (hooks : Hooks) (kind other : HookKind) (hook : Hook) :
    (hooks.set kind hook).get other = if kind = other then some hook else hooks.get other := by
  cases kind <;> cases other <;> rfl

theorem Hooks.get_override (hooks others : Hooks) (kind : HookKind) :
    (hooks.override others).get kind = (others.get kind <|> hooks.get kind) := by
  cases kind <;> rfl

namespace Layer

variable {modules : List HookModule} {named : List (String × String)} {hooks before : Hooks}

theorem get?_hookRecord (named : List (String × String)) (name : String) :
    (hookRecord named).get? (.text name) = (named.lookup name).map .text := by
  induction named with
  | nil => rfl
  | cons e named ih =>
    obtain ⟨k, v⟩ := e
    rw [List.lookup_cons]
    by_cases h : name = k
    · simp [hookRecord, Record.get?_cons, sameKey_text, h]
    · have apart : ¬ k = name := fun e => h e.symm
      have keyed : (name == k) = false := by simpa using h
      simpa [hookRecord, Record.get?_cons, sameKey_text, apart, keyed] using ih

/-- A hook takes its place if it is named, and places that are not named stay as they are. -/
theorem get_importNamed (h : named.foldlM (importNamed modules) before = .ok hooks)
    (hd : named.Pairwise fun a b => a.1 ≠ b.1) (kind : HookKind) :
    (∀ path, named.lookup kind.name = some path →
      ∃ hook, importHook modules path = .ok hook ∧ hooks.get kind = some hook) ∧
    (named.lookup kind.name = none → hooks.get kind = before.get kind) := by
  induction named generalizing before with
  | nil =>
    cases h
    exact ⟨fun path hp => (by cases hp), fun _ => rfl⟩
  | cons e named ih =>
    obtain ⟨name, path⟩ := e
    obtain ⟨apart, rest⟩ := List.pairwise_cons.1 hd
    rw [List.foldlM_cons] at h
    obtain ⟨after, ha, h⟩ := bind_eq_ok_iff.1 h
    obtain ⟨hook, hh, ha⟩ := bind_eq_ok_iff.1 ha
    obtain ⟨found, kept⟩ := ih h rest
    rw [List.lookup_cons]
    by_cases hk : kind.name = name
    · subst hk
      have once : named.lookup kind.name = none :=
        List.lookup_eq_none_iff.2 fun e he => by simpa using apart e he
      have placed : HookKind.ofName? kind.name = some kind := HookKind.ofName?_eq_some_iff.2 rfl
      cases ha
      rw [placed, Hooks.get_set, if_pos rfl] at kept
      simpa using ⟨hook, hh, kept once⟩
    · have keyed : (kind.name == name) = false := by simpa using hk
      have same : after.get kind = before.get kind := by
        cases ha
        split
        · next other ho =>
          rw [Hooks.get_set, if_neg]
          rintro rfl
          exact hk (HookKind.ofName?_eq_some_iff.1 ho).symm
        · rfl
      rw [keyed]
      exact ⟨found, fun h => (kept h).trans same⟩

theorem get_importHooks (h : importHooks modules named = .ok hooks) (hd : named.Pairwise fun a b => a.1 ≠ b.1)
    (kind : HookKind) :
    match named.lookup kind.name with
    | some path => ∃ hook, importHook modules path = .ok hook ∧ hooks.get kind = some hook
    | none => hooks.get kind = none := by
  obtain ⟨imported, hi, h⟩ := bind_eq_ok_iff.1 h
  have h : imported = hooks := by
    split at h
    · cases h
    · cases h; rfl
  subst h
  obtain ⟨found, kept⟩ := get_importNamed (mapError_eq_ok_iff.1 hi) hd kind
  split
  · next path hp => exact found path hp
  · next hn => rw [kept hn]; cases kind <;> rfl

end Layer

/-! ## Options -/

namespace Config

open Layer

/-- The options carry what a merged layer has settled, in the form in which a build takes it. A text that is empty
counts as not set. -/
structure Carries (modules : List HookModule) (given : Hooks) (c : Layer) (o : Options) : Prop where
  out : some o.out = (filled? c.out <|> Layer.default.out).map Path.ofString
  copyPattern : some o.copyPattern = (filled? c.copyPattern <|> Layer.default.copyPattern)
  templateExt : some o.templateExt = (filled? c.templateExt <|> Layer.default.templateExt).map dotted
  sitemapPrefix : o.sitemapPrefix = filled? c.sitemapPrefix
  delimiter : some o.templates.delimiter = c.delimiter
  openDelimiter : some o.templates.openDelimiter = c.openDelimiter
  closeDelimiter : some o.templates.closeDelimiter = c.closeDelimiter
  rmWhitespace : some o.templates.rmWhitespace = c.rmWhitespace
  strictUndefined : o.templates.strictUndefined = c.strictUndefined.getD false
  sitemap : some o.sitemap = c.sitemap
  noWrite : some o.noWrite = c.noWrite
  parallel : some (o.parallel : Int) = c.parallel.map (max 1)
  globalData : o.globalData = c.entriesOf .globalData
  data : o.data = c.entriesOf .data
  /-- A given hook counts before the one that is named. -/
  hooks : ∀ kind, match given.get kind, c.lookup .hooks (.text kind.name) with
    | some hook, _ => o.hooks.get kind = some hook
    | none, some (.text path) => ∃ hook, importHook modules path = .ok hook ∧ o.hooks.get kind = some hook
    | none, _ => o.hooks.get kind = none
  ignorePatterns : patternTexts ((c.lookup .watchOptions (.text "ignore_patterns")).getD .null) =
    .ok o.watch.ignorePatterns
  polling : o.watch.polling = ((c.lookup .watchOptions (.text "polling")).getD (.bool false)).isTrue
  pollInterval : match c.lookup .watchOptions (.text "poll_interval") with
    | none | some .null => o.watch.pollInterval = Binary64.ofInt 1
    | some v => v.toReal = .ok o.watch.pollInterval

/-- The settings of the watcher are what its record has. -/
theorem settings_eq {r : Record} {watch : WatchSettings} (h : WatchSettings.ofRecord r = .ok watch) :
    patternTexts ((r.field? "ignore_patterns").getD .null) = .ok watch.ignorePatterns ∧
    watch.polling = ((r.field? "polling").getD (.bool false)).isTrue ∧
    match r.field? "poll_interval" with
    | none | some .null => watch.pollInterval = Binary64.ofInt 1
    | some v => v.toReal = .ok watch.pollInterval := by
  obtain ⟨patterns, hp, h⟩ := bind_eq_ok_iff.1 h
  obtain ⟨interval, hi, h⟩ := bind_eq_ok_iff.1 h
  cases h
  refine ⟨hp, ?_, ?_⟩
  · cases r.field? "polling" <;> rfl
  · have hi := mapError_eq_ok_iff.1 hi
    unfold field? at hi
    split
    · next h =>
      rw [h] at hi
      cases hi
      rfl
    · next h =>
      rw [h] at hi
      cases hi
      rfl
    · next v hn h =>
      rw [h] at hi
      split at hi
      · next null => exact absurd (Option.some.inj null) hn
      · obtain ⟨x, hx, e⟩ := map_eq_ok_iff.1 hi
        cases e
        exact hx

/-- The fields of the defaults are set in every configuration. -/
theorem Stack.exists_get? (k : Stack) {f : Field} (h : (Layer.default.get? f).isSome) :
    ∃ x, k.merged.get? f = some x := by
  rw [← Option.isSome_iff_exists, merged_eq, get?_mergeAll, List.findSome?_isSome_iff]
  exact ⟨.default, by simp [layers], h⟩

theorem some_getD {α : Type} {x : Option α} (h : ∃ a, x = some a) (a : α) : some (x.getD a) = x := by
  obtain ⟨b, rfl⟩ := h
  rfl

theorem entriesOf_hooks (c : Layer) : c.entriesOf .hooks = hookRecord (c.hooks.getD []) := by
  unfold entriesOf map?
  cases c.hooks <;> rfl

theorem lookup_hooks (c : Layer) (kind : HookKind) :
    c.lookup .hooks (.text kind.name) = ((c.hooks.getD []).lookup kind.name).map .text := by
  rw [lookup, entriesOf_hooks, get?_hookRecord]

theorem distinct_hooks {c : Layer} (h : c.Proper) : (c.hooks.getD []).Pairwise fun a b => a.1 ≠ b.1 := by
  have apart := h .hooks
  rw [entriesOf_hooks] at apart
  exact (List.pairwise_map.1 apart).imp fun h => mt sameKey_text.2 (Bool.eq_false_iff.1 h)

theorem carries_of_toOptions {modules : List HookModule} {given : Hooks} {k : Stack} {o : Options}
    (h : k.merged.toOptions modules given = .ok o) : Carries modules given k.merged o := by
  obtain ⟨hooks, hh, h⟩ := bind_eq_ok_iff.1 h
  obtain ⟨watch, hw, h⟩ := bind_eq_ok_iff.1 h
  obtain ⟨patterns, polling, interval⟩ := settings_eq hw
  cases h
  have imported := get_importHooks hh (distinct_hooks (k.merged_eq ▸ proper_mergeAll k.layers))
  constructor
  case out => cases filled? k.merged.out <;> rfl
  case copyPattern => cases filled? k.merged.copyPattern <;> rfl
  case templateExt => cases filled? k.merged.templateExt <;> rfl
  case sitemapPrefix => rfl
  case delimiter => exact some_getD (k.exists_get? (f := .delimiter) rfl) _
  case openDelimiter => exact some_getD (k.exists_get? (f := .openDelimiter) rfl) _
  case closeDelimiter => exact some_getD (k.exists_get? (f := .closeDelimiter) rfl) _
  case rmWhitespace => exact some_getD (k.exists_get? (f := .rmWhitespace) rfl) _
  case strictUndefined => rfl
  case sitemap => exact some_getD (k.exists_get? (f := .sitemap) rfl) _
  case noWrite => exact some_getD (k.exists_get? (f := .noWrite) rfl) _
  case parallel =>
    obtain ⟨n, hn⟩ : ∃ n, k.merged.parallel = some n := k.exists_get? (f := .parallel) rfl
    simp only [hn, Option.getD_some, Option.map_some, Option.some.injEq]
    omega
  case globalData => rfl
  case data => rfl
  case hooks =>
    intro kind
    rw [lookup_hooks, Hooks.get_override]
    have here := imported kind
    cases given.get kind with
    | some hook => rfl
    | none =>
      cases hl : (k.merged.hooks.getD []).lookup kind.name with
      | none => simpa [hl] using here
      | some path => simpa [hl] using here
  case ignorePatterns => exact patterns
  case polling => exact polling
  case pollInterval => exact interval

end Config

/-! ## Options of the command -/

namespace Command

/-- The value is the last that was given for an option. -/
def Arguments.Gives (a : Arguments) (s : Setting) (value : String) : Prop :=
  ∃ before after, a.given = before ++ .setting s value :: after ∧ ∀ other, .setting s other ∉ after

/-- The options that set a text, with what they set. -/
def textSettings : List (Setting × (Layer → Option String)) := [
  (.out, Layer.out), (.delimiter, Layer.delimiter), (.openDelimiter, Layer.openDelimiter),
  (.closeDelimiter, Layer.closeDelimiter), (.copyPattern, Layer.copyPattern), (.sitemapPrefix, Layer.sitemapPrefix),
  (.templateExt, Layer.templateExt)]

/-- The options that turn a setting on. -/
def switchSettings : List (Switch × (Layer → Option Bool)) := [
  (.rmWhitespace, Layer.rmWhitespace), (.sitemap, Layer.sitemap), (.noWrite, Layer.noWrite)]

/-- The layer sets what is given on the command line, and nothing else. -/
structure Arguments.SetsExactly (a : Arguments) (c : Layer) : Prop where
  text : ∀ e ∈ textSettings, ∀ value, e.2 c = some value ↔ a.Gives e.1 value
  switch : ∀ e ∈ switchSettings, e.2 c = if .switch e.1 ∈ a.given then some true else none
  parallel : ∀ n, c.parallel = some n ↔ ∃ value, a.Gives .parallel value ∧ Number.readInteger value = .ok n
  entries : c.entries = if a.entries = [] then none else some a.entries
  watchOptions : c.watchOptions = if .switch .poll ∈ a.given then some [(.text "polling", .bool true)] else none
  others : c.strictUndefined = none ∧ c.globalData = none ∧ c.data = none ∧ c.hooks = none

/-- Where the configuration comes from, as the command line says. -/
structure Arguments.Names (a : Arguments) (s : Config.Sources) : Prop where
  file : ∀ file, s.file = some file ↔ ∃ value, a.Gives .config value ∧ file = Path.ofString value
  dataFile : ∀ value, s.dataFile = some value ↔ a.Gives .dataFile value
  inlineData : ∀ value, s.inlineData = some value ↔ a.Gives .globalData value
  hooks : s.hooks = {}

variable {a : Arguments} {c : Layer}

theorem value?_eq_some_iff {s : Setting} {value : String} : a.value? s = some value ↔ a.Gives s value := by
  unfold Arguments.value? Arguments.Gives
  rw [List.findSome?_eq_some_iff]
  constructor
  · rintro ⟨later, given, earlier, split, found, none_later⟩
    refine ⟨earlier.reverse, later.reverse, ?_, fun other h => ?_⟩
    · have whole := congrArg List.reverse split
      rw [List.reverse_reverse, List.reverse_append, List.reverse_cons, List.append_assoc] at whole
      rw [whole]
      cases given with
      | switch => cases found
      | setting t v =>
        obtain ⟨rfl, rfl⟩ : t = s ∧ v = value := by simpa using found
        rfl
    · simpa using none_later _ (List.mem_reverse.1 h)
  · rintro ⟨before, after, split, none_after⟩
    refine ⟨after.reverse, .setting s value, before.reverse, by simp [split], by simp, fun given h => ?_⟩
    cases given with
    | switch => rfl
    | setting t v =>
      refine if_neg ?_
      rintro rfl
      exact none_after v (List.mem_reverse.1 h)

theorem isSet_eq (a : Arguments) (s : Switch) : (if a.isSet s then some true else none) =
    if Given.switch s ∈ a.given then some true else none := by
  simp [Arguments.isSet]

theorem setsExactly_layer (h : a.layer = .ok c) : a.SetsExactly c := by
  obtain ⟨parallel, hp, h⟩ := bind_eq_ok_iff.1 h
  cases h
  constructor
  case text =>
    simp only [textSettings, List.forall_mem_cons, value?_eq_some_iff]
    simp
  case switch =>
    simp only [switchSettings, List.forall_mem_cons, isSet_eq]
    simp
  case parallel =>
    intro n
    simp only [← value?_eq_some_iff]
    cases hv : a.value? .parallel with
    | none =>
      rw [hv] at hp
      cases hp
      simp
    | some value =>
      rw [hv] at hp
      obtain ⟨m, hm, e⟩ := map_eq_ok_iff.1 hp
      cases e
      simp [mapError_eq_ok_iff.1 hm]
  case entries => cases a.entries <;> rfl
  case watchOptions => simp [Arguments.isSet]
  case others => exact ⟨rfl, rfl, rfl, rfl⟩

theorem proper_layer (h : a.layer = .ok c) : c.Proper := by
  obtain ⟨-, globalData, data, hooks⟩ := (setsExactly_layer h).others
  have watch := (setsExactly_layer h).watchOptions
  intro m
  cases m with
  | globalData | data | hooks =>
    simp only [Layer.entriesOf, Layer.map?, globalData, data, hooks, Option.map_none, Option.getD_none]
    exact .nil
  | watchOptions =>
    simp only [Layer.entriesOf, Layer.map?, watch]
    split
    · exact List.pairwise_singleton _ _
    · exact .nil

theorem names_sources {t : FileTree} {dir : Path} {s : Config.Sources} (h : a.sources t dir = .ok s) :
    a.Names s ∧ ∃ flags, a.layer = .ok flags ∧ s.flags = some flags := by
  obtain ⟨flags, hf, h⟩ := bind_eq_ok_iff.1 h
  obtain ⟨file, hc, h⟩ := bind_eq_ok_iff.1 h
  cases h
  refine ⟨⟨fun path => ?_, fun value => value?_eq_some_iff, fun value => value?_eq_some_iff, rfl⟩, flags, hf, rfl⟩
  simp only [← value?_eq_some_iff]
  unfold Arguments.configFile at hc
  split at hc
  · next none_given =>
    cases hc
    simp [none_given]
  · next value given =>
    dsimp only at hc
    split at hc
    · cases hc
    · cases hc
      simp [given, eq_comm]

end Command

namespace Config

open Layer
open Command (Arguments)

variable {modules : List HookModule} {t : FileTree} {cwd : Path} {s : Sources} {c : Layer} {o : Options}

/-- Every setting has the value of the highest layer that sets it, every key of a map that of the highest layer that
has it, and the options carry these values. The options of the command are a layer of what was given. -/
theorem build_settles (hf : ∀ flags, s.flags = some flags → flags.Proper) (h : build modules t cwd s = .ok (c, o)) :
    ∃ k, stackOf t cwd s = .ok k ∧
      (∀ f, c.get? f = k.layers.findSome? (·.get? f)) ∧
      (∀ m, (c.map? m = none ↔ ∀ l ∈ k.layers, l.map? m = none) ∧ Record.Distinct (c.entriesOf m) ∧
        (∀ key, key.key?.isSome → c.lookup m key = k.layers.findSome? (·.lookup m key)) ∧
        ∀ key ∈ (c.entriesOf m).keys, ∃ l ∈ k.layers, key ∈ (l.entriesOf m).keys) ∧
      Carries modules s.hooks c o ∧
      ∀ a : Arguments, a.sources t cwd = .ok s → a.SetsExactly k.flags ∧ a.Names s := by
  obtain ⟨merged, hm, h⟩ := bind_eq_ok_iff.1 h
  obtain ⟨options, ho, h⟩ := bind_eq_ok_iff.1 h
  cases h
  rw [Config.merged_eq] at hm
  obtain ⟨k, hk, rfl⟩ := map_eq_ok_iff.1 hm
  have proper := Stack.proper hk hf
  refine ⟨k, hk, get?_mergeAll k.layers, fun m => ⟨map?_mergeAll_eq_none_iff k.layers m, proper_mergeAll k.layers m,
    fun key hkey => lookup_mergeAll proper m hkey, fun key => @keys_mergeAll k.layers m key⟩,
    carries_of_toOptions (mapError_eq_ok_iff.1 ho), fun a ha => ?_⟩
  obtain ⟨names, flags, hl, hs⟩ := Command.names_sources ha
  have read : k.flags = flags := by
    obtain ⟨-, -, given, -⟩ := parts_of_stackOf hk
    rw [given, hs, Option.getD_some]
  exact ⟨read ▸ Command.setsExactly_layer hl, names⟩

/-- A project that sets two settings. -/
def layeredTree : FileTree := ⟨[(["p"], .dir),
  (["p", ".pagesmith.yaml"], .file "out: site\nparallel: 0\n".toUTF8)]⟩

/-- The default is given on the command line, and a JSON text adds to the global data. -/
def layeredArguments : Arguments :=
  { given := [.setting .out "site", .setting .out "dist", .setting .globalData "\x7b\"title\": 1\x7d"] }

/-- An option that is given counts over the project's file, even if it has the default for its value. -/
theorem build_settles_given : ∃ s c o, layeredArguments.sources layeredTree ⟨.slash, ["p"]⟩ = .ok s ∧
    build [] layeredTree ⟨.slash, ["p"]⟩ s = .ok (c, o) ∧ c.out = some "dist" ∧ o.parallel = 1 ∧
    ∃ k, stackOf layeredTree ⟨.slash, ["p"]⟩ s = .ok k ∧ c.get? .out = k.layers.findSome? (·.get? .out) ∧
      layeredArguments.SetsExactly k.flags := by
  have settled : ((layeredArguments.sources layeredTree ⟨.slash, ["p"]⟩).toOption.bind fun s =>
      (build [] layeredTree ⟨.slash, ["p"]⟩ s).toOption.map fun made => (made.1.out, made.2.parallel)) =
        some (some "dist", 1) := by
    decide +kernel
  obtain ⟨s, hs, settled⟩ := Option.bind_eq_some_iff.1 settled
  obtain ⟨⟨c, o⟩, hb, settled⟩ := Option.map_eq_some_iff.1 settled
  rw [toOption_eq_some_iff] at hs hb
  obtain ⟨hout, hparallel⟩ := Prod.mk.inj settled
  obtain ⟨-, flags, hl, hf⟩ := Command.names_sources hs
  have proper : ∀ flags, s.flags = some flags → flags.Proper := fun other ho => by
    rw [hf] at ho
    cases ho
    exact Command.proper_layer hl
  obtain ⟨k, hk, fields, -, -, given⟩ := build_settles proper hb
  exact ⟨s, c, o, hs, hb, hout, hparallel, k, hk, fields .out, (given _ hs).1⟩

end Config

end StaticSite
