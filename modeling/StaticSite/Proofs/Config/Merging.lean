import StaticSite.Proofs.Config.Stack
import StaticSite.Proofs.Value.WellKeyed

/-!
# Merged layers

A field of a merged layer has the value of the highest layer that sets it (`get?_mergeAll`). A map is merged key by
key: each key has its value in the highest layer that has it (`lookup_mergeAll`), and there are no other keys
(`keys_mergeAll`). That holds because the maps of every layer have distinct keys (`Stack.proper`).
-/

namespace StaticSite

open Record (Distinct)
open Value (WellKeyed)

namespace Layer

/-! ## Fields -/

/-- The settings that hold one value each. -/
inductive Field where
  | entries
  | out
  | delimiter
  | openDelimiter
  | closeDelimiter
  | rmWhitespace
  | strictUndefined
  | copyPattern
  | sitemap
  | sitemapPrefix
  | noWrite
  | parallel
  | templateExt
  deriving DecidableEq

/-- What a field holds. -/
def Field.Holds : Field → Type
  | .entries => List String
  | .rmWhitespace | .strictUndefined | .sitemap | .noWrite => Bool
  | .parallel => Int
  | .out | .delimiter | .openDelimiter | .closeDelimiter | .copyPattern | .sitemapPrefix | .templateExt => String

def get? (c : Layer) : (f : Field) → Option f.Holds
  | .entries => c.entries
  | .out => c.out
  | .delimiter => c.delimiter
  | .openDelimiter => c.openDelimiter
  | .closeDelimiter => c.closeDelimiter
  | .rmWhitespace => c.rmWhitespace
  | .strictUndefined => c.strictUndefined
  | .copyPattern => c.copyPattern
  | .sitemap => c.sitemap
  | .sitemapPrefix => c.sitemapPrefix
  | .noWrite => c.noWrite
  | .parallel => c.parallel
  | .templateExt => c.templateExt

theorem get?_merge (lower upper : Layer) (f : Field) :
    (lower.merge upper).get? f = (upper.get? f <|> lower.get? f) := by
  cases f <;> rfl

/-! ## Maps -/

/-- The settings that are maps. -/
inductive MapField where
  | globalData
  | data
  | hooks
  | watchOptions
  deriving DecidableEq

/-- Named hooks as a record. -/
def hookRecord (hooks : List (String × String)) : Record := hooks.map fun (k, v) => (.text k, .text v)

def map? (c : Layer) : MapField → Option Record
  | .globalData => c.globalData
  | .data => c.data
  | .hooks => c.hooks.map hookRecord
  | .watchOptions => c.watchOptions

/-- The entries of a map, none if it is not set. -/
def entriesOf (c : Layer) (m : MapField) : Record := (c.map? m).getD []

/-- The value of a key in a map. -/
def lookup (c : Layer) (m : MapField) (key : Value) : Option Value := (c.entriesOf m).get? key

/-- The maps of the layer have distinct keys. -/
def Proper (c : Layer) : Prop := ∀ m, Distinct (c.entriesOf m)

theorem sameKey_text {a b : String} : (Value.text a).sameKey (.text b) = true ↔ a = b := by
  simp [Value.sameKey_iff, Value.key?]

theorem hookRecord_insertHook (k v : String) (hooks : List (String × String)) :
    hookRecord (mergeHooks.insertHook k v hooks) = (hookRecord hooks).set (.text k) (.text v) := by
  induction hooks with
  | nil => rfl
  | cons e hooks ih =>
    obtain ⟨l, w⟩ := e
    rw [mergeHooks.insertHook]
    by_cases h : l = k
    · simp [hookRecord, Record.set, h, sameKey_text]
    · have apart : ¬ (Value.text l).sameKey (.text k) = true := mt sameKey_text.1 h
      rw [if_neg h]
      simpa [hookRecord, Record.set, apart] using ih

/-- Hooks are merged as records are. -/
theorem hookRecord_mergeHooks (lower upper : List (String × String)) :
    hookRecord (mergeHooks lower upper) = (hookRecord lower).update (hookRecord upper) := by
  induction upper generalizing lower with
  | nil => rfl
  | cons e upper ih =>
    obtain ⟨k, v⟩ := e
    have next : mergeHooks lower ((k, v) :: upper) = mergeHooks (mergeHooks.insertHook k v lower) upper := rfl
    rw [next, ih, hookRecord_insertHook]
    rfl

theorem map?_merge (lower upper : Layer) (m : MapField) :
    (lower.merge upper).map? m = mergeMaps Record.update (lower.map? m) (upper.map? m) := by
  cases m with
  | hooks =>
    simp only [map?, merge]
    cases lower.hooks <;> cases upper.hooks <;> simp [mergeMaps, hookRecord_mergeHooks] <;> rfl
  | globalData | data | watchOptions => rfl

theorem map?_merge_eq_none_iff {lower upper : Layer} {m : MapField} :
    (lower.merge upper).map? m = none ↔ lower.map? m = none ∧ upper.map? m = none := by
  rw [map?_merge]
  cases lower.map? m <;> cases upper.map? m <;> simp [mergeMaps]

theorem entriesOf_merge (lower upper : Layer) (m : MapField) :
    (lower.merge upper).entriesOf m = (lower.entriesOf m).update (upper.entriesOf m) := by
  unfold entriesOf
  rw [map?_merge]
  cases lower.map? m <;> cases upper.map? m <;> rfl

theorem lookup_merge {upper : Layer} (hu : upper.Proper) (lower : Layer) (m : MapField) {key : Value}
    (hk : key.key?.isSome) : (lower.merge upper).lookup m key = (upper.lookup m key <|> lower.lookup m key) := by
  rw [lookup, entriesOf_merge, Record.get?_update (hu m) hk]
  rfl

theorem keys_merge {lower upper : Layer} {m : MapField} {key : Value}
    (h : key ∈ ((lower.merge upper).entriesOf m).keys) :
    key ∈ (lower.entriesOf m).keys ∨ key ∈ (upper.entriesOf m).keys := by
  rw [entriesOf_merge] at h
  exact Record.keys_update h

theorem Proper.merge {lower upper : Layer} (h : lower.Proper) : (lower.merge upper).Proper := fun m => by
  rw [entriesOf_merge]
  exact (h m).update _

/-! ## Several layers -/

/-- Layers merged, the highest of which comes first. -/
def mergeAll (layers : List Layer) : Layer := layers.foldr (fun upper lower => lower.merge upper) {}

variable {layers : List Layer}

theorem mergeAll_cons (c : Layer) (layers : List Layer) : mergeAll (c :: layers) = (mergeAll layers).merge c := rfl

theorem get?_mergeAll (layers : List Layer) (f : Field) :
    (mergeAll layers).get? f = layers.findSome? (·.get? f) := by
  induction layers with
  | nil => cases f <;> rfl
  | cons c layers ih =>
    rw [mergeAll_cons, get?_merge, ih, List.findSome?_cons]
    cases c.get? f <;> rfl

theorem map?_mergeAll_eq_none_iff (layers : List Layer) (m : MapField) :
    (mergeAll layers).map? m = none ↔ ∀ c ∈ layers, c.map? m = none := by
  induction layers with
  | nil => cases m <;> simp [mergeAll, map?]
  | cons c layers ih => rw [mergeAll_cons, map?_merge_eq_none_iff, ih, List.forall_mem_cons, and_comm]

theorem lookup_mergeAll (h : ∀ c ∈ layers, c.Proper) (m : MapField) {key : Value} (hk : key.key?.isSome) :
    (mergeAll layers).lookup m key = layers.findSome? (·.lookup m key) := by
  induction layers with
  | nil => cases m <;> rfl
  | cons c layers ih =>
    obtain ⟨first, rest⟩ := List.forall_mem_cons.1 h
    rw [mergeAll_cons, lookup_merge first _ _ hk, ih rest, List.findSome?_cons]
    cases c.lookup m key <;> rfl

theorem keys_mergeAll {m : MapField} {key : Value} (h : key ∈ ((mergeAll layers).entriesOf m).keys) :
    ∃ c ∈ layers, key ∈ (c.entriesOf m).keys := by
  induction layers with
  | nil => cases m <;> cases h
  | cons c layers ih =>
    rcases keys_merge h with h | h
    · obtain ⟨d, hd, h⟩ := ih h
      exact ⟨d, List.mem_cons_of_mem _ hd, h⟩
    · exact ⟨c, List.mem_cons_self, h⟩

theorem proper_empty : Proper {} := fun m => by
  cases m <;> exact .nil

theorem proper_default : Layer.default.Proper := fun m => by
  cases m <;> exact .nil

theorem proper_mergeAll (layers : List Layer) : (mergeAll layers).Proper := by
  induction layers with
  | nil => exact proper_empty
  | cons c layers ih => exact ih.merge

/-! ## Reading -/

variable {r : Record} {c : Layer}

/-- The maps of a layer are what its record has. -/
theorem maps_of_ofRecord (h : ofRecord r = .ok c) : c.globalData = mapField? r "global_data" ∧
    c.data = mapField? r "data" ∧ hooksField? r = .ok c.hooks ∧ c.watchOptions = mapField? r "watch_options" := by
  simp only [ofRecord, bind_eq_ok_iff] at h
  obtain ⟨entries, -, parallel, -, hooks, hh, out, -, delimiter, -, opening, -, closing, -, copy, -, sitemapPrefix, -,
    ext, -, h⟩ := h
  cases h
  exact ⟨rfl, rfl, hh, rfl⟩

theorem distinct_mapField? (hr : ∀ e ∈ r, WellKeyed e.2) {name : String} {m : Record}
    (h : mapField? r name = some m) : Distinct m := by
  obtain ⟨v, hv, h⟩ := Option.bind_eq_some_iff.1 h
  obtain ⟨e, he, rfl⟩ := Option.map_eq_some_iff.1 hv
  exact ((hr e (List.mem_of_find?_eq_some he)).record h).1

/-- The name of a named hook is a key of its record. -/
theorem key_of_namedHook {e : Value × Value} {name : String} {v : Value}
    (h : (match e with
      | (.text name, v) => if (HookKind.ofName? name).isSome && v.isTrue then some (name, v) else none
      | _ => none) = some (name, v)) : e.1 = .text name := by
  split at h
  · split at h
    · cases h; rfl
    · cases h
  · cases h

/-- No two of the named hooks have one name. -/
theorem distinct_namedHooks (h : Distinct r) : (namedHooks r).Pairwise fun a b => a.1 ≠ b.1 := by
  refine List.Pairwise.filterMap _ (fun a b apart a' ha b' hb same => ?_) h
  rw [key_of_namedHook ha, key_of_namedHook hb, same] at apart
  simp [sameKey_text.2] at apart

/-- Hooks keep their names when their values become texts. -/
theorem names_of_mapM {named : List (String × Value)} {hooks : List (String × String)}
    (h : (named.mapM fun (name, v) => do return (name, ← v.toText)) = .ok hooks) :
    hooks.map Prod.fst = named.map Prod.fst := by
  have each := forall₂_of_mapM h
  clear h
  induction each with
  | nil => rfl
  | cons first _ ih =>
    obtain ⟨_, -, e⟩ := bind_eq_ok_iff.1 first
    cases e
    exact congrArg _ ih

theorem distinct_hooksField? (hr : ∀ e ∈ r, WellKeyed e.2) {hooks : List (String × String)}
    (h : hooksField? r = .ok (some hooks)) : Distinct (hookRecord hooks) := by
  unfold hooksField? at h
  cases hm : mapField? r "hooks" with
  | none =>
    rw [hm] at h
    cases h
  | some entries =>
    rw [hm] at h
    obtain ⟨_, hn, e⟩ := map_eq_ok_iff.1 h
    cases e
    have apart : ((namedHooks entries).map Prod.fst).Pairwise (· ≠ ·) :=
      List.pairwise_map.2 (distinct_namedHooks (distinct_mapField? hr hm))
    rw [← names_of_mapM hn] at apart
    exact List.pairwise_map.2 ((List.pairwise_map.1 apart).imp fun h => Bool.eq_false_iff.2 (mt sameKey_text.1 h))

/-- A layer that is read from a value has maps with distinct keys. -/
theorem proper_ofRecord (hr : ∀ e ∈ r, WellKeyed e.2) (h : ofRecord r = .ok c) : c.Proper := by
  obtain ⟨globalData, data, hooks, watch⟩ := maps_of_ofRecord h
  have read (name : String) : Distinct ((mapField? r name).getD []) := by
    cases hm : mapField? r name with
    | none => exact .nil
    | some m => exact distinct_mapField? hr hm
  intro m
  cases m with
  | globalData => exact (congrArg (Distinct <| Option.getD · []) globalData).mpr (read _)
  | data => exact (congrArg (Distinct <| Option.getD · []) data).mpr (read _)
  | watchOptions => exact (congrArg (Distinct <| Option.getD · []) watch).mpr (read _)
  | hooks =>
    unfold entriesOf map?
    cases hh : c.hooks with
    | none => exact .nil
    | some named => exact distinct_hooksField? hr (hh ▸ hooks)

end Layer

/-! ## Stacks -/

namespace Config

open Layer

variable {t : FileTree} {cwd file : Path} {s : Sources} {c : Layer} {k : Stack}

theorem Stack.merged_eq (k : Stack) : k.merged = mergeAll k.layers := rfl

theorem wellKeyed_loadFile {entries : Record} (h : loadFile t cwd file = .ok (some entries)) :
    ∀ e ∈ entries, WellKeyed e.2 := by
  unfold loadFile at h
  split at h
  · cases h
  · obtain ⟨bytes, -, h⟩ := bind_eq_ok_iff.1 h
    obtain ⟨text, -, h⟩ := bind_eq_ok_iff.1 h
    split at h
    · cases h
    · cases h
    · cases h
    · next v _ hv =>
      split at h
      · next r hr =>
        cases h
        exact ((Yaml.wellKeyed_yaml hv).record hr).2
      · cases h

theorem proper_fileLayer (h : fileLayer t cwd file = .ok c) : c.Proper := by
  obtain ⟨_ | entries, hf, h⟩ := bind_eq_ok_iff.1 h
  · cases h
    exact proper_empty
  · exact proper_ofRecord (wellKeyed_loadFile hf) (mapError_eq_ok_iff.1 h)

theorem proper_namedLayer {given : Option Path} (h : namedLayer t cwd given = .ok c) : c.Proper := by
  cases given with
  | none =>
    cases h
    exact proper_empty
  | some file =>
    rw [namedLayer] at h
    split at h
    · exact proper_fileLayer h
    · cases h

theorem proper_globalData {r : Record} (h : WellKeyed (.map r)) : Layer.Proper { globalData := some r } := fun m => by
  cases m with
  | globalData => exact h.entries.1
  | data | hooks | watchOptions => exact .nil

theorem wellKeyed_loadObject {given : String} {r : Record} (h : loadObject t cwd given = .ok r) :
    WellKeyed (.map r) := by
  unfold loadObject at h
  dsimp only at h
  split at h
  · cases h
  · split at h
    · cases h
    · split at h <;> cases h
    · next hr =>
      cases h
      obtain ⟨bytes, -, hr⟩ := bind_eq_ok_iff.1 hr
      obtain ⟨text, -, hr⟩ := bind_eq_ok_iff.1 hr
      exact Json.wellKeyed_json (mapError_eq_ok_iff.1 hr)
    · cases h

theorem wellKeyed_readInline {text : String} {r : Record} (h : readInline text = .ok r) : WellKeyed (.map r) := by
  unfold readInline at h
  split at h
  · cases h
  · cases h
  · next hr =>
    cases h
    exact Json.wellKeyed_json hr
  · cases h

theorem proper_dataLayer {given : Option String} (h : dataLayer t cwd given = .ok c) : c.Proper := by
  unfold dataLayer at h
  split at h
  · cases h
    exact proper_empty
  · obtain ⟨r, hr, h⟩ := bind_eq_ok_iff.1 h
    cases h
    exact proper_globalData (wellKeyed_loadObject hr)

theorem proper_inlineLayer {given : Option String} (h : inlineLayer given = .ok c) : c.Proper := by
  unfold inlineLayer at h
  split at h
  · cases h
    exact proper_empty
  · obtain ⟨r, hr, h⟩ := bind_eq_ok_iff.1 h
    cases h
    exact proper_globalData (wellKeyed_readInline hr)

/-- All layers of a configuration have maps with distinct keys, if the flags have. -/
theorem Stack.proper (h : stackOf t cwd s = .ok k) (hf : ∀ flags, s.flags = some flags → flags.Proper) :
    ∀ c ∈ k.layers, c.Proper := by
  obtain ⟨hp, hn, given, hd, hi⟩ := parts_of_stackOf h
  have flags : k.flags.Proper := by
    rw [given]
    cases hs : s.flags with
    | none => exact proper_empty
    | some flags => exact hf flags hs
  simp only [layers, List.forall_mem_cons, List.not_mem_nil, false_implies, implies_true, and_true]
  exact ⟨proper_inlineLayer hi, proper_dataLayer hd, flags, proper_namedLayer hn, proper_fileLayer hp, proper_default⟩

end Config

end StaticSite
