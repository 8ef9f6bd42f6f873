import StaticSite.Proofs.Config.Merging
import StaticSite.Proofs.Value.Text

/-!
# Layers written and read back

A layer that is written and read back is the same layer but for hooks of no known name or without a value, which are
not read (`ofRecord_toRecord`). No layer that was read has such hooks, the lowest layer has none, and merging layers
makes none: so reading, writing and reading once more changes nothing (`ofRecord_toRecord_of_obtained`).
-/

namespace StaticSite.Layer

variable {r : Record} {c a b : Layer}

/-! ## Names of fields -/

/-- The name of a field in a record. -/
def Field.name : Field → String
  | .entries => "entries"
  | .out => "out"
  | .delimiter => "delimiter"
  | .openDelimiter => "open_delimiter"
  | .closeDelimiter => "close_delimiter"
  | .rmWhitespace => "rm_whitespace"
  | .strictUndefined => "strict_undefined"
  | .copyPattern => "copy_pattern"
  | .sitemap => "sitemap"
  | .sitemapPrefix => "sitemap_prefix"
  | .noWrite => "no_write"
  | .parallel => "parallel"
  | .templateExt => "template_ext"

/-- The name of a map in a record. -/
def MapField.name : MapField → String
  | .globalData => "global_data"
  | .data => "data"
  | .hooks => "hooks"
  | .watchOptions => "watch_options"

/-! ## Reading field by field -/

/-- A field as a record gives it. -/
def Field.read (r : Record) : (f : Field) → Except Number.Fault (Option f.Holds)
  | .entries => entriesField? r
  | .out => textField? r (name .out)
  | .delimiter => textField? r (name .delimiter)
  | .openDelimiter => textField? r (name .openDelimiter)
  | .closeDelimiter => textField? r (name .closeDelimiter)
  | .rmWhitespace => .ok (boolField? r (name .rmWhitespace))
  | .strictUndefined => .ok (boolField? r (name .strictUndefined))
  | .copyPattern => textField? r (name .copyPattern)
  | .sitemap => .ok (boolField? r (name .sitemap))
  | .sitemapPrefix => textField? r (name .sitemapPrefix)
  | .noWrite => .ok (boolField? r (name .noWrite))
  | .parallel => (field? r (name .parallel)).mapM toInt
  | .templateExt => textField? r (name .templateExt)

/-- A layer is read if each of its fields is. -/
theorem ofRecord_eq_ok (fields : ∀ f, Field.read r f = .ok (c.get? f)) (hooks : hooksField? r = .ok c.hooks)
    (globalData : mapField? r "global_data" = c.globalData) (data : mapField? r "data" = c.data)
    (watchOptions : mapField? r "watch_options" = c.watchOptions) : ofRecord r = .ok c := by
  have trim : boolField? r "rm_whitespace" = c.rmWhitespace := Except.ok.inj (fields .rmWhitespace)
  have strict : boolField? r "strict_undefined" = c.strictUndefined := Except.ok.inj (fields .strictUndefined)
  have listed : boolField? r "sitemap" = c.sitemap := Except.ok.inj (fields .sitemap)
  have dry : boolField? r "no_write" = c.noWrite := Except.ok.inj (fields .noWrite)
  simp only [ofRecord, bind_eq_ok_iff, trim, strict, listed, dry, globalData, data, watchOptions]
  exact ⟨_, fields .entries, _, fields .parallel, _, hooks, _, fields .out, _, fields .delimiter, _,
    fields .openDelimiter, _, fields .closeDelimiter, _, fields .copyPattern, _, fields .sitemapPrefix, _,
    fields .templateExt, rfl⟩

/-! ## Fields of a written layer -/

section Written

variable {settings : List (String × Option Value)} {name : String} {v : Option Value}

/-- The settings that have a value, as a record. -/
def written (settings : List (String × Option Value)) : Record :=
  settings.filterMap fun (name, v) => v.map fun v => (.text name, v)

theorem field?_written_cons {n : String} {w : Option Value} : (written ((n, w) :: settings)).field? name =
    if n = name then w <|> (written settings).field? name else (written settings).field? name := by
  cases w with
  | none => simp [written]
  | some w =>
    have head : written ((n, some w) :: settings) = (.text n, w) :: written settings := rfl
    simp only [head, Record.field?, Record.get?_cons, sameKey_text]
    rfl

theorem field?_written_of_notMem (h : name ∉ settings.map Prod.fst) : (written settings).field? name = none := by
  induction settings with
  | nil => rfl
  | cons e settings ih =>
    obtain ⟨first, rest⟩ : name ≠ e.1 ∧ name ∉ settings.map Prod.fst := by simpa using h
    rw [field?_written_cons, if_neg first.symm, ih rest]

/-- A record that is made of settings with distinct names has each of them under its name. -/
theorem field?_written (distinct : (settings.map Prod.fst).Nodup) (h : (name, v) ∈ settings) :
    (written settings).field? name = v := by
  induction settings with
  | nil => cases h
  | cons e settings ih =>
    obtain ⟨n, w⟩ := e
    obtain ⟨first, rest⟩ := List.nodup_cons.1 distinct
    rw [field?_written_cons]
    rcases List.mem_cons.1 h with h | h
    · cases h
      rw [if_pos rfl, field?_written_of_notMem first]
      cases v <;> rfl
    · have other : n ≠ name := by
        rintro rfl
        exact first (List.mem_map.2 ⟨_, h, rfl⟩)
      rw [if_neg other, ih rest h]

end Written

/-- The names of all settings, in the order in which they are written. -/
def names : List String :=
  ["entries", "out", "delimiter", "open_delimiter", "close_delimiter", "rm_whitespace", "strict_undefined",
    "global_data", "data", "copy_pattern", "sitemap", "sitemap_prefix", "no_write", "parallel", "template_ext",
    "hooks", "watch_options"]

theorem nodup_names : names.Nodup := by decide

/-- A value of a field as it is written. -/
def Field.write : (f : Field) → f.Holds → Value
  | .entries => texts
  | .rmWhitespace | .strictUndefined | .sitemap | .noWrite => .bool
  | .parallel => .int
  | .out | .delimiter | .openDelimiter | .closeDelimiter | .copyPattern | .sitemapPrefix | .templateExt => .text

theorem field?_toRecord (c : Layer) (f : Field) : c.toRecord.field? f.name = (c.get? f).map f.write := by
  cases f <;> exact field?_written nodup_names (by simp [Field.name, get?, Field.write]; rfl)

theorem field?_toRecord_map (c : Layer) (m : MapField) : c.toRecord.field? m.name = (c.map? m).map .map := by
  cases m with
  | hooks =>
    refine field?_written nodup_names ?_
    cases hooks : c.hooks <;> simp [MapField.name, map?, hooks, hookMap, hookRecord]
  | _ => exact field?_written nodup_names (by simp [MapField.name, map?])

/-! ## Reading what was written -/

section Reading

variable {name : String}

theorem field?_of_written {α : Type} {v : Option α} {f : α → Value} (filled : ∀ x, f x ≠ .null)
    (h : r.field? name = v.map f) : field? r name = v.map f := by
  unfold field?
  rw [h]
  cases v with
  | none => rfl
  | some x =>
    split
    · next null => exact absurd (Option.some.inj null) (filled x)
    · rfl

/-- Items that are written are read back one by one. -/
theorem mapM_map_ok {ε α β : Type} {write : α → β} {read : β → Except ε α} (h : ∀ a, read (write a) = .ok a)
    (as : List α) : (as.map write).mapM read = .ok as :=
  mapM_eq_ok_iff.2 (List.forall₂_map_left_iff.2 (List.forall₂_same.2 fun a _ => h a))

theorem textField?_of_written {v : Option String} (h : r.field? name = v.map .text) : textField? r name = .ok v := by
  rw [textField?, field?_of_written nofun h]
  cases v <;> rfl

theorem boolField?_of_written {v : Option Bool} (h : r.field? name = v.map .bool) : boolField? r name = v := by
  rw [boolField?, field?_of_written nofun h]
  cases v <;> rfl

theorem intField?_of_written {v : Option Int} (h : r.field? name = v.map .int) :
    (field? r name).mapM toInt = .ok v := by
  rw [field?_of_written nofun h]
  cases v <;> rfl

theorem entriesField?_of_written {v : Option (List String)} (h : r.field? "entries" = v.map texts) :
    entriesField? r = .ok v := by
  unfold entriesField?
  rw [h]
  cases v with
  | none => rfl
  | some ss =>
    show (some (ss.map Value.text)).mapM _ = _
    have back : (ss.map Value.text).mapM (·.toText) = .ok ss := mapM_map_ok (by intro s; rfl) ss
    rw [Option.mapM_some, back]
    rfl

theorem mapField?_of_written {v : Option Record} (h : r.field? name = v.map .map) : mapField? r name = v := by
  rw [mapField?, h]
  cases v <;> rfl

/-- Every field is read as it was written. -/
theorem read_toRecord (c : Layer) (f : Field) : f.read c.toRecord = .ok (c.get? f) := by
  have written := field?_toRecord c f
  cases f with
  | entries => exact entriesField?_of_written written
  | parallel => exact intField?_of_written written
  | rmWhitespace | strictUndefined | sitemap | noWrite => exact congrArg _ (boolField?_of_written written)
  | out | delimiter | openDelimiter | closeDelimiter | copyPattern | sitemapPrefix | templateExt =>
    exact textField?_of_written written

end Reading

/-! ## Hooks -/

/-- The entry has a hook's name, and a value. -/
def isUsable (e : String × String) : Bool := (HookKind.ofName? e.1).isSome && e.2 ≠ ""

/-- All hooks of the layer have a hook's name, and a value. -/
def HooksUsable (c : Layer) : Prop := ∀ e ∈ c.hooks.getD [], isUsable e = true

theorem namedHooks_hookRecord (hooks : List (String × String)) :
    namedHooks (hookRecord hooks) = (hooks.filter isUsable).map fun (k, v) => (k, .text v) := by
  unfold namedHooks hookRecord
  rw [List.filterMap_map, ← List.filterMap_eq_map, List.filterMap_filter]
  rfl

theorem mapM_named_text (hooks : List (String × String)) : (hooks.map fun (k, v) => (k, Value.text v)).mapM
    (fun (name, v) => do return (name, ← v.toText)) = Except.ok (ε := Number.Fault) hooks :=
  mapM_map_ok (by intro e; rfl) hooks

/-- Of the hooks that were written those are read that can be used. -/
theorem hooksField?_of_written {v : Option (List (String × String))} (h : r.field? "hooks" = v.map hookMap) :
    hooksField? r = .ok (v.map (·.filter isUsable)) := by
  have read : mapField? r "hooks" = v.map hookRecord := by
    rw [mapField?, h]
    cases v <;> rfl
  rw [hooksField?, read]
  cases v with
  | none => rfl
  | some hooks =>
    rw [Option.map_some, Option.mapM_some, namedHooks_hookRecord, mapM_named_text]
    rfl

/-- A layer that is written and read back keeps all but the hooks that cannot be used. -/
theorem ofRecord_toRecord (c : Layer) :
    ofRecord c.toRecord = .ok { c with hooks := c.hooks.map (·.filter isUsable) } := by
  have written := field?_toRecord_map c
  exact ofRecord_eq_ok (fun f => (read_toRecord c f).trans (by cases f <;> rfl))
    (hooksField?_of_written ((written .hooks).trans (Option.map_map _ _ _)))
    (mapField?_of_written (written .globalData)) (mapField?_of_written (written .data))
    (mapField?_of_written (written .watchOptions))

theorem ofRecord_toRecord_iff : ofRecord c.toRecord = .ok c ↔ c.HooksUsable := by
  have kept : c.hooks.map (·.filter isUsable) = c.hooks ↔ c.HooksUsable := by
    unfold HooksUsable
    cases c.hooks with
    | none => simp
    | some hooks => simp [List.filter_eq_self]
  rw [ofRecord_toRecord, Except.ok.injEq, ← kept]
  exact ⟨congrArg Layer.hooks, fun same => by rw [same]⟩

/-! ### Layers whose hooks can be used -/

theorem hooksUsable_default : Layer.default.HooksUsable := nofun

theorem of_mem_namedHooks {e : String × Value} (h : e ∈ namedHooks r) :
    (HookKind.ofName? e.1).isSome = true ∧ e.2.isTrue = true := by
  obtain ⟨d, -, named⟩ := List.mem_filterMap.1 h
  split at named
  · split at named
    · next usable =>
      cases named
      exact Bool.and_eq_true_iff.1 usable
    · cases named
  · cases named

/-- Hooks with values that count as true get texts that are not empty. -/
theorem isUsable_of_mapM {named : List (String × Value)} {hooks : List (String × String)}
    (usable : ∀ e ∈ named, (HookKind.ofName? e.1).isSome = true ∧ e.2.isTrue = true)
    (h : (named.mapM fun (name, v) => do return (name, ← v.toText)) = .ok hooks) : ∀ e ∈ hooks, isUsable e = true := by
  have each := forall₂_of_mapM h
  clear h
  induction each with
  | nil => nofun
  | cons first _ ih =>
    obtain ⟨here, rest⟩ := List.forall_mem_cons.1 usable
    refine List.forall_mem_cons.2 ⟨?_, ih rest⟩
    obtain ⟨s, written, same⟩ := bind_eq_ok_iff.1 first
    cases same
    rw [Value.toText] at written
    split at written
    · cases written
      simp [isUsable, here.1, Value.plainText_ne_empty here.2]
    · cases written

theorem hooksUsable_of_ofRecord (h : ofRecord r = .ok c) : c.HooksUsable := by
  obtain ⟨-, -, read, -⟩ := maps_of_ofRecord h
  unfold HooksUsable
  cases hm : mapField? r "hooks" with
  | none =>
    rw [hooksField?, hm] at read
    rw [← Except.ok.inj read]
    nofun
  | some entries =>
    rw [hooksField?, hm, Option.mapM_some] at read
    obtain ⟨hooks, read, given⟩ := map_eq_ok_iff.1 read
    rw [← given]
    exact isUsable_of_mapM (fun e => of_mem_namedHooks) read

theorem mem_insertHook {e : String × String} {k v : String} {hooks : List (String × String)}
    (h : e ∈ mergeHooks.insertHook k v hooks) : e = (k, v) ∨ e ∈ hooks := by
  induction hooks with
  | nil => exact .inl (List.mem_singleton.1 h)
  | cons d hooks ih =>
    obtain ⟨l, w⟩ := d
    rw [mergeHooks.insertHook] at h
    split at h
    · next same =>
      rw [same] at h
      exact (List.mem_cons.1 h).imp_right (List.mem_cons_of_mem _)
    · rcases List.mem_cons.1 h with rfl | h
      · exact .inr List.mem_cons_self
      · exact (ih h).imp_right (List.mem_cons_of_mem _)

theorem mem_mergeHooks {e : String × String} {lower upper : List (String × String)}
    (h : e ∈ mergeHooks lower upper) : e ∈ lower ∨ e ∈ upper := by
  induction upper generalizing lower with
  | nil => exact .inl h
  | cons d upper ih =>
    rcases ih h with h | h
    · rcases mem_insertHook h with rfl | h
      · exact .inr List.mem_cons_self
      · exact .inl h
    · exact .inr (List.mem_cons_of_mem _ h)

theorem HooksUsable.merge (ha : a.HooksUsable) (hb : b.HooksUsable) : (a.merge b).HooksUsable := by
  have merged : (a.merge b).hooks.getD [] = mergeHooks (a.hooks.getD []) (b.hooks.getD []) := by
    simp only [Layer.merge]
    cases a.hooks <;> cases b.hooks <;> rfl
  intro e he
  rw [merged] at he
  exact (mem_mergeHooks he).elim (ha e) (hb e)

/-! ## Layers that are obtained -/

/-- The layer was read, or is the lowest one, or such layers merged. -/
inductive Obtained : Layer → Prop where
  | read {r : Record} {c : Layer} (h : ofRecord r = .ok c) : Obtained c
  | default : Obtained Layer.default
  | merge {a b : Layer} (ha : Obtained a) (hb : Obtained b) : Obtained (a.merge b)

theorem Obtained.hooksUsable (h : Obtained c) : c.HooksUsable := by
  induction h with
  | read h => exact hooksUsable_of_ofRecord h
  | default => exact hooksUsable_default
  | merge _ _ iha ihb => exact iha.merge ihb

/-- A record as it is after it has been read and written. -/
def coerce (r : Record) : Except Number.Fault Record := toRecord <$> ofRecord r

/-- A layer that was read, or merged from such layers, is written so that it is read back as it is. So what a record
is coerced to is coerced to itself. -/
theorem ofRecord_toRecord_of_obtained :
    (∀ c, Obtained c → ofRecord c.toRecord = .ok c) ∧
    (∀ r c, ofRecord r = .ok c → ofRecord c.toRecord = .ok c) ∧
    ∀ r, coerce r >>= coerce = coerce r := by
  have back : ∀ c, Obtained c → ofRecord c.toRecord = .ok c := fun c h => ofRecord_toRecord_iff.2 h.hooksUsable
  refine ⟨back, fun r c h => back c (.read h), fun r => ?_⟩
  unfold coerce
  cases h : ofRecord r with
  | error fault => rfl
  | ok c =>
    show toRecord <$> ofRecord c.toRecord = _
    rw [back c (.read h)]

/-- A record with values that are not what the settings hold, hooks that are not used and a map that is none. -/
def looseRecord : Record := [(.text "entries", .text "site/*.j2"), (.text "parallel", .text " 7 "),
  (.text "sitemap", .int 1), (.text "out", .bool true), (.text "no_write", .null), (.text "global_data", .list []),
  (.text "hooks", .map [(.text "done", .tuple []), (.text "after_copy_file", .list [.null]),
    (.text "other", .text "a:b")])]

def tightLayer : Layer where
  entries := some ["site/*.j2"]
  out := some "True"
  sitemap := some true
  parallel := some 7
  hooks := some [("after_copy_file", "[None]")]

theorem ofRecord_looseRecord : ofRecord looseRecord = .ok tightLayer := by
  refine ofRecord_eq_ok (fun f => ?_) ?_ ?_ ?_ ?_
  · cases f <;>
      simp [Field.read, Field.name, entriesField?, textField?, boolField?, field?, Record.field?, looseRecord,
        Record.get?_cons, sameKey_text, get?, tightLayer, Value.isTrue]
    all_goals rfl
  · simp [hooksField?, mapField?, Record.field?, looseRecord, Record.get?_cons, sameKey_text]
    rfl
  all_goals simp [mapField?, Record.field?, looseRecord, Record.get?_cons, sameKey_text, tightLayer, Value.record?]

/-- Such a record is read as what its values come to; the layer is read back as it is, and so is what it makes of the
lowest layer. -/
theorem ofRecord_toRecord_loose : ofRecord looseRecord = .ok tightLayer ∧
    ofRecord tightLayer.toRecord = .ok tightLayer ∧
    ofRecord (Layer.default.merge tightLayer).toRecord = .ok (Layer.default.merge tightLayer) := by
  obtain ⟨obtained, reread, -⟩ := ofRecord_toRecord_of_obtained
  exact ⟨ofRecord_looseRecord, reread _ _ ofRecord_looseRecord,
    obtained _ (.merge .default (.read ofRecord_looseRecord))⟩

end StaticSite.Layer
