import StaticSite.Proofs.Config.Merging
import StaticSite.Proofs.Value.Union

/-!
# Layers as an algebra

Layers that are merged are a monoid in which every layer is idempotent (`merge_laws`): how the layers of a stack are
grouped does not matter, one that sets nothing may be left out, and one that is given twice counts once. The merge of a
stack is read off its layers: a field has the value of the last one that sets it, a map has the keys of all of them in
the order in which they are first seen, each with its value in the last layer that has it.
-/

namespace StaticSite.Layer

open Record (IsMap)

variable {a b c : Layer} {layers : List Layer} {m : MapField}

/-! ## Layers and their fields -/

theorem hookRecord_injective : Function.Injective hookRecord :=
  List.map_injective_iff.2 fun (k, v) (l, w) h => by simpa using h

/-- A layer is known from its fields and its maps. -/
theorem ext_of_fields (fields : ∀ f, a.get? f = b.get? f) (maps : ∀ m, a.map? m = b.map? m) : a = b := by
  have hooks : a.hooks = b.hooks := Option.map_injective hookRecord_injective (maps .hooks)
  obtain ⟨⟩ := a
  obtain ⟨⟩ := b
  rw [mk.injEq]
  exact ⟨fields .entries, fields .out, fields .delimiter, fields .openDelimiter, fields .closeDelimiter,
    fields .rmWhitespace, fields .strictUndefined, maps .globalData, maps .data, fields .copyPattern, fields .sitemap,
    fields .sitemapPrefix, fields .noWrite, fields .parallel, fields .templateExt, hooks, maps .watchOptions⟩

/-- A map is known from its entries and from whether it is set. -/
theorem map?_ext (unset : a.map? m = none ↔ b.map? m = none) (entries : a.entriesOf m = b.entriesOf m) :
    a.map? m = b.map? m := by
  unfold entriesOf at entries
  cases ha : a.map? m with
  | none => exact (unset.1 ha).symm
  | some r =>
    cases hb : b.map? m with
    | none => cases ha.symm.trans (unset.2 hb)
    | some s =>
      rw [ha, hb] at entries
      exact congrArg some entries

/-- What the maps of the layer hold are maps: their keys are scalars, no two of which are one key. -/
def Keyed (c : Layer) : Prop := ∀ m, IsMap (c.entriesOf m)

instance (c : Layer) : Decidable c.Keyed :=
  decidable_of_iff (∀ m ∈ [MapField.globalData, .data, .hooks, .watchOptions], IsMap (c.entriesOf m))
    ⟨fun h m => h m (by cases m <;> simp), fun h m _ => h m⟩

theorem get?_empty (f : Field) : get? {} f = none := by
  cases f <;> rfl

theorem map?_empty (m : MapField) : map? {} m = none := by
  cases m <;> rfl

theorem entriesOf_empty (m : MapField) : entriesOf {} m = [] := by
  rw [entriesOf, map?_empty, Option.getD_none]

theorem keyed_empty : Keyed {} := fun m => entriesOf_empty m ▸ Record.isMap_nil

theorem Keyed.merge (ha : a.Keyed) (hb : b.Keyed) : (a.merge b).Keyed := fun m => by
  rw [entriesOf_merge]
  exact (ha m).update (hb m)

theorem Keyed.proper (h : c.Keyed) : c.Proper := fun m => (h m).distinct

/-! ## Laws -/

theorem merge_assoc (ha : a.Keyed) (hb : b.Keyed) (hc : c.Keyed) : (a.merge b).merge c = a.merge (b.merge c) := by
  refine ext_of_fields (fun f => ?_) fun m => map?_ext ?_ ?_
  · simp only [get?_merge]
    cases c.get? f <;> rfl
  · simp only [map?_merge_eq_none_iff, and_assoc]
  · simp only [entriesOf_merge]
    exact Record.update_assoc (ha m) (hb m) (hc m)

theorem empty_merge (h : c.Keyed) : merge {} c = c := by
  refine ext_of_fields (fun f => ?_) fun m => map?_ext ?_ ?_
  · rw [get?_merge, get?_empty]
    cases c.get? f <;> rfl
  · rw [map?_merge_eq_none_iff, map?_empty, and_iff_right rfl]
  · rw [entriesOf_merge, entriesOf_empty, Record.nil_update (h m)]

theorem merge_self (h : c.Keyed) : c.merge c = c := by
  refine ext_of_fields (fun f => ?_) fun m => map?_ext ?_ ?_
  · rw [get?_merge]
    cases c.get? f <;> rfl
  · rw [map?_merge_eq_none_iff, and_self]
  · rw [entriesOf_merge, Record.update_self (h m)]

/-! ## Stacks -/

theorem foldl_merge (layers : List Layer) : layers.foldl merge {} = mergeAll layers.reverse := by
  rw [mergeAll, List.foldr_reverse]

theorem keyed_mergeAll (h : ∀ c ∈ layers, c.Keyed) : (mergeAll layers).Keyed := by
  induction layers with
  | nil => exact keyed_empty
  | cons c layers ih =>
    obtain ⟨first, rest⟩ := List.forall_mem_cons.1 h
    exact (ih rest).merge first

/-- The keys of all layers come in the order in which they are first seen, from the lowest layer up. -/
theorem keys_mergeAll_eq (h : ∀ c ∈ layers, c.Keyed) (m : MapField) : ((mergeAll layers).entriesOf m).keys =
    distinctBy Value.key? (layers.reverse.flatMap fun c => (c.entriesOf m).keys) := by
  induction layers with
  | nil => exact congrArg Record.keys (entriesOf_empty m)
  | cons c layers ih =>
    obtain ⟨first, rest⟩ := List.forall_mem_cons.1 h
    rw [mergeAll_cons, entriesOf_merge, Record.keys_update_eq (keyed_mergeAll rest m) (first m).scalar, ih rest,
      distinctBy_distinctBy_append, List.reverse_cons, List.flatMap_append, List.flatMap_singleton]

/-- Merging is associative, the layer that sets nothing is neutral, and a layer merged with itself is itself. Merged one
over the other, layers set a field to what the last of them sets it to. A map is unset only if it is unset in all of
them; otherwise it has all their keys in the order in which they are first seen, each with its value in the last layer
that has it. -/
theorem merge_laws :
    (∀ a b c : Layer, a.Keyed → b.Keyed → c.Keyed → (a.merge b).merge c = a.merge (b.merge c)) ∧
    (∀ c : Layer, c.Keyed → merge {} c = c ∧ c.merge {} = c ∧ c.merge c = c) ∧
    ∀ layers : List Layer, (∀ c ∈ layers, c.Keyed) →
      (∀ f, (layers.foldl merge {}).get? f = layers.reverse.findSome? (·.get? f)) ∧
      ∀ m, ((layers.foldl merge {}).map? m = none ↔ ∀ c ∈ layers, c.map? m = none) ∧
        ((layers.foldl merge {}).entriesOf m).keys =
          distinctBy Value.key? (layers.flatMap fun c => (c.entriesOf m).keys) ∧
        ∀ key, key.key?.isSome →
          (layers.foldl merge {}).lookup m key = layers.reverse.findSome? (·.lookup m key) := by
  refine ⟨fun a b c => merge_assoc, fun c h => ⟨empty_merge h, merge_empty c, merge_self h⟩, fun layers h => ?_⟩
  have keyed : ∀ c ∈ layers.reverse, c.Keyed := fun c hc => h c (List.mem_reverse.1 hc)
  rw [foldl_merge]
  refine ⟨get?_mergeAll _, fun m => ⟨?_, ?_, fun key => lookup_mergeAll (fun c hc => (keyed c hc).proper) m⟩⟩
  · rw [map?_mergeAll_eq_none_iff]
    simp only [List.mem_reverse]
  · rw [keys_mergeAll_eq keyed, List.reverse_reverse]

/-- Three layers, of which the second spells a key of the first in another way. -/
def lowLayer : Layer where
  out := some "dist"
  globalData := some [(.text "title", .text "Home"), (.bool true, .text "yes")]
  hooks := some [("done", "demo:first")]

def midLayer : Layer where
  globalData := some [(.text "lang", .text "en"), (.int 1, .text "one")]
  data := some []

def topLayer : Layer where
  out := some "public"
  globalData := some [(.text "title", .text "Docs")]
  hooks := some [("after_copy_file", "demo:copied"), ("done", "demo:last")]

/-- The truth value and the number are one key, which stays as it was first spelled and takes the later value. -/
theorem merge_laws_three :
    (∀ c ∈ [lowLayer, midLayer, topLayer], c.Keyed) ∧
      (lowLayer.merge midLayer).merge topLayer = lowLayer.merge (midLayer.merge topLayer) ∧
      ([lowLayer, midLayer, topLayer].foldl merge {}).get? .out = some "public" ∧
      (([lowLayer, midLayer, topLayer].foldl merge {}).entriesOf .globalData).keys =
        [.text "title", .bool true, .text "lang"] ∧
      ([lowLayer, midLayer, topLayer].foldl merge {}).lookup .globalData (.bool true) = some (.text "one") := by
  have keyed : ∀ c ∈ [lowLayer, midLayer, topLayer], c.Keyed := by decide +kernel
  obtain ⟨assoc, -, stack⟩ := merge_laws
  obtain ⟨fields, maps⟩ := stack [lowLayer, midLayer, topLayer] keyed
  obtain ⟨-, keys, values⟩ := maps .globalData
  simp only [List.forall_mem_cons] at keyed
  refine ⟨by simpa using keyed, assoc _ _ _ keyed.1 keyed.2.1 keyed.2.2.1, fields .out, ?_, ?_⟩
  · rw [keys]
    simp [distinctBy, Value.key?, lowLayer, midLayer, topLayer, entriesOf, map?]
  · rw [values _ rfl]
    simp [lookup, entriesOf, map?, lowLayer, midLayer, topLayer, Record.get?_cons, Value.sameKey_iff, Value.key?]

end StaticSite.Layer
