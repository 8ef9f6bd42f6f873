import StaticSite.Json.Reader
import StaticSite.Proofs.Failing
import StaticSite.Proofs.Value.Record
import StaticSite.Yaml.Reader

/-!
# Values with distinct keys

No map in a value that is read from JSON or from YAML has a key twice (`wellKeyed_json`, `wellKeyed_yaml`). So the parts
of such a value are looked up by the laws of records.
-/

namespace StaticSite

open Record (Distinct)

namespace Value

/-- No map in the value has a key twice. -/
inductive WellKeyed : Value → Prop where
  | scalar {v : Value} : v.key?.isSome → WellKeyed v
  | back (level : Nat) (isMap : Bool) : WellKeyed (.back level isMap)
  /-- The items of a set are keys themselves. -/
  | set (items : List Value) : WellKeyed (.set items)
  | list {items : List Value} : (∀ v ∈ items, WellKeyed v) → WellKeyed (.list items)
  | tuple {items : List Value} : (∀ v ∈ items, WellKeyed v) → WellKeyed (.tuple items)
  | map {entries : Record} : Distinct entries → (∀ e ∈ entries, WellKeyed e.2) → WellKeyed (.map entries)
  | knot {v : Value} : WellKeyed v → WellKeyed (.knot v)

variable {v whole : Value}

theorem WellKeyed.tie (h : WellKeyed v) : WellKeyed v.tie := by
  unfold Value.tie
  exact iteInduction (motive := WellKeyed) (fun _ => .knot h) fun _ => h

/-! ## Knots -/

theorem reenterAll_eq_map (whole : Value) (depth : Nat) (items : List Value) :
    reenterAll whole depth items = items.map (reenter whole depth) := by
  induction items with
  | nil => rfl
  | cons v vs ih => rw [reenterAll, ih, List.map_cons]

theorem reenterEntries_eq_map (whole : Value) (depth : Nat) (entries : Record) :
    reenterEntries whole depth entries = entries.map fun e => (e.1, reenter whole depth e.2) := by
  induction entries with
  | nil => rfl
  | cons e es ih => rw [reenterEntries, ih, List.map_cons]

theorem reenter_of_scalar (h : v.key?.isSome) (depth : Nat) : reenter whole depth v = v := by
  cases v <;> first | rfl | cases h

theorem distinct_mapValues {r : Record} (h : Distinct r) (f : Value → Value) :
    Distinct (r.map fun e => (e.1, f e.2)) :=
  List.pairwise_map.2 h

/-- A knot is opened without touching a key. -/
theorem WellKeyed.reenter (hw : WellKeyed whole) (h : WellKeyed v) (depth : Nat) :
    WellKeyed (Value.reenter whole depth v) := by
  induction h generalizing depth with
  | scalar h => exact (reenter_of_scalar h depth).symm ▸ .scalar h
  | back level isMap =>
    rw [Value.reenter]
    split
    · exact hw
    · exact .back level isMap
  | set items => exact .set items
  | list _ ih =>
    rw [Value.reenter, reenterAll_eq_map]
    exact .tie (.list (List.forall_mem_map.2 fun v hv => ih v hv (depth + 1)))
  | tuple _ ih =>
    rw [Value.reenter, reenterAll_eq_map]
    exact .tuple (List.forall_mem_map.2 fun v hv => ih v hv (depth + 1))
  | map hd _ ih =>
    rw [Value.reenter, reenterEntries_eq_map]
    exact .tie (.map (distinct_mapValues hd _) (List.forall_mem_map.2 fun e he => ih e he (depth + 1)))
  | knot h => exact .knot h

theorem WellKeyed.entries {r : Record} (h : WellKeyed (.map r)) : Distinct r ∧ ∀ e ∈ r, WellKeyed e.2 := by
  cases h with
  | scalar h => cases h
  | map hd he => exact ⟨hd, he⟩

/-- The entries of a map, or of a knot that is one. -/
theorem WellKeyed.record (h : WellKeyed v) {r : Record} (hr : v.record? = some r) :
    Distinct r ∧ ∀ e ∈ r, WellKeyed e.2 := by
  unfold record? at hr
  split at hr
  · cases hr
    exact h.entries
  · next entries =>
    cases hr
    rw [reenterEntries_eq_map]
    have inner : WellKeyed (.map entries) := by
      cases h with
      | scalar h => cases h
      | knot h => exact h
    exact ⟨distinct_mapValues inner.entries.1 _, List.forall_mem_map.2 fun e he => h.reenter (inner.entries.2 e he) 0⟩
  · cases hr

theorem WellKeyed.ofEntries {entries : List (Value × Value)} (h : ∀ e ∈ entries, WellKeyed e.2) :
    WellKeyed (.map (Record.ofEntries entries)) := by
  refine .map (Record.distinct_ofEntries entries) fun e he => ?_
  rcases Record.mem_update he with ⟨f, hf, -⟩ | ⟨f, hf, same⟩
  · cases hf
  · exact same ▸ h f hf

theorem WellKeyed.setEntry {r : Record} {k : Value} (h : WellKeyed (.map r)) (hv : WellKeyed v) :
    WellKeyed (.map (r.set k v)) := by
  refine .map (h.entries.1.set k v) fun e he => ?_
  rcases Record.mem_set he with he | ⟨same, -⟩
  · exact h.entries.2 e he
  · exact same ▸ hv

end Value

open Value (WellKeyed)

/-! ## JSON -/

namespace Json

variable {n depth : Nat} {cs rest : List Char} {v : Value}

theorem isScalar_unsignedNumber {negative : Bool} {whole : List Char}
    (h : unsignedNumber negative whole cs = .ok (v, rest)) : v.key?.isSome := by
  unfold unsignedNumber at h
  dsimp only at h
  split at h
  · split at h
    · cases h
    · cases h; rfl
  · cases h; rfl

theorem isScalar_number (h : number cs = .ok (v, rest)) : v.key?.isSome := by
  unfold number at h
  dsimp only at h
  split at h
  · exact isScalar_unsignedNumber h
  · split at h
    · exact isScalar_unsignedNumber h
    · cases h
  · cases h

theorem isScalar_word? (h : word? cs = some (v, rest)) : v.key?.isSome := by
  obtain ⟨⟨w, found⟩, hf, e⟩ := Option.map_eq_some_iff.1 h
  cases e
  have scalars : ∀ word ∈ words, word.2.key?.isSome := by decide
  exact scalars _ (List.mem_of_find?_eq_some hf)

/-- What the scanners read, by induction on the number of steps. -/
theorem wellKeyed_scan (n : Nat) :
    (∀ depth cs v rest, value n depth cs = .ok (v, rest) → WellKeyed v) ∧
    (∀ depth before cs v rest, (∀ v ∈ before, WellKeyed v) → items n depth before cs = .ok (v, rest) → WellKeyed v) ∧
    ∀ depth before cs v rest, WellKeyed (.map before) → members n depth before cs = .ok (v, rest) → WellKeyed v := by
  induction n with
  | zero => exact ⟨nofun, nofun, nofun⟩
  | succ n ih =>
    obtain ⟨values, lists, maps⟩ := ih
    refine ⟨fun depth cs v rest h => ?_, fun depth before cs v rest hb h => ?_, fun depth before cs v rest hb h => ?_⟩
    · unfold value at h
      split at h
      · obtain ⟨_, -, e⟩ := map_eq_ok_iff.1 h
        cases e
        exact .scalar rfl
      · cases h
      · cases h
      · split at h
        · cases h
          exact .map .nil (List.forall_mem_nil _)
        · exact maps _ _ _ _ _ (.map .nil (List.forall_mem_nil _)) h
      · split at h
        · cases h
          exact .list (List.forall_mem_nil _)
        · exact lists _ _ _ _ _ (List.forall_mem_nil _) h
      · split at h
        · next found hw =>
          cases h
          exact .scalar (isScalar_word? hw)
        · exact .scalar (isScalar_number h)
    · unfold items at h
      obtain ⟨⟨w, after⟩, hw, h⟩ := bind_eq_ok_iff.1 h
      have more : ∀ v ∈ w :: before, WellKeyed v := List.forall_mem_cons.2 ⟨values _ _ _ _ hw, hb⟩
      dsimp only at h
      split at h
      · cases h
        exact .list fun v hv => more v (List.mem_reverse.1 hv)
      · exact lists _ _ _ _ _ more h
      · cases h
    · unfold members at h
      split at h
      · obtain ⟨⟨name, after⟩, -, h⟩ := bind_eq_ok_iff.1 h
        dsimp only at h
        split at h
        · obtain ⟨⟨w, after⟩, hw, h⟩ := bind_eq_ok_iff.1 h
          have more := hb.setEntry (k := .text (String.ofList name)) (values _ _ _ _ hw)
          dsimp only at h
          split at h
          · cases h
            exact more
          · exact maps _ _ _ _ _ more h
          · cases h
        · cases h
      · cases h

theorem wellKeyed_json {s : String} (h : read s = .ok v) : WellKeyed v := by
  have h := mapError_eq_ok_iff.1 h
  unfold document at h
  split at h
  · cases h
  · obtain ⟨⟨w, rest⟩, hw, h⟩ := bind_eq_ok_iff.1 h
    dsimp only at h
    split at h
    · cases h
      exact (wellKeyed_scan _).1 _ _ _ _ hw
    · cases h

end Json

/-! ## YAML -/

namespace Yaml

theorem isScalar_momentOf {stamp : Stamp} {v : Value} (h : momentOf stamp = .ok v) : v.key?.isSome := by
  unfold momentOf at h
  dsimp only at h
  split at h
  · obtain ⟨_, -, h⟩ := bind_eq_ok_iff.1 h
    cases h; rfl
  · obtain ⟨_, -, h⟩ := bind_eq_ok_iff.1 h
    obtain ⟨_, -, h⟩ := bind_eq_ok_iff.1 h
    split at h
    · cases h
    split at h
    · cases h
    split at h
    · cases h
    · cases h; rfl

theorem isScalar_scalarValue {tag : Tag} {s : String} {v : Value} (h : scalarValue tag s = .ok v) : v.key?.isSome := by
  unfold scalarValue at h
  split at h
  · cases h; rfl
  · cases h; rfl
  · dsimp only at h
    split at h
    · cases h; rfl
    · cases h
  · obtain ⟨_, -, rfl⟩ := map_eq_ok_iff.1 h
    rfl
  · obtain ⟨_, -, rfl⟩ := map_eq_ok_iff.1 h
    rfl
  · obtain ⟨_, -, rfl⟩ := map_eq_ok_iff.1 h
    rfl
  · split at h
    · exact isScalar_momentOf (mapError_eq_ok_iff.1 h)
    · cases h
  · cases h

theorem isScalar_scalarOf (d : Document) (node : Node) : ((d.scalarOf node).toOption.getD .null).key?.isSome := by
  cases h : d.scalarOf node with
  | error => rfl
  | ok v =>
    unfold Document.scalarOf at h
    split at h
    · cases h
    · cases h
    · exact isScalar_scalarValue h

/-- The value of a node, by induction on the number of steps. -/
theorem wellKeyed_value (d : Document) (n : Nat) (around : List (Option String)) (anchor : Option String) (node : Node) :
    WellKeyed (d.value n around anchor node) := by
  induction n generalizing around anchor node with
  | zero => exact .scalar rfl
  | succ n ih =>
    have tied {v : Value} (h : WellKeyed v) : WellKeyed (if anchor.isSome then v.tie else v) :=
      iteInduction (motive := WellKeyed) (fun _ => h.tie) fun _ => h
    unfold Document.value
    split
    · contradiction
    · next bound =>
      cases bound
      split
      · exact .back _ _
      · exact ih ..
    · next bound _ =>
      cases bound
      dsimp only
      split
      · exact tied (.list (List.forall_mem_map.2 fun item _ => ih ..))
      · refine tied (.list fun v hv => ?_)
        obtain ⟨item, -, h⟩ := List.mem_filterMap.1 hv
        split at h
        · cases h
          exact .tuple (by simp [ih])
        · cases h
      · exact tied (.ofEntries (List.forall_mem_map.2 fun e _ => ih ..))
      · exact .set _
      · exact .scalar (isScalar_scalarOf d _)

theorem wellKeyed_yaml {cs : List Char} {v : Value} (h : read cs = .ok v) : WellKeyed v := by
  unfold read at h
  obtain ⟨tokens, -, h⟩ := bind_eq_ok_iff.1 h
  obtain ⟨_ | d, -, h⟩ := bind_eq_ok_iff.1 h
  · cases h
    exact .scalar rfl
  · dsimp only at h
    split at h
    · cases h
    · cases h
      exact wellKeyed_value ..

end Yaml

end StaticSite
