import Mathlib.Data.List.Induction
import StaticSite.Data.Binding
import StaticSite.Proofs.Text.File

/-!
# The accessors of a binding

`Bindings.array?`, `Bindings.arrayKey` and `Bindings.data` each work out for themselves what a template is bound
to: a partial is made into pages from the first two, an ordinary page has its data from the third. They agree
(`accessors_agree`), since they find the same entry of the table (`find_cases`) and a data file that is read twice
gives the same value (`Data.load`), resolved from the same spelling of its path.
-/

namespace StaticSite

variable {t : FileTree} {cwd p : Path} {r : Record} {b : Bindings}

theorem Value.list_or_not (v : Value) : (∃ items, v = .list items) ∨ ∀ items, v ≠ .list items := by
  cases v <;> simp

theorem Value.map_or_not (v : Value) : (∃ entries, v = .map entries) ∨ ∀ entries, v ≠ .map entries := by
  cases v <;> simp

/-! ## Data files -/

namespace Data

variable {configured : String}

theorem loadRecord_of_error {fault : Fault} (h : load t cwd configured = .error fault) :
    loadRecord t cwd configured = .error fault := by
  simp only [loadRecord, h]; rfl

theorem loadRecord_of_list {items : List Value} (h : load t cwd configured = .ok (.list items)) :
    loadRecord t cwd configured =
      .ok [(.text (deriveKey (Path.resolve cwd (Path.ofString configured)).name), .list items)] := by
  simp only [loadRecord, h]; rfl

theorem loadRecord_of_map {entries : Record} (h : load t cwd configured = .ok (.map entries)) :
    loadRecord t cwd configured = .ok entries := by
  simp only [loadRecord, h]; rfl

theorem loadRecord_of_other {v : Value} (h : load t cwd configured = .ok v) (noList : ∀ items, v ≠ .list items)
    (noMap : ∀ entries, v ≠ .map entries) :
    loadRecord t cwd configured = .error ⟨configured, Path.resolve cwd (Path.ofString configured), .shape⟩ := by
  simp only [loadRecord, h]
  cases v with
  | list items => exact absurd rfl (noList items)
  | map entries => exact absurd rfl (noMap entries)
  | _ => rfl

end Data

namespace Bindings

/-! ## The entry of a template -/

/-- The key of a table denotes the template. -/
def denotes (cwd template : Path) : Value → Bool
  | .text key => Path.resolve cwd template == Path.resolve cwd (Path.ofString key)
  | _ => false

/-- The value that a table gives a template: that of the last key that denotes it. -/
def bound? (cwd : Path) (r : Record) (template : Path) : Option Value :=
  (r.reverse.find? fun e => denotes cwd template e.1).map (·.2)

@[simp] theorem bound?_append (e : Value × Value) :
    bound? cwd (r ++ [e]) p = if denotes cwd p e.1 then some e.2 else bound? cwd r p := by
  unfold bound?
  rw [List.reverse_append, List.reverse_singleton, List.singleton_append, List.find?_cons]
  cases denotes cwd p e.1 <;> rfl

/-- What an entry adds to a table. -/
theorem insert_eq_ok {e : Value × Value} {b' : Bindings} (h : b.insert e = .ok b') :
    ∃ key binding, e.1 = .text key ∧ Binding.classify b.cwd e.2 = .ok binding ∧
      b' = { b with table := (b.absolute (Path.ofString key), binding) :: b.table } := by
  obtain ⟨key, v⟩ := e
  cases key with
  | text key =>
    simp only [insert] at h
    split at h
    · cases h
    · obtain ⟨binding, classified, h⟩ := bind_eq_ok_iff.1 h
      exact ⟨key, binding, rfl, classified, (Except.ok.inj h).symm⟩
  | _ => cases h

/-- A table without its last entry was one before that entry was added. -/
theorem ofRecord_append_eq_ok {e : Value × Value} (h : ofRecord cwd (r ++ [e]) = .ok b) :
    ∃ before key binding, ofRecord cwd r = .ok before ∧ e.1 = .text key ∧
      Binding.classify before.cwd e.2 = .ok binding ∧
      b = { before with table := (before.absolute (Path.ofString key), binding) :: before.table } := by
  simp only [ofRecord, List.foldlM_append] at h
  obtain ⟨before, hr, h⟩ := bind_eq_ok_iff.1 h
  simp only [List.foldlM_cons, List.foldlM_nil, bind_pure] at h
  obtain ⟨key, binding, named, classified, same⟩ := insert_eq_ok h
  exact ⟨before, key, binding, hr, named, classified, same⟩

theorem cwd_ofRecord (h : ofRecord cwd r = .ok b) : b.cwd = cwd := by
  induction r using List.reverseRecOn generalizing b with
  | nil => cases h; rfl
  | append_singleton r e ih =>
    obtain ⟨before, key, binding, hr, -, -, rfl⟩ := ofRecord_append_eq_ok h
    have same : before.cwd = cwd := ih hr
    exact same

/-- A template's binding is the table's value for it, classified. -/
theorem classify_bound? (h : ofRecord cwd r = .ok b) :
    (bound? cwd r p).elim (.ok .unbound) (Binding.classify cwd) = .ok (b.find p) := by
  -- from the end of the table, as the later of two entries for a template counts
  induction r using List.reverseRecOn generalizing b with
  | nil => cases h; rfl
  | append_singleton r e ih =>
    obtain ⟨before, key, binding, hr, named, classified, rfl⟩ := ofRecord_append_eq_ok h
    have same : before.cwd = cwd := cwd_ofRecord hr
    simp only [find, absolute, same, List.lookup_cons, bound?_append, named, denotes]
    rw [same] at classified
    cases Path.resolve cwd p == Path.resolve cwd (Path.ofString key) with
    | true => exact classified
    | false =>
      have earlier := ih hr
      rwa [find, absolute, same] at earlier

/-- What a template can be bound to, and what the table holds for it then. -/
theorem find_cases (h : ofRecord cwd r = .ok b) (p : Path) :
    (bound? cwd r p = none ∧ b.find p = .unbound) ∨
    (∃ v entries, bound? cwd r p = some v ∧ v.record? = some entries ∧ b.find p = .object entries) ∨
    (∃ v items, bound? cwd r p = some v ∧ v.items? = some items ∧ b.find p = .array items) ∨
    ∃ configured, bound? cwd r p = some (.text configured) ∧
      b.find p = .file (Path.resolve cwd (Path.ofString configured)) configured := by
  have classified := classify_bound? h (p := p)
  cases hv : bound? cwd r p with
  | none => rw [hv] at classified; exact .inl ⟨rfl, (Except.ok.inj classified).symm⟩
  | some v =>
    rw [hv, Option.elim_some] at classified
    unfold Binding.classify at classified
    split at classified
    · dsimp only at classified
      split at classified
      · cases classified
      · exact .inr (.inr (.inr ⟨_, rfl, (Except.ok.inj classified).symm⟩))
    · split at classified
      · exact .inr (.inl ⟨v, _, rfl, ‹_›, (Except.ok.inj classified).symm⟩)
      · exact .inr (.inr (.inl ⟨v, _, rfl, ‹_›, (Except.ok.inj classified).symm⟩))
      · cases classified

/-! ## Templates that are bound to a file -/

section File

variable {resolved : Path} {configured : String}

theorem array?_of_error (found : b.find p = .file resolved configured) {fault : Data.Fault}
    (h : Data.load t b.cwd configured = .error fault) : b.array? t p = .error fault := by
  simp only [array?, found, h]; rfl

theorem array?_of_list (found : b.find p = .file resolved configured) {items : List Value}
    (h : Data.load t b.cwd configured = .ok (.list items)) : b.array? t p = .ok (some items) := by
  simp only [array?, found, h]; rfl

theorem array?_of_other (found : b.find p = .file resolved configured) {v : Value}
    (h : Data.load t b.cwd configured = .ok v) (noList : ∀ items, v ≠ .list items) : b.array? t p = .ok none := by
  simp only [array?, found, h]
  cases v with
  | list items => exact absurd rfl (noList items)
  | _ => rfl

end File

/-! ## Agreement -/

/-- An object that a table's value gives: itself, or the one in the file that it names. -/
inductive GivesObject (t : FileTree) (cwd : Path) : Value → Record → Prop where
  | inline {v : Value} {entries : Record} (h : v.record? = some entries) : GivesObject t cwd v entries
  | file {configured : String} {entries : Record} (h : Data.load t cwd configured = .ok (.map entries)) :
    GivesObject t cwd (.text configured) entries

/-- A template that is bound to an array has it as its data, under the key of the array. The accessors fail alike;
and where there is no array, the data is an object or nothing, or it fails as the file holds something else. -/
theorem accessors_agree (h : ofRecord cwd r = .ok b) (t : FileTree) (p : Path) :
    (∀ items, b.array? t p = .ok (some items) → b.data t p = .ok [(.text (b.arrayKey p), .list items)]) ∧
    (∀ fault, b.array? t p = .error fault → b.data t p = .error fault) ∧
    (b.array? t p = .ok none →
      (bound? cwd r p = none ∧ b.data t p = .ok []) ∨
      (∃ v entries, bound? cwd r p = some v ∧ GivesObject t cwd v entries ∧ b.data t p = .ok entries) ∨
      ∃ configured v, bound? cwd r p = some (.text configured) ∧ Data.load t cwd configured = .ok v ∧
        (∀ entries, v ≠ .map entries) ∧ (∀ items, v ≠ .list items) ∧
        b.data t p = .error ⟨configured, Path.resolve cwd (Path.ofString configured), .shape⟩) := by
  have home : b.cwd = cwd := cwd_ofRecord h
  obtain ⟨hv, hf⟩ | ⟨v, entries, hv, hr, hf⟩ | ⟨v, items, hv, -, hf⟩ | ⟨configured, hv, hf⟩ := find_cases h p
  · simp [array?, data, hf, hv]
  · simp only [array?, data, hf]
    exact ⟨nofun, nofun, fun _ => .inr (.inl ⟨v, entries, hv, .inline hr, rfl⟩)⟩
  · simp [array?, data, arrayKey, hf]
  · rw [← home] at hv hf ⊢
    have file : b.data t p = Data.loadRecord t b.cwd configured := by rw [data, hf]
    have key : b.arrayKey p = deriveKey (Path.resolve b.cwd (Path.ofString configured)).name := by rw [arrayKey, hf]
    rw [file, key, hv]
    cases hl : Data.load t b.cwd configured with
    | error fault =>
      rw [array?_of_error hf hl, Data.loadRecord_of_error hl]
      exact ⟨nofun, fun _ failed => by cases failed; rfl, nofun⟩
    | ok v =>
      obtain ⟨items, rfl⟩ | noList := v.list_or_not
      · rw [array?_of_list hf hl, Data.loadRecord_of_list hl]
        exact ⟨fun _ given => by cases given; rfl, nofun, nofun⟩
      · rw [array?_of_other hf hl noList]
        refine ⟨nofun, nofun, fun _ => .inr ?_⟩
        obtain ⟨entries, rfl⟩ | noMap := v.map_or_not
        · exact .inl ⟨_, entries, rfl, .file hl, Data.loadRecord_of_map hl⟩
        · exact .inr ⟨configured, v, rfl, hl, noMap, noList, Data.loadRecord_of_other hl noList noMap⟩

/-- An array in the file `/p/d-2.json`. -/
def arrayTree : FileTree :=
  ⟨[(["p"], .dir), (["p", "data"], .dir), (["p", "d-2.json"], .file "[{}]".toUTF8)]⟩

/-- Two entries for the template `site/_a.j2`, of which the second one counts, and one that names no file. -/
def arrayTable : Record := [(.text "site/_a.j2", .list []), (.text "site/./_a.j2", .text "data/../d-2.json"),
  (.text "site/_b.j2", .text "no.json")]

def arrayBindings : Bindings where
  cwd := ⟨.slash, ["p"]⟩
  table := [(⟨.slash, ["p", "site", "_b.j2"]⟩, .file ⟨.slash, ["p", "no.json"]⟩ "no.json"),
    (⟨.slash, ["p", "site", "_a.j2"]⟩, .file ⟨.slash, ["p", "d-2.json"]⟩ "data/../d-2.json"),
    (⟨.slash, ["p", "site", "_a.j2"]⟩, .array [])]

def siteFile (name : String) : Path := ⟨.relative, ["site", name]⟩

theorem ofRecord_arrayTable : ofRecord ⟨.slash, ["p"]⟩ arrayTable = .ok arrayBindings := by rfl

theorem array?_a : arrayBindings.array? arrayTree (siteFile "_a.j2") = .ok (some [.map []]) := by
  have resolved : Path.resolve ⟨.slash, ["p"]⟩ (Path.ofString "data/../d-2.json") = ⟨.slash, ["p", "d-2.json"]⟩ := by
    decide +kernel
  have content : arrayTree.read ⟨.slash, ["p", "d-2.json"]⟩ = .ok "[{}]".toUTF8 := by rfl
  have file : Json.readFile arrayTree ⟨.slash, ["p", "d-2.json"]⟩ = .ok (.list [.map []]) := by
    rw [Json.readFile_text content]
    rfl
  have found : arrayBindings.find (siteFile "_a.j2") = .file ⟨.slash, ["p", "d-2.json"]⟩ "data/../d-2.json" := by rfl
  refine array?_of_list found ?_
  unfold Data.load
  rw [arrayBindings, resolved]
  dsimp only
  rw [if_neg (by decide +kernel), file]
  rfl

/-- An array is found under the name of its file, however its path and that of the template are spelt. The data of the
second template fails as its array does; the third one has neither. -/
theorem accessors_agree_respelt :
    arrayBindings.data arrayTree (siteFile "_a.j2") = .ok [(.text "D_2_JSON", .list [.map []])] ∧
    (∃ fault, arrayBindings.array? arrayTree (siteFile "_b.j2") = .error fault ∧
      arrayBindings.data arrayTree (siteFile "_b.j2") = .error fault) ∧
    arrayBindings.data arrayTree (siteFile "_c.j2") = .ok [] := by
  have key : arrayBindings.arrayKey (siteFile "_a.j2") = "D_2_JSON" := by decide +kernel
  have missing : arrayBindings.array? arrayTree (siteFile "_b.j2") = .error
      ⟨"no.json", ⟨.slash, ["p", "no.json"]⟩, .file (.os (.refused .notFound ⟨.slash, ["p", "no.json"]⟩))⟩ := by rfl
  have agree := fun name => accessors_agree ofRecord_arrayTable arrayTree (siteFile name)
  refine ⟨key ▸ (agree "_a.j2").1 _ array?_a, ⟨_, missing, (agree "_b.j2").2.1 _ missing⟩, ?_⟩
  obtain ⟨-, h⟩ | ⟨v, _, hv, -⟩ | ⟨_, v, hv, -⟩ := (agree "_c.j2").2.2 (by rfl)
  · exact h
  · cases hv
  · cases hv

end Bindings

end StaticSite
