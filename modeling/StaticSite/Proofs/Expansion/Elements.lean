import StaticSite.Expansion.Partial
import StaticSite.Proofs.Failing
import StaticSite.Proofs.Value.Text

/-!
# Elements of a partial

What becomes of an element (`elementPage_cases`): it has a page if it is an object with a text or a number for a name
that can name a file, and otherwise it is skipped for what it lacks. Only an integer with too many digits to be written
stops the expansion. Pages and skips come in the order of the elements, each index once (`perm_range`).
-/

namespace StaticSite

namespace Expansion

variable {template : Path} {ext s : String} {item v : Value} {items : List Value} {entries : Record}
  {results : List (Except SkipReason Page)} {page : Page} {reason : SkipReason}

/-! ## Names of elements -/

/-- The text of a name: of a text or a number, not of a truth value. -/
inductive NameText : Value → String → Prop where
  | text (s : String) : NameText (.text s) s
  | int (n : Int) : NameText (.int n) (toString n)
  | float (x : Binary64) : NameText (.float x) x.text

/-- The text can name a page. -/
def IsPageName (s : String) : Prop := s ≠ "" ∧ '/' ∉ s.toList ∧ '\\' ∉ s.toList ∧ s ≠ "." ∧ s ≠ ".."

instance : DecidablePred IsPageName := fun _ => inferInstanceAs (Decidable (_ ∧ _))

/-- The integer has too many digits to be written. -/
def TooLong (n : Int) : Prop := Number.unwritable ≤ n.natAbs

theorem isWritable_iff {n : Int} : Number.isWritable n = true ↔ ¬ TooLong n := by
  rw [Number.isWritable, decide_eq_true_iff, TooLong, Nat.not_le]

theorem NameText.ne_null (h : NameText v s) : v ≠ .null := by
  cases h <;> nofun

theorem NameText.unique {s' : String} (h : NameText v s) (h' : NameText v s') : s = s' := by
  cases h <;> cases h' <;> rfl

theorem NameText.toText (text : NameText v s) (short : ∀ n, v = .int n → ¬ TooLong n) : v.toText = .ok s := by
  cases text with
  | text => rfl
  | float => rfl
  | int n => exact if_pos (isWritable_iff.2 (short n rfl))

theorem usable?_of_isPageName (h : IsPageName s) : usable? s = some s := by
  obtain ⟨filled, slash, backslash, dot, up⟩ := h
  simp [usable?, filled, slash, backslash, dot, up]

theorem usable?_of_not_isPageName (h : ¬ IsPageName s) : usable? s = none := by
  refine if_pos ?_
  by_contra fine
  simp only [not_or] at fine
  exact h fine

theorem mem_toString_int {n : Int} {c : Char} (h : c ∈ (toString n).toList) : c = '-' ∨ c.isDigit = true := by
  have digits : ∀ {m : Nat}, c ∈ (Nat.repr m).toList → c.isDigit = true := fun hm => by
    rw [Nat.repr, String.toList_ofList] at hm
    exact Nat.isDigit_of_mem_toDigits (by decide) (by decide) hm
  cases n with
  | ofNat m => exact .inr (digits h)
  | negSucc m =>
    have signed : toString (Int.negSucc m) = "-" ++ Nat.repr (m + 1) := rfl
    rw [signed, String.toList_append] at h
    exact (List.mem_append.1 h).imp List.mem_singleton.1 digits

/-- Every integer can name a page. -/
theorem isPageName_toString (n : Int) : IsPageName (toString n) := by
  have absent : ∀ {c}, c ≠ '-' → c.isDigit = false → c ∉ (toString n).toList := fun sign digit hm => by
    rcases mem_toString_int hm with minus | isDigit
    · exact sign minus
    · rw [digit] at isDigit; cases isDigit
  have dotless : '.' ∉ (toString n).toList := absent (by decide) (by decide)
  refine ⟨toString_int_ne_empty n, absent (by decide) (by decide), absent (by decide) (by decide), ?_, ?_⟩
  · exact fun dot => dotless (by rw [dot]; decide)
  · exact fun up => dotless (by rw [up]; decide)

theorem pageName?_of_tooLong {n : Int} (h : TooLong n) : pageName? (.int n) = .error .tooLongToWrite := by
  have text : (Value.int n).toText = .error .tooLongToWrite := if_neg fun writable => isWritable_iff.1 writable h
  rw [pageName?, text]
  rfl

theorem pageName?_of_text (text : NameText v s) (short : ∀ n, v = .int n → ¬ TooLong n) :
    pageName? v = .ok (usable? s) := by
  cases text with
  | text => rfl
  | float => rfl
  | int n =>
    rw [pageName?, (NameText.int n).toText short]
    rfl

theorem pageName?_cases (short : ∀ n, v = .int n → ¬ TooLong n) :
    (∃ s, NameText v s ∧ IsPageName s ∧ pageName? v = .ok (some s)) ∨
      (∀ s, NameText v s → ¬ IsPageName s) ∧ pageName? v = .ok none := by
  by_cases named : ∃ s, NameText v s
  · obtain ⟨s, text⟩ := named
    have found := pageName?_of_text text short
    by_cases fine : IsPageName s
    · exact .inl ⟨s, text, fine, by rw [found, usable?_of_isPageName fine]⟩
    · exact .inr ⟨fun s' text' => text.unique text' ▸ fine, by rw [found, usable?_of_not_isPageName fine]⟩
  · refine .inr ⟨fun s text => absurd ⟨s, text⟩ named, ?_⟩
    cases v with
    | text s => exact absurd ⟨s, .text s⟩ named
    | int n => exact absurd ⟨_, .int n⟩ named
    | float x => exact absurd ⟨_, .float x⟩ named
    | _ => rfl

/-! ## Elements -/

/-- The element is an object of the entries, whose name has the text `s`, which can name a page. -/
def GivesPage (item : Value) (entries : Record) (s : String) : Prop :=
  item.record? = some entries ∧ ∃ v, entries.field? "name" = some v ∧ NameText v s ∧ IsPageName s

/-- The element is an object whose name is an integer that is too long to be written. -/
def Overlong (item : Value) : Prop :=
  ∃ entries n, item.record? = some entries ∧ entries.field? "name" = some (.int n) ∧ TooLong n

/-- What is wrong with an element that is skipped. -/
def Lacks (item : Value) : SkipReason → Prop
  | .noName => ∀ entries v, item.record? = some entries → entries.field? "name" = some v → v = .null
  | .badName => ∃ entries v, item.record? = some entries ∧ entries.field? "name" = some v ∧ v ≠ .null ∧
      ∀ s, NameText v s → ¬ IsPageName s

theorem Lacks.not_givesPage (h : Lacks item reason) : ¬ GivesPage item entries s := by
  rintro ⟨isRecord, v, field, text, fine⟩
  cases reason with
  | noName =>
    obtain rfl := h entries v isRecord field
    cases text
  | badName =>
    obtain ⟨entries', v', isRecord', field', -, none⟩ := h
    cases isRecord.symm.trans isRecord'
    cases field.symm.trans field'
    exact none s text fine

/-- The page of an element with these entries, named by `s`. -/
def pageNamed (template : Path) (ext : String) (entries : Record) (s : String) : Page :=
  { template, place := some (pagePlace template ext s), data := entries }

theorem nameOf?_of_field? (field : entries.field? "name" = some v) (filled : v ≠ .null) : nameOf? entries = some v := by
  unfold nameOf?
  rw [field]
  split
  · next null => exact absurd (Option.some.inj null) filled
  · rfl

theorem nameOf?_eq_none (h : ∀ v, entries.field? "name" = some v → v = .null) : nameOf? entries = none := by
  unfold nameOf?
  split
  · rfl
  · next other =>
    cases field : entries.field? "name" with
    | none => rfl
    | some v => exact absurd (h v field ▸ field) other

theorem elementPage_of_record (isRecord : item.record? = some entries) (named : nameOf? entries = some v) :
    elementPage template ext item = (pageName? v).map fun
      | some name => .ok (pageNamed template ext entries name)
      | none => .error .badName := by
  have found : item.record?.bind nameOf? = some v := by rw [isRecord]; exact named
  unfold elementPage
  rw [found, isRecord]
  rfl

theorem elementPage_of_overlong (h : Overlong item) : elementPage template ext item = .error .tooLongToWrite := by
  obtain ⟨entries, n, isRecord, field, long⟩ := h
  rw [elementPage_of_record isRecord (nameOf?_of_field? field nofun), pageName?_of_tooLong long]
  rfl

/-- An element has its page, or is skipped for what it lacks. -/
theorem elementPage_cases (template : Path) (ext : String) (short : ¬ Overlong item) :
    (∃ entries s, GivesPage item entries s ∧
        elementPage template ext item = .ok (.ok (pageNamed template ext entries s))) ∨
      ∃ reason, Lacks item reason ∧ elementPage template ext item = .ok (.error reason) := by
  by_cases named : ∃ entries v, item.record? = some entries ∧ entries.field? "name" = some v ∧ v ≠ .null
  · obtain ⟨entries, v, isRecord, field, filled⟩ := named
    rw [elementPage_of_record isRecord (nameOf?_of_field? field filled)]
    have short' : ∀ n, v = .int n → ¬ TooLong n := by
      rintro n rfl long
      exact short ⟨entries, n, isRecord, field, long⟩
    rcases pageName?_cases short' with ⟨s, text, fine, found⟩ | ⟨none, found⟩
    · exact .inl ⟨entries, s, ⟨isRecord, v, field, text, fine⟩, by rw [found]; rfl⟩
    · exact .inr ⟨.badName, ⟨entries, v, isRecord, field, filled, none⟩, by rw [found]; rfl⟩
  · have lacks : Lacks item .noName := fun entries v isRecord field => by
      by_contra filled
      exact named ⟨entries, v, isRecord, field, filled⟩
    have missing : item.record?.bind nameOf? = none := by
      cases isRecord : item.record? with
      | none => rfl
      | some entries => exact nameOf?_eq_none fun v field => lacks entries v isRecord field
    refine .inr ⟨.noName, lacks, ?_⟩
    unfold elementPage
    rw [missing]
    cases item.record? <;> rfl

theorem not_overlong_of_ok {result : Except SkipReason Page} (h : elementPage template ext item = .ok result) :
    ¬ Overlong item := fun long => by cases h.symm.trans (elementPage_of_overlong long)

theorem page_of_elementPage (h : elementPage template ext item = .ok (.ok page)) :
    ∃ entries s, GivesPage item entries s ∧ page = pageNamed template ext entries s := by
  rcases elementPage_cases template ext (not_overlong_of_ok h) with ⟨entries, s, gives, own⟩ | ⟨_, -, skip⟩
  · cases h.symm.trans own
    exact ⟨entries, s, gives, rfl⟩
  · cases h.symm.trans skip

theorem lacks_of_elementPage (h : elementPage template ext item = .ok (.error reason)) : Lacks item reason := by
  rcases elementPage_cases template ext (not_overlong_of_ok h) with ⟨_, _, -, own⟩ | ⟨_, lacks, skip⟩
  · cases h.symm.trans own
  · cases h.symm.trans skip
    exact lacks

/-- An element that holds nothing but its name. -/
def namedBy (name : Value) : Value := .map [(.text "name", name)]

theorem field?_namedBy (name : Value) : Record.field? [(.text "name", name)] "name" = some name := by
  have key : (Value.text "name").sameKey (.text "name") = true := by decide +kernel
  simp [Record.field?, Record.get?, key]

/-! ## Pages and skips by index -/

/-- The pages of the elements that have one, with the indices of the elements. -/
def keptOf (results : List (Except SkipReason Page)) : List (Nat × Page) :=
  results.zipIdx.filterMap fun (r, i) => r.toOption.map fun page => (i, page)

/-- Why the others have none, with the indices of the elements. -/
def skippedOf (results : List (Except SkipReason Page)) : List (Nat × SkipReason) :=
  results.zipIdx.filterMap fun (r, i) => match r with
    | .error reason => some (i, reason)
    | .ok _ => none

theorem mem_keptOf {i : Nat} : (i, page) ∈ keptOf results ↔ results[i]? = some (.ok page) := by
  simp only [keptOf, List.mem_filterMap, Prod.exists, List.mem_zipIdx_iff_getElem?]
  constructor
  · rintro ⟨r, j, found, made⟩
    obtain ⟨page', isPage, same⟩ := Option.map_eq_some_iff.1 made
    cases same
    rw [found, toOption_eq_some_iff.1 isPage]
  · exact fun found => ⟨_, i, found, rfl⟩

theorem mem_skippedOf {i : Nat} : (i, reason) ∈ skippedOf results ↔ results[i]? = some (.error reason) := by
  simp only [skippedOf, List.mem_filterMap, Prod.exists, List.mem_zipIdx_iff_getElem?]
  constructor
  · rintro ⟨r, j, found, made⟩
    cases r with
    | ok => cases made
    | error => cases made; exact found
  · exact fun found => ⟨_, i, found, rfl⟩

theorem pages_keptOf (results : List (Except SkipReason Page)) :
    (keptOf results).map (·.2) = results.filterMap (·.toOption) := by
  have front : results.filterMap (·.toOption) = (results.zipIdx.map (·.1)).filterMap (·.toOption) := by
    rw [List.zipIdx_map_fst]
  rw [front, keptOf, List.map_filterMap, List.filterMap_map]
  refine congrArg (fun f => List.filterMap f results.zipIdx) (funext fun (r, i) => ?_)
  cases r <;> rfl

theorem partialPages_eq_ok {pages : List Page} {skips : List (Nat × SkipReason)} :
    partialPages template ext items = .ok (pages, skips) ↔ ∃ results,
      items.mapM (elementPage template ext) = .ok results ∧ pages = (keptOf results).map (·.2) ∧
        skips = skippedOf results := by
  unfold partialPages
  rw [bind_eq_ok_iff]
  refine exists_congr fun results => and_congr_right fun _ => ?_
  rw [pages_keptOf]
  constructor
  · intro h; cases h; exact ⟨rfl, rfl⟩
  · rintro ⟨rfl, rfl⟩; rfl

/-- What is taken from the elements of a list, with their indices, is in the order of the elements. -/
theorem pairwise_filterMap_zipIdx {α β : Type} {f : α × Nat → Option (Nat × β)}
    (own : ∀ p q, f p = some q → q.1 = p.2) (as : List α) :
    ((as.zipIdx.filterMap f).map (·.1)).Pairwise (· < ·) := by
  have increasing : as.zipIdx.Pairwise fun p q => p.2 < q.2 := by
    refine List.pairwise_map.1 ?_
    rw [List.zipIdx_map_snd]
    exact List.pairwise_lt_range'
  rw [List.pairwise_map]
  refine increasing.filterMap f fun p q less p' hp q' hq => ?_
  rw [own p p' hp, own q q' hq]
  exact less

theorem pairwise_keptOf (results : List (Except SkipReason Page)) :
    ((keptOf results).map (·.1)).Pairwise (· < ·) := by
  refine pairwise_filterMap_zipIdx (fun ⟨r, i⟩ q h => ?_) results
  cases r with
  | error => cases h
  | ok => cases h; rfl

theorem pairwise_skippedOf (results : List (Except SkipReason Page)) :
    ((skippedOf results).map (·.1)).Pairwise (· < ·) := by
  refine pairwise_filterMap_zipIdx (fun ⟨r, i⟩ q h => ?_) results
  cases r with
  | error => cases h; rfl
  | ok => cases h

/-- Each index is that of a page or of a skip, and of one of them only. -/
theorem perm_range (results : List (Except SkipReason Page)) :
    ((keptOf results).map (·.1) ++ (skippedOf results).map (·.1)).Perm (List.range results.length) := by
  refine (List.perm_ext_iff_of_nodup ?_ List.nodup_range).2 fun i => ?_
  · refine List.nodup_append.2 ⟨(pairwise_keptOf results).imp Nat.ne_of_lt,
      (pairwise_skippedOf results).imp Nat.ne_of_lt, fun i hi j hj same => ?_⟩
    obtain ⟨⟨i, page⟩, kept, rfl⟩ := List.mem_map.1 hi
    obtain ⟨⟨j, reason⟩, skipped, rfl⟩ := List.mem_map.1 hj
    obtain rfl : i = j := same
    cases (mem_keptOf.1 kept).symm.trans (mem_skippedOf.1 skipped)
  · rw [List.mem_append, List.mem_range]
    constructor
    · rintro (hi | hi)
      · obtain ⟨⟨i, page⟩, kept, rfl⟩ := List.mem_map.1 hi
        exact (List.getElem?_eq_some_iff.1 (mem_keptOf.1 kept)).1
      · obtain ⟨⟨i, reason⟩, skipped, rfl⟩ := List.mem_map.1 hi
        exact (List.getElem?_eq_some_iff.1 (mem_skippedOf.1 skipped)).1
    · intro inside
      cases found : results[i] with
      | ok page =>
        have kept := mem_keptOf.2 ((List.getElem?_eq_getElem inside).trans (congrArg some found))
        exact .inl (List.mem_map.2 ⟨(i, page), kept, rfl⟩)
      | error reason =>
        have skipped := mem_skippedOf.2 ((List.getElem?_eq_getElem inside).trans (congrArg some found))
        exact .inr (List.mem_map.2 ⟨(i, reason), skipped, rfl⟩)

theorem elementPage_of_getElem? (h : items.mapM (elementPage template ext) = .ok results) {i : Nat} :
    (∀ {r}, results[i]? = some r → ∃ item, items[i]? = some item ∧ elementPage template ext item = .ok r) ∧
      (∀ {item}, items[i]? = some item → ∃ r, results[i]? = some r ∧ elementPage template ext item = .ok r) := by
  obtain ⟨same, each⟩ := List.forall₂_iff_get.1 (forall₂_of_mapM h)
  constructor
  · intro r found
    obtain ⟨inside, rfl⟩ := List.getElem?_eq_some_iff.1 found
    exact ⟨_, List.getElem?_eq_getElem (same ▸ inside), each i (same ▸ inside) inside⟩
  · intro item found
    obtain ⟨inside, rfl⟩ := List.getElem?_eq_some_iff.1 found
    exact ⟨_, List.getElem?_eq_getElem (same ▸ inside), each i inside (same ▸ inside)⟩

theorem fails_elements_iff :
    Fails (items.mapM (elementPage template ext)) ↔ ∃ item ∈ items, Overlong item := by
  rw [fails_mapM]
  refine exists_congr fun item => and_congr_right fun _ => ⟨fun fails => ?_, fun long => ?_⟩
  · by_contra short
    rcases elementPage_cases template ext short with ⟨_, _, -, made⟩ | ⟨_, -, made⟩
    · exact not_fails_iff.2 ⟨_, made⟩ fails
    · exact not_fails_iff.2 ⟨_, made⟩ fails
  · rw [elementPage_of_overlong long]
    exact (failsIn_error _).2 trivial

end Expansion

end StaticSite
