import Mathlib.Logic.Basic
import StaticSite.Proofs.Glob.AnyGroup
import StaticSite.Proofs.Path.Text

/-!
# Patterns as trees

A pattern whose braces all belong to groups of alternatives is a tree: characters and groups in a row, where each
alternative of a group is such a row again. `BraceTree.choices` reads the tree from the top and takes one alternative
of every group. Expansion works on the written text, from the innermost groups outwards, and gives the same texts
(`expandBraces_text`).
-/

namespace StaticSite.Glob

/-! ## Trees and their texts -/

/-- The character means nothing but itself. A comma does so only outside of groups. -/
structure IsPlain (inside : Bool) (c : Char) : Prop where
  opening : c ≠ '{'
  closing : c ≠ '}'
  comma : inside = true → c ≠ ','

instance (inside : Bool) (c : Char) : Decidable (IsPlain inside c) :=
  decidable_of_iff (c ≠ '{' ∧ c ≠ '}' ∧ (inside = true → c ≠ ','))
    ⟨fun ⟨opening, closing, comma⟩ => ⟨opening, closing, comma⟩, fun h => ⟨h.opening, h.closing, h.comma⟩⟩

/-- A part of a pattern: a row of characters and groups, inside of a group or not, or all that a group holds. -/
inductive Part where
  | row (inside : Bool)
  | alternatives
  deriving DecidableEq, Repr

/-- The part stands in a group. -/
def Part.inside : Part → Bool
  | .row inside => inside
  | .alternatives => true

inductive BraceTree : Part → Type where
  | done {inside : Bool} : BraceTree (.row inside)
  | char {inside : Bool} (c : Char) (plain : IsPlain inside c) (rest : BraceTree (.row inside)) :
      BraceTree (.row inside)
  | group {inside : Bool} (alternatives : BraceTree .alternatives) (rest : BraceTree (.row inside)) :
      BraceTree (.row inside)
  /-- The last two alternatives. -/
  | pair (first second : BraceTree (.row true)) : BraceTree .alternatives
  | more (first : BraceTree (.row true)) (others : BraceTree .alternatives) : BraceTree .alternatives

namespace BraceTree

variable {part : Part} {inside : Bool}

/-- The tree as it stands in a pattern. -/
def write {part : Part} : BraceTree part → List Char
  | .done => []
  | .char c _ rest => c :: rest.write
  | .group alternatives rest => '{' :: alternatives.write ++ '}' :: rest.write
  | .pair first second => first.write ++ ',' :: second.write
  | .more first others => first.write ++ ',' :: others.write

/-- The texts that the tree stands for: one alternative is taken of every group. -/
def choices {part : Part} : BraceTree part → List (List Char)
  | .done => [[]]
  | .char c _ rest => rest.choices.map (c :: ·)
  | .group alternatives rest => alternatives.choices.flatMap fun a => rest.choices.map (a ++ ·)
  | .pair first second => first.choices ++ second.choices
  | .more first others => first.choices ++ others.choices

/-- The whole pattern. -/
def text (t : BraceTree (.row false)) : String := String.ofList t.write

/-- What the whole pattern stands for. -/
def meaning (t : BraceTree (.row false)) : List String := t.choices.map String.ofList

/-! ## Choices -/

theorem choices_ne_nil (t : BraceTree part) : t.choices ≠ [] := by
  induction t with
  | done => simp [choices]
  | char c plain rest ih => simpa [choices] using ih
  | group alternatives rest ihAlternatives ihRest =>
    obtain ⟨a, ha⟩ := List.exists_mem_of_ne_nil _ ihAlternatives
    obtain ⟨s, hs⟩ := List.exists_mem_of_ne_nil _ ihRest
    rw [choices]
    exact List.ne_nil_of_mem (List.mem_flatMap.2 ⟨a, ha, List.mem_map_of_mem hs⟩)
  | pair first second ihFirst => simp [choices, ihFirst]
  | more first others ihFirst => simp [choices, ihFirst]

theorem mem_of_mem_choices {t : BraceTree part} {s : List Char} (hs : s ∈ t.choices) {c : Char} (hc : c ∈ s) :
    c ∈ t.write := by
  induction t generalizing s with
  | done =>
    rw [choices, List.mem_singleton] at hs
    exact absurd hc (by simp [hs])
  | char d plain rest ih =>
    rw [choices, List.mem_map] at hs
    obtain ⟨s, hs, rfl⟩ := hs
    exact (List.mem_cons.1 hc).elim (fun he => he ▸ List.mem_cons_self) fun hc => List.mem_cons_of_mem _ (ih hs hc)
  | group alternatives rest ihAlternatives ihRest =>
    rw [choices, List.mem_flatMap] at hs
    obtain ⟨a, ha, with_rest⟩ := hs
    obtain ⟨s, hs, rfl⟩ := List.mem_map.1 with_rest
    rw [write, List.mem_append, List.mem_cons, List.mem_cons]
    exact (List.mem_append.1 hc).imp (fun hc => .inr (ihAlternatives ha hc)) fun hc => .inr (ihRest hs hc)
  | pair first second ihFirst ihSecond =>
    rw [write, List.mem_append, List.mem_cons]
    rw [choices, List.mem_append] at hs
    exact hs.imp (ihFirst · hc) fun hs => .inr (ihSecond hs hc)
  | more first others ihFirst ihOthers =>
    rw [write, List.mem_append, List.mem_cons]
    rw [choices, List.mem_append] at hs
    exact hs.imp (ihFirst · hc) fun hs => .inr (ihOthers hs hc)

theorem plain_of_mem_choices {t : BraceTree part} {s : List Char} (hs : s ∈ t.choices) {c : Char} (hc : c ∈ s) :
    IsPlain part.inside c := by
  induction t generalizing s with
  | done =>
    rw [choices, List.mem_singleton] at hs
    exact absurd hc (by simp [hs])
  | char d plain rest ih =>
    rw [choices, List.mem_map] at hs
    obtain ⟨s, hs, rfl⟩ := hs
    rcases List.mem_cons.1 hc with rfl | hc
    · exact plain
    · exact ih hs hc
  | group alternatives rest ihAlternatives ihRest =>
    rw [choices, List.mem_flatMap] at hs
    obtain ⟨a, ha, with_rest⟩ := hs
    obtain ⟨s, hs, rfl⟩ := List.mem_map.1 with_rest
    rcases List.mem_append.1 hc with hc | hc
    · have plain := ihAlternatives ha hc
      exact ⟨plain.opening, plain.closing, fun _ => plain.comma rfl⟩
    · exact ihRest hs hc
  | pair first second ihFirst ihSecond =>
    rw [choices, List.mem_append] at hs
    exact hs.elim (ihFirst · hc) (ihSecond · hc)
  | more first others ihFirst ihOthers =>
    rw [choices, List.mem_append] at hs
    exact hs.elim (ihFirst · hc) (ihOthers · hc)

/-! ## Rows of choices -/

/-- One choice for every alternative, or one for the row itself: what stands there when the groups are gone. -/
def rows {part : Part} : BraceTree part → List (List (List Char))
  | .pair first second => first.choices.flatMap fun a => second.rows.map (a :: ·)
  | .more first others => first.choices.flatMap fun a => others.rows.map (a :: ·)
  | .done => [[[]]]
  | .char c _ rest => rest.choices.map fun s => [c :: s]
  | .group alternatives rest => alternatives.choices.flatMap fun a => rest.choices.map fun s => [a ++ s]

theorem rows_row (t : BraceTree (.row inside)) : t.rows = t.choices.map fun s => [s] := by
  cases t with
  | done => rfl
  | char c plain rest => simp [rows, choices]
  | group alternatives rest => simp [rows, choices, List.map_flatMap, Function.comp_def]

/-- Where a row stands, one piece is left. -/
theorem exists_row_iff (t : BraceTree (.row inside)) {P : List (List Char) → Prop} :
    (∃ row ∈ t.rows, P row) ↔ ∃ s ∈ t.choices, P [s] := by
  simp [rows_row]

theorem rows_ne_nil (t : BraceTree part) : t.rows ≠ [] := by
  induction t with
  | done | char | group => simpa [rows_row] using choices_ne_nil _
  | pair first others _ ihOthers | more first others _ ihOthers =>
    obtain ⟨a, ha⟩ := List.exists_mem_of_ne_nil _ first.choices_ne_nil
    obtain ⟨row, hrow⟩ := List.exists_mem_of_ne_nil _ ihOthers
    exact List.ne_nil_of_mem (List.mem_flatMap.2 ⟨a, ha, List.mem_map_of_mem hrow⟩)

/-- What stands in some row is a choice, and each choice stands in some row. -/
theorem exists_mem_rows_iff (t : BraceTree part) {P : List Char → Prop} :
    (∃ row ∈ t.rows, ∃ s ∈ row, P s) ↔ ∃ s ∈ t.choices, P s := by
  induction t with
  | done | char | group => simpa using exists_row_iff _ (P := fun row => ∃ s ∈ row, P s)
  | pair first others _ ihOthers | more first others _ ihOthers =>
    obtain ⟨a, ha⟩ := List.exists_mem_of_ne_nil _ first.choices_ne_nil
    obtain ⟨row, hrow⟩ := List.exists_mem_of_ne_nil _ others.rows_ne_nil
    simp only [rows, choices, List.mem_flatMap, List.mem_map, List.mem_append]
    constructor
    · rintro ⟨_, ⟨a, ha, row, hrow, rfl⟩, s, hs, holds⟩
      rcases List.mem_cons.1 hs with rfl | hs
      · exact ⟨s, .inl ha, holds⟩
      · obtain ⟨s, hs, holds⟩ := ihOthers.1 ⟨row, hrow, s, hs, holds⟩
        exact ⟨s, .inr hs, holds⟩
    · rintro ⟨s, hs | hs, holds⟩
      · exact ⟨s :: row, ⟨s, hs, row, hrow, rfl⟩, s, List.mem_cons_self, holds⟩
      · obtain ⟨row, hrow, s, hs, holds⟩ := ihOthers.2 ⟨s, hs, holds⟩
        exact ⟨a :: row, ⟨a, ha, row, hrow, rfl⟩, s, List.mem_cons_of_mem _ hs, holds⟩

theorem plain_of_mem_rows {t : BraceTree part} {row : List (List Char)} (h : row ∈ t.rows) {s : List Char}
    (hs : s ∈ row) {c : Char} (hc : c ∈ s) : IsPlain part.inside c := by
  obtain ⟨_, choice, rfl⟩ := (t.exists_mem_rows_iff (P := (· = s))).1 ⟨row, h, s, hs, rfl⟩
  exact plain_of_mem_choices choice hc

theorem ne_nil_of_mem_rows {t : BraceTree part} {row : List (List Char)} (h : row ∈ t.rows) : row ≠ [] := by
  cases t with
  | done | char | group =>
    rw [rows_row] at h
    obtain ⟨s, -, rfl⟩ := List.mem_map.1 h
    exact List.cons_ne_nil _ _
  | pair | more =>
    obtain ⟨a, -, h⟩ := List.mem_flatMap.1 h
    obtain ⟨row, -, rfl⟩ := List.mem_map.1 h
    exact List.cons_ne_nil _ _

theorem joinWith_cons_of_mem_rows {t : BraceTree part} {row : List (List Char)} (h : row ∈ t.rows) (a : List Char) :
    Text.joinWith ',' (a :: row) = a ++ ',' :: Text.joinWith ',' row := by
  obtain ⟨b, rest, rfl⟩ := List.exists_cons_of_ne_nil (ne_nil_of_mem_rows h)
  rfl

theorem comma_mem_of_mem_rows {t : BraceTree .alternatives} {row : List (List Char)} (h : row ∈ t.rows) :
    ',' ∈ Text.joinWith ',' row := by
  cases t with
  | pair | more =>
    obtain ⟨a, -, h⟩ := List.mem_flatMap.1 h
    obtain ⟨row, hrow, rfl⟩ := List.mem_map.1 h
    simp [joinWith_cons_of_mem_rows hrow]

/-- A group that holds a row of choices can be replaced, by each of them. -/
theorem splits_of_mem_rows {t : BraceTree .alternatives} {row : List (List Char)} (h : row ∈ t.rows)
    (head tail : List Char) :
    (⟨head, Text.joinWith ',' row, tail⟩ : Group).Splits ∧
      (⟨head, Text.joinWith ',' row, tail⟩ : Group).alternatives = row := by
  have plain : ∀ {c : Char}, c ∈ Text.joinWith ',' row → c = ',' ∨ IsPlain true c := fun hc => by
    rcases Text.mem_joinWith hc with rfl | ⟨piece, hp, hc⟩
    · exact .inl rfl
    · exact .inr (plain_of_mem_rows h hp hc)
  refine ⟨⟨⟨fun hm => ?_, fun hm => ?_⟩, comma_mem_of_mem_rows h⟩, ?_⟩
  · exact (plain hm).elim (by decide) fun plain => plain.opening rfl
  · exact (plain hm).elim (by decide) fun plain => plain.closing rfl
  · exact Text.splitOn_joinWith (ne_nil_of_mem_rows h) fun piece hp hm => (plain_of_mem_rows h hp hm).comma rfl rfl

/-! ## Expansion -/

variable {r : List Char}

/-- Once the groups in it are gone, a group is replaced by any choice of any of its alternatives. -/
theorem mem_expand_group {t : BraceTree .alternatives} (head tail : List Char)
    (inner : r ∈ expand (head ++ '{' :: t.write ++ '}' :: tail) ↔
      ∃ row ∈ t.rows, r ∈ expand (head ++ '{' :: Text.joinWith ',' row ++ '}' :: tail)) :
    r ∈ expand (head ++ '{' :: t.write ++ '}' :: tail) ↔ ∃ a ∈ t.choices, r ∈ expand (head ++ a ++ tail) := by
  rw [inner, ← exists_mem_rows_iff]
  refine exists_congr fun row => and_congr_right fun hrow => ?_
  obtain ⟨splits, alternatives⟩ := splits_of_mem_rows hrow head tail
  have opened := mem_expand_text splits (r := r)
  rwa [alternatives] at opened

/-- The groups of a part can be taken away wherever it stands. -/
theorem mem_expand_rows (t : BraceTree part) (head tail : List Char) :
    r ∈ expand (head ++ t.write ++ tail) ↔ ∃ row ∈ t.rows, r ∈ expand (head ++ Text.joinWith ',' row ++ tail) := by
  induction t generalizing head tail with
  | done => simp [write, rows, Text.joinWith]
  | char c plain rest ih =>
    have behind := (ih (head ++ [c]) tail).trans (exists_row_iff rest)
    refine Iff.trans ?_ (exists_row_iff _).symm
    simpa [write, choices, Text.joinWith] using behind
  | group alternatives rest ihAlternatives ihRest =>
    have inner := ihAlternatives (head ++ ['{']) ('}' :: (rest.write ++ tail))
    have replaced := mem_expand_group head (rest.write ++ tail) (by simpa using inner)
    have behind := fun a => (ihRest (head ++ a) tail).trans (exists_row_iff rest)
    calc
      r ∈ expand (head ++ (group alternatives rest).write ++ tail) ↔
          ∃ a ∈ alternatives.choices, r ∈ expand (head ++ a ++ rest.write ++ tail) := by
        simpa [write] using replaced
      _ ↔ ∃ a ∈ alternatives.choices, ∃ s ∈ rest.choices, r ∈ expand (head ++ a ++ s ++ tail) :=
        exists_congr fun a => and_congr_right fun _ => behind a
      _ ↔ ∃ s ∈ (group alternatives rest).choices, r ∈ expand (head ++ s ++ tail) := by
        simp [choices]
      _ ↔ _ := (exists_row_iff _ (P := fun row => r ∈ expand (head ++ Text.joinWith ',' row ++ tail))).symm
  | pair first others ihFirst ihOthers | more first others ihFirst ihOthers =>
    have before := (ihFirst head (',' :: others.write ++ tail)).trans (exists_row_iff first)
    have behind := fun a => ihOthers (head ++ a ++ [',']) tail
    calc
      r ∈ expand (head ++ (first.write ++ ',' :: others.write) ++ tail) ↔
          ∃ a ∈ first.choices, r ∈ expand (head ++ a ++ [','] ++ others.write ++ tail) := by
        simpa [Text.joinWith] using before
      _ ↔ ∃ a ∈ first.choices, ∃ row ∈ others.rows,
          r ∈ expand (head ++ a ++ [','] ++ Text.joinWith ',' row ++ tail) :=
        exists_congr fun a => and_congr_right fun _ => behind a
      _ ↔ ∃ a ∈ first.choices, ∃ row ∈ others.rows, r ∈ expand (head ++ Text.joinWith ',' (a :: row) ++ tail) := by
        refine exists_congr fun a => and_congr_right fun _ => exists_congr fun row => and_congr_right fun hrow => ?_
        simp [joinWith_cons_of_mem_rows hrow]
      _ ↔ _ := by simp [rows]

/-- A group in any place is replaced by the choices of its alternatives. -/
theorem mem_expand_alternatives (t : BraceTree .alternatives) (head tail : List Char) :
    r ∈ expand (head ++ '{' :: t.write ++ '}' :: tail) ↔ ∃ a ∈ t.choices, r ∈ expand (head ++ a ++ tail) :=
  mem_expand_group head tail (by simpa using t.mem_expand_rows (head ++ ['{']) ('}' :: tail))

/-- A row in any place is replaced by its choices. -/
theorem mem_expand_row (t : BraceTree (.row inside)) (head tail : List Char) :
    r ∈ expand (head ++ t.write ++ tail) ↔ ∃ s ∈ t.choices, r ∈ expand (head ++ s ++ tail) :=
  (t.mem_expand_rows head tail).trans (exists_row_iff t)

/-- The expansions of a pattern are, without repetition, what its tree stands for. -/
theorem expandBraces_text (t : BraceTree (.row false)) :
    (expandBraces t.text).Nodup ∧ ∀ s, s ∈ expandBraces t.text ↔ s ∈ t.meaning := by
  refine ⟨nodup_expandBraces _, fun s => ?_⟩
  have plain : ∀ {r}, r ∈ t.choices → expand r = [r] := fun hr =>
    expand_of_notMem fun hm => (plain_of_mem_choices hr hm).opening rfl
  have row := t.mem_expand_row (r := s.toList) [] []
  simp only [List.nil_append, List.append_nil] at row
  calc
    s ∈ expandBraces t.text ↔ s.toList ∈ expand t.write := by rw [mem_expandBraces, text, String.toList_ofList]
    _ ↔ ∃ r ∈ t.choices, s.toList ∈ expand r := row
    _ ↔ ∃ r ∈ t.choices, s.toList = r :=
      exists_congr fun r => and_congr_right fun hr => by rw [plain hr, List.mem_singleton]
    _ ↔ s ∈ t.meaning := by simp [meaning, ← String.toList_inj, eq_comm]

end BraceTree

end StaticSite.Glob
