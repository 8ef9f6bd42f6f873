import StaticSite.Proofs.Expansion.Places

/-!
# Matches and contributions

Where no match is at fault, an expansion is what its templates give, each at its first match
(`expandEntries_of_placed`). Otherwise the templates before the first such match still count: what they fail in is told
first (`expandEntries_of_misplaced`). So the user is told of a misplaced match just if nothing before it fails
(`isMistake_expandEntries_iff`).
-/

namespace StaticSite

/-! ## Results until the first fault -/

section UntilFault

variable {ε α : Type} {results : List (Except ε α)}

theorem untilFault_append {before : List (Except ε α)} (h : ∀ r ∈ before, ¬ Fails r) (rest : List (Except ε α)) :
    untilFault (before ++ rest) = (before.filterMap (·.toOption) ++ (untilFault rest).1, (untilFault rest).2) := by
  induction before with
  | nil => rfl
  | cons r before ih =>
    obtain ⟨a, rfl⟩ := not_fails_iff.1 (h r List.mem_cons_self)
    show (a :: (untilFault (before ++ rest)).1, (untilFault (before ++ rest)).2) = _
    rw [ih fun r hr => h r (List.mem_cons_of_mem _ hr)]
    rfl

theorem untilFault_of_good (h : ∀ r ∈ results, ¬ Fails r) :
    untilFault results = (results.filterMap (·.toOption), none) := by
  have := untilFault_append h []
  rwa [List.append_nil, untilFault, List.append_nil] at this

end UntilFault

/-- A list with an item of a kind has a first one. -/
theorem exists_first {α : Type} {P : α → Prop} {as : List α} (h : ∃ a ∈ as, P a) :
    ∃ before a after, as = before ++ a :: after ∧ (∀ c ∈ before, ¬ P c) ∧ P a := by
  induction as with
  | nil => obtain ⟨a, ha, -⟩ := h; cases ha
  | cons a as ih =>
    by_cases ha : P a
    · exact ⟨[], a, as, rfl, nofun, ha⟩
    · obtain ⟨before, c, after, rfl, first, hc⟩ := ih (by simpa [ha] using h)
      refine ⟨a :: before, c, after, rfl, ?_, hc⟩
      intro d hd
      rcases List.mem_cons.1 hd with rfl | hd
      · exact ha
      · exact first d hd

/-! ## What templates give together -/

namespace Expansion

variable {t : FileTree} {b : Bindings} {ext : String}

theorem append_assoc (x y z : Expansion) : (x.append y).append z = x.append (y.append z) := by
  simp [append]

@[simp] theorem empty_append (x : Expansion) : append {} x = x := rfl

@[simp] theorem append_empty (x : Expansion) : x.append {} = x := by
  simp [append]

theorem foldr_append (xs ys : List Expansion) :
    (xs ++ ys).foldr append {} = (xs.foldr append {}).append (ys.foldr append {}) := by
  induction xs with
  | nil => rfl
  | cons x xs ih => rw [List.cons_append, List.foldr_cons, ih, List.foldr_cons, append_assoc]

/-- Several expansions, one after the other. -/
theorem foldr_eq (xs : List Expansion) :
    xs.foldr append {} = ⟨xs.flatMap (·.pages), xs.flatMap (·.faults), xs.flatMap (·.skips)⟩ := by
  induction xs with
  | nil => rfl
  | cons x xs ih => rw [List.foldr_cons, ih]; rfl

theorem ofTemplates_eq_ok_iff {templates : List Path} {x : Expansion} :
    ofTemplates t b ext templates = .ok x ↔
      ∃ parts, List.Forall₂ (fun template part => ofTemplate t b ext template = .ok part) templates parts ∧
        x = parts.foldr append {} := by
  unfold ofTemplates
  rw [bind_eq_ok_iff]
  constructor
  · rintro ⟨parts, each, same⟩
    cases same
    exact ⟨parts, mapM_eq_ok_iff.1 each, rfl⟩
  · rintro ⟨parts, each, rfl⟩
    exact ⟨parts, mapM_eq_ok_iff.2 each, rfl⟩

theorem failsIn_ofTemplates_iff {P : EntryFault → Prop} {templates : List Path} :
    FailsIn P (ofTemplates t b ext templates) ↔ FailsIn P (templates.mapM (ofTemplate t b ext)) := by
  unfold ofTemplates
  rw [failsIn_bind]
  simp

theorem fails_ofTemplates_iff {templates : List Path} :
    Fails (ofTemplates t b ext templates) ↔ ∃ template ∈ templates, Fails (ofTemplate t b ext template) :=
  failsIn_ofTemplates_iff.trans fails_mapM

/-- What is beyond reach is no mistake in the patterns. -/
theorem not_isMistake_ofTemplate {template : Path} :
    ¬ FailsIn (·.isMistake = true) (ofTemplate t b ext template) := by
  rintro ⟨fault, hf, isMistake⟩
  unfold ofTemplate at hf
  split at hf
  · cases hf
  · split at hf
    · split at hf <;> cases hf
      cases isMistake
    · cases hf
    · split at hf <;> cases hf
      cases isMistake

theorem not_isMistake_ofTemplates {templates : List Path} :
    ¬ FailsIn (·.isMistake = true) (ofTemplates t b ext templates) := by
  rw [failsIn_ofTemplates_iff, failsIn_mapM]
  rintro ⟨_, _, _, -, -, h⟩
  exact not_isMistake_ofTemplate h

/-- When the contribution of a template is beyond reach. -/
theorem fails_ofTemplate_iff {template : Path} :
    Fails (ofTemplate t b ext template) ↔ template.isPartial = true ∧
      (FailsIn (fun fault => fault.isOfFile = false) (b.array? t template) ∨
        ∃ items, b.array? t template = .ok (some items) ∧ Fails (partialPages template ext items)) := by
  unfold ofTemplate
  cases template.isPartial with
  | false => simp
  | true =>
    cases b.array? t template with
    | error fault => cases h : fault.isOfFile <;> simp [h]
    | ok found =>
      cases found with
      | none => simp
      | some items =>
        cases h : partialPages template ext items with
        | error fault => simp [h]
        | ok found => simp [h]

end Expansion

/-! ## Templates of matches -/

variable {t : FileTree} {b : Bindings} {ext : String} {cwd : Path}

/-- The templates that matches are, in the order of their first matches. -/
def templatesAmong (cwd : Path) (ext : String) (found : List Path) : List Path :=
  distinct (found.filterMap fun p => (matchTemplate cwd ext p).toOption.join)

/-- The templates that the patterns find. -/
def templatesOf (t : FileTree) (cwd : Path) (ext : String) (patterns : List String) : List Path :=
  templatesAmong cwd ext (patterns.flatMap (Glob.files t cwd))

/-- A match of one of the patterns is no place for a template. -/
def Misplaced (t : FileTree) (cwd : Path) (ext : String) (patterns : List String) : Prop :=
  ∃ p ∈ patterns.flatMap (Glob.files t cwd), Fails (matchTemplate cwd ext p)

theorem mem_templatesAmong {found : List Path} {template : Path} :
    template ∈ templatesAmong cwd ext found ↔ ∃ p ∈ found, matchTemplate cwd ext p = .ok (some template) := by
  simp [templatesAmong, Option.join_eq_some_iff, toOption_eq_some_iff]

/-- The templates of matches whose results are in hand. -/
theorem templatesAmong_eq (found : List Path) : templatesAmong cwd ext found =
    distinct (((found.map (matchTemplate cwd ext)).filterMap (·.toOption)).filterMap id) := by
  rw [List.filterMap_map, List.filterMap_filterMap]
  rfl

theorem templatesAmong_append (found more : List Path) :
    templatesAmong cwd ext (found ++ more) = templatesAmong cwd ext found ++
      (templatesAmong cwd ext more).filter (· ∉ templatesAmong cwd ext found) := by
  unfold templatesAmong
  rw [List.filterMap_append, distinct_append]
  simp only [mem_distinct]

theorem templatesAmong_append_append {found again : List Path} (h : again ⊆ found) (more : List Path) :
    templatesAmong cwd ext (found ++ (again ++ more)) = templatesAmong cwd ext (found ++ more) := by
  unfold templatesAmong
  rw [List.filterMap_append, List.filterMap_append, List.filterMap_append]
  exact distinct_append_append (List.filterMap_subset _ h) _

/-- In what order the matches come decides at most about the order of the templates. -/
theorem templatesAmong_perm {found found' : List Path} (h : ∀ p, p ∈ found ↔ p ∈ found') :
    (templatesAmong cwd ext found).Perm (templatesAmong cwd ext found') := by
  refine (List.perm_ext_iff_of_nodup (nodup_distinct _) (nodup_distinct _)).2 fun template => ?_
  show template ∈ templatesAmong cwd ext found ↔ template ∈ templatesAmong cwd ext found'
  simp only [mem_templatesAmong, h]

/-- A match that is no place for a template is a mistake in its pattern. -/
theorem isMistake_of_match {p : Path} {fault : EntryFault} (h : matchTemplate cwd ext p = .error fault) :
    fault.isMistake = true := by
  unfold matchTemplate at h
  cases seen : relativeMatch cwd p with
  | error stop =>
    rw [seen] at h
    cases h
    unfold relativeMatch at seen
    split at seen
    · split at seen <;> cases seen
      rfl
    · cases seen
  | ok template =>
    rw [seen] at h
    dsimp only [bind, Except.bind] at h
    split at h
    · cases h
    · split at h <;> cases h
      rfl

/-! ## Expansions -/

theorem expandEntries_of_placed {patterns : List String} (h : ¬ Misplaced t b.cwd ext patterns) :
    expandEntries t b ext patterns = Expansion.ofTemplates t b ext (templatesOf t b.cwd ext patterns) := by
  have good : ∀ r ∈ matchesOf t b.cwd ext patterns, ¬ Fails r := by
    intro r hr fails
    obtain ⟨p, hp, rfl⟩ := List.mem_map.1 hr
    exact h ⟨p, hp, fails⟩
  unfold expandEntries
  rw [untilFault_of_good good, templatesOf, templatesAmong_eq]
  exact bind_pure _

/-- The templates before the first match at fault are expanded before the fault counts. -/
theorem expandEntries_of_misplaced {patterns : List String} {before after : List Path} {p : Path} {fault : EntryFault}
    (split : patterns.flatMap (Glob.files t b.cwd) = before ++ p :: after)
    (good : ∀ q ∈ before, ¬ Fails (matchTemplate b.cwd ext q)) (hp : matchTemplate b.cwd ext p = .error fault) :
    expandEntries t b ext patterns =
      Expansion.ofTemplates t b ext (templatesAmong b.cwd ext before) >>= fun _ => .error fault := by
  have results : ∀ r ∈ before.map (matchTemplate b.cwd ext), ¬ Fails r := by
    intro r hr fails
    obtain ⟨q, hq, rfl⟩ := List.mem_map.1 hr
    exact good q hq fails
  unfold expandEntries
  rw [matchesOf, split, List.map_append, untilFault_append results, List.map_cons, hp, untilFault, List.append_nil,
    templatesAmong_eq]
  rfl

/-- Matches that are not all right have a first one at fault. -/
theorem exists_first_misplaced {patterns : List String} (h : Misplaced t cwd ext patterns) :
    ∃ before p after fault, patterns.flatMap (Glob.files t cwd) = before ++ p :: after ∧
      (∀ q ∈ before, ¬ Fails (matchTemplate cwd ext q)) ∧ matchTemplate cwd ext p = .error fault := by
  obtain ⟨before, p, after, split, good, fault, hp, -⟩ := exists_first h
  exact ⟨before, p, after, fault, split, good, hp⟩

theorem expandEntries_eq_ok_iff {patterns : List String} {x : Expansion} :
    expandEntries t b ext patterns = .ok x ↔ ¬ Misplaced t b.cwd ext patterns ∧
      Expansion.ofTemplates t b ext (templatesOf t b.cwd ext patterns) = .ok x := by
  by_cases h : Misplaced t b.cwd ext patterns
  · obtain ⟨before, p, after, fault, split, good, hp⟩ := exists_first_misplaced h
    rw [expandEntries_of_misplaced split good hp, bind_eq_ok_iff]
    constructor
    · rintro ⟨_, -, stop⟩; cases stop
    · exact fun placed => absurd h placed.1
  · rw [expandEntries_of_placed h, and_iff_right h]

theorem fails_expandEntries_iff {patterns : List String} : Fails (expandEntries t b ext patterns) ↔
    Misplaced t b.cwd ext patterns ∨
      ∃ template ∈ templatesOf t b.cwd ext patterns, Fails (Expansion.ofTemplate t b ext template) := by
  rw [← Expansion.fails_ofTemplates_iff]
  by_cases h : Misplaced t b.cwd ext patterns
  · refine iff_of_true ?_ (.inl h)
    by_contra ok
    obtain ⟨x, hx⟩ := not_fails_iff.1 ok
    exact (expandEntries_eq_ok_iff.1 hx).1 h
  · rw [expandEntries_of_placed h, or_iff_right h]

/-- The user is told of a misplaced match if every template that is found before it can be expanded. -/
theorem isMistake_expandEntries_iff {patterns : List String} :
    FailsIn (·.isMistake = true) (expandEntries t b ext patterns) ↔
      ∃ before p after, patterns.flatMap (Glob.files t b.cwd) = before ++ p :: after ∧
        Fails (matchTemplate b.cwd ext p) ∧ (∀ q ∈ before, ¬ Fails (matchTemplate b.cwd ext q)) ∧
        ∀ template ∈ templatesAmong b.cwd ext before, ¬ Fails (Expansion.ofTemplate t b ext template) := by
  constructor
  · intro h
    by_cases misplaced : Misplaced t b.cwd ext patterns
    · obtain ⟨before, p, after, fault, split, good, hp⟩ := exists_first_misplaced misplaced
      refine ⟨before, p, after, split, ⟨fault, hp, trivial⟩, good, fun template hm fails => ?_⟩
      rw [expandEntries_of_misplaced split good hp, failsIn_bind] at h
      rcases h with h | ⟨x, expanded, -⟩
      · exact Expansion.not_isMistake_ofTemplates h
      · obtain ⟨fault, stop, -⟩ := Expansion.fails_ofTemplates_iff.2 ⟨template, hm, fails⟩
        cases stop.symm.trans expanded
    · rw [expandEntries_of_placed misplaced] at h
      exact absurd h Expansion.not_isMistake_ofTemplates
  · rintro ⟨before, p, after, split, ⟨fault, hp, -⟩, good, expanded⟩
    have whole : ¬ Fails (Expansion.ofTemplates t b ext (templatesAmong b.cwd ext before)) := by
      rw [Expansion.fails_ofTemplates_iff]
      rintro ⟨template, hm, fails⟩
      exact expanded template hm fails
    obtain ⟨x, hx⟩ := not_fails_iff.1 whole
    rw [expandEntries_of_misplaced split good hp, hx]
    exact ⟨fault, rfl, isMistake_of_match hp⟩

end StaticSite
