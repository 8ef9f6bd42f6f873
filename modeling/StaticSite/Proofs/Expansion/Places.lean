import StaticSite.Expansion.Entries
import StaticSite.Proofs.Expansion.Elements
import StaticSite.Proofs.Glob.Names
import StaticSite.Proofs.Site.Finish
import StaticSite.Proofs.Site.Working

/-!
# The places of planned pages

A template is the path of a match as seen from the working directory, a page of a partial stands beside it. Such a
page has an output path, and that below the output root, unless `..` is in its way (`planned_page_place`). This is
so if the match was found through `..`, or if the partial's own name stands for `..` (`Page.LeadsUp`).
-/

namespace StaticSite

/-! ## Pages and their templates -/

theorem mem_untilFault {ε α : Type} {results : List (Except ε α)} {a : α} (h : a ∈ (untilFault results).1) :
    .ok a ∈ results := by
  induction results with
  | nil => cases h
  | cons r results ih =>
    cases r with
    | error fault => cases h
    | ok b =>
      rcases List.mem_cons.1 h with rfl | h
      · exact List.mem_cons_self
      · exact List.mem_cons_of_mem _ (ih h)

theorem mem_untilFault_of_none {ε α : Type} {results : List (Except ε α)} (h : (untilFault results).2 = none) {a : α}
    (ha : .ok a ∈ results) : a ∈ (untilFault results).1 := by
  induction results with
  | nil => cases ha
  | cons r results ih =>
    cases r with
    | error fault => cases h
    | ok b =>
      rcases List.mem_cons.1 ha with same | ha
      · cases same; exact List.mem_cons_self
      · exact List.mem_cons_of_mem _ (ih h ha)

theorem mem_of_forall₂ {α β : Type} {r : α → β → Prop} {as : List α} {bs : List β}
    (h : List.Forall₂ r as bs) {b : β} (hb : b ∈ bs) : ∃ a ∈ as, r a b := by
  induction h with
  | nil => cases hb
  | cons hr _ ih =>
    rcases List.mem_cons.1 hb with rfl | hb
    · exact ⟨_, List.mem_cons_self, hr⟩
    · obtain ⟨a, ha, hab⟩ := ih hb
      exact ⟨a, List.mem_cons_of_mem _ ha, hab⟩

namespace Expansion

variable {t : FileTree} {b : Bindings} {ext : String}

/-- The page stands where its template or, for a partial, an element with a usable name puts it. -/
def IsOf (ext : String) (template : Path) (page : Page) : Prop :=
  page.template = template ∧ (page.place = none ∧ template.isPartial = false ∨ template.isPartial = true ∧
    ∃ given name, usable? given = some name ∧ page.place = some (pagePlace template ext name))

/-- A page of a partial is that of an element whose name has a usable text. -/
theorem named_of_partialPages {template : Path} {items : List Value} {pages : List Page}
    {skips : List (Nat × SkipReason)} (h : partialPages template ext items = .ok (pages, skips)) {page : Page}
    (hp : page ∈ pages) : page.template = template ∧ ∃ v name, nameOf? page.data = some v ∧ v.toText = .ok name ∧
      usable? name = some name ∧ page.place = some (pagePlace template ext name) := by
  obtain ⟨results, made, rfl, -⟩ := partialPages_eq_ok.1 h
  obtain ⟨⟨i, page⟩, kept, rfl⟩ := List.mem_map.1 hp
  obtain ⟨item, -, own⟩ := (elementPage_of_getElem? made).1 (mem_keptOf.1 kept)
  obtain ⟨entries, s, ⟨isRecord, v, field, text, fine⟩, rfl⟩ := page_of_elementPage own
  refine ⟨rfl, v, s, nameOf?_of_field? field text.ne_null, text.toText ?_, usable?_of_isPageName fine, rfl⟩
  rintro n rfl long
  exact not_overlong_of_ok own ⟨entries, n, isRecord, field, long⟩

theorem isOf_partialPages {template : Path} {items : List Value} {pages : List Page}
    {skips : List (Nat × SkipReason)} (ht : template.isPartial = true)
    (h : partialPages template ext items = .ok (pages, skips)) {page : Page} (hp : page ∈ pages) :
    IsOf ext template page := by
  obtain ⟨own, -, name, -, -, usable, placed⟩ := named_of_partialPages h hp
  exact ⟨own, .inr ⟨ht, name, name, usable, placed⟩⟩

theorem isOf_ofTemplate {template : Path} {x : Expansion} (h : ofTemplate t b ext template = .ok x) {page : Page}
    (hp : page ∈ x.pages) : IsOf ext template page := by
  unfold ofTemplate at h
  split at h
  · next ht =>
    cases h
    obtain rfl := List.mem_singleton.1 hp
    exact ⟨rfl, .inl ⟨rfl, by simpa using ht⟩⟩
  · next ht =>
    split at h
    · split at h
      · cases h; cases hp
      · cases h
    · cases h; cases hp
    · split at h
      · cases h
      · next pages skips found => cases h; exact isOf_partialPages (by simpa using ht) found hp

theorem mem_pages_foldr {xs : List Expansion} {page : Page} :
    page ∈ (xs.foldr append {}).pages ↔ ∃ x ∈ xs, page ∈ x.pages := by
  induction xs with
  | nil => simp
  | cons x xs ih => simp [append, ih]

theorem isOf_ofTemplates {templates : List Path} {x : Expansion} (h : ofTemplates t b ext templates = .ok x)
    {page : Page} (hp : page ∈ x.pages) : ∃ template ∈ templates, IsOf ext template page := by
  unfold ofTemplates at h
  cases hs : templates.mapM (ofTemplate t b ext) with
  | error fault => rw [hs] at h; cases h
  | ok xs =>
    rw [hs] at h
    cases h
    obtain ⟨y, hy, hp⟩ := mem_pages_foldr.1 hp
    obtain ⟨template, hm, ht⟩ := mem_of_forall₂ (forall₂_of_mapM hs) hy
    exact ⟨template, hm, isOf_ofTemplate ht hp⟩

end Expansion

/-! ## Matches -/

variable {t : FileTree} {b : Bindings} {ext : String}

/-- The templates of an expansion are what matches are before the first one at fault. -/
theorem matched_of_mem {patterns : List String} {template : Path}
    (h : template ∈ distinct ((untilFault (matchesOf t b.cwd ext patterns)).1.filterMap id)) :
    ∃ pattern ∈ patterns, ∃ p ∈ Glob.files t b.cwd pattern, matchTemplate b.cwd ext p = .ok (some template) := by
  obtain ⟨found, hfound, he⟩ := List.mem_filterMap.1 (mem_distinct.1 h)
  obtain rfl : found = some template := he
  obtain ⟨p, hp, hpm⟩ := List.mem_map.1 (mem_untilFault hfound)
  obtain ⟨pattern, hpat, hp⟩ := List.mem_flatMap.1 hp
  exact ⟨pattern, hpat, p, hp, hpm⟩

/-- What an expansion is made of: the templates that the matches are, and no match is at fault. -/
theorem expandEntries_eq_ok {patterns : List String} {x : Expansion} :
    expandEntries t b ext patterns = .ok x ↔
      Expansion.ofTemplates t b ext (distinct ((untilFault (matchesOf t b.cwd ext patterns)).1.filterMap id)) =
        .ok x ∧ (untilFault (matchesOf t b.cwd ext patterns)).2 = none := by
  unfold expandEntries
  dsimp only
  generalize Expansion.ofTemplates t b ext
    (distinct ((untilFault (matchesOf t b.cwd ext patterns)).1.filterMap id)) = made
  cases made with
  | error fault => exact ⟨fun h => (nomatch h), fun h => (nomatch h.1)⟩
  | ok y =>
    cases (untilFault (matchesOf t b.cwd ext patterns)).2 with
    | some fault => exact ⟨fun h => (nomatch h), fun h => (nomatch h.2)⟩
    | none => exact ⟨fun h => ⟨h, rfl⟩, fun h => h.1⟩

/-- A match as seen from the working directory is relative. It is the match itself, or plain. -/
theorem relativeMatch_eq_ok {cwd p template : Path} (h : relativeMatch cwd p = .ok template) :
    template.root = .relative ∧ (∀ s ∈ template.segments, s ∈ p.segments) ∧
      (template = p ∨ Path.Plain template.segments) := by
  unfold relativeMatch at h
  split at h
  · next habs =>
    split at h
    · next rel hrel =>
      cases h
      unfold Path.relativeTo? at hrel
      split at hrel
      · obtain rfl := Option.some.inj hrel
        have same : (cwd / p).segments = p.segments := by simp [HDiv.hDiv, Div.div, Path.join, habs]
        have plain := Path.plain_collapse (cwd / p).segments
        refine ⟨rfl, fun s hs => ?_, .inr ⟨fun hs => plain.1 (List.mem_of_mem_drop hs),
          fun hs => plain.2 (List.mem_of_mem_drop hs)⟩⟩
        have hs : s ∈ Path.collapse (cwd / p).segments := List.mem_of_mem_drop hs
        rw [same] at hs
        exact (Path.mem_foldl_descend hs).resolve_left (by simp)
      · cases hrel
    · cases h
  · next hrel =>
    cases h
    exact ⟨by simpa [Path.isAbsolute] using hrel, fun _ hs => hs, .inl rfl⟩

/-- A template stands where the match does. -/
theorem collapse_of_relativeMatch {cwd p template : Path} (h : relativeMatch cwd p = .ok template) :
    Path.collapse (cwd / template).segments = Path.collapse (cwd / p).segments ∧
      (template = p ∨ cwd.segments ++ template.segments = Path.collapse (cwd / template).segments) := by
  unfold relativeMatch at h
  split at h
  · split at h
    · next rel hrel =>
      cases h
      unfold Path.relativeTo? at hrel
      split at hrel
      · next begins =>
        -- the resolved match is the directory with the template put behind it
        have whole : cwd.segments ++ (Path.collapse (cwd / p).segments).drop cwd.segments.length =
            Path.collapse (cwd / p).segments :=
          List.prefix_iff_eq_append.1 (List.isPrefixOf_iff_prefix.1 begins.2)
        obtain rfl := Option.some.inj hrel
        have place := Path.segments_div_ofSegments cwd ((Path.collapse (cwd / p).segments).drop cwd.segments.length)
        rw [whole] at place
        have same := (congrArg Path.collapse place).trans (Path.collapse_collapse _)
        exact ⟨same, .inr (whole.trans same.symm)⟩
      · cases hrel
    · cases h
  · cases h
    exact ⟨rfl, .inl rfl⟩

/-- A template lies in a root directory below the working directory. -/
theorem matchTemplate_eq_some {cwd p template : Path} (h : matchTemplate cwd ext p = .ok (some template)) :
    relativeMatch cwd p = .ok template ∧ template.hasTemplateExt ext = true ∧ 2 ≤ template.parts.length := by
  unfold matchTemplate at h
  cases hm : relativeMatch cwd p with
  | error fault => rw [hm] at h; cases h
  | ok template' =>
    rw [hm] at h
    simp only [bind, Except.bind] at h
    split at h
    · cases h
    · next hext =>
      split at h
      · cases h
      · next hlong => cases h; exact ⟨rfl, by simpa using hext, Nat.le_of_not_lt hlong⟩

/-! ## Places -/

namespace Path

/-- A relative path with a segment below its root directory has an output path unless it leads up there. -/
theorem output_eq {p : Path} (hr : p.root = .relative) (hl : 2 ≤ p.segments.length) (out : Path)
    (ext : String) :
    p.output out ext = if ".." ∈ p.segments.drop 1 then .error ⟨p, .escapesRoot⟩
      else .ok (out / ofSegments (p.belowOut ext)) := by
  have rel : p.isAbsolute = false := by simp [isAbsolute, hr]
  have some : (p.segments.drop 1).isEmpty = false := by
    rw [List.isEmpty_eq_false_iff, ne_eq, List.drop_eq_nil_iff]
    omega
  unfold output outputOf
  simp only [rel, some, Bool.false_eq_true, if_false]
  split <;> rfl

theorem slash_notMem_name {p : Path} (hp : p.IsRead) : '/' ∉ p.name.toList := by
  rw [name, List.getLastD_eq_getLast?]
  cases hl : p.segments.getLast? with
  | none => simp
  | some s => exact (hp s (List.mem_of_getLast? hl)).2.2

/-- A usable name with something put to its end is a name. -/
theorem isName_of_usable {given name : String} (hn : Expansion.usable? given = some name) {more : String}
    (hm : '/' ∉ more.toList) : IsName (name ++ more) := by
  unfold Expansion.usable? at hn
  split at hn
  · cases hn
  · next hg =>
    obtain rfl := Option.some.inj hn
    simp only [not_or] at hg
    obtain ⟨hne, hslash, -, hdot, hup⟩ := hg
    simp only [← String.toList_inj] at hne hdot hup
    cases hs : given.toList with
    | nil => exact absurd hs hne
    | cons c cs =>
      rw [hs] at hslash hdot hup
      have text : (given ++ more).toList = c :: (cs ++ more.toList) := by rw [String.toList_append, hs]; rfl
      -- the text is one or two dots only if the name is
      refine ⟨⟨fun h => ?_, fun h => ?_, fun h => ?_⟩, fun h => ?_⟩
      · rw [h] at text; cases text
      · rw [h] at text
        obtain ⟨rfl, rest⟩ := List.cons.inj text
        exact hdot (by rw [(List.append_eq_nil_iff.1 rest.symm).1]; rfl)
      · rw [text] at h
        exact (List.mem_append.1 h).elim hslash hm
      · rw [h] at text
        obtain ⟨rfl, rest⟩ := List.cons.inj text
        rcases List.append_eq_singleton_iff.1 rest.symm with ⟨rfl, -⟩ | ⟨rfl, -⟩
        · exact hdot rfl
        · exact hup rfl

/-- The pages of a partial stand beside it. -/
theorem pagePlace_eq {template : Path} (ht : template.IsRead) (ext : String) {given name : String}
    (hn : Expansion.usable? given = some name) :
    IsName (name ++ Expansion.spelledExt template ext) ∧ '/' ∉ (Expansion.pageDir template ext).toList ∧
      Expansion.pagePlace template ext name = ⟨template.root, template.segments.dropLast ++
        segmentsOf (Expansion.pageDir template ext) ++ [name ++ Expansion.spelledExt template ext]⟩ := by
  have noSlash := slash_notMem_name ht
  have spelled : '/' ∉ (Expansion.spelledExt template ext).toList := by
    rw [Expansion.spelledExt, String.toList_ofList, Name.suffix]
    split
    · exact noSlash
    · exact fun h => noSlash (List.mem_of_mem_drop h)
  have dir : '/' ∉ (Expansion.pageDir template ext).toList := by
    rw [Expansion.pageDir, String.toList_ofList, Name.stem]
    split
    · simp
    · exact fun h => noSlash (List.mem_of_mem_take (List.mem_of_mem_drop h))
  have isName := isName_of_usable hn spelled
  refine ⟨isName, dir, ?_⟩
  have beside : ofString (Expansion.pageDir template ext) =
      ofSegments (segmentsOf (Expansion.pageDir template ext)) := by
    unfold ofString ofSegments
    cases hd : (Expansion.pageDir template ext).toList with
    | nil => rfl
    | cons c cs =>
      have : c ≠ '/' := fun hc => dir (by simp [hd, hc])
      simp [rootOf, this]
  rw [Expansion.pagePlace, beside, ofString_segment isName.1, join_ofSegments, join_ofSegments]
  rfl

end Path

/-- The way to the page's place leads up below its root directory: through a `..` in the template's path, or
through the directory of a partial's pages. -/
def Page.LeadsUp (ext : String) (page : Page) : Prop :=
  ".." ∈ page.template.segments.drop 1 ∨
    page.place.isSome ∧ Expansion.pageDir page.template ext = ".."

instance (ext : String) (page : Page) : Decidable (page.LeadsUp ext) :=
  inferInstanceAs (Decidable (_ ∨ _ ∧ _))

/-- What is known of a page of an expansion. -/
structure Page.Planned (ext : String) (page : Page) : Prop where
  relative : page.template.root = .relative
  read : page.template.IsRead
  long : 2 ≤ page.template.segments.length
  standing : Expansion.IsOf ext page.template page

theorem isRead_segmentsOf {text s : String} (h : s ∈ Path.segmentsOf text) : s ≠ "" ∧ s ≠ "." ∧ '/' ∉ s.toList :=
  Path.isRead_ofString text s h

theorem mem_segmentsOf_up {s : String} (hs : '/' ∉ s.toList) : ".." ∈ Path.segmentsOf s ↔ s = ".." := by
  rw [Path.segmentsOf, Text.pieces_of_notMem hs, List.mem_filter, List.mem_singleton]
  constructor
  · exact fun h => h.1.symm
  · rintro rfl
    exact ⟨rfl, by decide⟩

/-- The name of a partial is not `..`, so only what is before it leads up. -/
theorem up_mem_dropLast_iff {p : Path} (hp : p.isPartial = true) :
    ".." ∈ p.segments.dropLast.drop 1 ↔ ".." ∈ p.segments.drop 1 := by
  have nonempty : p.segments ≠ [] := fun h => by
    rw [Path.isPartial, Path.name, h] at hp
    exact absurd hp (by decide)
  have split : p.segments.dropLast ++ [p.name] = p.segments := by
    rw [Path.name, List.getLastD_eq_getLast?, List.getLast?_eq_some_getLast nonempty]
    exact List.dropLast_concat_getLast nonempty
  have name : ".." ≠ p.name := fun h => by
    rw [Path.isPartial, ← h] at hp
    exact absurd hp (by decide)
  constructor
  · intro h
    rw [← split, List.drop_append]
    exact List.mem_append_left _ h
  · intro h
    rw [← split, List.drop_append] at h
    rcases List.mem_append.1 h with h | h
    · exact h
    · exact absurd (List.mem_singleton.1 (List.mem_of_mem_drop h)) name

theorem Page.Planned.logical {page : Page} (h : page.Planned ext) :
    page.logical.root = .relative ∧ 2 ≤ page.logical.segments.length ∧ page.logical.IsRead ∧
      (".." ∈ page.logical.segments.drop 1 ↔ page.LeadsUp ext) := by
  obtain ⟨-, ⟨unplaced, -⟩ | ⟨isPartial, given, name, usable, placed⟩⟩ := h.standing
  · have own : page.logical = page.template := by rw [Page.logical, unplaced]; rfl
    rw [own]
    exact ⟨h.relative, h.long, h.read, by simp [Page.LeadsUp, unplaced]⟩
  · obtain ⟨isName, dirName, place⟩ := Path.pagePlace_eq h.read ext usable
    have own := (show page.logical = Expansion.pagePlace page.template ext name by
      rw [Page.logical, placed, Option.getD_some]).trans place
    have first : 1 ≤ page.template.segments.dropLast.length := by
      rw [List.length_dropLast]; have := h.long; omega
    rw [own]
    refine ⟨h.relative, ?_, fun s hs => ?_, ?_⟩
    · simp only [List.length_append, List.length_singleton]
      omega
    · rcases List.mem_append.1 hs with hs | hs
      · rcases List.mem_append.1 hs with hs | hs
        · exact h.read s (List.dropLast_subset _ hs)
        · exact isRead_segmentsOf hs
      · rw [List.mem_singleton.1 hs]
        exact isName.1
    · have last : ".." ∉ [name ++ Expansion.spelledExt page.template ext] := by
        rw [List.mem_singleton]
        exact Ne.symm isName.2
      dsimp only
      rw [List.append_assoc, List.drop_append_of_le_length first, List.mem_append, List.mem_append,
        up_mem_dropLast_iff isPartial, mem_segmentsOf_up dirName, or_iff_left last, Page.LeadsUp, placed]
      simp

/-- The template of a page is what a match is. -/
theorem matched_of_page {patterns : List String} {x : Expansion} (h : expandEntries t b ext patterns = .ok x)
    {page : Page} (hp : page ∈ x.pages) : Expansion.IsOf ext page.template page ∧ ∃ pattern ∈ patterns,
      ∃ p ∈ Glob.files t b.cwd pattern, matchTemplate b.cwd ext p = .ok (some page.template) := by
  obtain ⟨template, hm, rfl, standing⟩ := Expansion.isOf_ofTemplates (expandEntries_eq_ok.1 h).1 hp
  exact ⟨⟨rfl, standing⟩, matched_of_mem hm⟩

/-- The pages of an expansion are those of the templates that the matches are. -/
theorem mem_pages_iff {patterns : List String} {x : Expansion} (h : expandEntries t b ext patterns = .ok x)
    {page : Page} : page ∈ x.pages ↔ ∃ template,
      (∃ pattern ∈ patterns, ∃ p ∈ Glob.files t b.cwd pattern, matchTemplate b.cwd ext p = .ok (some template)) ∧
        ∃ y, Expansion.ofTemplate t b ext template = .ok y ∧ page ∈ y.pages := by
  obtain ⟨expanded, good⟩ := expandEntries_eq_ok.1 h
  -- every match that is a template is expanded, as none is at fault
  have templates : ∀ template,
      template ∈ distinct ((untilFault (matchesOf t b.cwd ext patterns)).1.filterMap id) ↔ ∃ pattern ∈ patterns,
        ∃ p ∈ Glob.files t b.cwd pattern, matchTemplate b.cwd ext p = .ok (some template) := by
    refine fun template => ⟨matched_of_mem, ?_⟩
    rintro ⟨pattern, hp, p, found, isMatch⟩
    refine mem_distinct.2 (List.mem_filterMap.2 ⟨some template, mem_untilFault_of_none good ?_, rfl⟩)
    exact List.mem_map.2 ⟨p, List.mem_flatMap.2 ⟨pattern, hp, found⟩, isMatch⟩
  unfold Expansion.ofTemplates at expanded
  cases hs : (distinct ((untilFault (matchesOf t b.cwd ext patterns)).1.filterMap id)).mapM
      (Expansion.ofTemplate t b ext) with
  | error fault => rw [hs] at expanded; cases expanded
  | ok xs =>
    rw [hs] at expanded
    cases expanded
    have each := forall₂_of_mapM hs
    rw [Expansion.mem_pages_foldr]
    constructor
    · rintro ⟨y, hy, hm⟩
      obtain ⟨template, ht, hty⟩ := mem_of_forall₂ each hy
      exact ⟨template, (templates template).1 ht, y, hty, hm⟩
    · rintro ⟨template, found, y, hty, hm⟩
      obtain ⟨y', hy', hty'⟩ := mem_of_forall₂ each.flip ((templates template).2 found)
      cases hty.symm.trans hty'
      exact ⟨y, hy', hm⟩

theorem Path.dot_notMem_div {p q : Path} (hp : "." ∉ p.segments) (hq : "." ∉ q.segments) : "." ∉ (p / q).segments := by
  simp only [HDiv.hDiv, Div.div, Path.join]
  split
  · exact hq
  · exact fun h => (List.mem_append.1 h).elim hp hq

/-- Neither a template nor the place of a page has a segment `.`, whatever is in the tree. -/
theorem dot_notMem_of_page {patterns : List String} {x : Expansion} (h : expandEntries t b ext patterns = .ok x)
    {page : Page} (hp : page ∈ x.pages) : "." ∉ page.template.segments ∧ "." ∉ page.logical.segments := by
  obtain ⟨⟨-, standing⟩, pattern, -, p, found, isMatch⟩ := matched_of_page h hp
  obtain ⟨-, segments, -⟩ := relativeMatch_eq_ok (matchTemplate_eq_some isMatch).1
  have template : "." ∉ page.template.segments := fun hs => (Glob.read_of_mem_files found).1 (segments _ hs)
  refine ⟨template, ?_⟩
  obtain ⟨unplaced, -⟩ | ⟨-, given, name, -, placed⟩ := standing
  · rw [Page.logical, unplaced]
    exact template
  · have text : ∀ s, "." ∉ (Path.ofString s).segments := fun s hs => (Path.isRead_ofString s _ hs).2.1 rfl
    have parent : "." ∉ page.template.parent.segments := fun hs => template (List.dropLast_subset _ hs)
    rw [Page.logical, placed, Option.getD_some, Expansion.pagePlace]
    exact Path.dot_notMem_div (Path.dot_notMem_div parent (text _)) (text _)

/-- A page of an expansion stands below its root directory, and where a `..` in its path comes from is known. -/
theorem planned_of_expandEntries (ht : t.Named) {patterns : List String} {x : Expansion}
    (h : expandEntries t b ext patterns = .ok x) {page : Page} (hp : page ∈ x.pages) :
    page.Planned ext ∧ (".." ∈ page.template.segments → ∃ pattern ∈ patterns,
      ∃ plain ∈ Glob.expandBraces pattern, Path.rootOf plain.toList = .relative ∧
        ".." ∈ Text.pieces '/' plain) := by
  obtain ⟨standing, pattern, hpattern, p, found, isMatch⟩ := matched_of_page h hp
  obtain ⟨seen, -, long⟩ := matchTemplate_eq_some isMatch
  obtain ⟨relative, segments, same⟩ := relativeMatch_eq_ok seen
  have read : page.template.IsRead := fun s hs => Glob.isRead_of_mem_files ht found s (segments s hs)
  refine ⟨⟨relative, read, ?_, standing⟩, fun up => ?_⟩
  · simpa [Path.parts, Path.isAbsolute, relative] using long
  · obtain ⟨plain, hplain, root, names⟩ := Glob.name_of_mem_files found
    rcases same with same | plainSegments
    · refine ⟨pattern, hpattern, plain, hplain, ?_, ?_⟩
      · rw [← root, ← same, relative]
      · rcases (names _ (same ▸ up)).2 with ⟨hs, -⟩ | hn
        · exact hs
        · exact absurd rfl (ht _ hn).2
    · exact absurd up plainSegments.2

/-- A project with two partials; the pages of one of them go to the directory `..`. -/
def dottedTree : FileTree := ⟨[(["p"], .dir), (["p", "site"], .dir), (["p", "site", "_...j2"], .file .empty),
  (["p", "site", "_post.j2"], .file .empty)]⟩

/-- Both partials are bound to an array of one element. -/
def dottedBindings : Bindings where
  cwd := ⟨.slash, ["p"]⟩
  table := ["_...j2", "_post.j2"].map fun name =>
    (⟨.slash, ["p", "site", name]⟩, .array [.map [(.text "name", .text "a")]])

/-- A planned page has an output path, below any output root there may be, exactly if its path does not lead up
below its root directory. It leads up only where a relative pattern does or a partial's directory is `..`. -/
theorem planned_page_place (ht : t.Named) {patterns : List String} {x : Expansion}
    (h : expandEntries t b ext patterns = .ok x) {page : Page} (hp : page ∈ x.pages) :
    (∀ out, if page.LeadsUp ext then page.output out ext = .error ⟨page.logical, .escapesRoot⟩
      else ∃ below, below ≠ [] ∧ Path.Plain below ∧ page.output out ext = .ok (out / Path.ofSegments below)) ∧
    (page.LeadsUp ext → Expansion.pageDir page.template ext = ".." ∨ ∃ pattern ∈ patterns,
      ∃ plain ∈ Glob.expandBraces pattern, Path.rootOf plain.toList = .relative ∧
        ".." ∈ Text.pieces '/' plain) := by
  obtain ⟨planned, origin⟩ := planned_of_expandEntries ht h hp
  obtain ⟨relative, long, read, up⟩ := planned.logical
  refine ⟨fun out => ?_, fun leads => ?_⟩
  · have place := Path.output_eq relative long out ext
    rw [if_congr up rfl rfl] at place
    split
    · next leads => rw [if_pos leads] at place; exact place
    · next leads =>
      rw [if_neg leads] at place
      exact ⟨_, Path.belowOut_ne_nil _ _, Path.plain_belowOut place fun hdot => (read _ hdot).2.1 rfl, place⟩
  · rcases leads with leads | ⟨-, leads⟩
    · exact .inr (origin (List.mem_of_mem_drop leads))
    · exact .inl leads

theorem dotted_page_place : ∃ x, expandEntries dottedTree dottedBindings ".j2" ["site/*.j2"] = .ok x ∧
    ∃ page ∈ x.pages, page.LeadsUp ".j2" ∧
      ∀ out, page.output out ".j2" = .error ⟨page.logical, .escapesRoot⟩ := by
  have names : dottedTree.Named := FileTree.named_of_entries (by decide +kernel)
  have planned : (match expandEntries dottedTree dottedBindings ".j2" ["site/*.j2"] with
      | .ok x => x.pages.any fun page => page.LeadsUp ".j2"
      | .error _ => false) = true := by decide +kernel
  cases hx : expandEntries dottedTree dottedBindings ".j2" ["site/*.j2"] with
  | error fault => rw [hx] at planned; cases planned
  | ok x =>
    rw [hx] at planned
    obtain ⟨page, hp, leads⟩ := List.any_eq_true.1 planned
    have leads : page.LeadsUp ".j2" := by simpa using leads
    refine ⟨x, rfl, page, hp, leads, fun out => ?_⟩
    have place := (planned_page_place names hx hp).1 out
    rwa [if_pos leads] at place

/-- A page that is found through `..` has no output path, so not every planned page has one. -/
theorem stray_page_without_place : ∃ x,
    expandEntries Site.strayTree Site.straySite.bindings Site.straySite.ext ["site/../lib/*.j2"] = .ok x ∧
      ∃ page ∈ x.pages, ∀ o, page.output Site.straySite.out Site.straySite.ext ≠ .ok o := by
  have planned : (match expandEntries Site.strayTree Site.straySite.bindings Site.straySite.ext
        ["site/../lib/*.j2"] with
      | .ok x => x.pages.any fun page => (page.output Site.straySite.out Site.straySite.ext).toOption.isNone
      | .error _ => false) = true := by decide +kernel
  cases hx : expandEntries Site.strayTree Site.straySite.bindings Site.straySite.ext ["site/../lib/*.j2"] with
  | error fault => rw [hx] at planned; cases planned
  | ok x =>
    rw [hx] at planned
    obtain ⟨page, hp, missing⟩ := List.any_eq_true.1 planned
    refine ⟨x, rfl, page, hp, fun o ho => ?_⟩
    rw [ho] at missing
    cases missing

end StaticSite
