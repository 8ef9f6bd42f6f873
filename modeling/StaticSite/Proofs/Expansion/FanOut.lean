import StaticSite.Proofs.Expansion.Extension

/-!
# Partials fan out

Each element of an array has a page or is skipped. A page has its element's entries and stands under its name in the
directory that the partial's own name gives, and so does its output (`standsAs_pageNamed`). One name is at fault: an
integer that is too long to be written leaves all elements without pages (`fansOut_iff`).
-/

namespace StaticSite

namespace Expansion

variable {template : Path} {ext s : String} {item v : Value} {items : List Value} {entries : Record}
  {results : List (Except SkipReason Page)} {page : Page} {reason : SkipReason}

/-! ## Where the pages stand -/

/-- A partial below its root directory, reached without `..`, that has the extension. -/
structure Fans (template : Path) (ext : String) : Prop where
  relative : template.root = .relative
  read : template.IsRead
  long : 2 ≤ template.segments.length
  down : ".." ∉ template.segments
  isPartial : template.isPartial = true
  isTemplate : template.hasTemplateExt ext = true
  nonempty : ext ≠ ""
  ascii : Text.AllAscii ext.toList

/-- The partial's own name without its mark and extension can name a directory. There the page stands, named by `s`
with the extension as the partial spells it: it is a template, and its output lies in that directory below the output
root. -/
def StandsAs (template : Path) (ext : String) (page : Page) (s : String) : Prop :=
  ∀ base spelled, Name.Splits template.name ext ("_" ++ base) spelled → base ≠ "" → base ≠ "." → base ≠ ".." →
    page.logical = (template.parent.child base).child (s ++ spelled) ∧ page.logical.hasTemplateExt ext = true ∧
      ∃ made, Name.IsPageOf s made ∧ ∀ out, page.output out ext =
        .ok ((out / Path.ofSegments (template.parent.segments.drop 1 ++ [base])).child made)

theorem pageDir_of_splits {base spelled : String} (nonempty : ext ≠ "")
    (splits : Name.Splits template.name ext ("_" ++ base) spelled) :
    pageDir template ext = base ∧ spelledExt template ext = spelled := by
  obtain ⟨cut, kept⟩ := splits.cut nonempty
  have front : ("_" ++ base).toList = '_' :: base.toList := by rw [String.toList_append]; rfl
  constructor
  · rw [pageDir, cut, front, List.drop_succ_cons, List.drop_zero, String.ofList_toList]
  · rw [spelledExt, kept, String.ofList_toList]

theorem standsAs_pageNamed (fans : Fans template ext) (entries : Record) (fine : IsPageName s) :
    StandsAs template ext (pageNamed template ext entries s) s := by
  intro base spelled splits filled dot up
  obtain ⟨dir, spelt⟩ := pageDir_of_splits fans.nonempty splits
  obtain ⟨isName, slash, place⟩ := Path.pagePlace_eq fans.read ext (usable?_of_isPageName fine)
  rw [dir] at slash place
  rw [spelt] at isName place
  have alone : Path.segmentsOf base = [base] := congrArg Path.segments (Path.ofString_segment ⟨filled, dot, slash⟩)
  have logical : (pageNamed template ext entries s).logical = (template.parent.child base).child (s ++ spelled) := by
    rw [Page.logical, pageNamed, Option.getD_some, place, alone]
    rfl
  have own : Name.Splits (s ++ spelled) ext s spelled := ⟨rfl, splits.length, splits.same⟩
  have recognised : Name.hasExt (s ++ spelled) ext = true ↔ Name.EndsIn (s ++ spelled) ext :=
    Name.hasExt_iff_endsIn (Name.steady_lower_of_allAscii fans.ascii)
  refine ⟨logical, ?_, ?_⟩
  · rw [logical, Path.hasTemplateExt, Path.name_child]
    exact recognised.2 ⟨s, spelled, own⟩
  · obtain ⟨made, isPage, mapped⟩ := (Name.takenOff_of_hasExt_iff fans.nonempty isName recognised).mapped own
    refine ⟨made, isPage, fun out => ?_⟩
    -- the output drops the root directory, with which the partial's directory begins
    obtain ⟨first, above, parent⟩ : ∃ first above, template.parent.segments = first :: above := by
      refine List.exists_cons_of_length_pos ?_
      have := fans.long
      rw [Path.parent, List.length_dropLast]
      omega
    have whole : (template.parent.child base).child (s ++ spelled) =
        ⟨.relative, first :: ((above ++ [base]) ++ [s ++ spelled])⟩ := by
      simp [Path.child, parent, fans.relative]
    have down : ".." ∉ above ++ [base] := by
      have outside : ".." ∉ template.parent.segments := fun hm => fans.down (List.dropLast_subset _ hm)
      rw [parent, List.mem_cons, not_or] at outside
      simp [outside.2, Ne.symm up]
    rw [Page.output, logical, whole, mapped first _ out down, parent, List.drop_succ_cons, List.drop_zero,
      Path.join_ofSegments, Path.join_ofSegments]
    simp [Path.child]

/-! ## Fanning out -/

/-- Each element has one page or one skip, both in the order of the elements. Those that give pages have them, under
their names and with their entries, and of the others the skips tell what they lack. -/
structure FansOut (template : Path) (ext : String) (items : List Value) (kept : List (Nat × Page))
    (skips : List (Nat × SkipReason)) : Prop where
  ordered : (kept.map (·.1)).Pairwise (· < ·) ∧ (skips.map (·.1)).Pairwise (· < ·)
  once : (kept.map (·.1) ++ skips.map (·.1)).Perm (List.range items.length)
  kept_iff : ∀ i item, items[i]? = some item → (i ∈ kept.map (·.1) ↔ ∃ entries s, GivesPage item entries s)
  pages : ∀ i page, (i, page) ∈ kept → ∃ item s, items[i]? = some item ∧ GivesPage item page.data s ∧
    page.template = template ∧ StandsAs template ext page s
  told : ∀ i reason, (i, reason) ∈ skips → ∃ item, items[i]? = some item ∧ Lacks item reason

theorem fansOut_of_mapM (fans : Fans template ext) (h : items.mapM (elementPage template ext) = .ok results) :
    FansOut template ext items (keptOf results) (skippedOf results) where
  ordered := ⟨pairwise_keptOf results, pairwise_skippedOf results⟩
  once := (forall₂_of_mapM h).length_eq ▸ perm_range results
  kept_iff i item found := by
    obtain ⟨r, result, made⟩ := (elementPage_of_getElem? h).2 found
    cases r with
    | ok page =>
      obtain ⟨entries, s, gives, -⟩ := page_of_elementPage made
      exact iff_of_true (List.mem_map.2 ⟨(i, page), mem_keptOf.2 result, rfl⟩) ⟨entries, s, gives⟩
    | error reason =>
      refine iff_of_false (fun hm => ?_) fun ⟨_, _, gives⟩ => (lacks_of_elementPage made).not_givesPage gives
      obtain ⟨⟨j, page⟩, kept, rfl⟩ := List.mem_map.1 hm
      cases result.symm.trans (mem_keptOf.1 kept)
  pages i page kept := by
    obtain ⟨item, found, made⟩ := (elementPage_of_getElem? h).1 (mem_keptOf.1 kept)
    obtain ⟨entries, s, ⟨isRecord, v, field, text, fine⟩, rfl⟩ := page_of_elementPage made
    exact ⟨item, s, found, ⟨isRecord, v, field, text, fine⟩, rfl, standsAs_pageNamed fans entries fine⟩
  told i reason skipped := by
    obtain ⟨item, found, made⟩ := (elementPage_of_getElem? h).1 (mem_skippedOf.1 skipped)
    exact ⟨item, found, lacks_of_elementPage made⟩

/-- A partial fans out into the pages of its elements, none lost and none twice, exactly if no element is named by an
integer that is too long to be written. -/
theorem fansOut_iff (fans : Fans template ext) (items : List Value) :
    (∃ kept skips, partialPages template ext items = .ok (kept.map (·.2), skips) ∧
      FansOut template ext items kept skips) ↔ ∀ item ∈ items, ¬ Overlong item := by
  constructor
  · rintro ⟨kept, skips, expanded, -⟩ item hm long
    obtain ⟨results, made, -, -⟩ := partialPages_eq_ok.1 expanded
    exact not_fails_iff.2 ⟨results, made⟩ (fails_elements_iff.2 ⟨item, hm, long⟩)
  · intro short
    obtain ⟨results, made⟩ := not_fails_iff.1 fun fails => by
      obtain ⟨item, hm, long⟩ := fails_elements_iff.1 fails
      exact short item hm long
    exact ⟨keptOf results, skippedOf results, partialPages_eq_ok.2 ⟨results, made, rfl, rfl⟩,
      fansOut_of_mapM fans made⟩

theorem overlong_namedBy_iff {name : Value} : Overlong (namedBy name) ↔ ∃ n, name = .int n ∧ TooLong n := by
  constructor
  · rintro ⟨entries, n, isRecord, field, long⟩
    cases isRecord
    exact ⟨n, Option.some.inj ((field?_namedBy name).symm.trans field), long⟩
  · rintro ⟨n, rfl, long⟩
    exact ⟨_, n, rfl, field?_namedBy _, long⟩

theorem fans_postTemplate : Fans postTemplate ".j2" :=
  ⟨rfl, by decide, by decide, by decide, by decide, by decide +kernel, by decide, by decide⟩

def mixedNames : List Value := [.text "a.html", .bool true, .int 7, .text "x/y", .null, .text "b"]

theorem fansOut_iff_mixed : Fans postTemplate ".j2" ∧ Name.Splits postTemplate.name ".j2" ("_" ++ "post") ".J2" ∧
    (∀ item ∈ mixedNames.map namedBy, ¬ Overlong item) ∧
      ∃ kept skips, partialPages postTemplate ".j2" (mixedNames.map namedBy) = .ok (kept.map (·.2), skips) ∧
        FansOut postTemplate ".j2" (mixedNames.map namedBy) kept skips := by
  have short : ∀ item ∈ mixedNames.map namedBy, ¬ Overlong item := by
    intro item hm overlong
    obtain ⟨name, given, rfl⟩ := List.mem_map.1 hm
    obtain ⟨n, rfl, long⟩ := overlong_namedBy_iff.1 overlong
    obtain rfl : n = 7 := by simpa [mixedNames] using given
    have writable : Number.isWritable 7 = true := by decide +kernel
    exact isWritable_iff.1 writable long
  exact ⟨fans_postTemplate, ⟨by decide, by decide, by decide +kernel⟩, short, (fansOut_iff fans_postTemplate _).2 short⟩

theorem tooLong_unwritable : TooLong Number.unwritable :=
  Nat.le_of_eq (Int.natAbs_natCast Number.unwritable).symm

/-- The text of an integer can name a page, but not that of one that cannot be written: no element has a page then. -/
theorem overlong_name_without_page : Fans postTemplate ".j2" ∧
    (∃ entries s, GivesPage (namedBy (.int Number.unwritable)) entries s) ∧
      ∀ pages skips, partialPages postTemplate ".j2" [namedBy (.text "a"), namedBy (.int Number.unwritable)] ≠
        .ok (pages, skips) := by
  have gives := isPageName_toString Number.unwritable
  refine ⟨fans_postTemplate, ⟨_, _, rfl, _, field?_namedBy _, .int _, gives⟩, fun pages skips made => ?_⟩
  obtain ⟨results, made, -⟩ := partialPages_eq_ok.1 made
  have long : Overlong (namedBy (.int Number.unwritable)) := overlong_namedBy_iff.2 ⟨_, rfl, tooLong_unwritable⟩
  refine not_fails_iff.2 ⟨results, made⟩ (fails_elements_iff.2 ⟨_, ?_, long⟩)
  exact List.mem_cons_of_mem _ (List.mem_singleton_self _)

end Expansion

end StaticSite
