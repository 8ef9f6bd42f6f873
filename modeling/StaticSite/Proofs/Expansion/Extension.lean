import StaticSite.Proofs.Expansion.Naming
import StaticSite.Proofs.Text.LowerCase

/-!
# The extension of templates

A template is told by the end of its name in lower case, and as many characters as the extension has are cut off. These
are the extension as it is spelled in the name, for every name, exactly if the extension is steady in lower case
(`takenOff_iff`), as every extension of ASCII characters is. Otherwise the lower case of the name may end with that of
the extension though no end of the name does, or the other way round: the name `a.Σ` has the lower case `a.ς`, which
does not end with that of `.Σ` (`sigma_extension_missed`).
-/

namespace StaticSite

namespace Name

variable {name ext stem spelled : String}

/-- The name is `stem` followed by the extension as it is spelled there. -/
structure Splits (name ext stem spelled : String) : Prop where
  whole : name = stem ++ spelled
  length : spelled.length = ext.length
  same : Text.lower spelled = Text.lower ext

/-- The name ends with the extension, case apart. -/
def EndsIn (name ext : String) : Prop := ∃ stem spelled, Splits name ext stem spelled

/-! ## Recognition -/

theorem toList_lower (s : String) : (Text.lower s).toList = Text.lowerFrom false s.toList := String.toList_ofList

theorem isLowered_lower {c : Char} (h : c ∈ (Text.lower ext).toList) : Text.IsLowered c :=
  Text.isLowered_of_mem_lowerFrom (toList_lower ext ▸ h)

theorem slash_mem_lower : '/' ∈ (Text.lower ext).toList ↔ '/' ∈ ext.toList := by
  rw [toList_lower, Text.slash_mem_lowerFrom]

theorem hasExt_iff_endsIn (h : Text.Steady (Text.lower ext).toList) : hasExt name ext = true ↔ EndsIn name ext := by
  rw [toList_lower] at h
  rw [hasExt_iff, toList_lower, toList_lower]
  constructor
  · intro ends
    obtain ⟨before, after, inWord, split, lowers⟩ := Text.exists_lowerFrom_of_suffix h.mark ends
    have alone : Text.lowerFrom false after = Text.lowerFrom inWord after :=
      Text.lowerFrom_eq_of_opensOnSigma (lowers ▸ h.sigma) false
    refine ⟨.ofList before, .ofList after, ?_, ?_, ?_⟩
    · rw [← String.ofList_append, ← split, String.ofList_toList]
    · have own := Text.length_lowerFrom (lowers ▸ h.pair : ¬ Text.dottedPair <:+: Text.lowerFrom inWord after)
      have ext := Text.length_lowerFrom h.pair
      rw [String.length_ofList, ← own, lowers, ext, String.length_toList]
    · rw [Text.lower, Text.lower, String.toList_ofList, alone, lowers]
  · rintro ⟨stem, spelled, rfl, -, same⟩
    have lowers : Text.lowerFrom false spelled.toList = Text.lowerFrom false ext.toList := by
      rw [← toList_lower, ← toList_lower, same]
    obtain ⟨head, inWord, split⟩ := Text.lowerFrom_append false stem.toList spelled.toList
    rw [String.toList_append, split, Text.lowerFrom_eq_of_opensOnSigma (lowers ▸ h.sigma) inWord, lowers]
    exact List.suffix_append _ _

/-- Only for a steady extension are the names of files recognised by their ends. -/
theorem steady_of_hasExt_iff (noSlash : '/' ∉ ext.toList)
    (h : ∀ name, IsName name → (hasExt name ext = true ↔ EndsIn name ext)) : Text.Steady (Text.lower ext).toList := by
  refine Text.ToldByLast.steady (n := ext.length) (fun c => isLowered_lower) (mt slash_mem_lower.1 noSlash)
    fun cs plain ⟨c, hc, other⟩ => ?_
  have isName : IsName (.ofList cs) := by
    have differs : ∀ s : String, (∀ d ∈ s.toList, d = '.') → String.ofList cs ≠ s := by
      rintro s dots rfl
      exact other (dots c (by rwa [String.toList_ofList]))
    exact ⟨⟨differs _ (by simp), differs _ (by simp), by rwa [String.toList_ofList]⟩, differs _ (by simp)⟩
  have law := h _ isName
  rw [hasExt_iff, toList_lower (.ofList cs), String.toList_ofList] at law
  rw [law]
  constructor
  · rintro ⟨stem, spelled, whole, length, same⟩
    refine ⟨stem.toList, spelled.toList, ?_, length ▸ String.length_toList, ?_⟩
    · rw [← String.toList_append, ← whole, String.toList_ofList]
    · rw [← toList_lower, same]
  · rintro ⟨before, after, rfl, length, lowers⟩
    refine ⟨.ofList before, .ofList after, String.ofList_append, ?_, ?_⟩
    · rw [String.length_ofList, length]
    · rw [Text.lower, String.toList_ofList, lowers, String.ofList_toList]

/-- No name of a file has an extension with a slash, or ends with one. -/
theorem not_hasExt_of_slash (slash : '/' ∈ ext.toList) (isName : IsName name) :
    hasExt name ext = false ∧ ¬ EndsIn name ext := by
  have plain := isName.1.2.2
  constructor
  · rw [Bool.eq_false_iff, ne_eq, hasExt_iff]
    exact fun ends => plain (slash_mem_lower.1 (ends.subset (slash_mem_lower.2 slash)))
  · rintro ⟨stem, spelled, rfl, -, same⟩
    refine plain ?_
    rw [String.toList_append]
    exact List.mem_append_right _ (slash_mem_lower.1 (same ▸ slash_mem_lower.2 slash))

theorem steady_of_allAscii {cs : List Char} (h : Text.AllAscii cs) : Text.Steady cs := by
  have absent : ∀ {c}, Text.isAscii c = false → c ∉ cs := fun hc hm => by rw [h _ hm] at hc; cases hc
  refine ⟨Bool.eq_false_iff.2 fun opens => ?_, fun mark => ?_, fun pair => ?_⟩
  · obtain ⟨lead, d, rest, whole, -, sigma, -⟩ := Text.exists_of_opensOnSigma opens
    have there : d ∈ cs := by simp [whole]
    rcases sigma with rfl | rfl
    · exact absent (by decide) there
    · exact absent (by decide) there
  · exact absent (by decide) (List.mem_of_mem_head? mark)
  · exact absent (c := '\u0307') (by decide) (pair.subset (by decide))

theorem steady_lower_of_allAscii (h : Text.AllAscii ext.toList) : Text.Steady (Text.lower ext).toList := by
  rw [toList_lower, h.lowersTo.2]
  refine steady_of_allAscii fun c hc => ?_
  obtain ⟨d, hd, rfl⟩ := List.mem_map.1 hc
  exact Text.isAscii_asciiLower (h d hd)

/-! ## What is cut off -/

/-- As many characters are cut off as the extension has. -/
theorem Splits.cut (h : Splits name ext stem spelled) (nonempty : ext ≠ "") :
    Name.stem ext.length name.toList = stem.toList ∧ suffix ext.length name.toList = spelled.toList := by
  have positive : ext.length ≠ 0 := fun zero => nonempty (String.length_eq_zero_iff.1 zero)
  have length : spelled.toList.length = ext.length := String.length_toList.trans h.length
  rw [Name.stem, suffix, if_neg positive, if_neg positive, h.whole, String.toList_append, List.length_append, length,
    Nat.add_sub_cancel, List.take_left, List.drop_left]
  exact ⟨rfl, rfl⟩

/-- The page is named by the stem, with `.html` put on unless it is there. -/
theorem Splits.outputName (h : Splits name ext stem spelled) (nonempty : ext ≠ "") (isTemplate : hasExt name ext = true) :
    Path.outputName name ext = ofPage stem := by
  rw [Path.outputName, if_pos isTemplate, toPage, (h.cut nonempty).1, String.ofList_toList]
  rfl

/-- The stem if it ends with `.html`, case apart, and otherwise the stem with `.html` put on. -/
def IsPageOf (stem made : String) : Prop :=
  (EndsIn stem pageExt → made = stem) ∧ (¬ EndsIn stem pageExt → made = stem ++ pageExt)

theorem isPageOf_ofPage (stem : String) : IsPageOf stem (ofPage stem) := by
  have ends : hasExt stem pageExt = true ↔ EndsIn stem pageExt := hasExt_iff_endsIn (steady_lower_of_allAscii (by decide))
  exact ⟨fun h => if_pos (ends.2 h), fun h => if_neg (mt ends.1 h)⟩

/-- A file of this name is a template exactly if the name ends with the extension. Then that end is cut off to name its
output, which lies in the directory that it has below the output root, and to name the directory of a partial's pages,
which have the end as it is spelled. -/
structure TakenOff (ext name : String) : Prop where
  recognised : ∀ {p : Path}, p.name = name → (p.hasTemplateExt ext = true ↔ EndsIn name ext)
  mapped : ∀ {stem spelled}, Splits name ext stem spelled → ∃ made, IsPageOf stem made ∧
    ∀ (root : String) (above : List String) (out : Path), ".." ∉ above →
      Path.output ⟨.relative, root :: (above ++ [name])⟩ out ext = .ok (out / Path.ofSegments (above ++ [made]))
  fanned : ∀ {stem spelled}, Splits name ext stem spelled →
    ∀ {template : Path} {items : List Value} {pages : List Page} {skips : List (Nat × Expansion.SkipReason)},
      template.name = name → Expansion.partialPages template ext items = .ok (pages, skips) → ∀ page ∈ pages,
        ∃ s, Expansion.IsNamed page s ∧ page.logical =
          template.parent / Path.ofString (.ofList (stem.toList.drop 1)) / Path.ofString (s ++ spelled)

/-- An extension that is recognised by the end of a name is taken off it. -/
theorem takenOff_of_hasExt_iff (nonempty : ext ≠ "") (isName : IsName name)
    (recognised : hasExt name ext = true ↔ EndsIn name ext) : TakenOff ext name where
  recognised := by
    rintro p rfl
    exact recognised
  mapped := by
    intro stem spelled splits
    refine ⟨ofPage stem, isPageOf_ofPage stem, fun root above out down => ?_⟩
    have below : ".." ∉ above ++ [name] := by simp [down, Ne.symm isName.2]
    rw [Path.output_eq_ok, Path.outputOf]
    simp [Path.isAbsolute, below, splits.outputName nonempty (recognised.2 ⟨stem, spelled, splits⟩)]
  fanned := by
    intro stem spelled splits template items pages skips named expanded page hp
    obtain ⟨-, v, s, field, text, -, placed⟩ := Expansion.named_of_partialPages expanded hp
    refine ⟨s, ⟨v, field, text⟩, ?_⟩
    obtain ⟨cut, kept⟩ := splits.cut nonempty
    rw [Page.logical, placed, Option.getD_some, Expansion.pagePlace, Expansion.pageDir, Expansion.spelledExt, named, cut,
      kept, String.ofList_toList]

/-- The extension is taken off the names of all files exactly if it is steady, or if no name of a file can have it. -/
theorem takenOff_iff (nonempty : ext ≠ "") :
    ((∀ name, IsName name → TakenOff ext name) ↔ '/' ∈ ext.toList ∨ Text.Steady (Text.lower ext).toList) ∧
      (Text.AllAscii ext.toList → Text.Steady (Text.lower ext).toList) := by
  refine ⟨⟨fun taken => ?_, ?_⟩, steady_lower_of_allAscii⟩
  · refine or_iff_not_imp_left.2 fun noSlash => steady_of_hasExt_iff noSlash fun name isName => ?_
    exact (taken name isName).recognised (p := ⟨.relative, [name]⟩) rfl
  · rintro (slash | steady) name isName
    · obtain ⟨unseen, unended⟩ := not_hasExt_of_slash slash isName
      exact takenOff_of_hasExt_iff nonempty isName (by simp [unseen, unended])
    · exact takenOff_of_hasExt_iff nonempty isName (hasExt_iff_endsIn steady)

theorem takenOff_iff_default : ".j2" ≠ "" ∧ Text.AllAscii ".j2".toList ∧ IsName "_Post.HTML.J2" ∧
    Splits "_Post.HTML.J2" ".j2" "_Post.HTML" ".J2" ∧ TakenOff ".j2" "_Post.HTML.J2" := by
  have nonempty : ".j2" ≠ "" := by decide
  have ascii : Text.AllAscii ".j2".toList := by decide
  have isName : IsName "_Post.HTML.J2" := by decide
  obtain ⟨always, steady⟩ := takenOff_iff nonempty
  exact ⟨nonempty, ascii, isName, ⟨by decide, by decide, by decide +kernel⟩, always.2 (.inr (steady ascii)) _ isName⟩

/-- A sigma is written otherwise at the end of a word, and `İ` has two characters in lower case: a name that ends with
the extension is not recognised, and one that does not end with it is and loses characters of its stem. -/
theorem sigma_extension_missed :
    Splits "a.Σ" ".Σ" "a" ".Σ" ∧ (Path.ofString "site/a.Σ").hasTemplateExt ".Σ" = false ∧
      (Path.ofString "site/a.Σ").output (.ofString "dist") ".Σ" = .ok (.ofString "dist/a.Σ") ∧
      ¬ EndsIn "page.İ" ".i\u0307" ∧ (Path.ofString "site/page.İ").hasTemplateExt ".i\u0307" = true ∧
      (Path.ofString "site/page.İ").output (.ofString "dist") ".i\u0307" = .ok (.ofString "dist/pag.html") := by
  refine ⟨⟨by decide, by decide, rfl⟩, by decide +kernel, by decide +kernel, ?_, by decide +kernel, by decide +kernel⟩
  rintro ⟨stem, spelled, whole, length, same⟩
  have split : "pag".toList ++ "e.İ".toList = stem.toList ++ spelled.toList := by
    rw [← String.toList_append (s := stem), ← whole]
    decide
  have own : spelled = "e.İ" :=
    String.toList_inj.1 (Text.eq_of_append _ split (String.length_toList.trans (length.trans (by decide))))
  rw [own] at same
  exact absurd same (by decide +kernel)

end Name

end StaticSite
