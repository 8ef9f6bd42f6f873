import StaticSite.Proofs.Expansion.Places
import StaticSite.Proofs.Path.Output
import StaticSite.Proofs.Site.Inputs
import StaticSite.Proofs.Url.Text

/-!
# Names of pages and of their outputs

The page of an element is named by the element, with the extension of the template as its name spells it. For an
extension of ASCII characters that is what the output's name loses again (`outputName_append`), so the output is named
by the element as well, with `.html` put on unless it is there. Two elements of a partial with different names share an
output only if one name is the other with `.html` put on (`page_outputs_eq_iff`).
-/

namespace StaticSite

/-! ## Lower case of ASCII text -/

namespace Text

def AllAscii (cs : List Char) : Prop := ∀ c ∈ cs, isAscii c = true

instance (cs : List Char) : Decidable (AllAscii cs) := List.decidableBAll _ cs

/-- The lower case of the characters is `lowered`, one for one and whatever is before them. -/
def LowersTo (cs lowered : List Char) : Prop :=
  cs.length = lowered.length ∧ ∀ inWord, lowerFrom inWord cs = lowered

theorem isAscii_asciiLower {c : Char} (h : isAscii c = true) : isAscii (asciiLower c) = true :=
  Url.of_ascii (P := fun c => isAscii (asciiLower c) = true) (by decide +kernel) (by simpa [isAscii] using h)

theorem AllAscii.lowersTo {cs : List Char} (h : AllAscii cs) : LowersTo cs (cs.map asciiLower) := by
  refine ⟨(List.length_map _).symm, fun inWord => ?_⟩
  induction cs generalizing inWord with
  | nil => rfl
  | cons c cs ih =>
    obtain ⟨first, rest⟩ := List.forall_mem_cons.1 h
    have notSigma : c ≠ 'Σ' := by
      rintro rfl
      exact absurd first (by decide)
    rw [lowerFrom, if_neg notSigma, lowerChar, if_pos first, ih rest]
    rfl

/-- What stands in the lower case of `c :: cs` for the character `c`. -/
def lowerPiece (inWord : Bool) (c : Char) (cs : List Char) : List Char :=
  if c = 'Σ' then [if inWord && !casedAhead cs then 'ς' else 'σ'] else lowerChar c

theorem lowerFrom_cons (inWord : Bool) (c : Char) (cs : List Char) : ∃ inWord',
    lowerFrom inWord (c :: cs) = lowerPiece inWord c cs ++ lowerFrom inWord' cs := ⟨_, rfl⟩

/-- A character whose lower case ends with ASCII characters has a single one of them as its lower case, and so it has
anywhere. -/
theorem lowerPiece_of_suffix {inWord : Bool} {c : Char} {cs lowered : List Char} (nonempty : lowered ≠ [])
    (ascii : AllAscii lowered) (h : lowered <:+ lowerPiece inWord c cs) :
    lowered.length = 1 ∧ ∀ inWord cs, lowerPiece inWord c cs = lowered := by
  have single : ∀ d, lowered <:+ [d] → lowered.length = 1 ∧ [d] = lowered := fun d hd => by
    have same := hd.eq_of_length_le (List.length_pos_iff.2 nonempty)
    exact ⟨by rw [same]; rfl, same.symm⟩
  by_cases sigma : c = 'Σ'
  · -- neither of the lower cases of a sigma is ASCII
    rw [lowerPiece, if_pos sigma] at h
    have small := ascii _ ((single _ h).2 ▸ List.mem_singleton_self _)
    split at small <;> exact absurd small (by decide)
  · simp only [lowerPiece, if_neg sigma] at h ⊢
    unfold lowerChar at h ⊢
    split at h
    · next small => rw [if_pos small]; exact ⟨(single _ h).1, fun _ _ => (single _ h).2⟩
    · next large =>
      rw [if_neg large]
      split at h
      · -- the lower case of `İ` ends with a mark that is not ASCII
        have mark : lowered.getLast nonempty = '\u0307' := (h.getLast nonempty).trans rfl
        exact absurd (ascii _ (List.getLast_mem nonempty)) (by rw [mark]; decide)
      · next other => rw [if_neg other]; exact ⟨(single _ h).1, fun _ _ => (single _ h).2⟩

theorem LowersTo.cons {c : Char} {cs lowered more : List Char} (one : lowered.length = 1)
    (first : ∀ inWord cs, lowerPiece inWord c cs = lowered) (rest : LowersTo cs more) :
    LowersTo (c :: cs) (lowered ++ more) := by
  refine ⟨by rw [List.length_cons, List.length_append, rest.1, one, Nat.add_comm], fun inWord => ?_⟩
  obtain ⟨inWord', split⟩ := lowerFrom_cons inWord c cs
  rw [split, first, rest.2]

/-- A text whose lower case is ASCII has that lower case anywhere. -/
theorem lowersTo_of_eq {inWord : Bool} {cs lowered : List Char} (ascii : AllAscii lowered)
    (h : lowerFrom inWord cs = lowered) : LowersTo cs lowered := by
  induction cs generalizing inWord lowered with
  | nil => subst h; exact ⟨rfl, fun _ => rfl⟩
  | cons c cs ih =>
    obtain ⟨inWord', split⟩ := lowerFrom_cons inWord c cs
    rw [split] at h
    subst h
    have nonempty : lowerPiece inWord c cs ≠ [] := by
      unfold lowerPiece lowerChar
      split_ifs <;> exact List.cons_ne_nil _ _
    obtain ⟨one, first⟩ := lowerPiece_of_suffix nonempty
      (fun d hd => ascii d (List.mem_append_left _ hd)) (List.suffix_refl _)
    exact .cons one first (ih (fun d hd => ascii d (List.mem_append_right _ hd)) rfl)

/-- Where the lower case of a text ends with ASCII characters, as many characters at its end stand for them. -/
theorem exists_lowersTo_of_suffix {inWord : Bool} {cs lowered : List Char} (ascii : AllAscii lowered)
    (h : lowered <:+ lowerFrom inWord cs) : ∃ before after, cs = before ++ after ∧ LowersTo after lowered := by
  induction cs generalizing inWord with
  | nil =>
    obtain rfl : lowered = [] := List.suffix_nil.1 h
    exact ⟨[], [], rfl, rfl, fun _ => rfl⟩
  | cons c cs ih =>
    obtain ⟨inWord', split⟩ := lowerFrom_cons inWord c cs
    have within : lowered <:+ lowerFrom inWord' cs →
        ∃ before after, c :: cs = before ++ after ∧ LowersTo after lowered := fun short => by
      obtain ⟨before, after, rfl, lowers⟩ := ih short
      exact ⟨c :: before, after, rfl, lowers⟩
    obtain ⟨front, whole⟩ := h
    rw [split] at whole
    rcases List.append_eq_append_iff.1 whole with ⟨own, piece, rfl⟩ | ⟨own, -, rest⟩
    · by_cases nonempty : own = []
      · subst nonempty
        exact within (List.suffix_refl _)
      · -- the end begins with the first character
        obtain ⟨one, first⟩ := lowerPiece_of_suffix nonempty
          (fun d hd => ascii d (List.mem_append_left _ hd)) ⟨front, piece.symm⟩
        have rest := lowersTo_of_eq (fun d hd => ascii d (List.mem_append_right _ hd)) (rfl : lowerFrom inWord' cs = _)
        exact ⟨[], c :: cs, rfl, .cons one first rest⟩
    · exact within ⟨own, rest.symm⟩

end Text

/-! ## Names of outputs -/

namespace Name

variable {name s s' ext : String}

/-- The name of the output of a page that is named `s`. -/
def ofPage (s : String) : String := if hasExt s pageExt then s else s ++ pageExt

/-- The output of a page named `s'` takes the place of that of a page named `s`. -/
def Shadows (s' s : String) : Prop := hasExt s pageExt = false ∧ s' = s ++ pageExt

instance (s' s : String) : Decidable (Shadows s' s) := inferInstanceAs (Decidable (_ ∧ _))

/-- Only putting `.html` on a name makes its output that of another name. -/
theorem ofPage_eq_iff : ofPage s = ofPage s' ↔ s = s' ∨ Shadows s' s ∨ Shadows s s' := by
  have shadowed : ∀ {s s'}, Shadows s' s → ofPage s = ofPage s' := by
    rintro s s' ⟨plain, rfl⟩
    rw [ofPage, ofPage, if_neg (by simp [plain]), if_pos (hasExt_append_pageExt s)]
  constructor
  · intro same
    unfold ofPage at same
    split at same
    · split at same
      · exact .inl same
      · next plain => exact .inr (.inr ⟨by simpa using plain, same⟩)
    · next plain =>
      split at same
      · exact .inr (.inl ⟨by simpa using plain, same.symm⟩)
      · exact .inl (String.append_left_inj _ |>.1 same)
  · rintro (rfl | shadows | shadows)
    · rfl
    · exact shadowed shadows
    · exact (shadowed shadows).symm

/-- As many characters as an ASCII extension has stand for it at the end of a name that has it. -/
theorem exists_lowersTo_of_hasExt (ascii : Text.AllAscii ext.toList) (h : hasExt name ext = true) :
    ∃ before after, name.toList = before ++ after ∧ after.length = ext.length ∧
      Text.LowersTo after (Text.lower ext).toList := by
  have lower : (Text.lower ext).toList = ext.toList.map Text.asciiLower := by
    rw [Text.lower, String.toList_ofList, (Text.AllAscii.lowersTo ascii).2]
  have small : Text.AllAscii (Text.lower ext).toList := by
    rw [lower]
    intro c hc
    obtain ⟨d, hd, rfl⟩ := List.mem_map.1 hc
    exact Text.isAscii_asciiLower (ascii d hd)
  have ends := hasExt_iff.1 h
  rw [Text.lower.eq_1 name, String.toList_ofList] at ends
  obtain ⟨before, after, split, lowers⟩ := Text.exists_lowersTo_of_suffix small ends
  refine ⟨before, after, split, ?_, lowers⟩
  rw [lowers.1, lower, List.length_map, String.length_toList]

/-- The output of a page that is named `s` and has the extension as it is spelled in `name` is named by `s`. -/
theorem outputName_append (ascii : Text.AllAscii ext.toList) (nonempty : ext ≠ "") (h : hasExt name ext = true)
    (s : String) : Path.outputName (s ++ String.ofList (suffix ext.length name.toList)) ext = ofPage s := by
  obtain ⟨before, after, split, length, lowers⟩ := exists_lowersTo_of_hasExt ascii h
  have positive : ext.length ≠ 0 := fun zero => nonempty (String.length_eq_zero_iff.1 zero)
  have spelled : suffix ext.length name.toList = after := by
    rw [suffix, if_neg positive, split, List.length_append, length, Nat.add_sub_cancel, List.drop_left]
  have given : (s ++ String.ofList after).toList = s.toList ++ after := by
    rw [String.toList_append, String.toList_ofList]
  have own : hasExt (s ++ String.ofList after) ext = true := by
    obtain ⟨head, inWord, lowered⟩ := Text.lowerFrom_append false s.toList after
    rw [hasExt_iff, Text.lower.eq_1 (s ++ _), String.toList_ofList, given, lowered, lowers.2]
    exact List.suffix_append _ _
  have stem : stem ext.length (s ++ String.ofList after).toList = s.toList := by
    rw [stem, if_neg positive, given, List.length_append, length, Nat.add_sub_cancel, List.take_left]
  rw [spelled, Path.outputName, if_pos own, toPage, stem, String.ofList_toList]
  rfl

end Name

/-! ## Outputs of pages -/

namespace Expansion

variable {template out : Path} {ext : String} {items : List Value} {pages : List Page}
  {skips : List (Nat × SkipReason)}

/-- The page of an element whose name has the text `s`. -/
def IsNamed (page : Page) (s : String) : Prop := ∃ v, nameOf? page.data = some v ∧ v.toText = .ok s

/-- A partial below its root directory, none of whose pages leads up there. -/
structure Spreads (template : Path) (ext : String) : Prop where
  relative : template.root = .relative
  read : template.IsRead
  long : 2 ≤ template.segments.length
  isPartial : template.isPartial = true
  isTemplate : template.hasTemplateExt ext = true
  down : ".." ∉ template.segments.drop 1
  dir : pageDir template ext ≠ ".."

/-- The directory of the outputs of a partial's pages, as it lies below the output root. -/
def outDir (template : Path) (ext : String) : List String :=
  template.segments.dropLast.drop 1 ++ Path.segmentsOf (pageDir template ext)

/-- The output of a page is named by its element and stands in the directory of its partial's outputs. -/
theorem output_of_partialPages (spreads : Spreads template ext) (ascii : Text.AllAscii ext.toList)
    (nonempty : ext ≠ "") (h : partialPages template ext items = .ok (pages, skips)) {page : Page}
    (hp : page ∈ pages) (out : Path) : ∃ s, IsNamed page s ∧
      page.output out ext = .ok (out / Path.ofSegments (outDir template ext ++ [Name.ofPage s])) := by
  obtain ⟨rfl, v, s, field, text, usable, placed⟩ := named_of_partialPages h hp
  refine ⟨s, ⟨v, field, text⟩, ?_⟩
  have planned : page.Planned ext :=
    ⟨spreads.relative, spreads.read, spreads.long, rfl, .inr ⟨spreads.isPartial, s, s, usable, placed⟩⟩
  obtain ⟨relative, long, -, up⟩ := planned.logical
  have down : ¬ page.LeadsUp ext := by
    rintro (up | ⟨-, up⟩)
    · exact spreads.down up
    · exact spreads.dir up
  have place : page.logical.segments.drop 1 =
      outDir page.template ext ++ [s ++ spelledExt page.template ext] := by
    have first : 1 ≤ page.template.segments.dropLast.length := by
      rw [List.length_dropLast]
      have := spreads.long
      omega
    rw [Page.logical, placed, Option.getD_some, (Path.pagePlace_eq spreads.read ext usable).2.2, List.append_assoc,
      List.drop_append_of_le_length first, outDir, List.append_assoc]
  rw [Page.output, Path.output_eq relative long, if_neg (mt up.1 down), Path.belowOut, place, List.dropLast_concat,
    List.getLastD_concat, spelledExt, Name.outputName_append ascii nonempty spreads.isTemplate]

theorem IsNamed.unique {page : Page} {s s' : String} (h : IsNamed page s) (h' : IsNamed page s') : s = s' := by
  obtain ⟨v, field, text⟩ := h
  obtain ⟨v', field', text'⟩ := h'
  obtain rfl := Option.some.inj (field.symm.trans field')
  exact Except.ok.inj (text.symm.trans text')

/-- Two pages of a partial have outputs, and these are one only if the elements have the same name or one name is the
other with `.html` put on, the other being without. So every page of a partial has an output of its own if no two names
are so alike. -/
theorem page_outputs_eq_iff (spreads : Spreads template ext) (ascii : Text.AllAscii ext.toList) (nonempty : ext ≠ "")
    (h : partialPages template ext items = .ok (pages, skips)) (out : Path) :
    (∀ p ∈ pages, ∀ q ∈ pages, ∀ s s', IsNamed p s → IsNamed q s' →
      ∃ o o', p.output out ext = .ok o ∧ q.output out ext = .ok o' ∧
        (o = o' ↔ s = s' ∨ Name.Shadows s' s ∨ Name.Shadows s s')) ∧
    (pages.Pairwise (fun p q => ∀ s s', IsNamed p s → IsNamed q s' →
      s ≠ s' ∧ ¬ Name.Shadows s' s ∧ ¬ Name.Shadows s s') → (pages.map (·.output out ext)).Nodup) := by
  have each : ∀ {page}, page ∈ pages → ∀ {s}, IsNamed page s →
      page.output out ext = .ok (out / Path.ofSegments (outDir template ext ++ [Name.ofPage s])) := by
    intro page hp s named
    obtain ⟨own, isNamed, output⟩ := output_of_partialPages spreads ascii nonempty h hp out
    rwa [isNamed.unique named] at output
  have same_iff : ∀ s s', out / Path.ofSegments (outDir template ext ++ [Name.ofPage s]) =
      out / Path.ofSegments (outDir template ext ++ [Name.ofPage s']) ↔
        s = s' ∨ Name.Shadows s' s ∨ Name.Shadows s s' := by
    intro s s'
    rw [← Name.ofPage_eq_iff, Path.join_ofSegments, Path.join_ofSegments]
    simp
  refine ⟨fun p hp q hq s s' hs hs' => ⟨_, _, each hp hs, each hq hs', same_iff s s'⟩, fun apart => ?_⟩
  refine List.pairwise_map.2 (apart.imp_of_mem fun {p q} hp hq differ => ?_)
  obtain ⟨s, hs, -⟩ := output_of_partialPages spreads ascii nonempty h hp out
  obtain ⟨s', hs', -⟩ := output_of_partialPages spreads ascii nonempty h hq out
  obtain ⟨different, before, after⟩ := differ s s' hs hs'
  rw [each hp hs, each hq hs']
  intro same
  rcases (same_iff s s').1 (Except.ok.inj same) with equal | shadows | shadows
  · exact different equal
  · exact before shadows
  · exact after shadows

/-- A partial whose extension is spelled in capitals. -/
def postTemplate : Path := ⟨.relative, ["site", "_post.J2"]⟩

/-- Elements of the names. -/
def elements (names : List String) : List Value := names.map fun name => .map [(.text "name", .text name)]

def postPage (name : String) : Page where
  template := postTemplate
  place := some (pagePlace postTemplate ".j2" name)
  data := [(.text "name", .text name)]

theorem nameOf?_postPage (name : String) : nameOf? (postPage name).data = some (.text name) :=
  nameOf?_of_field? (field?_namedBy (.text name)) nofun

theorem isNamed_postPage (name : String) : IsNamed (postPage name) name :=
  ⟨.text name, nameOf?_postPage name, rfl⟩

/-- Every element with a usable name has its page. -/
theorem partialPages_elements {names : List String} (usable : ∀ name ∈ names, usable? name = some name) :
    partialPages postTemplate ".j2" (elements names) = .ok (names.map postPage, []) := by
  have each : ∀ name ∈ names, elementPage postTemplate ".j2" (.map [(.text "name", .text name)]) =
      .ok (.ok (postPage name)) := by
    intro name hn
    have found : (Value.map [(.text "name", .text name)]).record? = some (postPage name).data := rfl
    simp only [elementPage, found, Option.bind_some, nameOf?_postPage, pageName?, usable name hn]
    rfl
  have results : (elements names).mapM (elementPage postTemplate ".j2") = .ok ((names.map postPage).map .ok) := by
    refine mapM_eq_ok_iff.2 ?_
    simp only [elements, List.forall₂_map_left_iff, List.forall₂_map_right_iff, List.forall₂_same]
    exact each
  refine partialPages_eq_ok.2 ⟨_, results, ?_, ?_⟩
  · rw [pages_keptOf]
    simp [List.filterMap_map, Function.comp_def, Except.toOption]
  · refine (List.eq_nil_iff_forall_not_mem.2 ?_).symm
    rintro ⟨i, reason⟩ skipped
    obtain ⟨page, -, same⟩ := List.mem_map.1 (List.mem_of_getElem? (mem_skippedOf.1 skipped))
    cases same

theorem page_outputs_eq_iff_post : Spreads postTemplate ".j2" ∧
    partialPages postTemplate ".j2" (elements ["a", "b"]) = .ok ([postPage "a", postPage "b"], []) ∧
      ([postPage "a", postPage "b"].map (·.output (.ofString "dist") ".j2")).Nodup := by
  have spreads : Spreads postTemplate ".j2" :=
    ⟨rfl, by decide, by decide, by decide, by decide +kernel, by decide, by decide⟩
  have expanded : partialPages postTemplate ".j2" (elements ["a", "b"]) = .ok ([postPage "a", postPage "b"], []) :=
    partialPages_elements (by decide)
  refine ⟨spreads, expanded, (page_outputs_eq_iff spreads (by decide) (by decide) expanded _).2 ?_⟩
  refine List.pairwise_pair.2 fun s s' hs hs' => ?_
  rw [hs.unique (isNamed_postPage "a"), hs'.unique (isNamed_postPage "b")]
  decide +kernel

/-- Names that differ by `.html` at the end have one output. -/
theorem page_outputs_eq_of_html : ∃ pages,
    partialPages postTemplate ".j2" (elements ["a", "a.html"]) = .ok (pages, []) ∧
      ∃ p ∈ pages, ∃ q ∈ pages, ∃ s s', IsNamed p s ∧ IsNamed q s' ∧ s ≠ s' ∧
        ∃ o, p.output (.ofString "dist") ".j2" = .ok o ∧ q.output (.ofString "dist") ".j2" = .ok o := by
  have expanded : partialPages postTemplate ".j2" (elements ["a", "a.html"]) =
      .ok ([postPage "a", postPage "a.html"], []) := partialPages_elements (by decide)
  refine ⟨_, expanded, _, .head _, _, .tail _ (.head _), _, _, isNamed_postPage "a", isNamed_postPage "a.html",
    by decide, .ofString "dist/post/a.html", ?_⟩
  decide +kernel

end Expansion

end StaticSite
