import StaticSite.Proofs.Path.Output
import StaticSite.Proofs.Site.Manifest
import StaticSite.Proofs.Url.Escaping

/-!
# Lines as addresses

With a prefix, a line of the sitemap is the URL of the prefix and the page's path put together. As that is read as a
URL before it is escaped, the line leads to the page exactly if no name in the path holds a character that ends a path
or that is dropped from URLs (`line_addresses_iff`).
-/

namespace StaticSite

namespace Path

/-- `o` is the output path of a source, at `rel` below the output root. -/
def IsOutput (out o rel : Path) : Prop :=
  ∃ source ext, (ofString source).outputOf out ext = .ok o ∧ o.relativeTo? out = some rel

variable {out o rel : Path}

theorem IsOutput.exists_below (h : IsOutput out o rel) :
    ∃ below, (ofSegments below).IsRead ∧ rel = ofSegments below ∧ o = out / ofSegments below := by
  obtain ⟨source, ext, ho, found⟩ := h
  obtain ⟨rfl, -⟩ := outputOf_ok ho
  rw [relativeTo?_join] at found
  exact ⟨_, isRead_belowOut (output_eq_ok.2 ho) (isRead_ofString source), (Option.some.inj found).symm, rfl⟩

end Path

namespace Sitemap

open Path (IsOutput)

/-! ## Prefixes -/

/-- The text is an absolute URL, as one of `http` or `https`, without query, fragment and percent signs. -/
structure IsBase (lead : String) (u : Url) : Prop where
  read : Url.ofChars? lead.toList = .ok u
  scheme : u.scheme ≠ []
  authority : u.authority ≠ []
  question : '?' ∉ lead.toList
  hash : '#' ∉ lead.toList
  percent : '%' ∉ lead.toList

/-- What is put between a prefix and a path. -/
def joint (lead : String) : List Char := if lead.endsWith "/" then [] else ['/']

variable {lead : String} {u : Url} {out o rel : Path}

theorem eq_slash_of_mem_joint {c : Char} (h : c ∈ joint lead) : c = '/' := by
  unfold joint at h
  split at h
  · cases h
  · exact List.mem_singleton.1 h

theorem toList_withSlash (lead : String) : (withSlash lead).toList = lead.toList ++ joint lead := by
  unfold withSlash joint
  split <;> simp

theorem IsBase.ne_empty (base : IsBase lead u) : lead ≠ "" := by
  rintro rfl
  have read := base.read
  cases read
  exact base.scheme rfl

/-- The URL that the prefix with the text behind it is read as. -/
def joined (lead : String) (u : Url) (text : String) : Url :=
  .ofParts u.scheme u.authority (u.path ++ (joint lead ++ text.toList).filter Url.isKept)

theorem IsBase.ofChars?_joined (base : IsBase lead u) (text : String) :
    Url.ofChars? (withSlash lead ++ text).toList = .ok (joined lead u text) := by
  rw [String.toList_append, toList_withSlash, List.append_assoc]
  refine Url.ofChars?_append base.read base.scheme base.authority base.question base.hash ?_
  by_cases slash : lead.endsWith "/"
  · left
    rw [String.endsWith_eq_endsWith_toSlice, String.Slice.endsWith_string_iff, String.copy_toSlice] at slash
    obtain ⟨front, whole⟩ := slash
    have read := base.read
    have question := base.question
    have hash := base.hash
    rw [← whole, List.mem_append, not_or] at question hash
    rw [← whole] at read
    exact Url.path_ne_nil_of_slash read base.scheme base.authority question.1 hash.1
  · exact .inr (by rw [joint, if_neg slash]; rfl)

/-! ## Lines -/

/-- The line is a URL without query and fragment, and its path stands for that of the prefix with the path `rel`
behind it. -/
def Addresses (lead : String) (u : Url) (rel : Path) (line : String) : Prop :=
  ∃ v, Url.ofChars? line.toList = .ok v ∧ v.query = [] ∧ v.fragment = [] ∧
    Url.decoded v.path = Url.octets (u.path ++ joint lead ++ rel.text.toList)

/-- No name in the path holds a character that ends a path in a URL or is dropped from it. -/
def Passes (rel : Path) : Prop := ∀ s ∈ rel.segments, ∀ c ∈ "?#\t\r\n".toList, c ∉ s.toList

instance (rel : Path) : Decidable (Passes rel) :=
  decidable_of_iff (rel.segments.all fun s => "?#\t\r\n".toList.all fun c => c ∉ s.toList) (by
    simp only [Passes, List.all_eq_true, decide_eq_true_eq])

theorem passes_iff : Passes rel ↔ ∀ c ∈ rel.text.toList, c ≠ '?' ∧ c ≠ '#' ∧ Url.isKept c = true := by
  have inText : ∀ c ∈ "?#\t\r\n".toList, c ∈ rel.text.toList ↔ ∃ s ∈ rel.segments, c ∈ s.toList := fun c hc =>
    Path.mem_text (fun he => absurd (he ▸ hc) (by decide)) fun he => absurd (he ▸ hc) (by decide)
  constructor
  · intro passes c hc
    have other : ∀ d ∈ "?#\t\r\n".toList, c ≠ d := fun d hd he => by
      obtain ⟨s, hs, hm⟩ := (inText d hd).1 (he ▸ hc)
      exact passes s hs d hd hm
    have tab := other '\t' (by decide)
    have carriage := other '\r' (by decide)
    have line := other '\n' (by decide)
    exact ⟨other '?' (by decide), other '#' (by decide), decide_eq_true ⟨tab, carriage, line⟩⟩
  · intro plain s hs c hc hm
    obtain ⟨question, hash, kept⟩ := plain c ((inText c hc).2 ⟨s, hs, hm⟩)
    have listed : c = '?' ∨ c = '#' ∨ c = '\t' ∨ c = '\r' ∨ c = '\n' := by simpa using hc
    rcases listed with rfl | rfl | rfl | rfl | rfl
    · exact question rfl
    · exact hash rfl
    all_goals exact absurd kept (by decide)

/-- The line of an output path can always be made, and is read as the URL before it, escaped. -/
theorem IsBase.exists_line (base : IsBase lead u) (h : IsOutput out o rel) :
    ∃ line, Sitemap.line o out (some lead) = .ok line ∧
      Url.ofChars? line.toList = .ok (joined lead u rel.text).escaped := by
  obtain ⟨below, -, rfl, rfl⟩ := h.exists_below
  have read := base.ofChars?_joined (Path.ofSegments below).text
  have given : lead? (some lead) = some lead := by simp [lead?, Option.filter, base.ne_empty]
  refine ⟨String.ofList (joined lead u (Path.ofSegments below).text).escaped.text, ?_, ?_⟩
  · rw [line_eq, given]
    dsimp only
    rw [Url.encode, read]
    rfl
  · rw [String.toList_ofList]
    exact (Url.isRead_of_ofChars? read base.scheme base.authority).escaped.ofChars?_text

theorem IsBase.percent_notMem (base : IsBase lead u) (h : ∀ s ∈ rel.segments, '%' ∉ s.toList) :
    '%' ∉ (joined lead u rel.text).path := by
  intro hm
  have among := Url.mem_of_mem_path (base.ofChars?_joined rel.text) base.scheme base.authority hm
  rw [String.toList_append, toList_withSlash, List.mem_append, List.mem_append] at among
  rcases among with (hc | hc) | hc
  · exact base.percent hc
  · exact absurd (eq_slash_of_mem_joint hc) (by decide)
  · obtain ⟨s, hs, hc⟩ := (Path.mem_text (by decide) (by decide)).1 hc
    exact h s hs hc

/-- A text that passes whole becomes the end of the path. -/
theorem IsBase.joined_eq (base : IsBase lead u) {text : String}
    (plain : ∀ c ∈ text.toList, c ≠ '?' ∧ c ≠ '#' ∧ Url.isKept c = true) :
    joined lead u text = ⟨u.scheme, u.authority, u.path ++ (joint lead ++ text.toList), [], []⟩ := by
  have start := (Url.isRead_of_ofChars? base.read base.scheme base.authority).pathPlain
  have slash : ∀ c ∈ joint lead, c ≠ '?' ∧ c ≠ '#' ∧ Url.isKept c = true := fun c hc =>
    eq_slash_of_mem_joint hc ▸ by decide
  have added := List.forall_mem_append.2 ⟨slash, plain⟩
  rw [joined, List.filter_eq_self.2 fun c hc => (added c hc).2.2]
  refine Url.ofParts_of_plain (fun hm => ?_) fun hm => ?_
  · exact (List.mem_append.1 hm).elim start.1 fun hm => (added _ hm).1 rfl
  · exact (List.mem_append.1 hm).elim start.2 fun hm => (added _ hm).2.1 rfl

theorem IsBase.addresses_iff (base : IsBase lead u) (percent : ∀ s ∈ rel.segments, '%' ∉ s.toList) {line : String}
    (read : Url.ofChars? line.toList = .ok (joined lead u rel.text).escaped) :
    Addresses lead u rel line ↔ Passes rel := by
  have path := base.percent_notMem percent
  rw [passes_iff]
  constructor
  · rintro ⟨v, hv, -, -, decodes⟩
    rw [read] at hv
    cases hv
    -- all of the path is still there, and a path that has been read holds none of the characters
    have whole := Url.octets_injective ((Url.decoded_escapePath path).symm.trans decodes)
    have isRead := Url.isRead_of_ofChars? (base.ofChars?_joined rel.text) base.scheme base.authority
    intro c hc
    have among : c ∈ (joined lead u rel.text).path := whole ▸ List.mem_append_right _ hc
    refine ⟨fun he => isRead.pathPlain.1 (he ▸ among), fun he => isRead.pathPlain.2 (he ▸ among), ?_⟩
    exact isRead.kept c (by simp [among])
  · intro plain
    have whole := base.joined_eq plain
    refine ⟨_, read, ?_, ?_, ?_⟩
    · rw [whole]
      rfl
    · rw [whole]
      rfl
    · rw [Url.escaped, Url.decoded_escapePath path, whole, List.append_assoc]

/-- A line leads to one output path only. -/
theorem Addresses.unique {o' rel' : Path} {line : String} (h : Addresses lead u rel line)
    (h' : Addresses lead u rel' line) (ho : IsOutput out o rel) (ho' : IsOutput out o' rel') : o = o' := by
  obtain ⟨v, read, -, -, decodes⟩ := h
  obtain ⟨v', read', -, -, decodes'⟩ := h'
  cases read.symm.trans read'
  obtain ⟨below, isRead, rfl, rfl⟩ := ho.exists_below
  obtain ⟨below', isRead', rfl, rfl⟩ := ho'.exists_below
  have texts := List.append_cancel_left (Url.octets_injective (decodes.symm.trans decodes'))
  have same : Path.ofSegments below = Path.ofSegments below' := by
    rw [← Path.ofString_text isRead, String.toList_inj.1 texts, Path.ofString_text isRead']
  rw [same]

/-- With an absolute URL as prefix, the line of every page without percent signs in its names is a URL, and leads to
the page exactly if no name holds a character that ends a path or is dropped. Two such pages never have the same
line. -/
theorem line_addresses_iff (base : IsBase lead u) :
    (∀ o rel, IsOutput out o rel → (∀ s ∈ rel.segments, '%' ∉ s.toList) →
        ∃ line, Sitemap.line o out (some lead) = .ok line ∧ (Addresses lead u rel line ↔ Passes rel)) ∧
      ∀ o o' rel rel' line, IsOutput out o rel → IsOutput out o' rel' → (∀ s ∈ rel.segments, '%' ∉ s.toList) →
        (∀ s ∈ rel'.segments, '%' ∉ s.toList) → Passes rel → Passes rel' →
        Sitemap.line o out (some lead) = .ok line → Sitemap.line o' out (some lead) = .ok line → o = o' := by
  have leads : ∀ o rel, IsOutput out o rel → (∀ s ∈ rel.segments, '%' ∉ s.toList) →
      ∃ line, Sitemap.line o out (some lead) = .ok line ∧ (Addresses lead u rel line ↔ Passes rel) := by
    intro o rel h percent
    obtain ⟨line, made, read⟩ := base.exists_line h
    exact ⟨line, made, base.addresses_iff percent read⟩
  refine ⟨leads, fun o o' rel rel' line h h' percent percent' passes passes' made made' => ?_⟩
  obtain ⟨_, first, addresses⟩ := leads o rel h percent
  obtain ⟨_, second, addresses'⟩ := leads o' rel' h' percent'
  cases made.symm.trans first
  cases made'.symm.trans second
  exact (addresses.2 passes).unique (addresses'.2 passes') h h'

/-- The URL of a host. -/
def hostUrl : Url := ⟨"https".toList, ['x'], [], [], []⟩

theorem isBase_hostUrl : IsBase "https://x" hostUrl := by
  constructor <;> decide +kernel

/-- The line of the page `a b` leads to it, and that of the page `a?b` does not. -/
theorem line_addresses_iff_both :
    (∃ line, Sitemap.line (.ofString "dist/a b.html") (.ofString "dist") (some "https://x") = .ok line ∧
        Addresses "https://x" hostUrl (.ofSegments ["a b.html"]) line) ∧
      ∃ line, Sitemap.line (.ofString "dist/a?b.html") (.ofString "dist") (some "https://x") = .ok line ∧
        ¬ Addresses "https://x" hostUrl (.ofSegments ["a?b.html"]) line := by
  obtain ⟨leads, -⟩ := @line_addresses_iff "https://x" hostUrl (.ofString "dist") isBase_hostUrl
  constructor
  · have placed : IsOutput (.ofString "dist") (.ofString "dist/a b.html") (.ofSegments ["a b.html"]) :=
      ⟨"site/a b.j2", ".j2", by decide +kernel, by decide +kernel⟩
    obtain ⟨line, made, addresses⟩ := leads _ _ placed (by decide)
    exact ⟨line, made, addresses.2 (by decide)⟩
  · have placed : IsOutput (.ofString "dist") (.ofString "dist/a?b.html") (.ofSegments ["a?b.html"]) :=
      ⟨"site/a?b.j2", ".j2", by decide +kernel, by decide +kernel⟩
    obtain ⟨line, made, addresses⟩ := leads _ _ placed (by decide)
    exact ⟨line, made, fun leads => absurd (addresses.1 leads) (by decide)⟩

/-- The line of the page `a?b` is a URL with a query, and a page with a tab in its name has the line of another. -/
theorem question_line_misleads :
    IsBase "https://x" hostUrl ∧
      (IsOutput (.ofString "dist") (.ofString "dist/a?b.html") (.ofSegments ["a?b.html"]) ∧
        Sitemap.line (.ofString "dist/a?b.html") (.ofString "dist") (some "https://x") = .ok "https://x/a?b.html" ∧
        ∃ v, Url.ofChars? "https://x/a?b.html".toList = .ok v ∧ v.query = "b.html".toList ∧ v.path = "/a".toList) ∧
      (IsOutput (.ofString "dist") (.ofString "dist/a\tb.html") (.ofSegments ["a\tb.html"]) ∧
        IsOutput (.ofString "dist") (.ofString "dist/ab.html") (.ofSegments ["ab.html"]) ∧
        ∀ output ∈ ["dist/a\tb.html", "dist/ab.html"],
          Sitemap.line (.ofString output) (.ofString "dist") (some "https://x") = .ok "https://x/ab.html") := by
  refine ⟨isBase_hostUrl, ⟨⟨"site/a?b.j2", ".j2", ?_, ?_⟩, ?_, ?_⟩, ⟨"site/a\tb.j2", ".j2", ?_, ?_⟩,
    ⟨"site/ab.j2", ".j2", ?_, ?_⟩, ?_⟩
  case refine_4 => exact ⟨⟨"https".toList, ['x'], "/a".toList, "b.html".toList, []⟩, by decide +kernel, rfl, rfl⟩
  all_goals decide +kernel

end Sitemap

end StaticSite
