import StaticSite.Proofs.Site.Manifest
import StaticSite.Proofs.Text.File

/-!
# The sitemap read back

The lines of a sitemap are put together with line feeds and not escaped, unless there is a prefix. Reading the file and
splitting it gives them back if none of them has a line feed of its own, and only then (`pieces_text_eq_iff`). Neither
the names of templates nor those of a partial's elements are kept from having one, so it can happen that the file has
more lines than there are pages (`broken_sitemap_misread`); `sitemap_reads_back_iff` says exactly when it does not.
-/

namespace StaticSite

/-! ## Texts of several lines -/

namespace Text

theorem joinWith_eq_intercalate (sep : Char) (pieces : List (List Char)) :
    joinWith sep pieces = [sep].intercalate pieces := by
  induction pieces with
  | nil => rfl
  | cons piece rest ih =>
    cases rest with
    | nil => simp [joinWith, List.intercalate]
    | cons next rest =>
      rw [joinWith, ih]
      · simp [List.intercalate]
      · exact List.cons_ne_nil _ _

theorem notMem_of_mem_pieces {sep : Char} {s piece : String} (h : piece ∈ pieces sep s) : sep ∉ piece.toList := by
  obtain ⟨cs, hcs, rfl⟩ := List.mem_map.1 h
  rw [String.toList_ofList]
  exact notMem_of_mem_splitOn hcs

theorem mem_of_mem_pieces {sep c : Char} {s piece : String} (h : piece ∈ pieces sep s) (hc : c ∈ piece.toList) :
    c ∈ s.toList := by
  obtain ⟨cs, hcs, rfl⟩ := List.mem_map.1 h
  rw [String.toList_ofList] at hc
  exact mem_of_mem_splitOn hcs hc

theorem bytes_of_encode {s : String} {bytes : ByteArray} (h : encode s = .ok bytes) : bytes = s.toUTF8 := by
  unfold encode at h
  split at h
  · cases h
  · exact (Except.ok.inj h).symm

end Text

namespace Sitemap

open Text (pieces unixLines)

variable {lines : List String} {out : Path} {ext : String} {lead : Option String} {pages : List Page} {page : Page}

theorem toList_text (lines : List String) : (text lines).toList = Text.joinWith '\n' (lines.map String.toList) := by
  rw [Text.joinWith_eq_intercalate, text, String.toList_intercalate]
  rfl

theorem mem_toList_text {c : Char} (h : c ∈ (text lines).toList) : c = '\n' ∨ ∃ line ∈ lines, c ∈ line.toList := by
  rw [toList_text] at h
  simpa using Text.mem_joinWith h

/-- The lines are found again if they are lines, that is if none of them has a line feed. -/
theorem pieces_text_eq_iff (h : lines ≠ []) : pieces '\n' (text lines) = lines ↔ ∀ line ∈ lines, '\n' ∉ line.toList := by
  refine ⟨fun same line hm => Text.notMem_of_mem_pieces (same.symm ▸ hm), fun whole => ?_⟩
  have found : Text.splitOn '\n' (text lines).toList = lines.map String.toList := by
    rw [toList_text]
    exact Text.splitOn_joinWith (by simpa using h) (List.forall_mem_map.2 whole)
  simp [pieces, found, Function.comp_def]

/-- Where a carriage return is read as an end of a line too, there must be none either. -/
theorem pieces_unixLines_text_eq_iff (h : lines ≠ []) :
    pieces '\n' (String.ofList (unixLines (text lines).toList)) = lines ↔
      ∀ line ∈ lines, '\n' ∉ line.toList ∧ '\r' ∉ line.toList := by
  constructor
  · intro same line hm
    rw [← same] at hm
    refine ⟨Text.notMem_of_mem_pieces hm, fun hc => ?_⟩
    have left := Text.mem_of_mem_pieces hm hc
    rw [String.toList_ofList] at left
    exact Text.notMem_unixLines _ left
  · intro whole
    have noReturn : '\r' ∉ (text lines).toList := fun hc => by
      obtain hc | ⟨line, hm, hc⟩ := mem_toList_text hc
      · cases hc
      · exact (whole line hm).2 hc
    rw [Text.unixLines_eq_self_iff.2 noReturn, String.ofList_toList]
    exact (pieces_text_eq_iff h).2 fun line hm => (whole line hm).1

/-! ## Lines without a prefix -/

/-- A page's line where there is no prefix: its path below the output root. -/
def bareLine (ext : String) (page : Page) : String := (Path.ofSegments (page.logical.belowOut ext)).text

theorem bareLine_of_pageLine (bare : lead? lead = none) {made : String} (h : pageLine out ext lead page = .ok made) :
    page.output out ext = .ok (out / .ofSegments (page.logical.belowOut ext)) ∧ made = bareLine ext page := by
  obtain ⟨o, ho, hl⟩ := bind_eq_ok_iff.1 h
  have place := mapError_eq_ok_iff.1 ho
  obtain ⟨rfl, -⟩ := Path.output_ok place
  rw [line_eq, bare] at hl
  exact ⟨place, (Except.ok.inj hl).symm⟩

theorem lines_eq_map (bare : lead? lead = none) (h : Sitemap.lines out ext lead pages = .ok lines) :
    lines = pages.map (bareLine ext) := by
  have each : List.Forall₂ (fun page made => bareLine ext page = made) pages lines :=
    (forall₂_of_mapM h).imp fun page made hm => (bareLine_of_pageLine bare hm).2.symm
  rw [← List.forall₂_map_left_iff, List.forall₂_eq_eq_eq] at each
  exact each.symm

theorem notMem_bareLine_iff {c : Char} (hs : c ≠ '/') (hd : c ≠ '.') :
    c ∉ (bareLine ext page).toList ↔ ∀ s ∈ page.logical.belowOut ext, c ∉ s.toList := by
  rw [bareLine, Path.mem_text hs hd]
  simp [Path.ofSegments]

end Sitemap

namespace Site

open Sitemap (bareLine notMem_bareLine_iff)

variable {site : Site} {t : FileTree} {pages : List Page} {lines : List String}

/-- What was written of a sitemap can be read, and is its text. -/
theorem read_writeSitemap (h : (site.writeSitemap t lines).2 = .ok ()) :
    (site.writeSitemap t lines).1.read ((site.dir / site.out).child Sitemap.fileName) =
      .ok (Sitemap.text lines).toUTF8 := by
  obtain ⟨bytes, encoded, read⟩ := read_writeText h
  rwa [Text.bytes_of_encode encoded] at read

/-- A sitemap without a prefix has one line a page, in order: the way from the output root to the page. When it could
be written, splitting what the file holds at line feeds gives the lines back exactly if no page's path below the output
root has a line feed; if the file is read with carriage returns as ends of lines, exactly if none has either. -/
theorem sitemap_reads_back_iff (found : pages ≠ []) (bare : Sitemap.lead? site.options.sitemapPrefix = none)
    (made : site.sitemapLines pages = .ok lines) (written : (site.writeSitemap t lines).2 = .ok ()) :
    List.Forall₂ (fun page line => ∃ rel, page.output site.out site.ext = .ok (site.out / rel) ∧ line = rel.text)
      pages lines ∧
    ∃ bytes, (site.writeSitemap t lines).1.read ((site.dir / site.out).child Sitemap.fileName) = .ok bytes ∧
      (∃ s, Text.decode bytes = .ok s ∧ (Text.pieces '\n' s = lines ↔
        ∀ page ∈ pages, ∀ name ∈ page.logical.belowOut site.ext, '\n' ∉ name.toList)) ∧
      ∃ s, Text.ofFile bytes = .ok s ∧ (Text.pieces '\n' s = lines ↔
        ∀ page ∈ pages, ∀ name ∈ page.logical.belowOut site.ext, '\n' ∉ name.toList ∧ '\r' ∉ name.toList) := by
  have same : lines = pages.map (bareLine site.ext) := Sitemap.lines_eq_map bare made
  have filled : lines ≠ [] := by simpa [same] using found
  refine ⟨(forall₂_of_mapM made).imp fun page line h => ⟨_, Sitemap.bareLine_of_pageLine bare h⟩, _,
    read_writeSitemap written, ⟨_, Text.decode_toUTF8 _, ?_⟩, ⟨_, Text.ofFile_toUTF8 _, ?_⟩⟩
  · rw [Sitemap.pieces_text_eq_iff filled, same, List.forall_mem_map]
    simp only [notMem_bareLine_iff, ne_eq, Char.reduceEq, not_false_eq_true]
  · rw [Sitemap.pieces_unixLines_text_eq_iff filled, same, List.forall_mem_map]
    simp only [notMem_bareLine_iff, ne_eq, Char.reduceEq, not_false_eq_true, forall_and]

/-- The small project with a sitemap: both lines are found again in the file, however it is read. -/
theorem sitemap_reads_back_small :
    let site := listedSite none
    ∃ lines, site.sitemapLines smallPages = .ok lines ∧ (site.writeSitemap smallTree lines).2 = .ok () ∧
      ∃ bytes s, (site.writeSitemap smallTree lines).1.read ((site.dir / site.out).child Sitemap.fileName) = .ok bytes ∧
        Text.ofFile bytes = .ok s ∧ Text.pieces '\n' s = ["a/x.html", "b/y.html"] := by
  intro site
  have made : site.sitemapLines smallPages = .ok ["a/x.html", "b/y.html"] := by decide +kernel
  have written : (site.writeSitemap smallTree ["a/x.html", "b/y.html"]).2 = .ok () := by decide +kernel
  obtain ⟨-, bytes, read, -, s, decoded, again⟩ := sitemap_reads_back_iff (by decide) rfl made written
  exact ⟨_, made, written, bytes, s, read, decoded, again.2 (by decide +kernel)⟩

/-- A template whose name has a line feed. -/
def brokenTree : FileTree := ⟨[(["p"], .dir), (["p", "site"], .dir), (["p", "site", "a\nb.j2"], .file .empty)]⟩

/-- Its page has one line in the sitemap, and the file has two. -/
theorem broken_sitemap_misread :
    let site := listedSite none
    ∃ x bytes s, expandEntries brokenTree site.bindings site.ext ["site/*.j2"] = .ok x ∧ x.pages ≠ [] ∧
      Sitemap.lead? site.options.sitemapPrefix = none ∧ site.sitemapLines x.pages = .ok ["a\nb.html"] ∧
      (site.writeSitemap brokenTree ["a\nb.html"]).2 = .ok () ∧
      (site.writeSitemap brokenTree ["a\nb.html"]).1.read ((site.dir / site.out).child Sitemap.fileName) = .ok bytes ∧
      Text.decode bytes = .ok s ∧ Text.pieces '\n' s = ["a", "b.html"] := by
  intro site
  have expanded : expandEntries brokenTree site.bindings site.ext ["site/*.j2"] =
      .ok { pages := [{ template := ⟨.relative, ["site", "a\nb.j2"]⟩ }] } :=
    expandEntries_of_whole [⟨.relative, ["site", "a\nb.j2"]⟩] (by decide +kernel) (by decide +kernel) (by decide)
  have written : (site.writeSitemap brokenTree ["a\nb.html"]).2 = .ok () := by decide +kernel
  exact ⟨_, _, _, expanded, by simp, rfl, by decide +kernel, written, read_writeSitemap written, Text.decode_toUTF8 _,
    by decide +kernel⟩

end Site

end StaticSite
