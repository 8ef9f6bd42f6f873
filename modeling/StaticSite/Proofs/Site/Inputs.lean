import StaticSite.Proofs.Expansion.Roots
import StaticSite.Proofs.FileTree.Rewritten
import StaticSite.Proofs.Site.AnyProcess
import StaticSite.Proofs.Site.Targets

/-!
# What is taken for input

A build puts files below the output root only, and gives them names that are no templates' names, unless the
extension of templates goes with that of pages or with the name of the sitemap (`Target.product`). So however many
builds are run, an asset is a file that was there before the first one and lies outside of the output root, and so is
a template if its extension is foreign to what is made (`builds_keep_inputs`). Where the extension is that of
pages, pages are taken for templates by the next build (`page_becomes_template`).
-/

namespace StaticSite

open Path (collapse)

/-! ## Names of what is made -/

namespace Text

/-- The lower case of a text ends with that of its end, but for a sigma that depends on what is before it. -/
theorem lowerFrom_append (inWord : Bool) (cs more : List Char) :
    ∃ head inWord', lowerFrom inWord (cs ++ more) = head ++ lowerFrom inWord' more := by
  induction cs generalizing inWord with
  | nil => exact ⟨[], inWord, rfl⟩
  | cons c cs ih =>
    obtain ⟨head, inWord', rest⟩ := ih (if caseIgnorable.mem c then inWord else cased.mem c)
    exact ⟨_ ++ head, inWord', by rw [List.cons_append, lowerFrom, rest, List.append_assoc]⟩

end Text

namespace Name

variable {name ext : String}

theorem hasExt_iff : hasExt name ext = true ↔ (Text.lower ext).toList <:+ (Text.lower name).toList := by
  rw [hasExt, List.isSuffixOf_iff_suffix]

theorem hasExt_append_pageExt (s : String) : hasExt (s ++ pageExt) pageExt = true := by
  obtain ⟨head, inWord, split⟩ := Text.lowerFrom_append false s.toList pageExt.toList
  have ending : ∀ b, Text.lowerFrom b pageExt.toList = (Text.lower pageExt).toList := by decide +kernel
  have lowered : (Text.lower (s ++ pageExt)).toList = head ++ (Text.lower pageExt).toList := by
    rw [Text.lower, String.toList_ofList, String.toList_append, split, ending]
  rw [hasExt_iff, lowered]
  exact List.suffix_append _ _

/-- An output has the template extension only if it has that of pages. -/
theorem hasExt_outputName (h : hasExt (Path.outputName name ext) ext = true) :
    hasExt (Path.outputName name ext) pageExt = true := by
  unfold Path.outputName at h ⊢
  split
  · unfold toPage
    dsimp only
    split
    · next isPage => exact isPage
    · exact hasExt_append_pageExt _
  · next plain => rw [if_neg plain] at h; exact absurd h plain

end Name

namespace Site

open FileTree (Puts trail)

variable {site : Site} {t u : FileTree} {entries : List String} {pages : List Page} {sources : List Path}

/-- The name is one that builds give to what they make: that of a page or of the sitemap. -/
def MadeName (site : Site) (name : String) : Prop :=
  Name.hasExt name pageExt = true ∨ site.options.sitemap = true ∧ name = Sitemap.fileName

/-- No name that builds give to what they make has the template extension. -/
def Foreign (site : Site) : Prop :=
  ¬ (Text.lower site.ext).toList <:+ (Text.lower pageExt).toList ∧
    ¬ (Text.lower pageExt).toList <:+ (Text.lower site.ext).toList ∧
    (site.options.sitemap = true → Name.hasExt Sitemap.fileName site.ext = false)

instance (site : Site) : Decidable (Foreign site) := inferInstanceAs (Decidable (_ ∧ _ ∧ _))

theorem Foreign.not_madeName (h : Foreign site) {name : String} (hn : Name.hasExt name site.ext = true) :
    ¬ MadeName site name := by
  rintro (isPage | ⟨wanted, rfl⟩)
  · rcases List.suffix_or_suffix_of_suffix (Name.hasExt_iff.1 hn) (Name.hasExt_iff.1 isPage) with short | long
    · exact h.1 short
    · exact h.2.1 long
  · rw [h.2.2 wanted] at hn
    cases hn

/-! ## What builds make -/

/-- The location of what a build makes: it lies below the output root, and its name has the template extension only
if it is one that builds give. -/
def Product (site : Site) (l : Location) : Prop :=
  IsInside site l ∧ ∃ above name, l = above ++ [name] ∧ (Name.hasExt name site.ext = true → MadeName site name)

theorem Product.madeName {above : Location} {name : String} (h : Product site (above ++ [name]))
    (hn : Name.hasExt name site.ext = true) : MadeName site name := by
  obtain ⟨-, above', name', same, made⟩ := h
  obtain rfl : name = name' := List.singleton_inj.1 (List.append_inj_right' same rfl)
  exact made hn

theorem product_output {p o : Path} (ho : p.output site.out site.ext = .ok o) (hr : "." ∉ p.segments) :
    Product site (collapse (site.dir / o).segments) := by
  have place : collapse (site.dir / o).segments = (site.outLocation ++ (p.segments.drop 1).dropLast) ++
      [Path.outputName ((p.segments.drop 1).getLastD "") site.ext] := by
    rw [location_of_output ho hr, List.append_assoc]
    rfl
  exact ⟨isInside_output ho hr, _, _, place, fun h => .inl (Name.hasExt_outputName h)⟩

/-- All targets of a build are products. -/
theorem Target.product (hp : Dotless pages)
    (hs : ∀ source ∈ sources, "." ∉ source.segments ∧ site.isAsset source = true) {l : Location}
    (h : Target site pages sources l) : Product site l := by
  cases h with
  | sitemap wanted =>
    rw [location_of_sitemap]
    exact ⟨isInside_append (by simp [sitemapBelow]), site.outLocation, _, rfl, fun _ => .inr ⟨wanted, rfl⟩⟩
  | page hm _ ho => exact product_output ho (hp _ hm)
  | copy hm ho => exact product_output ho (hs _ hm).1
  | @copyInside source o hm ho =>
    obtain ⟨dots, asset⟩ := hs _ hm
    obtain ⟨plain, outside⟩ : source.hasTemplateExt site.ext = false ∧ site.isOutput source = false := by
      simpa [isAsset] using asset
    refine ⟨isInside_entered ho dots outside, site.outLocation ++ source.belowOut site.ext, source.name, ?_,
      fun h => ?_⟩
    · rw [location_entered ho dots outside, List.append_assoc]
    · exact absurd h (by rw [show Name.hasExt source.name site.ext = false from plain]; decide)

/-- The trees that builds of the entries lead to, each in a process of its own, with the pages that the entries are
expanded to by then and with its workers in any order. -/
inductive Builds (site : Site) (entries : List String) (t : FileTree) : FileTree → Prop
  | start : Builds site entries t t
  | build {u : FileTree} {x : Expansion} : Builds site entries t u →
      expandEntries u site.bindings site.ext entries = .ok x → ∀ (σ τ : Schedule) (process : Path) (now : Moment),
        Builds site entries t (buildIn σ τ (site.inProcess process now) u entries x.pages).tree

/-- One build puts products. -/
theorem puts_build {x : Expansion} (h : expandEntries u site.bindings site.ext entries = .ok x) (σ τ : Schedule) :
    Puts (Product site) u (buildIn σ τ site u entries x.pages).tree := by
  have puts := puts_buildIn σ τ site u entries x.pages
  refine ⟨puts.toOnward, puts.keeps.mono fun l hl => ?_, puts.isTree⟩
  exact hl.product (dotless_of_expandEntries h) fun source hm => ⟨(asset_of_mem hm).2.1, (mem_findAssets.1 hm).2⟩

/-- However many builds are run, they put products. -/
theorem Builds.puts (h : Builds site entries t u) : Puts (Product site) t u := by
  induction h with
  | start => exact .refl _ t
  | build _ hx σ τ process now ih => exact ih.trans (@puts_build (site.inProcess process now) _ entries _ hx σ τ)

/-! ## What is found -/

/-- One file with the same content stands at the location in both trees. -/
def Original (t u : FileTree) (l : Location) : Prop :=
  ∃ content, t.get? l = some (.file content) ∧ u.get? l = some (.file content)

theorem original_of_puts {part : Location → Prop} (h : Puts part t u) {p : Path} {content : ByteArray}
    (hr : u.read p = .ok content) (hp : ¬ part (collapse p.segments)) : Original t u (collapse p.segments) :=
  have file := (FileTree.located_of_read hr).2
  ⟨content, (h.keeps _ hp content).1 file, file⟩

/-- No group of alternatives in the pattern gives a segment `..`. -/
def Downward (pattern : String) : Prop := ∀ plain ∈ Glob.expandBraces pattern, ".." ∉ Text.pieces '/' plain

instance (pattern : String) : Decidable (Downward pattern) := inferInstanceAs (Decidable (∀ _ ∈ _, _))

/-- All segments on the way to what a pattern finds lead down, if those in the pattern do. -/
theorem plain_of_mem_files (plainly : u.Plainly) (dir : Path.Plain site.dir.segments) {pattern : String}
    (hd : Downward pattern) {p : Path} (h : p ∈ Glob.files u site.dir pattern) :
    Path.Plain (site.dir / p).segments := by
  obtain ⟨plain, hplain, -, names⟩ := Glob.name_of_mem_files h
  have own : Path.Plain p.segments := by
    refine ⟨(Glob.read_of_mem_files h).1, fun up => ?_⟩
    rcases (names _ up).2 with ⟨hp, -⟩ | ⟨l, hl, hs⟩
    · exact hd plain hplain hp
    · exact (plainly l hl).2 hs
  simp only [HDiv.hDiv, Div.div, Path.join]
  split
  · exact own
  · exact ⟨fun h => (List.mem_append.1 h).elim dir.1 own.1, fun h => (List.mem_append.1 h).elim dir.2 own.2⟩

/-- An original file is found after the builds exactly if it was found before them. -/
theorem Builds.mem_files_iff (h : Builds site entries t u) (tree : t.IsTree) (plainly : t.Plainly)
    (dir : Path.Plain site.dir.segments) {pattern : String} (hd : Downward pattern) {p : Path}
    (hp : p ∈ Glob.files u site.dir pattern → Original t u (collapse (site.dir / p).segments)) :
    p ∈ Glob.files u site.dir pattern ↔ p ∈ Glob.files t site.dir pattern := by
  have puts := h.puts
  refine ⟨fun found => ?_, Glob.files_grows puts.grows⟩
  refine Glob.mem_files_of_there puts.grows (puts.plainly plainly) (fun l hl => ?_) found
  obtain ⟨content, file, -⟩ := hp found
  have plain := plain_of_mem_files (puts.plainly plainly) dir hd found
  rw [Path.collapse_of_plain plain] at file
  have isThere : (t.get? (site.dir / p).segments).isSome := by rw [file]; rfl
  obtain ⟨above, -, begins, rfl⟩ := (FileTree.mem_trail_of_plain plain).1 hl
  by_cases whole : l = (site.dir / p).segments
  · rwa [whole]
  · rw [tree.dir_of_prefix begins whole isThere]; rfl

/-- Assets are original files that lie outside of the output root. -/
theorem Builds.original_of_asset (h : Builds site entries t u) {roots : List String} {source : Path}
    (hs : source ∈ site.findAssets u roots) : ¬ site.outLocation <+: collapse (site.dir / source).segments ∧
      Original t u (collapse (site.dir / source).segments) := by
  obtain ⟨outside, -, content, read⟩ := asset_of_mem hs
  have apart := outside_of_not_output outside
  exact ⟨apart, original_of_puts h.puts read fun product => apart product.1.1⟩

/-- A template stands in the tree under its name. -/
theorem located_of_match (tree : u.IsTree) {pattern : String} {p template : Path}
    (found : p ∈ Glob.files u site.dir pattern) (isMatch : matchTemplate site.dir site.ext p = .ok (some template)) :
    ∃ above, collapse (site.dir / template).segments = above ++ [template.name] := by
  obtain ⟨seen, -, long⟩ := matchTemplate_eq_some isMatch
  obtain ⟨relative, -, -⟩ := relativeMatch_eq_ok seen
  obtain ⟨place, same⟩ := collapse_of_relativeMatch seen
  have named : template.segments ≠ [] := fun he => by
    simp [Path.parts, Path.isAbsolute, relative, he] at long
  rcases same with rfl | below
  · obtain ⟨-, content, read⟩ := Glob.read_of_mem_files found
    have file := (FileTree.located_of_read read).2
    obtain ⟨init, s, segments, ends, -⟩ :=
      FileTree.collapse_of_not_dir tree (FileTree.hurdle?_of_read read) (by rw [file]; simp)
    have name : s = template.name := by
      rw [← name_div named site.dir, Path.name, segments]
      simp
    exact ⟨_, name ▸ ends⟩
  · refine ⟨site.dir.segments ++ template.segments.dropLast, ?_⟩
    rw [← below, List.append_assoc, Path.name, List.getLastD_eq_getLast?, List.getLast?_eq_some_getLast named]
    exact congrArg _ (List.dropLast_concat_getLast named).symm

/-- A template that is found after builds is an original file, or it was made by one of them and has a name that
they give. -/
theorem Builds.origin_of_match (h : Builds site entries t u) (tree : t.IsTree) {pattern : String} {p template : Path}
    (found : p ∈ Glob.files u site.dir pattern) (isMatch : matchTemplate site.dir site.ext p = .ok (some template)) :
    Original t u (collapse (site.dir / template).segments) ∨
      IsInside site (collapse (site.dir / template).segments) ∧ MadeName site template.name := by
  obtain ⟨seen, hasExt, -⟩ := matchTemplate_eq_some isMatch
  obtain ⟨above, place⟩ := located_of_match (h.puts.isTree tree) found isMatch
  by_cases product : Product site (collapse (site.dir / template).segments)
  · refine .inr ⟨product.1, ?_⟩
    rw [place] at product
    exact product.madeName hasExt
  · rw [(collapse_of_relativeMatch seen).1] at product ⊢
    obtain ⟨-, content, read⟩ := Glob.read_of_mem_files found
    exact .inl (original_of_puts h.puts read product)

theorem Builds.original_of_match (h : Builds site entries t u) (tree : t.IsTree) (foreign : Foreign site)
    {pattern : String} {p template : Path} (found : p ∈ Glob.files u site.dir pattern)
    (isMatch : matchTemplate site.dir site.ext p = .ok (some template)) :
    Original t u (collapse (site.dir / template).segments) :=
  (h.origin_of_match tree found isMatch).resolve_right fun made =>
    foreign.not_madeName (matchTemplate_eq_some isMatch).2.1 made.2

/-- Patterns that lead down find the same templates after builds as before them. -/
theorem Builds.finds_iff (h : Builds site entries t u) (tree : t.IsTree) (plainly : t.Plainly)
    (dir : Path.Plain site.dir.segments) (foreign : Foreign site) {pattern : String} (hd : Downward pattern)
    {template : Path} : Finds u site.dir site.ext pattern template ↔ Finds t site.dir site.ext pattern template := by
  refine exists_congr fun p => and_congr_left fun isMatch => h.mem_files_iff tree plainly dir hd fun found => ?_
  rw [← (collapse_of_relativeMatch (matchTemplate_eq_some isMatch).1).1]
  exact h.original_of_match tree foreign found isMatch

/-! ## Inputs -/

/-- What is found in the tree `u` that builds have made of the tree `t`. -/
structure InputsKept (site : Site) (entries : List String) (t u : FileTree) : Prop where
  asset : ∀ {roots source}, source ∈ site.findAssets u roots →
    ¬ site.outLocation <+: collapse (site.dir / source).segments ∧
      Original t u (collapse (site.dir / source).segments)
  assets : ∀ roots, (∀ root ∈ roots, Downward (site.assetPattern root)) →
    site.findAssets u roots = site.findAssets t roots
  template : ∀ {x}, expandEntries u site.bindings site.ext entries = .ok x → ∀ page ∈ x.pages,
    Original t u (collapse (site.dir / page.template).segments) ∨
      IsInside site (collapse (site.dir / page.template).segments) ∧ MadeName site page.template.name
  foreign : Foreign site → ∀ {x}, expandEntries u site.bindings site.ext entries = .ok x → ∀ page ∈ x.pages,
    Original t u (collapse (site.dir / page.template).segments) ∧
      ((∀ above name, t.hasFile (above ++ [name]) = true → site.outLocation <+: above ++ [name] →
        Name.hasExt name site.ext = false) → ¬ site.outLocation <+: collapse (site.dir / page.template).segments)
  pages : Foreign site → (∀ pattern ∈ entries, Downward pattern) →
    ∀ {x x'}, expandEntries t site.bindings site.ext entries = .ok x →
      expandEntries u site.bindings site.ext entries = .ok x' →
        (∀ page ∈ x'.pages, site.bindings.array? u page.template = site.bindings.array? t page.template) →
          ∀ page ∈ x'.pages, page ∈ x.pages

/-- What builds make is never an asset, and it is a template only if it is a page or the sitemap and has the template
extension. If that is foreign to what is made, every template is a file that was there before the builds, so none lies
in the output root if none did then. Patterns that lead down find the same assets as before, and no more pages if the
arrays of partials are the same. -/
theorem builds_keep_inputs (tree : t.IsTree) (plainly : t.Plainly) (dir : Path.Plain site.dir.segments)
    (h : Builds site entries t u) : InputsKept site entries t u where
  asset hs := h.original_of_asset hs
  assets roots down := by
    refine Path.sortDistinct_congr fun source => ?_
    simp only [List.mem_filter, List.mem_flatMap]
    refine and_congr_left fun isAsset => exists_congr fun root => and_congr_right fun hroot => ?_
    refine h.mem_files_iff tree plainly dir (down root hroot) fun found => ?_
    exact (h.original_of_asset (mem_findAssets.2 ⟨⟨root, hroot, found⟩, isAsset⟩)).2
  template hx page hm := by
    obtain ⟨-, pattern, -, p, found, isMatch⟩ := matched_of_page hx hm
    exact h.origin_of_match tree found isMatch
  foreign foreign {x} hx page hm := by
    obtain ⟨-, pattern, -, p, found, isMatch⟩ := matched_of_page hx hm
    have original := h.original_of_match tree foreign found isMatch
    refine ⟨original, fun bare inside => ?_⟩
    obtain ⟨above, place⟩ := located_of_match (h.puts.isTree tree) found isMatch
    obtain ⟨content, file, -⟩ := original
    rw [place] at file inside
    have plain := bare above _ (FileTree.hasFile_iff.2 ⟨content, file⟩) inside
    exact absurd (matchTemplate_eq_some isMatch).2.1 (by rw [Path.hasTemplateExt, plain]; decide)
  pages foreign down {x x'} hx hx' arrays page hm := by
    obtain ⟨template, ⟨pattern, hp, found⟩, y, hy, hmy⟩ := (mem_pages_iff hx').1 hm
    have own : page.template = template := (Expansion.isOf_ofTemplate hy hmy).1
    refine (mem_pages_iff hx).2 ⟨template, ⟨pattern, hp, ?_⟩, y, ?_, hmy⟩
    · exact (h.finds_iff tree plainly dir foreign (down pattern hp)).1 found
    · rw [← hy, Expansion.ofTemplate, Expansion.ofTemplate, ← own, arrays page hm]

/-- A project whose output directory is to lie in its root directory. -/
def nestedTree : FileTree := ⟨[(["p"], .dir), (["p", "site"], .dir), (["p", "site", "a.html"], .file .empty),
  (["p", "site", "b.j2"], .file .empty), (["p", "site", "c.css"], .file .empty)]⟩

/-- A site of it. -/
def nestedSite (templateExt : String) : Site := { Site.ofDir ⟨.slash, ["p"]⟩ newYear with
  options := { out := Path.ofString "site/dist", templateExt, copyPattern := "**/*.css" } }

def nestedPages (name : String) : List Page := [{ template := ⟨.relative, ["site", name]⟩ }]

/-- What was made of the nested project is no input of the next build. -/
theorem builds_keep_inputs_nested :
    let site := nestedSite ".j2"
    let first := buildIn .backward .forward (site.inProcess ⟨.slash, []⟩ newYear) nestedTree ["site/**/*.j2"]
      (nestedPages "b.j2")
    Foreign site ∧ first.tree.hasFile ["p", "site", "dist", "c.css"] = true ∧
      site.findAssets first.tree ["site"] = site.findAssets nestedTree ["site"] ∧
      ∀ x', expandEntries first.tree site.bindings site.ext ["site/**/*.j2"] = .ok x' → ∀ page ∈ x'.pages,
        page ∈ nestedPages "b.j2" ∧ ¬ site.outLocation <+: collapse (site.dir / page.template).segments := by
  intro site first
  have tree : nestedTree.IsTree := FileTree.isTree_of_entries (by decide)
  have plainly : nestedTree.Plainly := fun l => (FileTree.named_of_entries (by decide +kernel)).plain
  have dir : Path.Plain site.dir.segments := show Path.Plain ["p"] from ⟨by decide, by decide⟩
  have foreign : Foreign site := by decide +kernel
  have expanded : expandEntries nestedTree site.bindings site.ext ["site/**/*.j2"] =
      .ok { pages := nestedPages "b.j2" } :=
    expandEntries_of_whole ((nestedPages "b.j2").map Page.template) (by decide +kernel) (by decide +kernel) (by decide)
  have built : Builds site ["site/**/*.j2"] nestedTree first.tree :=
    .build .start expanded .backward .forward ⟨.slash, []⟩ newYear
  have kept := builds_keep_inputs tree plainly dir built
  refine ⟨foreign, by decide +kernel, kept.assets ["site"] (by decide +kernel), fun x' hx' page hm => ?_⟩
  refine ⟨kept.pages foreign (by decide +kernel) expanded hx' (fun _ _ => rfl) page hm, ?_⟩
  refine (kept.foreign foreign hx' page hm).2 fun above name hf inside => ?_
  -- nothing stood in the output root before the build
  have apart : ∀ e ∈ nestedTree.entries, ¬ site.outLocation <+: e.1 := by decide +kernel
  obtain ⟨content, file⟩ := FileTree.hasFile_iff.1 hf
  have isThere : (nestedTree.get? (above ++ [name])).isSome := by rw [file]; rfl
  obtain ⟨node, entry⟩ := (FileTree.exists_entry_iff (by simp)).2 isThere
  exact absurd inside (apart _ entry)

/-- Where templates have the extension of pages, the page that a build made is a template of the next one. -/
theorem page_becomes_template :
    let site := nestedSite ".html"
    ∃ u, Builds site ["site/**/*.html"] nestedTree u ∧
      ∃ x', expandEntries u site.bindings site.ext ["site/**/*.html"] = .ok x' ∧ ∃ page ∈ x'.pages,
        site.isOutput page.template = true ∧
        ∃ x, expandEntries nestedTree site.bindings site.ext ["site/**/*.html"] = .ok x ∧
          page.template ∉ x.pages.map Page.template := by
  intro site
  have expanded : expandEntries nestedTree site.bindings site.ext ["site/**/*.html"] =
      .ok { pages := nestedPages "a.html" } :=
    expandEntries_of_whole ((nestedPages "a.html").map Page.template) (by decide +kernel) (by decide +kernel)
      (by decide)
  have grown : (expandEntries
      (buildIn .forward .forward (site.inProcess ⟨.slash, []⟩ newYear) nestedTree ["site/**/*.html"]
        (nestedPages "a.html")).tree site.bindings site.ext ["site/**/*.html"]).toOption.any (·.pages.any fun page =>
          site.isOutput page.template && page.template ∉ (nestedPages "a.html").map Page.template) = true := by
    decide +kernel
  obtain ⟨x', hx', page, hm, fresh⟩ := exists_page_of_any grown
  obtain ⟨inside, new⟩ := Bool.and_eq_true_iff.1 fresh
  exact ⟨_, .build .start expanded .forward .forward ⟨.slash, []⟩ newYear, x', hx', page, hm, inside, _, expanded,
    by simpa using new⟩

end Site

end StaticSite
