import StaticSite.Proofs.Path.Text
import StaticSite.Proofs.Site.Accounts
import StaticSite.Proofs.Site.Standing
import StaticSite.Proofs.Watch.Rebuilding

/-!
# The sitemap and the pages

The sitemap is made before any page is written, from the paths of the pages alone (`sitemapLines_congr`). Each of
its lines says where the page goes (`denotes_pageLine`), and that is where rendering puts it (`writes_renderPage`). When
a build comes to its end without a fault, the files that the lines name are there with the texts of the pages
(`sitemap_agrees`).
-/

namespace StaticSite

open FileTree (Puts)
open Path (collapse)

/-! ## Lines -/

namespace Sitemap

/-- The prefix of lines, if there is one; the empty text is none. -/
def lead? (lead : Option String) : Option String := lead.filter (· ≠ "")

/-- What a line says of a path below the output root: it is its text, or with a prefix the two put together and
escaped. -/
def Denotes (lead : Option String) (rel : Path) (line : String) : Prop :=
  match lead? lead with
  | none => Path.ofString line = rel
  | some lead => Url.encode (withSlash lead ++ rel.text) = .ok line

/-- With a prefix, the path put behind it can be escaped. -/
def Escapes (lead : Option String) (rel : Path) : Prop :=
  ∀ text ∈ lead? lead, ∃ line, Url.encode (withSlash text ++ rel.text) = .ok line

variable {out : Path} {ext : String} {lead : Option String} {page : Page} {below : List String}

theorem line_eq (out : Path) (below : List String) (lead : Option String) :
    line (out / .ofSegments below) out lead = match lead? lead with
      | none => .ok (Path.ofSegments below).text
      | some lead => (Url.encode (withSlash lead ++ (Path.ofSegments below).text)).mapError .url := by
  unfold line
  rw [Path.relativeTo?_join]
  cases lead with
  | none => rfl
  | some lead =>
    by_cases empty : lead = ""
    · subst empty; rfl
    · have some : lead? (some lead) = some lead := by simp [lead?, Option.filter, empty]
      rw [some]
      dsimp only
      split
      · next he => cases he
      · next he => exact absurd (Option.some.inj he) empty
      · next he => cases he; rfl

/-- A page with an output path has a line, if the path can be escaped, and it says where the page goes. -/
theorem denotes_pageLine {o : Path} (ho : page.output out ext = .ok o) (hr : page.logical.IsRead)
    (he : Escapes lead (.ofSegments (page.logical.belowOut ext))) :
    ∃ line, pageLine out ext lead page = .ok line ∧ Denotes lead (.ofSegments (page.logical.belowOut ext)) line := by
  have read := Path.isRead_belowOut ho hr
  have whole : pageLine out ext lead page = line (out / .ofSegments (page.logical.belowOut ext)) out lead := by
    rw [pageLine, ho, (Path.output_ok ho).1]
    rfl
  rw [whole, line_eq]
  generalize page.logical.belowOut ext = below at he read ⊢
  unfold Escapes at he
  unfold Denotes
  cases hl : lead? lead with
  | none => exact ⟨_, rfl, Path.ofString_text read⟩
  | some text =>
    obtain ⟨line, encoded⟩ := he text hl
    exact ⟨line, by simp only [encoded, mapError_ok], encoded⟩

/-- The lines depend on nothing of the pages but their logical paths. -/
theorem lines_congr {pages pages' : List Page} (h : pages'.map Page.logical = pages.map Page.logical) :
    lines out ext lead pages' = lines out ext lead pages := by
  let ofPlace (p : Path) : Except Fault String := do line (← (p.output out ext).mapError .place) out lead
  have own : ∀ ps : List Page, lines out ext lead ps = (ps.map Page.logical).mapM ofPlace := fun ps => by
    rw [List.mapM_map]
    rfl
  rw [own, own, h]

end Sitemap

namespace Site

variable {site : Site} {t : FileTree} {pages : List Page} {page : Page}

/-! ## What rendering writes -/

/-- Rendering the page puts its text at the output path and tells of it, if there is a text and it is to be written;
otherwise it tells of no output. No other file is made or changed. -/
structure Writes (site : Site) (page : Page) (o : Path) : Prop where
  only : ∀ t, Puts (· = collapse (site.dir / o).segments) t (site.renderPage t page).tree
  text : ∀ t html, (site.renderPage t page).result = .ok ⟨page, some html⟩ → site.options.noWrite = false →
    madeIn (site.renderPage t page).reports = [o] ∧
      ∃ bytes, Text.encode html = .ok bytes ∧ (site.renderPage t page).tree.read (site.dir / o) = .ok bytes
  none : ∀ t, (¬ ∃ html, (site.renderPage t page).result = .ok ⟨page, some html⟩) ∨ site.options.noWrite = true →
    madeIn (site.renderPage t page).reports = []

theorem read_renderPage {o : Path} (ho : page.output site.out site.ext = .ok o) {html : String}
    (h : (site.renderPage t page).result = .ok ⟨page, some html⟩) (hw : site.options.noWrite = false) :
    ∃ bytes, Text.encode html = .ok bytes ∧ (site.renderPage t page).tree.read (site.dir / o) = .ok bytes := by
  rcases site.renderPage_cases t page with ⟨fault, done⟩ | ⟨q, -, done⟩ | ⟨o', text, ho', -, -, done⟩
  · cases h.symm.trans (congrArg Prod.snd done)
  · cases h.symm.trans (congrArg Prod.snd done)
  · cases ho.symm.trans ho'
    rw [if_neg (by simp [hw])] at done
    obtain ⟨_, written, same⟩ := map_eq_ok_iff.1 (h.symm.trans (congrArg Prod.snd done)).symm
    cases same
    have tree : (site.renderPage t page).tree = (writeText t (site.dir / o) html).1 := congrArg Prod.fst done
    rw [tree]
    exact read_writeText written

theorem textOf_eq_some_iff {p : Path × String} : site.textOf? (t, page) = some p ↔
    ∃ html, p = (page.logical, html) ∧ (site.renderPage t page).result = .ok ⟨page, some html⟩ := by
  unfold textOf? pageFate
  dsimp only
  cases hr : (site.renderPage t page).result with
  | error fault => simp
  | ok r =>
    rcases rendered_cases hr with ⟨html, rfl, -⟩ | ⟨q, rfl, -⟩
    · simp [eq_comm]
    · simp

/-- No output is told of where no text is written. -/
theorem madeIn_renderPage (h : (¬ ∃ html, (site.renderPage t page).result = .ok ⟨page, some html⟩) ∨
    site.options.noWrite = true) : madeIn (site.renderPage t page).reports = [] := by
  have made := (@tells_renderPage site (t, page)).made
  have silent : (site.textOf? (t, page)).bind site.written = Option.none := by
    rw [Option.bind_eq_none_iff]
    intro p hp
    obtain ⟨html, rfl, hr⟩ := textOf_eq_some_iff.1 hp
    exact if_pos (h.resolve_left fun hn => hn ⟨html, hr⟩)
  rw [silent] at made
  exact List.perm_nil.1 made

theorem writes_renderPage {o : Path} (ho : page.output site.out site.ext = .ok o) : Writes site page o where
  only t := puts_renderPage (fun o' ho' _ => by rw [ho] at ho'; cases ho'; rfl) t
  text t html h hw := by
    have made := (@tells_renderPage site (t, page)).made
    have place : page.logical.output site.out site.ext = .ok o := ho
    rw [textOf_eq_some_iff.2 ⟨html, rfl, h⟩] at made
    simp only [Option.bind_some, written, hw, place, Bool.false_eq_true, if_false, Except.toOption,
      Option.toList_some] at made
    exact ⟨List.perm_singleton.1 made, read_renderPage ho h hw⟩
  none _ h := madeIn_renderPage h

/-! ## Files that stand -/

/-- The outputs of a build: of the sitemap if it is wanted, of pages and of assets. -/
def mapped (site : Site) (pages : List Page) (sources : List Path) : List Path :=
  (if site.options.sitemap then [site.out.child Sitemap.fileName] else []) ++
    (pages.filterMap fun page => (page.output site.out site.ext).toOption) ++
    sources.filterMap fun source => (source.output site.out site.ext).toOption

/-- If the work on the page went well, its text stands at its output. -/
def Stands (site : Site) (page : Page) (result : Except Fault Rendered) (u : FileTree) : Prop :=
  ∀ rendered, result = .ok rendered → ∃ html bytes o, rendered = ⟨page, some html⟩ ∧
    page.output site.out site.ext = .ok o ∧ Text.encode html = .ok bytes ∧ u.read (site.dir / o) = .ok bytes

theorem Stands.of_puts {part : Location → Prop} {result : Except Fault Rendered} {u u' : FileTree}
    (h : Stands site page result u) (puts : Puts part u u')
    (apart : ∀ o, page.output site.out site.ext = .ok o → ¬ part (collapse (site.dir / o).segments)) :
    Stands site page result u' := fun rendered hr => by
  obtain ⟨html, bytes, o, same, ho, encoded, read⟩ := h rendered hr
  exact ⟨html, bytes, o, same, ho, encoded, puts.read (apart o ho) read⟩

theorem stands_renderPage (planned : page.Planned site.ext) (hw : site.options.noWrite = false) (t : FileTree) :
    Stands site page (site.renderPage t page).result (site.renderPage t page).tree := fun rendered hr => by
  rcases rendered_cases hr with ⟨html, rfl, -⟩ | ⟨q, rfl, attached⟩
  · cases ho : page.output site.out site.ext with
    | error fault =>
      rw [renderPage, ho] at hr
      cases hr
    | ok o =>
      obtain ⟨bytes, encoded, read⟩ := read_renderPage ho hr hw
      exact ⟨html, bytes, o, rfl, rfl, encoded, read⟩
  · rw [attached?_of_planned planned] at attached
    cases attached

theorem unnested_locations {p q o o' : Path} (ho : p.output site.out site.ext = .ok o) (hp : "." ∉ p.segments)
    (ho' : q.output site.out site.ext = .ok o') (hq : "." ∉ q.segments) (h : Unnested o.segments o'.segments) :
    Unnested (collapse (site.dir / o).segments) (collapse (site.dir / o').segments) := by
  rw [location_of_output ho hp, location_of_output ho' hq, unnested_append]
  rwa [(Path.output_ok ho).1, (Path.output_ok ho').1, Path.segments_div_ofSegments, Path.segments_div_ofSegments,
    unnested_append] at h

/-- A page's text is not touched by the work on another page. -/
theorem spares_renderPage {q : Page} (hp : "." ∉ page.logical.segments) (hq : "." ∉ q.logical.segments)
    (h : ∀ o o', page.output site.out site.ext = .ok o → q.output site.out site.ext = .ok o' →
      Unnested o.segments o'.segments) :
    Spares site.renderPage (Stands site) page q := by
  have spared : ∀ {a b : Page}, "." ∉ a.logical.segments → "." ∉ b.logical.segments →
      (∀ o o', a.output site.out site.ext = .ok o → b.output site.out site.ext = .ok o' →
        Unnested o.segments o'.segments) →
      ∀ r u, Stands site a r u → Stands site a r (site.renderPage u b).tree := fun {a b} ha hb hu r u stands => by
    have puts : Puts (fun l => ∃ o, b.output site.out site.ext = .ok o ∧ l = collapse (site.dir / o).segments) u
        (site.renderPage u b).tree := puts_renderPage (fun o ho _ => ⟨o, ho, rfl⟩) u
    refine stands.of_puts puts fun o ho ⟨o', ho', same⟩ => ?_
    exact (unnested_locations ho ha ho' hb (hu o o' ho ho')).1 (same ▸ List.prefix_refl _)
  exact ⟨spared hp hq h, spared hq hp fun o o' ho ho' => (h o' o ho' ho).symm⟩

/-- A copy that goes into a directory at the output lies below it. -/
theorem prefix_entered {source o : Path} (ho : source.output site.out site.ext = .ok o) (hr : "." ∉ source.segments)
    (hs : site.isOutput source = false) : collapse (site.dir / o).segments <+:
      collapse ((site.dir / o).child (site.dir / source).name).segments := by
  rw [location_of_output ho hr, location_entered ho hr hs, ← List.append_assoc]
  exact List.prefix_append _ _

/-- Nor is it touched when assets are copied. -/
theorem not_target {sources : List Path} {o : Path} (ho : page.output site.out site.ext = .ok o)
    (hp : "." ∉ page.logical.segments)
    (hs : ∀ source ∈ sources, "." ∉ source.segments ∧ site.isOutput source = false)
    (sitemap : site.options.sitemap = true → Unnested (site.out.child Sitemap.fileName).segments o.segments)
    (copies : ∀ source ∈ sources, ∀ o', source.output site.out site.ext = .ok o' → Unnested o.segments o'.segments) :
    ¬ Target site [] sources (collapse (site.dir / o).segments) := by
  intro target
  generalize here : collapse (site.dir / o).segments = l at target
  cases target with
  | sitemap wanted =>
    rw [location_of_sitemap, location_of_output ho hp] at here
    have same : o.segments = (site.out.child Sitemap.fileName).segments := by
      rw [(Path.output_ok ho).1, Path.segments_div_ofSegments, List.append_cancel_left here]
      rfl
    exact (sitemap wanted).1 (same ▸ List.prefix_refl _)
  | page hm => cases hm
  | copy hm ho' =>
    exact (unnested_locations ho hp ho' (hs _ hm).1 (copies _ hm _ ho')).1 (here ▸ List.prefix_refl _)
  | copyInside hm ho' =>
    obtain ⟨dots, outside⟩ := hs _ hm
    exact (unnested_locations ho hp ho' dots (copies _ hm _ ho')).2 (here ▸ prefix_entered ho' dots outside)

/-! ## The whole build -/

theorem Step.exists_of_andThen {α β : Type} {step : Step α} {next : FileTree → α → Step β} {b : β}
    (h : (step.andThen next).result = .ok b) : ∃ a, step.result = .ok a ∧ (next step.tree a).result = .ok b ∧
      (step.andThen next).tree = (next step.tree a).tree := by
  cases hr : step.result with
  | error fault => rw [Step.andThen_of_error hr] at h; cases h
  | ok a => rw [Step.andThen_of_ok hr] at h ⊢; exact ⟨a, rfl, h, rfl⟩

/-- A build with a result went through all its phases. -/
theorem phases_of_result {σ τ : Schedule} {entries : List String} {r : Result}
    (h : (buildIn σ τ site t entries pages).result = .ok r) :
    ∃ faults all, (site.makeSitemap t pages).result = .ok (r.sitemap, faults) ∧
      (renderAllBy σ.run site (site.makeSitemap t pages).tree pages).result = .ok all ∧
      r.rendered = all.texts ∧ all.faults ⊆ r.faults ∧
      (buildIn σ τ site t entries pages).tree =
        (copyAllBy τ.run site (copyingTree σ site t pages) (Path.rootDirs (entries.map Path.ofString))).tree := by
  obtain ⟨gathered, hg, finished, tree⟩ := Step.exists_of_andThen h
  obtain ⟨⟨lines, faults⟩, hm, hr, tree'⟩ := Step.exists_of_andThen hg
  obtain ⟨all, ha, hc, tree''⟩ := Step.exists_of_andThen hr
  obtain ⟨copied, -, rfl⟩ := exists_of_map_eq_ok hc
  cases finished
  refine ⟨faults, all, hm, ha, rfl, fun fault hf => ?_, (tree.trans tree').trans tree''⟩
  simp [hf]

/-- The sitemap of a build with a result has the lines of its pages. -/
theorem lines_of_makeSitemap {lines : List String} {faults : List Fault} (hw : site.options.sitemap = true)
    (h : (site.makeSitemap t pages).result = .ok (lines, faults)) : site.sitemapLines pages = .ok lines := by
  unfold makeSitemap at h
  simp only [hw, Bool.not_true, Bool.false_eq_true, if_false] at h
  cases hl : site.sitemapLines pages with
  | error fault => rw [hl] at h; cases h
  | ok made =>
    rw [hl] at h
    dsimp only at h
    generalize site.writeSitemap t made = w at h
    obtain ⟨t', fault | u⟩ := w
    · dsimp only at h
      split at h
      · cases h; rfl
      · cases h
    · cases h; rfl

section
variable {σ τ : Schedule} {entries : List String} {sources : List Path} {u : FileTree}

/-- Pages whose outputs are apart from each other stand when all of them were rendered. -/
theorem renderAll_stands {all : RenderedAll} (planned : ∀ page ∈ pages, page.Planned site.ext)
    (distinct : (pages.map Page.logical).Nodup) (spares : pages.Pairwise (Spares site.renderPage (Stands site)))
    (hw : site.options.noWrite = false) (h : (renderAllBy σ.run site u pages).result = .ok all)
    (ok : all.faults = []) :
    (all.texts.map Prod.fst).Nodup ∧ ∀ page ∈ pages, ∃ html bytes o, (page.logical, html) ∈ all.texts ∧
      page.output site.out site.ext = .ok o ∧ Text.encode html = .ok bytes ∧
      (renderAllBy σ.run site u pages).tree.read (site.dir / o) = .ok bytes := by
  obtain ⟨ms, rfl, results, -⟩ := exists_met_run σ site.renderPage u pages
  have fates : (σ.run site.renderPage u (ms.map Prod.snd)).2.2 = ms.map site.pageFate := results
  have distinct : (ms.map placeOf).Nodup := by rwa [List.map_map] at distinct
  have notHalted : ¬ ∃ r ∈ (σ.run site.renderPage u (ms.map Prod.snd)).2.2, Halted r := fun hh => by
    have halted := halted_renderAllBy_iff.2 hh
    rw [h] at halted
    exact not_halted_ok _ halted
  have result := h.symm.trans (renderAllBy_of_not_halted notHalted)
  rw [fates, texts_of_distinct distinct] at result
  cases result
  have noFaults := faultsOf_eq_nil.1 ok
  have stands := run_stands (t := u) σ (fun page hm v => stands_renderPage (planned page hm) hw v) spares
  rw [fates, List.forall₂_map_left_iff, List.forall₂_map_right_iff, List.forall₂_same] at stands
  refine ⟨?_, fun page hm => ?_⟩
  · refine List.pairwise_map.2 (List.pairwise_filterMap.2 ((List.pairwise_map.1 distinct).imp fun h p hp q hq => ?_))
    rwa [fst_of_textOf hp, fst_of_textOf hq]
  · obtain ⟨m, hm', rfl⟩ := List.mem_map.1 hm
    cases hf : site.pageFate m with
    | error fault => exact absurd ⟨fault, hf⟩ (noFaults m hm')
    | ok done =>
      obtain ⟨html, bytes, o, rfl, ho, encoded, read⟩ := stands m hm' done hf
      exact ⟨html, bytes, o, List.mem_filterMap.2 ⟨m, hm', textOf_eq_some_iff.2 ⟨html, rfl, hf⟩⟩, ho, encoded, read⟩

/-- Outputs that are apart from each other: those of pages from one another, from the sitemap and from the copies. -/
theorem pairwise_mapped (h : (site.mapped pages sources).Pairwise fun o o' => Unnested o.segments o'.segments) :
    (pages.Pairwise fun p q => ∀ o o', p.output site.out site.ext = .ok o → q.output site.out site.ext = .ok o' →
      Unnested o.segments o'.segments) ∧
    ∀ page ∈ pages, ∀ o, page.output site.out site.ext = .ok o →
      (site.options.sitemap = true → Unnested (site.out.child Sitemap.fileName).segments o.segments) ∧
      ∀ source ∈ sources, ∀ o', source.output site.out site.ext = .ok o' → Unnested o.segments o'.segments := by
  obtain ⟨before, -, withCopies⟩ := List.pairwise_append.1 h
  obtain ⟨-, ofPages, withSitemap⟩ := List.pairwise_append.1 before
  refine ⟨(List.pairwise_filterMap.1 ofPages).imp fun hu o o' ho ho' =>
    hu o (toOption_eq_some ho) o' (toOption_eq_some ho'), fun page hm o ho => ?_⟩
  have mem : o ∈ pages.filterMap fun page => (page.output site.out site.ext).toOption :=
    List.mem_filterMap.2 ⟨page, hm, toOption_eq_some ho⟩
  refine ⟨fun wanted => withSitemap _ (by simp [wanted]) o mem, fun source hs o' ho' => ?_⟩
  exact withCopies o (List.mem_append_right _ mem) o' (List.mem_filterMap.2 ⟨source, hs, toOption_eq_some ho'⟩)

/-- The files of all pages stand at the end of a build without a fault. -/
theorem stands_of_isOk {r : Result} (planned : ∀ page ∈ pages, page.Planned site.ext)
    (outputs : ∀ page ∈ pages, ∃ o, page.output site.out site.ext = .ok o)
    (apart : (site.mapped pages (foundAssets σ site t entries pages)).Pairwise fun o o' =>
      Unnested o.segments o'.segments)
    (hw : site.options.noWrite = false) (h : (buildIn σ τ site t entries pages).result = .ok r) (ok : r.isOk = true) :
    (r.rendered.map Prod.fst).Nodup ∧ ∀ page ∈ pages, ∃ html bytes o, (page.logical, html) ∈ r.rendered ∧
      page.output site.out site.ext = .ok o ∧ Text.encode html = .ok bytes ∧
      (buildIn σ τ site t entries pages).tree.read (site.dir / o) = .ok bytes := by
  have dots : Dotless pages := fun page hm hdot => ((planned page hm).logical.2.2.1 "." hdot).2.1 rfl
  obtain ⟨pairs, others⟩ := pairwise_mapped apart
  have distinct : (pages.map Page.logical).Nodup := by
    refine List.pairwise_map.2 (pairs.imp_of_mem fun {p q} hp hq hu same => ?_)
    obtain ⟨o, ho⟩ := outputs p hp
    have ho' : q.output site.out site.ext = .ok o := by rw [Page.output, ← same]; exact ho
    exact (hu o o ho ho').1 (List.prefix_refl _)
  have spares : pages.Pairwise (Spares site.renderPage (Stands site)) :=
    pairs.imp_of_mem fun {p q} hp hq hu => spares_renderPage (dots p hp) (dots q hq) hu
  obtain ⟨faults, all, -, rendered, texts, allFaults, tree⟩ := phases_of_result h
  have noFaults : all.faults = [] := by
    have none : r.faults = [] := List.isEmpty_iff.1 ok
    rw [none] at allFaults
    exact List.subset_nil.1 allFaults
  obtain ⟨nodup, stand⟩ := renderAll_stands planned distinct spares hw rendered noFaults
  rw [texts]
  refine ⟨nodup, fun page hm => ?_⟩
  obtain ⟨html, bytes, o, mem, ho, encoded, read⟩ := stand page hm
  obtain ⟨sitemap, copies⟩ := others page hm o ho
  have copied := puts_copyAll τ site (copyingTree σ site t pages) (Path.rootDirs (entries.map Path.ofString)) []
  refine ⟨html, bytes, o, mem, ho, encoded, ?_⟩
  rw [tree]
  exact copied.read (not_target ho (dots page hm) (fun source hs => ⟨(asset_of_mem hs).2.1, (asset_of_mem hs).1⟩)
    sitemap copies) read

end

/-- There is one line a page, and it says where the page goes. -/
theorem exists_sitemapLines (outputs : ∀ page ∈ pages, ∃ o, page.output site.out site.ext = .ok o)
    (read : ∀ page ∈ pages, page.logical.IsRead)
    (escapes : ∀ page ∈ pages,
      Sitemap.Escapes site.options.sitemapPrefix (.ofSegments (page.logical.belowOut site.ext))) :
    ∃ lines, site.sitemapLines pages = .ok lines ∧
      List.Forall₂ (fun page line => ∃ rel, page.output site.out site.ext = .ok (site.out / rel) ∧
        Sitemap.Denotes site.options.sitemapPrefix rel line) pages lines := by
  have line : ∀ page ∈ pages, ∃ rel line, page.output site.out site.ext = .ok (site.out / rel) ∧
      Sitemap.pageLine site.out site.ext site.options.sitemapPrefix page = .ok line ∧
      Sitemap.Denotes site.options.sitemapPrefix rel line := fun page hm => by
    obtain ⟨o, ho⟩ := outputs page hm
    obtain ⟨line, made, denotes⟩ := Sitemap.denotes_pageLine ho (read page hm) (escapes page hm)
    obtain ⟨rfl, -⟩ := Path.output_ok ho
    exact ⟨_, line, ho, made, denotes⟩
  obtain ⟨lines, made⟩ : ∃ lines, site.sitemapLines pages = .ok lines := not_fails_iff.1 fun fails => by
    obtain ⟨page, hm, fault, hf, -⟩ := fails_mapM.1 fails
    obtain ⟨-, text, -, ht, -⟩ := line page hm
    rw [ht] at hf
    cases hf
  refine ⟨lines, made, ((List.forall₂_and_left (p := (· ∈ pages)) ..).2 ⟨fun _ hm => hm, forall₂_of_mapM made⟩).imp
    fun page text ⟨hm, ht⟩ => ?_⟩
  obtain ⟨rel, text', ho, ht', denotes⟩ := line page hm
  cases ht.symm.trans ht'
  exact ⟨rel, ho, denotes⟩

/-- The sitemap and the pages agree. There is one line a page, in order, and the lines are the same for all pages
with these logical paths, in every build of them, whatever else differs. Without a prefix a line is the way from the
output root to where the page is written, with one it is the two put together and escaped. When a build of pages that
the entries were expanded to ends without a fault, and its outputs are apart from each other, each line without a
prefix names a file that holds the page's text. -/
theorem sitemap_agrees (outputs : ∀ page ∈ pages, ∃ o, page.output site.out site.ext = .ok o)
    (read : ∀ page ∈ pages, page.logical.IsRead)
    (escapes : ∀ page ∈ pages,
      Sitemap.Escapes site.options.sitemapPrefix (.ofSegments (page.logical.belowOut site.ext))) :
    ∃ lines,
      (∀ (other : Site) (pages' : List Page), other.out = site.out → other.ext = site.ext →
        other.options.sitemapPrefix = site.options.sitemapPrefix →
        pages'.map Page.logical = pages.map Page.logical →
          other.sitemapLines pages' = .ok lines ∧ (other.options.sitemap = true → ∀ σ τ t entries r,
            (buildIn σ τ other t entries pages').result = .ok r → r.sitemap = lines)) ∧
      List.Forall₂ (fun page line => ∃ rel, page.output site.out site.ext = .ok (site.out / rel) ∧
        Sitemap.Denotes site.options.sitemapPrefix rel line ∧ Writes site page (site.out / rel)) pages lines ∧
      (Sitemap.lead? site.options.sitemapPrefix = none → site.options.noWrite = false →
        ∀ (t₀ : FileTree) (entries : List String) (x : Expansion), t₀.Named →
          expandEntries t₀ site.bindings site.ext entries = .ok x → x.pages = pages → ∀ σ τ t entries r,
            ((site.mapped pages (foundAssets σ site t entries pages)).Pairwise fun o o' =>
              Unnested o.segments o'.segments) →
            (buildIn σ τ site t entries pages).result = .ok r → r.isOk = true →
              (r.rendered.map Prod.fst).Nodup ∧
              List.Forall₂ (fun page line => ∃ html bytes, (page.logical, html) ∈ r.rendered ∧
                Text.encode html = .ok bytes ∧ (buildIn σ τ site t entries pages).tree.read
                  (site.dir / (site.out / Path.ofString line)) = .ok bytes) pages lines) := by
  obtain ⟨lines, made, denoted⟩ := exists_sitemapLines outputs read escapes
  refine ⟨lines, fun other pages' out ext lead logical => ?_, ?_, ?_⟩
  · have alike : other.sitemapLines pages' = .ok lines := by
      rw [sitemapLines, out, ext, lead, Sitemap.lines_congr logical]
      exact made
    refine ⟨alike, fun wanted σ τ t entries r hr => ?_⟩
    obtain ⟨faults, -, hm, -⟩ := phases_of_result hr
    exact Except.ok.inj ((lines_of_makeSitemap wanted hm).symm.trans alike)
  · exact denoted.imp fun page line ⟨rel, ho, denotes⟩ => ⟨rel, ho, denotes, writes_renderPage ho⟩
  · rintro bare hw t₀ entries₀ x named expanded rfl σ τ t entries r apart hr ok
    have planned : ∀ page ∈ x.pages, page.Planned site.ext := fun page hm =>
      (planned_of_expandEntries named expanded hm).1
    obtain ⟨nodup, stand⟩ := stands_of_isOk planned outputs apart hw hr ok
    refine ⟨nodup, ((List.forall₂_and_left (p := (· ∈ x.pages)) ..).2 ⟨fun _ hm => hm, denoted⟩).imp
      fun page text ⟨hm, rel, ho, told⟩ => ?_⟩
    obtain ⟨html, bytes, o, mem, ho', encoded, file⟩ := stand page hm
    have same : Path.ofString text = rel := by
      unfold Sitemap.Denotes at told
      rw [bare] at told
      exact told
    cases ho.symm.trans ho'
    exact ⟨html, bytes, mem, encoded, by rw [same]; exact file⟩

/-- A site of the small project with a sitemap. -/
def listedSite (lead : Option String) : Site := { smallSite (Path.ofString "dist") true with
  options := { out := Path.ofString "dist", sitemap := true, sitemapPrefix := lead, copyPattern := "**/*.css" } }

/-- Both pages of the small project are in the sitemap, and their files hold what was rendered. -/
theorem sitemap_agrees_small :
    let site := listedSite none
    let step := buildIn .forward .backward site smallTree ["site/**/*.j2"] smallPages
    (site.mapped smallPages (foundAssets .forward site smallTree ["site/**/*.j2"] smallPages)).Pairwise
        (fun o o' => Unnested o.segments o'.segments) ∧
      ∃ r, step.result = .ok r ∧ r.isOk = true ∧ r.sitemap = ["a/x.html", "b/y.html"] ∧
        List.Forall₂ (fun page line => ∃ html bytes, (page.logical, html) ∈ r.rendered ∧
          Text.encode html = .ok bytes ∧ step.tree.read (site.dir / (site.out / Path.ofString line)) = .ok bytes)
          smallPages r.sitemap := by
  intro site step
  have named : smallTree.Named := FileTree.named_of_entries (by decide +kernel)
  have found : expandEntries smallTree site.bindings site.ext ["site/**/*.j2"] = .ok { pages := smallPages } :=
    expandEntries_of_whole (smallPages.map Page.template) (by decide +kernel) (by decide +kernel) (by decide)
  have apart : (site.mapped smallPages (foundAssets .forward site smallTree ["site/**/*.j2"] smallPages)).Pairwise
      (fun o o' => Unnested o.segments o'.segments) := by decide +kernel
  have ends : step.result.toOption.map (fun r => (r.isOk, r.sitemap)) = some (true, ["a/x.html", "b/y.html"]) := by
    decide +kernel
  obtain ⟨r, hr, told⟩ := Option.map_eq_some_iff.1 ends
  obtain ⟨ok, sitemap⟩ := Prod.mk.inj told
  have result : step.result = .ok r := toOption_eq_some_iff.1 hr
  have outputs : ∀ page ∈ smallPages, ∃ o, page.output site.out site.ext = .ok o := by
    simp only [smallPages, List.forall_mem_cons]
    exact ⟨⟨_, rfl⟩, ⟨_, rfl⟩, by simp⟩
  have read : ∀ page ∈ smallPages, page.logical.IsRead := by unfold Path.IsRead; decide
  obtain ⟨lines, alike, -, stand⟩ := @sitemap_agrees site smallPages outputs read fun _ _ _ h => by cases h
  cases (alike site smallPages rfl rfl rfl rfl).2 rfl .forward .backward smallTree ["site/**/*.j2"] r result
  have files := stand rfl rfl smallTree ["site/**/*.j2"] _ named found rfl .forward .backward smallTree
    ["site/**/*.j2"] r apart result ok
  exact ⟨apart, r, result, ok, sitemap, files.2⟩

/-- A prefix that cannot be escaped leaves pages without a sitemap, though they have outputs, and no build of them
comes to an end. -/
theorem bracket_prefix_without_sitemap :
    let site := listedSite (some "http://[")
    (∀ page ∈ smallPages, ∃ o, page.output site.out site.ext = .ok o) ∧
      (∀ page ∈ smallPages, page.logical.IsRead) ∧ site.options.sitemap = true ∧
      site.sitemapLines smallPages = .error (.url .brackets) ∧
      ∀ σ τ t entries r, (buildIn σ τ site t entries smallPages).result ≠ .ok r := by
  intro site
  have fault : site.sitemapLines smallPages = .error (.url .brackets) := by decide +kernel
  refine ⟨?_, by unfold Path.IsRead; decide, rfl, fault, fun σ τ t entries r hr => ?_⟩
  · simp only [smallPages, List.forall_mem_cons]
    exact ⟨⟨_, rfl⟩, ⟨_, rfl⟩, by simp⟩
  · obtain ⟨faults, -, hm, -⟩ := phases_of_result hr
    cases fault.symm.trans (lines_of_makeSitemap rfl hm)

end Site

end StaticSite
