import StaticSite.Proofs.Site.Again
import StaticSite.Proofs.Site.Confined

/-!
# What a build writes

A build makes and changes files at its targets only: the places of the sitemap, of the pages and of the copies
(`puts_buildIn`). All of these lie strictly below the output root, and nothing that was there is taken away
(`build_keeps_to_targets`). This holds in whatever order the workers take up pages and assets, and also of a build
that fails.
-/

namespace StaticSite.Site

open FileTree (Puts Grows Touched after)
open Path (collapse)

variable {site : Site} {t : FileTree} {part : Location → Prop} {pages : List Page} {sources : List Path}

/-! ## Runs -/

section
variable {α β : Type} {step : FileTree → α → Step β} {as : List α}

theorem puts_after (hs : ∀ a ∈ as, ∀ t, Puts part t (step t a).tree) (t : FileTree) :
    Puts part t (after (fun t a => (step t a).done) t as) := by
  induction as generalizing t with
  | nil => exact .refl part t
  | cons a as ih => exact (hs a List.mem_cons_self t).trans (ih (fun b hb => hs b (List.mem_cons_of_mem _ hb)) _)

theorem puts_run (σ : Schedule) (hs : ∀ a ∈ as, ∀ t, Puts part t (step t a).tree) (t : FileTree) :
    Puts part t (σ.run step t as).1 := by
  rw [tree_run]
  exact puts_after (fun a ha => hs a ((picked_order_perm σ as).mem_iff.1 ha)) t

end

/-! ## Targets -/

/-- Where a build puts files. A copy goes into the directory that stands at its output, if there is one. -/
inductive Target (site : Site) (pages : List Page) (sources : List Path) : Location → Prop where
  | sitemap : site.options.sitemap = true →
      Target site pages sources (collapse ((site.dir / site.out).child Sitemap.fileName).segments)
  | page {page : Page} {o : Path} : page ∈ pages → site.options.noWrite = false →
      page.output site.out site.ext = .ok o → Target site pages sources (collapse (site.dir / o).segments)
  | copy {source o : Path} : source ∈ sources → source.output site.out site.ext = .ok o →
      Target site pages sources (collapse (site.dir / o).segments)
  | copyInside {source o : Path} : source ∈ sources → source.output site.out site.ext = .ok o →
      Target site pages sources (collapse ((site.dir / o).child (site.dir / source).name).segments)

/-- All targets lie strictly below the output root. -/
theorem Target.isInside (hp : Dotless pages)
    (hs : ∀ source ∈ sources, "." ∉ source.segments ∧ site.isOutput source = false) {l : Location}
    (h : Target site pages sources l) : IsInside site l := by
  cases h with
  | sitemap =>
    rw [location_of_sitemap]
    exact isInside_append (by simp [sitemapBelow])
  | page hm _ ho => exact isInside_output ho (hp _ hm)
  | copy hm ho => exact isInside_output ho (hs _ hm).1
  | copyInside hm ho => exact isInside_entered ho (hs _ hm).1 (hs _ hm).2

/-! ## Phases of a build -/

theorem puts_makeSitemap (site : Site) (t : FileTree) (pages : List Page) (sources : List Path) :
    Puts (Target site pages sources) t (site.makeSitemap t pages).tree := by
  unfold makeSitemap
  split
  · exact .refl _ t
  · next wanted =>
    have place : Target site pages sources _ := .sitemap (by simpa using wanted)
    have written := fun lines => puts_writeText place t (Sitemap.text lines)
    cases site.sitemapLines pages with
    | error fault => exact .refl _ t
    | ok lines =>
      have made := written lines
      dsimp only [writeSitemap]
      generalize writeText t _ (Sitemap.text lines) = w at made ⊢
      obtain ⟨t', fault | u⟩ := w
      · dsimp only
        split <;> exact made
      · exact made

theorem puts_renderAll (σ : Schedule) (site : Site) (t : FileTree) (pages : List Page) (sources : List Path) :
    Puts (Target site pages sources) t (renderAllBy σ.run site t pages).tree := by
  have one : ∀ page ∈ pages, ∀ t, Puts (Target site pages sources) t (site.renderPage t page).tree :=
    fun page hm => puts_renderPage fun _ ho hw => .page hm hw ho
  exact puts_run σ one t

/-- The tree in which a build looks for assets. -/
def copyingTree (σ : Schedule) (site : Site) (t : FileTree) (pages : List Page) : FileTree :=
  (renderAllBy σ.run site (site.makeSitemap t pages).tree pages).tree

/-- The assets that a build finds. -/
def foundAssets (σ : Schedule) (site : Site) (t : FileTree) (entries : List String) (pages : List Page) : List Path :=
  site.findAssets (copyingTree σ site t pages) (Path.rootDirs (entries.map Path.ofString))

theorem puts_copyAll (σ : Schedule) (site : Site) (t : FileTree) (roots : List String) (pages : List Page) :
    Puts (Target site pages (site.findAssets t roots)) t (copyAllBy σ.run site t roots).tree := by
  have one : ∀ source ∈ site.findAssets t roots, ∀ u,
      Puts (Target site pages (site.findAssets t roots)) u (site.copyAsset u source).tree :=
    fun source hm => puts_copyAsset fun _ ho => ⟨.copy hm ho, .copyInside hm ho⟩
  unfold copyAllBy
  split
  · exact .refl _ t
  · exact puts_run σ one t

theorem puts_buildIn (σ τ : Schedule) (site : Site) (t : FileTree) (entries : List String) (pages : List Page) :
    Puts (Target site pages (foundAssets σ site t entries pages)) t (buildIn σ τ site t entries pages).tree := by
  have made := puts_makeSitemap site t pages (foundAssets σ site t entries pages)
  have rendered := made.trans (puts_renderAll σ site _ pages _)
  have gathered : Puts (Target site pages (foundAssets σ site t entries pages)) t
      (gatherBy σ.run τ.run site t entries pages).tree :=
    Step.tree_andThen made fun _ => Step.tree_andThen rendered fun _ =>
      rendered.trans (puts_copyAll τ site _ _ pages)
  exact Step.tree_andThen gathered fun _ => gathered

/-- Whether it comes to a result or not, a build makes and changes files strictly below the output root only, and
takes nothing away. What it makes or changes is the sitemap, the output of a page or the copy of an asset, so no
draft is left. -/
theorem build_keeps_to_targets (hp : Dotless pages) (σ τ : Schedule) (site : Site) (t : FileTree)
    (entries : List String) :
    Confined site t (buildIn σ τ site t entries pages).tree ∧
      Grows t (buildIn σ τ site t entries pages).tree ∧
      ∀ l, Touched t (buildIn σ τ site t entries pages).tree l →
        Target site pages (foundAssets σ site t entries pages) l := by
  have puts := puts_buildIn σ τ site t entries pages
  have assets : ∀ source ∈ foundAssets σ site t entries pages,
      "." ∉ source.segments ∧ site.isOutput source = false := fun source hm =>
    ⟨(asset_of_mem hm).2.1, (asset_of_mem hm).1⟩
  exact ⟨puts.keeps.mono fun _ hl => hl.isInside hp assets, puts.grows, fun _ => puts.keeps.part_of_touched⟩

/-- With an output directory that is written with a detour, files are made where the path ends. -/
theorem build_keeps_to_targets_detour :
    let site := smallSite (Path.ofString "tmp/../dist") true
    let t' := (buildIn .backward .forward site smallTree ["site/**/*.j2"] smallPages).tree
    Dotless smallPages ∧ t'.hasFile ["p", "dist", "sitemap.txt"] = true ∧ t'.hasFile ["p", "dist", "c.css"] = true ∧
      Confined site smallTree t' ∧ Grows smallTree t' ∧
      ∀ l, Touched smallTree t' l →
        Target site smallPages (foundAssets .backward site smallTree ["site/**/*.j2"] smallPages) l := by
  have dotless : ∀ page ∈ smallPages, "." ∉ page.logical.segments := by decide
  exact ⟨dotless, by decide +kernel, by decide +kernel,
    build_keeps_to_targets dotless .backward .forward _ smallTree ["site/**/*.j2"]⟩

end StaticSite.Site
