import Mathlib.Data.List.Pairwise
import StaticSite.Proofs.FileTree.Rewritten
import StaticSite.Proofs.Site.Again
import StaticSite.Proofs.Site.Idle
import StaticSite.Proofs.Watch.Updating

/-!
# Building again after a change

When one source file has changed after a build, most of the next build is idle: all of it but the pages of the changed
template, or the copy of the changed asset (`rebuild_pages`, `rebuild_assets`).
-/

namespace StaticSite

open FileTree (Area Local Grows Onward Lasting IsTree trail)
open Path (collapse)

namespace Site

variable {site : Site} {t t' T w : FileTree} {now : Moment} {entries : List String} {pages : List Page}

/-! ## Builds that return -/

/-- In a run that nothing halts no item halts at the tree that it finds. -/
theorem exists_not_halted {α β : Type} {step : FileTree → α → Step β} {t : FileTree} {as : List α}
    (h : ∀ r ∈ (inTurn step t as).2.2, ¬ Halted r) {a : α} (ha : a ∈ as) :
    ∃ found, ¬ Halted (step found a).result := by
  induction as generalizing t with
  | nil => cases ha
  | cons b as ih =>
    obtain ⟨first, rest⟩ := List.forall_mem_cons.1 h
    rcases List.mem_cons.1 ha with rfl | ha
    · exact ⟨t, first⟩
    · exact ih rest ha

/-- A build that returns leaves the tree after the last copy. -/
theorem tree_of_result {r : Result} (h : (site.build t entries pages).result = .ok r) :
    (site.build t entries pages).tree =
      (inTurn site.copyAsset (site.assetsTree t pages) (site.assets t entries pages)).1 := by
  have notHalted := (build_finishes_iff site t entries pages).1.1 ⟨r, h⟩
  obtain ⟨lines, faults, made, -⟩ := gather_of_not_halts notHalted
  rw [buildHalts_iff] at notHalted
  simp only [not_or] at notHalted
  obtain ⟨-, rendered, searched, -⟩ := notHalted
  have searched : site.searchFault? (Path.rootDirs (entries.map Path.ofString)) = none := by simpa using searched
  rw [tree_build, gather_eq, Step.andThen_of_ok made]
  refine (congrArg Step.tree (Step.andThen_of_ok (renderAllBy_of_not_halted rendered) _)).trans ?_
  change (copyAllBy inTurn site (site.assetsTree t pages) _).tree = _
  rw [copyAllBy, searched]
  rfl

/-- A build that returns was halted by no page and by no asset. -/
theorem not_halted_of_result {r : Result} (h : (site.build t entries pages).result = .ok r) :
    (∀ r ∈ site.pageResults t pages, ¬ Halted r) ∧ ∀ r ∈ site.assetResults t entries pages, ¬ Halted r := by
  have notHalted := (build_finishes_iff site t entries pages).1.1 ⟨r, h⟩
  rw [buildHalts_iff] at notHalted
  simp only [not_or, not_exists, not_and] at notHalted
  exact ⟨notHalted.2.1, notHalted.2.2.2⟩

/-- Every asset of a build that returns has an output. -/
theorem output_of_asset {r : Result} (h : (site.build t entries pages).result = .ok r) {source : Path}
    (hs : source ∈ site.assets t entries pages) : ∃ o, source.output site.out site.ext = .ok o := by
  obtain ⟨found, notHalted⟩ := exists_not_halted (not_halted_of_result h).2 hs
  cases ho : source.output site.out site.ext with
  | ok o => exact ⟨o, rfl⟩
  | error fault => exact absurd (halted_copyAsset_iff.2 (.unplaced fault ho)) notHalted

theorem output_of_page {r : Result} (h : (site.build t entries pages).result = .ok r) {page : Page}
    (hp : page ∈ pages) : ∃ o, page.output site.out site.ext = .ok o := by
  obtain ⟨found, notHalted⟩ := exists_not_halted (not_halted_of_result h).1 hp
  cases ho : page.output site.out site.ext with
  | ok o => exact ⟨o, rfl⟩
  | error fault => exact absurd (halted_renderPage_iff.2 (.unplaced fault ho)) notHalted

/-! ## Planned pages -/

theorem attached?_of_planned {page : Page} (h : page.Planned site.ext) (t : FileTree) :
    site.attached? t page = .ok none := by
  unfold attached?
  obtain ⟨-, ⟨-, whole⟩ | ⟨-, given, name, usable, placed⟩⟩ := h.standing
  · simp [whole]; rfl
  · simp [placed]; rfl

/-- A build gives planned pages back as they were. -/
theorem pagesAfter_of_planned (h : ∀ page ∈ pages, page.Planned site.ext) :
    pagesAfter pages (inTurn site.renderPage t pages).2.2 = pages := by
  induction pages generalizing t with
  | nil => rfl
  | cons page pages ih =>
    have rest := @ih (site.renderPage t page).tree fun q hq => h q (List.mem_cons_of_mem _ hq)
    have first := attached?_of_planned (h page List.mem_cons_self) t
    simp only [inTurn]
    cases hr : (site.renderPage t page).result with
    | error fault => simp only [pagesAfter, rest]
    | ok rendered =>
      have same : rendered.page = page := (page_of_rendered hr).resolve_right (by rw [first]; simp)
      simp only [pagesAfter, rest, same]

/-! ## Paths of sources -/

/-- The path leads down from a root directory. -/
def LeadsDown (p : Path) : Prop := ∃ s rest, p = ⟨.relative, s :: rest⟩ ∧ rest ≠ [] ∧ Path.Plain rest

theorem leadsDown_of_output {p o : Path} (ho : p.output site.out site.ext = .ok o) (hd : "." ∉ p.segments) :
    LeadsDown p := by
  obtain ⟨-, relative, below, up⟩ := Path.output_ok ho
  obtain ⟨root, segments⟩ := p
  cases segments with
  | nil => exact absurd rfl below
  | cons s rest =>
    obtain rfl : root = .relative := relative
    exact ⟨s, rest, rfl, below, fun hm => hd (List.mem_cons_of_mem _ hm), up⟩

theorem leadsDown_of_long {p : Path} (hr : p.root = .relative) (read : p.IsRead) (long : 2 ≤ p.segments.length)
    (up : ".." ∉ p.segments.drop 1) : LeadsDown p := by
  obtain ⟨root, segments⟩ := p
  obtain rfl : root = .relative := hr
  cases segments with
  | nil => cases long
  | cons s rest =>
    refine ⟨s, rest, rfl, ?_, fun hd => (read _ (List.mem_cons_of_mem _ hd)).2.1 rfl, up⟩
    rintro rfl
    simp at long

theorem div_of_leadsDown (s : String) (rest : List String) :
    site.dir / (⟨.relative, s :: rest⟩ : Path) = ⟨site.dir.root, site.dir.segments ++ s :: rest⟩ :=
  Path.join_ofSegments site.dir (s :: rest)

/-- Where the path of a source ends. -/
theorem collapse_of_leadsDown (s : String) {rest : List String} (hr : Path.Plain rest) :
    collapse (site.dir / (⟨.relative, s :: rest⟩ : Path)).segments =
      collapse (site.dir.segments ++ [s]) ++ rest := by
  rw [div_of_leadsDown, ← Path.collapse_append_of_plain _ hr]
  simp

theorem LeadsDown.name {p : Path} (h : LeadsDown p) :
    (collapse (site.dir / p).segments).getLast? = some p.name := by
  obtain ⟨s, rest, rfl, below, plain⟩ := h
  rw [collapse_of_leadsDown s plain]
  simp [Path.name, List.getLast?_append, List.getLast?_cons, List.getLastD_eq_getLast?,
    List.getLast?_eq_some_getLast below]

theorem LeadsDown.leads {p : Path} (h : LeadsDown p) (hd : Path.Plain site.dir.segments) (ht : IsTree t)
    (home : t.get? site.dir.segments = some .dir) : t.Leads (site.dir / p) := by
  obtain ⟨s, rest, rfl, -, plain⟩ := h
  rw [div_of_leadsDown]
  exact FileTree.leads_of_home ht hd home s plain

/-- All on the way to a source that is there is there. -/
theorem trodden_of_leadsDown {p : Path} (h : LeadsDown p) (hd : Path.Plain site.dir.segments) (ht : IsTree t)
    (home : t.get? site.dir.segments = some .dir) (hp : (t.get? (collapse (site.dir / p).segments)).isSome) :
    Trodden site t p := by
  have dirs := FileTree.hurdle?_eq_none.1 (FileTree.hurdle?_dropLast_of_leads ht (h.leads hd ht home) hp)
  unfold Trodden
  generalize (site.dir / p).segments = segs at dirs hp ⊢
  rcases List.eq_nil_or_concat segs with rfl | ⟨before, s, rfl⟩
  · intro l hl; cases hl
  · rw [List.concat_eq_append, FileTree.trail_concat] at dirs ⊢
    rw [List.dropLast_concat] at dirs
    intro l hl
    rcases List.mem_append.1 hl with hl | hl
    · rw [dirs l hl]; rfl
    · rw [List.concat_eq_append, Path.collapse_append] at hp
      rw [List.mem_singleton.1 hl]
      exact hp

/-- A template that leads down from a root directory lies outside of the output root if that is apart from it. -/
theorem outside_of_apart {p : Path} (h : LeadsDown p) (hr : p.IsRead) (ha : IsApart site p) :
    ¬ site.outLocation <+: collapse (site.dir / p).segments := by
  obtain ⟨s, rest, rfl, below, plain⟩ := h
  have dir : (site.searchDir ⟨.relative, s :: rest⟩).segments = site.dir.segments ++ [s] := by
    have first : Path.rootDir ⟨.relative, s :: rest⟩ = s := rfl
    rw [searchDir, first, Path.ofString_segment (hr s List.mem_cons_self), Path.join_ofSegments]
  have apart := ha.root (by simp [Path.parts, Path.isAbsolute])
  rw [dir] at apart
  rw [collapse_of_leadsDown s plain]
  intro hp
  rcases List.prefix_or_prefix_of_prefix hp (List.prefix_append _ rest) with hq | hq
  · exact apart.1 hq
  · exact apart.2 hq

/-! ## The conditions -/

/-- A project whose pages were planned and built: the output root is apart from their sources, and no output is at,
above or below another one. Names in the tree are such as the system has. -/
structure Built (site : Site) (t : FileTree) (entries : List String) (x : Expansion) (r : Result) : Prop where
  isTree : IsTree t
  named : t.Named
  plain : Path.Plain site.dir.segments
  home : t.get? site.dir.segments = some .dir
  expanded : expandEntries t site.bindings site.ext entries = .ok x
  apart : ∀ page ∈ x.pages, IsApart site page.template
  outputs : (site.outputs t entries x.pages).Pairwise fun o o' => Unnested o.segments o'.segments
  result : (site.build t entries x.pages).result = .ok r

/-- The roots that assets are looked for in. -/
def rootsOf (entries : List String) : List String := Path.rootDirs (entries.map Path.ofString)

/-- The texts of the pages of all other templates are the same in both trees: none of these templates reads `f`. -/
def Unread (site : Site) (pages : List Page) (f : Path) (T T' : FileTree) : Prop :=
  ∀ page ∈ pages, page.template ≠ f → ∀ output ∈ (page.output site.out site.ext).toOption,
    (site.pageText T' page output).2 = (site.pageText T page output).2

instance (site : Site) (pages : List Page) (f : Path) (T T' : FileTree) : Decidable (Unread site pages f T T') :=
  inferInstanceAs (Decidable (∀ page ∈ pages, _))

/-- All assets but `f` are the same in both trees: the path of no other asset leads to that file. -/
def Alone (site : Site) (entries : List String) (f : Path) (T T' : FileTree) : Prop :=
  ∀ source ∈ site.findAssets T (rootsOf entries), source ≠ f →
    T'.read (site.dir / source) = T.read (site.dir / source)

instance (site : Site) (entries : List String) (f : Path) (T T' : FileTree) :
    Decidable (Alone site entries f T T') :=
  inferInstanceAs (Decidable (∀ source ∈ site.findAssets T (rootsOf entries), _))

/-- In `T'` one source file `f` of the tree `T` has another content. It is the template of pages and no other template
reads it, or it is an asset and no template reads it. -/
structure Edited (site : Site) (entries : List String) (pages : List Page) (f : Path) (T T' : FileTree) : Prop where
  rewritten : ∃ old new, T.read (site.dir / f) = .ok old ∧ T' = (T.putFile (site.dir / f) new).1
  source : (∃ page ∈ pages, page.template = f) ∨
    f ∈ site.findAssets T (rootsOf entries) ∧ Alone site entries f T T'
  unread : Unread site pages f T T'

section
variable {x : Expansion} {r : Result} {f : Path} {T' : FileTree}

/-! ### After the first build -/

theorem Built.planned (h : Built site t entries x r) : ∀ page ∈ x.pages, page.Planned site.ext :=
  fun _ hm => (planned_of_expandEntries h.named h.expanded hm).1

theorem Built.orderly (h : Built site t entries x r) : Orderly site t entries x.pages where
  isTree := h.isTree
  plain := h.plain
  home := h.home
  places page hm := (h.planned page hm).logical.2.2.1
  apart := h.apart
  templates page hm := (h.planned page hm).read
  outputs := h.outputs

theorem Built.repeatable (h : Built site t entries x r) : Repeatable site site.now t x.pages where
  toProject := h.orderly.toProject
  templates := h.orderly.templates
  plainly _ hl := h.named.plain hl
  timeless _ _ _ _ := rfl

/-- The tree that the first build leaves. -/
theorem Built.tree (h : Built site t entries x r) :
    Kept site t (site.build t entries x.pages).tree ∧ Onward t (site.build t entries x.pages).tree := by
  rw [tree_build]
  exact gather_tree h.repeatable entries

theorem Built.holding (h : Built site t entries x r) : Holding site t (site.assetsTree t x.pages)
    (site.assets t entries x.pages) (site.assetsTree t x.pages) :=
  ⟨kept_assetsTree h.orderly, fun _ _ => rfl⟩

/-- What is read of the assets is the same after the build. -/
theorem Built.holding_end (h : Built site t entries x r) : Holding site t (site.assetsTree t x.pages)
    (site.assets t entries x.pages) (site.build t entries x.pages).tree := by
  rw [tree_of_result h.result]
  exact ((lasting_assets (rootsOf entries)).kept h.holding h.holding).1

theorem Built.onward_assets (h : Built site t entries x r) :
    Onward (site.assetsTree t x.pages) (site.build t entries x.pages).tree := by
  rw [tree_of_result h.result]
  exact (lasting_assets (rootsOf entries)).onward h.holding

/-- The build gives the pages back as they were. -/
theorem Built.pages_eq (h : Built site t entries x r) : r.pages = x.pages := by
  obtain ⟨lines, faults, -, -, -, -, he, -⟩ := (build_finishes_iff site t entries x.pages).2.1 r h.result
  rw [he]
  exact pagesAfter_of_planned h.planned

/-- The templates of pages lead down from their root directories. -/
theorem Built.leadsDown (h : Built site t entries x r) {page : Page} (hm : page ∈ x.pages) :
    LeadsDown page.template := by
  have planned := h.planned page hm
  obtain ⟨o, ho⟩ := output_of_page h.result hm
  have up : ".." ∉ page.template.segments.drop 1 := fun hu =>
    (Path.output_ok ho).2.2.2 (planned.logical.2.2.2.2 (.inl hu))
  exact leadsDown_of_long planned.relative planned.read planned.long up

/-! ### After the change -/

theorem mem_findAssets_grows (h : Grows t t') {roots : List String} {source : Path}
    (hs : source ∈ site.findAssets t roots) : source ∈ site.findAssets t' roots := by
  obtain ⟨⟨root, hroot, found⟩, isAsset⟩ := mem_findAssets.1 hs
  exact mem_findAssets.2 ⟨⟨root, hroot, Glob.files_grows h found⟩, isAsset⟩

/-- An asset does not have the extension of a template. -/
theorem ext_of_asset {roots : List String} {source : Path} (hs : source ∈ site.findAssets t roots) :
    source.hasTemplateExt site.ext = false := by
  have good := (mem_findAssets.1 hs).2
  simp only [isAsset, Bool.and_eq_true, Bool.not_eq_true'] at good
  exact good.1

theorem ext_of_page (h : Built site t entries x r) {page : Page} (hm : page ∈ x.pages) :
    page.template.hasTemplateExt site.ext = true := by
  obtain ⟨-, pattern, -, p, -, isMatch⟩ := matched_of_page h.expanded hm
  exact (matchTemplate_eq_some isMatch).2.1

/-- No asset is the template of a page. -/
theorem Built.template_ne_asset (h : Built site t entries x r) {page : Page} (hm : page ∈ x.pages) {roots : List String}
    {source : Path} (hs : source ∈ site.findAssets t' roots) : page.template ≠ source := by
  rintro rfl
  have ext := ext_of_asset hs
  rw [ext_of_page h hm] at ext
  cases ext

theorem Edited.rewrites (e : Edited site entries pages f T T') :
    FileTree.Rewritten (collapse (site.dir / f).segments) T T' := by
  obtain ⟨old, new, read, rfl⟩ := e.rewritten
  exact FileTree.rewritten_putFile read new

variable (h : Built site t entries x r) (e : Edited site entries x.pages f (site.build t entries x.pages).tree T')
include h e

theorem Edited.outside : ¬ site.outLocation <+: collapse (site.dir / f).segments := by
  rcases e.source with ⟨page, hm, rfl⟩ | ⟨asset, -⟩
  · exact outside_of_apart (h.leadsDown hm) (h.orderly.templates page hm) (h.apart page hm)
  · exact outside_of_not_output (asset_of_mem asset).1

/-- The change does not concern other assets. -/
theorem Edited.reads {source : Path} (hs : source ∈ site.assets t entries x.pages) (hne : source ≠ f) :
    T'.read (site.dir / source) = (site.build t entries x.pages).tree.read (site.dir / source) := by
  rcases e.source with ⟨page, hm, rfl⟩ | ⟨-, others⟩
  · refine e.rewrites.read_eq fun same => ?_
    obtain ⟨o, ho⟩ := output_of_asset h.result hs
    have name : (collapse (site.dir / source).segments).getLast? = some source.name :=
      (leadsDown_of_output ho (asset_of_mem hs).2.1).name
    rw [same, (h.leadsDown hm).name] at name
    -- a file with the name of a template is no asset
    have ext := ext_of_asset hs
    rw [Path.hasTemplateExt, ← Option.some.inj name] at ext
    exact absurd (ext_of_page h hm) (by rw [Path.hasTemplateExt, ext]; simp)
  · exact others source (mem_findAssets_grows h.onward_assets.grows hs) hne

theorem Edited.kept : Kept site T' T' :=
  ⟨⟨e.rewrites.isTree h.tree.1.isTree, .refl T', e.rewrites.dir_iff.2 h.tree.1.home⟩, fun _ hl => hl⟩

theorem Edited.plainly : T'.Plainly := fun l hl =>
  h.tree.2.plainly h.repeatable.plainly l (e.rewrites.isSome_iff.1 hl)

end

/-! ### What the second build leaves alone -/

theorem Orderly.apart_sitemap_asset (h : Orderly site t entries pages) (hw : site.options.sitemap = true) :
    ∀ source ∈ site.assets t entries pages, (site.area sitemapBelow).Apart (site.pathArea source) := fun source hm =>
  apart_sitemap (asset_of_mem hm).2.1 fun o ho =>
    (List.pairwise_append.1 h.outputs).2.2 _ (List.mem_append_left _ (by simp [hw])) o
      (List.mem_filterMap.2 ⟨source, hm, toOption_eq_some ho⟩)

theorem Orderly.apart_page_asset (h : Orderly site t entries pages) {page : Page} (hp : page ∈ pages) :
    ∀ source ∈ site.assets t entries pages, (site.pathArea page.logical).Apart (site.pathArea source) :=
  fun source hm => pathArea_apart (h.dots page hp) (asset_of_mem hm).2.1 fun o o' ho ho' =>
    (List.pairwise_append.1 h.outputs).2.2 o (List.mem_append_right _ (List.mem_filterMap.2
      ⟨page, hp, toOption_eq_some ho⟩)) o' (List.mem_filterMap.2 ⟨source, hm, toOption_eq_some ho'⟩)

section
variable {x : Expansion} {r : Result}

/-- What is apart from the assets is as the last page left it. -/
theorem Built.sees_end (h : Built site t entries x r) {A : Area}
    (ha : ∀ source ∈ site.assets t entries x.pages, A.Apart (site.pathArea source)) :
    A.Sees (site.assetsTree t x.pages) (site.build t entries x.pages).tree := by
  rw [tree_of_result h.result]
  exact sees_inTurn (local_asset (rootsOf entries)) ha h.holding

theorem Built.grows_pages (h : Built site t entries x r) :
    Grows (site.pagesTree t x.pages) (site.assetsTree t x.pages) :=
  (h.repeatable.lasting_pages.onward h.orderly.kept_pagesTree).grows

/-- To make the sitemap again changes nothing as long as it is there. -/
theorem Built.idle_sitemap (h : Built site t entries x r) (hw : site.options.sitemap = true)
    (K : FileTree → Prop) : Idle K (site.build t entries x.pages).tree (site.area sitemapBelow)
      fun w => (site.makeSitemap w x.pages).tree := by
  refine idle_of_lasting (lasting_makeSitemap ground_kept x.pages) h.orderly.kept
    (h.grows_pages.trans h.onward_assets.grows) fun l hl => ?_
  refine ((h.sees_end (h.orderly.apart_sitemap_asset hw)).own l hl).trans ?_
  exact (sees_inTurn h.orderly.local_page (h.orderly.apart_sitemap_page hw) h.orderly.kept_pagesTree).own l hl

end

/-- The location belongs to the output of something else than the changed file. -/
inductive Quiet (site : Site) (t : FileTree) (entries : List String) (pages : List Page) (f : Path)
    (l : Location) : Prop where
  | sitemap (wanted : site.options.sitemap = true) (own : (site.area sitemapBelow).own l)
  | page (page : Page) (mem : page ∈ pages) (other : page.template ≠ f) (own : (site.pathArea page.logical).own l)
  | asset (source : Path) (mem : source ∈ site.assets t entries pages) (other : source ≠ f)
      (own : (site.pathArea source).own l)

/-- A tree during the second build, or during the work on the event: what does not belong to the changed file is as
the first build left it. -/
structure Rebuilding (site : Site) (t : FileTree) (entries : List String) (pages : List Page) (f : Path)
    (T' w : FileTree) : Prop where
  kept : Kept site T' w
  grows : Grows (site.build t entries pages).tree w
  quiet : ∀ l, Quiet site t entries pages f l → w.get? l = (site.build t entries pages).tree.get? l

theorem under_of_pathArea {p : Path} {l : Location} (h : (site.pathArea p).own l) : site.outLocation <+: l := by
  unfold pathArea at h
  split at h
  · exact (List.prefix_append _ _).trans h.1
  · exact h.elim

theorem Quiet.under {f : Path} {l : Location} (h : Quiet site t entries pages f l) : site.outLocation <+: l := by
  cases h with
  | sitemap _ own => exact (List.prefix_append _ _).trans own.1
  | page _ _ _ own => exact under_of_pathArea own
  | asset _ _ _ own => exact under_of_pathArea own

section
variable {x : Expansion} {r : Result} {f : Path} {T' : FileTree}
variable (h : Built site t entries x r) (e : Edited site entries x.pages f (site.build t entries x.pages).tree T')
include h e

theorem Edited.start : Rebuilding site t entries x.pages f T' T' where
  kept := e.kept h
  grows := e.rewrites.grows
  quiet l hl := e.rewrites.other l fun he => e.outside h (he ▸ hl.under)

/-- What is decided about another page is the same after the change. -/
theorem Edited.near_drafted {page : Page} (hm : page ∈ x.pages) (hne : page.template ≠ f) {u w : FileTree}
    (hu : Kept site t u) (hw : Kept site T' w) {output : Path} (ho : page.output site.out site.ext = .ok output) :
    Near Fault.Alike False (site.drafted page output u) (site.drafted page output w) := by
  have read := h.orderly.templates page hm
  have apart := h.apart page hm
  have single := attached?_of_planned (h.planned page hm)
  have same : site.drafted page output T' = site.drafted page output (site.build t entries x.pages).tree := by
    rw [drafted, drafted, single, single]
    dsimp only
    rw [e.unread page hm hne output (toOption_eq_some ho)]
  -- both are near to what was decided in the tree that the change has found
  have first : Near Fault.Alike False (site.drafted page output (site.build t entries x.pages).tree)
      (site.drafted page output u) :=
    Site.near_drafted h.tree.1.toVaried hu.toVaried False.elim h.plain read apart output
  have second : Near Fault.Alike False (site.drafted page output T') (site.drafted page output w) :=
    Site.near_drafted (e.kept h).toVaried hw.toVaried False.elim h.plain read apart output
  rw [same] at second
  exact .join (fun h => h.symm) (fun h h' => h.trans h') first second

theorem Edited.idle_page {page : Page} (hm : page ∈ x.pages) (hne : page.template ≠ f) :
    Idle (Kept site T') (site.build t entries x.pages).tree (site.pathArea page.logical)
      fun w => (site.renderPage w page).tree := by
  have ground : Ground site False (Kept site t) := ⟨ground_kept.isTree, ground_kept.keeps, False.elim⟩
  have lasting : Lasting (Kept site t) (Kept site T') (site.pathArea page.logical).own (Near Fault.Alike False)
      (fun u => (site.renderPage u page).done) fun w => (site.renderPage w page).done :=
    lasting_renderPage_of_near ground (h.orderly.dots page hm) fun o ho => fun {u w} hu hw =>
      e.near_drafted h hm hne hu hw ho
  exact idle_inTurn h.orderly.local_page h.orderly.apart_pages
    (fun q hq => fun {u} hu => ((h.repeatable.lasting_pages.lasting q hq).onward hu).grows)
    h.orderly.kept_pagesTree h.onward_assets.grows hm (h.sees_end (h.orderly.apart_page_asset hm)).own lasting

theorem Edited.idle_asset {source : Path} (hm : source ∈ site.assets t entries x.pages) (hne : source ≠ f) :
    Idle (Kept site T') (site.build t entries x.pages).tree (site.pathArea source)
      fun w => (site.copyAsset w source).tree := by
  obtain ⟨outside, dots, content, hc⟩ := asset_of_mem hm
  -- the content of the asset has been the same all the time
  have before : (site.build t entries x.pages).tree.read (site.dir / source) = .ok content :=
    (h.holding_end.reads source hm).trans hc
  have after : T'.read (site.dir / source) = .ok content := (e.reads h hm hne).trans before
  have reads : ∀ {u u'}, Holding site t (site.assetsTree t x.pages) (site.assets t entries x.pages) u →
      Holding site t (site.assetsTree t x.pages) (site.assets t entries x.pages) u' →
      Near (fun _ _ => True) (Straight site t) (u.read (site.dir / source)) (u'.read (site.dir / source)) :=
    fun hu hu' => .inl ((hu'.reads source hm).trans (hu.reads source hm).symm)
  have reads' : ∀ {u w}, Holding site t (site.assetsTree t x.pages) (site.assets t entries x.pages) u →
      Kept site T' w →
      Near (fun _ _ => True) (Straight site t) (u.read (site.dir / source)) (w.read (site.dir / source)) :=
    fun hu hw => .inl ((read_kept (fun l hl => hw.dirs l hl) hw.around (outside_of_not_output outside) after).trans
      ((hu.reads source hm).trans hc).symm)
  have ground : Ground site (Straight site t)
      (Holding site t (site.assetsTree t x.pages) (site.assets t entries x.pages)) :=
    ground_holding fun source hm => ⟨(asset_of_mem hm).1, (asset_of_mem hm).2.2⟩
  have lasting := lasting_copyAsset ground dots outside reads reads'
  have locals := @local_asset site t (site.assetsTree t x.pages) (rootsOf entries)
  have grows : ∀ source ∈ site.assets t entries x.pages, ∀ {u},
      Holding site t (site.assetsTree t x.pages) (site.assets t entries x.pages) u →
        Grows u (site.copyAsset u source).tree := fun source hs {u} hu =>
    (((lasting_assets (rootsOf entries)).lasting source hs).onward hu).grows
  rw [tree_of_result h.result]
  exact idle_inTurn locals h.orderly.apart_assets grows h.holding (.refl _) hm (fun _ _ => rfl) lasting

/-! ### The second build -/

/-- The second build makes the same sitemap. -/
theorem Edited.pagesTree_eq : site.pagesTree T' x.pages = T' := by
  unfold pagesTree
  cases hw : site.options.sitemap with
  | false => simp [makeSitemap, hw, Step.still]
  | true =>
    have start := e.start h
    exact h.idle_sitemap hw (Kept site T') T' start.kept start.grows fun l hl => start.quiet l (.sitemap hw hl)

theorem Edited.repeatable (hn : Timeless site now T' x.pages) : Repeatable site now T' x.pages where
  isTree := (e.kept h).isTree
  plain := h.plain
  home := (e.kept h).home
  places := h.orderly.places
  apart := h.apart
  templates := h.orderly.templates
  plainly := e.plainly h
  timeless := hn

/-- What is done about pages of the changed file does not concern anything else. -/
theorem Edited.rebuilding_page {page : Page} (hm : page ∈ x.pages) (hf : page.template = f)
    (hw : Rebuilding site t entries x.pages f T' w) :
    Rebuilding site t entries x.pages f T' (site.renderPage w page).tree := by
  have again : Repeatable site site.now T' x.pages := e.repeatable h fun _ _ _ _ => rfl
  have work := again.local_page page hm
  have onward := (again.lasting_pages.lasting page hm).onward hw.kept
  refine ⟨work.keeps hw.kept, hw.grows.trans onward.grows, fun l hl => ?_⟩
  refine Eq.trans ?_ (hw.quiet l hl)
  cases hl with
  | sitemap wanted own => exact (work.sees (h.orderly.apart_sitemap_page wanted page hm) hw.kept).own l own
  | page other mem hne own =>
    have different : other ≠ page := by rintro rfl; exact hne hf
    have symm : Std.Symm fun a b : Page => (site.pathArea a.logical).Apart (site.pathArea b.logical) :=
      ⟨fun _ _ ha => ha.symm⟩
    exact (work.sees (h.orderly.apart_pages.forall mem hm different) hw.kept).own l own
  | asset source mem _ own => exact (work.sees (h.orderly.apart_page_asset hm source mem).symm hw.kept).own l own

/-- Of the pages, the second build renders those of the changed template; all others are left as they are. -/
theorem Edited.rebuild_pages :
    (inTurn site.renderPage T' x.pages).1 = (inTurn site.renderPage T' (x.pages.filter (·.template = f))).1 ∧
      resultsAt (·.template = f) x.pages (inTurn site.renderPage T' x.pages).2.2 =
        (inTurn site.renderPage T' (x.pages.filter (·.template = f))).2.2 ∧
      Rebuilding site t entries x.pages f T' (inTurn site.renderPage T' x.pages).1 := by
  refine inTurn_of_idle (fun page hm hne w hw => ?_) (fun page hm hf w hw => ?_) (e.start h)
  · have hne : page.template ≠ f := by simpa using hne
    exact e.idle_page h hm hne w hw.kept hw.grows fun l hl => hw.quiet l (.page page hm hne hl)
  · exact e.rebuilding_page h hm (by simpa using hf) hw

/-! ### The assets of the second build -/

/-- The second build finds the same assets if it returns. -/
theorem Edited.assets_eq
    (placed : ∀ source ∈ site.assets T' entries x.pages, ∃ o, source.output site.out site.ext = .ok o) :
    site.assets T' entries x.pages = site.assets t entries x.pages := by
  have again : Repeatable site site.now T' x.pages := e.repeatable h fun _ _ _ _ => rfl
  have rebuilding := (e.rebuild_pages h).2.2
  have plainly := (again.lasting_pages.onward (e.kept h)).plainly (e.plainly h)
  have inTree : site.assetsTree T' x.pages = (inTurn site.renderPage T' x.pages).1 := by
    rw [assetsTree, e.pagesTree_eq h]
  have before := kept_assetsTree h.orderly
  unfold assets at placed ⊢
  rw [inTree] at placed ⊢
  refine findAssets_again (.refl (site.assetsTree t x.pages)) (h.onward_assets.grows.trans rebuilding.grows) (.refl _)
    plainly fun source hs => ?_
  obtain ⟨isOutput, dots, content, hc⟩ := asset_of_mem hs
  obtain ⟨o, ho⟩ := placed source hs
  have outside := outside_of_not_output isOutput
  -- the file was there before the first asset was copied
  have file := FileTree.hasFile_iff.2 ⟨content, (FileTree.located_of_read hc).2⟩
  rw [rebuilding.kept.around.hasFile_eq outside, e.rewrites.hasFile_eq, h.tree.1.around.hasFile_eq outside,
    ← before.around.hasFile_eq outside] at file
  obtain ⟨old, found⟩ := FileTree.hasFile_iff.1 file
  exact trodden_of_leadsDown (leadsDown_of_output ho dots) h.plain before.isTree before.home (by rw [found]; rfl)

/-- The copy of the changed asset does not concern anything else. -/
theorem Edited.rebuilding_asset (hf : f ∈ site.assets t entries x.pages)
    (hw : Rebuilding site t entries x.pages f T' w) :
    Rebuilding site t entries x.pages f T' (site.copyAsset w f).tree := by
  obtain ⟨outside, dots, -⟩ := asset_of_mem hf
  obtain ⟨old, new, before, -⟩ := e.rewritten
  obtain ⟨new, after⟩ := e.rewrites.read_ok before
  have reads : ∀ {u u'}, Kept site T' u → Kept site T' u' →
      Near (fun _ _ => True) (Straight site T') (u.read (site.dir / f)) (u'.read (site.dir / f)) := fun hu hu' =>
    have same := fun {u} (hu : Kept site T' u) =>
      read_kept (fun l hl => hu.dirs l hl) hu.around (outside_of_not_output outside) after
    .inl ((same hu').trans (same hu).symm)
  have work := local_copyAsset ground_kept dots outside reads
  have lasting := lasting_copyAsset ground_kept dots outside reads reads
  refine ⟨work.keeps hw.kept, hw.grows.trans (lasting.onward hw.kept).grows, fun l hl => ?_⟩
  refine Eq.trans ?_ (hw.quiet l hl)
  cases hl with
  | sitemap wanted own => exact (work.sees (h.orderly.apart_sitemap_asset wanted f hf) hw.kept).own l own
  | page page mem _ own => exact (work.sees (h.orderly.apart_page_asset mem f hf) hw.kept).own l own
  | asset source mem hne own =>
    have symm : Std.Symm fun a b : Path => (site.pathArea a).Apart (site.pathArea b) := ⟨fun _ _ ha => ha.symm⟩
    exact (work.sees (h.orderly.apart_assets.forall mem hf hne) hw.kept).own l own

/-- Of the assets, the second build copies the changed one; all others are left as they are. -/
theorem Edited.rebuild_assets (hw : Rebuilding site t entries x.pages f T' w) :
    (inTurn site.copyAsset w (site.assets t entries x.pages)).1 =
        (inTurn site.copyAsset w ((site.assets t entries x.pages).filter (· = f))).1 ∧
      resultsAt (· = f) (site.assets t entries x.pages)
          (inTurn site.copyAsset w (site.assets t entries x.pages)).2.2 =
        (inTurn site.copyAsset w ((site.assets t entries x.pages).filter (· = f))).2.2 := by
  have idle : ∀ source ∈ site.assets t entries x.pages, decide (source = f) = false → ∀ w,
      Rebuilding site t entries x.pages f T' w → (site.copyAsset w source).tree = w := fun source hm hne w hw => by
    have hne : source ≠ f := by simpa using hne
    exact e.idle_asset h hm hne w hw.kept hw.grows fun l hl => hw.quiet l (.asset source hm hne hl)
  have run := inTurn_of_idle idle (fun source hm hf w hw => by
    obtain rfl : source = f := by simpa using hf
    exact e.rebuilding_asset h hm hw) hw
  exact ⟨run.1, run.2.1⟩

end

end Site

end StaticSite
