import StaticSite.Proofs.Glob.View
import StaticSite.Proofs.Site.Scheduling

/-!
# Builds in any order

Where no two outputs of a build are nested and the output root is apart from the templates and the data, the order
in which workers take up the pages and the assets does not matter (`build_any_order`). Only the system's reason
why it refuses to write or to read a file may depend on it, and only if the path of the output root makes a detour
through what is not there: then a directory that other work has made may be what is found on the way.
-/

namespace StaticSite

namespace FileTree

theorem read_same {t t' : FileTree} (h : Same t t') (p : Path) : t'.read p = t.read p := by
  have get : ∀ l, t'.get? l = t.get? l := h
  simp only [read, locate, walk_same h, get]

end FileTree

namespace Site

open FileTree (Area Local Same IsTree after trail)
open Path (collapse)

variable {site : Site} {exact : Prop} {t₀ t t' : FileTree}

/-! ## Trees during a build -/

/-- A tree as a build may leave it: all directories are still there. -/
structure Kept (site : Site) (t₀ t : FileTree) : Prop extends Varied site t₀ t where
  dirs : ∀ l, t₀.get? l = some .dir → t.get? l = some .dir

theorem ground_kept : Ground site (Straight site t₀) (Kept site t₀) where
  isTree h := h.isTree
  keeps h ht hd ha := ⟨⟨ht, h.around.trans ha, hd _ h.home⟩, fun l hl => hd l (h.dirs l hl)⟩
  straight hs _ h l hl := (hs l hl).imp_right (h.dirs l)

theorem Kept.same (h : Kept site t₀ t) (same : Same t t') : Kept site t₀ t' where
  isTree := h.isTree.same same
  around := h.around.trans fun l _ => .inl (same l)
  home := (same _).trans h.home
  dirs l hl := (same l).trans (h.dirs l hl)

/-- A file that could be read can be read as long as all directories stay. -/
theorem read_kept {p : Path} {content : ByteArray} (hd : ∀ l, t.get? l = some .dir → t'.get? l = some .dir)
    (ha : Around site t t') (hp : ¬ site.outLocation <+: collapse p.segments)
    (h : t.read p = .ok content) : t'.read p = .ok content := by
  rw [FileTree.read, FileTree.locate_eq] at h ⊢
  cases hh : t.hurdle? (trail [] p.segments).dropLast with
  | some cause => rw [hh] at h; cases h
  | none =>
    have clear : t'.hurdle? (trail [] p.segments).dropLast = none :=
      FileTree.hurdle?_eq_none.2 fun l hl => hd l (FileTree.hurdle?_eq_none.1 hh l hl)
    rw [hh] at h
    rw [clear]
    dsimp only at h ⊢
    split at h
    · cases h
    · cases h
    · next found hf =>
      cases h
      rw [(ha.file_iff hp content).2 hf]

/-- A tree as it may be while assets are copied: all of them are as they were in `t₁`. -/
structure Holding (site : Site) (t₀ t₁ : FileTree) (sources : List Path) (t : FileTree) : Prop
    extends Kept site t₀ t where
  reads : ∀ source ∈ sources, t.read (site.dir / source) = t₁.read (site.dir / source)

theorem ground_holding {t₁ : FileTree} {sources : List Path}
    (hs : ∀ source ∈ sources, site.isOutput source = false ∧
      ∃ content, t₁.read (site.dir / source) = .ok content) :
    Ground site (Straight site t₀) (Holding site t₀ t₁ sources) where
  isTree h := h.isTree
  keeps h ht hd ha := by
    refine ⟨ground_kept.keeps h.toKept ht hd ha, fun source hm => ?_⟩
    obtain ⟨outside, content, hc⟩ := hs source hm
    rw [hc]
    exact read_kept hd ha (outside_of_not_output outside) ((h.reads source hm).trans hc)
  straight hx _ h := ground_kept.straight hx h.toKept

theorem findAssets_same (same : Same t t') (roots : List String) :
    site.findAssets t' roots = site.findAssets t roots := by
  unfold findAssets
  simp only [Glob.files_same same]

/-- An asset that was found is no output, its path has no segment that is `.`, and it can be read. -/
theorem asset_of_mem {roots : List String} {source : Path} (h : source ∈ site.findAssets t roots) :
    site.isOutput source = false ∧ "." ∉ source.segments ∧
      ∃ content, t.read (site.dir / source) = .ok content := by
  rw [findAssets, Path.mem_sortDistinct] at h
  obtain ⟨hm, ha⟩ := List.mem_filter.1 h
  obtain ⟨root, -, hf⟩ := List.mem_flatMap.1 hm
  obtain ⟨dots, content⟩ := Glob.read_of_mem_files hf
  refine ⟨?_, dots, content⟩
  simp only [isAsset, Bool.and_eq_true, Bool.not_eq_true'] at ha
  exact ha.2

/-! ## Agreement -/

/-- The faults are alike, and the same if exactness is asked for. -/
def FaultsAgree (exact : Prop) (fs fs' : List Fault) : Prop :=
  List.Forall₂ Fault.Alike fs fs' ∧ (exact → fs' = fs)

/-- Results of a build that differ at most in the system's reasons. -/
structure Result.Agree (exact : Prop) (r r' : Result) : Prop where
  pages : r'.pages = r.pages
  sitemap : r'.sitemap = r.sitemap
  rendered : r'.rendered = r.rendered
  copied : r'.copied = r.copied
  faults : FaultsAgree exact r.faults r'.faults

/-- Steps that leave the same tree and end with the same fault or with related results. -/
def Step.Agree {α : Type} (R : α → α → Prop) (s s' : Step α) : Prop :=
  Same s.tree s'.tree ∧ ((∃ f, s.result = .error f ∧ s'.result = .error f) ∨
    ∃ a a', s.result = .ok a ∧ s'.result = .ok a' ∧ R a a')

theorem Step.Agree.andThen {α β : Type} {R : α → α → Prop} {S : β → β → Prop} {s s' : Step α}
    (h : s.Agree R s') {next next' : FileTree → α → Step β}
    (hn : ∀ a a', R a a' → (next s.tree a).Agree S (next' s'.tree a')) :
    (s.andThen next).Agree S (s'.andThen next') := by
  obtain ⟨same, ⟨f, hf, hf'⟩ | ⟨a, a', ha, ha', hr⟩⟩ := h
  · rw [Step.andThen_of_error hf, Step.andThen_of_error hf']
    exact ⟨same, .inl ⟨f, rfl, rfl⟩⟩
  · rw [Step.andThen_of_ok ha, Step.andThen_of_ok ha']
    exact hn a a' hr

theorem Step.Agree.map {α β : Type} {R : α → α → Prop} {S : β → β → Prop} {s s' : Step α}
    (h : s.Agree R s') {g g' : α → β} (hg : ∀ a a', R a a' → S (g a) (g' a')) :
    (s.map g).Agree S (s'.map g') := by
  obtain ⟨same, ⟨f, hf, hf'⟩ | ⟨a, a', ha, ha', hr⟩⟩ := h
  · exact ⟨same, .inl ⟨f, by simp [Step.map, hf, Except.map], by simp [Step.map, hf', Except.map]⟩⟩
  · exact ⟨same, .inr ⟨g a, g' a', by simp [Step.map, ha, Except.map],
      by simp [Step.map, ha', Except.map], hg a a' hr⟩⟩

theorem pagesAfter_of_near {pages : List Page} {rs rs' : List (Except Fault Rendered)}
    (h : List.Forall₂ (Near Fault.Alike exact) rs rs') : pagesAfter pages rs' = pagesAfter pages rs := by
  induction h generalizing pages with
  | nil => rfl
  | cons first _ ih =>
    cases pages with
    | nil => rfl
    | cons page pages =>
      rcases first with rfl | ⟨-, f, f', rfl, rfl, -⟩
      · rename_i r _ _ _
        cases r <;> simp only [pagesAfter, ih]
      · simp only [pagesAfter, ih]

/-- Lists of results that are near to the same results are near to each other. -/
theorem near_of_alone {α β : Type} {alone : α → Except Fault β} {as : List α}
    {rs rs' : List (Except Fault β)}
    (h : List.Forall₂ (fun a r => Near Fault.Alike exact (alone a) r) as rs)
    (h' : List.Forall₂ (fun a r => Near Fault.Alike exact (alone a) r) as rs') :
    List.Forall₂ (Near Fault.Alike exact) rs rs' := by
  induction h generalizing rs' with
  | nil => cases h'; exact .nil
  | cons first _ ih =>
    cases h' with
    | cons first' rest' => exact .cons (Near.join (fun h => h.symm) (fun h h' => h.trans h') first first') (ih rest')

theorem faultsAgree_of_near {β : Type} {rs rs' : List (Except Fault β)}
    (h : List.Forall₂ (Near Fault.Alike exact) rs rs') : FaultsAgree exact (faultsOf rs) (faultsOf rs') :=
  ⟨faultsOf_of_near h, fun he => by rw [eq_of_near h he]⟩

theorem FaultsAgree.append {fs fs' gs gs' : List Fault} (h : FaultsAgree exact fs fs')
    (h' : FaultsAgree exact gs gs') : FaultsAgree exact (fs ++ gs) (fs' ++ gs') :=
  ⟨List.rel_append h.1 h'.1, fun he => by rw [h.2 he, h'.2 he]⟩

theorem FaultsAgree.refl (fs : List Fault) : FaultsAgree exact fs fs :=
  ⟨List.forall₂_same.2 fun f _ => .refl f, fun _ => rfl⟩

/-- Results that are the same fault, or good ones that are related. -/
def Both {α : Type} (R : α → α → Prop) (r r' : Except Fault α) : Prop :=
  (∃ f, r = .error f ∧ r' = .error f) ∨ ∃ a a', r = .ok a ∧ r' = .ok a' ∧ R a a'

/-- The pages, texts and faults of work on pages agree. -/
def RenderedAll.Agree (exact : Prop) (a a' : RenderedAll) : Prop :=
  a'.pages = a.pages ∧ a'.texts = a.texts ∧ FaultsAgree exact a.faults a'.faults

/-- The copied files and the faults of copying agree. -/
def CopiedAgree (exact : Prop) (a a' : List Path × List Fault) : Prop := a'.1 = a.1 ∧ FaultsAgree exact a.2 a'.2

/-- Work on pages has results that agree if the single results are near. -/
theorem both_renderAllBy {site' : Site} {run run' : Runner Page Rendered} {pages : List Page}
    (near : List.Forall₂ (Near Fault.Alike exact) (run site.renderPage t pages).2.2
      (run' site'.renderPage t' pages).2.2) :
    Both (RenderedAll.Agree exact) (renderAllBy run site t pages).result
      (renderAllBy run' site' t' pages).result := by
  rcases settle_of_near near with ⟨f, hf, hf'⟩ | ⟨ho, ho'⟩
  · exact .inl ⟨f, by simp [renderAllBy, hf, Except.map], by simp [renderAllBy, hf', Except.map]⟩
  · refine .inr ⟨_, _, by simp only [renderAllBy, ho, Except.map]; rfl,
      by simp only [renderAllBy, ho', Except.map]; rfl, pagesAfter_of_near near, ?_, faultsAgree_of_near near⟩
    exact congrArg texts (goods_of_near near)

theorem both_settle {β : Type} {rs rs' : List (Except Fault β)} (near : List.Forall₂ (Near Fault.Alike exact) rs rs') :
    Both (fun a a' => a'.1 = a.1 ∧ FaultsAgree exact a.2 a'.2) (settle rs) (settle rs') := by
  rcases settle_of_near near with ⟨f, hf, hf'⟩ | ⟨ho, ho'⟩
  · exact .inl ⟨f, hf, hf'⟩
  · exact .inr ⟨_, _, ho, ho', goods_of_near near, faultsAgree_of_near near⟩

/-- Work on pages in two ways agrees if the trees are the same and the results near. -/
theorem renderAllBy_agree {run run' : Runner Page Rendered} {pages : List Page}
    (same : Same (run site.renderPage t pages).1 (run' site.renderPage t' pages).1)
    (near : List.Forall₂ (Near Fault.Alike exact) (run site.renderPage t pages).2.2
      (run' site.renderPage t' pages).2.2) :
    (renderAllBy run site t pages).Agree (RenderedAll.Agree exact) (renderAllBy run' site t' pages) :=
  ⟨same, both_renderAllBy near⟩

theorem copyAssetsBy_agree {run run' : Runner Path Path} {sources : List Path}
    (same : Same (run site.copyAsset t sources).1 (run' site.copyAsset t' sources).1)
    (near : List.Forall₂ (Near Fault.Alike exact) (run site.copyAsset t sources).2.2
      (run' site.copyAsset t' sources).2.2) :
    (copyAssetsBy run site t sources).Agree (CopiedAgree exact) (copyAssetsBy run' site t' sources) :=
  ⟨same, both_settle near⟩

/-! ## The conditions -/

/-- The output paths of a build: of the sitemap if it is wanted, of the pages and of the assets. -/
def outputs (site : Site) (t : FileTree) (entries : List String) (pages : List Page) : List Path :=
  (if site.options.sitemap then [site.out.child Sitemap.fileName] else []) ++
    (pages.filterMap fun page => (page.output site.out site.ext).toOption) ++
    (site.assets t entries pages).filterMap fun source => (source.output site.out site.ext).toOption

/-- What a build needs so that its order does not matter: a project in which no output is at, above or below
another one. -/
structure Orderly (site : Site) (t : FileTree) (entries : List String) (pages : List Page) : Prop
    extends Project site t pages where
  templates : ∀ page ∈ pages, page.template.IsRead
  outputs : (site.outputs t entries pages).Pairwise fun o o' => Unnested o.segments o'.segments

section
variable {entries : List String} {pages : List Page}

theorem Orderly.apart_pages (h : Orderly site t entries pages) :
    pages.Pairwise fun a b => (site.pathArea a.logical).Apart (site.pathArea b.logical) := by
  have pairs := (List.pairwise_append.1 (List.pairwise_append.1 h.outputs).1).2.1
  rw [List.pairwise_filterMap] at pairs
  exact pairs.imp_of_mem fun {a b} ha hb hab => pathArea_apart (h.dots a ha) (h.dots b hb)
    fun o o' ho ho' => hab o (toOption_eq_some ho) o' (toOption_eq_some ho')

theorem Orderly.apart_assets (h : Orderly site t entries pages) :
    (site.assets t entries pages).Pairwise fun a b => (site.pathArea a).Apart (site.pathArea b) := by
  have pairs := (List.pairwise_append.1 h.outputs).2.1
  rw [List.pairwise_filterMap] at pairs
  exact pairs.imp_of_mem fun {a b} ha hb hab =>
    pathArea_apart (asset_of_mem ha).2.1 (asset_of_mem hb).2.1 fun o o' ho ho' =>
      hab o (toOption_eq_some ho) o' (toOption_eq_some ho')

theorem Orderly.kept (h : Orderly site t entries pages) : Kept site t t :=
  ⟨h.varied, fun _ hl => hl⟩

theorem Orderly.local_page (h : Orderly site t entries pages) :
    ∀ page ∈ pages, Local (Kept site t) (site.pathArea page.logical) (Near Fault.Alike (Straight site t))
      fun t => (site.renderPage t page).done := fun page hm =>
  local_renderPage ground_kept (fun ht => ht.toVaried) id h.plain
    (h.dots page hm) (h.templates page hm) (h.apart page hm)

theorem Orderly.kept_pagesTree (h : Orderly site t entries pages) : Kept site t (site.pagesTree t pages) :=
  (local_makeSitemap ground_kept pages).keeps h.kept

/-- The sitemap's place is apart from paths with other outputs. -/
theorem apart_sitemap {p : Path} (hd : "." ∉ p.segments)
    (h : ∀ o, p.output site.out site.ext = .ok o → Unnested (site.out.child Sitemap.fileName).segments o.segments) :
    (site.area sitemapBelow).Apart (site.pathArea p) := by
  have sitemapPath : site.out.child Sitemap.fileName = site.out / Path.ofSegments sitemapBelow := by
    simp [Path.child, Path.join_ofSegments, sitemapBelow]
  unfold pathArea
  cases ho : p.output site.out site.ext with
  | error fault => exact (Area.Apart.none _).symm
  | ok o =>
    have unnested := h o ho
    rw [sitemapPath, (Path.output_ok ho).1, Path.segments_div_ofSegments, Path.segments_div_ofSegments,
      unnested_append] at unnested
    exact area_apart unnested (by simp [sitemapBelow]) (Path.belowOut_ne_nil _ _) ⟨by decide, by decide⟩
      (Path.plain_belowOut ho hd)

theorem Orderly.apart_sitemap_page (h : Orderly site t entries pages) (hw : site.options.sitemap = true) :
    ∀ page ∈ pages, (site.area sitemapBelow).Apart (site.pathArea page.logical) := fun page hm =>
  apart_sitemap (h.dots page hm) fun o ho =>
    (List.pairwise_append.1 (List.pairwise_append.1 h.outputs).1).2.2 _ (by simp [hw]) o
      (List.mem_filterMap.2 ⟨page, hm, toOption_eq_some ho⟩)

/-- The sitemap is not seen where pages go. -/
theorem Orderly.sees_pagesTree (h : Orderly site t entries pages) :
    ∀ page ∈ pages, (site.pathArea page.logical).Sees t (site.pagesTree t pages) := by
  intro page hm
  cases hw : site.options.sitemap with
  | false =>
    have still : site.pagesTree t pages = t := by simp [pagesTree, makeSitemap, hw, Step.still]
    rw [still]
    exact .refl _ t
  | true => exact (local_makeSitemap ground_kept pages).sees (h.apart_sitemap_page hw page hm).symm h.kept

theorem local_asset (roots : List String) :
    ∀ source ∈ site.findAssets t' roots,
      Local (Holding site t₀ t' (site.findAssets t' roots)) (site.pathArea source)
        (Near Fault.Alike (Straight site t₀)) fun t => (site.copyAsset t source).done := by
  intro source hm
  obtain ⟨outside, dots, -⟩ := asset_of_mem hm
  refine local_copyAsset (ground_holding fun source hm => ?_) dots outside fun hu hu' => ?_
  · obtain ⟨outside, -, found⟩ := asset_of_mem hm
    exact ⟨outside, found⟩
  · exact .inl ((hu'.reads source hm).trans (hu.reads source hm).symm)

theorem renders_agree (h : Orderly site t entries pages) (σ : Schedule) :
    (renderAllBy inTurn site (site.pagesTree t pages) pages).Agree (RenderedAll.Agree (Straight site t))
      (renderAllBy σ.run site (site.pagesTree t pages) pages) := by
  have kept := h.kept_pagesTree
  have alone := results_inTurn_near h.local_page h.apart_pages h.kept kept h.sees_pagesTree
  have alone' := @results_run_near _ _ _ _ _ _ _ _ _ σ h.local_page h.apart_pages h.kept kept h.sees_pagesTree
  exact renderAllBy_agree (tree_run_same h.local_page h.apart_pages kept kept (.refl _))
    (near_of_alone alone alone')

theorem kept_assetsTree (h : Orderly site t entries pages) : Kept site t (site.assetsTree t pages) := by
  rw [assetsTree, tree_inTurn]
  exact FileTree.keeps_after h.local_page h.kept_pagesTree

/-- Copying agrees if it begins with trees that are the same. -/
theorem copies_agree (h : Orderly site t entries pages) (same : Same (site.assetsTree t pages) t')
    (τ : Schedule) :
    (copyAllBy inTurn site (site.assetsTree t pages) (Path.rootDirs (entries.map Path.ofString))).Agree
      (CopiedAgree (Straight site t))
      (copyAllBy τ.run site t' (Path.rootDirs (entries.map Path.ofString))) := by
  have apart := h.apart_assets
  have kept := kept_assetsTree h
  unfold assets at apart
  unfold copyAllBy
  rw [findAssets_same same]
  generalize site.assetsTree t pages = t₁ at *
  generalize Path.rootDirs (entries.map Path.ofString) = roots at *
  split
  · next fault _ => exact ⟨same, .inl ⟨fault, rfl, rfl⟩⟩
  · have locals := @local_asset site t t₁ roots
    have holding : Holding site t t₁ (site.findAssets t₁ roots) t₁ := ⟨kept, fun _ _ => rfl⟩
    have holding' : Holding site t t₁ (site.findAssets t₁ roots) t' :=
      ⟨kept.same same, fun source _ => FileTree.read_same same _⟩
    have alone := results_inTurn_near locals apart holding holding fun _ _ => .refl _ t₁
    have alone' := @results_run_near _ _ _ _ _ _ _ _ _ τ locals apart holding holding'
      fun _ _ => .of_same _ same
    exact copyAssetsBy_agree (tree_run_same locals apart holding holding' same) (near_of_alone alone alone')

theorem gather_agree (h : Orderly site t entries pages) (σ τ : Schedule) :
    (gatherBy inTurn inTurn site t entries pages).Agree (Result.Agree (Straight site t))
      (gatherBy σ.run τ.run site t entries pages) := by
  have start : (site.makeSitemap t pages).Agree Eq (site.makeSitemap t pages) := by
    refine ⟨.refl _, ?_⟩
    cases hr : (site.makeSitemap t pages).result with
    | error f => exact .inl ⟨f, rfl, rfl⟩
    | ok a => exact .inr ⟨a, a, rfl, rfl, rfl⟩
  refine start.andThen fun a a' hs => ?_
  cases hs
  have renders := renders_agree h σ
  refine renders.andThen fun b b' hb => ?_
  exact (copies_agree h renders.1 τ).map fun c c' hc =>
    ⟨hb.1, rfl, hb.2.1, hc.1, ((FaultsAgree.refl a.2).append hb.2.2).append hc.2⟩

theorem finish_agree {r r' : Result} (same : Same t t') (h : r.Agree exact r') :
    (site.finish t r).Agree (Result.Agree exact) (site.finish t' r') := by
  refine ⟨same, .inr ⟨_, _, rfl, rfl, h.pages, h.sitemap, h.rendered, h.copied, ?_⟩⟩
  have told : HookCall.done r'.sitemap site.out r'.pages = .done r.sitemap site.out r.pages := by
    rw [h.sitemap, h.pages]
  dsimp only
  rw [told]
  exact h.faults.append (.refl _)

end

/-! ### A small build, and one that is not straight -/

/-- A project with two templates and a style sheet. -/
def smallTree : FileTree := ⟨[(["p"], .dir), (["p", "site"], .dir), (["p", "site", "a"], .dir),
  (["p", "site", "a", "x.j2"], .file .empty), (["p", "site", "b"], .dir),
  (["p", "site", "b", "y.j2"], .file .empty), (["p", "site", "c.css"], .file .empty)]⟩

def smallPages : List Page :=
  [{ template := ⟨.relative, ["site", "a", "x.j2"]⟩ }, { template := ⟨.relative, ["site", "b", "y.j2"]⟩ }]

/-- A site of that project. -/
def smallSite (out : Path) (sitemap : Bool) : Site :=
  { Site.ofDir ⟨.slash, ["p"]⟩ ⟨⟨2024, 1, 1⟩, 0, 0, 0, 0, none⟩ with options := { out, sitemap } }

/-- The small site is a project if its output root is apart from the root of the templates. -/
theorem project_small {t : FileTree} {out : Path} {sitemap : Bool}
    (ht : ∀ e ∈ t.entries, t.get? e.1.dropLast = some .dir) (hp : t.get? ["p"] = some .dir)
    (ho : Unnested (smallSite out sitemap).outLocation ["p", "site"]) :
    Project (smallSite out sitemap) t smallPages where
  isTree := FileTree.isTree_of_entries ht
  plain := show Path.Plain ["p"] from ⟨by decide, by decide⟩
  home := hp
  places := by decide
  apart := by
    intro page hm
    simp only [smallPages, List.mem_cons, List.not_mem_nil, or_false] at hm
    rcases hm with rfl | rfl
    · exact ⟨fun _ => ho, fun _ _ h => by cases h⟩
    · exact ⟨fun _ => ho, fun _ _ h => by cases h⟩

/-- A build of it meets the conditions if its outputs are unnested too. -/
theorem orderly_small {t : FileTree} {out : Path} {sitemap : Bool}
    (ht : ∀ e ∈ t.entries, t.get? e.1.dropLast = some .dir) (hp : t.get? ["p"] = some .dir)
    (ho : Unnested (smallSite out sitemap).outLocation ["p", "site"])
    (hu : ((smallSite out sitemap).outputs t ["site/**/*.j2"] smallPages).Pairwise
      fun o o' => Unnested o.segments o'.segments) :
    Orderly (smallSite out sitemap) t ["site/**/*.j2"] smallPages where
  toProject := project_small ht hp ho
  templates := by decide
  outputs := hu

/-- The small project with a file where its output is to go. -/
def blockedTree : FileTree := ⟨smallTree.entries ++ [(["p", "dist"], .file .empty)]⟩

end Site

end StaticSite
