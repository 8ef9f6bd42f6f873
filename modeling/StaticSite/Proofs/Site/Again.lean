import StaticSite.Proofs.Expansion.Again
import StaticSite.Proofs.Glob.Growing
import StaticSite.Proofs.Site.Lasting

/-!
# Building twice

What a build does is lasting work, so a second run on the tree that the first one left follows its trace and comes to
the same end: no file is changed and the results agree (`build_twice`). Files may be in the way, copies may land in
directories and outputs may collide. Only the patterns must not lead through what the first build has made.
-/

namespace StaticSite

open FileTree (Grows Local Onward Retraced Same IsTree trail)

namespace Site

variable {site : Site} {t t' T w : FileTree} {now : Moment} {entries : List String} {pages : List Page}

/-! ## Steps of a second run -/

/-- The step `s'` of a second run is where the step `s` of the first one was, and has the same fault or a related
result; the first run ends with the tree `T`. -/
structure Step.Again {α : Type} (T : FileTree) (R : α → α → Prop) (s s' : Step α) : Prop where
  tree : Retraced T s.tree s'.tree
  result : Both R s.result s'.result

theorem Step.Again.agree {α : Type} {R : α → α → Prop} {s s' : Step α} (h : s.Again s.tree R s') : s.Agree R s' :=
  ⟨h.tree.same, h.result⟩

theorem Step.Again.andThen {α β : Type} {R : α → α → Prop} {S : β → β → Prop} {s s' : Step α}
    {next next' : FileTree → α → Step β} (hs : Grows s.tree T → s.Again T R s')
    (grows : ∀ a, s.result = .ok a → Grows s.tree (next s.tree a).tree)
    (hn : ∀ a a', R a a' → Retraced T s.tree s'.tree → Grows (next s.tree a).tree T →
      (next s.tree a).Again T S (next' s'.tree a')) (hT : Grows (s.andThen next).tree T) :
    (s.andThen next).Again T S (s'.andThen next') := by
  cases hr : s.result with
  | error f =>
    rw [Step.andThen_of_error hr] at hT ⊢
    obtain ⟨tree, result⟩ := hs hT
    rcases result with ⟨g, hg, hg'⟩ | ⟨a, a', ha, -, -⟩
    · obtain rfl : f = g := Except.error.inj (hr.symm.trans hg)
      rw [Step.andThen_of_error hg']
      exact ⟨tree, .inl ⟨f, rfl, rfl⟩⟩
    · rw [hr] at ha; cases ha
  | ok a =>
    rw [Step.andThen_of_ok hr] at hT ⊢
    obtain ⟨tree, result⟩ := hs ((grows a hr).trans hT)
    rcases result with ⟨g, hg, -⟩ | ⟨b, a', hb, ha', rel⟩
    · rw [hr] at hg; cases hg
    · obtain rfl : a = b := Except.ok.inj (hr.symm.trans hb)
      rw [Step.andThen_of_ok ha']
      have rest := hn a a' rel tree hT
      exact ⟨rest.tree, rest.result⟩

theorem Step.Again.map {α β : Type} {R : α → α → Prop} {S : β → β → Prop} {s s' : Step α} (h : s.Again T R s')
    {g g' : α → β} (hg : ∀ a a', R a a' → S (g a) (g' a')) : (s.map g).Again T S (s'.map g') := by
  refine ⟨h.tree, ?_⟩
  rcases h.result with ⟨f, hf, hf'⟩ | ⟨a, a', ha, ha', hr⟩
  · exact .inl ⟨f, by simp [Step.map, hf, Except.map], by simp [Step.map, hf', Except.map]⟩
  · exact .inr ⟨g a, g' a', by simp [Step.map, ha, Except.map], by simp [Step.map, ha', Except.map], hg a a' hr⟩

/-- What holds of the tree of a step and of all trees that the next step may leave holds at the end of both. -/
theorem Step.tree_andThen {α β : Type} {P : FileTree → Prop} {s : Step α} {next : FileTree → α → Step β}
    (hs : P s.tree) (hn : ∀ a, P (next s.tree a).tree) : P (s.andThen next).tree := by
  cases hr : s.result with
  | error f => rw [Step.andThen_of_error hr]; exact hs
  | ok a => rw [Step.andThen_of_ok hr]; exact hn a

/-! ## The conditions -/

/-- What a build needs so that it can be done again at another moment: a project whose pages do not tell the moment.
The system has no names that are `.` or `..`. -/
structure Repeatable (site : Site) (now : Moment) (t : FileTree) (pages : List Page) : Prop
    extends Project site t pages where
  templates : ∀ page ∈ pages, page.template.IsRead
  plainly : t.Plainly
  timeless : Timeless site now t pages

/-- All that the path leads through, seen from the directory of the site, is there. -/
def Trodden (site : Site) (t : FileTree) (p : Path) : Prop :=
  ∀ l ∈ trail [] (site.dir / p).segments, (t.get? l).isSome

instance (site : Site) (t : FileTree) (p : Path) : Decidable (Trodden site t p) :=
  inferInstanceAs (Decidable (∀ _ ∈ _, _))

/-- No match of an entry pattern in the tree `T`, and no asset there, leads through what was not there in `t`. -/
structure NothingNew (site : Site) (t T : FileTree) (entries : List String) : Prop where
  templates : ∀ pattern ∈ entries, ∀ p ∈ Glob.files T site.dir pattern, Trodden site t p
  assets : ∀ source ∈ site.findAssets T (Path.rootDirs (entries.map Path.ofString)), Trodden site t source

/-! ## Phases of a build -/

theorem Repeatable.kept (h : Repeatable site now t pages) : Kept site t t := ⟨h.varied, fun _ hl => hl⟩

theorem Repeatable.local_page (h : Repeatable site now t pages) :
    ∀ page ∈ pages, Local (Kept site t) (site.pathArea page.logical) (Near Fault.Alike (Straight site t))
      fun u => (site.renderPage u page).done := fun page hm =>
  local_renderPage ground_kept (fun ht => ht.toVaried) id h.plain (h.dots page hm) (h.templates page hm)
    (h.apart page hm)

theorem Repeatable.lasting_pages (h : Repeatable site now t pages) :
    LastingAll (Kept site t) (Kept site t) (fun page => (site.pathArea page.logical).own)
      (Near Fault.Alike (Straight site t)) site.renderPage (site.asOf now).renderPage pages where
  lasting page hm := by
    refine lasting_renderPage ground_kept (fun ht => ht.toVaried) (fun ht => ht.toVaried) h.varied id h.plain
      (h.dots page hm) (h.templates page hm) (h.apart page hm) fun p hp => ?_
    obtain rfl := List.mem_singleton.1 hp
    exact h.timeless p hm
  keeps page hm {u} hu := (h.local_page page hm).keeps hu
  keeps' page hm {u} hu := by
    have ground : Ground (site.asOf now) (Straight site t) (Kept site t) :=
      ⟨ground_kept.isTree, ground_kept.keeps, ground_kept.straight⟩
    have work := @local_renderPage (site.asOf now) (Straight site t) (Kept site t) t ground
      (fun ht => ht.toVaried.asOf now) id h.plain page (h.dots page hm) (h.templates page hm)
      ((h.apart page hm).asOf now)
    exact work.keeps hu

/-- Pages that do not tell the moment are rendered alike at both. -/
theorem Repeatable.inTurn_asOf (h : Repeatable site now t pages) {qs : List Page} (hs : qs ⊆ pages)
    (hw : Kept site t w) :
    (inTurn (site.asOf now).renderPage w qs).1 = (inTurn site.renderPage w qs).1 ∧
      (inTurn (site.asOf now).renderPage w qs).2.2 = (inTurn site.renderPage w qs).2.2 := by
  induction qs generalizing w with
  | nil => exact ⟨rfl, rfl⟩
  | cons page rest ih =>
    have hm : page ∈ pages := hs List.mem_cons_self
    have timeless : Timeless site now t [page] := fun q hq => by
      obtain rfl := List.mem_singleton.1 hq
      exact h.timeless q hm
    have same := renderPage_asOf h.kept.toVaried hw.toVaried h.plain (h.templates page hm) (h.apart page hm) timeless
    have tree : ((site.asOf now).renderPage w page).tree = (site.renderPage w page).tree := congrArg Prod.fst same
    have result : ((site.asOf now).renderPage w page).result = (site.renderPage w page).result :=
      congrArg Prod.snd same
    obtain ⟨trees, results⟩ := ih (fun q hq => hs (List.mem_cons_of_mem _ hq)) ((h.local_page page hm).keeps hw)
    simp only [inTurn, tree, result]
    exact ⟨trees, congrArg _ results⟩

theorem kept_makeSitemap {t₀ : FileTree} (ht : Kept site t₀ t) (pages : List Page) :
    Kept site t₀ (site.makeSitemap t pages).tree :=
  (local_makeSitemap ground_kept pages).keeps ht

theorem onward_makeSitemap {t₀ : FileTree} (ht : Kept site t₀ t) (pages : List Page) :
    Onward t (site.makeSitemap t pages).tree :=
  (@lasting_makeSitemap site (Straight site t₀) _ (Kept site t₀) ground_kept pages).onward ht

theorem makeSitemap_again {t₀ : FileTree} (ht : Kept site t₀ t) (hw : Kept site t₀ w)
    (hT : Grows (site.makeSitemap t pages).tree T) (hr : Retraced T t w) :
    (site.makeSitemap t pages).Again T (SitemapAgree (Straight site t₀)) (site.makeSitemap w pages) :=
  have again := hr.lasting (lasting_makeSitemap ground_kept pages) ht hw hT
  ⟨again.1, again.2⟩

/-- Pages are rendered again with the same texts. -/
theorem renderAll_again (h : Repeatable site now t pages) {u w : FileTree} (hu : Kept site t u) (hw : Kept site t w)
    (hT : Grows (renderAllBy inTurn site u pages).tree T) (hr : Retraced T u w) :
    (renderAllBy inTurn site u pages).Again T (RenderedAll.Agree (Straight site t))
      (renderAllBy inTurn (site.asOf now) w pages) :=
  have again := h.lasting_pages.retraced hu hw hT hr
  ⟨again.1, both_renderAllBy again.2⟩

/-- Trees of one site that have grown from each other differ outside of the output root in directories on the way
to it. -/
theorem Around.of_grows {t₀ : FileTree} (h : Around site t₀ t) (h' : Around site t₀ w) (hg : Grows t w) :
    Around site t w := by
  intro l hl
  rcases h' l hl with he' | ⟨hw, hn, hd'⟩
  · rcases h l hl with he | ⟨-, hn, hd⟩
    · exact .inl (he'.trans he.symm)
    · have dir := hg.dir hd
      rw [he', hn] at dir
      cases dir
  · rcases h l hl with he | ⟨-, -, hd⟩
    · exact .inr ⟨hw, he.trans hn, hd'⟩
    · exact .inl (hd'.trans hd.symm)

theorem mem_findAssets {roots : List String} {source : Path} : source ∈ site.findAssets t roots ↔
    (∃ root ∈ roots, source ∈ Glob.files t site.dir (site.assetPattern root)) ∧ site.isAsset source = true := by
  rw [findAssets, Path.mem_sortDistinct, List.mem_filter, List.mem_flatMap]

/-- The same assets are found again. -/
theorem findAssets_again {u : FileTree} {roots : List String} (hu : Onward t u) (grows : Grows u w)
    (grown : Grows w T) (hT : T.Plainly) (hn : ∀ source ∈ site.findAssets T roots, Trodden site t source) :
    site.findAssets w roots = site.findAssets u roots := by
  have plainly : w.Plainly := fun l hl => hT l (grown.isSome hl)
  refine Path.sortDistinct_congr fun p => ?_
  simp only [List.mem_filter, List.mem_flatMap]
  refine and_congr_left fun isAsset => exists_congr fun root => and_congr_right fun hroot => ?_
  refine ⟨fun hp => ?_, Glob.files_grows grows⟩
  have source : p ∈ site.findAssets T roots := mem_findAssets.2 ⟨⟨root, hroot, Glob.files_grows grown hp⟩, isAsset⟩
  exact Glob.mem_files_of_there grows plainly (fun l hl => hu.grows.isSome (hn p source l hl)) hp

theorem lasting_assets {t₀ u : FileTree} (roots : List String) :
    LastingAll (Holding site t₀ u (site.findAssets u roots)) (Holding site t₀ u (site.findAssets u roots))
      (fun source => (site.pathArea source).own) (Near Fault.Alike (Straight site t₀)) site.copyAsset site.copyAsset
      (site.findAssets u roots) where
  lasting source hm := by
    have reads : ∀ {v v'}, Holding site t₀ u (site.findAssets u roots) v →
        Holding site t₀ u (site.findAssets u roots) v' →
        Near (fun _ _ => True) (Straight site t₀) (v.read (site.dir / source)) (v'.read (site.dir / source)) :=
      fun hv hv' => .inl ((hv'.reads source hm).trans (hv.reads source hm).symm)
    obtain ⟨outside, dots, -⟩ := asset_of_mem hm
    refine lasting_copyAsset (ground_holding fun source hm => ?_) dots outside reads reads
    obtain ⟨outside, -, found⟩ := asset_of_mem hm
    exact ⟨outside, found⟩
  keeps source hm {v} hv := (local_asset roots source hm).keeps hv
  keeps' source hm {v} hv := (local_asset roots source hm).keeps hv

theorem onward_copyAll {t₀ u : FileTree} (hu : Kept site t₀ u) (roots : List String) :
    Onward u (copyAllBy inTurn site u roots).tree := by
  unfold copyAllBy
  split
  · exact .refl u
  · exact (lasting_assets roots).onward ⟨hu, fun _ _ => rfl⟩

theorem kept_copyAll {t₀ u : FileTree} (hu : Kept site t₀ u) (roots : List String) :
    Kept site t₀ (copyAllBy inTurn site u roots).tree := by
  unfold copyAllBy
  split
  · exact hu
  · have holding : Holding site t₀ u (site.findAssets u roots) u := ⟨hu, fun _ _ => rfl⟩
    exact ((lasting_assets roots).kept holding holding).1.toKept

/-- The assets are copied again. -/
theorem copyAll_again {t₀ u : FileTree} {roots : List String} (hu : Kept site t₀ u) (hw : Kept site t₀ w)
    (found : site.findAssets w roots = site.findAssets u roots)
    (hT : Grows (copyAllBy inTurn site u roots).tree T) (hr : Retraced T u w) :
    (copyAllBy inTurn site u roots).Again T (CopiedAgree (Straight site t₀)) (copyAllBy inTurn site w roots) := by
  have grows : Grows u w := ((onward_copyAll hu roots).grows.trans hT).trans hr.grows
  unfold copyAllBy at hT ⊢
  rw [found]
  split
  · next fault _ => exact ⟨hr, .inl ⟨fault, rfl, rfl⟩⟩
  · next searched =>
    rw [searched] at hT
    have around := Around.of_grows hu.around hw.around grows
    have reads : ∀ source ∈ site.findAssets u roots, w.read (site.dir / source) = u.read (site.dir / source) :=
      fun source hm => by
        obtain ⟨outside, -, content, hc⟩ := asset_of_mem hm
        rw [hc]
        exact read_kept (fun l hl => grows.dir hl) around (outside_of_not_output outside) hc
    have again := (@lasting_assets site t₀ u roots).retraced ⟨hu, fun _ _ => rfl⟩ ⟨hw, reads⟩ hT hr
    exact ⟨again.1, both_settle again.2⟩

/-! ## The whole build -/

/-- What a build does after the sitemap was made. -/
def gatherRest (site : Site) (entries : List String) (pages : List Page) (t : FileTree)
    (made : List String × List Fault) : Step Result :=
  (renderAllBy inTurn site t pages).andThen fun t all =>
    (copyAllBy inTurn site t (Path.rootDirs (entries.map Path.ofString))).map fun copied =>
      { pages := all.pages, sitemap := made.1, rendered := all.texts, copied := copied.1,
        faults := made.2 ++ all.faults ++ copied.2 }

theorem gather_eq (site : Site) (t : FileTree) (entries : List String) (pages : List Page) :
    gatherBy inTurn inTurn site t entries pages =
      (site.makeSitemap t pages).andThen (gatherRest site entries pages) := rfl

/-- The tree after the rest of a build. -/
theorem rest_tree (h : Repeatable site now t pages) {u : FileTree} (hu : Kept site t u) (entries : List String)
    (made : List String × List Fault) : Kept site t (gatherRest site entries pages u made).tree ∧
      Onward u (gatherRest site entries pages u made).tree := by
  have kept := (h.lasting_pages.kept hu hu).1
  have onward := h.lasting_pages.onward hu
  refine Step.tree_andThen (P := fun v => Kept site t v ∧ Onward u v) ⟨kept, onward⟩ fun _ => ?_
  exact ⟨kept_copyAll kept _, onward.trans (onward_copyAll kept _)⟩

theorem gather_tree (h : Repeatable site now t pages) (entries : List String) :
    Kept site t (gatherBy inTurn inTurn site t entries pages).tree ∧
      Onward t (gatherBy inTurn inTurn site t entries pages).tree := by
  have kept := kept_makeSitemap h.kept pages
  have onward := onward_makeSitemap h.kept pages
  refine Step.tree_andThen (P := fun u => Kept site t u ∧ Onward t u) ⟨kept, onward⟩ fun made => ?_
  exact (rest_tree h kept entries made).imp_right onward.trans

theorem rest_again (h : Repeatable site now t pages) (hp : T.Plainly) (hn : NothingNew site t T entries)
    {u w : FileTree} (hu : Kept site t u) (hw : Kept site t w) (onward : Onward t u)
    {made made' : List String × List Fault} (hm : SitemapAgree (Straight site t) made made')
    (hT : Grows (gatherRest site entries pages u made).tree T) (hr : Retraced T u w) :
    (gatherRest site entries pages u made).Again T (Result.Agree (Straight site t))
      (gatherRest (site.asOf now) entries pages w made') := by
  obtain ⟨kept, kept'⟩ := h.lasting_pages.kept hu hw
  have onward := onward.trans (h.lasting_pages.onward hu)
  refine Step.Again.andThen (fun hT => renderAll_again h hu hw hT hr) (fun all _ => (onward_copyAll kept _).grows)
    (fun all all' ha hr hT => ?_) hT
  have grown := (onward_copyAll kept (Path.rootDirs (entries.map Path.ofString))).grows.trans hT
  have found := findAssets_again onward (grown.trans hr.grows) hr.grown hp hn.assets
  exact (copyAll_again kept kept' found hT hr).map fun copied copied' hc =>
    ⟨ha.1, hm.1, ha.2.1, hc.1, (hm.2.append ha.2.2).append hc.2⟩

theorem gather_again (h : Repeatable site now t pages)
    (hT : Grows (gatherBy inTurn inTurn site t entries pages).tree T) (hk : Kept site t T) (hp : T.Plainly)
    (hn : NothingNew site t T entries) :
    (gatherBy inTurn inTurn site t entries pages).Again T (Result.Agree (Straight site t))
      (gatherBy inTurn inTurn (site.asOf now) T entries pages) := by
  have kept := kept_makeSitemap h.kept pages
  have kept' : Kept site t ((site.asOf now).makeSitemap T pages).tree := kept_makeSitemap hk pages
  have onward := onward_makeSitemap h.kept pages
  rw [gather_eq, gather_eq]
  exact Step.Again.andThen (fun hT => makeSitemap_again h.kept hk hT (.start T t))
    (fun made _ => (rest_tree h kept entries made).2.grows)
    (fun made made' hm hr hT => rest_again h hp hn kept kept' onward hm hT hr) hT

theorem tree_build (site : Site) (t : FileTree) (entries : List String) (pages : List Page) :
    (site.build t entries pages).tree = (gatherBy inTurn inTurn site t entries pages).tree :=
  Step.tree_andThen (P := (· = (gatherBy inTurn inTurn site t entries pages).tree)) rfl fun _ => rfl

theorem build_again (h : Repeatable site now t pages)
    (hn : NothingNew site t (site.build t entries pages).tree entries) :
    (site.build t entries pages).Agree (Result.Agree (Straight site t))
      ((site.asOf now).build (site.build t entries pages).tree entries pages) := by
  rw [tree_build] at hn ⊢
  obtain ⟨kept, onward⟩ := gather_tree h entries
  have again := (gather_again h (.refl _) kept (onward.plainly h.plainly) hn).agree
  exact again.andThen fun _ _ hr => finish_agree again.1 hr

/-! ## Planning and building -/

/-- A project with what its entry patterns plan: the output root is apart from the templates that they match and the
data of these, and the texts of the pages do not tell the moment. Names in the tree are such as the system has. -/
structure Planned (site : Site) (now : Moment) (t : FileTree) (entries : List String) (x : Expansion) : Prop where
  isTree : IsTree t
  named : t.Named
  plain : Path.Plain site.dir.segments
  home : t.get? site.dir.segments = some .dir
  expanded : expandEntries t site.bindings site.ext entries = .ok x
  apart : ∀ pattern ∈ entries, ∀ p ∈ Glob.files t site.dir pattern, ∀ template,
    matchTemplate site.dir site.ext p = .ok (some template) → IsApart site template
  timeless : Timeless site now t x.pages

variable {x : Expansion}

theorem Planned.repeatable (h : Planned site now t entries x) : Repeatable site now t x.pages where
  isTree := h.isTree
  plain := h.plain
  home := h.home
  places page hm := (planned_of_expandEntries h.named h.expanded hm).1.logical.2.2.1
  apart page hm := by
    obtain ⟨-, pattern, hpattern, p, hp, isMatch⟩ := matched_of_page h.expanded hm
    exact h.apart pattern hpattern p hp page.template isMatch
  templates page hm := (planned_of_expandEntries h.named h.expanded hm).1.read
  plainly _ hl := h.named.plain hl
  timeless := h.timeless

/-- Templates without data are apart from the output root if their directories are. -/
theorem apart_of_unbound (hb : site.bindings.table = [])
    (h : ∀ pattern ∈ entries, ∀ p ∈ Glob.files t site.dir pattern,
      ∀ template ∈ (matchTemplate site.dir site.ext p).toOption.join,
        Unnested site.outLocation (Path.collapse (site.searchDir template).segments)) :
    ∀ pattern ∈ entries, ∀ p ∈ Glob.files t site.dir pattern, ∀ template,
      matchTemplate site.dir site.ext p = .ok (some template) → IsApart site template := by
  intro pattern hpattern p hp template isMatch
  refine ⟨fun _ => h pattern hpattern p hp template ?_, fun _ _ found => ?_⟩
  · rw [toOption_eq_some isMatch]; rfl
  · rw [Bindings.find, hb] at found; cases found

/-- Two templates, and an asset that goes where the page of the first one goes. -/
def pairTree : FileTree := ⟨[(["p"], .dir), (["p", "site"], .dir), (["p", "site", "a.j2"], .file .empty),
  (["p", "site", "b.j2"], .file .empty), (["p", "site", "a.html"], .file ⟨#[104, 105]⟩)]⟩

/-- The output of this site goes to a directory in a directory that is not there. -/
def pairSite (copyPattern : String) : Site :=
  { Site.ofDir ⟨.slash, ["p"]⟩ ⟨⟨2024, 1, 1⟩, 0, 0, 0, 0, none⟩ with
    options := { out := Path.ofString "a/dist", copyPattern } }

def pairPages (names : List String) : List Page :=
  names.map fun name => { template := ⟨.relative, ["site", name]⟩ }

def newYear : Moment := ⟨⟨2025, 1, 1⟩, 0, 0, 0, 0, none⟩

/-- Pages are planned as the templates are found. -/
theorem expand_pair {t : FileTree} {names : List String}
    (whole : ∀ page ∈ pairPages names, page.template.isPartial = false)
    (found : distinct ((untilFault (matchesOf t ⟨.slash, ["p"]⟩ ".j2" entries)).1.filterMap id) =
      (pairPages names).map Page.template)
    (good : (untilFault (matchesOf t ⟨.slash, ["p"]⟩ ".j2" entries)).2 = none) :
    expandEntries t ⟨⟨.slash, ["p"]⟩, []⟩ ".j2" entries = .ok { pages := pairPages names } := by
  have expanded := expandEntries_of_whole (b := ⟨⟨.slash, ["p"]⟩, []⟩) _ found good fun template hm => by
    obtain ⟨page, hp, rfl⟩ := List.mem_map.1 hm
    exact whole page hp
  have same : ((pairPages names).map Page.template).map (fun template => ({ template } : Page)) = pairPages names := by
    simp [pairPages]
  rwa [same] at expanded

theorem planned_pair {copyPattern : String} {names : List String}
    (found : expandEntries pairTree ⟨⟨.slash, ["p"]⟩, []⟩ ".j2" entries = .ok { pages := pairPages names })
    (apart : ∀ pattern ∈ entries, ∀ p ∈ Glob.files pairTree ⟨.slash, ["p"]⟩ pattern,
      ∀ template ∈ (matchTemplate ⟨.slash, ["p"]⟩ ".j2" p).toOption.join,
        Unnested ["p", "a", "dist"] (Path.collapse ((pairSite copyPattern).searchDir template).segments))
    (timeless : Timeless (pairSite copyPattern) newYear pairTree (pairPages names)) :
    Planned (pairSite copyPattern) newYear pairTree entries { pages := pairPages names } where
  isTree := FileTree.isTree_of_entries (by decide)
  named := FileTree.named_of_entries (by decide +kernel)
  plain := show Path.Plain ["p"] from ⟨by decide, by decide⟩
  home := show pairTree.get? ["p"] = some .dir from rfl
  expanded := found
  apart := apart_of_unbound rfl apart
  timeless := timeless

/-- A pattern for a template, and one that leads through a directory whose name begins with an `a`. -/
def crossedEntries : List String := ["site/a.j2", "/p/a*/../site/b.j2"]

end Site

end StaticSite
