import StaticSite.Expansion.Entries
import StaticSite.Proofs.Expansion.Places
import StaticSite.Proofs.Path.Ascent
import StaticSite.Proofs.Site.Again
import StaticSite.Proofs.Site.Confined
import StaticSite.Watch.Update

/-!
# Any process

The directory of the process is read for one thing only, the way from a page back to the output root
(`PUBLIC_PATH`), and there it cancels: the way is `../` once for each directory between them, whatever the
output root is (`Path.publicPrefix_output`). So expanding entries, building and handling an event do the same in
every process (`runProject_any_process`), at another moment too if no page tells the moment.
-/

namespace StaticSite

namespace Site

/-- The site in another process: in the directory `dir` and at the moment `now`. -/
def inProcess (site : Site) (dir : Path) (now : Moment) : Site := { site with processDir := dir, now }

/-- The trees that come about when the sitemap is written and pages are rendered, in any order. -/
inductive Comes (site : Site) (pages : List Page) (t : FileTree) : FileTree → Prop
  | start : Comes site pages t t
  | sitemap {u : FileTree} : Comes site pages t u → Comes site pages t (site.makeSitemap u pages).tree
  | page {u : FileTree} {page : Page} :
      Comes site pages t u → page ∈ pages → Comes site pages t (site.renderPage u page).tree

/-- The pages do not tell the moment, whatever pages were rendered before them. -/
def Undated (site : Site) (now : Moment) (t : FileTree) (pages : List Page) : Prop :=
  ∀ u, Comes site pages t u → ∀ page ∈ pages, ∀ output, page.output site.out site.ext = .ok output →
    (site.asOf now).pageText u page output = site.pageText u page output

variable {site : Site} {dir : Path} {now : Moment} {t u : FileTree} {pages : List Page}

theorem undated_now : Undated site site.now t pages := fun _ _ _ _ _ _ => rfl

/-- Pages that do not tell the moment at first do not tell it later, if what they are made of is apart from the
output. -/
theorem Repeatable.undated (h : Repeatable site now t pages) (hooks : site.options.hooks.beforeSave = none) :
    Undated site now t pages := by
  have kept : ∀ u, Comes site pages t u → Kept site t u := fun u hu => by
    induction hu with
    | start => exact h.kept
    | sitemap _ ih => exact (local_makeSitemap ground_kept pages).keeps ih
    | page _ hm ih => exact (h.local_page _ hm).keeps ih
  have silent : ∀ n u page output, ((site.asOf n).pageText u page output).1 = [] := fun n u page output => by
    have none : (site.asOf n).options.hooks.beforeSave = none := hooks
    unfold pageText hookedText
    cases (site.asOf n).context u page (Path.publicPrefix (site.asOf n).processDir output (site.asOf n).out) with
    | error fault => rfl
    | ok data =>
      dsimp only
      cases (site.asOf n).templateText u page.template data with
      | error fault => rfl
      | ok html => simp only [none]
  intro u hu page hm output ho
  have text := pageText_asOf h.varied (kept u hu).toVaried h.plain (h.templates page hm) (h.apart page hm)
    (h.timeless page hm output (toOption_eq_some ho))
  exact Prod.ext ((silent now u page output).trans (silent site.now u page output).symm) text

/-! ## Pages -/

/-- The text of a page is the same in every process. -/
theorem pageText_inProcess {page : Page} (hl : "." ∉ page.logical.segments) {output : Path}
    (ho : page.output site.out site.ext = .ok output) (dir : Path) (now : Moment) (t : FileTree) :
    (site.inProcess dir now).pageText t page output = (site.asOf now).pageText t page output := by
  have lead : Path.publicPrefix (site.inProcess dir now).processDir output (site.inProcess dir now).out =
      Path.publicPrefix (site.asOf now).processDir output (site.asOf now).out :=
    (Path.publicPrefix_output ho hl dir).trans (Path.publicPrefix_output ho hl site.processDir).symm
  unfold pageText
  rw [lead]
  rfl

theorem renderPage_inProcess {page : Page} (hl : "." ∉ page.logical.segments)
    (hn : ∀ output, page.output site.out site.ext = .ok output →
      (site.asOf now).pageText t page output = site.pageText t page output) (dir : Path) :
    (site.inProcess dir now).renderPage t page = site.renderPage t page := by
  have out : page.output (site.inProcess dir now).out (site.inProcess dir now).ext =
      page.output site.out site.ext := rfl
  have attached : (site.inProcess dir now).attached? t page = site.attached? t page := rfl
  unfold renderPage
  rw [out, attached]
  cases ho : page.output site.out site.ext with
  | error fault => rfl
  | ok output =>
    dsimp only
    rw [pageText_inProcess hl ho, hn output ho]
    rfl

/-- Wherever rendering has come to, the next page is rendered alike. -/
theorem Undated.renderPage (hn : Undated site now t pages) (hd : Dotless pages) (dir : Path)
    (hu : Comes site pages t u) {page : Page} (hm : page ∈ pages) :
    (site.inProcess dir now).renderPage u page = site.renderPage u page :=
  renderPage_inProcess (hd page hm) (fun output ho => hn u hu page hm output ho) dir

/-! ## Runs -/

section
variable {α β : Type} {K : FileTree → Prop} {step step' : FileTree → α → Step β} {as : List α}

/-- Steps that are the same wherever they are taken are the same run. -/
theorem inTurn_eq (ht : K t) (same : ∀ u, K u → ∀ a ∈ as, step' u a = step u a ∧ K (step u a).tree) :
    inTurn step' t as = inTurn step t as := by
  induction as generalizing t with
  | nil => rfl
  | cons a as ih =>
    obtain ⟨here, kept⟩ := same t ht a List.mem_cons_self
    have rest := ih kept fun u hu b hb => same u hu b (List.mem_cons_of_mem a hb)
    rw [inTurn, inTurn, here, rest]

theorem Schedule.run_eq (σ : Schedule) (ht : K t)
    (same : ∀ u, K u → ∀ a ∈ as, step' u a = step u a ∧ K (step u a).tree) :
    σ.run step' t as = σ.run step t as := by
  have items : inTurn (fun t item => step' t item.2) t (picked (σ.order as.length) as) =
      inTurn (fun t item => step t item.2) t (picked (σ.order as.length) as) :=
    inTurn_eq ht fun u hu item hm => same u hu item.2 (List.mem_of_getElem? (mem_picked.1 hm).2)
  unfold run
  dsimp only
  rw [items]

end

/-- A build is the same in every process. -/
theorem Undated.buildIn (hn : Undated site now t pages) (hd : Dotless pages) (dir : Path) (σ τ : Schedule)
    (entries : List String) :
    buildIn σ τ (site.inProcess dir now) t entries pages = buildIn σ τ site t entries pages := by
  have sitemap : (site.inProcess dir now).makeSitemap t pages = site.makeSitemap t pages := rfl
  have rendered : renderAllBy σ.run (site.inProcess dir now) (site.makeSitemap t pages).tree pages =
      renderAllBy σ.run site (site.makeSitemap t pages).tree pages := by
    have run : σ.run (site.inProcess dir now).renderPage (site.makeSitemap t pages).tree pages =
        σ.run site.renderPage (site.makeSitemap t pages).tree pages :=
      σ.run_eq (K := Comes site pages t) (.sitemap .start) fun u hu page hm =>
        ⟨hn.renderPage hd dir hu hm, .page hu hm⟩
    unfold renderAllBy
    rw [run]
  have gathered : gatherBy σ.run τ.run (site.inProcess dir now) t entries pages =
      gatherBy σ.run τ.run site t entries pages := by
    unfold gatherBy
    rw [sitemap]
    cases hm : (site.makeSitemap t pages).result with
    | error fault => rw [Step.andThen_of_error hm, Step.andThen_of_error hm]
    | ok made =>
      rw [Step.andThen_of_ok hm, Step.andThen_of_ok hm, rendered]
      rfl
  unfold Site.buildIn buildBy
  rw [gathered]
  rfl

/-! ## Events -/

theorem Undated.renderTemplate (hn : Undated site now t pages) (hd : Dotless pages) (dir template : Path)
    (hu : Comes site pages t u) {qs : List Page} (hs : qs ⊆ pages) :
    (site.inProcess dir now).renderTemplate template u qs = site.renderTemplate template u qs := by
  induction qs generalizing u with
  | nil => rfl
  | cons page qs ih =>
    have hm := hs List.mem_cons_self
    have rest := fun {u} (hu : Comes site pages t u) => ih hu fun q hq => hs (List.mem_cons_of_mem page hq)
    unfold Site.renderTemplate
    rw [hn.renderPage hd dir hu hm, rest hu]
    dsimp only
    rw [rest (.page hu hm)]

/-- An event is handled alike in every process. -/
theorem Undated.update (hn : Undated site now t pages) (hd : Dotless pages) (dir p : Path) (e : Watch.Event) :
    (site.inProcess dir now).update t pages p e = site.update t pages p e := by
  have templates := hn.renderTemplate hd dir p .start (List.Subset.refl pages)
  unfold Site.update
  rw [templates]
  rfl

/-! ## The whole -/

theorem dotless_of_expandEntries {b : Bindings} {ext : String} {patterns : List String} {x : Expansion}
    (h : expandEntries t b ext patterns = .ok x) : Dotless x.pages := fun _ hm => (dot_notMem_of_page h hm).2

/-- Reads the binding table, expands the entries and builds their pages, in a process in the directory `process`. -/
def runProject (options : Options) (cwd : Path) (entries : List String) (renders copies : Schedule) (t : FileTree)
    (process : Path) (now : Moment) : Except (Binding.Fault ⊕ EntryFault) (Expansion × Step Result) := do
  let bindings ← (Bindings.ofRecord cwd options.data).mapError .inl
  let x ← (expandEntries t bindings options.templateExt entries).mapError .inr
  return (x, buildIn renders copies ⟨options, bindings, process, now⟩ t entries x.pages)

/-- A project comes to the same in any two processes: the same pages, results and reports, and the same files. So
does every event that is handled, whatever the pages are by then. -/
theorem runProject_any_process {options : Options} {cwd process process' : Path} {entries : List String}
    {now' : Moment}
    (hn : ∀ bindings x, Bindings.ofRecord cwd options.data = .ok bindings →
      expandEntries t bindings options.templateExt entries = .ok x →
        Undated ⟨options, bindings, process, now⟩ now' t x.pages)
    (σ τ : Schedule) :
    runProject options cwd entries σ τ t process' now' = runProject options cwd entries σ τ t process now ∧
      ∀ bindings u pages, Dotless pages → Undated ⟨options, bindings, process, now⟩ now' u pages →
        buildIn σ τ ⟨options, bindings, process', now'⟩ u entries pages =
            buildIn σ τ ⟨options, bindings, process, now⟩ u entries pages ∧
          ∀ p e, update ⟨options, bindings, process', now'⟩ u pages p e =
            update ⟨options, bindings, process, now⟩ u pages p e := by
  have other : ∀ bindings, (⟨options, bindings, process', now'⟩ : Site) =
      inProcess ⟨options, bindings, process, now⟩ process' now' := fun _ => rfl
  refine ⟨?_, fun bindings u pages hd undated => ?_⟩
  · unfold runProject
    cases hb : Bindings.ofRecord cwd options.data with
    | error fault => simp only [bind, Except.bind, Except.mapError]
    | ok bindings =>
      simp only [bind, Except.bind, Except.mapError]
      cases hx : expandEntries t bindings options.templateExt entries with
      | error fault => simp only
      | ok x =>
        have built := (hn bindings x hb hx).buildIn (dotless_of_expandEntries hx) process' σ τ entries
        simp only [other, built]
  · rw [other]
    exact ⟨undated.buildIn hd process' σ τ entries, undated.update hd process'⟩

/-- A page that prints the way back to the output root. -/
def climbingTree : FileTree := ⟨[(["p"], .dir), (["p", "site"], .dir), (["p", "site", "blog"], .dir),
  (["p", "site", "blog", "a.j2"], .file "\x7b\x7b PUBLIC_PATH \x7d\x7d".toUTF8)]⟩

def climbingPages : List Page := [{ template := ⟨.relative, ["site", "blog", "a.j2"]⟩ }]

/-- Its output directory leads up further than there are directories. -/
def climbingOptions : Options := { out := Path.ofString "../../../x" }

/-- A site of it. -/
def climbingSite : Site :=
  ⟨climbingOptions, ⟨⟨.slash, ["p"]⟩, []⟩, ⟨.slash, ["w", "v"]⟩, ⟨⟨2024, 1, 1⟩, 0, 0, 0, 0, none⟩⟩

/-- The page is one directory away from the output root, for processes of any depth and at any time. -/
theorem runProject_any_process_climbing :
    let run := runProject climbingOptions ⟨.slash, ["p"]⟩ ["site/**/*.j2"] .forward .forward climbingTree
    Undated climbingSite newYear climbingTree climbingPages ∧
      run ⟨.slash, []⟩ newYear = run climbingSite.processDir climbingSite.now ∧
      ∀ e, ({ climbingSite with processDir := ⟨.slash, []⟩, now := newYear } : Site).update climbingTree climbingPages
        ⟨.relative, ["site", "blog", "a.j2"]⟩ e =
          climbingSite.update climbingTree climbingPages ⟨.relative, ["site", "blog", "a.j2"]⟩ e := by
  have named : climbingTree.Named := FileTree.named_of_entries (by decide +kernel)
  have found : expandEntries climbingTree climbingSite.bindings ".j2" ["site/**/*.j2"] =
      .ok { pages := climbingPages } :=
    expandEntries_of_whole (climbingPages.map Page.template) (by decide +kernel) (by decide +kernel)
      (by decide)
  have planned : Planned climbingSite newYear climbingTree ["site/**/*.j2"] { pages := climbingPages } :=
    { isTree := FileTree.isTree_of_entries (by decide)
      named
      plain := show Path.Plain ["p"] from ⟨by decide, by decide⟩
      home := show climbingTree.get? ["p"] = some .dir from rfl
      expanded := found
      apart := apart_of_unbound rfl (by decide +kernel)
      timeless := by decide +kernel }
  have undated := planned.repeatable.undated rfl
  have same := @runProject_any_process climbingSite.now climbingTree climbingOptions ⟨.slash, ["p"]⟩
    climbingSite.processDir ⟨.slash, []⟩ ["site/**/*.j2"] newYear
    (fun bindings x hb hx => by cases hb; cases hx.symm.trans found; exact undated) .forward .forward
  have dotless : Dotless climbingPages := by unfold Dotless; decide
  exact ⟨undated, same.1, (same.2 climbingSite.bindings climbingTree climbingPages dotless undated).2 _⟩

end Site

end StaticSite
