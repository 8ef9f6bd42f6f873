import StaticSite.Expansion.Entries
import StaticSite.Proofs.Failing
import StaticSite.Proofs.Site.Draft
import StaticSite.Site.Build

/-!
# Which builds come to an end

A fault that is local ends the work on one page or file, any other ends the build. `build_finishes_iff` says
exactly which builds have a result, what is in it, and that the hook is told at the end of those builds and of
no others. What halts the work on a page, a file or the sitemap is said by `PageHalts`, `AssetHalts` and
`SitemapHalts`.
-/

namespace StaticSite.Site

variable {α β : Type}

/-! ## Results -/

/-- The good ones among results. -/
def goods (results : List (Except Fault β)) : List β := results.filterMap Except.toOption

def fault? : Except Fault β → Option Fault
  | .ok _ => none
  | .error fault => some fault

/-- The faults among results. -/
def faultsOf (results : List (Except Fault β)) : List Fault := results.filterMap fault?

/-- The result is a fault that ends more than the work on one page or file. -/
def Halted (result : Except Fault β) : Prop := ∃ fault, result = .error fault ∧ fault.isLocal = false

@[simp] theorem not_halted_ok (b : β) : ¬ Halted (.ok b) := by
  rintro ⟨fault, hf, -⟩; cases hf

@[simp] theorem halted_error {fault : Fault} :
    Halted (.error fault : Except Fault β) ↔ fault.isLocal = false := by
  simp [Halted]

theorem settle_of_not_halted {results : List (Except Fault β)} (h : ∀ r ∈ results, ¬ Halted r) :
    settle results = .ok (goods results, faultsOf results) ∧ localFaults results = faultsOf results := by
  induction results with
  | nil => exact ⟨rfl, rfl⟩
  | cons r results ih =>
    obtain ⟨settled, locals⟩ := ih fun r hr => h r (List.mem_cons_of_mem _ hr)
    cases r with
    | ok b => rw [settle, localFaults, settled, locals]; exact ⟨rfl, rfl⟩
    | error fault =>
      have isLocal : fault.isLocal = true := by simpa using h _ List.mem_cons_self
      rw [settle, localFaults, if_pos isLocal, if_pos isLocal, settled, locals]; exact ⟨rfl, rfl⟩

theorem halted_settle {results : List (Except Fault β)} (h : ∃ r ∈ results, Halted r) :
    Halted (settle results) := by
  induction results with
  | nil => obtain ⟨r, hr, -⟩ := h; cases hr
  | cons r results ih =>
    have later : ¬ Halted r → Halted (settle results) := fun hn => by
      obtain ⟨q, hq, hh⟩ := h
      rcases List.mem_cons.1 hq with rfl | hq
      · exact absurd hh hn
      · exact ih ⟨q, hq, hh⟩
    cases r with
    | ok b =>
      obtain ⟨fault, hf, hl⟩ := later (not_halted_ok b)
      exact ⟨fault, by rw [settle, hf]; rfl, hl⟩
    | error fault =>
      cases isLocal : fault.isLocal with
      | false => simp [settle, isLocal]
      | true =>
        obtain ⟨f, hf, hl⟩ := later (by simp [isLocal])
        exact ⟨f, by rw [settle, if_pos isLocal, hf]; rfl, hl⟩

theorem halted_settle_iff {results : List (Except Fault β)} :
    Halted (settle results) ↔ ∃ r ∈ results, Halted r := by
  refine ⟨fun h => ?_, halted_settle⟩
  refine Classical.byContradiction fun hn => ?_
  have := (settle_of_not_halted fun r hr hh => hn ⟨r, hr, hh⟩).1
  rw [this] at h
  exact not_halted_ok _ h

/-- The items with the trees that their steps find. -/
def met (step : FileTree → α → Step β) : FileTree → List α → List (FileTree × α)
  | _, [] => []
  | t, a :: as => (t, a) :: met step (step t a).tree as

theorem results_inTurn (step : FileTree → α → Step β) (t : FileTree) (as : List α) :
    (inTurn step t as).2.2 = (met step t as).map fun (t, a) => (step t a).result := by
  induction as generalizing t with
  | nil => rfl
  | cons a as ih => simp [inTurn, met, ih]

theorem length_inTurn (step : FileTree → α → Step β) (t : FileTree) (as : List α) :
    (inTurn step t as).2.2.length = as.length := by
  induction as generalizing t with
  | nil => rfl
  | cons a as ih => simp [inTurn, ih]

theorem reports_inTurn (step : FileTree → α → Step β) (t : FileTree) (as : List α) :
    (inTurn step t as).2.1 = (met step t as).flatMap fun (t, a) => (step t a).reports := by
  induction as generalizing t with
  | nil => rfl
  | cons a as ih => simp [inTurn, met, ih]

/-! ## What halts a piece of work -/

/-- A text cannot be written for another reason than the system's: the path is not even taken, or the text
has no bytes. -/
def CannotWrite (t : FileTree) (target : Path) (s : String) : Prop :=
  (pathFault? target.parent).isSome ∨
    (t.makeDirs target.parent).2 = .ok () ∧
      ((pathFault? (draftOf target)).isSome ∨ (Text.unwritable? 0 s.toList).isSome)

theorem isLocal_pathFault {p : Path} {fault : Fault} (h : pathFault? p = some fault) :
    fault.isLocal = false := by
  unfold pathFault? at h
  split at h
  · cases h; rfl
  · split at h <;> cases h; rfl

theorem not_halted_write {p : Path} (r : Except OsFault β) : ¬ Halted (r.mapError (.write p)) := by
  cases r <;> simp [Fault.isLocal]

theorem halted_makeRoom_iff {t : FileTree} {target named : Path} :
    Halted (makeRoom t target named).2 ↔ (pathFault? target.parent).isSome := by
  unfold makeRoom
  split
  · next fault hf => simp [hf, isLocal_pathFault hf]
  · next hf => simp [hf, not_halted_write]

theorem makeRoom_eq_ok_iff {t : FileTree} {target named : Path} :
    (makeRoom t target named).2 = .ok () ↔
      pathFault? target.parent = none ∧ (t.makeDirs target.parent).2 = .ok () := by
  unfold makeRoom
  split
  · next fault hf => simp [hf]
  · next hf => cases hr : (t.makeDirs target.parent).2 <;> simp [hf, hr]

theorem halted_textBytes_iff {target : Path} {s : String} :
    Halted (textBytes target s) ↔
      (pathFault? (draftOf target)).isSome ∨ (Text.unwritable? 0 s.toList).isSome := by
  unfold textBytes Text.encode
  split
  · next fault hf => simp [hf, isLocal_pathFault hf]
  · next hf => cases Text.unwritable? 0 s.toList <;> simp [hf, Fault.isLocal]

theorem halted_writeText_iff {t : FileTree} {target : Path} {s : String} :
    Halted (writeText t target s).2 ↔ CannotWrite t target s := by
  have room := @halted_makeRoom_iff t target target
  have roomy := @makeRoom_eq_ok_iff t target target
  have bytes := @halted_textBytes_iff target s
  rw [writeText_directly]
  unfold CannotWrite
  generalize makeRoom t target target = made at room roomy ⊢
  obtain ⟨t', made⟩ := made
  cases made with
  | error fault =>
    have blocked : pathFault? target.parent = none → (t.makeDirs target.parent).2 ≠ .ok () :=
      fun h1 h2 => by cases roomy.2 ⟨h1, h2⟩
    rw [halted_error] at room
    cases hp : pathFault? target.parent with
    | none => simp [hp, room, blocked hp]
    | some other => simp [hp, room]
  | ok made =>
    obtain ⟨free, done⟩ := roomy.1 rfl
    simp only [free, done, Option.isSome_none, Bool.false_eq_true, false_or, true_and, ← bytes]
    cases hb : textBytes target s with
    | error fault => simp
    | ok bytes => simpa using not_halted_write (t'.putFile target bytes).2

/-- What halts the copying of an asset: it has no output path, or the system does not take the path of the
target or of the source. -/
inductive AssetHalts (site : Site) (t : FileTree) (source : Path) : Prop where
  | unplaced (fault : PlaceFault) (h : source.output site.out site.ext = .error fault)
  | target (output : Path) (placed : source.output site.out site.ext = .ok output)
      (h : (pathFault? (site.dir / output).parent).isSome)
  | source (output : Path) (placed : source.output site.out site.ext = .ok output)
      (made : (t.makeDirs (site.dir / output).parent).2 = .ok ())
      (h : (pathFault? (site.dir / source)).isSome)

theorem halted_copyTo_iff {site : Site} {t : FileTree} {source output : Path} :
    Halted (site.copyTo t source output).2 ↔ (pathFault? (site.dir / output).parent).isSome ∨
      (t.makeDirs (site.dir / output).parent).2 = .ok () ∧ (pathFault? (site.dir / source)).isSome := by
  have room := @halted_makeRoom_iff t (site.dir / output) output
  have roomy := @makeRoom_eq_ok_iff t (site.dir / output) output
  unfold copyTo
  dsimp only
  generalize makeRoom t (site.dir / output) output = made at room roomy ⊢
  obtain ⟨t', made⟩ := made
  cases made with
  | error fault =>
    have blocked : pathFault? (site.dir / output).parent = none →
        (t.makeDirs (site.dir / output).parent).2 ≠ .ok () := fun h1 h2 => by cases roomy.2 ⟨h1, h2⟩
    rw [halted_error] at room
    cases hp : pathFault? (site.dir / output).parent with
    | none => simp [hp, room, blocked hp]
    | some other => simp [hp, room]
  | ok made =>
    obtain ⟨free, done⟩ := roomy.1 rfl
    simp only [free, done, Option.isSome_none, Bool.false_eq_true, false_or, true_and]
    cases hs : pathFault? (site.dir / source) with
    | some fault => simp [isLocal_pathFault hs]
    | none => simpa using not_halted_write (t'.copyFile (site.dir / source) (site.dir / output)).2

theorem halted_copyAsset_iff {site : Site} {t : FileTree} {source : Path} :
    Halted (site.copyAsset t source).result ↔ AssetHalts site t source := by
  unfold copyAsset
  cases placed : source.output site.out site.ext with
  | error fault => simpa [Step.still, Fault.isLocal] using AssetHalts.unplaced fault placed
  | ok output =>
    have copied := @halted_copyTo_iff site t source output
    have halts : AssetHalts site t source ↔ Halted (site.copyTo t source output).2 := by
      rw [copied]
      constructor
      · rintro (⟨fault, h⟩ | ⟨o, h, ht⟩ | ⟨o, h, hm, hs⟩) <;> rw [placed] at h <;> cases h
        · exact .inl ht
        · exact .inr ⟨hm, hs⟩
      · rintro (ht | ⟨hm, hs⟩)
        · exact .target output placed ht
        · exact .source output placed hm hs
    rw [halts]
    dsimp only
    generalize site.copyTo t source output = done
    obtain ⟨t', done⟩ := done
    cases done <;> simp

/-- What halts the work on a page: it has no output path, data cannot be read to their end, or its text
cannot be written. -/
inductive PageHalts (site : Site) (t : FileTree) (page : Page) : Prop where
  | unplaced (fault : PlaceFault) (h : page.output site.out site.ext = .error fault)
  | array (output : Path) (placed : page.output site.out site.ext = .ok output) (fault : Data.Fault)
      (h : site.attached? t page = .error fault) (deep : fault.isOfFile = false)
  | data (output : Path) (placed : page.output site.out site.ext = .ok output)
      (single : site.attached? t page = .ok none) (fault : Data.Fault)
      (h : site.context t page (Path.publicPrefix site.processDir output site.out) = .error fault)
      (deep : fault.isOfFile = false)
  | text (output : Path) (placed : page.output site.out site.ext = .ok output)
      (single : site.attached? t page = .ok none) (html : String)
      (h : (site.pageText t page output).2 = .ok html) (wanted : site.options.noWrite = false)
      (refused : CannotWrite t (site.dir / output) html)

theorem halted_savePage_iff {site : Site} {t : FileTree} {page : Page} {output : Path} {html : String} :
    Halted (site.savePage t page output html).result ↔
      site.options.noWrite = false ∧ CannotWrite t (site.dir / output) html := by
  unfold savePage
  rw [← halted_writeText_iff]
  cases site.options.noWrite with
  | true => simp [Step.still]
  | false =>
    generalize writeText t (site.dir / output) html = written
    obtain ⟨t', written⟩ := written
    cases written <;> simp

theorem halted_hookedText {site : Site} {page : Page} {html : String} :
    ¬ Halted (site.hookedText page html).2 := by
  unfold hookedText callHook
  split
  · simp
  · next hook _ =>
    dsimp only
    split <;> simp [Fault.isLocal]

theorem halted_pageText_iff {site : Site} {t : FileTree} {page : Page} {output : Path} :
    Halted (site.pageText t page output).2 ↔ ∃ fault,
      site.context t page (Path.publicPrefix site.processDir output site.out) = .error fault ∧
        fault.isOfFile = false := by
  unfold pageText
  cases site.context t page (Path.publicPrefix site.processDir output site.out) with
  | error fault => simp [Fault.isLocal]
  | ok data =>
    dsimp only
    cases site.templateText t page.template data with
    | error fault => simp [Fault.isLocal]
    | ok html => simpa using halted_hookedText

theorem halted_renderPage_iff {site : Site} {t : FileTree} {page : Page} :
    Halted (site.renderPage t page).result ↔ PageHalts site t page := by
  unfold renderPage
  cases placed : page.output site.out site.ext with
  | error fault => simpa [Step.still, Fault.isLocal] using PageHalts.unplaced fault placed
  | ok output =>
    have halts : PageHalts site t page ↔
        (∃ fault, site.attached? t page = .error fault ∧ fault.isOfFile = false) ∨
        site.attached? t page = .ok none ∧ (Halted (site.pageText t page output).2 ∨
          ∃ html, (site.pageText t page output).2 = .ok html ∧
            Halted (site.savePage t page output html).result) := by
      rw [halted_pageText_iff]
      simp only [halted_savePage_iff]
      constructor
      · rintro (⟨fault, h⟩ | ⟨o, h, f, ha, hd⟩ | ⟨o, h, hs, f, hc, hd⟩ | ⟨o, h, hs, html, ht, hw, hr⟩) <;>
          rw [placed] at h <;> cases h
        · exact .inl ⟨f, ha, hd⟩
        · exact .inr ⟨hs, .inl ⟨f, hc, hd⟩⟩
        · exact .inr ⟨hs, .inr ⟨html, ht, hw, hr⟩⟩
      · rintro (⟨f, ha, hd⟩ | ⟨hs, ⟨f, hc, hd⟩ | ⟨html, ht, hw, hr⟩⟩)
        · exact .array output placed f ha hd
        · exact .data output placed hs f hc hd
        · exact .text output placed hs html ht hw hr
    rw [halts]
    cases site.attached? t page with
    | error fault => simp [Step.still, Fault.isLocal]
    | ok attached =>
      cases attached with
      | some page => simp [Step.still]
      | none =>
        dsimp only
        generalize site.pageText t page output = text
        obtain ⟨calls, text⟩ := text
        cases text <;> simp [Step.still]

/-! ## What halts a build -/

/-- The sitemap is wanted, and a page has no line in it or its text cannot be written. -/
def SitemapHalts (site : Site) (t : FileTree) (pages : List Page) : Prop :=
  site.options.sitemap = true ∧ ((∃ fault, site.sitemapLines pages = .error fault) ∨
    ∃ lines, site.sitemapLines pages = .ok lines ∧
      CannotWrite t ((site.dir / site.out).child Sitemap.fileName) (Sitemap.text lines))

theorem halted_makeSitemap_iff {site : Site} {t : FileTree} {pages : List Page} :
    Halted (site.makeSitemap t pages).result ↔ SitemapHalts site t pages := by
  unfold makeSitemap SitemapHalts writeSitemap
  simp only [← halted_writeText_iff]
  cases site.options.sitemap with
  | false => simp [Step.still]
  | true =>
    cases site.sitemapLines pages with
    | error fault => simp [Step.still, Fault.isLocal]
    | ok lines =>
      simp only [Bool.not_true, Bool.false_eq_true, if_false, true_and, reduceCtorEq,
        Except.ok.injEq, exists_eq_left']
      generalize writeText t ((site.dir / site.out).child Sitemap.fileName) (Sitemap.text lines) = w
      obtain ⟨t', written⟩ := w
      cases written with
      | ok u => simp
      | error fault => cases hl : fault.isLocal <;> simp [hl]

theorem makeSitemap_ends {site : Site} {t : FileTree} {pages : List Page} :
    Halted (site.makeSitemap t pages).result ∨
      ∃ lines faults, (site.makeSitemap t pages).result = .ok (lines, faults) := by
  unfold makeSitemap
  split
  · exact .inr ⟨_, _, rfl⟩
  · split
    · exact .inl ⟨_, rfl, rfl⟩
    · split
      · exact .inr ⟨_, _, rfl⟩
      · next fault _ =>
        cases hl : fault.isLocal with
        | true => exact .inr ⟨_, _, rfl⟩
        | false => exact .inl ⟨fault, rfl, hl⟩

/-- The tree that the first page finds. -/
def pagesTree (site : Site) (t : FileTree) (pages : List Page) : FileTree :=
  (site.makeSitemap t pages).tree

/-- The tree that the first asset finds. -/
def assetsTree (site : Site) (t : FileTree) (pages : List Page) : FileTree :=
  (inTurn site.renderPage (site.pagesTree t pages) pages).1

/-- The assets of a build. -/
def assets (site : Site) (t : FileTree) (entries : List String) (pages : List Page) : List Path :=
  site.findAssets (site.assetsTree t pages) (Path.rootDirs (entries.map Path.ofString))

/-- What becomes of the pages in a build. -/
def pageResults (site : Site) (t : FileTree) (pages : List Page) : List (Except Fault Rendered) :=
  (inTurn site.renderPage (site.pagesTree t pages) pages).2.2

/-- What becomes of the assets in a build. -/
def assetResults (site : Site) (t : FileTree) (entries : List String) (pages : List Page) :
    List (Except Fault Path) :=
  (inTurn site.copyAsset (site.assetsTree t pages) (site.assets t entries pages)).2.2

/-- Something halts the build. -/
inductive BuildHalts (site : Site) (t : FileTree) (entries : List String) (pages : List Page) : Prop where
  | sitemap (h : SitemapHalts site t pages)
  | page (found : FileTree) (page : Page)
      (h : (found, page) ∈ met site.renderPage (site.pagesTree t pages) pages)
      (halts : PageHalts site found page)
  | search (h : (site.searchFault? (Path.rootDirs (entries.map Path.ofString))).isSome)
  | asset (found : FileTree) (source : Path)
      (h : (found, source) ∈ met site.copyAsset (site.assetsTree t pages) (site.assets t entries pages))
      (halts : AssetHalts site found source)

theorem exists_halted_inTurn {step : FileTree → α → Step β} {t : FileTree} {as : List α} :
    (∃ r ∈ (inTurn step t as).2.2, Halted r) ↔
      ∃ found a, (found, a) ∈ met step t as ∧ Halted (step found a).result := by
  rw [results_inTurn]
  constructor
  · rintro ⟨r, hr, hh⟩
    obtain ⟨⟨found, a⟩, ha, rfl⟩ := List.mem_map.1 hr
    exact ⟨found, a, ha, hh⟩
  · rintro ⟨found, a, ha, hh⟩
    exact ⟨_, List.mem_map.2 ⟨(found, a), ha, rfl⟩, hh⟩

/-! ## The run of a build -/

@[simp] theorem halted_map_iff {f : α → β} {result : Except Fault α} :
    Halted (result.map f) ↔ Halted result := by
  cases result <;> simp [Except.map]

theorem halted_andThen_iff {step : Step α} {next : FileTree → α → Step β} :
    Halted (step.andThen next).result ↔
      Halted step.result ∨ ∃ a, step.result = .ok a ∧ Halted (next step.tree a).result := by
  cases h : step.result with
  | ok a => simp [Step.andThen_of_ok h]
  | error fault => simp [Step.andThen_of_error h]

section
variable {site : Site} {t : FileTree}

theorem halted_renderAllBy_iff {run : Runner Page Rendered} {pages : List Page} :
    Halted (renderAllBy run site t pages).result ↔
      ∃ r ∈ (run site.renderPage t pages).2.2, Halted r := by
  simp [renderAllBy, halted_settle_iff]

theorem renderAllBy_of_not_halted {run : Runner Page Rendered} {pages : List Page}
    (h : ¬ ∃ r ∈ (run site.renderPage t pages).2.2, Halted r) :
    (renderAllBy run site t pages).result =
      .ok ⟨pagesAfter pages (run site.renderPage t pages).2.2,
        texts (goods (run site.renderPage t pages).2.2), faultsOf (run site.renderPage t pages).2.2⟩ := by
  have settled := settle_of_not_halted fun r hr hh => h ⟨r, hr, hh⟩
  simp [renderAllBy, settled.1, Except.map]

theorem isLocal_searchFault {roots : List String} {fault : Fault}
    (h : site.searchFault? roots = some fault) : fault.isLocal = false := by
  unfold searchFault? at h
  rcases Option.or_eq_some_iff.1 h with h | ⟨-, h⟩
  · exact isLocal_pathFault h
  · obtain ⟨root, -, h⟩ := List.exists_of_findSome?_eq_some h
    obtain ⟨pattern, -, h⟩ := List.exists_of_findSome?_eq_some h
    obtain ⟨lead, -, h⟩ := Option.bind_eq_some_iff.1 h
    exact isLocal_pathFault h

theorem halted_copyAllBy_iff {run : Runner Path Path} {roots : List String} :
    Halted (copyAllBy run site t roots).result ↔ (site.searchFault? roots).isSome ∨
      ∃ r ∈ (run site.copyAsset t (site.findAssets t roots)).2.2, Halted r := by
  unfold copyAllBy copyAssetsBy
  cases hs : site.searchFault? roots with
  | some fault => simp [Step.still, isLocal_searchFault hs]
  | none => simp [halted_settle_iff]

theorem copyAllBy_of_not_halted {run : Runner Path Path} {roots : List String}
    (hs : site.searchFault? roots = none)
    (h : ¬ ∃ r ∈ (run site.copyAsset t (site.findAssets t roots)).2.2, Halted r) :
    (copyAllBy run site t roots).result =
      .ok (goods (run site.copyAsset t (site.findAssets t roots)).2.2,
        faultsOf (run site.copyAsset t (site.findAssets t roots)).2.2) := by
  have settled := settle_of_not_halted fun r hr hh => h ⟨r, hr, hh⟩
  simp [copyAllBy, copyAssetsBy, hs, settled.1]

end

/-! ### When the hook is told -/

/-- A call to the hook that is told of a build that is done. -/
def Report.isDone : Report → Bool
  | .called _ (.done ..) => true
  | _ => false

theorem isDone_hookedText {site : Site} {page : Page} {html : String} :
    ∀ report ∈ (site.hookedText page html).1, report.isDone = false := by
  unfold hookedText callHook
  split <;> simp [Report.isDone]

theorem isDone_pageText {site : Site} {t : FileTree} {page : Page} {output : Path} :
    ∀ report ∈ (site.pageText t page output).1, report.isDone = false := by
  unfold pageText
  split
  · simp
  · split
    · simp
    · exact isDone_hookedText

theorem isDone_savePage {site : Site} {t : FileTree} {page : Page} {output : Path} {html : String} :
    ∀ report ∈ (site.savePage t page output html).reports, report.isDone = false := by
  unfold savePage
  split
  · simp [Step.still]
  · split <;> simp [Report.isDone]

theorem isDone_renderPage {site : Site} {t : FileTree} {page : Page} :
    ∀ report ∈ (site.renderPage t page).reports, report.isDone = false := by
  unfold renderPage
  split
  · simp [Step.still]
  · next output _ =>
    split
    · simp [Step.still]
    · simp [Step.still]
    · have text := @isDone_pageText site t page output
      split
      · next calls _ ht => rw [ht] at text; exact text
      · next calls _ ht =>
        rw [ht] at text
        intro report hr
        rcases List.mem_append.1 hr with hr | hr
        · exact text report hr
        · exact isDone_savePage report hr

theorem isDone_copyAsset {site : Site} {t : FileTree} {source : Path} :
    ∀ report ∈ (site.copyAsset t source).reports, report.isDone = false := by
  unfold copyAsset
  split
  · simp [Step.still]
  · split
    · simp
    · next output _ _ _ =>
      unfold tellHook
      split
      · simp [Report.isDone]
      · split <;> simp [Report.isDone]

theorem isDone_makeSitemap {site : Site} {t : FileTree} {pages : List Page} :
    ∀ report ∈ (site.makeSitemap t pages).reports, report.isDone = false := by
  unfold makeSitemap
  split
  · simp [Step.still]
  · split
    · simp [Step.still]
    · split
      · simp [Report.isDone]
      · split <;> simp [Report.isDone]

theorem isDone_inTurn {step : FileTree → α → Step β}
    (h : ∀ {t a}, ∀ report ∈ (step t a).reports, report.isDone = false) {t : FileTree} {as : List α} :
    ∀ report ∈ (inTurn step t as).2.1, report.isDone = false := by
  intro report hr
  rw [reports_inTurn] at hr
  obtain ⟨⟨found, a⟩, -, hr⟩ := List.mem_flatMap.1 hr
  exact h report hr

theorem isDone_andThen {step : Step α} {next : FileTree → α → Step β}
    (h : ∀ report ∈ step.reports, report.isDone = false)
    (hn : ∀ t a, ∀ report ∈ (next t a).reports, report.isDone = false) :
    ∀ report ∈ (step.andThen next).reports, report.isDone = false := by
  cases hr : step.result with
  | error fault => simpa [Step.andThen_of_error hr] using h
  | ok a =>
    rw [Step.andThen_of_ok hr]
    intro report hm
    exact (List.mem_append.1 hm).elim (h report) (hn _ _ report)

/-- Before the hook is told, no call of it is, in whatever way pages and assets are gone through. -/
theorem isDone_gatherBy {renders : Runner Page Rendered} {copies : Runner Path Path} {site : Site}
    (hr : ∀ t pages, ∀ report ∈ (renders site.renderPage t pages).2.1, report.isDone = false)
    (hc : ∀ t sources, ∀ report ∈ (copies site.copyAsset t sources).2.1, report.isDone = false)
    {t : FileTree} {entries : List String} {pages : List Page} :
    ∀ report ∈ (gatherBy renders copies site t entries pages).reports, report.isDone = false := by
  have told : ∀ (reports : List Report) (faults : List Fault),
      (∀ report ∈ reports, report.isDone = false) →
        ∀ report ∈ reports ++ faults.map .failed, report.isDone = false := by
    intro reports faults h report hr
    rcases List.mem_append.1 hr with hr | hr
    · exact h report hr
    · obtain ⟨fault, -, rfl⟩ := List.mem_map.1 hr
      rfl
  refine isDone_andThen isDone_makeSitemap fun t1 _ => isDone_andThen ?_ fun t2 _ => ?_
  · exact told _ _ (hr _ _)
  · unfold Step.map copyAllBy
    split
    · simp [Step.still]
    · exact told _ _ (hc _ _)

theorem isDone_gather {site : Site} {t : FileTree} {entries : List String} {pages : List Page} :
    ∀ report ∈ (gatherBy inTurn inTurn site t entries pages).reports, report.isDone = false :=
  isDone_gatherBy (fun _ _ => isDone_inTurn isDone_renderPage) fun _ _ => isDone_inTurn isDone_copyAsset

/-! ### The result -/

section
variable {site : Site} {t : FileTree} {entries : List String} {pages : List Page}

theorem halted_page_iff : (∃ r ∈ site.pageResults t pages, Halted r) ↔
    ∃ found page, (found, page) ∈ met site.renderPage (site.pagesTree t pages) pages ∧
      PageHalts site found page := by
  simp only [← halted_renderPage_iff]
  exact exists_halted_inTurn

theorem halted_asset_iff : (∃ r ∈ site.assetResults t entries pages, Halted r) ↔
    ∃ found source,
      (found, source) ∈ met site.copyAsset (site.assetsTree t pages) (site.assets t entries pages) ∧
        AssetHalts site found source := by
  simp only [← halted_copyAsset_iff]
  exact exists_halted_inTurn

theorem buildHalts_iff : BuildHalts site t entries pages ↔
    Halted (site.makeSitemap t pages).result ∨ (∃ r ∈ site.pageResults t pages, Halted r) ∨
      (site.searchFault? (Path.rootDirs (entries.map Path.ofString))).isSome ∨
      ∃ r ∈ site.assetResults t entries pages, Halted r := by
  rw [halted_makeSitemap_iff, halted_page_iff, halted_asset_iff]
  constructor
  · rintro (h | ⟨found, page, h, hh⟩ | h | ⟨found, source, h, hh⟩)
    · exact .inl h
    · exact .inr (.inl ⟨found, page, h, hh⟩)
    · exact .inr (.inr (.inl h))
    · exact .inr (.inr (.inr ⟨found, source, h, hh⟩))
  · rintro (h | ⟨found, page, h, hh⟩ | h | ⟨found, source, h, hh⟩)
    · exact .sitemap h
    · exact .page found page h hh
    · exact .search h
    · exact .asset found source h hh

/-- What a build has when the hook is to be told. -/
def gathered (site : Site) (t : FileTree) (entries : List String) (pages : List Page)
    (sitemap : List String) (faults : List Fault) : Result where
  pages := pagesAfter pages (site.pageResults t pages)
  sitemap := sitemap
  rendered := texts (goods (site.pageResults t pages))
  copied := goods (site.assetResults t entries pages)
  faults := faults ++ faultsOf (site.pageResults t pages) ++ faultsOf (site.assetResults t entries pages)

theorem halted_gather (h : BuildHalts site t entries pages) :
    Halted (gatherBy inTurn inTurn site t entries pages).result := by
  refine halted_andThen_iff.2 ?_
  rcases @makeSitemap_ends site t pages with h1 | ⟨lines, faults, h1⟩
  · exact .inl h1
  refine .inr ⟨_, h1, halted_andThen_iff.2 ?_⟩
  by_cases h2 : ∃ r ∈ site.pageResults t pages, Halted r
  · exact .inl (halted_renderAllBy_iff.2 h2)
  refine .inr ⟨_, renderAllBy_of_not_halted h2, halted_map_iff.2 (halted_copyAllBy_iff.2 ?_)⟩
  rcases buildHalts_iff.1 h with ⟨fault, hf, -⟩ | h | h
  · rw [h1] at hf; cases hf
  · exact absurd h h2
  · exact h

theorem gather_of_not_halts (h : ¬ BuildHalts site t entries pages) : ∃ lines faults,
    (site.makeSitemap t pages).result = .ok (lines, faults) ∧
      (gatherBy inTurn inTurn site t entries pages).result =
        .ok (site.gathered t entries pages lines faults) := by
  rw [buildHalts_iff] at h
  simp only [not_or] at h
  obtain ⟨h1, h2, h3, h4⟩ := h
  have h3 : site.searchFault? (Path.rootDirs (entries.map Path.ofString)) = none := by simpa using h3
  rcases @makeSitemap_ends site t pages with hs | ⟨lines, faults, hs⟩
  · exact absurd hs h1
  refine ⟨lines, faults, hs, ?_⟩
  have rendered := renderAllBy_of_not_halted h2
  have copied := @copyAllBy_of_not_halted site (site.assetsTree t pages) inTurn _ h3 h4
  rw [gatherBy, Step.andThen_of_ok hs]
  refine (congrArg Step.result (Step.andThen_of_ok rendered _)).trans ?_
  change (copyAllBy inTurn site (site.assetsTree t pages) _).result.map _ = _
  rw [copied]
  rfl

/-- A build has a result exactly if nothing halts it. Then every page and every asset was worked on, all that
failed is among the faults, and the hook was told once, after everything else. A build that is halted never
tells the hook. -/
theorem build_finishes_iff (site : Site) (t : FileTree) (entries : List String) (pages : List Page) :
    ((∃ r, (site.build t entries pages).result = .ok r) ↔ ¬ BuildHalts site t entries pages) ∧
    (∀ r, (site.build t entries pages).result = .ok r → ∃ lines faults before,
      (site.makeSitemap t pages).result = .ok (lines, faults) ∧
      (site.pageResults t pages).length = pages.length ∧
      (site.assetResults t entries pages).length = (site.assets t entries pages).length ∧
      r = { site.gathered t entries pages lines faults with
        faults := (site.gathered t entries pages lines faults).faults ++
          failures (tellHook site.options.hooks.done (.done r.sitemap site.out r.pages)) } ∧
      (site.build t entries pages).reports =
        before ++ tellHook site.options.hooks.done (.done r.sitemap site.out r.pages) ∧
      ∀ report ∈ before, report.isDone = false) ∧
    (∀ fault, (site.build t entries pages).result = .error fault → fault.isLocal = false ∧
      ∀ report ∈ (site.build t entries pages).reports, report.isDone = false) := by
  by_cases h : BuildHalts site t entries pages
  · obtain ⟨fault, hf, hl⟩ := halted_gather h
    have built : site.build t entries pages = ⟨_, _, .error fault⟩ := Step.andThen_of_error hf _
    rw [built]
    refine ⟨⟨fun ⟨r, hr⟩ => (nomatch hr), fun hn => absurd h hn⟩, fun r hr => (nomatch hr), fun f hr => ?_⟩
    cases hr
    exact ⟨hl, isDone_gather⟩
  · obtain ⟨lines, faults, hs, hg⟩ := gather_of_not_halts h
    have built : site.build t entries pages = ⟨_, _, _⟩ := Step.andThen_of_ok hg _
    rw [built]
    refine ⟨⟨fun _ => h, fun _ => ⟨_, rfl⟩⟩, fun r hr => ?_, fun f hr => (nomatch hr)⟩
    cases hr
    exact ⟨lines, faults, _, hs, length_inTurn .., length_inTurn .., rfl, rfl, isDone_gather⟩

end

/-- A project with a template beside its root directory. -/
def strayTree : FileTree := ⟨[(["p"], .dir), (["p", "site"], .dir), (["p", "lib"], .dir),
  (["p", "lib", "a.j2"], .file .empty)]⟩

def straySite : Site := .ofDir ⟨.slash, ["p"]⟩ ⟨⟨2024, 1, 1⟩, 0, 0, 0, 0, none⟩

/-- A pattern that leads out of its root directory gives pages, but no build of them has a result. -/
theorem stray_build_halts : ∃ expansion,
    expandEntries strayTree straySite.bindings straySite.ext ["site/../lib/*.j2"] = .ok expansion ∧
      ∀ r, (straySite.build strayTree ["site/../lib/*.j2"] expansion.pages).result ≠ .ok r := by
  have halted : (match expandEntries strayTree straySite.bindings straySite.ext ["site/../lib/*.j2"] with
      | .ok expansion =>
        (straySite.build strayTree ["site/../lib/*.j2"] expansion.pages).result.toOption.isNone
      | .error _ => false) = true := by
    decide +kernel
  cases he : expandEntries strayTree straySite.bindings straySite.ext ["site/../lib/*.j2"] with
  | error fault => rw [he] at halted; cases halted
  | ok expansion =>
    refine ⟨expansion, rfl, fun r hr => ?_⟩
    rw [he] at halted
    simp [hr, Except.toOption] at halted

end StaticSite.Site
