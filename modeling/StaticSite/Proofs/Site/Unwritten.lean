import StaticSite.Proofs.Site.AnyOrder
import StaticSite.Proofs.Site.Delivering

/-!
# Builds that are not to write

A site that is not to write keeps the texts of its pages for itself: no page makes or changes a file, and each has the
same text, or the same fault, as in a build that writes it without a fault (`near_pageResult`). The sitemap is written
all the same, and so are the copies of assets. `unwritten_build` says both of a build as a whole, and
`unwritten_build_copies` shows a build that is not to write and puts a copy into the output root.
-/

namespace StaticSite.Site

open FileTree (Grows Touched Puts)
open Path (collapse)

variable {site : Site} {t u u' : FileTree} {pages : List Page} {page : Page}

/-- The site, but its pages are written. -/
def writing (site : Site) : Site := { site with options := { site.options with noWrite := false } }

/-! ## Faults of writing -/

/-- Faults of putting a text to its place. -/
def Fault.isOfWriting : Fault → Bool
  | .write _ _ => true
  | .unwritable _ => true
  | .place fault => fault.fault == .nullByte
  | _ => false

theorem isOfWriting_pathFault {p : Path} {fault : Fault} (h : pathFault? p = some fault) : fault.isOfWriting = true := by
  unfold pathFault? at h
  split at h
  · cases h; rfl
  · split at h <;> cases h
    rfl

theorem isOfWriting_writeText {target : Path} {s : String} {fault : Fault} (h : (writeText t target s).2 = .error fault) :
    fault.isOfWriting = true := by
  rw [writeText_directly] at h
  have room : ∀ u fault, makeRoom t target target = (u, .error fault) → fault.isOfWriting = true := by
    intro u fault hr
    unfold makeRoom at hr
    split at hr
    · next hp => cases hr; exact isOfWriting_pathFault hp
    · obtain ⟨f, -, rfl⟩ : ∃ f, (t.makeDirs target.parent).2 = .error f ∧ Fault.write target f = fault := by
        have := congrArg Prod.snd hr
        dsimp only at this
        cases hm : (t.makeDirs target.parent).2 with
        | error f => rw [hm] at this; cases this; exact ⟨f, rfl, rfl⟩
        | ok _ => rw [hm] at this; cases this
      rfl
  generalize makeRoom t target target = made at h room
  obtain ⟨u, f | _⟩ := made
  · cases h
    exact room u _ rfl
  · dsimp only at h
    cases hb : textBytes target s with
    | error f =>
      rw [hb] at h
      cases h
      unfold textBytes at hb
      split at hb
      · next hp => cases hb; exact isOfWriting_pathFault hp
      · cases he : Text.encode s with
        | error f => rw [he] at hb; cases hb; rfl
        | ok _ => rw [he] at hb; cases hb
    | ok bytes =>
      rw [hb] at h
      dsimp only at h
      cases hp : (u.putFile target bytes).2 with
      | error f => rw [hp] at h; cases h; rfl
      | ok _ => rw [hp] at h; cases h

/-! ## Pages -/

/-- A page that is not to be written leaves the tree as it is, and its result is what was decided about it. -/
theorem renderPage_unwritten (quiet : site.options.noWrite = true) (page : Page) (t : FileTree) :
    (site.renderPage t page).done = (t, match page.output site.out site.ext with
      | .error fault => .error (.place fault)
      | .ok o => site.drafted page o t) := by
  rw [renderPage_done]
  cases page.output site.out site.ext with
  | error fault => rfl
  | ok o =>
    dsimp only
    unfold goOn
    cases site.drafted page o t with
    | error fault => rfl
    | ok r =>
      dsimp only
      unfold saved
      rw [quiet]
      cases r.html <;> rfl

/-- A page that is written has the result that was decided about it, unless it cannot be written. -/
theorem renderPage_writing (page : Page) (t : FileTree) :
    (site.writing.renderPage t page).result = (match page.output site.out site.ext with
      | .error fault => .error (.place fault)
      | .ok o => site.drafted page o t) ∨
    ∃ fault, (site.writing.renderPage t page).result = .error fault ∧ fault.isOfWriting = true := by
  have done := congrArg Prod.snd (renderPage_done site.writing page t)
  change (site.writing.renderPage t page).result = _ at done
  change _ = Prod.snd (match page.output site.out site.ext with
    | .error fault => (t, .error (.place fault))
    | .ok o => goOn (site.writing.saved o) (site.drafted page o t) t) at done
  cases ho : page.output site.out site.ext with
  | error fault =>
    rw [ho] at done
    exact .inl done
  | ok o =>
    rw [ho] at done
    dsimp only at done ⊢
    unfold goOn at done
    cases hd : site.drafted page o t with
    | error fault =>
      rw [hd] at done
      exact .inl done
    | ok r =>
      rw [hd] at done
      dsimp only [saved] at done
      cases hr : r.html with
      | none =>
        rw [hr] at done
        exact .inl done
      | some html =>
        rw [hr] at done
        change _ = (writeText t (site.dir / o) html).2.map fun _ => r at done
        cases hw : (writeText t (site.dir / o) html).2 with
        | error fault =>
          rw [hw] at done
          exact .inr ⟨fault, done, isOfWriting_writeText hw⟩
        | ok _ =>
          rw [hw] at done
          exact .inl done

theorem kept_writing : Kept site.writing t u ↔ Kept site t u :=
  ⟨fun h => ⟨⟨h.isTree, h.around, h.home⟩, h.dirs⟩, fun h => ⟨⟨h.isTree, h.around, h.home⟩, h.dirs⟩⟩

/-- On trees that differ in the output, a page that is not to be written and one that is written without a fault have
results that are near. -/
theorem near_pageResult (quiet : site.options.noWrite = true) (project : Project site t pages)
    (templates : ∀ page ∈ pages, page.template.IsRead) (hu : Kept site t u) (hu' : Kept site t u') (hm : page ∈ pages) :
    Near Fault.Alike (Straight site t) (site.renderPage u page).result (site.writing.renderPage u' page).result ∨
      ∃ fault, (site.writing.renderPage u' page).result = .error fault ∧ fault.isOfWriting = true := by
  have result := congrArg Prod.snd (renderPage_unwritten quiet page u)
  change (site.renderPage u page).result = _ at result
  refine (@renderPage_writing site page u').imp_left fun result' => ?_
  rw [result, result']
  cases page.output site.out site.ext with
  | error fault => exact .refl _
  | ok o =>
    exact near_drafted hu.toVaried hu'.toVaried id project.plain (templates page hm) (project.apart page hm) o

/-! ## Runs -/

/-- What an invariant of the trees says of each item's result holds of all results, whatever the order. -/
theorem run_meets {α β : Type} {K : FileTree → Prop} {R : α → Except Fault β → Prop} {step : FileTree → α → Step β}
    {as : List α} (σ : Schedule) (keeps : ∀ a ∈ as, ∀ u, K u → K (step u a).tree)
    (each : ∀ a ∈ as, ∀ u, K u → R a (step u a).result) (ht : K t) :
    List.Forall₂ R as (σ.run step t as).2.2 := by
  have perm := picked_order_perm σ as
  have ofPicked : ∀ item ∈ picked (σ.order as.length) as, item.2 ∈ as := fun item hm =>
    perm.mem_iff.1 (List.mem_map_of_mem hm)
  have items : List.Forall₂ (fun item r => R item.2 r) (picked (σ.order as.length) as)
      (inTurn (fun t (item : Nat × α) => step t item.2) t (picked (σ.order as.length) as)).2.2 := by
    generalize picked (σ.order as.length) as = items at ofPicked
    clear perm
    induction items generalizing t with
    | nil => exact .nil
    | cons item items ih =>
      have mem := ofPicked item List.mem_cons_self
      exact .cons (each item.2 mem t ht)
        (ih (keeps item.2 mem t ht) fun other ho => ofPicked other (List.mem_cons_of_mem item ho))
  have placed : ∀ item ∈ picked (σ.order as.length) as, as[item.1]? = some item.2 :=
    fun item hm => (mem_picked.1 hm).2
  refine forall₂_filterMap_range fun i a hi => exists_lookup_zip (P := R) placed items ?_
  have inRange : i ∈ List.range as.length := List.mem_range.2 (List.getElem?_eq_some_iff.1 hi).1
  exact mem_picked.2 ⟨(σ.isOrder as.length).mem_iff.2 inRange, hi⟩

/-- The results of the pages of a build. -/
def renderResults (σ : Schedule) (site : Site) (t : FileTree) (pages : List Page) : List (Except Fault Rendered) :=
  (σ.run site.renderPage (site.makeSitemap t pages).tree pages).2.2

theorem near_renderResults (quiet : site.options.noWrite = true) (project : Project site t pages)
    (templates : ∀ page ∈ pages, page.template.IsRead) (σ τ : Schedule)
    (written : ∀ fault, .error fault ∈ renderResults τ site.writing t pages → fault.isOfWriting = false) :
    List.Forall₂ (Near Fault.Alike (Straight site t)) (renderResults σ site t pages)
      (renderResults τ site.writing t pages) := by
  have kept : Kept site t t := ⟨project.varied, fun _ hl => hl⟩
  have start : Kept site t (site.makeSitemap t pages).tree := (local_makeSitemap ground_kept pages).keeps kept
  -- without writing, all pages meet the same tree
  have alone : List.Forall₂ (fun page r => r = (site.renderPage (site.makeSitemap t pages).tree page).result) pages
      (renderResults σ site t pages) := by
    refine run_meets (K := (· = (site.makeSitemap t pages).tree)) σ (fun page _ u hu => ?_) (fun page _ u hu => ?_) rfl
    · rw [hu]
      exact congrArg Prod.fst (renderPage_unwritten quiet page _)
    · rw [hu]
  have others : List.Forall₂ (fun page r =>
      Near Fault.Alike (Straight site t) (site.renderPage (site.makeSitemap t pages).tree page).result r ∨
        ∃ fault, r = .error fault ∧ fault.isOfWriting = true) pages (renderResults τ site.writing t pages) := by
    have near : ∀ page ∈ pages, ∀ u, Kept site t u → _ := fun page hm u hu =>
      near_pageResult quiet project templates start hu hm
    refine run_meets τ (fun page hm u hu => ?_) near start
    have apart := project.apart page hm
    have kept' : Kept site.writing t u := kept_writing.2 hu
    have ground : Ground site.writing (Straight site.writing t) (Kept site.writing t) := ground_kept
    have here := local_renderPage ground Kept.toVaried id project.plain (project.dots page hm) (templates page hm)
      ⟨apart.root, apart.data⟩
    exact kept_writing.1 (here.keeps kept')
  have same : renderResults σ site t pages = pages.map fun page =>
      (site.renderPage (site.makeSitemap t pages).tree page).result := by
    rw [← List.forall₂_eq_eq_eq, List.forall₂_map_right_iff]
    exact alone.flip.imp fun _ _ h => h
  rw [same, List.forall₂_map_left_iff]
  refine ((List.forall₂_and_left (p := (· ∈ renderResults τ site.writing t pages)) ..).2
    ⟨fun _ hr => hr, others.flip⟩).flip.imp fun page r ⟨hr, near⟩ => ?_
  refine near.resolve_right ?_
  rintro ⟨fault, rfl, isOfWriting⟩
  rw [written fault hr] at isOfWriting
  cases isOfWriting

/-! ## The whole build -/

/-- The work on the pages of a build. -/
def renders (σ : Schedule) (site : Site) (t : FileTree) (pages : List Page) : Step RenderedAll :=
  renderAllBy σ.run site (site.makeSitemap t pages).tree pages

/-- The texts of a build that is not to write are those of the build that writes, and so are the faults of pages; only
the reason of the system for not reading a data file may be another one, if the path of the output root makes a detour. -/
structure SameTexts (σ σ' : Schedule) (site : Site) (t : FileTree) (pages : List Page) (r r' : Result) : Prop where
  rendered : r'.rendered = r.rendered
  sitemap : r'.sitemap = r.sitemap
  faults : ∃ all all', (renders σ site t pages).result = .ok all ∧ (renders σ' site.writing t pages).result = .ok all' ∧
    all.faults ⊆ r.faults ∧ all'.faults ⊆ r'.faults ∧ FaultsAgree (Straight site t) all.faults all'.faults

/-- What a build that is not to write does. -/
structure Unwritten (site : Site) (t : FileTree) (entries : List String) (pages : List Page) (σ τ : Schedule) : Prop where
  confined : Confined site t (buildIn σ τ site t entries pages).tree
  grows : Grows t (buildIn σ τ site t entries pages).tree
  /-- Only the sitemap and copies of assets are made or changed. -/
  touched : ∀ l, Touched t (buildIn σ τ site t entries pages).tree l →
    site.options.sitemap = true ∧ l = collapse ((site.dir / site.out).child Sitemap.fileName).segments ∨
      ∃ source ∈ foundAssets σ site t entries pages, Lands site source l
  /-- If the pages can be written, the same comes of them in both builds. -/
  same : Project site t pages → (∀ page ∈ pages, page.template.IsRead) → ∀ σ' τ',
    (∀ fault, .error fault ∈ renderResults σ' site.writing t pages → fault.isOfWriting = false) →
      Both (RenderedAll.Agree (Straight site t)) (renders σ site t pages).result
        (renders σ' site.writing t pages).result ∧
      ∀ r r', (buildIn σ τ site t entries pages).result = .ok r →
        (buildIn σ' τ' site.writing t entries pages).result = .ok r' → SameTexts σ σ' site t pages r r'

/-- A build that is not to write makes and changes no page, and takes nothing away. If the pages of a project could be
written, they have the same texts and faults as if they were. -/
theorem unwritten_build (quiet : site.options.noWrite = true) (dots : Dotless pages) (σ τ : Schedule) (t : FileTree)
    (entries : List String) : Unwritten site t entries pages σ τ := by
  obtain ⟨confined, grows, targets⟩ := build_keeps_to_targets dots σ τ site t entries
  refine ⟨confined, grows, fun l touched => ?_, fun project templates σ' τ' written => ?_⟩
  · cases targets l touched with
    | sitemap wanted => exact .inl ⟨wanted, rfl⟩
    | page _ writes _ =>
      rw [quiet] at writes
      cases writes
    | copy hm ho => exact .inr ⟨_, hm, _, ho, .inl rfl⟩
    | copyInside hm ho => exact .inr ⟨_, hm, _, ho, .inr rfl⟩
  · have near := near_renderResults quiet project templates σ σ' written
    have both : Both (RenderedAll.Agree (Straight site t)) (renders σ site t pages).result
        (renders σ' site.writing t pages).result := both_renderAllBy near
    refine ⟨both, fun r r' hr hr' => ?_⟩
    obtain ⟨faults, all, made, rendered, texts, among, -⟩ := phases_of_result hr
    obtain ⟨faults', all', made', rendered', texts', among', -⟩ := phases_of_result hr'
    change (renders σ site t pages).result = .ok all at rendered
    change (renders σ' site.writing t pages).result = .ok all' at rendered'
    change (site.makeSitemap t pages).result = .ok (r'.sitemap, faults') at made'
    rw [rendered, rendered'] at both
    rcases both with ⟨fault, stop, -⟩ | ⟨_, _, same, same', -, sameTexts, sameFaults⟩
    · cases stop
    · cases same
      cases same'
      refine ⟨by rw [texts, texts', sameTexts], ?_, all, all', rendered, rendered', among, among', sameFaults⟩
      rw [made] at made'
      exact (congrArg Prod.fst (Except.ok.inj made')).symm

/-- The small project, and nothing is to be written. -/
def silentSite : Site := { smallSite (Path.ofString "dist") false with
  options := { out := Path.ofString "dist", noWrite := true } }

/-- The texts of both pages are those of the build that writes them. -/
theorem unwritten_build_small :
    silentSite.options.noWrite = true ∧ Dotless smallPages ∧ Project silentSite smallTree smallPages ∧ ∃ r r',
      (buildIn .forward .backward silentSite smallTree ["site/**/*.j2"] smallPages).result = .ok r ∧
      (buildIn .backward .forward silentSite.writing smallTree ["site/**/*.j2"] smallPages).result = .ok r' ∧
      r.rendered.length = 2 ∧ SameTexts .forward .backward silentSite smallTree smallPages r r' := by
  have dots : Dotless smallPages := by unfold Dotless; decide
  have project : Project silentSite smallTree smallPages := by
    have written : Project (smallSite (Path.ofString "dist") false) smallTree smallPages :=
      project_small (by decide) (by decide) (by decide +kernel)
    exact ⟨written.isTree, written.plain, written.home, written.places, fun page hm =>
      ⟨(written.apart page hm).root, (written.apart page hm).data⟩⟩
  have good : ∀ result ∈ renderResults .backward silentSite.writing smallTree smallPages,
      result.toOption.isSome = true := by decide +kernel
  have computed : (buildIn .forward .backward silentSite smallTree ["site/**/*.j2"] smallPages).result.toOption.map
      (·.rendered.length) = some 2 := by decide +kernel
  have computed' : (buildIn .backward .forward silentSite.writing smallTree ["site/**/*.j2"]
      smallPages).result.toOption.isSome = true := by decide +kernel
  obtain ⟨r, hr, texts⟩ := Option.map_eq_some_iff.1 computed
  obtain ⟨r', hr'⟩ := Option.isSome_iff_exists.1 computed'
  rw [toOption_eq_some_iff] at hr hr'
  have unwritten : Unwritten silentSite smallTree ["site/**/*.j2"] smallPages .forward .backward :=
    unwritten_build rfl dots .forward .backward smallTree ["site/**/*.j2"]
  refine ⟨rfl, dots, project, r, r', hr, hr', texts, (unwritten.same project (by decide) .backward .forward ?_).2 r r' hr hr'⟩
  intro fault failed
  cases good _ failed

/-- Nothing is to be written, and a copy is put into the output root all the same. -/
theorem unwritten_build_copies :
    let t' := (silentSite.build smallTree ["site/**/*.j2"] smallPages).tree
    silentSite.options.noWrite = true ∧ silentSite.options.sitemap = false ∧
      smallTree.hasFile ["p", "dist", "c.css"] = false ∧ t'.hasFile ["p", "dist", "c.css"] = true ∧
      Touched smallTree t' ["p", "dist", "c.css"] := by
  intro t'
  have before : smallTree.hasFile ["p", "dist", "c.css"] = false := by decide +kernel
  have after : t'.hasFile ["p", "dist", "c.css"] = true := by decide +kernel
  obtain ⟨content, there⟩ := FileTree.hasFile_iff.1 after
  refine ⟨rfl, rfl, before, after, content, fun same => ?_⟩
  have old := FileTree.hasFile_iff.2 ⟨content, same.1 there⟩
  rw [before] at old
  cases old

end StaticSite.Site
