import StaticSite.Proofs.Site.Deleting
import StaticSite.Watch.Session

/-!
# What an event does to the tree

An event changes the tree in the area of the outputs that it concerns and nowhere else (`local_treeStep`). Events
can change places if the outputs of one that writes are not at, above or below those of the other, and deletions
always can (`treeStep_comm`). What became of the pages before does not matter for the tree (`applyEvents_tree`).
-/

namespace StaticSite

open FileTree (Area Local Same IsTree)

namespace Site

variable {site : Site} {t₀ t t' : FileTree} {pages : List Page}

/-! ## Events -/

/-- The tree after an event. -/
def treeStep (site : Site) (pages : List Page) (t : FileTree) (x : Path × Watch.Event) : FileTree :=
  (site.update t pages x.1 x.2).tree

/-- The event may write something. -/
def writes (e : Watch.Event) : Bool := (e.kind = .add || e.kind = .change) && !e.isDir

/-- The paths whose outputs an event concerns. -/
def concerned (site : Site) (pages : List Page) (x : Path × Watch.Event) : List Path :=
  if writes x.2 && x.1.hasTemplateExt site.ext then (pages.filter (·.template = x.1)).map Page.logical else [x.1]

/-- What a session needs so that the order of events does not matter: a project in which the path of the output
root leads through what is there. -/
structure Steady (site : Site) (t₀ : FileTree) (pages : List Page) : Prop extends Project site t₀ pages where
  firm : Firm site t₀

theorem ground_varied : Ground site False (Varied site t₀) where
  isTree h := h.isTree
  keeps h ht hd ha := ⟨ht, h.around.trans ha, hd _ h.home⟩
  straight h := h.elim

/-! ## Templates -/

/-- The work on the pages of a template stops with this result. -/
def stops (r : Except Fault Rendered) : Bool :=
  match r with
  | .ok _ => false
  | .error fault => !fault.isLocal

theorem stops_near {r r' : Except Fault Rendered} (h : Near Fault.Alike False r r') : stops r' = stops r := by
  rcases h with rfl | ⟨-, f, f', rfl, rfl, alike⟩
  · rfl
  · simp [stops, alike.isLocal]

theorem renderTemplate_tree {p : Path} {page : Page} (h : page.template = p) (t : FileTree) :
    (site.renderTemplate p t (page :: pages)).tree = if stops (site.renderPage t page).result then
      (site.renderPage t page).tree else (site.renderTemplate p (site.renderPage t page).tree pages).tree := by
  rw [renderTemplate, if_neg (by simpa using h)]
  dsimp only
  unfold stops
  cases (site.renderPage t page).result with
  | ok r => rfl
  | error fault => cases hl : fault.isLocal <;> simp [hl]

/-- The area of the outputs of a template's pages. -/
def templateArea (site : Site) (p : Path) : List Page → Area
  | [] => .none
  | page :: pages =>
    if page.template = p then (site.pathArea page.logical).union (site.templateArea p pages)
    else site.templateArea p pages

theorem local_renderTemplate (hd : Path.Plain site.dir.segments) {p : Path} (hp : IsPlaced site p)
    (hl : ∀ page ∈ pages, "." ∉ page.logical.segments) (ha : ∀ page ∈ pages, IsApart site page.template) :
    Local (Varied site t₀) (site.templateArea p pages) (fun _ _ => True)
      fun t => ((site.renderTemplate p t pages).tree, ()) := by
  induction pages with
  | nil => exact .still fun _ _ _ => trivial
  | cons page pages ih =>
    have rest := ih (fun q hq => hl q (List.mem_cons_of_mem _ hq)) (fun q hq => ha q (List.mem_cons_of_mem _ hq))
    unfold templateArea
    by_cases h : page.template = p
    · rw [if_pos h]
      simp only [renderTemplate_tree h]
      have first : Local (Varied site t₀) (site.pathArea page.logical) (Near Fault.Alike False)
          fun t => (site.renderPage t page).done :=
        local_renderPage ground_varied id False.elim hd (hl page List.mem_cons_self)
          (by rw [h]; exact hp.isRead) (ha page List.mem_cons_self)
      have next : ∀ r, Local (Varied site t₀) (site.templateArea p pages) (fun _ _ => True) fun t =>
          (if stops r then t else (site.renderTemplate p t pages).tree, ()) := fun r => by
        cases hs : stops r with
        | true => exact .still fun _ _ _ => trivial
        | false => simpa [hs] using rest
      exact first.andThen next fun r r' hr => by rw [stops_near hr]
    · rw [if_neg h]
      have skipped : ∀ t, (site.renderTemplate p t (page :: pages)).tree = (site.renderTemplate p t pages).tree :=
        fun t => by rw [renderTemplate, if_pos h]; rfl
      simp only [skipped]
      exact rest

/-! ## Files -/

/-- What is read of a path that is no output is the same, or cannot be read each time. -/
theorem near_read_placed (hd : Path.Plain site.dir.segments) {p o : Path} (hp : IsPlaced site p)
    (ho : p.output site.out site.ext = .ok o) (ht : Varied site t₀ t) (ht' : Varied site t₀ t') :
    Near (fun _ _ => True) False (t.read (site.dir / p)) (t'.read (site.dir / p)) := by
  obtain ⟨s, rest, hs, -, plain⟩ := hp.location ho
  have leads : ∀ {t}, Varied site t₀ t → t.Leads (site.dir / p) := fun ht => by
    rw [hs]
    exact FileTree.leads_of_home ht.isTree hd ht.home s plain
  exact near_read ht ht' (leads ht) (leads ht') (outside_of_not_output hp.notOutput) False.elim

theorem local_copyEvent (hd : Path.Plain site.dir.segments) {p : Path} (hp : IsPlaced site p) :
    Local (Varied site t₀) (site.pathArea p) (fun _ _ => True) fun t => ((site.copyAsset t p).tree, ()) := by
  cases ho : p.output site.out site.ext with
  | error fault =>
    have still : ∀ t, (site.copyAsset t p).tree = t := fun t => by simp [copyAsset, ho, Step.still]
    simp only [still]
    exact .still fun _ _ _ => trivial
  | ok o =>
    exact (local_copyAsset ground_varied hp.dots hp.notOutput
      fun ht ht' => near_read_placed hd hp ho ht ht').of_tree fun _ => rfl

/-! ## One event -/

/-- The area of what an event concerns. -/
def eventArea (site : Site) (pages : List Page) (x : Path × Watch.Event) : Area :=
  match x.2.kind with
  | .unlink | .unlinkDir => site.deleteArea x.1
  | .add | .change =>
    if x.2.isDir then .none
    else if x.1.hasTemplateExt site.ext then site.templateArea x.1 pages
    else site.pathArea x.1

theorem local_write (h : Steady site t₀ pages) {p : Path} (hp : IsPlaced site p) (isDir : Bool) :
    Local (Varied site t₀) (site.eventArea pages (p, ⟨.add, isDir⟩)) (fun _ _ => True)
      fun t => (site.treeStep pages t (p, ⟨.add, isDir⟩), ()) := by
  simp only [eventArea, treeStep, update]
  split
  · exact .still fun _ _ _ => trivial
  · split
    · exact local_renderTemplate h.plain hp h.dots h.apart
    · exact local_copyEvent h.plain hp

/-- What an event does is local to what it concerns. -/
theorem local_treeStep (h : Steady site t₀ pages) {x : Path × Watch.Event} (hp : IsPlaced site x.1) :
    Local (Varied site t₀) (site.eventArea pages x) (fun _ _ => True)
      fun t => (site.treeStep pages t x, ()) := by
  obtain ⟨p, kind, isDir⟩ := x
  cases kind with
  | add => exact local_write h hp isDir
  | change => exact local_write h hp isDir
  | unlink => exact local_deleteOutput h.firm h.plain hp false
  | unlinkDir => exact local_deleteOutput h.firm h.plain hp true

/-- The outputs that an event concerns. -/
def outputsOf (site : Site) (pages : List Page) (x : Path × Watch.Event) : List Path :=
  (site.concerned pages x).filterMap fun p => (p.output site.out site.ext).toOption

/-- Two events concern outputs none of which is at, above or below one of the other. -/
def Clashless (site : Site) (pages : List Page) (x y : Path × Watch.Event) : Prop :=
  ∀ o ∈ site.outputsOf pages x, ∀ o' ∈ site.outputsOf pages y, Unnested o.segments o'.segments

instance (site : Site) (pages : List Page) (x y : Path × Watch.Event) : Decidable (Clashless site pages x y) :=
  inferInstanceAs (Decidable (∀ o ∈ site.outputsOf pages x, ∀ o' ∈ site.outputsOf pages y, Unnested _ _))

theorem mem_outputsOf {x : Path × Watch.Event} {p o : Path} (hp : p ∈ site.concerned pages x)
    (ho : p.output site.out site.ext = .ok o) : o ∈ site.outputsOf pages x :=
  List.mem_filterMap.2 ⟨p, hp, toOption_eq_some ho⟩

theorem Clashless.symm {x y : Path × Watch.Event} (h : Clashless site pages x y) : Clashless site pages y x :=
  fun o ho o' ho' => (h o' ho' o ho).symm

theorem templateArea_apart {p : Path} {C : Area}
    (h : ∀ page ∈ pages, page.template = p → (site.pathArea page.logical).Apart C) :
    (site.templateArea p pages).Apart C := by
  induction pages with
  | nil => exact .none C
  | cons page pages ih =>
    have rest := ih fun q hq => h q (List.mem_cons_of_mem _ hq)
    unfold templateArea
    by_cases ht : page.template = p
    · rw [if_pos ht]
      exact (h page List.mem_cons_self ht).union rest
    · rw [if_neg ht]
      exact rest

/-- What is apart from all outputs that a writing event concerns is apart from its area. -/
theorem eventArea_apart_of_writes {x : Path × Watch.Event} (hw : writes x.2 = true) {C : Area}
    (h : ∀ p ∈ site.concerned pages x, (site.pathArea p).Apart C) : (site.eventArea pages x).Apart C := by
  obtain ⟨p, kind, isDir⟩ := x
  have file : isDir = false := by simpa using (Bool.and_eq_true_iff.1 hw).2
  have added : (kind = .add ∨ kind = .change) := by simpa using (Bool.and_eq_true_iff.1 hw).1
  have area : site.eventArea pages (p, ⟨kind, isDir⟩) =
      if p.hasTemplateExt site.ext then site.templateArea p pages else site.pathArea p := by
    rcases added with rfl | rfl <;> simp [eventArea, file]
  rw [area]
  unfold concerned at h
  by_cases ht : p.hasTemplateExt site.ext = true
  · rw [if_pos ht]
    refine templateArea_apart fun page hm he => h page.logical ?_
    rw [if_pos (by simp [hw, ht])]
    exact List.mem_map_of_mem (List.mem_filter.2 ⟨hm, by simpa using he⟩)
  · rw [if_neg ht]
    exact h p (by simp [ht])

theorem Steady.dots_concerned (h : Steady site t₀ pages) {x : Path × Watch.Event} (hp : IsPlaced site x.1) :
    ∀ p ∈ site.concerned pages x, "." ∉ p.segments := by
  intro p hm
  unfold concerned at hm
  split at hm
  · obtain ⟨page, hpage, rfl⟩ := List.mem_map.1 hm
    exact h.dots page (List.mem_filter.1 hpage).1
  · rw [List.mem_singleton] at hm
    exact hm ▸ hp.dots

/-- An event that writes is apart from one that concerns other outputs. -/
theorem eventArea_apart (h : Steady site t₀ pages) {x y : Path × Watch.Event} (hx : IsPlaced site x.1)
    (hy : IsPlaced site y.1) (hw : writes x.2 = true) (hc : Clashless site pages x y) :
    (site.eventArea pages x).Apart (site.eventArea pages y) := by
  have dotsX := h.dots_concerned hx
  have dotsY := h.dots_concerned hy
  refine eventArea_apart_of_writes hw fun p hp => ?_
  by_cases hw' : writes y.2 = true
  · exact (eventArea_apart_of_writes hw' fun q hq =>
      pathArea_apart (dotsY q hq) (dotsX p hp) fun o o' ho ho' =>
        (hc o' (mem_outputsOf hp ho') o (mem_outputsOf hq ho)).symm).symm
  · have single : y.1 ∈ site.concerned pages y := by simp [concerned, hw']
    have deletion : (site.pathArea p).Apart (site.deleteArea y.1) :=
      deleteArea_apart h.firm (dotsX p hp) fun o o' ho ho' =>
        hc o (mem_outputsOf hp ho) o' (mem_outputsOf single ho')
    obtain ⟨q, kind, isDir⟩ := y
    cases kind with
    | unlink => exact deletion
    | unlinkDir => exact deletion
    | add =>
      have dir : isDir = true := by simpa [writes] using hw'
      simpa [eventArea, dir] using (Area.Apart.none _).symm
    | change =>
      have dir : isDir = true := by simpa [writes] using hw'
      simpa [eventArea, dir] using (Area.Apart.none _).symm

theorem treeStep_of_dir {x : Path × Watch.Event} (hw : writes x.2 = false)
    (hk : x.2.kind = .add ∨ x.2.kind = .change) (t : FileTree) : site.treeStep pages t x = t := by
  obtain ⟨p, kind, isDir⟩ := x
  rcases hk with rfl | rfl
  · have dir : isDir = true := by simpa [writes] using hw
    simp [treeStep, update, dir, Step.still]
  · have dir : isDir = true := by simpa [writes] using hw
    simp [treeStep, update, dir, Step.still]

theorem treeStep_of_removal {p : Path} {e : Watch.Event} (hk : ¬ (e.kind = .add ∨ e.kind = .change))
    (t : FileTree) : site.treeStep pages t (p, e) = (site.deleteOutput t p (e.kind = .unlinkDir)).tree := by
  obtain ⟨kind, isDir⟩ := e
  cases kind with
  | unlink => rfl
  | unlinkDir => rfl
  | add => exact absurd (.inl rfl) hk
  | change => exact absurd (.inr rfl) hk

/-- Events can change places if they do not clash, or if none of the two writes. -/
theorem treeStep_comm (h : Steady site t₀ pages) {x y : Path × Watch.Event} (hx : IsPlaced site x.1)
    (hy : IsPlaced site y.1) (hc : writes x.2 = true ∨ writes y.2 = true → Clashless site pages x y)
    (ht : Varied site t₀ t) : Same (site.treeStep pages (site.treeStep pages t x) y)
      (site.treeStep pages (site.treeStep pages t y) x) := by
  have localX := local_treeStep h hx
  have localY := local_treeStep h hy
  by_cases hwx : writes x.2 = true
  · exact localX.commute localY (eventArea_apart h hx hy hwx (hc (.inl hwx))) ht
  by_cases hwy : writes y.2 = true
  · exact (localY.commute localX (eventArea_apart h hy hx hwy (hc (.inr hwy)).symm) ht).symm
  -- neither of them writes: each leaves the tree alone or deletes
  by_cases hkx : x.2.kind = .add ∨ x.2.kind = .change
  · have still := @treeStep_of_dir site pages x (by simpa using hwx) hkx
    rw [still, still]
    exact .refl _
  by_cases hky : y.2.kind = .add ∨ y.2.kind = .change
  · have still := @treeStep_of_dir site pages y (by simpa using hwy) hky
    rw [still, still]
    exact .refl _
  · obtain ⟨p, e⟩ := x
    obtain ⟨q, f⟩ := y
    simp only [treeStep_of_removal hkx, treeStep_of_removal hky]
    exact deleteOutput_comm h.firm h.plain hx hy _ _ ht

/-! ## Pages -/

/-- Which pages get an array is the same in all trees that differ in the output. -/
theorem Attaches.varied {page : Page} (ha : IsApart site page.template) (h : Attaches site t page)
    (ht : Varied site t₀ t) (ht' : Varied site t₀ t') : Attaches site t' page := by
  obtain ⟨hp, hq, items, found⟩ := attaches_iff.1 h
  rcases near_array ht ht' False.elim ha with he | ⟨-, f, f', hf, -, -⟩
  · exact attaches_iff.2 ⟨hp, hq, items, he.trans found⟩
  · rw [found] at hf; cases hf

theorem Attaches.congr {page page' : Page} (ht : page'.template = page.template)
    (hp : page'.place = page.place) (h : Attaches site t page') : Attaches site t page := by
  rw [attaches_iff] at h ⊢
  rwa [ht, hp] at h

/-- A page as it may have become: the array joined its data, or it is as it was. -/
structure Settled (site : Site) (t₀ : FileTree) (page page' : Page) : Prop where
  template : page'.template = page.template
  place : page'.place = page.place
  same : page' = page ∨ ∀ t, Varied site t₀ t → Attaches site t page

theorem Settled.refl (page : Page) : Settled site t₀ page page := ⟨rfl, rfl, .inl rfl⟩

theorem Settled.logical {page page' : Page} (h : Settled site t₀ page page') : page'.logical = page.logical := by
  rw [Page.logical, Page.logical, h.template, h.place]

theorem Settled.attached {page page' q : Page} (h : Settled site t₀ page page')
    (ha : IsApart site page.template) (ht : Varied site t₀ t) (hq : site.attached? t page' = .ok (some q)) :
    Settled site t₀ page q := by
  obtain ⟨template, place⟩ := page_of_attached hq
  refine ⟨template.trans h.template, place.trans h.place, .inr fun t' ht' => ?_⟩
  exact Attaches.varied ha (Attaches.congr h.template h.place ⟨q, hq⟩) ht ht'

/-- Nothing is written for a page that gets an array. -/
theorem renderPage_of_attached {page q : Page} (h : site.attached? t page = .ok (some q)) :
    site.renderPage t page = match page.output site.out site.ext with
      | .error fault => .still t [] (.error (.place fault))
      | .ok _ => .still t [] (.ok ⟨q, none⟩) := by
  unfold renderPage
  rewrite [h]
  rfl

/-- A page as it may have become leaves the same tree as it would have at first, and stops the work alike. -/
theorem renderPage_settled {page page' : Page} (h : Settled site t₀ page page')
    (ha : IsApart site page.template) (ht : Varied site t₀ t) :
    (site.renderPage t page').tree = (site.renderPage t page).tree ∧
      stops (site.renderPage t page').result = stops (site.renderPage t page).result ∧
      ∀ r, (site.renderPage t page').result = .ok r → Settled site t₀ page r.page := by
  have kept : ∀ r, (site.renderPage t page').result = .ok r → Settled site t₀ page r.page := by
    intro r hr
    rcases page_of_rendered hr with he | hq
    · exact he ▸ h
    · exact h.attached ha ht hq
  rcases h.same with rfl | attaches
  · exact ⟨rfl, rfl, kept⟩
  -- both get the array, so nothing is written
  obtain ⟨q, hq⟩ := attaches t ht
  obtain ⟨q', hq'⟩ := (show Attaches site t page' from .congr h.template.symm h.place.symm ⟨q, hq⟩)
  have output : page'.output site.out site.ext = page.output site.out site.ext := by
    rw [Page.output, Page.output, h.logical]
  have both : (site.renderPage t page').tree = (site.renderPage t page).tree ∧
      stops (site.renderPage t page').result = stops (site.renderPage t page).result := by
    rw [renderPage_of_attached hq, renderPage_of_attached hq', output]
    cases page.output site.out site.ext <;> exact ⟨rfl, rfl⟩
  exact ⟨both.1, both.2, kept⟩

/-- To render the pages of a template leaves the same tree whatever became of them before. -/
theorem renderTemplate_settled (hd : Path.Plain site.dir.segments) {p : Path} (hp : IsPlaced site p)
    {pages' : List Page} (hs : List.Forall₂ (Settled site t₀) pages pages')
    (hl : ∀ page ∈ pages, "." ∉ page.logical.segments) (ha : ∀ page ∈ pages, IsApart site page.template)
    (ht : Varied site t₀ t) :
    (site.renderTemplate p t pages').tree = (site.renderTemplate p t pages).tree ∧
      ∀ ps, (site.renderTemplate p t pages').result = .ok ps → List.Forall₂ (Settled site t₀) pages ps := by
  induction hs generalizing t with
  | nil => exact ⟨rfl, fun ps h => by cases h; exact .nil⟩
  | @cons page page' pages pages' h hs ih =>
    have rest := fun {u} => @ih u
      (fun q hq => hl q (List.mem_cons_of_mem _ hq)) (fun q hq => ha q (List.mem_cons_of_mem _ hq))
    by_cases hpage : page.template = p
    · have apart := ha page List.mem_cons_self
      obtain ⟨tree, stop, kept⟩ := renderPage_settled h apart ht
      have first : Varied site t₀ (site.renderPage t page).tree :=
        (local_renderPage ground_varied id False.elim hd (hl page List.mem_cons_self)
          (by rw [hpage]; exact hp.isRead) apart : Local _ _ (Near Fault.Alike False) _).keeps ht
      obtain ⟨restTree, restKept⟩ := rest first
      refine ⟨?_, fun ps hps => ?_⟩
      · rw [renderTemplate_tree hpage, renderTemplate_tree (h.template.trans hpage), tree, stop, restTree]
      · rw [renderTemplate, if_neg (by simpa using h.template.trans hpage)] at hps
        dsimp only at hps
        rw [tree] at hps
        cases hr : (site.renderPage t page').result with
        | ok r =>
          rw [hr] at hps
          dsimp only at hps
          obtain ⟨qs, hqs, rfl⟩ := exists_of_map_eq_ok hps
          exact .cons (kept r hr) (restKept qs hqs)
        | error fault =>
          rw [hr] at hps
          dsimp only at hps
          split at hps
          · obtain ⟨qs, hqs, rfl⟩ := exists_of_map_eq_ok hps
            exact .cons h (restKept qs hqs)
          · cases hps
    · obtain ⟨restTree, restKept⟩ := rest ht
      have hpage' : page'.template ≠ p := h.template ▸ hpage
      refine ⟨?_, fun ps hps => ?_⟩
      · rw [renderTemplate, renderTemplate, if_pos hpage, if_pos hpage']
        exact restTree
      · rw [renderTemplate, if_pos hpage'] at hps
        obtain ⟨qs, hqs, rfl⟩ := exists_of_map_eq_ok hps
        exact .cons h (restKept qs hqs)

/-! ## Events in turn -/

theorem result_of_map {α β : Type} {f : α → β} {step : Step α} {b : β} (h : (step.map f).result = .ok b) :
    ∃ a, f a = b := by
  obtain ⟨a, -, ha⟩ := exists_of_map_eq_ok (r := step.result) h
  exact ⟨a, ha⟩

theorem update_settled (h : Steady site t₀ pages) {pages' : List Page}
    (hs : List.Forall₂ (Settled site t₀) pages pages') {p : Path} (hp : IsPlaced site p) (e : Watch.Event)
    (ht : Varied site t₀ t) :
    (site.update t pages' p e).tree = site.treeStep pages t (p, e) ∧
      ∀ ps, (site.update t pages' p e).result = .ok ps → List.Forall₂ (Settled site t₀) pages ps := by
  -- what neither renders nor fails gives the pages back
  have kept : ∀ {α : Type} (step : Step α) ps, (step.map fun _ => pages').result = .ok ps →
      List.Forall₂ (Settled site t₀) pages ps := fun step ps hr => by
    obtain ⟨-, rfl⟩ := result_of_map hr
    exact hs
  have written : ∀ isDir : Bool,
      (site.update t pages' p ⟨.add, isDir⟩).tree = (site.update t pages p ⟨.add, isDir⟩).tree ∧
        ∀ ps, (site.update t pages' p ⟨.add, isDir⟩).result = .ok ps →
          List.Forall₂ (Settled site t₀) pages ps := fun isDir => by
    unfold update
    dsimp only
    split
    · exact ⟨rfl, fun ps hr => by cases hr; exact hs⟩
    · split
      · exact renderTemplate_settled h.plain hp hs h.dots h.apart ht
      · exact ⟨rfl, kept _⟩
  obtain ⟨kind, isDir⟩ := e
  cases kind with
  | add => exact written isDir
  | change => exact written isDir
  | unlink => exact ⟨rfl, kept _⟩
  | unlinkDir => exact ⟨rfl, kept _⟩

theorem applyEvent_settled (h : Steady site t₀ pages) {pages' : List Page}
    (hs : List.Forall₂ (Settled site t₀) pages pages') {p : Path} (hp : IsPlaced site p) (e : Watch.Event)
    (ht : Varied site t₀ t) :
    (Watch.applyEvent site t pages' p e).tree = site.treeStep pages t (p, e) ∧
      List.Forall₂ (Settled site t₀) pages (Watch.applyEvent site t pages' p e).pages := by
  obtain ⟨tree, kept⟩ := update_settled h hs hp e ht
  unfold Watch.applyEvent
  dsimp only
  cases hr : (site.update t pages' p e).result with
  | ok ps => exact ⟨tree, kept ps hr⟩
  | error fault => exact ⟨tree, hs⟩

/-- The tree after events in turn does not depend on what became of the pages between them. -/
theorem applyEvents_tree (h : Steady site t₀ pages) {pages' : List Page}
    (hs : List.Forall₂ (Settled site t₀) pages pages') {log : List (Path × Watch.Event)}
    (hp : ∀ x ∈ log, IsPlaced site x.1) (ht : Varied site t₀ t) :
    (Watch.applyEvents site t pages' log).tree = log.foldl (site.treeStep pages) t := by
  induction log generalizing t pages' with
  | nil => rfl
  | cons x log ih =>
    have first := hp x List.mem_cons_self
    obtain ⟨tree, settled⟩ := applyEvent_settled h hs first x.2 ht
    have varied : Varied site t₀ (site.treeStep pages t x) := (local_treeStep h first).keeps ht
    have rest := ih settled (fun y hy => hp y (List.mem_cons_of_mem _ hy)) (tree ▸ varied)
    rw [List.foldl_cons, ← tree]
    exact rest

end Site

end StaticSite
