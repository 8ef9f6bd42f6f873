import Mathlib.Logic.Relation
import StaticSite.Proofs.Site.Confined
import StaticSite.Proofs.Watch.Interleaving

/-!
# A session keeps to the output

A session changes files strictly below the output root only, and no event of such a file gets in, so it never
answers to what it did itself (`Live.keeps_to_output`). Behind this is `Fenced`: all events that wait, are worked
on or are done with are those of paths outside of the output. Others may change the files at any time, and events
may come from the observer or be submitted directly.
-/

namespace StaticSite

open FileTree (Same)

namespace Site

variable {site : Site} {t : FileTree} {pages : List Page}

/-! ## One event -/

theorem logical_of_rendered {page : Page} {r : Rendered} (h : (site.renderPage t page).result = .ok r) :
    r.page.logical = page.logical := by
  rcases page_of_rendered h with he | ha
  · rw [he]
  · obtain ⟨template, place⟩ := page_of_attached ha
    rw [Page.logical, Page.logical, template, place]

theorem confined_renderTemplate (hd : Dotless pages) (p : Path) (t : FileTree) :
    Confined site t (site.renderTemplate p t pages).tree := by
  induction pages generalizing t with
  | nil => exact .refl _ _
  | cons page pages ih =>
    have rest := ih fun q hq => hd q (List.mem_cons_of_mem _ hq)
    by_cases hp : page.template = p
    · rw [renderTemplate_tree hp]
      have first : Confined site t (site.renderPage t page).tree :=
        confined_renderPage (hd page List.mem_cons_self) t
      split
      · exact first
      · exact first.trans (rest _)
    · rw [renderTemplate, if_pos hp]
      exact rest t

theorem dotless_renderTemplate (hd : Dotless pages) {p : Path} {ps : List Page}
    (h : (site.renderTemplate p t pages).result = .ok ps) : Dotless ps := by
  induction pages generalizing t ps with
  | nil => cases h; exact hd
  | cons page pages ih =>
    have rest := fun {u qs} => @ih u (fun q hq => hd q (List.mem_cons_of_mem _ hq)) qs
    have cons : ∀ {q : Page} {qs}, q.logical = page.logical → Dotless qs → Dotless (q :: qs) := by
      intro q qs hq hqs r hr
      rcases List.mem_cons.1 hr with rfl | hr
      · rw [hq]; exact hd page List.mem_cons_self
      · exact hqs r hr
    rw [renderTemplate] at h
    split at h
    · obtain ⟨qs, hqs, rfl⟩ := exists_of_map_eq_ok h
      exact cons rfl (rest hqs)
    · dsimp only at h
      cases hr : (site.renderPage t page).result with
      | ok r =>
        rw [hr] at h
        obtain ⟨qs, hqs, rfl⟩ := exists_of_map_eq_ok h
        exact cons (logical_of_rendered hr) (rest hqs)
      | error fault =>
        rw [hr] at h
        dsimp only at h
        split at h
        · obtain ⟨qs, hqs, rfl⟩ := exists_of_map_eq_ok h
          exact cons rfl (rest hqs)
        · cases h

/-- To handle an event changes files strictly below the output root only, and leaves pages where they are. -/
theorem confined_applyEvent (hd : Dotless pages) {p : Path} (hp : IsPlaced site p) (e : Watch.Event)
    (t : FileTree) : Confined site t (Watch.applyEvent site t pages p e).tree ∧
      Dotless (Watch.applyEvent site t pages p e).pages := by
  have tree : (Watch.applyEvent site t pages p e).tree = (site.update t pages p e).tree := by
    unfold Watch.applyEvent
    dsimp only
    split <;> rfl
  have updated : Confined site t (site.update t pages p e).tree ∧
      ∀ ps, (site.update t pages p e).result = .ok ps → Dotless ps := by
    have kept : ∀ {α : Type} (step : Step α) ps, (step.map fun _ => pages).result = .ok ps → Dotless ps :=
      fun step ps hr => by
        obtain ⟨-, rfl⟩ := result_of_map hr
        exact hd
    have written : ∀ isDir : Bool, Confined site t (site.update t pages p ⟨.add, isDir⟩).tree ∧
        ∀ ps, (site.update t pages p ⟨.add, isDir⟩).result = .ok ps → Dotless ps := fun isDir => by
      unfold update
      dsimp only
      split
      · exact ⟨.refl _ _, fun ps hr => by cases hr; exact hd⟩
      · split
        · exact ⟨confined_renderTemplate hd p t, fun ps hr => dotless_renderTemplate hd hr⟩
        · exact ⟨confined_copyAsset hp.dots hp.notOutput t, kept _⟩
    obtain ⟨kind, isDir⟩ := e
    cases kind with
    | add => exact written isDir
    | change => exact written isDir
    | unlink => exact ⟨confined_deleteOutput hp.dots t false, kept _⟩
    | unlinkDir => exact ⟨confined_deleteOutput hp.dots t true, kept _⟩
  refine ⟨tree ▸ updated.1, ?_⟩
  unfold Watch.applyEvent
  dsimp only
  cases hr : (site.update t pages p e).result with
  | ok ps => exact updated.2 ps hr
  | error fault => exact hd

/-- What is at or below the output root is output, however its path is written. -/
theorem isOutput_of_prefix {p : Path} (h : site.outLocation <+: (Path.resolve site.dir p).segments) :
    site.isOutput p = true := by
  by_contra hn
  exact outside_of_not_output (by simpa using hn) h

end Site

namespace Watch

/-- No event at a file of the output gets a place. -/
theorem Session.place?_of_output {s : Session} {path : String}
    (h : s.site.outLocation <+: (Path.resolve s.site.dir (Path.ofString path)).segments) :
    s.place? path = none := by
  -- seen from the project an absolute path leads to the same location
  have seen : ∀ {p q : Path}, p.isAbsolute = true → p.relativeTo? s.site.dir = some q →
      Path.resolve s.site.dir q = Path.resolve s.site.dir p := by
    intro p q habs hq
    unfold Path.relativeTo? at hq
    split at hq
    · next hp =>
      obtain rfl := Option.some.inj hq
      obtain ⟨rest, hrest⟩ := List.isPrefixOf_iff_prefix.1 hp.2
      have whole : s.site.dir.segments ++ p.segments.drop s.site.dir.segments.length = p.segments := by
        rw [← hrest, List.drop_left]
      have own : s.site.dir / p = p := by simp [HDiv.hDiv, Div.div, Path.join, habs]
      rw [Path.resolve, Path.resolve, Path.segments_div_ofSegments, whole, own]
    · cases hq
  unfold place?
  dsimp only
  split
  · next habs =>
    cases hq : (Path.ofString path).relativeTo? s.site.dir with
    | none => rfl
    | some q =>
      rw [← seen habs hq] at h
      simp [Site.isOutput_of_prefix h]
  · simp [Site.isOutput_of_prefix h]

namespace Live

variable {n : Nat} {ε : Type}

/-! ## Sessions -/

/-- A session acts: one of its threads takes a step, or an event is submitted to it directly. -/
inductive Acts (h : Handler Applied ε) (m : Live n Applied) : Live n Applied → Prop where
  | step {m' : Live n Applied} (a : Action n) (taken : m.step h a = some m') : Acts h m m'
  | submit (path : String) (e : Event) (free : m.hand = .free) :
      Acts h m { m with hand := .ofPlace e (m.session.admit? path) }

/-- What may happen while a session is at work: it acts, or others change the files. -/
inductive Happens (h : Handler Applied ε) (m : Live n Applied) : Live n Applied → Prop where
  | acts {m' : Live n Applied} (act : Acts h m m') : Happens h m m'
  | others (t : FileTree) : Happens h m { m with world.tree := t }

/-- All that a session works on stays outside of the output. -/
structure Fenced (site : Site) (m : Live n Applied) : Prop where
  pages : Site.Dotless m.world.pages
  hand : ∀ p e, m.hand = .letIn p e → Site.IsPlaced site p
  queues : ∀ p e rest, m.session.queues.get? p = some (e :: rest) → Site.IsPlaced site p
  workers : ∀ i p e, m.workers i = .handling p e → Site.IsPlaced site p
  accepted : ∀ x ∈ m.accepted, Site.IsPlaced site x.1
  taken : ∀ x ∈ m.taken, Site.IsPlaced site x.1
  site : m.session.site = site

variable {site : Site} {m m' : Live n Applied}

theorem Fenced.of_start {session : Session} (hq : session.queues = []) {w : Applied}
    (hd : Site.Dotless w.pages) : Fenced session.site (ofSession n session w) where
  pages := hd
  hand p e h := by cases h
  queues p e rest h := by simp [ofSession, hq, Queues.get?] at h
  workers i p e h := by cases h
  accepted x h := by cases h
  taken x h := by cases h
  site := rfl

/-- An event that is let in has its place outside of the output. -/
theorem Fenced.letIn (hm : Fenced site m) {path : String} {e f : Event} {p : Path}
    (h : Hand.ofPlace e (m.session.admit? path) = .letIn p f) : Site.IsPlaced site p := by
  unfold Session.admit? at h
  split at h
  · cases hp : m.session.place? path with
    | none => rw [hp] at h; cases h
    | some q =>
      rw [hp] at h
      cases h
      exact hm.site ▸ Session.isPlaced hp
  · cases h

theorem Fenced.accept (hm : Fenced site m) {p : Path} {e : Event} (hand : m.hand = .letIn p e) :
    Fenced site (m.accept p e) := by
  have placed := hm.hand p e hand
  refine ⟨hm.pages, fun q f h => ?_, fun q f rest h => ?_, hm.workers, fun x hx => ?_, hm.taken, hm.site⟩
  · unfold Live.accept at h
    dsimp only at h
    split at h <;> cases h
  · have get := Queues.get?_push p q e m.session.queues
    by_cases hq : q = p
    · exact hq ▸ placed
    · rw [if_neg hq] at get
      exact hm.queues q f rest (get ▸ h)
  · rcases List.mem_append.1 hx with hx | hx
    · exact hm.accepted x hx
    · rw [List.mem_singleton.1 hx]
      exact placed

theorem Fenced.look (hm : Fenced site m) {i : Fin n} (p : Path) : Fenced site (m.look i p) := by
  -- a worker that comes to an end or to an idle state handles nothing
  have others : ∀ {w : Worker}, (∀ q f, w ≠ .handling q f) → ∀ j q f,
      setWorker m.workers i w j = .handling q f → Site.IsPlaced site q := fun hw j q f h => by
    rcases setWorker_eq_handling.1 h with ⟨-, hw'⟩ | ⟨-, hj⟩
    · exact absurd hw' (hw q f)
    · exact hm.workers j q f hj
  unfold Live.look
  split
  · exact ⟨hm.pages, hm.hand, hm.queues, others (by simp), hm.accepted, hm.taken, hm.site⟩
  · refine ⟨hm.pages, hm.hand, fun q f rest h => ?_, others (by simp), hm.accepted, hm.taken, hm.site⟩
    dsimp only at h
    rw [Queues.get?_close] at h
    split at h
    · cases h
    · exact hm.queues q f rest h
  · next e es hq =>
    have placed := hm.queues p e es hq
    refine ⟨hm.pages, hm.hand, fun q f rest h => ?_, fun j q f h => ?_, hm.accepted, fun x hx => ?_, hm.site⟩
    · dsimp only at h
      rw [Queues.get?_dropFirst] at h
      split at h
      · next he => exact he ▸ placed
      · exact hm.queues q f rest h
    · rcases setWorker_eq_handling.1 h with ⟨-, hw⟩ | ⟨-, hj⟩
      · cases hw; exact placed
      · exact hm.workers j q f hj
    · rcases List.mem_append.1 hx with hx | hx
      · exact hm.taken x hx
      · rw [List.mem_singleton.1 hx]
        exact placed

theorem Fenced.complete (hm : Fenced site m) {i : Fin n} {p : Path} {e : Event}
    (busy : m.workers i = .handling p e) : Fenced site (m.complete (siteHandler site) i p e) := by
  refine ⟨?_, hm.hand, hm.queues, fun j q f h => ?_, hm.accepted, hm.taken, hm.site⟩
  · rw [Live.complete, apply_siteHandler]
    exact (Site.confined_applyEvent hm.pages (hm.workers i p e busy) e m.world.tree).2
  · rcases setWorker_eq_handling.1 h with ⟨-, hw⟩ | ⟨-, hj⟩
    · cases hw
    · exact hm.workers j q f hj

/-- The fence stands after every step. -/
theorem Fenced.move {a : Action n} (hm : Fenced site m) (hs : Move (siteHandler site) m a m') :
    Fenced site m' := by
  cases hs with
  | receive notice hand done fed => exact ⟨hm.pages, hm.hand, hm.queues, hm.workers, hm.accepted, hm.taken, hm.site⟩
  | submit path e rest hand next =>
    unfold consider
    split
    · exact ⟨hm.pages, hm.hand, hm.queues, hm.workers, hm.accepted, hm.taken, hm.site⟩
    · exact ⟨hm.pages, hm.hand, hm.queues, hm.workers, hm.accepted, hm.taken, hm.site⟩
    · exact ⟨hm.pages, fun p f h => hm.letIn h, hm.queues, hm.workers, hm.accepted, hm.taken, hm.site⟩
  | enqueue p e hand => exact hm.accept hand
  | schedule p hand =>
    exact ⟨hm.pages, fun q f h => (nomatch h), hm.queues, hm.workers, hm.accepted, hm.taken, hm.site⟩
  | endFeed hand done => exact ⟨hm.pages, hm.hand, hm.queues, hm.workers, hm.accepted, hm.taken, hm.site⟩
  | begin i p rest idle next =>
    refine ⟨hm.pages, hm.hand, hm.queues, fun j q f h => ?_, hm.accepted, hm.taken, hm.site⟩
    rcases setWorker_eq_handling.1 h with ⟨-, hw⟩ | ⟨-, hj⟩
    · cases hw
    · exact hm.workers j q f hj
  | next i p at_ => exact hm.look p
  | finish i p e busy => exact hm.complete busy
  | stop stage state => exact ⟨hm.pages, hm.hand, hm.queues, hm.workers, hm.accepted, hm.taken, hm.site⟩
  | join stage unfed => exact ⟨hm.pages, hm.hand, hm.queues, hm.workers, hm.accepted, hm.taken, hm.site⟩
  | «return» stage none idle =>
    exact ⟨hm.pages, hm.hand, hm.queues, hm.workers, hm.accepted, hm.taken, hm.site⟩

theorem Fenced.acts (hm : Fenced site m) (ha : Acts (siteHandler site) m m') : Fenced site m' := by
  cases ha with
  | step a taken => exact hm.move (move_of_step taken)
  | submit path e free =>
    exact ⟨hm.pages, fun p f h => hm.letIn h, hm.queues, hm.workers, hm.accepted, hm.taken, hm.site⟩

theorem Fenced.happens (hm : Fenced site m) (hh : Happens (siteHandler site) m m') : Fenced site m' := by
  cases hh with
  | acts act => exact hm.acts act
  | others t => exact ⟨hm.pages, hm.hand, hm.queues, hm.workers, hm.accepted, hm.taken, hm.site⟩

theorem Fenced.later (hm : Fenced site m) (hh : Relation.ReflTransGen (Happens (siteHandler site)) m m') :
    Fenced site m' := by
  induction hh with
  | refl => exact hm
  | tail _ last ih => exact ih.happens last

/-! ## What a session changes -/

/-- Only the end of the work on an event changes files. -/
theorem world_of_move {h : Handler Applied ε} {a : Action n} (hs : Move h m a m') :
    m'.world = m.world ∨ ∃ i p e, m.workers i = .handling p e ∧ m'.world = h.apply m.world p e := by
  cases hs with
  | finish i p e busy => exact .inr ⟨i, p, e, busy, rfl⟩
  | submit path e rest hand next => unfold consider; split <;> exact .inl rfl
  | next i p at_ => unfold look; split <;> exact .inl rfl
  | _ => exact .inl rfl

theorem Fenced.confined_acts (hm : Fenced site m) (ha : Acts (siteHandler site) m m') :
    Site.Confined site m.world.tree m'.world.tree := by
  cases ha with
  | submit path e free => exact .refl _ _
  | step a taken =>
    rcases world_of_move (move_of_step taken) with he | ⟨i, p, e, busy, he⟩
    · rw [he]
      exact .refl _ _
    · rw [he, apply_siteHandler]
      exact (Site.confined_applyEvent hm.pages (hm.workers i p e busy) e m.world.tree).1

theorem Fenced.confined (hm : Fenced site m) (hh : Relation.ReflTransGen (Acts (siteHandler site)) m m') :
    Fenced site m' ∧ Site.Confined site m.world.tree m'.world.tree := by
  induction hh with
  | refl => exact ⟨hm, .refl _ _⟩
  | tail _ last ih => exact ⟨ih.1.acts last, ih.2.trans (ih.1.confined_acts last)⟩

/-- From every state that a session comes to, whatever it then acts on: all files that it makes, changes or takes
away lie strictly below the output root, and whatever happens later, an event of such a file is not let in,
and none was ever put into a queue or handled. -/
theorem keeps_to_output {session : Session} (hq : session.queues = []) {w : Applied} (hd : Site.Dotless w.pages)
    (reached : Relation.ReflTransGen (Happens (siteHandler session.site)) (ofSession n session w) m)
    (acted : Relation.ReflTransGen (Acts (siteHandler session.site)) m m') :
    Site.Confined session.site m.world.tree m'.world.tree ∧
    ∀ l, FileTree.Touched m.world.tree m'.world.tree l → Site.IsInside session.site l ∧
      ∀ later, Relation.ReflTransGen (Happens (siteHandler session.site)) m' later →
        (∀ path, (Path.resolve session.site.dir (Path.ofString path)).segments = l →
          later.session.admit? path = none ∧ ∀ e, later.session.submit path e = later.session) ∧
        ∀ x ∈ later.accepted ++ later.taken, (Path.resolve session.site.dir x.1).segments ≠ l := by
  have start : Fenced session.site (ofSession n session w) := .of_start hq hd
  obtain ⟨fenced, confined⟩ := (start.later reached).confined acted
  refine ⟨confined, fun l touched => ?_⟩
  have inside := confined.part_of_touched touched
  refine ⟨inside, fun later happened => ?_⟩
  have hlater := fenced.later happened
  refine ⟨fun path hpath => ?_, fun x hx he => ?_⟩
  · have none : later.session.admit? path = none := by
      unfold Session.admit?
      split
      · refine Session.place?_of_output ?_
        rw [hlater.site, hpath]
        exact inside.1
      · rfl
    refine ⟨none, fun e => ?_⟩
    rw [Session.submit, none]
  · have placed : Site.IsPlaced session.site x.1 := by
      rcases List.mem_append.1 hx with hx | hx
      · exact hlater.accepted x hx
      · exact hlater.taken x hx
    have output : session.site.isOutput x.1 = true := Site.isOutput_of_prefix (he ▸ inside.1)
    rw [placed.notOutput] at output
    cases output

theorem acts_of_run {h : Handler Applied ε} {as : List (Action n)} (hr : m.run h as = some m') :
    Relation.ReflTransGen (Acts h) m m' := by
  induction as generalizing m with
  | nil => cases hr; exact .refl
  | cons a as ih =>
    obtain ⟨m1, hs, hr⟩ := Option.bind_eq_some_iff.1 hr
    exact .head (.step a hs) (ih hr)

/-- Two events are handled. The file that one of them leaves may be told of in several ways, none of which gets
in. -/
theorem keeps_to_output_small : ∃ m,
    crossed (0 : Fin 2) 1 Site.smallTree (Path.ofString "dist") ⟨.modified "site/c.css", false⟩
      ⟨.modified "site/a/x.j2", false⟩ = some m ∧ m.session.state = .watching ∧
    FileTree.Touched Site.smallTree m.world.tree ["p", "dist", "c.css"] ∧
    ∀ path ∈ ["dist/c.css", "/p/dist/c.css", "site/../dist/c.css"], m.session.admit? path = none := by
  have ends : (crossed (0 : Fin 2) 1 Site.smallTree (Path.ofString "dist") ⟨.modified "site/c.css", false⟩
      ⟨.modified "site/a/x.j2", false⟩).map (fun m => (m.session.state,
        m.world.tree.hasFile ["p", "dist", "c.css"])) = some (.watching, true) := by
    decide +kernel
  obtain ⟨m, hr, found⟩ := Option.map_eq_some_iff.1 ends
  obtain ⟨watching, there⟩ := Prod.mk.inj found
  have touched : FileTree.Touched Site.smallTree m.world.tree ["p", "dist", "c.css"] := by
    obtain ⟨content, hc⟩ := FileTree.hasFile_iff.1 there
    have before : Site.smallTree.get? ["p", "dist", "c.css"] = none := by decide +kernel
    exact ⟨content, by simp [hc, before]⟩
  have dotless : Site.Dotless Site.smallPages := by unfold Site.Dotless; decide
  have reached : Relation.ReflTransGen (Happens (siteHandler (smallWatch (Path.ofString "dist")).site))
      (ofSession 2 (smallWatch (Path.ofString "dist")) ⟨Site.smallTree, Site.smallPages, []⟩) _ := .refl
  have kept := (keeps_to_output (by decide) dotless reached (acts_of_run hr)).2 _ touched
  refine ⟨m, hr, watching, touched, fun path hpath => ((kept.2 m .refl).1 path ?_).1⟩
  simp only [List.mem_cons, List.not_mem_nil, or_false] at hpath
  rcases hpath with rfl | rfl | rfl <;> decide +kernel

end Live

end Watch

end StaticSite
