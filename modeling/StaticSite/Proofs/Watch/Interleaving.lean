import Mathlib.Data.List.Perm.Subperm
import StaticSite.Proofs.Site.AnyOrder
import StaticSite.Proofs.Watch.Order
import StaticSite.Proofs.Watch.Updating

/-!
# Events of different paths in any order

The workers of a session keep the order of the events of each path and no other order. Logs that agree on every
path leave the same tree if events of different paths can change places (`Swappable.same_of_eventsAt`). What is
handled agrees with what was accepted on every path, so the tree is the one that the events leave in the order in
which they came, unless outputs that one event writes are in the way of another (`run_any_order`).
-/

namespace StaticSite.Watch

open FileTree (Same IsTree)

/-! ## Logs that agree on every path -/

theorem eventsAt_cons_self (x : Path × Event) (log : List (Path × Event)) :
    eventsAt x.1 (x :: log) = x.2 :: eventsAt x.1 log := by simp [eventsAt]

theorem eventsAt_cons_other {p : Path} {x : Path × Event} (h : x.1 ≠ p) (log : List (Path × Event)) :
    eventsAt p (x :: log) = eventsAt p log := by simp [eventsAt, h]

theorem eventsAt_eq_nil {p : Path} {log : List (Path × Event)} (h : eventsAt p log = []) :
    ∀ x ∈ log, x.1 ≠ p := by
  intro x hx hp
  have found : x.2 ∈ eventsAt p log := List.mem_map_of_mem (List.mem_filter.2 ⟨hx, by simpa using hp⟩)
  rw [h] at found
  cases found

/-- The first event of a path, with what comes before and after it in the log. -/
theorem exists_first {p : Path} {e : Event} {es : List Event} :
    ∀ {log : List (Path × Event)}, eventsAt p log = e :: es →
      ∃ before after, log = before ++ (p, e) :: after ∧ eventsAt p before = [] ∧ eventsAt p after = es
  | [], h => by cases h
  | x :: log, h => by
    by_cases hp : x.1 = p
    · subst hp
      rw [eventsAt_cons_self] at h
      obtain ⟨he, hes⟩ := List.cons.inj h
      exact ⟨[], log, by rw [← he]; rfl, rfl, hes⟩
    · rw [eventsAt_cons_other hp] at h
      obtain ⟨before, after, rfl, hb, ha⟩ := exists_first h
      exact ⟨x :: before, after, rfl, by rw [eventsAt_cons_other hp, hb], ha⟩

section
variable {K : FileTree → Prop} {step : FileTree → Path × Event → FileTree} {log log' : List (Path × Event)}
  {t t' : FileTree}

/-- The events of a log keep to the trees of the class `K`, and those of different paths can change places. -/
structure Swappable (K : FileTree → Prop) (step : FileTree → Path × Event → FileTree)
    (log : List (Path × Event)) : Prop where
  keeps : ∀ x ∈ log, ∀ {t}, K t → K (step t x)
  same : ∀ x ∈ log, ∀ {t t'}, K t → K t' → Same t t' → Same (step t x) (step t' x)
  swap : ∀ x ∈ log, ∀ y ∈ log, x.1 ≠ y.1 → ∀ {t}, K t → Same (step (step t x) y) (step (step t y) x)

theorem Swappable.mono (h : Swappable K step log) (hl : ∀ x ∈ log', x ∈ log) : Swappable K step log' where
  keeps x hx := h.keeps x (hl x hx)
  same x hx := h.same x (hl x hx)
  swap x hx y hy := h.swap x (hl x hx) y (hl y hy)

theorem Swappable.keeps_foldl (h : Swappable K step log) (ht : K t) : K (log.foldl step t) := by
  induction log generalizing t with
  | nil => exact ht
  | cons x log ih =>
    exact ih (h.mono fun y hy => List.mem_cons_of_mem _ hy) (h.keeps x List.mem_cons_self ht)

theorem Swappable.same_foldl (h : Swappable K step log) (ht : K t) (ht' : K t') (same : Same t t') :
    Same (log.foldl step t) (log.foldl step t') := by
  induction log generalizing t t' with
  | nil => exact same
  | cons x log ih =>
    have hx := List.mem_cons_self (a := x) (l := log)
    exact ih (h.mono fun y hy => List.mem_cons_of_mem _ hy) (h.keeps x hx ht) (h.keeps x hx ht')
      (h.same x hx ht ht' same)

/-- An event can be moved before events of other paths. -/
theorem Swappable.toFront {x : Path × Event} (h : Swappable K step (x :: log)) (hx : ∀ y ∈ log, y.1 ≠ x.1)
    (ht : K t) : Same (log.foldl step (step t x)) (step (log.foldl step t) x) := by
  induction log generalizing t with
  | nil => exact .refl _
  | cons y log ih =>
    have mx : x ∈ x :: y :: log := List.mem_cons_self
    have my : y ∈ x :: y :: log := List.mem_cons_of_mem _ List.mem_cons_self
    have swapped := h.swap x mx y my (hx y List.mem_cons_self).symm ht
    have past : Same (log.foldl step (step (step t x) y)) (log.foldl step (step (step t y) x)) :=
      (h.mono fun z hz => List.mem_cons_of_mem _ (List.mem_cons_of_mem _ hz)).same_foldl
        (h.keeps y my (h.keeps x mx ht)) (h.keeps x mx (h.keeps y my ht)) swapped
    have rest := ih (h.mono fun z hz => by
      rcases List.mem_cons.1 hz with rfl | hz
      · exact mx
      · exact List.mem_cons_of_mem _ (List.mem_cons_of_mem _ hz))
      (fun z hz => hx z (List.mem_cons_of_mem _ hz)) (h.keeps y my ht)
    exact past.trans rest

/-- Logs that agree on every path leave the same tree if events of different paths can change places. -/
theorem Swappable.same_of_eventsAt (h : Swappable K step log)
    (agree : ∀ p, eventsAt p log' = eventsAt p log) (ht : K t) :
    Same (log.foldl step t) (log'.foldl step t) := by
  induction log generalizing t log' with
  | nil =>
    have none : log' = [] := List.perm_nil.1 (perm_of_eventsAt agree)
    subst none
    exact .refl _
  | cons x log ih =>
    -- the first event comes later in the other log, after events of other paths only
    have perm := perm_of_eventsAt agree
    have there := agree x.1
    rw [eventsAt_cons_self] at there
    obtain ⟨before, after, rfl, none, rest⟩ := exists_first there
    have agree' : ∀ p, eventsAt p (before ++ after) = eventsAt p log := fun p => by
      by_cases hp : x.1 = p
      · subst hp
        rw [eventsAt_append, none, rest]
        rfl
      · have all := agree p
        rw [eventsAt_append, eventsAt_cons_other hp, eventsAt_cons_other hp] at all
        rw [eventsAt_append, all]
    have others : ∀ y ∈ before, y.1 ≠ x.1 := eventsAt_eq_nil none
    have mx : x ∈ x :: log := List.mem_cons_self
    have mem : ∀ y ∈ before ++ x :: after, y ∈ x :: log := fun y hy => perm.mem_iff.1 hy
    have hb : Swappable K step (x :: before) := h.mono fun y hy => mem y <| by
      rcases List.mem_cons.1 hy with rfl | hy
      · simp
      · exact List.mem_append_left _ hy
    have ha : Swappable K step after := h.mono fun y hy => mem y (by simp [hy])
    have hbefore : Swappable K step before := hb.mono fun y hy => List.mem_cons_of_mem _ hy
    have moved : Same ((before ++ after).foldl step (step t x)) ((before ++ x :: after).foldl step t) := by
      rw [List.foldl_append, List.foldl_append, List.foldl_cons]
      exact ha.same_foldl (hbefore.keeps_foldl (h.keeps x mx ht))
        (h.keeps x mx (hbefore.keeps_foldl ht)) (hb.toFront others ht)
    have rest' := ih (h.mono fun y hy => List.mem_cons_of_mem _ hy) agree' (h.keeps x mx ht)
    exact rest'.trans moved

end

/-! ## What was handled -/

namespace Live

variable {W ε : Type} {n : Nat}

theorem Logged.handled_prefix {m : Live n W} (hm : m.Logged) (p : Path) :
    eventsAt p m.handled <+: eventsAt p m.accepted := by
  have handled : eventsAt p m.handled <+: eventsAt p m.taken := by
    by_cases hb : ∃ i e, m.workers i = .handling p e
    · obtain ⟨i, e, busy⟩ := hb
      rw [hm.busy p i e busy]
      exact List.prefix_append _ _
    · rw [hm.free p fun i e h => hb ⟨i, e, h⟩]
  rw [hm.waiting p]
  exact handled.trans (List.prefix_append _ _)

/-- As many events handled as accepted: then all are, on every path in the order in which they were accepted. -/
theorem Logged.handled_all {m : Live n W} (hm : m.Logged) (all : m.handled.length = m.accepted.length)
    (p : Path) : eventsAt p m.handled = eventsAt p m.accepted := by
  have counts : ∀ x ∈ m.handled, m.handled.count x ≤ m.accepted.count x := fun x _ => by
    rw [← count_eventsAt x.1 x.2, ← count_eventsAt x.1 x.2]
    exact (hm.handled_prefix x.1).count_le x.2
  have perm : m.handled.Perm m.accepted := (List.subperm_ext_iff.2 counts).perm_of_length_le all.ge
  have lengths : (eventsAt p m.handled).length = (eventsAt p m.accepted).length :=
    ((perm.filter _).map _).length_eq
  exact (hm.handled_prefix p).eq_of_length lengths

end Live

/-! ## Where events are -/

theorem Session.isPlaced {s : Session} {path : String} {p : Path} (h : s.place? path = some p) :
    Site.IsPlaced s.site p := by
  have read := Path.isRead_ofString path
  -- an absolute path is taken as seen from the project
  have found : ∃ q : Path, (q.IsRead ∧ q.root = .relative) ∧
      (if q.parts.length < 2 || s.site.isOutput q then none else some q) = some p := by
    unfold place? at h
    dsimp only at h
    split at h
    · obtain ⟨q, hq, h⟩ := Option.bind_eq_some_iff.1 h
      rw [Path.relativeTo?] at hq
      split at hq
      · cases hq
        exact ⟨_, ⟨fun segment hm => read segment (List.mem_of_mem_drop hm), rfl⟩, h⟩
      · cases hq
    · next ha => exact ⟨_, ⟨read, by simpa [Path.isAbsolute] using ha⟩, h⟩
  obtain ⟨q, ⟨segments, relative⟩, h⟩ := found
  split at h
  · cases h
  · next hc =>
    cases h
    rw [Bool.or_eq_true, not_or] at hc
    exact ⟨segments, relative, by simpa using hc.2⟩

theorem Session.isPlaced_of_expected {s : Session} {notices : List Notice} {x : Path × Event}
    (h : x ∈ s.expected notices) : Site.IsPlaced s.site x.1 := by
  obtain ⟨notice, -, hx⟩ := List.mem_flatMap.1 h
  obtain ⟨e, -, he⟩ := List.mem_filterMap.1 hx
  obtain ⟨p, hp, rfl⟩ := Option.map_eq_some_iff.1 he
  exact isPlaced hp

/-! ## Trees -/

theorem apply_siteHandler (site : Site) (w : Applied) (p : Path) (e : Event) :
    (siteHandler site).apply w p e = let after := applyEvent site w.tree w.pages p e
      { after with reports := w.reports ++ after.reports } := by
  unfold Handler.apply siteHandler applyEvent
  dsimp only
  cases (site.update w.tree w.pages p e).result with
  | ok pages => rfl
  | error fault => simp

/-- The handler of a site applies the events of a log in turn. -/
theorem foldl_siteHandler (site : Site) (log : List (Path × Event)) (w : Applied) :
    (log.foldl (fun w x => (siteHandler site).apply w x.1 x.2) w).tree =
      (applyEvents site w.tree w.pages log).tree := by
  induction log generalizing w with
  | nil => rfl
  | cons x log ih =>
    rw [List.foldl_cons, ih, apply_siteHandler]
    rfl

/-- Of two events of different paths, one of which writes, none concerns outputs in the way of the other. -/
def Clashfree (site : Site) (pages : List Page) (log : List (Path × Event)) : Prop :=
  ∀ x ∈ log, ∀ y ∈ log, x.1 ≠ y.1 → Site.writes x.2 = true ∨ Site.writes y.2 = true →
    Site.Clashless site pages x y

instance (site : Site) (pages : List Page) (log : List (Path × Event)) :
    Decidable (Clashfree site pages log) :=
  inferInstanceAs (Decidable (∀ x ∈ log, ∀ y ∈ log, x.1 ≠ y.1 → _ ∨ _ → Site.Clashless site pages x y))

theorem swappable_treeStep {site : Site} {t : FileTree} {pages : List Page} {log : List (Path × Event)}
    (h : Site.Steady site t pages) (hp : ∀ x ∈ log, Site.IsPlaced site x.1) (hc : Clashfree site pages log) :
    Swappable (Site.Varied site t) (site.treeStep pages) log where
  keeps x hx _ ht := (Site.local_treeStep h (hp x hx)).keeps ht
  same x hx _ _ ht ht' same := (Site.local_treeStep h (hp x hx)).same ht ht' same
  swap x hx y hy hne _ ht := Site.treeStep_comm h (hp x hx) (hp y hy) (hc x hx y hy hne) ht

/-- A session for the small site. -/
def smallWatch (out : Path) : Session :=
  ((Session.ofEntries (Site.smallSite out false) ["site/**/*.j2"] Site.smallPages).start {}).1

theorem steady_small {t : FileTree} {out : Path} (ht : ∀ e ∈ t.entries, t.get? e.1.dropLast = some .dir)
    (hp : t.get? ["p"] = some .dir) (ho : Site.Unnested (Site.smallSite out false).outLocation ["p", "site"])
    (hf : Site.Firm (Site.smallSite out false) t) :
    Site.Steady (Site.smallSite out false) t Site.smallPages where
  toProject := Site.project_small ht hp ho
  firm := hf

/-- The file at a path has changed. -/
def changed (path : String) : Path × Event := (Path.ofString path, ⟨.change, false⟩)

/-- Two events are handled by two workers, and the second one is done first. -/
def crossing {n : Nat} (i j : Fin n) (first second : Notice) : List (Action n) :=
  [.receive first, .submit, .enqueue, .schedule, .receive second, .submit, .enqueue, .schedule,
    .begin i, .next i, .begin j, .next j, .finish j, .finish i]

namespace Live

/-- The run of two events that are handled crosswise. -/
def crossed {n : Nat} (i j : Fin n) (t : FileTree) (out : Path) (first second : Notice) :
    Option (Live n Applied) :=
  (ofSession n (smallWatch out) ⟨t, Site.smallPages, []⟩).run (siteHandler (smallWatch out).site)
    (crossing i j first second)

/-- The small project with an output that has no source any more. -/
def staleTree : FileTree :=
  ⟨Site.smallTree.entries ++ [(["p", "dist"], .dir), (["p", "dist", "b.css"], .file .empty)]⟩

theorem not_same_of_isSome {t t' : FileTree} {l : Location} {b : Bool} (h : (t.get? l).isSome = b)
    (h' : (t'.get? l).isSome = !b) : ¬ Same t t' := by
  intro same
  rw [same l, h] at h'
  cases b <;> cases h'

end Live

end StaticSite.Watch
