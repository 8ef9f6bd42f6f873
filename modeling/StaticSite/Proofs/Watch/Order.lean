import Mathlib.Data.List.Infix
import StaticSite.Watch.Live

/-!
# The order of events at work

However the threads of a session take turns, the events of one path are handled one at a time and in the
order in which they came, and a session that was stopped has handled all that it let in. Behind this is
`Attended`: a path has an open queue exactly as long as one place looks after it, be it the observer's
thread that opened it, the list of scheduled queues or one worker.
-/

namespace StaticSite.Watch

variable {W ε : Type} {n : Nat}

/-! ## Logs -/

/-- The events of one path in a log. -/
def eventsAt (p : Path) (log : List (Path × Event)) : List Event :=
  (log.filter (·.1 = p)).map (·.2)

@[simp] theorem eventsAt_nil (p : Path) : eventsAt p [] = [] := rfl

@[simp] theorem eventsAt_append (p : Path) (log more : List (Path × Event)) :
    eventsAt p (log ++ more) = eventsAt p log ++ eventsAt p more := by
  simp [eventsAt]

@[simp] theorem eventsAt_single (p q : Path) (e : Event) :
    eventsAt p [(q, e)] = if q = p then [e] else [] := by
  by_cases h : q = p <;> simp [eventsAt, h]

theorem eventsAt_mono {log more : List (Path × Event)} (h : log <+: more) (p : Path) :
    eventsAt p log <+: eventsAt p more := by
  obtain ⟨rest, rfl⟩ := h
  rw [eventsAt_append]
  exact List.prefix_append _ _

theorem count_eventsAt (p : Path) (e : Event) (log : List (Path × Event)) :
    (eventsAt p log).count e = log.count (p, e) := by
  induction log with
  | nil => rfl
  | cons x log ih =>
    obtain ⟨q, f⟩ := x
    have split : eventsAt p ((q, f) :: log) = eventsAt p [(q, f)] ++ eventsAt p log :=
      eventsAt_append p [(q, f)] log
    rw [split, eventsAt_single, List.count_append, ih, List.count_cons, Nat.add_comm]
    by_cases hq : q = p <;> by_cases hf : f = e <;> simp [hq, hf]

/-- Logs that agree on every path hold the same events. -/
theorem perm_of_eventsAt {log log' : List (Path × Event)} (h : ∀ p, eventsAt p log = eventsAt p log') :
    log.Perm log' := by
  refine List.perm_iff_count.2 fun x => ?_
  rw [← count_eventsAt x.1 x.2 log, ← count_eventsAt x.1 x.2 log', h]

/-! ## What is to be handled -/

/-- The events that no pattern ignores and whose paths count, with their places. -/
def Session.placed (s : Session) (es : List (String × Event)) : List (Path × Event) :=
  es.filterMap fun e =>
    match Glob.leavesOut s.site.options.watch.ignorePatterns e.1 with
    | .ok false => (s.place? e.1).map (·, e.2)
    | _ => none

/-- The events of notices whose paths count, with their places, in the order in which they came. -/
def Session.expected (s : Session) (notices : List Notice) : List (Path × Event) :=
  notices.flatMap fun notice =>
    ((notice.events s.site.options.watch.ignorePatterns).toOption.getD []).filterMap fun e =>
      (s.place? e.1).map (·, e.2)

theorem leavesOut_of_everything {patterns : List String}
    (h : (patterns.map Text.lower).contains Glob.everything) (path : String) :
    Glob.leavesOut patterns path = .error ⟨⟩ := by
  rw [Glob.leavesOut, Glob.ignores, if_pos h]; rfl

theorem exists_leavesOut {patterns : List String}
    (h : ¬ (patterns.map Text.lower).contains Glob.everything) (path : String) :
    ∃ b, Glob.leavesOut patterns path = .ok b := by
  rw [Glob.leavesOut, Glob.ignores, if_neg h]; exact ⟨_, rfl⟩

theorem Session.placed_eq_nil {s : Session}
    (h : (s.site.options.watch.ignorePatterns.map Text.lower).contains Glob.everything)
    (es : List (String × Event)) : s.placed es = [] := by
  simp [placed, leavesOut_of_everything h]

theorem unignored_cons {patterns : List String} {e : String × Event} {b : Bool}
    {es kept : List (String × Event)} (he : Glob.leavesOut patterns e.1 = .ok b)
    (hk : unignored patterns es = .ok kept) :
    unignored patterns (e :: es) = .ok (if b then kept else e :: kept) := by
  rw [unignored, he, hk]; rfl

theorem exists_unignored {patterns : List String}
    (h : ¬ (patterns.map Text.lower).contains Glob.everything) :
    ∀ es, ∃ kept, unignored patterns es = .ok kept
  | [] => ⟨[], rfl⟩
  | e :: es => by
    obtain ⟨kept, hk⟩ := exists_unignored h es
    obtain ⟨b, hb⟩ := exists_leavesOut h e.1
    exact ⟨_, unignored_cons hb hk⟩

theorem unignored_of_everything {patterns : List String}
    (h : (patterns.map Text.lower).contains Glob.everything) (es : List (String × Event)) :
    (unignored patterns es).toOption.getD [] = [] := by
  cases es with
  | nil => rfl
  | cons e es => rw [unignored, leavesOut_of_everything h]; rfl

theorem Session.placed_eq (s : Session) (es : List (String × Event)) :
    s.placed es = ((unignored s.site.options.watch.ignorePatterns es).toOption.getD []).filterMap
      fun e => (s.place? e.1).map (·, e.2) := by
  by_cases h : (s.site.options.watch.ignorePatterns.map Text.lower).contains Glob.everything
  · rw [placed_eq_nil h, unignored_of_everything h]; rfl
  · induction es with
    | nil => rfl
    | cons e es ih =>
      obtain ⟨kept, hk⟩ := exists_unignored h es
      obtain ⟨b, hb⟩ := exists_leavesOut h e.1
      rw [hk] at ih
      rw [unignored_cons hb hk]
      unfold placed at ih ⊢
      rw [List.filterMap_cons, hb, ih]
      cases b with
      | true => rfl
      | false => cases hp : s.place? e.1 <;> simp [hp, Except.toOption]

theorem Session.expected_append (s : Session) (notices : List Notice) (notice : Notice) :
    s.expected (notices ++ [notice]) = s.expected notices ++ s.placed notice.allEvents := by
  simp [expected, placed_eq, Notice.events]

namespace Live

/-! ## Steps -/

/-- The steps one by one, with what each asks for and what it leaves. -/
inductive Move (h : Handler W ε) (m : Live n W) : Action n → Live n W → Prop where
  | receive (notice : Notice) (hand : m.hand = .free) (done : m.toSubmit = [])
      (fed : m.isUnfed = false) : Move h m (.receive notice)
        { m with toSubmit := notice.allEvents, notices := m.notices ++ [notice] }
  | submit (path : String) (e : Event) (rest : List (String × Event)) (hand : m.hand = .free)
      (next : m.toSubmit = (path, e) :: rest) : Move h m .submit (m.consider path e)
  | enqueue (p : Path) (e : Event) (hand : m.hand = .letIn p e) : Move h m .enqueue (m.accept p e)
  | schedule (p : Path) (hand : m.hand = .opened p) : Move h m .schedule (m.handOver p)
  | endFeed (hand : m.hand = .free) (done : m.toSubmit = []) :
      Move h m .endFeed { m with isUnfed := true }
  | begin (i : Fin n) (p : Path) (rest : List Path) (idle : m.workers i = .idle)
      (next : m.scheduled = p :: rest) : Move h m (.begin i)
        { m with scheduled := rest, workers := setWorker m.workers i (.draining p) }
  | next (i : Fin n) (p : Path) (at_ : m.workers i = .draining p) : Move h m (.next i) (m.look i p)
  | finish (i : Fin n) (p : Path) (e : Event) (busy : m.workers i = .handling p e) :
      Move h m (.finish i) (m.complete h i p e)
  | stop (stage : m.stage = .running) (state : m.session.state = .watching) :
      Move h m .stop { m with session.state := .stopped, stage := .stopping }
  | join (stage : m.stage = .stopping) (unfed : m.isUnfed = true) :
      Move h m .join { m with stage := .closing }
  | return (stage : m.stage = .closing) (none : m.scheduled = []) (idle : ∀ i, m.workers i = .idle) :
      Move h m .return { m with session := m.session.shutDown.1, stage := .ended }

theorem move_of_step {h : Handler W ε} {m m' : Live n W} {a : Action n}
    (hs : m.step h a = some m') : Move h m a m' := by
  cases a with
  | receive notice =>
    simp only [step] at hs
    split at hs
    · next h1 h2 h3 => cases hs; exact .receive notice h1 h2 h3
    · cases hs
  | submit =>
    simp only [step] at hs
    split at hs
    · next path e rest h1 h2 => cases hs; exact .submit path e rest h1 h2
    · cases hs
  | enqueue =>
    simp only [step] at hs
    split at hs
    · next p e h1 => cases hs; exact .enqueue p e h1
    · cases hs
  | schedule =>
    simp only [step] at hs
    split at hs
    · next p h1 => cases hs; exact .schedule p h1
    · cases hs
  | endFeed =>
    simp only [step] at hs
    split at hs
    · next h1 h2 => cases hs; exact .endFeed h1 h2
    · cases hs
  | begin i =>
    simp only [step] at hs
    split at hs
    · next p rest h1 h2 => cases hs; exact .begin i p rest h1 h2
    · cases hs
  | next i =>
    simp only [step] at hs
    split at hs
    · next p h1 => cases hs; exact .next i p h1
    · cases hs
  | finish i =>
    simp only [step] at hs
    split at hs
    · next p e h1 => cases hs; exact .finish i p e h1
    · cases hs
  | stop =>
    simp only [step] at hs
    split at hs
    · next h1 h2 => cases hs; exact .stop h1 h2
    · cases hs
  | join =>
    simp only [step] at hs
    split at hs
    · next h1 h2 => cases hs; exact .join h1 h2
    · cases hs
  | «return» =>
    simp only [step] at hs
    split at hs
    · next hc => cases hs; exact .return hc.1 hc.2.1 hc.2.2
    · cases hs

/-- What holds before a run and is kept by every step holds after the run. -/
theorem run_induct {h : Handler W ε} {P : Live n W → Prop}
    (keeps : ∀ {m m' : Live n W} {a : Action n}, P m → Move h m a m' → P m') :
    ∀ {as : List (Action n)} {m m' : Live n W}, P m → m.run h as = some m' → P m'
  | [], m, m', hp, hr => by cases hr; exact hp
  | a :: as, m, m', hp, hr => by
    obtain ⟨m1, hs, hr⟩ := Option.bind_eq_some_iff.1 hr
    exact run_induct keeps (keeps hp (move_of_step hs)) hr

/-! ## Who looks after a queue -/

end Live

/-- The queue that a worker is at. -/
def Worker.path? : Worker → Option Path
  | .idle => none
  | .draining p => some p
  | .handling p _ => some p

namespace Live

theorem setWorker_self (workers : Fin n → Worker) (i : Fin n) (w : Worker) :
    setWorker workers i w i = w := by simp [setWorker]

theorem setWorker_other (workers : Fin n → Worker) {i j : Fin n} (h : j ≠ i) (w : Worker) :
    setWorker workers i w j = workers j := by simp [setWorker, h]

/-- Some worker is at the queue of a path. -/
def HasWorker (m : Live n W) (p : Path) : Prop := ∃ i, (m.workers i).path? = some p

/-- A path has an open queue exactly if one place looks after it. -/
structure Attended (m : Live n W) : Prop where
  isOpen : ∀ p, (m.session.queues.get? p).isSome = true ↔
    m.hand = .opened p ∨ p ∈ m.scheduled ∨ m.HasWorker p
  once : m.scheduled.Nodup
  opened : ∀ p, m.hand = .opened p → p ∉ m.scheduled ∧ ¬ m.HasWorker p
  scheduled : ∀ p ∈ m.scheduled, ¬ m.HasWorker p
  alone : ∀ p i j, (m.workers i).path? = some p → (m.workers j).path? = some p → i = j

theorem Attended.congr {m m' : Live n W} (hm : m.Attended)
    (hq : ∀ p, (m'.session.queues.get? p).isSome = (m.session.queues.get? p).isSome)
    (hh : ∀ p, m'.hand = .opened p ↔ m.hand = .opened p) (hs : m'.scheduled = m.scheduled)
    (hw : ∀ i, (m'.workers i).path? = (m.workers i).path?) : m'.Attended := by
  have hw' : ∀ p, m'.HasWorker p ↔ m.HasWorker p := fun p => by simp only [HasWorker, hw]
  refine ⟨fun p => ?_, hs ▸ hm.once, fun p h => ?_, fun p h => ?_, fun p i j hi hj => ?_⟩
  · rw [hq, hh, hs, hw']; exact hm.isOpen p
  · rw [hs, hw']; exact hm.opened p ((hh p).1 h)
  · rw [hw']; exact hm.scheduled p (hs ▸ h)
  · rw [hw] at hi hj; exact hm.alone p i j hi hj

theorem Attended.of_start {session : Session} (hq : session.queues = []) (w : W) :
    (ofSession n session w).Attended where
  isOpen p := by simp [ofSession, hq, Queues.get?, HasWorker, Worker.path?]
  once := List.nodup_nil
  opened p h := by cases h
  scheduled p h := by cases h
  alone p i j h := by cases h

/-- How far the call to stop has come and what that says about the other threads. -/
structure Staged (m : Live n W) : Prop where
  unfed : m.isUnfed = true → m.hand = .free ∧ m.toSubmit = []
  joined : m.stage = .closing ∨ m.stage = .ended → m.isUnfed = true
  ended : m.stage = .ended → m.scheduled = [] ∧ ∀ i, m.workers i = .idle
  watching : m.session.state = .watching ↔ m.stage = .running

theorem Staged.of_start {session : Session} (hs : session.state = .watching) (w : W) :
    (ofSession n session w).Staged where
  unfed h := by cases h
  joined h := by rcases h with h | h <;> cases h
  ended h := by cases h
  watching := by simp [ofSession, hs]

/-- While a queue is in hand the pool takes it. -/
theorem Staged.takesQueues {m : Live n W} (hm : m.Staged) {p : Path} (hand : m.hand = .opened p) :
    m.takesQueues = true := by
  have hf : ¬ m.isUnfed = true := fun h => by
    have := (hm.unfed h).1; rw [hand] at this; cases this
  have hj := fun h => hf (hm.joined h)
  cases hs : m.stage <;> simp_all [Live.takesQueues]

theorem Staged.move {h : Handler W ε} {m m' : Live n W} {a : Action n} (hm : m.Staged)
    (hs : Move h m a m') : m'.Staged := by
  have notEnded : ∀ {i}, m.workers i ≠ .idle → m.stage ≠ .ended := fun hi ho => hi ((hm.ended ho).2 _)
  cases hs with
  | receive notice hand done fed =>
    exact ⟨fun hu => by simp [fed] at hu, hm.joined, hm.ended, hm.watching⟩
  | submit path e rest hand next =>
    unfold consider
    have hu : m.isUnfed ≠ true := fun h => by have := (hm.unfed h).2; simp [next] at this
    split
    · exact ⟨fun _ => ⟨hand, rfl⟩, fun _ => rfl, hm.ended, hm.watching⟩
    · exact ⟨fun h => absurd h hu, hm.joined, hm.ended, hm.watching⟩
    · exact ⟨fun h => absurd h hu, hm.joined, hm.ended, hm.watching⟩
  | enqueue p e hand =>
    have hu : m.isUnfed ≠ true := fun h => by have := (hm.unfed h).1; simp [hand] at this
    exact ⟨fun h => absurd h hu, hm.joined, hm.ended, hm.watching⟩
  | schedule p hand =>
    have hu : m.isUnfed ≠ true := fun h => by have := (hm.unfed h).1; simp [hand] at this
    exact ⟨fun h => absurd h hu, hm.joined,
      fun h => absurd (hm.joined (.inr h)) hu, hm.watching⟩
  | endFeed hand done => exact ⟨fun _ => ⟨hand, done⟩, fun _ => rfl, hm.ended, hm.watching⟩
  | begin i p rest idle next =>
    exact ⟨hm.unfed, hm.joined, fun h => by have := (hm.ended h).1; simp [next] at this, hm.watching⟩
  | next i p at_ =>
    have ho := notEnded (i := i) (by simp [at_])
    unfold look
    split <;> exact ⟨hm.unfed, hm.joined, fun h => absurd h ho, hm.watching⟩
  | finish i p e busy =>
    have ho := notEnded (i := i) (by simp [busy])
    exact ⟨hm.unfed, hm.joined, fun h => absurd h ho, hm.watching⟩
  | stop stage state =>
    exact ⟨hm.unfed, fun h => by simp at h, fun h => by simp at h, by simp⟩
  | join stage unfed =>
    refine ⟨hm.unfed, fun _ => unfed, fun h => by simp at h, ?_⟩
    have := hm.watching; simp_all
  | «return» stage none idle =>
    refine ⟨hm.unfed, fun _ => hm.joined (.inl stage), fun _ => ⟨none, idle⟩, ?_⟩
    have := hm.watching; simp_all [Session.shutDown]

/-! ### Every step keeps queues attended -/

theorem path?_setWorker {workers : Fin n → Worker} {i : Fin n} {w : Worker}
    (h : w.path? = (workers i).path?) (j : Fin n) :
    (setWorker workers i w j).path? = (workers j).path? := by
  by_cases hj : j = i
  · subst hj; rw [setWorker_self, h]
  · rw [setWorker_other _ hj]

theorem Attended.accept {m : Live n W} (hm : m.Attended) {p : Path} {e : Event}
    (hand : m.hand = .letIn p e) : (m.accept p e).Attended := by
  have notOpened : ∀ q, m.hand ≠ .opened q := fun q h => by rw [hand] at h; cases h
  have hget : ∀ q, ((m.accept p e).session.queues.get? q).isSome =
      (decide (q = p) || (m.session.queues.get? q).isSome) := fun q => by
    simp only [Live.accept, Session.enqueue, Queues.get?_push]
    by_cases hq : q = p <;> simp [hq]
  by_cases ho : (m.session.queues.get? p).isSome = true
  · refine hm.congr (fun q => ?_) (fun q => ?_) rfl (fun i => rfl)
    · rw [hget]
      by_cases hq : q = p
      · subst hq; simp [ho]
      · simp [hq]
    · simp [Live.accept, ho, notOpened]
  · have free := (hm.isOpen p).not.1 ho
    have hh : (m.accept p e).hand = .opened p := by simp [Live.accept, ho]
    refine ⟨fun q => ?_, hm.once, fun q h => ?_, hm.scheduled, hm.alone⟩
    · have := hm.isOpen q
      rw [hget, hh, Bool.or_eq_true, decide_eq_true_eq, this]
      have : m.hand ≠ .opened q := notOpened q
      simp only [this, false_or, Hand.opened.injEq, eq_comm (a := q)]
      rfl
    · rw [hh] at h; cases h
      exact ⟨fun h => free (.inr (.inl h)), fun h => free (.inr (.inr h))⟩

theorem Attended.handOver {m : Live n W} (hm : m.Attended) {p : Path} (hand : m.hand = .opened p)
    (ht : m.takesQueues = true) : (m.handOver p).Attended := by
  have hs : (m.handOver p).scheduled = m.scheduled ++ [p] := by simp [Live.handOver, ht]
  obtain ⟨unscheduled, unworked⟩ := hm.opened p hand
  refine ⟨fun q => ?_, ?_, fun q h => ?_, fun q h => ?_, hm.alone⟩
  · have := hm.isOpen q
    rw [hand] at this
    rw [hs, List.mem_append, List.mem_singleton]
    refine this.trans ?_
    simp only [Hand.opened.injEq, Live.handOver, reduceCtorEq, false_or, eq_comm (a := q), HasWorker]
    tauto
  · rw [hs]
    refine List.nodup_append.2 ⟨hm.once, List.pairwise_singleton _ p, fun q hq r hr => ?_⟩
    rintro rfl
    exact unscheduled (List.mem_singleton.1 hr ▸ hq)
  · cases h
  · rw [hs, List.mem_append, List.mem_singleton] at h
    rcases h with h | rfl
    · exact hm.scheduled q h
    · exact unworked

theorem Attended.begin {m : Live n W} (hm : m.Attended) {i : Fin n} {p : Path} {rest : List Path}
    (idle : m.workers i = .idle) (next : m.scheduled = p :: rest) :
    Attended { m with scheduled := rest, workers := setWorker m.workers i (.draining p) } := by
  have once := hm.once
  rw [next, List.nodup_cons] at once
  have unworked : ¬ m.HasWorker p := hm.scheduled p (by simp [next])
  -- the paths of the workers are those before, and `p` at `i`
  have hw : ∀ q j, (setWorker m.workers i (.draining p) j).path? = some q ↔
      (j = i ∧ q = p) ∨ (m.workers j).path? = some q := fun q j => by
    by_cases hj : j = i
    · subst hj; simp [setWorker_self, idle, Worker.path?, eq_comm]
    · simp [setWorker_other _ hj, hj]
  have hw' : ∀ q, (∃ j, (setWorker m.workers i (.draining p) j).path? = some q) ↔
      q = p ∨ m.HasWorker q := fun q => by
    simp only [hw, HasWorker]
    constructor
    · rintro ⟨j, ⟨-, rfl⟩ | hj⟩
      · exact .inl rfl
      · exact .inr ⟨j, hj⟩
    · rintro (rfl | ⟨j, hj⟩)
      · exact ⟨i, .inl ⟨rfl, rfl⟩⟩
      · exact ⟨j, .inr hj⟩
  refine ⟨fun q => ?_, once.2, fun q h => ?_, fun q h => ?_, fun q j k hj hk => ?_⟩
  · have := hm.isOpen q
    rw [next, List.mem_cons] at this
    rw [HasWorker, hw']
    tauto
  · obtain ⟨hn, hu⟩ := hm.opened q h
    rw [next, List.mem_cons, not_or] at hn
    rw [HasWorker, hw']
    exact ⟨hn.2, fun h => h.elim hn.1 hu⟩
  · rw [HasWorker, hw']
    rintro (rfl | hu)
    · exact once.1 h
    · exact hm.scheduled q (by rw [next]; exact List.mem_cons_of_mem _ h) hu
  · rw [hw] at hj hk
    rcases hj with ⟨rfl, rfl⟩ | hj <;> rcases hk with ⟨rfl, hq⟩ | hk
    · rfl
    · exact absurd ⟨k, hk⟩ unworked
    · subst hq; exact absurd ⟨j, hj⟩ unworked
    · exact hm.alone q j k hj hk

theorem Attended.look {m : Live n W} (hm : m.Attended) {i : Fin n} {p : Path}
    (at_ : m.workers i = .draining p) : (m.look i p).Attended := by
  have worker : m.HasWorker p := ⟨i, by rw [at_]; rfl⟩
  have isOpen := (hm.isOpen p).2 (.inr (.inr worker))
  unfold Live.look
  split
  · next hq => rw [hq] at isOpen; cases isOpen
  · next hq =>
    -- the worker leaves the queue that it closes, and no one else was at it
    have hw : ∀ q j, (setWorker m.workers i .idle j).path? = some q ↔
        q ≠ p ∧ (m.workers j).path? = some q := fun q j => by
      by_cases hj : j = i
      · subst hj; simp [setWorker_self, at_, Worker.path?, eq_comm]
      · rw [setWorker_other _ hj]
        refine ⟨fun h => ⟨?_, h⟩, And.right⟩
        rintro rfl
        exact hj (hm.alone q j i h (by rw [at_]; rfl))
    have hw' : ∀ q, (∃ j, (setWorker m.workers i .idle j).path? = some q) ↔
        q ≠ p ∧ m.HasWorker q := fun q => by simp [hw, HasWorker]
    refine ⟨fun q => ?_, hm.once, fun q h => ?_, fun q h => ?_, fun q j k hj hk => ?_⟩
    · have := hm.isOpen q
      rw [HasWorker, hw']
      simp only [Queues.get?_close]
      by_cases hp : q = p
      · subst hp
        have h1 : m.hand ≠ .opened q := fun h => (hm.opened q h).2 worker
        have h2 : q ∉ m.scheduled := fun h => hm.scheduled q h worker
        simp [h1, h2]
      · simpa [hp] using this
    · have := hm.opened q h
      rw [HasWorker, hw']
      exact ⟨this.1, fun h => this.2 h.2⟩
    · rw [HasWorker, hw']
      exact fun h' => hm.scheduled q h h'.2
    · rw [hw] at hj hk
      exact hm.alone q j k hj.2 hk.2
  · next e es hq =>
    refine hm.congr (fun q => ?_) (fun q => Iff.rfl) rfl fun j => path?_setWorker (by rw [at_]; rfl) j
    simp only [Queues.get?_dropFirst]
    by_cases hp : q = p <;> simp [hp, hq]

theorem Attended.move {h : Handler W ε} {m m' : Live n W} {a : Action n} (hm : m.Attended)
    (hst : m.Staged) (hs : Move h m a m') : m'.Attended := by
  have same : ∀ {m' : Live n W}, m'.session.queues = m.session.queues → m'.hand = m.hand →
      m'.scheduled = m.scheduled → m'.workers = m.workers → m'.Attended := fun h1 h2 h3 h4 =>
    hm.congr (fun p => by rw [h1]) (fun p => by rw [h2]) h3 fun i => by rw [h4]
  cases hs with
  | receive notice hand done fed => exact same rfl rfl rfl rfl
  | submit path e rest hand next =>
    refine hm.congr (fun p => ?_) (fun p => ?_) ?_ fun i => ?_ <;> unfold consider <;> split <;>
      try rfl
    rw [hand]
    cases m.session.admit? path <;> simp [Hand.ofPlace]
  | enqueue p e hand => exact hm.accept hand
  | schedule p hand => exact hm.handOver hand (hst.takesQueues hand)
  | endFeed hand done => exact same rfl rfl rfl rfl
  | begin i p rest idle next => exact hm.begin idle next
  | next i p at_ => exact hm.look at_
  | finish i p e busy =>
    exact hm.congr (fun q => rfl) (fun q => Iff.rfl) rfl fun j => path?_setWorker (by rw [busy]; rfl) j
  | stop stage state => exact same rfl rfl rfl rfl
  | join stage unfed => exact same rfl rfl rfl rfl
  | «return» stage none idle => exact same rfl rfl rfl rfl

/-! ## Where an event is -/

theorem setWorker_eq_handling {workers : Fin n → Worker} {i j : Fin n} {w : Worker} {q : Path}
    {f : Event} : setWorker workers i w j = .handling q f ↔
      j = i ∧ w = .handling q f ∨ j ≠ i ∧ workers j = .handling q f := by
  by_cases hj : j = i
  · subst hj; simp [setWorker_self]
  · simp [setWorker_other _ hj, hj]

/-- The accepted events of a path are those that were taken and those that wait. Those that were taken are
handled, but for one that a worker has in hand. -/
structure Logged (m : Live n W) : Prop where
  waiting : ∀ p, eventsAt p m.accepted = eventsAt p m.taken ++ m.session.queues.waitingAt p
  busy : ∀ p i e, m.workers i = .handling p e → eventsAt p m.taken = eventsAt p m.handled ++ [e]
  free : ∀ p, (∀ i e, m.workers i ≠ .handling p e) → eventsAt p m.taken = eventsAt p m.handled

theorem Logged.of_start {session : Session} (hq : session.queues = []) (w : W) :
    (ofSession n session w).Logged where
  waiting p := by simp [ofSession, hq, Queues.waitingAt, Queues.get?]
  busy p i e h := by cases h
  free p h := rfl

theorem Logged.congr {m m' : Live n W} (hm : m.Logged)
    (hq : ∀ p, m'.session.queues.waitingAt p = m.session.queues.waitingAt p)
    (hl : m'.accepted = m.accepted ∧ m'.taken = m.taken ∧ m'.handled = m.handled)
    (hw : ∀ i p e, m'.workers i = .handling p e ↔ m.workers i = .handling p e) : m'.Logged := by
  obtain ⟨ha, ht, hh⟩ := hl
  refine ⟨fun p => ?_, fun p i e h => ?_, fun p h => ?_⟩
  · rw [ha, ht, hq]; exact hm.waiting p
  · rw [ht, hh]; exact hm.busy p i e ((hw i p e).1 h)
  · rw [ht, hh]; exact hm.free p fun i e h' => h i e ((hw i p e).2 h')

theorem Logged.accept {m : Live n W} (hm : m.Logged) (p : Path) (e : Event) :
    (m.accept p e).Logged where
  waiting q := by
    simp only [Live.accept, Session.enqueue, Queues.waitingAt_push, eventsAt_append, eventsAt_single]
    rw [hm.waiting q]
    by_cases hq : q = p
    · subst hq; simp
    · simp [hq, Ne.symm hq]
  busy := hm.busy
  free := hm.free

theorem Logged.look {m : Live n W} (hm : m.Logged) (ha : m.Attended) {i : Fin n} {p : Path}
    (at_ : m.workers i = .draining p) : (m.look i p).Logged := by
  have unbusy : ∀ w : Worker, (∀ q f, w ≠ .handling q f) → ∀ j q f,
      setWorker m.workers i w j = .handling q f ↔ m.workers j = .handling q f := fun w hw j q f => by
    rw [setWorker_eq_handling]
    by_cases hj : j = i
    · subst hj; simp [hw, at_]
    · simp [hj]
  unfold Live.look
  split
  · exact hm.congr (fun _ => rfl) ⟨rfl, rfl, rfl⟩ (unbusy .idle (by simp))
  · next hq =>
    refine hm.congr (fun q => ?_) ⟨rfl, rfl, rfl⟩ (unbusy .idle (by simp))
    simp only [Queues.waitingAt, Queues.get?_close]
    by_cases hp : q = p <;> simp [hp, hq]
  · next e es hq =>
    -- no other worker is at this queue, so all that was taken from it is handled
    have alone : ∀ j f, m.workers j ≠ .handling p f := fun j f hj => by
      have := ha.alone p j i (by rw [hj]; rfl) (by rw [at_]; rfl)
      subst this; rw [at_] at hj; cases hj
    have done := hm.free p alone
    refine ⟨fun q => ?_, fun q j f hj => ?_, fun q hj => ?_⟩
    · have := hm.waiting q
      simp only [Queues.waitingAt, Queues.get?_dropFirst, eventsAt_append, eventsAt_single] at this ⊢
      by_cases hp : q = p
      · subst hp; simp [this, hq]
      · simp [this, hp, Ne.symm hp]
    · simp only [eventsAt_append, eventsAt_single]
      rcases setWorker_eq_handling.1 hj with ⟨-, hw⟩ | ⟨-, hw⟩
      · cases hw; simp [done]
      · have hp : p ≠ q := by rintro rfl; exact alone j f hw
        simpa [hp] using hm.busy q j f hw
    · have hp : p ≠ q := by rintro rfl; exact hj i e (setWorker_self ..)
      have := hm.free q fun j f hw => hj j f <| by
        refine setWorker_eq_handling.2 (.inr ⟨?_, hw⟩)
        rintro rfl
        rw [at_] at hw; cases hw
      simpa [hp] using this

theorem Logged.complete {m : Live n W} (hm : m.Logged) (ha : m.Attended) (h : Handler W ε)
    {i : Fin n} {p : Path} {e : Event} (busy : m.workers i = .handling p e) :
    (m.complete h i p e).Logged := by
  have alone : ∀ j f, j ≠ i → m.workers j ≠ .handling p f := fun j f hj hw =>
    hj (ha.alone p j i (by rw [hw]; rfl) (by rw [busy]; rfl))
  refine ⟨hm.waiting, fun q j f hj => ?_, fun q hj => ?_⟩
  · obtain ⟨hji, hw⟩ : j ≠ i ∧ m.workers j = .handling q f := by
      simpa [Live.complete, setWorker_eq_handling] using hj
    have hp : p ≠ q := by rintro rfl; exact alone j f hji hw
    simpa [Live.complete, hp] using hm.busy q j f hw
  · by_cases hp : p = q
    · subst hp; simpa [Live.complete] using hm.busy p i e busy
    · have := hm.free q fun j f hw => hj j f <| by
        refine setWorker_eq_handling.2 (.inr ⟨?_, hw⟩)
        rintro rfl
        rw [busy] at hw; cases hw; exact hp rfl
      simpa [Live.complete, hp] using this

theorem Logged.move {h : Handler W ε} {m m' : Live n W} {a : Action n} (hm : m.Logged)
    (ha : m.Attended) (hs : Move h m a m') : m'.Logged := by
  have same : ∀ {m' : Live n W}, m'.session.queues = m.session.queues → m'.workers = m.workers →
      m'.accepted = m.accepted ∧ m'.taken = m.taken ∧ m'.handled = m.handled → m'.Logged :=
    fun h1 h2 h3 => hm.congr (fun p => by rw [h1]) h3 fun i p e => by rw [h2]
  cases hs with
  | receive notice hand done fed => exact same rfl rfl ⟨rfl, rfl, rfl⟩
  | submit path e rest hand next =>
    unfold consider
    split <;> exact same rfl rfl ⟨rfl, rfl, rfl⟩
  | enqueue p e hand => exact hm.accept p e
  | schedule p hand => exact same rfl rfl ⟨rfl, rfl, rfl⟩
  | endFeed hand done => exact same rfl rfl ⟨rfl, rfl, rfl⟩
  | begin i p rest idle next =>
    refine hm.congr (fun _ => rfl) ⟨rfl, rfl, rfl⟩ fun j q f => ?_
    rw [setWorker_eq_handling]
    by_cases hj : j = i
    · subst hj; simp [idle]
    · simp [hj]
  | next i p at_ => exact hm.look ha at_
  | finish i p e busy => exact hm.complete ha h busy
  | stop stage state => exact same rfl rfl ⟨rfl, rfl, rfl⟩
  | join stage unfed => exact same rfl rfl ⟨rfl, rfl, rfl⟩
  | «return» stage none idle => exact same rfl rfl ⟨rfl, rfl, rfl⟩

/-! ## Which events are accepted -/

end Live

/-- The event that was let in and is not in its queue yet. -/
def Hand.events : Hand → List (Path × Event)
  | .letIn p e => [(p, e)]
  | _ => []

theorem Hand.events_ofPlace (e : Event) (p? : Option Path) :
    (ofPlace e p?).events = (p?.map (·, e)).toList := by cases p? <;> rfl

namespace Live

/-- The session `s` at the start tells what is to be accepted: nothing else is, and nothing is left out as
long as the session watches. -/
structure Fed (s : Session) (m : Live n W) : Prop where
  site : m.session.site = s.site
  only : m.accepted ++ m.hand.events <+: s.expected m.notices
  all : m.session.state = .watching →
    m.accepted ++ m.hand.events ++ s.placed m.toSubmit = s.expected m.notices

end Live

theorem Session.place?_of_site {s s' : Session} (h : s.site = s'.site) (path : String) :
    s.place? path = s'.place? path := by
  simp only [place?, h]

theorem Session.placed_cons_of_error {s : Session} {path : String} {e : Event}
    {es : List (String × Event)} {x : Glob.IgnoresEverything}
    (h : Glob.leavesOut s.site.options.watch.ignorePatterns path = .error x) :
    s.placed ((path, e) :: es) = [] := by
  refine placed_eq_nil ?_ _
  by_contra hc
  obtain ⟨b, hb⟩ := exists_leavesOut hc path
  rw [hb] at h; cases h

theorem Session.placed_cons_of_ignored {s : Session} {path : String} {e : Event}
    {es : List (String × Event)} (h : Glob.leavesOut s.site.options.watch.ignorePatterns path = .ok true) :
    s.placed ((path, e) :: es) = s.placed es := by simp [placed, h]

theorem Session.placed_cons {s : Session} {path : String} {e : Event}
    {es : List (String × Event)} (h : Glob.leavesOut s.site.options.watch.ignorePatterns path = .ok false) :
    s.placed ((path, e) :: es) = ((s.place? path).map (·, e)).toList ++ s.placed es := by
  cases hp : s.place? path <;> simp [placed, h, hp]

namespace Live

theorem Fed.of_start {session : Session} (w : W) : Fed session (ofSession n session w) where
  site := rfl
  only := by simp [ofSession, Hand.events, Session.expected]
  all _ := by simp [ofSession, Hand.events, Session.expected, Session.placed]

theorem Fed.congr {s : Session} {m m' : Live n W} (hm : Fed s m)
    (hs : m'.session.site = m.session.site ∧ (m'.session.state = .watching → m.session.state = .watching))
    (hl : m'.accepted ++ m'.hand.events = m.accepted ++ m.hand.events) (hn : m'.notices = m.notices)
    (ht : m'.toSubmit = m.toSubmit) : Fed s m' := by
  refine ⟨hs.1.trans hm.site, ?_, fun hw => ?_⟩
  · rw [hl, hn]; exact hm.only
  · rw [hl, hn, ht]; exact hm.all (hs.2 hw)

theorem Fed.consider {s : Session} {m : Live n W} (hm : Fed s m) {path : String} {e : Event}
    {rest : List (String × Event)} (hand : m.hand = .free) (next : m.toSubmit = (path, e) :: rest) :
    Fed s (m.consider path e) := by
  have all := hm.all
  rw [next] at all
  unfold Live.consider
  rw [hm.site]
  split
  · next hl =>
    refine ⟨hm.site, hm.only, fun hw => ?_⟩
    have := all hw
    rw [Session.placed_cons_of_error hl] at this
    exact this
  · next hl =>
    refine ⟨hm.site, hm.only, fun hw => ?_⟩
    have := all hw
    rw [Session.placed_cons_of_ignored hl] at this
    rw [next]
    exact this
  · next hl =>
    have only := hm.only
    rw [hand] at all only
    simp only [Hand.events, List.append_nil] at all only
    rw [Session.placed_cons hl, ← Session.place?_of_site hm.site, ← List.append_assoc] at all
    by_cases hw : m.session.state = .watching
    · have hp : m.session.admit? path = m.session.place? path := by simp [Session.admit?, hw]
      rw [hp, next, List.tail_cons]
      refine ⟨hm.site, ?_, fun hw => ?_⟩
      · rw [Hand.events_ofPlace, ← all hw]
        exact List.prefix_append _ _
      · rw [Hand.events_ofPlace]
        exact all hw
    · have hp : m.session.admit? path = none := by simp [Session.admit?, hw]
      rw [hp]
      exact ⟨hm.site, by simpa [Hand.ofPlace, Hand.events] using only, fun h => absurd h hw⟩

theorem Fed.move {s : Session} {h : Handler W ε} {m m' : Live n W} {a : Action n} (hm : Fed s m)
    (hs : Move h m a m') : Fed s m' := by
  have same : ∀ {m' : Live n W}, m'.session.site = m.session.site →
      (m'.session.state = .watching → m.session.state = .watching) →
      m'.accepted ++ m'.hand.events = m.accepted ++ m.hand.events → m'.notices = m.notices →
      m'.toSubmit = m.toSubmit → Fed s m' := fun h1 h2 => hm.congr ⟨h1, h2⟩
  cases hs with
  | receive notice hand done fed =>
    refine ⟨hm.site, ?_, fun hw => ?_⟩
    · rw [Session.expected_append]
      exact hm.only.trans (List.prefix_append _ _)
    · rw [Session.expected_append, ← hm.all hw, done]
      simp [Hand.events, hand, Session.placed]
  | submit path e rest hand next => exact hm.consider hand next
  | enqueue p e hand =>
    refine same rfl id ?_ rfl rfl
    simp only [Live.accept, Hand.events, hand]
    by_cases ho : (m.session.queues.get? p).isSome = true <;> simp [ho]
  | schedule p hand => exact same rfl id (by simp [handOver, Hand.events, hand]) rfl rfl
  | endFeed hand done => exact same rfl id rfl rfl rfl
  | begin i p rest idle next => exact same rfl id rfl rfl rfl
  | next i p at_ =>
    unfold look
    split <;> exact same rfl id rfl rfl rfl
  | finish i p e busy => exact same rfl id rfl rfl rfl
  | stop stage state => exact same rfl (by simp) rfl rfl rfl
  | join stage unfed => exact same rfl id rfl rfl rfl
  | «return» stage none idle => exact same rfl id rfl rfl rfl

/-! ## Runs -/

/-- All that holds of a session that was watching at first, with no event waiting. -/
structure Sound (s : Session) (m : Live n W) : Prop where
  staged : m.Staged
  attended : m.Attended
  logged : m.Logged
  fed : Fed s m

theorem Sound.of_start {s : Session} (hs : s.state = .watching) (hq : s.queues = []) (w : W) :
    Sound s (ofSession n s w) :=
  ⟨.of_start hs w, .of_start hq w, .of_start hq w, .of_start w⟩

theorem Sound.move {s : Session} {h : Handler W ε} {m m' : Live n W} {a : Action n} (hm : Sound s m)
    (hs : Move h m a m') : Sound s m' :=
  ⟨hm.staged.move hs, hm.attended.move hm.staged hs, hm.logged.move hm.attended hs, hm.fed.move hs⟩

theorem Sound.run {s : Session} {h : Handler W ε} {m m' : Live n W} {as : List (Action n)}
    (hm : Sound s m) (hr : m.run h as = some m') : Sound s m' :=
  run_induct (P := Sound s) Sound.move hm hr

theorem run_append {h : Handler W ε} {m m' : Live n W} {as bs : List (Action n)} :
    m.run h (as ++ bs) = some m' ↔ ∃ m1, m.run h as = some m1 ∧ m1.run h bs = some m' := by
  induction as generalizing m with
  | nil => simp [Live.run]
  | cons a as ih =>
    simp only [List.cons_append, Live.run, Option.bind_eq_some_iff, ih]
    constructor
    · rintro ⟨m2, h2, m1, h1, hr⟩
      exact ⟨m1, ⟨m2, h2, h1⟩, hr⟩
    · rintro ⟨m1, ⟨m2, h2, h1⟩, hr⟩
      exact ⟨m2, h2, m1, h1, hr⟩

/-- What was let in stays so. -/
theorem Move.accepted_mono {h : Handler W ε} {m m' : Live n W} {a : Action n} (hs : Move h m a m') :
    m.accepted ++ m.hand.events <+: m'.accepted ++ m'.hand.events := by
  have same : m'.accepted ++ m'.hand.events = m.accepted ++ m.hand.events →
      m.accepted ++ m.hand.events <+: m'.accepted ++ m'.hand.events := fun h => h ▸ List.prefix_rfl
  cases hs with
  | submit path e rest hand next =>
    rw [hand]
    unfold consider
    split <;> exact List.prefix_append_right_inj _ |>.2 List.nil_prefix
  | enqueue p e hand =>
    refine same ?_
    simp only [Live.accept, Hand.events, hand]
    by_cases ho : (m.session.queues.get? p).isSome = true <;> simp [ho]
  | schedule p hand => exact same (by simp [handOver, Hand.events, hand])
  | next i p at_ =>
    unfold look
    split <;> exact List.prefix_rfl
  | receive | endFeed | begin | finish | stop | join | «return» => exact List.prefix_rfl

theorem accepted_mono_of_run {h : Handler W ε} {m m' : Live n W} {as : List (Action n)}
    (hr : m.run h as = some m') :
    m.accepted ++ m.hand.events <+: m'.accepted ++ m'.hand.events :=
  run_induct (P := fun m' => m.accepted ++ m.hand.events <+: m'.accepted ++ m'.hand.events)
    (fun hp hs => hp.trans hs.accepted_mono) List.prefix_rfl hr

/-- The world is what the handled events made of it. -/
theorem world_of_run {h : Handler W ε} {session : Session} {w : W} {m : Live n W}
    {as : List (Action n)} (hr : (ofSession n session w).run h as = some m) :
    m.world = m.handled.foldl (fun w (p, e) => h.apply w p e) w := by
  refine run_induct (P := fun m => m.world = m.handled.foldl (fun w (p, e) => h.apply w p e) w)
    (fun {m m' a} hp hs => ?_) rfl hr
  cases hs with
  | submit path e rest hand next => unfold consider; split <;> exact hp
  | next i p at_ => unfold look; split <;> exact hp
  | finish i p e busy =>
    simp only [Live.complete, List.foldl_append, List.foldl_cons, List.foldl_nil, ← hp]
  | receive | enqueue | schedule | endFeed | begin | stop | join | «return» => exact hp

/-- No thread does anything once the call to stop has returned. -/
theorem Staged.final {h : Handler W ε} {m m' : Live n W} {a : Action n} (hm : m.Staged)
    (ho : m.stage = .ended) (hs : Move h m a m') : m' = m := by
  have hu := hm.joined (.inr ho)
  obtain ⟨hand, done⟩ := hm.unfed hu
  obtain ⟨none, idle⟩ := hm.ended ho
  cases hs with
  | receive notice hand' done' fed => rw [hu] at fed; cases fed
  | submit path e rest hand' next => rw [done] at next; cases next
  | enqueue p e hand' => rw [hand] at hand'; cases hand'
  | schedule p hand' => rw [hand] at hand'; cases hand'
  | endFeed => rw [← hu]
  | begin i p rest idle' next => rw [none] at next; cases next
  | next i p at_ => rw [idle] at at_; cases at_
  | finish i p e busy => rw [idle] at busy; cases busy
  | stop stage => rw [ho] at stage; cases stage
  | join stage => rw [ho] at stage; cases stage
  | «return» stage => rw [ho] at stage; cases stage

theorem Staged.final_run {h : Handler W ε} {m m' : Live n W} {as : List (Action n)} (hm : m.Staged)
    (ho : m.stage = .ended) (hr : m.run h as = some m') : m' = m :=
  run_induct (P := (· = m)) (fun hp hs => by subst hp; exact hm.final ho hs) rfl hr

/-- After the call to stop has returned, no queue is open and all accepted events are handled. -/
theorem Sound.ended {s : Session} {m : Live n W} (hm : Sound s m) (ho : m.stage = .ended) :
    m.session.queues = [] ∧ ∀ p, eventsAt p m.handled = eventsAt p m.accepted := by
  obtain ⟨hand, -⟩ := hm.staged.unfed (hm.staged.joined (.inr ho))
  obtain ⟨none, idle⟩ := hm.staged.ended ho
  have queues : m.session.queues = [] := Queues.eq_nil_of_get? fun p => by
    have := (hm.attended.isOpen p).not.2 (by simp [hand, none, HasWorker, idle, Worker.path?])
    simpa using this
  refine ⟨queues, fun p => ?_⟩
  have free := hm.logged.free p fun i e h => by rw [idle] at h; cases h
  rw [hm.logged.waiting p, ← free, queues]
  simp [Queues.waitingAt, Queues.get?]

/-- However the threads take turns and whatever the handler does: at most one worker handles events of a
path at a time, these are taken in the order in which they came, and when the call to stop has returned,
each event that was accepted has been handled once, with it all that came while the session was
watching, and nothing happens any more. -/
theorem run_keeps_order (h : Handler W ε) {session : Session} (hs : session.state = .watching)
    (hq : session.queues = []) (w : W) {as : List (Action n)} {m : Live n W}
    (hr : (ofSession n session w).run h as = some m) :
    (∀ p e f i j, m.workers i = .handling p e → m.workers j = .handling p f → i = j) ∧
    (∀ p, eventsAt p m.taken <+: eventsAt p (session.expected m.notices)) ∧
    (m.stage = .ended →
      m.session.queues = [] ∧ (∀ i, m.workers i = .idle) ∧
      m.accepted <+: session.expected m.notices ∧ m.handled.Perm m.accepted ∧
      (∀ p, eventsAt p m.handled = eventsAt p m.accepted) ∧
      (∀ before after m1, as = before ++ after → (ofSession n session w).run h before = some m1 →
        m1.session.state = .watching → m1.toSubmit = [] →
        ∀ p, eventsAt p (session.expected m1.notices) <+: eventsAt p m.handled) ∧
      ∀ more m', m.run h more = some m' → m' = m) := by
  have hm := (Sound.of_start hs hq w).run hr
  refine ⟨fun p e f i j hi hj => ?_, fun p => ?_, fun ho => ?_⟩
  · exact hm.attended.alone p i j (by rw [hi]; rfl) (by rw [hj]; rfl)
  · have accepted : m.accepted <+: session.expected m.notices :=
      (List.prefix_append _ _).trans hm.fed.only
    refine List.IsPrefix.trans ?_ (eventsAt_mono accepted p)
    rw [hm.logged.waiting p]
    exact List.prefix_append _ _
  · obtain ⟨queues, handled⟩ := hm.ended ho
    refine ⟨queues, (hm.staged.ended ho).2, (List.prefix_append _ _).trans hm.fed.only,
      perm_of_eventsAt handled, handled, fun before after m1 ha h1 hw hd p => ?_,
      fun more m' => hm.staged.final_run ho⟩
    obtain ⟨m2, h2, hr⟩ := run_append.1 (ha ▸ hr)
    cases h1.symm.trans h2
    have all := ((Sound.of_start hs hq w).run h1).fed.all hw
    have hand := (hm.staged.unfed (hm.staged.joined (.inr ho))).1
    have grown := accepted_mono_of_run hr
    rw [hd] at all
    simp only [Session.placed, List.filterMap_nil, List.append_nil] at all
    rw [all, hand] at grown
    simp only [Hand.events, List.append_nil] at grown
    rw [handled]
    exact eventsAt_mono grown p

/-- A session for `site/*.j2` in the directory `/p`. -/
def smallSession : Session :=
  ((Session.ofEntries (.ofDir ⟨.slash, ["p"]⟩ ⟨⟨2024, 1, 1⟩, 0, 0, 0, 0, none⟩) ["site/*.j2"] []).start {}).1

/-- Notes what it is given and fails each time. -/
def noting : Handler (List (Path × Event)) Unit where
  handle w p e := (w ++ [(p, e)], .error ())
  tell w _ := w

/-- A file is changed and then moved away; the session is stopped while a worker has the change in hand. -/
def smallSteps : List (Action 2) :=
  [.receive ⟨.modified "site/a.css", false⟩, .submit, .enqueue, .schedule,
    .receive ⟨.moved "site/a.css" "site/b.css", false⟩, .submit, .begin 1, .next 1, .enqueue,
    .submit, .stop, .enqueue, .schedule, .endFeed, .begin 0, .next 0, .join, .finish 0, .finish 1,
    .next 1, .next 0, .finish 1, .next 1, .return]

theorem run_keeps_order_small : ∃ m, (ofSession 2 smallSession []).run noting smallSteps = some m ∧
    m.stage = .ended ∧ m.handled.Perm m.accepted ∧
    ∀ p, eventsAt p m.taken <+: eventsAt p (smallSession.expected m.notices) := by
  have ends : ((ofSession 2 smallSession []).run noting smallSteps).map (·.stage) = some .ended := by
    decide +kernel
  obtain ⟨m, hr, ended⟩ := Option.map_eq_some_iff.1 ends
  have kept := run_keeps_order noting (by decide) (by decide) [] hr
  exact ⟨m, hr, ended, (kept.2.2 ended).2.2.2.1, kept.2.1⟩

end Live

end StaticSite.Watch
