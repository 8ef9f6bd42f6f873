import StaticSite.Watch.Session

/-!
# Sessions at work

Several threads share a session. The observer's thread hands it the events of notices, the workers of a pool
take the events from the queues and handle them, and another thread may stop it. A `Live` is what they
share between two steps, and `Live.step` is what a thread does in one. How an event is handled is left open:
a `Handler` may do anything to the world and may fail.
-/

namespace StaticSite.Watch

/-- How an event is handled: the world afterwards and the failure, if there is one, which is told. -/
structure Handler (W ε : Type) where
  handle : W → Path → Event → W × Except ε Unit
  tell : W → ε → W

/-- What the observer's thread has in hand. -/
inductive Hand where
  | free
  /-- An event that was let in, on its way to its queue. -/
  | letIn (p : Path) (e : Event)
  /-- A queue that was opened, on its way to the pool. -/
  | opened (p : Path)
  deriving DecidableEq, Repr

/-- An event is let in if there is a place for it. -/
def Hand.ofPlace (e : Event) : Option Path → Hand
  | none => .free
  | some p => .letIn p e

inductive Worker where
  | idle
  /-- At a queue, with no event in hand. -/
  | draining (p : Path)
  | handling (p : Path) (e : Event)
  deriving DecidableEq, Repr

/-- How far the thread is that stops the session. -/
inductive Stage where
  | running
  /-- The session is stopped, and the observer's thread is waited for. -/
  | stopping
  /-- The pool takes no more queues, and its workers are waited for. -/
  | closing
  /-- The call to stop has returned. -/
  | ended
  deriving DecidableEq, Repr

/-- A session at work with `n` workers. -/
structure Live (n : Nat) (W : Type) where
  session : Session
  world : W
  /-- The events of the notice in hand that are still to be submitted. -/
  toSubmit : List (String × Event) := []
  hand : Hand := .free
  /-- The observer's thread has ended. -/
  isUnfed : Bool := false
  /-- Queues that no worker has begun with, oldest first. -/
  scheduled : List Path := []
  workers : Fin n → Worker := fun _ => .idle
  stage : Stage := .running
  /-- The notices that came so far. -/
  notices : List Notice := []
  /-- The events that were put into queues, in this order. -/
  accepted : List (Path × Event) := []
  /-- The events that were taken from queues, in this order. -/
  taken : List (Path × Event) := []
  /-- The events that were handled, in the order in which that ended. -/
  handled : List (Path × Event) := []

/-- A step of one thread. -/
inductive Action (n : Nat) where
  /-- The observer's thread takes up a notice. -/
  | receive (notice : Notice)
  /-- It looks at the next event of the notice. -/
  | submit
  /-- It puts the event in hand into its queue. -/
  | enqueue
  /-- It hands a new queue to the pool. -/
  | schedule
  | endFeed
  /-- A worker takes up a queue. -/
  | begin (worker : Fin n)
  /-- A worker takes the next event from its queue, or closes the queue. -/
  | next (worker : Fin n)
  | finish (worker : Fin n)
  /-- Another thread stops the session. -/
  | stop
  /-- It has seen the end of the observer's thread and closes the pool. -/
  | join
  | return
  deriving Repr

section
variable {W ε : Type} {n : Nat}

/-- The world after an event; a failure is told and ends nothing else. -/
def Handler.apply (h : Handler W ε) (w : W) (p : Path) (e : Event) : W :=
  match h.handle w p e with
  | (w, .ok ()) => w
  | (w, .error fault) => h.tell w fault

/-- The workers with another state of one of them. -/
def setWorker (workers : Fin n → Worker) (i : Fin n) (w : Worker) : Fin n → Worker :=
  fun j => if j = i then w else workers j

namespace Live

/-- A session before anything has come to it. -/
def ofSession (n : Nat) (session : Session) (world : W) : Live n W := { session, world }

/-- The pool takes queues. -/
def takesQueues (m : Live n W) : Bool := m.stage = .running || m.stage = .stopping

/-- Looks at the event `e` at `path`. A pattern for everything is no pattern to ignore: the observer's thread
dies of it. -/
def consider (m : Live n W) (path : String) (e : Event) : Live n W :=
  match Glob.leavesOut m.session.site.options.watch.ignorePatterns path with
  | .error _ => { m with toSubmit := [], isUnfed := true }
  | .ok true => { m with toSubmit := m.toSubmit.tail }
  | .ok false => { m with
      toSubmit := m.toSubmit.tail
      hand := .ofPlace e (m.session.admit? path) }

/-- Puts an event into its queue. -/
def accept (m : Live n W) (p : Path) (e : Event) : Live n W := { m with
  session := m.session.enqueue p e
  hand := if (m.session.queues.get? p).isSome then .free else .opened p
  accepted := m.accepted ++ [(p, e)] }

/-- Hands a queue to the pool, which drops it if it is closed. -/
def handOver (m : Live n W) (p : Path) : Live n W := { m with
  hand := .free
  scheduled := if m.takesQueues then m.scheduled ++ [p] else m.scheduled }

/-- A worker looks into its queue. -/
def look (m : Live n W) (i : Fin n) (p : Path) : Live n W :=
  match m.session.queues.get? p with
  | none => { m with workers := setWorker m.workers i .idle }
  | some [] => { m with
      session.queues := m.session.queues.close p
      workers := setWorker m.workers i .idle }
  | some (e :: _) => { m with
      session.queues := m.session.queues.dropFirst p
      workers := setWorker m.workers i (.handling p e)
      taken := m.taken ++ [(p, e)] }

/-- A worker has handled its event. -/
def complete (h : Handler W ε) (m : Live n W) (i : Fin n) (p : Path) (e : Event) : Live n W := { m with
  world := h.apply m.world p e
  workers := setWorker m.workers i (.draining p)
  handled := m.handled ++ [(p, e)] }

/-- The state after a step; none if the thread cannot make it. -/
def step (h : Handler W ε) (m : Live n W) : Action n → Option (Live n W)
  | .receive notice => match m.hand, m.toSubmit, m.isUnfed with
    | .free, [], false =>
      some { m with toSubmit := notice.allEvents, notices := m.notices ++ [notice] }
    | _, _, _ => none
  | .submit => match m.hand, m.toSubmit with
    | .free, (path, e) :: _ => some (m.consider path e)
    | _, _ => none
  | .enqueue => match m.hand with
    | .letIn p e => some (m.accept p e)
    | _ => none
  | .schedule => match m.hand with
    | .opened p => some (m.handOver p)
    | _ => none
  | .endFeed => match m.hand, m.toSubmit with
    | .free, [] => some { m with isUnfed := true }
    | _, _ => none
  | .begin i => match m.workers i, m.scheduled with
    | .idle, p :: rest =>
      some { m with scheduled := rest, workers := setWorker m.workers i (.draining p) }
    | _, _ => none
  | .next i => match m.workers i with
    | .draining p => some (m.look i p)
    | _ => none
  | .finish i => match m.workers i with
    | .handling p e => some (m.complete h i p e)
    | _ => none
  | .stop => match m.stage, m.session.state with
    | .running, .watching => some { m with session.state := .stopped, stage := .stopping }
    | _, _ => none
  | .join => match m.stage, m.isUnfed with
    | .stopping, true => some { m with stage := .closing }
    | _, _ => none
  | .return =>
    if m.stage = .closing ∧ m.scheduled = [] ∧ ∀ i, m.workers i = .idle then
      some { m with session := m.session.shutDown.1, stage := .ended }
    else none

/-- The state after several steps in turn. -/
def run (h : Handler W ε) : Live n W → List (Action n) → Option (Live n W)
  | m, [] => some m
  | m, a :: as => (m.step h a).bind fun m => run h m as

end Live

end

/-- Events are handled by updating the output of a site; a failure is told. -/
def siteHandler (site : Site) : Handler Applied Site.Fault where
  handle w p e :=
    let step := site.update w.tree w.pages p e
    match step.result with
    | .ok pages => (⟨step.tree, pages, w.reports ++ step.reports⟩, .ok ())
    | .error fault => (⟨step.tree, w.pages, w.reports ++ step.reports⟩, .error fault)
  tell w fault := { w with reports := w.reports ++ [.failed fault] }

end StaticSite.Watch
