import StaticSite.Watch.Queue
import StaticSite.Watch.Update

/-!
# Watch sessions

A session sets up an observer for the root directories of a site. While it watches, the events of files in
them wait in queues until they are applied to the output; a fault is told and the session carries on. It
ends when it is stopped or when its observer fails.
-/

namespace StaticSite.Watch

inductive State where
  | initializing
  | watching
  /-- The observer failed. -/
  | closed
  | stopped
  deriving DecidableEq, Repr

def State.name : State → String
  | .initializing => "initializing"
  | .watching => "watching"
  | .closed => "closed"
  | .stopped => "stopped"

inductive Fault where
  | cannotWatch (roots : List String) (reason : String)
  | observerStopped
  /-- It is known already whether the observer runs. -/
  | settledTwice
  deriving DecidableEq, Repr

def Fault.message : Fault → String
  | .cannotWatch roots reason => "Cannot watch " ++ ", ".intercalate roots ++ ": " ++ reason
  | .observerStopped => "Filesystem observer stopped unexpectedly"
  | .settledTwice => "FINISHED"

/-- Whether the observer came to run, as far as it is known. -/
inductive Readiness where
  | pending
  | running
  | failed (fault : Fault)
  deriving DecidableEq, Repr

/-! ## Observers -/

/-- How an observer answers when it is set up: nothing, or the reason why it cannot. -/
structure Observer where
  schedule : Path → Option String := fun _ => none
  start : Option String := none

inductive ObserverCall where
  | schedule (dir : Path)
  | start
  | stop
  | join
  deriving DecidableEq, Repr

/-- Sets up an observer for directories: the calls it took and the reason why it does not run. -/
def Observer.setUp (o : Observer) : List Path → List ObserverCall × Option String
  | [] => match o.start with
    | none => ([.start], none)
    | some reason => ([], some reason)
  | dir :: dirs => match o.schedule dir with
    | none =>
      let (calls, failure) := o.setUp dirs
      (.schedule dir :: calls, failure)
    | some reason => ([], some reason)

/-! ## Sessions -/

structure Session where
  site : Site
  roots : List String
  pages : List Page
  state : State := .initializing
  readiness : Readiness := .pending
  /-- Whether the observer is alive, once there is one. -/
  observer : Option Bool := none
  /-- Queued events are applied. -/
  isWorking : Bool := true
  /-- The session was shut down. -/
  isOver : Bool := false
  queues : Queues := []

namespace Session

/-- A new session for the entries and pages of a site. -/
def ofEntries (site : Site) (entries : List String) (pages : List Page) : Session :=
  { site, roots := Path.rootDirs (entries.map Path.ofString), pages }

/-- Makes known whether the observer runs, which is possible once. -/
def settle (s : Session) (r : Readiness) : Session × Except Fault Unit :=
  match s.readiness with
  | .pending => ({ s with readiness := r }, .ok ())
  | _ => (s, .error .settledTwice)

/-- The directories to watch. -/
def dirs (s : Session) : List Path := s.roots.map fun root => s.site.dir / Path.ofString root

/-- Sets up the observer. -/
def start (s : Session) (o : Observer) : Session × List ObserverCall × Except Fault Unit :=
  match o.setUp s.dirs with
  | (calls, some reason) =>
    let (s, result) := { s with state := .closed, isWorking := false }.settle
      (.failed (.cannotWatch s.roots reason))
    (s, calls, result)
  | (calls, none) =>
    let (s, result) := { s with state := .watching, observer := some true }.settle .running
    (s, calls, result)

/-- Stops the observer and the work on events. -/
def shutDown (s : Session) : Session × List ObserverCall :=
  ({ s with isOver := true, isWorking := false, observer := s.observer.map fun _ => false },
    match s.observer with
    | none => []
    | some true => [.stop, .join]
    | some false => [.stop])

/-- Ends the session, unless it has ended. -/
def stop (s : Session) : Session × List ObserverCall :=
  match s.state with
  | .stopped | .closed => (s, [])
  | _ => { s with state := .stopped }.shutDown

/-- The session when its observer has died. -/
def loseObserver (s : Session) : Session :=
  { s with observer := s.observer.map fun _ => false }

/-- The end of waiting for the session to end; none as long as it goes on. -/
def wait (s : Session) : Option (Session × List ObserverCall × Except Fault Unit) :=
  match s.readiness with
  | .pending => none
  | .failed fault => some (s, [], .error fault)
  | .running =>
    if s.isOver then some (s, [], .ok ())
    else if s.observer = some false then
      let (s, calls) := { s with state := .closed }.shutDown
      some (s, calls, .error .observerStopped)
    else none

/-! ## Events -/

/-- The path as seen from the project, if its events count: it lies in a root directory and is no
output. -/
def place? (s : Session) (path : String) : Option Path := do
  let p := Path.ofString path
  let p ← if p.isAbsolute then p.relativeTo? s.site.dir else some p
  if p.parts.length < 2 || s.site.isOutput p then none else some p

/-- The place of an event that is let in: the session is watching and the path counts. -/
def admit? (s : Session) (path : String) : Option Path :=
  if s.state = .watching then s.place? path else none

/-- Puts an event at the end of the queue of its place. -/
def enqueue (s : Session) (p : Path) (e : Event) : Session :=
  { s with queues := s.queues.push p e }

/-- Queues an event, if it is let in. -/
def submit (s : Session) (path : String) (e : Event) : Session :=
  match s.admit? path with
  | none => s
  | some p => s.enqueue p e

/-- Queues the events of a notice. -/
def receive (s : Session) (n : Notice) : Except Glob.IgnoresEverything Session := do
  let events ← n.events s.site.options.watch.ignorePatterns
  return events.foldl (fun s (path, e) => s.submit path e) s

end Session

/-- What is left and told after events were applied. -/
structure Applied where
  tree : FileTree
  pages : List Page
  reports : List Site.Report

/-- Applies an event; a fault is told. -/
def applyEvent (site : Site) (t : FileTree) (pages : List Page) (p : Path) (e : Event) : Applied :=
  let step := site.update t pages p e
  match step.result with
  | .ok pages => ⟨step.tree, pages, step.reports⟩
  | .error fault => ⟨step.tree, pages, step.reports ++ [.failed fault]⟩

/-- Applies events in turn. -/
def applyEvents (site : Site) : FileTree → List Page → List (Path × Event) → Applied
  | t, pages, [] => ⟨t, pages, []⟩
  | t, pages, (p, e) :: rest =>
    let first := applyEvent site t pages p e
    let after := applyEvents site first.tree first.pages rest
    { after with reports := first.reports ++ after.reports }

/-- Applies all waiting events, if the session still does. -/
def Session.work (s : Session) (t : FileTree) : Session × FileTree × List Site.Report :=
  if s.isWorking then
    let done := applyEvents s.site t s.pages s.queues.inOrder
    ({ s with pages := done.pages, queues := [] }, done.tree, done.reports)
  else (s, t, [])

end StaticSite.Watch
