import StaticSite.Watch.Live

/-!
# Calls to a session

A session is started, handed events, waited for and stopped by calls, each made as a whole and one after
another, in any order and as often as one likes; its observer may die at any time. Between two calls the
workers of its pool go on with the queues that were handed to them. `Live.turn` is what one call, or one step
of a worker, does.
-/

namespace StaticSite.Watch

/-- A call to a session, or the death of its observer. -/
inductive Call where
  | start (observer : Observer)
  | submit (path : String) (e : Event)
  | stop
  | wait
  | loseObserver

/-- The session has come to its end. -/
def State.isFinal : State → Bool
  | .closed | .stopped => true
  | .initializing | .watching => false

namespace Session

/-- The session after a call, and what the call returns or raises; none as long as the call waits. -/
def call (s : Session) : Call → Option (Session × Except Fault Unit)
  | .start observer =>
    let (s, _, result) := s.start observer
    some (s, result)
  | .submit path e => some (s.submit path e, .ok ())
  | .stop => some (s.stop.1, .ok ())
  | .wait => s.wait.map fun (s, _, result) => (s, result)
  | .loseObserver => some (s.loseObserver, .ok ())

/-- The event that a call puts into a queue. -/
def accepts (s : Session) : Call → List (Path × Event)
  | .submit path e => (s.admit? path).toList.map (·, e)
  | _ => []

/-- The queue that a call opens and hands to the pool, which drops it once it was shut down. -/
def handsOver (s : Session) (c : Call) : List Path :=
  ((s.accepts c).map (·.1)).filter fun p => (s.queues.get? p).isNone && s.isWorking

end Session

/-- One thread's turn: a call, or a step of a worker. -/
inductive Turn (n : Nat) where
  | call (c : Call)
  | work (worker : Fin n)

def Turn.isStart {n : Nat} : Turn n → Bool
  | .call (.start _) => true
  | _ => false

def Turn.isSubmit {n : Nat} : Turn n → Bool
  | .call (.submit _ _) => true
  | _ => false

/-- What a worker does next. -/
def Worker.action {n : Nat} (i : Fin n) : Worker → Action n
  | .idle => .begin i
  | .draining _ => .next i
  | .handling _ _ => .finish i

namespace Live

variable {W ε : Type} {n : Nat}

/-- A session at work after a call, and what the call returns or raises. -/
def afterCall (m : Live n W) (c : Call) : Option (Live n W × Except Fault Unit) :=
  (m.session.call c).map fun (s, result) =>
    ({ m with
      session := s
      scheduled := m.scheduled ++ m.session.handsOver c
      accepted := m.accepted ++ m.session.accepts c }, result)

/-- A session at work after a turn, and what it returns; none if the call waits or the worker has nothing to do. -/
def turn (h : Handler W ε) (m : Live n W) : Turn n → Option (Live n W × Except Fault Unit)
  | .call c => m.afterCall c
  | .work i => (m.step h ((m.workers i).action i)).map (·, .ok ())

/-- A session at work after several turns, and what they return. -/
def turns (h : Handler W ε) : Live n W → List (Turn n) → Option (Live n W × List (Except Fault Unit))
  | m, [] => some (m, [])
  | m, t :: ts =>
    (m.turn h t).bind fun (m, result) => (turns h m ts).map fun (m, results) => (m, result :: results)

end Live

end StaticSite.Watch
