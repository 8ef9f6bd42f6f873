import StaticSite.Glob.Ignore
import StaticSite.Path.Basic

/-!
# Events

An observer of the file system gives notices. `Notice.events` are the events that a notice stands for, each
with the path it happened to: a move is the removal of the source and then the addition of the target.
Events at ignored paths are left out.
-/

namespace StaticSite.Watch

inductive EventKind where
  | add
  | change
  | unlink
  | unlinkDir
  deriving DecidableEq, Repr

/-- What happened at a path. -/
structure Event where
  kind : EventKind
  isDir : Bool := false
  deriving DecidableEq, Repr

/-- What an observer saw. -/
inductive Sight where
  | created (path : String)
  | modified (path : String)
  | deleted (path : String)
  | moved (source target : String)
  | opened (path : String)
  | closed (path : String)
  deriving DecidableEq, Repr

structure Notice where
  sight : Sight
  isDir : Bool := false
  deriving DecidableEq, Repr

/-- The kind of the event that something is gone. -/
def removal (isDir : Bool) : EventKind := if isDir then .unlinkDir else .unlink

/-- The events of a notice with their paths, ignored ones included. -/
def Notice.allEvents (n : Notice) : List (String × Event) :=
  match n.sight with
  | .created p => [(p, ⟨.add, n.isDir⟩)]
  | .modified p => [(p, ⟨.change, n.isDir⟩)]
  | .deleted p => [(p, ⟨removal n.isDir, n.isDir⟩)]
  | .moved source target => [(source, ⟨removal n.isDir, n.isDir⟩), (target, ⟨.add, n.isDir⟩)]
  | .opened _ => []
  | .closed _ => []

/-- The events whose path no pattern ignores. -/
def unignored (patterns : List String) :
    List (String × Event) → Except Glob.IgnoresEverything (List (String × Event))
  | [] => .ok []
  | e :: rest => do
    let ignored ← Glob.leavesOut patterns e.1
    let rest ← unignored patterns rest
    return if ignored then rest else e :: rest

def Notice.events (n : Notice) (patterns : List String) :
    Except Glob.IgnoresEverything (List (String × Event)) :=
  unignored patterns n.allEvents

end StaticSite.Watch
