import StaticSite.Path.Basic
import StaticSite.Watch.Event

/-!
# Waiting events

Events wait in one queue for each path, in the order in which they came. `Queues.get?` is the view: a new
event goes behind the earlier ones of its path (`get?_push`), the first one leaves (`get?_dropFirst`), and a
queue may be closed (`get?_close`); the other queues are left alone each time.
-/

namespace StaticSite.Watch

/-- The queues in the order in which they were opened. -/
abbrev Queues := List (Path × List Event)

namespace Queues

/-- The queue of a path, if it is open. -/
def get? (p : Path) : Queues → Option (List Event)
  | [] => none
  | (q, es) :: rest => if q = p then some es else get? p rest

/-- The events that wait for a path. -/
def waitingAt (p : Path) (queues : Queues) : List Event := (queues.get? p).getD []

/-- Puts an event at the end of the queue of its path, which is opened if need be. -/
def push (p : Path) (e : Event) : Queues → Queues
  | [] => [(p, [e])]
  | (q, es) :: rest => if q = p then (q, es ++ [e]) :: rest else (q, es) :: push p e rest

/-- Takes the first event from the queue of a path. -/
def dropFirst (p : Path) : Queues → Queues
  | [] => []
  | (q, es) :: rest => if q = p then (q, es.tail) :: rest else (q, es) :: dropFirst p rest

/-- Closes the queue of a path. -/
def close (p : Path) (queues : Queues) : Queues := queues.filter (·.1 ≠ p)

/-- All waiting events, queue by queue. -/
def inOrder (queues : Queues) : List (Path × Event) :=
  queues.flatMap fun (p, es) => es.map (p, ·)

theorem get?_push (p q : Path) (e : Event) (queues : Queues) :
    (queues.push p e).get? q =
      if q = p then some (queues.waitingAt q ++ [e]) else queues.get? q := by
  induction queues with
  | nil => by_cases h : p = q <;> simp [push, waitingAt, get?, h, eq_comm]
  | cons r queues ih =>
    obtain ⟨r, es⟩ := r
    unfold push
    by_cases hp : r = p
    · subst hp
      by_cases hq : r = q
      · simp [get?, waitingAt, hq]
      · simp [get?, hq, Ne.symm hq]
    · by_cases hq : r = q
      · subst hq; simp [get?, hp]
      · simp [get?, waitingAt, hp, hq, ih]

theorem waitingAt_push (p q : Path) (e : Event) (queues : Queues) :
    (queues.push p e).waitingAt q =
      if q = p then queues.waitingAt q ++ [e] else queues.waitingAt q := by
  by_cases h : q = p <;> simp [waitingAt, get?_push, h]

theorem get?_dropFirst (p q : Path) (queues : Queues) :
    (queues.dropFirst p).get? q =
      if q = p then (queues.get? q).map List.tail else queues.get? q := by
  induction queues with
  | nil => simp [dropFirst, get?]
  | cons r queues ih =>
    obtain ⟨r, es⟩ := r
    unfold dropFirst
    by_cases hp : r = p
    · subst hp
      by_cases hq : r = q
      · simp [get?, hq]
      · simp [get?, hq, Ne.symm hq]
    · by_cases hq : r = q
      · subst hq; simp [get?, hp]
      · simp [get?, hp, hq, ih]

theorem get?_close (p q : Path) (queues : Queues) :
    (queues.close p).get? q = if q = p then none else queues.get? q := by
  induction queues with
  | nil => simp [close, get?]
  | cons r queues ih =>
    obtain ⟨r, es⟩ := r
    unfold close at ih ⊢
    by_cases hp : r = p
    · subst hp
      by_cases hq : q = r
      · simpa [hq] using ih
      · simpa [get?, hq, Ne.symm hq] using ih
    · by_cases hq : r = q
      · subst hq; simp [get?, hp]
      · simpa [get?, hp, hq] using ih

/-- No queue is open exactly if there are none. -/
theorem eq_nil_of_get? {queues : Queues} (h : ∀ p, queues.get? p = none) : queues = [] := by
  cases queues with
  | nil => rfl
  | cons r queues => have := h r.1; simp [get?] at this

end Queues

end StaticSite.Watch
