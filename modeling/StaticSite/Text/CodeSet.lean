/-!
# Sets and shifts of code points

`CodeSet` is a set of code points given by the points where membership changes. `ShiftRun` maps an
evenly spaced run of code points by one offset; `shift` looks a point up in a list of runs.
-/

namespace StaticSite.Text

/-- The increasing list of the points where membership changes. -/
abbrev CodeSet := List Nat

/-- Membership to the right of the bounds passed so far is `inside`. -/
def CodeSet.memFrom (inside : Bool) (n : Nat) : CodeSet → Bool
  | [] => inside
  | b :: bs => if n < b then inside else memFrom (!inside) n bs

def CodeSet.mem (s : CodeSet) (c : Char) : Bool := CodeSet.memFrom false c.toNat s

/-- The points `lo, lo + stride, …, hi`, each moved by `delta`. -/
structure ShiftRun where
  lo : Nat
  hi : Nat
  stride : Nat
  delta : Int
  deriving Repr

def ShiftRun.covers (r : ShiftRun) (n : Nat) : Bool :=
  r.lo ≤ n && n ≤ r.hi && (n - r.lo) % r.stride == 0

/-- The image of `n` under the first run that covers it. -/
def shift? (runs : List ShiftRun) (n : Nat) : Option Nat :=
  (runs.find? (·.covers n)).map fun r => ((n : Int) + r.delta).toNat

/-- The points that some run moves to `n`. -/
def unshift (runs : List ShiftRun) (n : Nat) : List Nat :=
  runs.filterMap fun r =>
    let m := ((n : Int) - r.delta).toNat
    if r.covers m then some m else none

end StaticSite.Text
