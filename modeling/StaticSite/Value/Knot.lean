import StaticSite.Value.Basic

/-!
# Collections that hold themselves

`Value.tie` marks a collection that holds itself as a knot. `items?` and `record?` give the parts of a
collection. Those of a knot hold the knot in full wherever they led back to it.
-/

namespace StaticSite.Value

/-! ## Leading back -/

mutual

/-- How far each `back` in a value leads, which lies `depth` steps inside a collection: zero if to that
collection, less if not so far, more if further. -/
def reaches (depth : Nat) : Value → List Int
  | .back level _ => [(level : Int) - depth]
  | .list items => reachesAll (depth + 1) items
  | .tuple items => reachesAll (depth + 1) items
  | .map entries => reachesEntries (depth + 1) entries
  | _ => []

def reachesAll (depth : Nat) : List Value → List Int
  | [] => []
  | v :: vs => reaches depth v ++ reachesAll depth vs

def reachesEntries (depth : Nat) : List (Value × Value) → List Int
  | [] => []
  | (_, v) :: es => reaches depth v ++ reachesEntries depth es

end

/-- A knot, if the collection holds itself and nothing in it leads out of it. -/
def tie (v : Value) : Value :=
  let found := match v with
    | .list items => reachesAll 0 items
    | .map entries => reachesEntries 0 entries
    | _ => []
  if 0 ∈ found ∧ found.all (· ≤ 0) then .knot v else v

/-! ## Parts -/

mutual

/-- `v`, which lies `depth` steps inside `whole`, with `whole` for what leads back to it. -/
def reenter (whole : Value) (depth : Nat) : Value → Value
  | .back level isMap => if level = depth then whole else .back level isMap
  | .list items => tie (.list (reenterAll whole (depth + 1) items))
  | .tuple items => .tuple (reenterAll whole (depth + 1) items)
  | .map entries => tie (.map (reenterEntries whole (depth + 1) entries))
  | v => v

def reenterAll (whole : Value) (depth : Nat) : List Value → List Value
  | [] => []
  | v :: vs => reenter whole depth v :: reenterAll whole depth vs

def reenterEntries (whole : Value) (depth : Nat) : List (Value × Value) → List (Value × Value)
  | [] => []
  | (k, v) :: es => (k, reenter whole depth v) :: reenterEntries whole depth es

end

/-- The items of a list. -/
def items? : Value → Option (List Value)
  | .list items => some items
  | .knot (.list items) => some (reenterAll (.knot (.list items)) 0 items)
  | _ => none

/-- The entries of a map. -/
def record? : Value → Option Record
  | .map entries => some entries
  | .knot (.map entries) => some (reenterEntries (.knot (.map entries)) 0 entries)
  | _ => none

@[simp] theorem items?_list (items : List Value) : items? (.list items) = some items := rfl

@[simp] theorem record?_map (entries : Record) : record? (.map entries) = some entries := rfl

end StaticSite.Value
