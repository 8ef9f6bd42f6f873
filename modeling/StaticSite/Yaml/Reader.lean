import StaticSite.Value.Knot
import StaticSite.Yaml.Node
import StaticSite.Yaml.ScalarValue

/-!
# Reading YAML

`Yaml.read` gives the value of the one document in a text, none if the text is empty. A merge key puts the
entries of other mappings before a mapping's own. Of several faults the one counts that is nearest to
the root, and among those the first.
-/

namespace StaticSite.Yaml

namespace Document

/-! ## Merge keys -/

def isMapping (d : Document) (node : Node) : Bool :=
  match d.shown node with
  | .mapping .. => true
  | _ => false

/-- A key written as `=` is a text. -/
def asKey : Node → Node
  | .scalar .value s => .scalar .text s
  | node => node

/-- The entries that are no merge keys. -/
def ownEntries (d : Document) (es : List (Node × Node)) : List (Node × Node) :=
  es.filterMap fun (k, v) => if d.tag k = .merge then none else some (asKey k, v)

mutual

/-- Entries with those of the merge keys before the others; none if a merge key has a value that is
neither a mapping nor a sequence of mappings. The mappings called `opened` are being merged. -/
def mergeEntries (d : Document) : Nat → List String → List (Node × Node) →
    Option (List (Node × Node))
  | 0, _, es => some (d.ownEntries es)
  | n + 1, opened, es => do
    let merged ← (es.filter fun (k, _) => d.tag k = .merge).mapM fun (_, v) =>
      d.mergedBy n opened v
    return merged.flatten ++ d.ownEntries es

/-- The entries that a merge key with this value brings in. -/
def mergedBy (d : Document) : Nat → List String → Node → Option (List (Node × Node))
  | 0, _, _ => some []
  | n + 1, opened, .alias name =>
    if name ∈ opened then match d.find name with
      | .mapping _ es => some (d.ownEntries es)
      | _ => some []
    else d.mergedBy n (name :: opened) (d.find name)
  | n + 1, opened, .mapping _ es => d.mergeEntries n opened es
  | n + 1, opened, .sequence _ items => do
    let merged ← items.mapM fun item =>
      if d.isMapping item then d.mergedBy n opened item else none
    return merged.reverse.flatten
  | _, _, .scalar .. => none

end

/-! ## Scalars -/

/-- The text of a node where a scalar is due: a mapping counts as its entry with the key `=`. -/
def textOf? (d : Document) : Nat → Node → Option String
  | 0, _ => none
  | n + 1, node => match d.shown node with
    | .scalar _ s => some s
    | .mapping _ es => match es.find? fun (k, _) => d.tag k = .value with
      | some (_, v) => d.textOf? n v
      | none => none
    | _ => none

/-- The value of a node whose tag asks for a scalar. -/
def scalarOf (d : Document) (node : Node) : Except Fault Value :=
  match d.textOf? d.bound node, d.tag node, d.isMapping node with
  | none, _, _ => .error .notYaml
  | some _, .timestamp, true => .error .momentOfEntries
  | some s, tag, _ => scalarValue tag s

/-! ## Faults -/

/-- Tags that ask for a collection. -/
def wantsCollection (tag : Tag) : Bool := tag ∈ [.sequence, .mapping, .set, .pairs]

/-- The faults of a node and what is in it, each with its distance from the root. The node has the anchor
`anchor` and lies in the collections called `opened`. -/
def faults (d : Document) : Nat → List String → Option String → Nat → Node → List (Nat × Fault)
  | 0, _, _, _, _ => []
  | n + 1, opened, _, depth, .alias name =>
    if name ∈ opened then [] else d.faults n (name :: opened) (some name) depth (d.find name)
  | n + 1, opened, anchor, depth, node =>
    let inside := d.faults n opened none (depth + 1)
    let misshapen := [(depth + 1, Fault.notYaml)]
    if wantsCollection (d.tag node) then match d.tag node, node with
      | .sequence, .sequence _ items => items.flatMap inside
      | .pairs, .sequence _ items => items.flatMap fun item => match d.shown item with
        | .mapping _ [(k, v)] => inside k ++ inside v
        | _ => misshapen
      | .mapping, .mapping _ es | .set, .mapping _ es =>
        match d.mergeEntries d.bound anchor.toList es with
        | none => misshapen
        | some es => es.flatMap fun (k, v) =>
          inside k ++ (if wantsCollection (d.tag k) then misshapen else []) ++ inside v
      | _, _ => misshapen
    else match d.scalarOf node with
      | .error fault => [(depth, fault)]
      | .ok _ => []

/-- The fault nearest to the root. -/
def firstFault (fs : List (Nat × Fault)) : Option Fault :=
  (fs.foldl (fun best f => match best with
    | none => some f
    | some b => if f.1 < b.1 then some f else some b) none).map (·.2)

/-! ## Values -/

/-- The value of a node without faults, which lies in collections with the anchors `around`, the innermost
first. -/
def value (d : Document) : Nat → List (Option String) → Option String → Node → Value
  | 0, _, _, _ => .null
  | n + 1, around, _, .alias name => match around.idxOf? (some name) with
    | some level => .back level (d.isMapping (.alias name))
    | none => d.value n around (some name) (d.find name)
  | n + 1, around, anchor, node =>
    let inside := d.value n (anchor :: around) none
    let tied (v : Value) : Value := if anchor.isSome then v.tie else v
    match d.tag node, node with
    | .sequence, .sequence _ items => tied (.list (items.map inside))
    | .pairs, .sequence _ items => tied (.list (items.filterMap fun item => match d.shown item with
      | .mapping _ [(k, v)] =>
        let part := d.value n (none :: anchor :: around) none
        some (.tuple [part k, part v])
      | _ => none))
    | .mapping, .mapping _ es =>
      let es := (d.mergeEntries d.bound anchor.toList es).getD []
      tied (.map (Record.ofEntries (es.map fun (k, v) => (inside k, inside v))))
    | .set, .mapping _ es =>
      let es := (d.mergeEntries d.bound anchor.toList es).getD []
      .set (Record.ofEntries (es.map fun (k, _) => (inside k, .null))).keys
    | _, node => (d.scalarOf node).toOption.getD .null

end Document

/-- The value of the document in a text, nothing if there is none. -/
def read (cs : List Char) : Except Fault Value := do
  match ← Document.ofTokens? (← tokens cs) with
  | none => return .null
  | some d => match Document.firstFault (d.faults d.bound [] none 0 d.root) with
    | some fault => throw fault
    | none => return d.value d.bound [] none d.root

end StaticSite.Yaml
