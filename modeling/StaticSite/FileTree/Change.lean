import StaticSite.FileTree.Basic

/-!
# Changing a file tree

Each operation gives the tree it leaves behind, also when it fails. A file is put whole or not at all; the
directories above it may have been made before a failure.
-/

namespace StaticSite.FileTree

/-- The tree that is left, with the result. -/
abbrev Changed (α : Type) := FileTree × Except OsFault α

/-- Makes one directory. -/
def makeDir (t : FileTree) (p : Path) : Changed Unit :=
  match t.locate p with
  | .error cause => (t, .error (.refused cause p))
  | .ok loc =>
    if (t.get? loc).isSome then (t, .error (.refused .alreadyThere p))
    else (t.put loc .dir, .ok ())

/-- A directory that is there already is as good as made. -/
def orThere (p : Path) : Changed Unit → Changed Unit
  | (t, .ok ()) => (t, .ok ())
  | (t, .error fault) => if t.isDir p then (t, .ok ()) else (t, .error fault)

/-- Makes a directory and those above it; the segments are given from the last to the first. -/
def makeDirsUp (t : FileTree) (root : Root) : List String → Changed Unit
  | [] => (t, .ok ())
  | s :: up =>
    let p : Path := ⟨root, (s :: up).reverse⟩
    match t.makeDir p with
    | (_, .error (.refused .notFound _)) =>
      match makeDirsUp t root up with
      | (t, .ok ()) => orThere p (t.makeDir p)
      | failed => failed
    | made => orThere p made

def makeDirs (t : FileTree) (p : Path) : Changed Unit := makeDirsUp t p.root p.segments.reverse

/-- Puts a file at a path whose directory is there. -/
def putFile (t : FileTree) (p : Path) (content : ByteArray) : Changed Unit :=
  match t.locate p with
  | .error cause => (t, .error (.refused cause p))
  | .ok loc => match t.get? loc with
    | some .dir => (t, .error (.refused .isDirectory p))
    | _ => (t.put loc (.file content), .ok ())

/-- Writes a file, making the directories above it. -/
def write (t : FileTree) (p : Path) (content : ByteArray) : Changed Unit :=
  match t.makeDirs p.parent with
  | (t, .ok ()) => t.putFile p content
  | failed => failed

/-- Two paths lead to one node. -/
def sameNode (t : FileTree) (p q : Path) : Bool :=
  match t.locate p, t.locate q with
  | .ok l, .ok m => l == m && (t.get? l).isSome
  | _, _ => false

/-- Copies a file to a path whose directory is there, or into the directory at that path. -/
def copyFile (t : FileTree) (source target : Path) : Changed Unit :=
  let entered := t.isDir target
  let target := if entered then target.child source.name else target
  if t.sameNode source target then (t, .error (.sameFile source target entered))
  else match t.read source with
    | .error fault => (t, .error fault)
    | .ok content => t.putFile target content

/-- The tree without what stands at a path or below it. -/
def remove (t : FileTree) (p : Path) : FileTree :=
  match t.locate p with
  | .ok loc => t.erase fun l => loc.isPrefixOf l
  | .error _ => t

/-- Moves a file to a path whose directory is there, in the place of a file that is there. -/
def moveFile (t : FileTree) (source target : Path) : Changed Unit :=
  match t.read source with
  | .error fault => (t, .error fault)
  | .ok content => match t.putFile target content with
    | (t, .ok ()) => (t.remove source, .ok ())
    | failed => failed

/-- The length of the longest name in the tree. -/
def longest (t : FileTree) : Nat := (t.entries.flatMap Prod.fst).foldl (fun n s => max n s.length) 0

/-- A name that begins with `stem` and that nothing in the tree has. -/
def unusedName (t : FileTree) (stem : String) : String :=
  stem ++ String.ofList (List.replicate (t.longest + 1) '_')

end StaticSite.FileTree
