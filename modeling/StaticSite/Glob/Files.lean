import StaticSite.FileTree.Basic
import StaticSite.Glob.Braces
import StaticSite.Glob.Pattern

/-!
# Files that match a pattern

`files t base pattern` is the increasing list of the files that one of the pattern's brace expansions
matches, as seen from the directory `base`. `**` stands for any number of directories; neither it nor
a pattern that does not begin with a dot finds hidden names.
-/

namespace StaticSite.Glob

/-- One segment of a pattern. -/
inductive Piece where
  | name (segment : String)
  | pattern (items : List Item) (hidden : Bool)
  | deep
  deriving DecidableEq, Repr

def hasMagic (s : String) : Bool := s.toList.any fun c => c == '*' || c == '?' || c == '['

def isHidden (name : String) : Bool := name.toList.head? == some '.'

def Piece.ofString (s : String) : Piece :=
  if s = "**" then .deep
  else if hasMagic s then .pattern (segmentItems .any s.toList) (isHidden s)
  else .name s

/-! ## Listing -/

/-- What stands in the directory at `loc`, by name; with `dirsOnly` the directories alone. -/
def listed (t : FileTree) (dirsOnly : Bool) (loc : Location) : List String :=
  (t.children loc).filter fun name => !dirsOnly || t.get? (loc ++ [name]) = some .dir

/-- The segments below a directory that no hidden name leads to. -/
def below (t : FileTree) (dirsOnly : Bool) (loc : Location) : List Location :=
  t.entries.filterMap fun (l, _) =>
    let segs := l.drop loc.length
    if loc.isPrefixOf l ∧ loc ≠ l ∧ (!dirsOnly || t.get? l = some .dir) ∧ segs.all (!isHidden ·) then
      some segs
    else none

def matchingNames (t : FileTree) (dirsOnly : Bool) (items : List Item) (hidden : Bool)
    (loc : Location) : List String :=
  (listed t dirsOnly loc).filter fun name =>
    (hidden || !isHidden name) && matchItems CharSet.accepts items name.toList

/-! ## Following a pattern -/

/-- What `f` gives for the location that segments lead to from `base`; nothing if they lead nowhere. -/
def atLocation (t : FileTree) (base : Location) (segs : List String) (f : Location → List α) :
    List α :=
  match t.walk base segs with
  | .ok loc => if (t.get? loc).isSome then f loc else []
  | .error _ => []

/-- The segments that the pieces stand for, those from `lead` on. Only directories are looked for until
the last piece. `**` stands for no segment at all without a look at what `lead` leads to. -/
def found (t : FileTree) (base : Location) : List String → List Piece → List (List String)
  | lead, [] => [lead]
  | lead, .name s :: rest =>
    if (atLocation t base (lead ++ [s]) fun _ => [()]).isEmpty then []
    else found t base (lead ++ [s]) rest
  | lead, .pattern items hidden :: rest =>
    (atLocation t base lead (matchingNames t (!rest.isEmpty) items hidden)).flatMap fun name =>
      found t base (lead ++ [name]) rest
  | lead, .deep :: rest =>
    found t base lead rest ++
      (atLocation t base lead (below t !rest.isEmpty)).flatMap fun segs =>
        found t base (lead ++ segs) rest

/-- The segments of a pattern; none if it ends with a slash, which only directories match. -/
def pieces? (pattern : String) : Option (List Piece) :=
  let ps := Text.pieces '/' pattern
  if ps.getLast? = some "" then none else some ((ps.filter (· ≠ "")).map Piece.ofString)

/-- The text of a piece that has no magic. -/
def Piece.name? : Piece → Option String
  | .name s => some s
  | _ => none

/-- The directory that a pattern is followed from, if it has a piece that is no name. -/
def lead? (pattern : String) : Option Path :=
  let pieces := ((Text.pieces '/' pattern).filter (· ≠ "")).map Piece.ofString
  if pieces.all (·.name?.isSome) then none
  else some ⟨Path.rootOf pattern.toList,
    (pieces.takeWhile (·.name?.isSome)).filterMap Piece.name?⟩

/-- What the pieces stand for. Names before the first other piece are taken as they are. -/
def foundFrom (t : FileTree) (base : Location) (pieces : List Piece) : List (List String) :=
  let names := (pieces.takeWhile (·.name?.isSome)).filterMap Piece.name?
  match pieces.dropWhile (·.name?.isSome) with
  | [] => found t base [] pieces
  | rest => found t base names rest

/-- The files that a pattern without brace groups matches. The directory itself is none of them, even
if a file stands there. -/
def plainFiles (t : FileTree) (base : Path) (pattern : String) : List Path :=
  let root := Path.rootOf pattern.toList
  match pieces? pattern, t.locate (if root = .relative then base else ⟨.slash, []⟩) with
  | some pieces, .ok loc =>
    (((foundFrom t loc pieces).filter (· ≠ [])).map fun segs => segs.filter (· ≠ ".")).filterMap
      fun segs => match t.walk loc segs with
        | .ok target => match t.get? target with
          | some (.file _) => some ⟨root, segs⟩
          | _ => none
        | .error _ => none
  | _, _ => []

def files (t : FileTree) (base : Path) (pattern : String) : List Path :=
  Path.sortDistinct ((expandBraces pattern).flatMap (plainFiles t base))

end StaticSite.Glob
