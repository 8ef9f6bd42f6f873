import StaticSite.Path.Resolve
import StaticSite.Text.Quoted

/-!
# File trees

A file tree says what stands at each location, a list of segments from the root without `..`. A path is
walked step by step, `..` included, so every directory on the way has to be there. There are no links.
`FileTree.get?` is the view: `get?_put` and `get?_erase` say what the operations do to it.
-/

namespace StaticSite

inductive Node where
  | file (content : ByteArray)
  | dir

instance : DecidableEq Node
  | .file a, .file b => match ByteArray.instDecidableEq a b with
    | isTrue h => isTrue (h ▸ rfl)
    | isFalse h => isFalse fun e => h (Node.file.inj e)
  | .dir, .dir => isTrue rfl
  | .file _, .dir => isFalse nofun
  | .dir, .file _ => isFalse nofun

abbrev Location := List String

structure FileTree where
  entries : List (Location × Node)

/-- Why the system refuses an operation on a path. -/
inductive OsCause where
  | notFound
  | alreadyThere
  | notDirectory
  | isDirectory
  deriving DecidableEq, Repr

def OsCause.text : OsCause → String
  | .notFound => "[Errno 2] No such file or directory"
  | .alreadyThere => "[Errno 17] File exists"
  | .notDirectory => "[Errno 20] Not a directory"
  | .isDirectory => "[Errno 21] Is a directory"

inductive OsFault where
  | refused (cause : OsCause) (path : Path)
  /-- Source and target of a copy are one file; `entered` if the target was given as a directory. -/
  | sameFile (source target : Path) (entered : Bool)
  deriving DecidableEq, Repr

def OsFault.message : OsFault → String
  | .refused cause path => cause.text ++ ": " ++ Text.quote path.text
  | .sameFile source target entered =>
    "PosixPath(" ++ Text.quote source.text ++ ") and " ++
      (if entered then Text.quote target.text else "PosixPath(" ++ Text.quote target.text ++ ")") ++
      " are the same file"

/-- A fault as it names a path that was given. -/
def OsFault.renamed (path : Path) : OsFault → OsFault
  | .refused cause _ => .refused cause path
  | fault => fault

namespace FileTree

def empty : FileTree := ⟨[]⟩

/-- What stands at a location; the root is a directory. -/
def get? (t : FileTree) (loc : Location) : Option Node :=
  if loc = [] then some .dir else t.entries.lookup loc

def putEntry (loc : Location) (node : Node) : List (Location × Node) → List (Location × Node)
  | [] => [(loc, node)]
  | (l, n) :: rest => if l = loc then (l, node) :: rest else (l, n) :: putEntry loc node rest

def put (t : FileTree) (loc : Location) (node : Node) : FileTree := ⟨putEntry loc node t.entries⟩

/-- The tree without the locations that satisfy `gone`. -/
def erase (t : FileTree) (gone : Location → Bool) : FileTree :=
  ⟨t.entries.filter fun e => !gone e.1⟩

/-- The names in a directory. -/
def children (t : FileTree) (loc : Location) : List String :=
  t.entries.filterMap fun (l, _) => if l ≠ [] ∧ l.dropLast = loc then l.getLast? else none

/-! ## Walking a path -/

/-- The location that the segments lead to from the directory at `loc`. -/
def walk (t : FileTree) (loc : Location) : List String → Except OsCause Location
  | [] => .ok loc
  | s :: rest => match t.get? loc with
    | none => .error .notFound
    | some (.file _) => .error .notDirectory
    | some .dir => walk t (Path.descend loc s) rest

def locate (t : FileTree) (p : Path) : Except OsCause Location := t.walk [] p.segments

/-- What an absolute path leads to. -/
def node? (t : FileTree) (p : Path) : Option Node :=
  match t.locate p with
  | .ok loc => t.get? loc
  | .error _ => none

def isThere (t : FileTree) (p : Path) : Bool := (t.node? p).isSome

def isFile (t : FileTree) (p : Path) : Bool := t.node? p matches some (.file _)

def isDir (t : FileTree) (p : Path) : Bool := t.node? p matches some .dir

/-- The content of the file at a path. -/
def read (t : FileTree) (p : Path) : Except OsFault ByteArray :=
  match t.locate p with
  | .error cause => .error (.refused cause p)
  | .ok loc => match t.get? loc with
    | none => .error (.refused .notFound p)
    | some .dir => .error (.refused .isDirectory p)
    | some (.file content) => .ok content

/-! ## The view -/

theorem lookup_cons_eq (loc l : Location) (n : Node) (es : List (Location × Node)) :
    ((l, n) :: es).lookup loc = if loc = l then some n else es.lookup loc := by
  by_cases h : loc = l
  · simp [h]
  · have hb : (loc == l) = false := by simpa using h
    rw [List.lookup_cons, hb, if_neg h]

theorem lookup_putEntry (loc loc' : Location) (node : Node) (es : List (Location × Node)) :
    (putEntry loc node es).lookup loc' = if loc' = loc then some node else es.lookup loc' := by
  induction es with
  | nil => simp [putEntry, lookup_cons_eq]
  | cons e es ih =>
    obtain ⟨l, n⟩ := e
    rw [putEntry, lookup_cons_eq]
    split
    · next hl => subst hl; rw [lookup_cons_eq]; split <;> rfl
    · next hl =>
      rw [lookup_cons_eq, ih]
      by_cases h : loc' = l
      · subst h; simp [hl]
      · simp [h]

@[simp] theorem get?_put (t : FileTree) {loc : Location} (node : Node) (h : loc ≠ [])
    (loc' : Location) : (t.put loc node).get? loc' = if loc' = loc then some node else t.get? loc' := by
  unfold get? put
  by_cases h' : loc' = []
  · subst h'; simp [Ne.symm h]
  · simp [h', lookup_putEntry]

theorem lookup_filter_fst (keep : Location → Bool) (loc : Location) (es : List (Location × Node)) :
    (es.filter fun e => keep e.1).lookup loc = if keep loc then es.lookup loc else none := by
  induction es with
  | nil => simp
  | cons e es ih =>
    obtain ⟨l, n⟩ := e
    rw [lookup_cons_eq, List.filter_cons]
    by_cases h : loc = l
    · subst h
      cases hk : keep loc
      · simp [ih, hk]
      · simp
    · cases hk : keep l <;> simp [lookup_cons_eq, h, ih]

@[simp] theorem get?_erase (t : FileTree) (gone : Location → Bool) {loc : Location} (h : loc ≠ []) :
    (t.erase gone).get? loc = if gone loc then none else t.get? loc := by
  simp only [get?, erase, h, if_false]
  rw [lookup_filter_fst (fun l => !gone l)]
  cases gone loc <;> simp

end FileTree

end StaticSite
