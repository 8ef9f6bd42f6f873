import StaticSite.Text.Split

/-!
# Paths

A path is a root and a list of segments. Reading drops empty and `.` segments and keeps `..`, so
`a//./b/` is `a/b`; exactly two leading slashes are a root of their own. Paths are ordered by their
parts, segment by segment.
-/

namespace StaticSite

/-- What stands before the first segment: nothing, one slash or exactly two. -/
inductive Root where
  | relative
  | slash
  | slashes
  deriving DecidableEq, Repr

def Root.text : Root → String
  | .relative => ""
  | .slash => "/"
  | .slashes => "//"

/-- The place of a root among the roots. -/
def Root.rank : Root → Nat
  | .relative => 0
  | .slash => 1
  | .slashes => 2

structure Path where
  root : Root
  segments : List String
  deriving DecidableEq, Repr

namespace Path

/-- The path without segments, `.`. -/
def here : Path := ⟨.relative, []⟩

def ofSegments (segs : List String) : Path := ⟨.relative, segs⟩

instance : Inhabited Path := ⟨here⟩

/-- The root that a text begins with; three slashes or more count as one. -/
def rootOf : List Char → Root
  | '/' :: '/' :: '/' :: _ => .slash
  | '/' :: '/' :: _ => .slashes
  | '/' :: _ => .slash
  | _ => .relative

/-- The segments of a text: what stands between slashes, empty and `.` pieces dropped. -/
def segmentsOf (s : String) : List String :=
  (Text.pieces '/' s).filter fun p => p ≠ "" ∧ p ≠ "."

def ofString (s : String) : Path := ⟨rootOf s.toList, segmentsOf s⟩

/-- The path is one that texts are read as. -/
def IsRead (p : Path) : Prop := ∀ s ∈ p.segments, s ≠ "" ∧ s ≠ "." ∧ '/' ∉ s.toList

instance (p : Path) : Decidable p.IsRead := inferInstanceAs (Decidable (∀ s ∈ p.segments, _))

theorem isRead_ofString (s : String) : (ofString s).IsRead := by
  intro segment h
  obtain ⟨hp, hn⟩ := List.mem_filter.1 h
  obtain ⟨piece, hpiece, rfl⟩ := List.mem_map.1 hp
  rw [decide_eq_true_eq] at hn
  exact ⟨hn.1, hn.2, by simpa using Text.notMem_of_mem_splitOn hpiece⟩

instance : Coe String Path := ⟨ofString⟩

/-- A segment is read as the path of that segment alone. -/
theorem ofString_segment {s : String} (h : s ≠ "" ∧ s ≠ "." ∧ '/' ∉ s.toList) :
    ofString s = ofSegments [s] := by
  have segments : segmentsOf s = [s] := by simp [segmentsOf, Text.pieces_of_notMem h.2.2, h.1, h.2.1]
  have root : rootOf s.toList = .relative := by
    cases hs : s.toList with
    | nil => rfl
    | cons c cs =>
      have : c ≠ '/' := fun hc => h.2.2 (by simp [hs, hc])
      simp [rootOf, this]
  rw [ofString, segments, root, ofSegments]

/-- The text of a path, `.` for the empty relative path. -/
def text (p : Path) : String :=
  if p = here then "." else p.root.text ++ String.intercalate "/" p.segments

instance : ToString Path := ⟨text⟩

def isAbsolute (p : Path) : Bool := p.root ≠ .relative

/-- The root, if there is one, and the segments. -/
def parts (p : Path) : List String :=
  if p.isAbsolute then p.root.text :: p.segments else p.segments

/-- The last segment, empty if there is none. -/
def name (p : Path) : String := p.segments.getLastD ""

/-- The path without its last segment. -/
def parent (p : Path) : Path := ⟨p.root, p.segments.dropLast⟩

/-- `q` as seen from `p`: an absolute `q` stands for itself. -/
def join (p q : Path) : Path := if q.isAbsolute then q else ⟨p.root, p.segments ++ q.segments⟩

instance : Div Path := ⟨join⟩

/-- `p` with one more segment. -/
def child (p : Path) (segment : String) : Path := ⟨p.root, p.segments ++ [segment]⟩

/-- The segments of `p` below `base`, if `base` begins `p`. -/
def relativeTo? (p base : Path) : Option Path :=
  if p.root = base.root ∧ base.segments.isPrefixOf p.segments then
    some (ofSegments (p.segments.drop base.segments.length))
  else none

/-- `p` is `base` or lies below it. -/
def isBelow (p base : Path) : Bool := (p.relativeTo? base).isSome

/-- A segment holds a null byte, so no file has this path. -/
def hasNull (p : Path) : Bool := p.segments.any (·.toList.contains '\x00')

/-! ## Order -/

def partsLe : List String → List String → Bool
  | [], _ => true
  | _ :: _, [] => false
  | a :: as, b :: bs => if a = b then partsLe as bs else decide (a < b)

/-- Paths with the same parts are ordered by their roots. -/
def le (p q : Path) : Bool :=
  if p.parts = q.parts then p.root.rank ≤ q.root.rank else partsLe p.parts q.parts

/-- `p` inserted into an increasing list, unless it is there. -/
def insertSorted (p : Path) : List Path → List Path
  | [] => [p]
  | q :: qs => if p = q then q :: qs else if p.le q then p :: q :: qs else q :: insertSorted p qs

/-- The distinct paths of a list, in increasing order. -/
def sortDistinct (ps : List Path) : List Path := ps.foldr insertSorted []

/-! ## Joining and descending -/

@[simp] theorem root_parent (p : Path) : p.parent.root = p.root := rfl

@[simp] theorem segments_child (p : Path) (s : String) : (p.child s).segments = p.segments ++ [s] :=
  rfl

@[simp] theorem parent_child (p : Path) (s : String) : (p.child s).parent = p := by
  simp [child, parent]

@[simp] theorem name_child (p : Path) (s : String) : (p.child s).name = s := by
  simp [child, name]

theorem join_ofSegments (p : Path) (segs : List String) :
    p / ofSegments segs = ⟨p.root, p.segments ++ segs⟩ := by
  simp [HDiv.hDiv, Div.div, join, ofSegments, isAbsolute]

theorem segments_div_ofSegments (p : Path) (segs : List String) :
    (p / ofSegments segs).segments = p.segments ++ segs := by rw [join_ofSegments]

theorem div_div_ofSegments (p q : Path) (segs : List String) :
    p / (q / ofSegments segs) = p / q / ofSegments segs := by
  rw [join_ofSegments, join_ofSegments]
  simp only [HDiv.hDiv, Div.div, join, isAbsolute]
  by_cases h : q.root = .relative <;> simp [h]

theorem parent_div_ofSegments (p : Path) {segs : List String} (h : segs ≠ []) :
    (p / ofSegments segs).parent = p / ofSegments segs.dropLast := by
  rw [join_ofSegments, join_ofSegments, parent, List.dropLast_append_of_ne_nil h]

theorem relativeTo?_join (p : Path) (segs : List String) :
    (p / ofSegments segs).relativeTo? p = some (ofSegments segs) := by
  rw [join_ofSegments]; simp [relativeTo?]

end Path

end StaticSite
