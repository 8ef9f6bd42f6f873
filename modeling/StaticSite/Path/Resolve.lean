import StaticSite.Path.Basic

/-!
# Lexical resolution

`collapse` removes `..` together with the segment before it, and `.`, without looking at files. `resolve`
makes a path absolute, `ascent` gives the segments that lead from one directory to another, and
`publicPrefix` is that ascent as the text to put before a link.
-/

namespace StaticSite.Path

/-- One step from the directory `dir`; at the root `..` does nothing. -/
def descend (dir : List String) (segment : String) : List String :=
  if segment = "." then dir else if segment = ".." then dir.dropLast else dir ++ [segment]

/-- The segments from the root with every `..` and `.` applied. -/
def collapse (segs : List String) : List String := segs.foldl descend []

/-- The absolute path that `p` denotes in the directory `cwd`. -/
def resolve (cwd p : Path) : Path := ⟨.slash, collapse (cwd / p).segments⟩

/-- The steps from the directory `src` to `dst`: up to the common ancestor, then down. -/
def ascent : List String → List String → List String
  | s :: src, d :: dst =>
    if s = d then ascent src dst else ".." :: src.map (fun _ => "..") ++ d :: dst
  | src, dst => src.map (fun _ => "..") ++ dst

/-- The text that leads from the directory of the file `output` to `root`: empty if they are the
same, otherwise it ends with a slash. -/
def publicPrefix (cwd output root : Path) : String :=
  let steps := ascent (resolve cwd output).segments.dropLast (resolve cwd root).segments
  if steps.isEmpty then "" else String.intercalate "/" steps ++ "/"

/-- No segment is `.` or `..`. -/
def Plain (segs : List String) : Prop := "." ∉ segs ∧ ".." ∉ segs

theorem Plain.dropLast {segs : List String} (h : Plain segs) : Plain segs.dropLast :=
  ⟨fun hm => h.1 (List.dropLast_subset _ hm), fun hm => h.2 (List.dropLast_subset _ hm)⟩

theorem plain_descend {dir : List String} {segment : String} (h : Plain dir) :
    Plain (descend dir segment) := by
  unfold descend
  split
  · exact h
  · next hd =>
    split
    · exact h.dropLast
    · next hs => exact ⟨by simp [h.1, Ne.symm hd], by simp [h.2, Ne.symm hs]⟩

theorem plain_foldl_descend {dir : List String} (h : Plain dir) (segs : List String) :
    Plain (segs.foldl descend dir) := by
  induction segs generalizing dir with
  | nil => exact h
  | cons s segs ih => exact ih (plain_descend h)

theorem plain_collapse (segs : List String) : Plain (collapse segs) :=
  plain_foldl_descend ⟨by simp, by simp⟩ segs

theorem foldl_descend_of_plain {segs : List String} (h : Plain segs) (dir : List String) :
    segs.foldl descend dir = dir ++ segs := by
  induction segs generalizing dir with
  | nil => simp
  | cons s segs ih =>
    simp only [Plain, List.mem_cons, not_or] at h
    have hs : descend dir s = dir ++ [s] := by
      rw [descend, if_neg (Ne.symm h.1.1), if_neg (Ne.symm h.2.1)]
    rw [List.foldl_cons, hs, ih ⟨h.1.2, h.2.2⟩, List.append_assoc]; rfl

theorem collapse_of_plain {segs : List String} (h : Plain segs) : collapse segs = segs := by
  rw [collapse, foldl_descend_of_plain h]; rfl

theorem collapse_collapse (segs : List String) : collapse (collapse segs) = collapse segs :=
  collapse_of_plain (plain_collapse segs)

theorem collapse_append (segs more : List String) :
    collapse (segs ++ more) = more.foldl descend (collapse segs) := by
  rw [collapse, List.foldl_append]; rfl

theorem collapse_append_of_plain (segs : List String) {more : List String} (h : Plain more) :
    collapse (segs ++ more) = collapse segs ++ more := by
  rw [collapse_append, foldl_descend_of_plain h]

theorem mem_foldl_descend {segs dir : List String} {s : String} (h : s ∈ segs.foldl descend dir) :
    s ∈ dir ∨ s ∈ segs := by
  induction segs generalizing dir with
  | nil => exact .inl h
  | cons step segs ih =>
    rcases ih h with hm | hm
    · unfold descend at hm
      split at hm
      · exact .inl hm
      · split at hm
        · exact .inl (List.dropLast_subset _ hm)
        · rcases List.mem_append.1 hm with hm | hm
          · exact .inl hm
          · exact .inr (List.mem_singleton.1 hm ▸ List.mem_cons_self)
    · exact .inr (.tail _ hm)

theorem mem_collapse {segs : List String} {s : String} (h : s ∈ collapse segs) : s ∈ segs :=
  (mem_foldl_descend h).resolve_left List.not_mem_nil

end StaticSite.Path
