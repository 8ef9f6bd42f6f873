import StaticSite.Proofs.Path.Output
import StaticSite.Proofs.Path.Text

/-!
# The way back

From the directory of an output file the text of `publicPrefix` leads back to the output root, whatever the
directory of the process and however the root is written (`publicPrefix_leads_back`). From a mapped output it is `../`
once for each directory between them (`publicPrefix_output`).
-/

namespace StaticSite.Path

/-! ## Steps up and down -/

theorem foldl_descend_up (n : Nat) (dir : List String) :
    (List.replicate n "..").foldl descend dir = dir.take (dir.length - n) := by
  induction n generalizing dir with
  | zero => simp
  | succ n ih =>
    have up : descend dir ".." = dir.dropLast := rfl
    rw [List.replicate_succ, List.foldl_cons, up, ih, List.dropLast_eq_take, List.take_take, List.length_take]
    congr 1
    omega

theorem foldl_descend_out (pre src : List String) : (src.map fun _ => "..").foldl descend (pre ++ src) = pre := by
  rw [List.map_const', foldl_descend_up, List.length_append, Nat.add_sub_cancel, List.take_left]

/-- Directories with different names at the top have nothing in common. -/
theorem ascent_of_ne {s d : String} (h : s ≠ d) (src dst : List String) :
    ascent (s :: src) (d :: dst) = ((s :: src).map fun _ => "..") ++ d :: dst := by
  rw [ascent, if_neg h, List.map_cons]

/-- The steps from one directory to another lead there. -/
theorem foldl_descend_ascent {dst : List String} (h : Plain dst) (pre src : List String) :
    (ascent src dst).foldl descend (pre ++ src) = pre ++ dst := by
  -- the common directories are walked off both lists and put on `pre`
  induction src, dst using ascent.induct generalizing pre with
  | case1 src d dst ih =>
    have rest : Plain dst := ⟨fun hm => h.1 (.tail _ hm), fun hm => h.2 (.tail _ hm)⟩
    have deeper := ih rest (pre ++ [d])
    simpa [ascent] using deeper
  | case2 s src d dst apart =>
    rw [ascent_of_ne apart, List.foldl_append, foldl_descend_out, foldl_descend_of_plain h]
  | case3 src dst ended =>
    rw [ascent, List.foldl_append, foldl_descend_out, foldl_descend_of_plain h]
    exact ended

theorem mem_ascent {src dst : List String} {s : String} (h : s ∈ ascent src dst) : s = ".." ∨ s ∈ dst := by
  have up {src : List String} (hm : s ∈ src.map fun _ => "..") : s = ".." := by
    obtain ⟨_, _, rfl⟩ := List.mem_map.1 hm
    rfl
  induction src, dst using ascent.induct with
  | case1 src d dst ih =>
    rw [ascent, if_pos rfl] at h
    exact (ih h).imp_right (.tail d)
  | case2 t src d dst apart =>
    rw [ascent_of_ne apart, List.mem_append] at h
    exact h.imp_left up
  | case3 src dst ended =>
    rw [ascent, List.mem_append] at h
    · exact h.imp_left up
    · exact ended

theorem ascent_append (dir more : List String) : ascent (dir ++ more) dir = more.map fun _ => ".." := by
  induction dir with
  | nil => cases more <;> simp [ascent]
  | cons s dir ih => simpa [ascent] using ih

/-! ## The text of the way -/

/-- An absolute path with every `..` applied; two slashes in front stay. -/
def normal (p : Path) : Path := ⟨p.root, collapse p.segments⟩

/-- What `p` is in the directory `cwd`, as an absolute path without `..`. -/
def absolute (cwd p : Path) : Path := normal (cwd / p)

variable {cwd root p q : Path}

theorem root_div (p q : Path) : (p / q).root = if q.isAbsolute then q.root else p.root := by
  show (join p q).root = _
  unfold join
  split <;> rfl

theorem IsRead.div (hp : p.IsRead) (hq : q.IsRead) : (p / q).IsRead := by
  show (join p q).IsRead
  unfold join
  split
  · exact hq
  · intro s hs
    exact (List.mem_append.1 hs).elim (hp s) (hq s)

/-- A slash at the end of a text adds no segment. -/
theorem ofString_append_slash {s : String} (hn : s ≠ "") (h : s.toList.head? ≠ some '/') :
    ofString (s ++ "/") = ofSegments (segmentsOf s) := by
  have first : (s.toList ++ ['/']).head? ≠ some '/' := by
    cases hs : s.toList with
    | nil => exact absurd (String.toList_inj.1 hs) hn
    | cons c cs => simpa [hs] using h
  have root : rootOf (s ++ "/").toList = .relative := by
    rw [String.toList_append]
    exact rootOf_append .relative first
  have segments : segmentsOf (s ++ "/") = segmentsOf s := by
    rw [← String.append_empty (s := s ++ "/"), segmentsOf_append]
    exact List.append_nil _
  rw [ofString, root, segments, ofSegments]

/-- The text of the way is read as its steps. -/
theorem ofString_publicPrefix (hc : cwd.IsRead) (hr : root.IsRead) (output : Path) :
    ofString (publicPrefix cwd output root) =
      ofSegments (ascent (resolve cwd output).segments.dropLast (resolve cwd root).segments) := by
  unfold publicPrefix
  dsimp only
  generalize hs : ascent (resolve cwd output).segments.dropLast (resolve cwd root).segments = steps
  have read : (ofSegments steps).IsRead := fun s hm => by
    rcases mem_ascent (hs ▸ hm) with rfl | hd
    · decide
    · exact hc.div hr s (mem_collapse hd)
  split
  · next none => rw [List.isEmpty_iff.1 none]; rfl
  · next some =>
    have same : segmentsOf (String.intercalate "/" steps) = steps := segmentsOf_intercalate read
    have nonempty : String.intercalate "/" steps ≠ "" := fun he => some (by rw [← same, he]; rfl)
    rw [ofString_append_slash nonempty (head?_intercalate read)]
    exact congrArg ofSegments same

/-- From the directory of the output the way leads to the root, unless two slashes in front set them apart. -/
theorem normal_div_publicPrefix (hc : cwd.IsRead) (hr : root.IsRead) (output : Path) :
    normal ((absolute cwd output).parent / ofString (publicPrefix cwd output root)) = absolute cwd root ↔
      (absolute cwd output).root = (absolute cwd root).root := by
  rw [ofString_publicPrefix hc hr, join_ofSegments]
  constructor
  · intro same
    have root := congrArg Path.root same
    exact root
  intro same
  have plain : Plain (absolute cwd output).parent.segments := (plain_collapse (cwd / output).segments).dropLast
  have arrived := foldl_descend_ascent (plain_collapse (cwd / root).segments) [] (absolute cwd output).parent.segments
  have segments : collapse ((absolute cwd output).parent.segments ++
      ascent (resolve cwd output).segments.dropLast (resolve cwd root).segments) = (absolute cwd root).segments := by
    rw [collapse_append, collapse_of_plain plain]
    exact arrived
  show (⟨(absolute cwd output).root, _⟩ : Path) = ⟨(absolute cwd root).root, (absolute cwd root).segments⟩
  rw [same, segments]

/-! ## The way from a mapped output -/

theorem intercalate_replicate_up (n : Nat) :
    String.intercalate "/" (List.replicate (n + 1) "..") ++ "/" = String.join (List.replicate (n + 1) "../") := by
  induction n with
  | zero => rfl
  | succ n ih =>
    have first : String.intercalate "/" (List.replicate (n + 2) "..") =
        ".." ++ "/" ++ String.intercalate "/" (List.replicate (n + 1) "..") := String.intercalate_cons_cons
    rw [first, String.append_assoc, ih, List.replicate_succ (n := n + 1), String.join_cons]
    rfl

/-- The way from a page to the output root does not depend on where the root is: it is `../` once for each directory
of the page below its root directory. -/
theorem publicPrefix_output {p out o : Path} {ext : String} (h : p.output out ext = .ok o) (hr : "." ∉ p.segments)
    (cwd : Path) : publicPrefix cwd o out = String.join (List.replicate (p.segments.length - 2) "../") := by
  obtain ⟨rfl, -, -, -⟩ := output_ok h
  have plain := plain_belowOut h hr
  have nonempty := belowOut_ne_nil p ext
  have depth : (p.belowOut ext).length = p.segments.length - 2 + 1 := by
    simp [belowOut]
    omega
  generalize p.belowOut ext = below at plain nonempty depth ⊢
  have root : (resolve cwd (out / ofSegments below)).segments = (resolve cwd out).segments ++ below := by
    have joined : (cwd / (out / ofSegments below)).segments = (cwd / out).segments ++ below := by
      rw [div_div_ofSegments, segments_div_ofSegments]
    rw [resolve, resolve, joined, collapse_append_of_plain _ plain]
  have steps : ascent (resolve cwd (out / ofSegments below)).segments.dropLast (resolve cwd out).segments =
      List.replicate (p.segments.length - 2) ".." := by
    rw [root, List.dropLast_append_of_ne_nil nonempty, ascent_append, List.map_const', List.length_dropLast, depth,
      Nat.add_sub_cancel]
  rw [publicPrefix, steps]
  cases p.segments.length - 2 with
  | zero => rfl
  | succ n => exact intercalate_replicate_up n

/-- A mapped output is as many steps from the output root as its source has directories below its own. And from the
directory of any file the way leads to any root, for every directory of the process, if neither has exactly two
slashes in front. -/
theorem publicPrefix_leads_back (process out : String) :
    let cwd := ofString process
    let root := ofString out
    (∀ source ext o, (ofString source).outputOf root ext = .ok o →
        publicPrefix cwd o root = String.join (List.replicate ((ofString source).segments.length - 2) "../")) ∧
      (cwd.isAbsolute → ∀ file, (absolute cwd (ofString file)).root ≠ .slashes →
        (absolute cwd root).root ≠ .slashes →
        normal ((absolute cwd (ofString file)).parent / ofString (publicPrefix cwd (ofString file) root)) =
          absolute cwd root) := by
  intro cwd root
  refine ⟨fun source ext o h => ?_, fun hc file hf hr => ?_⟩
  · have dotless : "." ∉ (ofString source).segments := fun hm => (isRead_ofString source _ hm).2.1 rfl
    exact publicPrefix_output (output_eq_ok.2 h) dotless cwd
  · have rooted {p : Path} (hp : (absolute cwd p).root ≠ .slashes) : (absolute cwd p).root = .slash := by
      have some : (cwd / p).root ≠ .relative := by
        rw [root_div]
        split
        · next hp => simpa [isAbsolute] using hp
        · simpa [isAbsolute] using hc
      cases root : (absolute cwd p).root with
      | relative => exact absurd root some
      | slash => rfl
      | slashes => exact absurd root hp
    rw [normal_div_publicPrefix (isRead_ofString process) (isRead_ofString out), rooted hf, rooted hr]

example :
    publicPrefix (ofString "/srv/../w") (ofString "../x/../y/a.html") (ofString "tmp/../dist") = "../w/dist/" := by
  decide +kernel

end StaticSite.Path
