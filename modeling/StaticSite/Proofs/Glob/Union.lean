import StaticSite.Proofs.Glob.BraceTree
import StaticSite.Proofs.Glob.Names
import StaticSite.Proofs.Path.Sorted
import StaticSite.Proofs.Watch.Removal

/-!
# Unions of patterns

What a pattern finds is the union of what its expansions find, which expand to nothing but themselves. A group with
groups in it is replaced by its alternatives as they are written (`mem_expand_ofAlternatives`), so the order of the
alternatives does not matter and neither does an alternative that is there twice (`files_union`).
-/

namespace StaticSite

/-! ## Paths in order -/

namespace Path

theorem lt_of_partsLe {as bs : List String} (h : partsLe as bs = true) (ne : as ≠ bs) : as < bs := by
  induction as generalizing bs with
  | nil =>
    obtain ⟨b, bs, rfl⟩ := List.exists_cons_of_ne_nil ne.symm
    exact List.nil_lt_cons b bs
  | cons a as ih =>
    cases bs with
    | nil => cases h
    | cons b bs =>
      rw [List.cons_lt_cons_iff]
      by_cases first : a = b
      · subst first
        rw [partsLe, if_pos rfl] at h
        exact .inr ⟨rfl, ih h fun same => ne (congrArg _ same)⟩
      · rw [partsLe, if_neg first, decide_eq_true_eq] at h
        exact .inl h

/-- Paths that texts are read as are told by their parts: no segment is a root. -/
theorem eq_of_parts_eq {p q : Path} (hp : p.IsRead) (hq : q.IsRead) (h : p.parts = q.parts) : p = q := by
  have relative : ∀ {p q : Path}, p.IsRead → p.root = .relative → q.root ≠ .relative → p.parts ≠ q.parts := by
    intro p q hp root root' same
    rw [parts, parts, if_neg (by simp [isAbsolute, root]), if_pos (by simp [isAbsolute, root'])] at same
    have slash := (hp q.root.text (same ▸ List.mem_cons_self)).2.2
    cases hr : q.root with
    | relative => exact root' hr
    | slash | slashes => exact slash (by rw [hr]; decide)
  refine eq_of_parts ?_ h
  by_cases root : p.root = .relative
  · by_contra root'
    exact relative hp root (fun same => root' (root.trans same.symm)) h
  by_cases root' : q.root = .relative
  · exact absurd h.symm (relative hq root' root)
  rw [parts, parts, if_pos (by simp [isAbsolute, root]), if_pos (by simp [isAbsolute, root'])] at h
  have text := (List.cons.inj h).1
  cases hr : p.root <;> cases hr' : q.root <;> rw [hr, hr'] at text <;> first | rfl | exact absurd text (by decide)

end Path

namespace Glob

variable {cs r : List Char} {t : FileTree} {base p : Path} {pattern q : String}

/-! ## Expansions of expansions -/

/-- An expansion has no group left that could be replaced. -/
theorem expand_of_mem_expand (h : r ∈ expand cs) : expand r = [r] := by
  induction cs using expand.induct with
  | case1 cs none =>
    rw [expand_of_firstGroup_eq_none none, List.mem_singleton] at h
    rw [h, expand_of_firstGroup_eq_none none]
  | case2 cs g some ih =>
    rw [expand_eq_of_firstGroup some, mem_distinct, List.mem_flatMap] at h
    obtain ⟨a, ha, hr⟩ := h
    exact ih a ha hr

theorem expandBraces_of_mem (h : q ∈ expandBraces pattern) : expandBraces q = [q] := by
  rw [expandBraces, expand_of_mem_expand (mem_expandBraces.1 h), List.map_singleton, String.ofList_toList]

theorem mem_files : p ∈ files t base pattern ↔ ∃ q ∈ expandBraces pattern, p ∈ plainFiles t base q := by
  rw [files, Path.mem_sortDistinct, List.mem_flatMap]

/-- What an expansion finds is what it finds as a pattern without groups. -/
theorem mem_files_of_mem (h : q ∈ expandBraces pattern) : p ∈ files t base q ↔ p ∈ plainFiles t base q := by
  rw [mem_files, expandBraces_of_mem h]
  simp

/-- Patterns with the same expansions find the same. -/
theorem files_congr {pattern' : String} (h : ∀ q, q ∈ expandBraces pattern ↔ q ∈ expandBraces pattern') :
    files t base pattern = files t base pattern' := by
  refine Path.sortDistinct_congr fun p => ?_
  rw [List.mem_flatMap, List.mem_flatMap]
  exact exists_congr fun q => and_congr_left fun _ => h q

/-! ## Alternatives -/

namespace BraceTree

/-- The group of the alternatives, as it stands between `head` and `tail`. -/
def grouped (head : String) (alternatives : List (BraceTree (.row true))) (tail : String) : String :=
  .ofList (head.toList ++ '{' :: Text.joinWith ',' (alternatives.map write) ++ '}' :: tail.toList)

/-- Two or more alternatives are what a group holds. -/
theorem exists_ofAlternatives {alternatives : List (BraceTree (.row true))} (two : 2 ≤ alternatives.length) :
    ∃ w : BraceTree .alternatives, w.write = Text.joinWith ',' (alternatives.map write) ∧
      w.choices = alternatives.flatMap choices := by
  induction alternatives with
  | nil => cases two
  | cons first others ih =>
    cases others with
    | nil => exact absurd two (by simp)
    | cons second others =>
      cases others with
      | nil => exact ⟨.pair first second, rfl, by simp [choices]⟩
      | cons third others =>
        obtain ⟨w, write_eq, choices_eq⟩ := ih (by simp)
        exact ⟨.more first w, by rw [write, write_eq]; rfl, by rw [choices, choices_eq]; rfl⟩

/-- A group in any place is replaced by its alternatives, and the groups in these stay. -/
theorem mem_expand_ofAlternatives {alternatives : List (BraceTree (.row true))} (two : 2 ≤ alternatives.length)
    (head tail : List Char) :
    r ∈ expand (head ++ '{' :: Text.joinWith ',' (alternatives.map write) ++ '}' :: tail) ↔
      ∃ a ∈ alternatives, r ∈ expand (head ++ a.write ++ tail) := by
  obtain ⟨w, write_eq, choices_eq⟩ := exists_ofAlternatives two
  have replaced := w.mem_expand_alternatives (r := r) head tail
  rw [write_eq, choices_eq] at replaced
  rw [replaced]
  constructor
  · rintro ⟨s, hs, hr⟩
    obtain ⟨a, ha, hs⟩ := List.mem_flatMap.1 hs
    exact ⟨a, ha, (a.mem_expand_row head tail).2 ⟨s, hs, hr⟩⟩
  · rintro ⟨a, ha, hr⟩
    obtain ⟨s, hs, hr⟩ := (a.mem_expand_row head tail).1 hr
    exact ⟨s, List.mem_flatMap.2 ⟨a, ha, hs⟩, hr⟩

theorem mem_expandBraces_grouped {alternatives others : List (BraceTree (.row true))} (two : 2 ≤ alternatives.length)
    (two' : 2 ≤ others.length) (same : ∀ a, a ∈ alternatives ↔ a ∈ others) (head tail : String) :
    q ∈ expandBraces (grouped head alternatives tail) ↔ q ∈ expandBraces (grouped head others tail) := by
  rw [mem_expandBraces, mem_expandBraces, grouped, grouped, String.toList_ofList, String.toList_ofList,
    mem_expand_ofAlternatives two, mem_expand_ofAlternatives two']
  exact exists_congr fun a => and_congr_left fun _ => same a

end BraceTree

/-! ## Files -/

/-- What a pattern finds is in order, segment by segment. -/
theorem pairwise_files (named : t.Named) (base : Path) (pattern : String) :
    (files t base pattern).Pairwise fun p q => p.parts < q.parts := by
  have read : ∀ p ∈ files t base pattern, p.IsRead := fun p => isRead_of_mem_files named
  refine (Path.increasing_sortDistinct _).imp_of_mem fun {p q} hp hq ⟨ne, le⟩ => ?_
  have differ : p.parts ≠ q.parts := mt (Path.eq_of_parts_eq (read p hp) (read q hq)) ne
  rw [Path.le, if_neg differ] at le
  exact Path.lt_of_partsLe le differ

/-- A pattern finds, in order and each once, the files that at least one of its expansions finds, and it finds the same
if the alternatives of a group come in another order or repeatedly. -/
theorem files_union (t : FileTree) (base : Path) (pattern : String) :
    (t.Named → (files t base pattern).Pairwise fun p q => p.parts < q.parts) ∧
      (∀ p, p ∈ files t base pattern ↔
        t.isFile (base / p) = true ∧ ∃ q ∈ expandBraces pattern, p ∈ plainFiles t base q) ∧
      (∀ q ∈ expandBraces pattern, expandBraces q = [q]) ∧
      files t base pattern = Path.sortDistinct ((expandBraces pattern).flatMap (files t base)) ∧
      ∀ (head tail : String) (alternatives others : List (BraceTree (.row true))), 2 ≤ alternatives.length →
        2 ≤ others.length → (∀ a, a ∈ alternatives ↔ a ∈ others) →
        files t base (BraceTree.grouped head alternatives tail) = files t base (BraceTree.grouped head others tail) := by
  refine ⟨fun named => pairwise_files named base pattern, fun p => ?_, fun q => expandBraces_of_mem, ?_, ?_⟩
  · rw [← mem_files, iff_and_self]
    intro hp
    obtain ⟨-, content, read⟩ := read_of_mem_files hp
    exact FileTree.isFile_of_read read
  · refine Path.sortDistinct_congr fun p => ?_
    rw [List.mem_flatMap, List.mem_flatMap]
    exact exists_congr fun q => and_congr_right fun hq => (mem_files_of_mem hq).symm
  · intro head tail alternatives others two two' same
    exact files_congr fun q => BraceTree.mem_expandBraces_grouped two two' same head tail

/-- Some style sheets. -/
def styles : FileTree := ⟨[(["a.css"], .file .empty), (["ab.css"], .file .empty), (["ac.css"], .file .empty)]⟩

/-- The alternative that is this one character. -/
def letter (c : Char) (plain : IsPlain true c) : BraceTree (.row true) := .char c plain .done

theorem files_union_styles :
    let root : Path := ⟨.slash, []⟩
    let a := letter 'a' (by decide)
    -- the alternative `a{c,b}`
    let nested : BraceTree (.row true) :=
      .char 'a' (by decide) (.group (.pair (letter 'c' (by decide)) (letter 'b' (by decide))) .done)
    styles.Named ∧ BraceTree.grouped "" [nested, a] ".css" = "{a{c,b},a}.css" ∧
      BraceTree.grouped "" [a, nested, a] ".css" = "{a,a{c,b},a}.css" ∧
      (files styles root "{a{c,b},a}.css").Pairwise (fun p q => p.parts < q.parts) ∧
      files styles root "{a{c,b},a}.css" = files styles root "{a,a{c,b},a}.css" := by
  intro root a nested
  have named : styles.Named := FileTree.named_of_entries (by decide +kernel)
  obtain ⟨ordered, -, -, -, same⟩ := files_union styles root "{a{c,b},a}.css"
  exact ⟨named, rfl, rfl, ordered named, same "" ".css" [nested, a] [a, nested, a] (by simp) (by simp) (by simp [or_comm])⟩

end Glob

end StaticSite
