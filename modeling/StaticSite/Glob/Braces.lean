import StaticSite.Distinct
import StaticSite.Text.Split

/-!
# Brace expansion

`expandBraces "a.{b,c}"` is `["a.b", "a.c"]`. The first group of two or more alternatives that holds
no brace is replaced by each of its alternatives, and the results are expanded in turn. A group
without a comma is plain text.
-/

namespace StaticSite.Glob

/-- The text up to the closing brace, and what follows it; none if another opening brace or the end
comes first. -/
def groupBody : List Char → Option (List Char × List Char)
  | [] => none
  | '}' :: rest => some ([], rest)
  | '{' :: _ => none
  | c :: cs => (groupBody cs).map fun (body, rest) => (c :: body, rest)

/-- A group of alternatives and the text around it. -/
structure Group where
  head : List Char
  body : List Char
  tail : List Char
  deriving DecidableEq, Repr

/-- The first group without inner braces that has a comma. -/
def firstGroup : List Char → Option Group
  | [] => none
  | c :: cs =>
    match if c = '{' then groupBody cs else none with
    | some (body, tail) =>
      if ',' ∈ body then some ⟨[], body, tail⟩
      else (firstGroup cs).map fun g => { g with head := c :: g.head }
    | none => (firstGroup cs).map fun g => { g with head := c :: g.head }

theorem groupBody_eq {cs body rest : List Char} (h : groupBody cs = some (body, rest)) :
    cs = body ++ '}' :: rest ∧ '{' ∉ body ∧ '}' ∉ body := by
  fun_induction groupBody cs generalizing body rest with
  | case1 => cases h
  | case2 rest' => cases h; simp
  | case3 => cases h
  | case4 c cs h1 h2 ih =>
    simp only [Option.map_eq_some_iff, Prod.mk.injEq, Prod.exists] at h
    obtain ⟨body', rest', hb, rfl, rfl⟩ := h
    obtain ⟨e, ho, hc⟩ := ih hb
    have h1' : '}' ≠ c := fun e => by subst e; exact h1 rfl
    have h2' : '{' ≠ c := fun e => by subst e; exact h2 rfl
    simp [e, ho, hc, h1', h2']

theorem firstGroup_eq {cs : List Char} {g : Group} (h : firstGroup cs = some g) :
    cs = g.head ++ '{' :: g.body ++ '}' :: g.tail ∧ ',' ∈ g.body ∧ '{' ∉ g.body ∧
      '}' ∉ g.body := by
  induction cs generalizing g with
  | nil => simp [firstGroup] at h
  | cons c cs ih =>
    rw [firstGroup] at h
    split at h
    · next body tail hb =>
      split at hb
      · next hc =>
        subst hc
        obtain ⟨e, ho, hcl⟩ := groupBody_eq hb
        split at h
        · next hm => cases h; simp [e, ho, hcl, hm]
        · obtain ⟨g', hg, rfl⟩ := Option.map_eq_some_iff.1 h
          obtain ⟨e', hr⟩ := ih hg
          exact ⟨by simp [e'], hr⟩
      · cases hb
    · obtain ⟨g', hg, rfl⟩ := Option.map_eq_some_iff.1 h
      obtain ⟨e', hr⟩ := ih hg
      exact ⟨by simp [e'], hr⟩

/-- With an alternative in the place of its group a text has fewer braces. -/
theorem count_lt_of_alternative {head body tail a : List Char} (ho : '{' ∉ body) (ha : a ∈ Text.splitOn ',' body) :
    (head ++ a ++ tail).count '{' < (head ++ '{' :: body ++ '}' :: tail).count '{' := by
  have hsub : '{' ∉ a := fun hm => ho (Text.mem_of_mem_splitOn ha hm)
  simp only [List.count_append, List.count_cons]
  rw [List.count_eq_zero_of_not_mem hsub, List.count_eq_zero_of_not_mem ho]
  simp

theorem firstGroup_count {cs : List Char} {g : Group} (h : firstGroup cs = some g) {a : List Char}
    (ha : a ∈ Text.splitOn ',' g.body) :
    (g.head ++ a ++ g.tail).count '{' < cs.count '{' := by
  obtain ⟨e, -, ho, -⟩ := firstGroup_eq h
  rw [e]
  exact count_lt_of_alternative ho ha

/-- Every expansion of a pattern, first occurrences in order. -/
def expand (cs : List Char) : List (List Char) :=
  match _h : firstGroup cs with
  | none => [cs]
  | some g =>
    distinct ((Text.splitOn ',' g.body).attach.flatMap fun ⟨a, _⟩ => expand (g.head ++ a ++ g.tail))
  termination_by cs.count '{'
  decreasing_by exact firstGroup_count ‹_› ‹_›

def expandBraces (pattern : String) : List String := (expand pattern.toList).map String.ofList

theorem expand_eq_of_firstGroup {cs : List Char} {g : Group} (h : firstGroup cs = some g) :
    expand cs =
      distinct ((Text.splitOn ',' g.body).flatMap fun a => expand (g.head ++ a ++ g.tail)) := by
  rw [expand]
  split
  · next h' => rw [h] at h'; cases h'
  · next g' h' =>
    rw [h] at h'; cases h'
    congr 1
    rw [List.flatMap_subtype (g := fun a => expand (g.head ++ a ++ g.tail)) (by simp)]
    simp

theorem expand_of_firstGroup_eq_none {cs : List Char} (h : firstGroup cs = none) :
    expand cs = [cs] := by
  rw [expand]
  split
  · rfl
  · next g' h' => rw [h] at h'; cases h'

end StaticSite.Glob
