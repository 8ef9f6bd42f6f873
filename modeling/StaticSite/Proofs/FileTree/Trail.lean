import Mathlib.Data.List.Induction
import StaticSite.FileTree.Change

/-!
# The way along a path

`trail` lists the locations that a path leads through, and `hurdle?` is what stops one on the way. In a tree
whose entries all stand in directories (`IsTree`) a path that takes no detour through what is not there leads
to its location (`node?_of_leads`).
-/

namespace StaticSite.FileTree

open Path (descend collapse)

/-- The same stands at every location. -/
def Same (t t' : FileTree) : Prop := ∀ l, t'.get? l = t.get? l

/-- What stands somewhere stands in a directory. -/
def IsTree (t : FileTree) : Prop := ∀ l s, (t.get? (l ++ [s])).isSome → t.get? l = some .dir

theorem Same.refl (t : FileTree) : Same t t := fun _ => rfl

theorem Same.symm {t t' : FileTree} (h : Same t t') : Same t' t := fun l => (h l).symm

theorem Same.trans {t t' t'' : FileTree} (h : Same t t') (h' : Same t' t'') : Same t t'' :=
  fun l => (h' l).trans (h l)

@[simp] theorem get?_root (t : FileTree) : t.get? [] = some .dir := rfl

theorem ne_root_of_get? {t : FileTree} {l : Location} (h : t.get? l = none) : l ≠ [] := by
  rintro rfl; cases h

/-- A list of entries each of which stands in a directory is a tree. -/
theorem isTree_of_entries {t : FileTree} (h : ∀ e ∈ t.entries, t.get? e.1.dropLast = some .dir) : IsTree t := by
  intro l s hs
  obtain ⟨node, hn⟩ := Option.isSome_iff_exists.1 hs
  rw [get?, if_neg (by simp), List.lookup_eq_some_iff] at hn
  obtain ⟨before, after, he, -⟩ := hn
  have parent := h (l ++ [s], node) (by rw [he]; simp)
  rwa [List.dropLast_concat] at parent

theorem IsTree.dir_above {t : FileTree} (ht : IsTree t) {l : Location} :
    ∀ {more : Location}, more ≠ [] → (t.get? (l ++ more)).isSome → t.get? l = some .dir := by
  intro more
  induction more using List.reverseRecOn with
  | nil => intro h; exact absurd rfl h
  | append_singleton more s ih =>
    intro _ h
    rw [← List.append_assoc] at h
    have parent := ht _ s h
    by_cases hm : more = []
    · simpa [hm] using parent
    · exact ih hm (by rw [parent]; rfl)

theorem IsTree.dir_of_prefix {t : FileTree} (ht : IsTree t) {l m : Location} (h : l <+: m)
    (hne : l ≠ m) (hm : (t.get? m).isSome) : t.get? l = some .dir := by
  obtain ⟨more, rfl⟩ := h
  exact ht.dir_above (fun h => hne (by simp [h])) hm

/-- A location lies above another one if it lies at or above what that one stands in. -/
theorem prefix_dropLast_iff {l m : Location} (hl : l ≠ []) : m <+: l.dropLast ↔ m <+: l ∧ m ≠ l := by
  have whole : l.dropLast ++ [l.getLast hl] = l := List.dropLast_concat_getLast hl
  have split : m <+: l.dropLast ++ [l.getLast hl] ↔ m = l.dropLast ++ [l.getLast hl] ∨ m <+: l.dropLast :=
    List.prefix_concat_iff
  rw [whole] at split
  constructor
  · intro h
    refine ⟨split.2 (.inr h), ?_⟩
    rintro rfl
    have := h.length_le
    have := List.length_pos_iff.2 hl
    rw [List.length_dropLast] at *
    omega
  · rintro ⟨h, hne⟩
    exact (split.1 h).resolve_left hne

theorem IsTree.dir_dropLast {t : FileTree} (ht : IsTree t) {l : Location}
    (h : t.get? l = some .dir) : t.get? l.dropLast = some .dir := by
  by_cases hl : l = []
  · subst hl; rfl
  · have : l.dropLast ++ [l.getLast hl] = l := List.dropLast_concat_getLast hl
    exact ht l.dropLast (l.getLast hl) (by rw [this, h]; rfl)

theorem IsTree.same {t t' : FileTree} (ht : IsTree t) (h : Same t t') : IsTree t' := by
  intro l s hs
  rw [h] at hs ⊢
  exact ht l s hs

/-- A tree stays one if something is put where its directory is there and no directory is. -/
theorem IsTree.put {t : FileTree} (ht : IsTree t) {l : Location} {s : String} {node : Node}
    (hl : t.get? l = some .dir) (hs : t.get? (l ++ [s]) ≠ some .dir) :
    IsTree (t.put (l ++ [s]) node) := by
  have hne : l ++ [s] ≠ [] := by simp
  intro m u hm
  rw [get?_put _ _ hne] at hm ⊢
  have parent : t.get? m = some .dir := by
    by_cases h : m ++ [u] = l ++ [s]
    · rw [List.append_inj_left' h rfl]; exact hl
    · rw [if_neg h] at hm; exact ht m u hm
  rw [if_neg (by rintro rfl; exact hs parent), parent]

/-- A tree stays one if all that lies at or below a location is taken away. -/
theorem IsTree.erase {t : FileTree} (ht : IsTree t) (l : Location) :
    IsTree (t.erase fun m => l.isPrefixOf m) := by
  intro m s hm
  rw [get?_erase _ _ (by simp)] at hm
  by_cases hl : l.isPrefixOf (m ++ [s])
  · rw [if_pos hl] at hm; cases hm
  · rw [if_neg hl] at hm
    have parent := ht m s hm
    by_cases hr : m = []
    · subst hr; rfl
    · have : ¬ l.isPrefixOf m := fun h => hl <| by
        rw [List.isPrefixOf_iff_prefix] at h ⊢
        exact h.trans (List.prefix_append _ _)
      rw [get?_erase _ _ hr, if_neg this, parent]

/-! ## Trails -/

/-- The locations that segments lead through from `loc`, the last one included. -/
def trail (loc : Location) : List String → List Location
  | [] => []
  | s :: rest => descend loc s :: trail (descend loc s) rest

theorem trail_append (loc : Location) (segs more : List String) :
    trail loc (segs ++ more) = trail loc segs ++ trail (segs.foldl descend loc) more := by
  induction segs generalizing loc with
  | nil => rfl
  | cons s segs ih => simp [trail, ih]

theorem dropLast_trail (loc : Location) (segs : List String) :
    (trail loc segs).dropLast = trail loc segs.dropLast := by
  induction segs generalizing loc with
  | nil => rfl
  | cons s segs ih =>
    cases segs with
    | nil => rfl
    | cons u segs =>
      have := ih (descend loc s)
      simp only [trail, List.dropLast_cons_cons] at this ⊢
      rw [this]

theorem trail_concat (segs : List String) (s : String) :
    trail [] (segs ++ [s]) = trail [] segs ++ [descend (collapse segs) s] := trail_append [] segs [s]

theorem foldl_mem_trail (loc : Location) {segs : List String} (h : segs ≠ []) :
    segs.foldl descend loc ∈ trail loc segs := by
  induction segs generalizing loc with
  | nil => exact absurd rfl h
  | cons s segs ih =>
    cases segs with
    | nil => exact List.mem_cons_self
    | cons u segs => exact List.mem_cons_of_mem _ (ih _ (by simp))

theorem plain_of_mem_trail {segs : List String} {loc l : Location} (hl : Path.Plain loc) (h : l ∈ trail loc segs) :
    Path.Plain l := by
  induction segs generalizing loc with
  | nil => cases h
  | cons s segs ih =>
    rcases List.mem_cons.1 h with rfl | h
    · exact Path.plain_descend hl
    · exact ih (Path.plain_descend hl) h

/-- Plain segments lead from each location to one below it. -/
theorem mem_trail_of_plain {segs : List String} (h : Path.Plain segs) {loc l : Location} :
    l ∈ trail loc segs ↔ ∃ more, more ≠ [] ∧ more <+: segs ∧ l = loc ++ more := by
  induction segs generalizing loc with
  | nil =>
    simp only [trail, List.not_mem_nil, List.prefix_nil, false_iff]
    rintro ⟨more, hne, rfl, -⟩
    exact hne rfl
  | cons s segs ih =>
    simp only [Path.Plain, List.mem_cons, not_or] at h
    have hs : descend loc s = loc ++ [s] := by
      rw [descend, if_neg (Ne.symm h.1.1), if_neg (Ne.symm h.2.1)]
    rw [trail, List.mem_cons, hs, ih ⟨h.1.2, h.2.2⟩]
    constructor
    · rintro (rfl | ⟨more, hne, hp, rfl⟩)
      · exact ⟨[s], by simp, by simp, rfl⟩
      · exact ⟨s :: more, by simp, by simpa using hp, by simp⟩
    · rintro ⟨more, hne, hp, rfl⟩
      cases more with
      | nil => exact absurd rfl hne
      | cons u more =>
        obtain ⟨rfl, -⟩ := List.cons_prefix_cons.1 hp
        cases more with
        | nil => exact .inl rfl
        | cons v more => exact .inr ⟨v :: more, by simp, (List.cons_prefix_cons.1 hp).2, by simp⟩

/-! ## Walking -/

/-- The first of several locations that is no directory stops one who goes through all of them. -/
def hurdle? (t : FileTree) : List Location → Option OsCause
  | [] => none
  | l :: ls => match t.get? l with
    | none => some .notFound
    | some (.file _) => some .notDirectory
    | some .dir => t.hurdle? ls

theorem hurdle?_eq_none {t : FileTree} {ls : List Location} :
    t.hurdle? ls = none ↔ ∀ l ∈ ls, t.get? l = some .dir := by
  induction ls with
  | nil => simp [hurdle?]
  | cons l ls ih =>
    rw [hurdle?]
    split <;> simp_all

theorem walk_eq (t : FileTree) (loc : Location) (segs : List String) :
    t.walk loc segs = match t.hurdle? (loc :: trail loc segs).dropLast with
      | none => .ok (segs.foldl descend loc)
      | some cause => .error cause := by
  induction segs generalizing loc with
  | nil => rfl
  | cons s segs ih =>
    rw [walk, trail, List.dropLast_cons_of_ne_nil (by simp), hurdle?, List.foldl_cons]
    cases t.get? loc with
    | none => rfl
    | some node =>
      cases node with
      | file content => rfl
      | dir => exact ih (descend loc s)

theorem locate_eq (t : FileTree) (p : Path) :
    t.locate p = match t.hurdle? (trail [] p.segments).dropLast with
      | none => .ok (collapse p.segments)
      | some cause => .error cause := by
  rw [locate, walk_eq]
  cases hs : p.segments with
  | nil => rfl
  | cons s segs =>
    rw [List.dropLast_cons_of_ne_nil (by simp [trail])]
    simp only [hurdle?, get?_root]
    rfl

/-- Every location on the way of a path lies above its end or is a directory. -/
def Leads (t : FileTree) (p : Path) : Prop :=
  ∀ l ∈ (trail [] p.segments).dropLast,
    l <+: collapse p.segments ∧ l ≠ collapse p.segments ∨ t.get? l = some .dir

theorem hurdle?_dropLast_of_leads {t : FileTree} (ht : IsTree t) {p : Path} (h : t.Leads p)
    (hs : (t.get? (collapse p.segments)).isSome) : t.hurdle? (trail [] p.segments).dropLast = none := by
  refine hurdle?_eq_none.2 fun l hl => ?_
  rcases h l hl with ⟨hp, hne⟩ | hd
  · exact ht.dir_of_prefix hp hne hs
  · exact hd

/-- A path that leads to its end leads to what stands there. -/
theorem node?_of_leads {t : FileTree} (ht : IsTree t) {p : Path} (h : t.Leads p) :
    t.node? p = t.get? (collapse p.segments) := by
  rw [node?, locate_eq]
  cases hn : t.get? (collapse p.segments) with
  | some node => rw [hurdle?_dropLast_of_leads ht h (by rw [hn]; rfl)]; exact hn
  | none => cases t.hurdle? (trail [] p.segments).dropLast <;> simp [hn]

theorem leads_of_plain {t : FileTree} {p : Path} (h : Path.Plain p.segments) : t.Leads p := by
  intro l hl
  rw [dropLast_trail] at hl
  obtain ⟨more, hne, hp, rfl⟩ := (mem_trail_of_plain h.dropLast).1 hl
  have some : p.segments ≠ [] := by
    intro hn
    rw [hn] at hp
    exact hne (List.prefix_nil.1 hp)
  rw [Path.collapse_of_plain h]
  exact .inl ((prefix_dropLast_iff some).1 hp)

end StaticSite.FileTree
