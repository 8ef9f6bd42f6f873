import StaticSite.Proofs.FileTree.MakeDirs
import StaticSite.Site.Basic

/-!
# Drafts

A text goes to a draft next to its file before it goes to the file itself. The draft has a name that nothing in
the tree has, and it is gone in the end, whether the text got to its place or not: writing by way of a draft is the
same as putting the text where it belongs (`writeText_directly`).
-/

namespace StaticSite

open Path (collapse descend)

namespace FileTree

variable {t : FileTree} {l m : Location}

/-! ## Unused names -/

theorem foldl_max_length (ss : List String) (n : Nat) :
    n ≤ ss.foldl (fun n s => max n s.length) n ∧ ∀ s ∈ ss, s.length ≤ ss.foldl (fun n s => max n s.length) n := by
  induction ss generalizing n with
  | nil => simp
  | cons s ss ih =>
    obtain ⟨start, rest⟩ := ih (max n s.length)
    rw [List.foldl_cons]
    refine ⟨Nat.le_trans (Nat.le_max_left _ _) start, fun u hu => ?_⟩
    rcases List.mem_cons.1 hu with rfl | hu
    · exact Nat.le_trans (Nat.le_max_right _ _) start
    · exact rest u hu

theorem length_le_longest {e : Location × Node} (he : e ∈ t.entries) {s : String} (hs : s ∈ e.1) :
    s.length ≤ t.longest :=
  (foldl_max_length _ 0).2 s (List.mem_flatMap.2 ⟨e, he, hs⟩)

theorem length_unusedName (t : FileTree) (stem : String) :
    (t.unusedName stem).length = stem.length + t.longest + 1 := by
  simp [unusedName, Nat.add_assoc]

/-- Nothing stands at the location or below. -/
def Unused (t : FileTree) (l : Location) : Prop := l ≠ [] ∧ ∀ e ∈ t.entries, ¬ l <+: e.1

theorem unused_unusedName (t : FileTree) (dir : Location) (stem : String) :
    Unused t (dir ++ [t.unusedName stem]) := by
  refine ⟨by simp, fun e he below => ?_⟩
  have inside : t.unusedName stem ∈ e.1 := below.subset (by simp)
  have short := length_le_longest he inside
  rw [length_unusedName] at short
  omega

theorem Unused.get? (h : Unused t l) : t.get? l = none := by
  rw [FileTree.get?, if_neg h.1, List.lookup_eq_none_iff]
  intro e he
  have : l ≠ e.1 := by rintro rfl; exact h.2 e he List.prefix_rfl
  simpa using this

/-! ## Entries -/

theorem putEntry_of_notMem {node : Node} {es : List (Location × Node)} (h : ∀ e ∈ es, e.1 ≠ l) :
    putEntry l node es = es ++ [(l, node)] := by
  induction es with
  | nil => rfl
  | cons e es ih =>
    rw [putEntry, if_neg (h e List.mem_cons_self), ih fun e he => h e (List.mem_cons_of_mem _ he)]
    rfl

theorem putEntry_concat (node node' : Node) {es : List (Location × Node)} (h : ∀ e ∈ es, e.1 ≠ l) :
    putEntry l node' (es ++ [(l, node)]) = es ++ [(l, node')] := by
  induction es with
  | nil => simp [putEntry]
  | cons e es ih =>
    rw [List.cons_append, putEntry, if_neg (h e List.mem_cons_self), ih fun e he => h e (List.mem_cons_of_mem _ he)]
    rfl

/-- What was put besides stays when an entry at the end is taken away. -/
theorem filter_putEntry {keep : Location → Bool} (node node' : Node) {es : List (Location × Node)}
    (h : ∀ e ∈ es, keep e.1 = true) (hl : keep l = false) (hm : keep m = true) :
    (putEntry m node' (es ++ [(l, node)])).filter (fun e => keep e.1) = putEntry m node' es := by
  have other : l ≠ m := by rintro rfl; rw [hl] at hm; cases hm
  induction es with
  | nil => simp [putEntry, other, hl, hm]
  | cons e es ih =>
    have rest := ih fun e he => h e (List.mem_cons_of_mem _ he)
    have all : es.filter (fun e => keep e.1) = es := List.filter_eq_self.2 fun e he => h e (List.mem_cons_of_mem _ he)
    rw [List.cons_append, putEntry, putEntry]
    by_cases he : e.1 = m
    · rw [if_pos he, if_pos he]
      simp [he, hm, hl, all]
    · rw [if_neg he, if_neg he, List.filter_cons, if_pos (h e List.mem_cons_self), rest]

section
variable {node node' : Node}

theorem Unused.ne (h : Unused t l) : ∀ e ∈ t.entries, e.1 ≠ l := by
  rintro e he rfl
  exact h.2 e he List.prefix_rfl

theorem Unused.keeps (h : Unused t l) : ∀ e ∈ t.entries, (!l.isPrefixOf e.1) = true := by
  intro e he
  rw [Bool.not_eq_true']
  exact Bool.eq_false_iff.2 fun hp => h.2 e he (List.isPrefixOf_iff_prefix.1 hp)

theorem Unused.put_put (h : Unused t l) : (t.put l node).put l node' = t.put l node' := by
  simp only [put, putEntry_of_notMem h.ne, putEntry_concat node node' h.ne]

/-- To put something at an unused location and take it away leaves the tree as it was. -/
theorem Unused.erase_put (h : Unused t l) : (t.put l node).erase (fun m => l.isPrefixOf m) = t := by
  have all := List.filter_eq_self.2 h.keeps
  simp [put, erase, putEntry_of_notMem h.ne, all]

/-- The same with something put elsewhere in between. -/
theorem Unused.erase_put_put (h : Unused t l) (hm : ¬ l <+: m) :
    ((t.put l node).put m node').erase (fun k => l.isPrefixOf k) = t.put m node' := by
  have elsewhere : (!l.isPrefixOf m) = true := by
    rw [Bool.not_eq_true']
    exact Bool.eq_false_iff.2 fun hp => hm (List.isPrefixOf_iff_prefix.1 hp)
  simp only [put, erase, putEntry_of_notMem h.ne]
  have gone := @filter_putEntry l m (fun k => !l.isPrefixOf k) node node' t.entries h.keeps (by simp) elsewhere
  exact congrArg FileTree.mk gone

end

/-! ## Paths in a directory that is there -/

/-- The path leads through directories up to its last segment. -/
def Roomy (t : FileTree) (p : Path) : Prop := ∀ l ∈ trail [] p.parent.segments, t.get? l = some .dir

theorem roomy_of_makeDirs {p : Path} (h : (t.makeDirs p.parent).2 = .ok ()) : Roomy (t.makeDirs p.parent).1 p := by
  intro l hl
  have free := (makeDirs_ok_iff t _).1 h
  rw [makeDirs_tree, get?_pave, passed_of_no_file free]
  rcases hasFile_eq_false_iff.1 (free l hl) with hn | hd
  · rw [if_pos ⟨hn, hl⟩]
  · rw [hd]; simp

theorem Roomy.locate {p : Path} (h : Roomy t p) : t.locate p = .ok (collapse p.segments) := by
  have clear : t.hurdle? (trail [] p.segments).dropLast = none := by
    rw [dropLast_trail]
    exact hurdle?_eq_none.2 h
  rw [locate_eq, clear]

theorem Roomy.put {p : Path} {node : Node} (h : Roomy t p) (hl : l ≠ []) (hn : t.get? l ≠ some .dir) :
    Roomy (t.put l node) p := by
  intro m hm
  rw [get?_put _ _ hl, if_neg (by rintro rfl; exact hn (h _ hm)), h m hm]

theorem putFile_of_free {p : Path} (h : t.locate p = .ok l) (hd : t.get? l ≠ some .dir) (content : ByteArray) :
    t.putFile p content = (t.put l (.file content), .ok ()) := by
  rw [putFile, h]
  dsimp only
  split
  · next he => exact absurd he hd
  · rfl

theorem putFile_of_dir {p : Path} (h : t.locate p = .ok l) (hd : t.get? l = some .dir) (content : ByteArray) :
    t.putFile p content = (t, .error (.refused .isDirectory p)) := by
  rw [putFile, h]
  dsimp only
  rw [hd]

theorem remove_of_locate {p : Path} (h : t.locate p = .ok l) : t.remove p = t.erase fun m => l.isPrefixOf m := by
  rw [remove, h]

end FileTree

namespace Site

open FileTree (Unused Roomy trail)

/-! ## Drafts -/

/-- Where the draft of a file stands. -/
def draftLocation (t : FileTree) (target : Path) : Location :=
  collapse target.parent.segments ++ [t.unusedName (draftOf target).name]

variable {t : FileTree} {target : Path}

theorem collapse_concat (segs : List String) {s : String} (h : 2 < s.length) :
    collapse (segs ++ [s]) = collapse segs ++ [s] := by
  have h1 : s ≠ "." := by rintro rfl; exact absurd h (by decide)
  have h2 : s ≠ ".." := by rintro rfl; exact absurd h (by decide)
  rw [Path.collapse_append, List.foldl_cons, List.foldl_nil, descend, if_neg h1, if_neg h2]

theorem length_draftOf (target : Path) : (draftOf target).name.length = target.name.length + 2 := by
  have dot : ".".length = 1 := by decide
  simp only [draftOf, Path.name_child, String.length_append, dot]
  omega

theorem collapse_freshDraft (t : FileTree) (target : Path) :
    collapse (freshDraft t target).segments = draftLocation t target := by
  have long : 2 < (t.unusedName (draftOf target).name).length := by
    rw [FileTree.length_unusedName, length_draftOf]; omega
  exact collapse_concat _ long

theorem unused_draftLocation (t : FileTree) (target : Path) : Unused t (draftLocation t target) :=
  FileTree.unused_unusedName _ _ _

/-- The file is not its own draft, nor does it stand below it. -/
theorem not_below_draftLocation (t : FileTree) (target : Path) :
    ¬ draftLocation t target <+: collapse target.segments := by
  intro below
  have short := below.length_le
  rw [draftLocation, List.length_append, List.length_singleton] at short
  rcases target.segments.eq_nil_or_concat with hs | ⟨segs, s, hs⟩
  · rw [hs] at short
    exact absurd short (by simp [collapse])
  · have parent : target.parent.segments = segs := by simp [Path.parent, hs]
    have name : target.name = s := by simp [Path.name, hs]
    rw [parent] at short
    rw [hs, List.concat_eq_append, Path.collapse_append, List.foldl_cons,
      List.foldl_nil] at short below
    by_cases h1 : s = "."
    · rw [descend, if_pos h1] at short; omega
    · by_cases h2 : s = ".."
      · rw [descend, if_neg h1, if_pos h2, List.length_dropLast] at short; omega
      · rw [descend, if_neg h1, if_neg h2] at below
        have whole := below.eq_of_length (by simp [draftLocation, parent])
        rw [draftLocation, parent] at whole
        have last := List.cons.inj (List.append_cancel_left whole)
        have long := congrArg String.length last.1
        rw [FileTree.length_unusedName, length_draftOf, name] at long
        omega

theorem roomy_freshDraft {u : FileTree} (h : Roomy u target) : Roomy u (freshDraft t target) := by
  have : (freshDraft t target).parent = target.parent := Path.parent_child _ _
  unfold FileTree.Roomy
  rw [this]
  exact h

/-- Why a text cannot be written to a file whose directory is there. -/
def textBytes (target : Path) (s : String) : Except Fault ByteArray :=
  match pathFault? (draftOf target) with
  | some fault => .error fault
  | none => (Text.encode s).mapError .unwritable

/-- A draft that stands gets to its place, or a directory is there; then it is taken away. -/
theorem publish_draft (h : Roomy t target) {content bytes : ByteArray} {s : String} (hs : Text.encode s = .ok bytes) :
    orDiscard (freshDraft t target)
        (publish (t.put (draftLocation t target) (.file content)) (freshDraft t target) target s) =
      ((t.putFile target bytes).1, (t.putFile target bytes).2.mapError (.write target)) := by
  have unused := unused_draftLocation t target
  have stands : ∀ node : Node, (t.put (draftLocation t target) node).locate (freshDraft t target) =
      .ok (draftLocation t target) := fun node => by
    rw [((roomy_freshDraft h).put unused.1 (by simp [unused.get?])).locate, collapse_freshDraft]
  have there : ∀ node : Node, (t.put (draftLocation t target) node).get? (draftLocation t target) = some node :=
    fun node => by simp [unused.1]
  have place : (t.put (draftLocation t target) (.file bytes)).locate target = .ok (collapse target.segments) :=
    (h.put unused.1 (by simp [unused.get?])).locate
  have apart : collapse target.segments ≠ draftLocation t target := fun he =>
    not_below_draftLocation t target (he ▸ List.prefix_rfl)
  have elsewhere : (t.put (draftLocation t target) (.file bytes)).get? (collapse target.segments) =
      t.get? (collapse target.segments) := by
    rw [FileTree.get?_put _ _ unused.1, if_neg apart]
  have read : (t.put (draftLocation t target) (.file bytes)).read (freshDraft t target) = .ok bytes := by
    rw [FileTree.read, stands]
    dsimp only
    rw [there]
  have filled : (t.put (draftLocation t target) (.file content)).putFile (freshDraft t target) bytes =
      (t.put (draftLocation t target) (.file bytes), .ok ()) := by
    rw [FileTree.putFile_of_free (stands _) (by simp [there]), unused.put_put]
  unfold publish FileTree.moveFile
  rw [hs]
  dsimp only
  rw [filled]
  dsimp only
  rw [read]
  dsimp only
  by_cases hd : t.get? (collapse target.segments) = some .dir
  · rw [FileTree.putFile_of_dir place (elsewhere.trans hd), FileTree.putFile_of_dir h.locate hd]
    change ((_ : FileTree).remove _, _) = _
    rw [FileTree.remove_of_locate (stands _), unused.erase_put]
    rfl
  · have free : (t.put (draftLocation t target) (.file bytes)).get? (collapse target.segments) ≠ some .dir :=
      elsewhere ▸ hd
    have nonempty : collapse target.segments ≠ [] := fun he => hd (by rw [he]; rfl)
    have kept : ((t.put (draftLocation t target) (.file bytes)).put (collapse target.segments)
        (.file bytes)).locate (freshDraft t target) = .ok (draftLocation t target) := by
      have room : Roomy (t.put (draftLocation t target) (.file bytes)) (freshDraft t target) :=
        (roomy_freshDraft h).put unused.1 (by simp [unused.get?])
      rw [(room.put nonempty free).locate, collapse_freshDraft]
    rw [FileTree.putFile_of_free place free, FileTree.putFile_of_free h.locate hd]
    change ((_ : FileTree).remove _, _) = _
    rw [FileTree.remove_of_locate kept, unused.erase_put_put (not_below_draftLocation t target)]
    rfl

/-- To write a text by way of a draft is to put its bytes where they belong. -/
theorem writeText_directly (t : FileTree) (target : Path) (s : String) :
    writeText t target s = match makeRoom t target target with
      | (t, .error fault) => (t, .error fault)
      | (t, .ok ()) => match textBytes target s with
        | .error fault => (t, .error fault)
        | .ok bytes => match t.putFile target bytes with
          | (t, result) => (t, result.mapError (.write target)) := by
  have room : ∀ u, makeRoom t target target = (u, .ok ()) → Roomy u target := by
    intro u hu
    unfold makeRoom at hu
    split at hu
    · cases hu
    · have made : (t.makeDirs target.parent).2 = .ok () := by
        have := congrArg Prod.snd hu
        dsimp only at this
        cases hr : (t.makeDirs target.parent).2 with
        | ok => rfl
        | error fault => rw [hr] at this; cases this
      have tree : (t.makeDirs target.parent).1 = u := congrArg Prod.fst hu
      exact tree ▸ FileTree.roomy_of_makeDirs made
  unfold writeText textBytes
  generalize makeRoom t target target = made at room ⊢
  obtain ⟨u, fault | ⟨⟩⟩ := made
  · rfl
  have h := room u rfl
  have unused := unused_draftLocation u target
  dsimp only
  cases pathFault? (draftOf target) with
  | some fault => rfl
  | none =>
    have begun : u.putFile (freshDraft u target) .empty = (u.put (draftLocation u target) (.file .empty), .ok ()) := by
      have located := (roomy_freshDraft (t := u) h).locate
      rw [collapse_freshDraft] at located
      exact FileTree.putFile_of_free located (by simp [unused.get?]) _
    dsimp only
    rw [begun]
    dsimp only
    cases hs : Text.encode s with
    | ok bytes => exact publish_draft h hs
    | error fault =>
      have stands : (u.put (draftLocation u target) (.file .empty)).locate (freshDraft u target) =
          .ok (draftLocation u target) := by
        rw [((roomy_freshDraft h).put unused.1 (by simp [unused.get?])).locate, collapse_freshDraft]
      have gone : (u.put _ (.file .empty)).erase _ = u := unused.erase_put
      unfold publish
      rw [hs]
      change ((_ : FileTree).remove _, _) = _
      rw [FileTree.remove_of_locate stands, gone]
      rfl

end Site

end StaticSite
