import StaticSite.Proofs.Site.Working
import StaticSite.Watch.Update

/-!
# Deleting outputs

To delete the output of a path takes away all that stands at or below its place. That is local to what stands
there (`local_deleteOutput`), and deletions can change places whatever they delete (`cleared_comm`).
-/

namespace StaticSite

open FileTree (Area Local Same IsTree trail)
open Path (collapse)

namespace FileTree

/-- What stands at the location is deleted: a file, or a directory if `whole` says so. -/
def isDeleted (t : FileTree) (l : Location) (whole : Bool) : Bool :=
  whole && decide (t.get? l = some .dir) || t.hasFile l

/-- The tree without what stands at the location and below it, if that is deleted. -/
def cleared (l : Location) (whole : Bool) (t : FileTree) : FileTree :=
  if t.isDeleted l whole then t.erase fun m => l.isPrefixOf m else t

theorem get?_cleared {l : Location} (hl : l ≠ []) (whole : Bool) (t : FileTree) (m : Location) :
    (cleared l whole t).get? m = if t.isDeleted l whole ∧ l <+: m then none else t.get? m := by
  unfold cleared
  by_cases hd : t.isDeleted l whole
  · rw [if_pos hd]
    by_cases hm : m = []
    · subst hm
      have below : ¬ l <+: [] := fun h => hl (List.prefix_nil.1 h)
      simp [below]
    · rw [get?_erase _ _ hm]
      simp [hd]
  · simp [hd]

theorem isDeleted_congr {t t' : FileTree} {l : Location} (h : t'.get? l = t.get? l) (whole : Bool) :
    t'.isDeleted l whole = t.isDeleted l whole := by
  rw [isDeleted, isDeleted, hasFile, hasFile, h]

theorem isDeleted_of_none {t : FileTree} {l : Location} (h : t.get? l = none) (whole : Bool) :
    t.isDeleted l whole = false := by
  simp [isDeleted, hasFile, h]

/-- What is to be deleted is gone already if it was deleted with something above it, and as it was otherwise. -/
theorem isDeleted_cleared {l m : Location} (hl : l ≠ []) (whole whole' : Bool) (t : FileTree) :
    (cleared l whole t).isDeleted m whole' =
      if t.isDeleted l whole ∧ l <+: m then false else t.isDeleted m whole' := by
  have get := get?_cleared hl whole t m
  split
  · next h => rw [if_pos h] at get; exact isDeleted_of_none get whole'
  · next h => rw [if_neg h] at get; exact isDeleted_congr get whole'

/-- Deletions can change places. -/
theorem cleared_comm {l m : Location} (hl : l ≠ []) (hm : m ≠ []) (whole whole' : Bool) (t : FileTree) :
    Same (cleared m whole' (cleared l whole t)) (cleared l whole (cleared m whole' t)) := by
  intro k
  rw [get?_cleared hl, get?_cleared hm, get?_cleared hm, get?_cleared hl, isDeleted_cleared hl,
    isDeleted_cleared hm]
  by_cases h : t.isDeleted l whole = true ∧ l <+: m
  · by_cases h' : t.isDeleted m whole' = true ∧ m <+: l
    · have same : l = m := List.IsPrefix.eq_of_length_le h.2 h'.2.length_le
      subst same
      simp [h.1, h'.1]
    · have trans : m <+: k → l <+: k := fun hk => h.2.trans hk
      by_cases hk : m <+: k
      · simp [h, h', trans hk]
      · simp [h, h', hk]
  · by_cases h' : t.isDeleted m whole' = true ∧ m <+: l
    · have trans : l <+: k → m <+: k := fun hk => h'.2.trans hk
      by_cases hk : l <+: k
      · simp [h, h', trans hk]
      · simp [h, h', hk]
    · simp only [h, h', if_false]
      by_cases hk : t.isDeleted l whole = true ∧ l <+: k <;>
        by_cases hk' : t.isDeleted m whole' = true ∧ m <+: k <;> simp [hk, hk']

end FileTree

namespace Site

variable {site : Site} {t₀ t : FileTree} {below : List String}

/-! ## Where an output stands -/

/-- The path of the output root leads through directories that are there and are no part of the output, and
through what is above the root. -/
def Firm (site : Site) (t : FileTree) : Prop :=
  ∀ l ∈ site.outWay, l <+: site.outLocation ∨ ¬ site.outLocation <+: l ∧ t.get? l = some .dir

instance (site : Site) (t : FileTree) : Decidable (Firm site t) :=
  inferInstanceAs (Decidable (∀ l ∈ site.outWay, l <+: site.outLocation ∨ ¬ site.outLocation <+: l ∧ _))

theorem Firm.varied (h : Firm site t₀) (hv : Varied site t₀ t) : Firm site t := fun l hl =>
  (h l hl).imp_right fun ⟨outside, hd⟩ => ⟨outside, by
    rcases hv.around l outside with he | ⟨-, hn, -⟩
    · exact he.trans hd
    · rw [hn] at hd; cases hd⟩

theorem not_under_root (hb : below ≠ []) : ¬ site.outLocation ++ below <+: site.outLocation := by
  intro h
  have := h.length_le
  have := List.length_pos_iff.2 hb
  rw [List.length_append] at *
  omega

/-- The path of a place leads to it. -/
theorem leads_placePath (hf : Firm site t) (hb : below ≠ []) (hp : Path.Plain below) :
    t.Leads (site.placePath below) := by
  intro l hl
  rw [dropLast_trail_placePath] at hl
  rw [collapse_placePath hp]
  rcases (mem_placeWay hb hp).1 hl with hl | ⟨more, -, hm, rfl⟩
  · refine (hf l hl).imp (fun ha => ⟨ha.trans (List.prefix_append _ _), ?_⟩) And.right
    rintro rfl
    exact not_under_root hb ha
  · obtain ⟨above, hne⟩ := (FileTree.prefix_dropLast_iff hb).1 hm
    exact .inl ⟨(List.prefix_append_right_inj _).2 above, fun he => hne (List.append_cancel_left he)⟩

/-- To delete an output is to clear its place. -/
theorem deleteOutput_tree (ht : IsTree t) (hf : Firm site t) {p o : Path}
    (ho : p.output site.out site.ext = .ok o) (hr : "." ∉ p.segments) (whole : Bool) :
    (site.deleteOutput t p whole).tree =
      FileTree.cleared (site.outLocation ++ p.belowOut site.ext) whole t := by
  have hp := Path.plain_belowOut ho hr
  have leads := leads_placePath hf (Path.belowOut_ne_nil p site.ext) hp
  have target : site.dir / o = site.placePath (p.belowOut site.ext) := by
    rw [(Path.output_ok ho).1]
    exact Path.div_div_ofSegments site.dir site.out _
  have found := FileTree.node?_of_leads ht leads
  rw [collapse_placePath hp] at found
  unfold deleteOutput FileTree.cleared FileTree.isDeleted FileTree.isDir FileTree.isFile FileTree.remove
  rw [ho]
  dsimp only
  rw [target, found]
  cases hn : t.get? (site.outLocation ++ p.belowOut site.ext) with
  | none => simp [FileTree.hasFile, hn, Step.still]
  | some node =>
    have located : t.locate (site.placePath (p.belowOut site.ext)) =
        .ok (site.outLocation ++ p.belowOut site.ext) := by
      rw [FileTree.locate_eq, FileTree.hurdle?_dropLast_of_leads ht leads (by rw [collapse_placePath hp, hn]; rfl),
        collapse_placePath hp]
    rw [located]
    cases node <;> cases whole <;> simp [FileTree.hasFile, hn, Step.still]

/-! ## Locality -/

/-- The area of the deletion of a path's output. -/
def deleteArea (site : Site) (p : Path) : Area :=
  match p.output site.out site.ext with
  | .ok _ => ⟨fun l => site.outLocation ++ p.belowOut site.ext <+: l, fun _ => False⟩
  | .error _ => .none

/-- The path may be that of an event: it is relative and no output. -/
structure IsPlaced (site : Site) (p : Path) : Prop where
  isRead : p.IsRead
  relative : p.root = .relative
  notOutput : site.isOutput p = false

theorem IsPlaced.dots {p : Path} (h : IsPlaced site p) : "." ∉ p.segments := fun hm => (h.isRead "." hm).2.1 rfl

/-- The location of a path with an output: below the directory of the project or below the one above it. -/
theorem IsPlaced.location {p o : Path} (h : IsPlaced site p) (ho : p.output site.out site.ext = .ok o) :
    ∃ s rest, site.dir / p = ⟨site.dir.root, site.dir.segments ++ s :: rest⟩ ∧ s ≠ "." ∧ Path.Plain rest := by
  obtain ⟨-, -, hne, hup⟩ := Path.output_ok ho
  obtain ⟨root, segments⟩ := p
  cases segments with
  | nil => exact absurd rfl hne
  | cons s rest =>
    have hroot : root = .relative := h.relative
    subst hroot
    refine ⟨s, rest, ?_, fun he => h.dots (by simp [he]), fun hm => h.dots (List.mem_cons_of_mem _ hm), hup⟩
    exact Path.join_ofSegments site.dir (s :: rest)

/-- The output of a path that is no output is not the directory of the project nor above it. -/
theorem IsPlaced.home_stays {p o : Path} (h : IsPlaced site p) (ho : p.output site.out site.ext = .ok o)
    (hd : Path.Plain site.dir.segments) :
    ¬ site.outLocation ++ p.belowOut site.ext <+: site.dir.segments := by
  intro hp
  obtain ⟨s, rest, hs, dot, plain⟩ := h.location ho
  have goal : collapse (site.dir / p).segments = Path.descend site.dir.segments s ++ rest := by
    rw [hs, Path.collapse_append, Path.collapse_of_plain hd, List.foldl_cons,
      Path.foldl_descend_of_plain plain]
  have longer : (site.outLocation ++ p.belowOut site.ext).length ≤ site.dir.segments.length := hp.length_le
  have above : site.outLocation <+: site.dir.segments := (List.prefix_append _ _).trans hp
  have parent : site.outLocation <+: site.dir.segments.dropLast := by
    refine List.prefix_of_prefix_length_le above (List.dropLast_prefix _) ?_
    have := List.length_pos_iff.2 (Path.belowOut_ne_nil p site.ext)
    rw [List.length_append] at longer
    rw [List.length_dropLast]
    omega
  refine outside_of_not_output h.notOutput ?_
  rw [goal]
  refine List.IsPrefix.trans ?_ (List.prefix_append _ _)
  rw [Path.descend, if_neg dot]
  split
  · exact parent
  · exact above.trans (List.prefix_append _ _)

/-- To delete the output of a path is local to what stands at its place. -/
theorem local_deleteOutput (hf : Firm site t₀) (hd : Path.Plain site.dir.segments) {p : Path}
    (hp : IsPlaced site p) (whole : Bool) :
    Local (Varied site t₀) (site.deleteArea p) (fun _ _ => True)
      fun t => ((site.deleteOutput t p whole).tree, ()) := by
  unfold deleteArea
  cases ho : p.output site.out site.ext with
  | error fault =>
    have still : ∀ t, (site.deleteOutput t p whole).tree = t := fun t => by
      simp [deleteOutput, ho, Step.still]
    simp only [still]
    exact .still fun _ _ _ => trivial
  | ok o =>
    have tree : ∀ {t}, Varied site t₀ t → (site.deleteOutput t p whole).tree =
        FileTree.cleared (site.outLocation ++ p.belowOut site.ext) whole t := fun ht =>
      deleteOutput_tree ht.isTree (hf.varied ht) ho hp.dots whole
    have home := hp.home_stays ho hd
    have place : site.outLocation ++ p.belowOut site.ext ≠ [] := by simp [Path.belowOut_ne_nil]
    have under : site.outLocation <+: site.outLocation ++ p.belowOut site.ext := List.prefix_append _ _
    generalize site.outLocation ++ p.belowOut site.ext = l at *
    have get : ∀ {t}, Varied site t₀ t → ∀ m, (site.deleteOutput t p whole).tree.get? m =
        if t.isDeleted l whole ∧ l <+: m then none else t.get? m := fun ht m => by
      rw [tree ht, FileTree.get?_cleared place]
    refine ⟨fun {t} ht => ⟨?_, ?_, ?_⟩, fun ht m hm => .inl ?_, fun {t t'} ht ht' hs m hm => ?_,
      fun _ _ _ _ h => h.elim, fun _ _ _ => trivial⟩
    · simp only [tree ht, FileTree.cleared]
      split
      · exact ht.isTree.erase l
      · exact ht.isTree
    · intro m hm
      simp only [get ht]
      rw [if_neg fun h => hm (under.trans h.2)]
      exact ht.around m hm
    · simp only [get ht]
      rw [if_neg fun h => home h.2]
      exact ht.home
    · simp only [get ht]
      exact if_neg fun h => hm h.2
    · simp only [get ht, get ht']
      rw [FileTree.isDeleted_congr (hs.own l List.prefix_rfl), hs.own m hm]

/-- Deletions can change places. -/
theorem deleteOutput_comm (hf : Firm site t₀) (hd : Path.Plain site.dir.segments) {p q : Path}
    (hp : IsPlaced site p) (hq : IsPlaced site q) (whole whole' : Bool) (ht : Varied site t₀ t) :
    Same (site.deleteOutput (site.deleteOutput t p whole).tree q whole').tree
      (site.deleteOutput (site.deleteOutput t q whole').tree p whole).tree := by
  have keepsP := (local_deleteOutput hf hd hp whole).keeps ht
  have keepsQ := (local_deleteOutput hf hd hq whole').keeps ht
  dsimp only at keepsP keepsQ
  have tree : ∀ {t r o} (whole : Bool), Varied site t₀ t → IsPlaced site r →
      r.output site.out site.ext = .ok o → (site.deleteOutput t r whole).tree =
        FileTree.cleared (site.outLocation ++ r.belowOut site.ext) whole t := fun whole ht hr ho =>
    deleteOutput_tree ht.isTree (hf.varied ht) ho hr.dots whole
  have still : ∀ {t r fault} (whole : Bool), r.output site.out site.ext = .error fault →
      (site.deleteOutput t r whole).tree = t := fun whole ho => by simp [deleteOutput, ho, Step.still]
  cases ho : p.output site.out site.ext with
  | error fault => rw [still whole ho, still whole ho]; exact .refl _
  | ok o =>
    cases ho' : q.output site.out site.ext with
    | error fault => rw [still whole' ho', still whole' ho']; exact .refl _
    | ok o' =>
      rw [tree whole' keepsP hq ho', tree whole keepsQ hp ho, tree whole ht hp ho, tree whole' ht hq ho']
      exact FileTree.cleared_comm (by simp [Path.belowOut_ne_nil]) (by simp [Path.belowOut_ne_nil]) _ _ t

/-- The area of a deletion is apart from the area of an output that is neither at, above nor below it. -/
theorem deleteArea_apart (hf : Firm site t₀) {p q : Path} (hp : "." ∉ p.segments)
    (h : ∀ o o', p.output site.out site.ext = .ok o → q.output site.out site.ext = .ok o' →
      Unnested o.segments o'.segments) : (site.pathArea p).Apart (site.deleteArea q) := by
  unfold pathArea deleteArea
  cases ho : p.output site.out site.ext with
  | error fault => exact .none _
  | ok o =>
    cases ho' : q.output site.out site.ext with
    | error fault => exact (Area.Apart.none _).symm
    | ok o' =>
      have apart := h o o' ho ho'
      rw [(Path.output_ok ho).1, (Path.output_ok ho').1, Path.segments_div_ofSegments,
        Path.segments_div_ofSegments, unnested_append] at apart
      refine ⟨fun l hl => ⟨fun hl' => ?_, id⟩, fun l hl hway => ?_⟩
      · rcases List.prefix_or_prefix_of_prefix hl.1 hl' with hq | hq
        · exact apart.1 ((List.prefix_append_right_inj _).1 hq)
        · exact apart.2 ((List.prefix_append_right_inj _).1 hq)
      · rcases (mem_placeWay (Path.belowOut_ne_nil _ _) (Path.plain_belowOut ho hp)).1 hway with
          hway | ⟨more, -, hm, rfl⟩
        · rcases hf l hway with ha | ⟨outside, -⟩
          · exact not_under_root (Path.belowOut_ne_nil q site.ext) (hl.trans ha)
          · exact outside ((List.prefix_append _ _).trans hl)
        · exact apart.2 (((List.prefix_append_right_inj _).1 hl).trans (hm.trans (List.dropLast_prefix _)))

end Site

end StaticSite
