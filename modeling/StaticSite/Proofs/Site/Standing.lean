import StaticSite.Proofs.FileTree.Rewritten
import StaticSite.Proofs.Site.Confined
import StaticSite.Proofs.Site.Scheduling

/-!
# Files that stand to the end

A text that was written can be read where it was put (`read_writeText`), and it stays there as long as files are put
elsewhere (`Puts.read`). So what each item of a run leaves is there at the end of the run, if no other item puts a
file at the same place (`run_stands`).
-/

namespace StaticSite

open Path (collapse)

namespace FileTree

variable {part : Location → Prop} {t t' : FileTree}

/-- Nothing stops the walk where all it leads through are directories. -/
theorem read_of_dirs {p : Path} {content : ByteArray}
    (way : ∀ l ∈ (trail [] p.segments).dropLast, t.get? l = some .dir)
    (h : t.get? (collapse p.segments) = some (.file content)) : t.read p = .ok content := by
  rw [read, locate_eq, hurdle?_eq_none.2 way]
  dsimp only
  rw [h]

/-- A file that can be read can be read as long as none is put at its place. -/
theorem Puts.read (h : Puts part t t') {p : Path} (hp : ¬ part (collapse p.segments)) {content : ByteArray}
    (hr : t.read p = .ok content) : t'.read p = .ok content := by
  obtain ⟨-, file⟩ := located_of_read hr
  have way := hurdle?_eq_none.1 (hurdle?_of_read hr)
  exact read_of_dirs (fun l hl => h.grows.dir (way l hl)) ((h.keeps _ hp content).2 file)

/-- A file that was put is there. -/
theorem read_putFile {p : Path} {content : ByteArray} (h : (t.putFile p content).2 = .ok ()) :
    (t.putFile p content).1.read p = .ok content := by
  have puts : Puts (fun _ => True) t (t.putFile p content).1 := puts_putFile trivial content
  unfold putFile at h puts ⊢
  rw [locate_eq] at h puts ⊢
  cases way : t.hurdle? (trail [] p.segments).dropLast with
  | some cause => rw [way] at h; cases h
  | none =>
    rw [way] at h puts
    dsimp only at h puts ⊢
    split at h
    · cases h
    · next free =>
      have nonempty : collapse p.segments ≠ [] := fun he => free (by rw [he]; rfl)
      split at puts
      · next dir => exact absurd dir free
      · refine read_of_dirs (fun l hl => puts.grows.dir (hurdle?_eq_none.1 way l hl)) ?_
        rw [get?_put _ _ nonempty, if_pos rfl]

theorem isDir_iff {p : Path} : t.isDir p = true ↔
    (∀ l ∈ (trail [] p.segments).dropLast, t.get? l = some .dir) ∧ t.get? (collapse p.segments) = some .dir := by
  rw [isDir, node?, locate_eq, ← hurdle?_eq_none]
  cases t.hurdle? (trail [] p.segments).dropLast with
  | some cause => simp
  | none =>
    dsimp only
    generalize t.get? (collapse p.segments) = node
    rcases node with - | ⟨content | -⟩ <;> simp

theorem Grows.isDir (h : Grows t t') {p : Path} (hd : t.isDir p = true) : t'.isDir p = true := by
  obtain ⟨way, dir⟩ := isDir_iff.1 hd
  exact isDir_iff.2 ⟨fun l hl => h.dir (way l hl), h.dir dir⟩

/-- No directory stands where a file can be read. -/
theorem isDir_of_read {p : Path} {content : ByteArray} (h : t.read p = .ok content) : t.isDir p = false := by
  obtain ⟨-, file⟩ := located_of_read h
  refine Bool.eq_false_iff.2 fun dir => ?_
  rw [(isDir_iff.1 dir).2] at file
  cases file

/-- Where a copy goes: to its target, or into the directory there. -/
def destination (t : FileTree) (source target : Path) : Path :=
  if t.isDir target then target.child source.name else target

/-- A copy that went well has put what the source holds at its destination. -/
theorem copyFile_of_ok {source target : Path} (h : (t.copyFile source target).2 = .ok ()) :
    ∃ content, t.read source = .ok content ∧
      t.copyFile source target = t.putFile (t.destination source target) content := by
  unfold copyFile destination at *
  dsimp only at h ⊢
  generalize (if t.isDir target then target.child source.name else target) = q at h ⊢
  split at h
  · cases h
  · next other =>
    rw [if_neg other]
    cases hr : t.read source with
    | error fault => rw [hr] at h; cases h
    | ok content => exact ⟨content, rfl, rfl⟩

/-- A file that is put at the destination makes no directory of the target and takes none away. -/
theorem destination_putFile {source target : Path} {content : ByteArray}
    (h : (t.putFile (t.destination source target) content).2 = .ok ()) :
    (t.putFile (t.destination source target) content).1.destination source target = t.destination source target := by
  have puts : Puts (fun _ => True) t (t.putFile (t.destination source target) content).1 := puts_putFile trivial content
  have stands := read_putFile h
  have same : (t.putFile (t.destination source target) content).1.isDir target = t.isDir target := by
    cases entered : t.isDir target with
    | true => exact puts.grows.isDir entered
    | false =>
      have there : t.destination source target = target := if_neg (by simp [entered])
      rw [there] at stands ⊢
      exact isDir_of_read stands
  rw [destination, same, destination]

end FileTree

namespace Site

open FileTree (Puts)

variable {site : Site} {t : FileTree}

/-- A text that was written is there. -/
theorem read_writeText {target : Path} {s : String} (h : (writeText t target s).2 = .ok ()) :
    ∃ bytes, Text.encode s = .ok bytes ∧ (writeText t target s).1.read target = .ok bytes := by
  rw [writeText_directly] at h ⊢
  generalize makeRoom t target target = made at h ⊢
  obtain ⟨t', fault | u⟩ := made
  · cases h
  · dsimp only at h ⊢
    cases hb : textBytes target s with
    | error fault => rw [hb] at h; cases h
    | ok bytes =>
      rw [hb] at h
      dsimp only at h ⊢
      have encoded : Text.encode s = .ok bytes := by
        unfold textBytes at hb
        split at hb
        · cases hb
        · exact mapError_eq_ok_iff.1 hb
      exact ⟨bytes, encoded, FileTree.read_putFile (mapError_eq_ok_iff.1 h)⟩

/-! ## Runs -/

section
variable {α β : Type} {step : FileTree → α → Step β} {Q : α → Except Fault β → FileTree → Prop} {as : List α}

/-- What holds of one of two items and its result goes on to hold when the other one is worked on. -/
def Spares (step : FileTree → α → Step β) (Q : α → Except Fault β → FileTree → Prop) (a b : α) : Prop :=
  (∀ r u, Q a r u → Q a r (step u b).tree) ∧ ∀ r u, Q b r u → Q b r (step u a).tree

theorem Spares.symm {a b : α} (h : Spares step Q a b) : Spares step Q b a := ⟨h.2, h.1⟩

theorem inTurn_keeps {P : FileTree → Prop} (hs : ∀ a ∈ as, ∀ u, P u → P (step u a).tree) (ht : P t) :
    P (inTurn step t as).1 := by
  induction as generalizing t with
  | nil => exact ht
  | cons a as ih => exact ih (fun b hb => hs b (List.mem_cons_of_mem a hb)) (hs a List.mem_cons_self t ht)

theorem inTurn_stands (each : ∀ a ∈ as, ∀ u, Q a (step u a).result (step u a).tree)
    (apart : as.Pairwise (Spares step Q)) :
    List.Forall₂ (fun a r => Q a r (inTurn step t as).1) as (inTurn step t as).2.2 := by
  induction as generalizing t with
  | nil => exact .nil
  | cons a as ih =>
    obtain ⟨first, rest⟩ := List.pairwise_cons.1 apart
    have kept : Q a (step t a).result (inTurn step (step t a).tree as).1 :=
      inTurn_keeps (fun b hb => (first b hb).1 _) (each a List.mem_cons_self t)
    exact .cons kept (ih (fun b hb => each b (List.mem_cons_of_mem a hb)) rest)

/-- What each item leaves stands at the end of the run, whatever the order, if the other items spare it. -/
theorem run_stands (σ : Schedule) (each : ∀ a ∈ as, ∀ u, Q a (step u a).result (step u a).tree)
    (apart : as.Pairwise (Spares step Q)) :
    List.Forall₂ (fun a r => Q a r (σ.run step t as).1) as (σ.run step t as).2.2 := by
  have perm := picked_order_perm σ as
  have items : List.Forall₂ (fun item r => Q item.2 r (σ.run step t as).1) (picked (σ.order as.length) as)
      (inTurn (fun t (item : Nat × α) => step t item.2) t (picked (σ.order as.length) as)).2.2 := by
    refine @inTurn_stands t (Nat × α) β (fun t item => step t item.2) (fun item => Q item.2) _
      (fun item hm => each item.2 (perm.mem_iff.1 (List.mem_map_of_mem hm))) ?_
    have spares : ((picked (σ.order as.length) as).map Prod.snd).Pairwise (Spares step Q) :=
      (perm.pairwise_iff fun h => h.symm).2 apart
    exact (List.pairwise_map (f := Prod.snd)).1 spares
  have placed : ∀ item ∈ picked (σ.order as.length) as, as[item.1]? = some item.2 :=
    fun item hm => (mem_picked.1 hm).2
  refine forall₂_filterMap_range fun i a hi =>
    exists_lookup_zip (P := fun a r => Q a r (σ.run step t as).1) placed items ?_
  have inRange : i ∈ List.range as.length := List.mem_range.2 (List.getElem?_eq_some_iff.1 hi).1
  exact mem_picked.2 ⟨(σ.isOrder as.length).mem_iff.2 inRange, hi⟩

end

end Site

end StaticSite
