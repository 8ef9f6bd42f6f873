import StaticSite.Page
import StaticSite.Path.Resolve
import StaticSite.Proofs.Glob.Names

/-!
# Output paths

The output path of a source is the output root with the source's own names below it, of which only the last may
be another (`outputOf_ok`). So it lies strictly below the output root (`outputOf_ofString`).
-/

namespace StaticSite

namespace Path

/-- The segments of the output path below the output root. -/
def belowOut (p : Path) (ext : String) : List String :=
  (p.segments.drop 1).dropLast ++ [outputName ((p.segments.drop 1).getLastD "") ext]

/-! ## The last name -/

theorem outputName_plain {name ext : String} (h : name ≠ "." ∧ name ≠ "..") :
    outputName name ext ≠ "." ∧ outputName name ext ≠ ".." := by
  unfold outputName
  split
  · unfold Name.toPage
    dsimp only
    generalize String.ofList (Name.stem ext.length name.toList) = s
    split
    · next hs =>
      refine ⟨?_, ?_⟩ <;> rintro rfl <;> exact absurd hs (by decide)
    · have long : 5 ≤ (s ++ pageExt).length := by
        rw [String.length_append]
        exact Nat.le_add_left _ _
      refine ⟨fun he => ?_, fun he => ?_⟩ <;> rw [he] at long <;> exact absurd long (by decide)
  · exact h

/-- The name of an output is a segment that texts are read as. -/
theorem isRead_outputName {name ext : String} (h : name ≠ "" ∧ name ≠ "." ∧ '/' ∉ name.toList) (hu : name ≠ "..") :
    outputName name ext ≠ "" ∧ outputName name ext ≠ "." ∧ '/' ∉ (outputName name ext).toList := by
  refine ⟨?_, (outputName_plain ⟨h.2.1, hu⟩).1, ?_⟩
  · unfold outputName
    split
    · unfold Name.toPage
      dsimp only
      split
      · next hs => rintro he; rw [he] at hs; exact absurd hs (by decide)
      · intro he
        have empty := congrArg String.length he
        rw [String.length_append] at empty
        exact absurd (Nat.le_of_add_left_le (Nat.le_of_eq empty)) (by decide)
    · exact h.1
  · have stem : '/' ∉ (String.ofList (Name.stem ext.length name.toList)).toList := by
      rw [String.toList_ofList, Name.stem]
      split
      · simp
      · exact fun hm => h.2.2 (List.mem_of_mem_take hm)
    unfold outputName
    split
    · unfold Name.toPage
      dsimp only
      split
      · exact stem
      · rw [String.toList_append, List.mem_append]
        rintro (hm | hm)
        · exact stem hm
        · exact absurd hm (by decide)
    · exact h.2.2

/-! ## The segments below the output root -/

variable {p out o : Path} {ext : String}

theorem outputOf_ok (h : p.outputOf out ext = .ok o) :
    o = out / ofSegments (p.belowOut ext) ∧ p.root = .relative ∧ p.segments.drop 1 ≠ [] ∧
      ".." ∉ p.segments.drop 1 := by
  unfold outputOf at h
  dsimp only at h
  split at h
  · cases h
  · next habs =>
    split at h
    · cases h
    · next hne =>
      split at h
      · cases h
      · next hup =>
        cases h
        exact ⟨rfl, by simpa [isAbsolute] using habs, by simpa using hne, hup⟩

theorem output_eq_ok : p.output out ext = .ok o ↔ p.outputOf out ext = .ok o := by
  unfold output
  cases p.outputOf out ext <;> simp [Except.mapError]

theorem output_ok (h : p.output out ext = .ok o) :
    o = out / ofSegments (p.belowOut ext) ∧ p.root = .relative ∧ p.segments.drop 1 ≠ [] ∧
      ".." ∉ p.segments.drop 1 :=
  outputOf_ok (output_eq_ok.1 h)

theorem belowOut_ne_nil (p : Path) (ext : String) : p.belowOut ext ≠ [] := by simp [belowOut]

theorem getLastD_mem_drop (h : p.segments.drop 1 ≠ []) : (p.segments.drop 1).getLastD "" ∈ p.segments.drop 1 := by
  rw [List.getLastD_eq_getLast?, List.getLast?_eq_some_getLast h]
  exact List.getLast_mem h

theorem plain_belowOut (h : p.output out ext = .ok o) (hr : "." ∉ p.segments) : Plain (p.belowOut ext) := by
  obtain ⟨-, -, hne, hup⟩ := output_ok h
  have last := getLastD_mem_drop hne
  have dots : "." ∉ p.segments.drop 1 := fun hm => hr (List.mem_of_mem_drop hm)
  have name := @outputName_plain ((p.segments.drop 1).getLastD "") ext
    ⟨fun he => dots (he ▸ last), fun he => hup (he ▸ last)⟩
  constructor
  · rw [belowOut, List.mem_append, List.mem_singleton]
    rintro (hm | hm)
    · exact dots (List.dropLast_subset _ hm)
    · exact name.1 hm.symm
  · rw [belowOut, List.mem_append, List.mem_singleton]
    rintro (hm | hm)
    · exact hup (List.dropLast_subset _ hm)
    · exact name.2 hm.symm

theorem isRead_belowOut (h : p.output out ext = .ok o) (hr : p.IsRead) : (ofSegments (p.belowOut ext)).IsRead := by
  obtain ⟨-, -, nonempty, up⟩ := output_ok h
  have last := getLastD_mem_drop nonempty
  intro s hs
  rcases List.mem_append.1 hs with hs | hs
  · exact hr s (List.mem_of_mem_drop (List.dropLast_subset _ hs))
  · rw [List.mem_singleton.1 hs]
    exact isRead_outputName (hr _ (List.mem_of_mem_drop last)) fun he => up (he ▸ last)

theorem isName_of_mem_belowOut (h : p.outputOf out ext = .ok o) (hr : p.IsRead) {s : String}
    (hs : s ∈ p.belowOut ext) : IsName s := by
  have ok := output_eq_ok.2 h
  have plain := plain_belowOut ok fun hm => (hr _ hm).2.1 rfl
  exact ⟨isRead_belowOut ok hr s hs, fun he => plain.2 (he ▸ hs)⟩

/-! ## Sources with an output path -/

theorem exists_outputOf_eq_error :
    (∃ fault, p.outputOf out ext = .error fault) ↔
      p.isAbsolute ∨ p.segments.length < 2 ∨ ".." ∈ p.segments.drop 1 := by
  have short : (p.segments.drop 1).isEmpty ↔ p.segments.length < 2 := by
    rw [List.isEmpty_iff, List.drop_eq_nil_iff]
    omega
  unfold outputOf
  dsimp only
  split
  · next absolute => exact iff_of_true ⟨_, rfl⟩ (.inl absolute)
  · next relative =>
    split
    · next empty => exact iff_of_true ⟨_, rfl⟩ (.inr (.inl (short.1 empty)))
    · next nonempty =>
      split
      · next up => exact iff_of_true ⟨_, rfl⟩ (.inr (.inr up))
      · next within =>
        refine iff_of_false (fun ⟨fault, he⟩ => by cases he) ?_
        rintro (absolute | few | up)
        · exact relative absolute
        · exact nonempty (short.2 few)
        · exact within up

/-- A source has no output path exactly if it is absolute, has nothing below its root directory or leads up there.
Otherwise its output path lies strictly below the output root, as deep as the source below its root directory and with
its directories. -/
theorem outputOf_ofString (source root ext : String) :
    let p := ofString source
    let out := ofString root
    ((∃ fault, p.outputOf out ext = .error fault) ↔
        p.isAbsolute ∨ p.segments.length < 2 ∨ ".." ∈ p.segments.drop 1) ∧
      ∀ o, p.outputOf out ext = .ok o →
        (∃ below, o.root = out.root ∧ o.segments = out.segments ++ below ∧
          below.length = (p.segments.drop 1).length ∧ below.dropLast = (p.segments.drop 1).dropLast ∧
          ∀ s ∈ below, IsName s) ∧
        o.isBelow out ∧ o ≠ out ∧ ∃ rel, o.relativeTo? out = some rel ∧ out / rel = o := by
  intro p out
  refine ⟨exists_outputOf_eq_error, fun o h => ?_⟩
  obtain ⟨rfl, -, nonempty, -⟩ := outputOf_ok h
  have depth : (p.belowOut ext).length = (p.segments.drop 1).length := by
    have := List.length_pos_iff.2 nonempty
    rw [belowOut, List.length_append, List.length_dropLast, List.length_singleton]
    omega
  have below := relativeTo?_join out (p.belowOut ext)
  refine ⟨⟨p.belowOut ext, ?_, ?_, depth, by simp [belowOut], fun s hs => ?_⟩, ?_, ?_, _, below, rfl⟩
  · rw [join_ofSegments]
  · rw [join_ofSegments]
  · exact isName_of_mem_belowOut h (isRead_ofString source) hs
  · rw [isBelow, below]
    rfl
  · intro same
    rw [join_ofSegments] at same
    exact belowOut_ne_nil p ext (List.append_right_eq_self.1 (congrArg segments same))

end Path

end StaticSite
