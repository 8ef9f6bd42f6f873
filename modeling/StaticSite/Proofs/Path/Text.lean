import StaticSite.Path.Basic

/-!
# Paths and their texts

A text that is put together with a slash is read as the segments of both parts (`segmentsOf_append`), and the text
of a path is read as that path (`ofString_text`).
-/

namespace StaticSite

theorem Text.splitOn_append (sep : Char) (cs ds : List Char) :
    splitOn sep (cs ++ sep :: ds) = splitOn sep cs ++ splitOn sep ds := by
  induction cs with
  | nil => simp [splitOn]
  | cons c cs ih =>
    rw [List.cons_append, splitOn, splitOn, ih]
    by_cases hc : c = sep
    · simp [hc]
    · rw [if_neg hc, if_neg hc]
      cases hs : splitOn sep cs with
      | nil => exact absurd hs (splitOn_ne_nil sep cs)
      | cons piece pieces => rfl

/-- Pieces without the separator are found again. -/
theorem Text.splitOn_joinWith {sep : Char} {pieces : List (List Char)} (hn : pieces ≠ [])
    (h : ∀ piece ∈ pieces, sep ∉ piece) : splitOn sep (joinWith sep pieces) = pieces := by
  induction pieces with
  | nil => exact absurd rfl hn
  | cons piece rest ih =>
    have first := splitOn_of_notMem (h piece List.mem_cons_self)
    cases rest with
    | nil => exact first
    | cons next rest =>
      rw [joinWith, splitOn_append, first, ih (List.cons_ne_nil _ _) fun p hp => h p (List.mem_cons_of_mem _ hp)]
      · rfl
      · exact List.cons_ne_nil _ _

theorem Text.mem_joinWith {sep c : Char} {pieces : List (List Char)} (h : c ∈ joinWith sep pieces) :
    c = sep ∨ ∃ piece ∈ pieces, c ∈ piece := by
  induction pieces with
  | nil => cases h
  | cons piece rest ih =>
    cases rest with
    | nil => exact .inr ⟨piece, List.mem_cons_self, h⟩
    | cons next rest =>
      rw [joinWith, List.mem_append, List.mem_cons] at h
      · rcases h with h | rfl | h
        · exact .inr ⟨piece, List.mem_cons_self, h⟩
        · exact .inl rfl
        · rcases ih h with hs | ⟨p, hp, hc⟩
          · exact .inl hs
          · exact .inr ⟨p, List.mem_cons_of_mem _ hp, hc⟩
      · exact List.cons_ne_nil _ _

theorem Text.mem_intercalate {c : Char} {sep : List Char} {pieces : List (List Char)} (hc : c ∉ sep) :
    c ∈ sep.intercalate pieces ↔ ∃ piece ∈ pieces, c ∈ piece := by
  induction pieces with
  | nil => simp [List.intercalate]
  | cons piece rest ih =>
    cases rest with
    | nil => simp [List.intercalate]
    | cons next rest =>
      simp only [List.intercalate, List.intersperse, List.flatten_cons, List.mem_append, hc, false_or] at ih ⊢
      rw [ih]
      simp

namespace Path

theorem segmentsOf_append (s s' : String) : segmentsOf (s ++ "/" ++ s') = segmentsOf s ++ segmentsOf s' := by
  have chars : (s ++ "/" ++ s').toList = s.toList ++ '/' :: s'.toList := by simp
  rw [segmentsOf, Text.pieces, chars, Text.splitOn_append, List.map_append, List.filter_append]
  rfl

theorem segmentsOf_intercalate {segs : List String} (h : ∀ s ∈ segs, s ≠ "" ∧ s ≠ "." ∧ '/' ∉ s.toList) :
    segmentsOf (String.intercalate "/" segs) = segs := by
  have single : ∀ s ∈ segs, segmentsOf s = [s] := fun s hs => congrArg segments (ofString_segment (h s hs))
  induction segs with
  | nil => rfl
  | cons s rest ih =>
    cases rest with
    | nil => simpa using single s List.mem_cons_self
    | cons u rest =>
      rw [String.intercalate_cons_cons, segmentsOf_append, single s List.mem_cons_self,
        ih (fun v hv => h v (List.mem_cons_of_mem s hv)) fun v hv => single v (List.mem_cons_of_mem s hv)]
      rfl

/-- No slash stands where the first segment begins. -/
theorem head?_intercalate {segs : List String} (h : ∀ s ∈ segs, s ≠ "" ∧ s ≠ "." ∧ '/' ∉ s.toList) :
    (String.intercalate "/" segs).toList.head? ≠ some '/' := by
  cases segs with
  | nil => simp
  | cons s rest =>
    obtain ⟨nonempty, -, noSlash⟩ := h s List.mem_cons_self
    obtain ⟨c, cs, hs⟩ := List.exists_cons_of_ne_nil (l := s.toList) fun he =>
      nonempty (String.toList_inj.1 he)
    have first : (String.intercalate "/" (s :: rest)).toList.head? = some c := by
      cases rest with
      | nil => simp [hs]
      | cons u rest => simp [String.intercalate_cons_cons, hs]
    rw [first]
    rintro ⟨⟩
    exact noSlash (by simp [hs])

theorem rootOf_append (root : Root) {cs : List Char} (h : cs.head? ≠ some '/') :
    rootOf (root.text.toList ++ cs) = root := by
  cases cs with
  | nil => cases root <;> rfl
  | cons c cs =>
    have hc : c ≠ '/' := fun he => h (by rw [he]; rfl)
    cases root <;> simp [Root.text, rootOf, hc]

/-- A relative path does not begin with a slash. -/
theorem ne_slash_of_relative {c : Char} {cs : List Char} (h : rootOf (c :: cs) = .relative) : c ≠ '/' := by
  rintro rfl
  unfold rootOf at h
  split at h
  · cases h
  · cases h
  · cases h
  · next other => exact other cs rfl

theorem segmentsOf_root_append (root : Root) (s : String) : segmentsOf (root.text ++ s) = segmentsOf s := by
  cases root with
  | relative => simp [Root.text]
  | slash => exact segmentsOf_append "" s
  | slashes => exact segmentsOf_append "/" s

/-- The text of a path is read as the path. -/
theorem ofString_text {p : Path} (h : p.IsRead) : ofString p.text = p := by
  unfold text
  split
  · next here => rw [here]; rfl
  · rw [ofString, String.toList_append, rootOf_append p.root (head?_intercalate h), segmentsOf_root_append,
      segmentsOf_intercalate h]

/-- A path and its text have the same characters, but for those that may join the segments. -/
theorem mem_text {p : Path} {c : Char} (hs : c ≠ '/') (hd : c ≠ '.') :
    c ∈ p.text.toList ↔ ∃ s ∈ p.segments, c ∈ s.toList := by
  have root : c ∉ p.root.text.toList := by cases p.root <;> simp [Root.text, hs]
  have sep : c ∉ "/".toList := by simpa using hs
  unfold text
  split
  · next h => simp [h, here, hd]
  · rw [String.toList_append, List.mem_append, String.toList_intercalate, Text.mem_intercalate sep, or_iff_right root]
    simp only [List.mem_map]
    constructor
    · rintro ⟨_, ⟨s, hm, rfl⟩, h⟩
      exact ⟨s, hm, h⟩
    · rintro ⟨s, hm, h⟩
      exact ⟨_, ⟨s, hm, rfl⟩, h⟩

end Path

end StaticSite
