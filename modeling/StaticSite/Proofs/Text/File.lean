import StaticSite.Json.File
import StaticSite.Proofs.Failing

/-!
# Reading a text back

The bytes of a text decode to that text. A file that is read line by line gives it with unix line ends, so without a
carriage return that is the text itself (`unixLines_eq_self_iff`).
-/

namespace StaticSite

namespace Text

@[simp] theorem decode_toUTF8 (s : String) : decode s.toUTF8 = .ok s := by
  have valid : s.toUTF8.IsValidUTF8 := s.isValidUTF8
  unfold decode String.fromUTF8?
  rw [dif_pos valid]
  rfl

theorem ofFile_toUTF8 (s : String) : ofFile s.toUTF8 = .ok (String.ofList (unixLines s.toList)) := by
  rw [ofFile, decode_toUTF8]
  rfl

/-- No carriage return is left. -/
theorem notMem_unixLines (cs : List Char) : '\r' ∉ unixLines cs := by
  induction cs using unixLines.induct with
  | case1 cs ih => simpa [unixLines] using ih
  | case2 cs _ ih => rw [unixLines] <;> simp_all
  | case3 c cs _ notReturn ih =>
    have : c ≠ '\r' := by rintro rfl; exact notReturn rfl
    rw [unixLines] <;> simp_all [Ne.symm]
  | case4 => simp [unixLines]

theorem unixLines_eq_self_iff {cs : List Char} : unixLines cs = cs ↔ '\r' ∉ cs := by
  refine ⟨fun same => same ▸ notMem_unixLines cs, fun h => ?_⟩
  induction cs with
  | nil => rfl
  | cons c cs ih =>
    obtain ⟨hc, hcs⟩ : '\r' ≠ c ∧ '\r' ∉ cs := by simpa using h
    rw [unixLines, ih hcs]
    · rintro _ rfl; exact absurd rfl hc
    · rintro rfl; exact absurd rfl hc

end Text

/-- A file that holds a text is read as that text, with unix line ends. -/
theorem Json.readFile_text {t : FileTree} {p : Path} {s : String} (h : t.read p = .ok s.toUTF8) :
    Json.readFile t p = (Json.read (String.ofList (Text.unixLines s.toList))).mapError .json := by
  rw [Json.readFile, h, mapError_ok]
  show (Text.ofFile s.toUTF8).mapError _ >>= _ = _
  rw [Text.ofFile_toUTF8, mapError_ok]
  rfl

end StaticSite
