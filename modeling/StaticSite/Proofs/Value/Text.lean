import StaticSite.Value.Text

/-!
# Texts of values are filled

Nothing but the empty text itself has an empty text (`plainText_eq_empty_iff`): every other value is printed with a
digit, a word or a mark.
-/

namespace StaticSite

theorem ne_empty_of_front {a b : String} (h : a ≠ "") : a ++ b ≠ "" := fun empty =>
  h (String.append_eq_empty_iff.1 empty).1

theorem ne_empty_of_end {a b : String} (h : b ≠ "") : a ++ b ≠ "" := fun empty =>
  h (String.append_eq_empty_iff.1 empty).2

/-! ## Numbers -/

theorem toString_int_ne_empty (n : Int) : toString n ≠ "" := by
  cases n with
  | ofNat n => exact Nat.repr_ne_empty
  | negSucc n =>
    have signed : toString (Int.negSucc n) = "-" ++ Nat.repr (n + 1) := rfl
    simp [signed]

theorem Decimal.text_ne_nil (d : Decimal) : d.text ≠ [] := by
  unfold Decimal.text
  split
  · unfold Decimal.positional
    split
    · simp
    · dsimp only
      split <;> simp
  · simp [Decimal.scientific]

theorem Binary64.text_ne_empty (x : Binary64) : x.text ≠ "" := by
  unfold Binary64.text
  split
  · decide
  · rw [Ne, String.ofList_eq_empty_iff]
    split
    · simp
    · split
      · decide
      · decide
      · exact Decimal.text_ne_nil _

/-! ## Values -/

namespace Value

theorem literal_ne_empty : (v : Value) → v.literal ≠ ""
  | .knot v => literal_ne_empty v
  | .null | .bool true | .bool false | .tuple [] | .set [] => by decide
  | .back _ true => show "\x7b...\x7d" ≠ "" by decide
  | .back _ false => show "[...]" ≠ "" by decide
  | .int n => toString_int_ne_empty n
  | .float x => x.text_ne_empty
  | .text s => by simp [show literal (.text s) = Text.quote s from rfl, Text.quote]
  | .bytes bs => by simp [show literal (.bytes bs) = Text.quoteBytes bs from rfl, Text.quoteBytes]
  | .list _ => show _ ++ "]" ≠ "" from ne_empty_of_end (by decide)
  | .tuple [_] => show _ ++ ",)" ≠ "" from ne_empty_of_end (by decide)
  | .tuple (_ :: _ :: _) => show _ ++ ")" ≠ "" from ne_empty_of_end (by decide)
  | .set (_ :: _) => show _ ++ "\x7d" ≠ "" from ne_empty_of_end (by decide)
  | .map _ => show _ ++ "\x7d" ≠ "" from ne_empty_of_end (by decide)
  | .date _ => show _ ++ ")" ≠ "" from ne_empty_of_end (by decide)
  | .moment _ => show _ ++ ")" ≠ "" from ne_empty_of_end (by decide)

theorem plainText_eq_empty_iff {v : Value} : v.plainText = "" ↔ v = .text "" := by
  cases v with
  | text s => simp [plainText]
  | date d =>
    have filled : d.text ≠ "" := ne_empty_of_front (ne_empty_of_end (by decide))
    exact iff_of_false filled nofun
  | moment t =>
    have filled : t.text ≠ "" := ne_empty_of_front (ne_empty_of_end (by decide))
    exact iff_of_false filled nofun
  | _ => exact iff_of_false (literal_ne_empty _) nofun

/-- A value that counts as true has a text. -/
theorem plainText_ne_empty {v : Value} (h : v.isTrue = true) : v.plainText ≠ "" := by
  rw [Ne, plainText_eq_empty_iff]
  rintro rfl
  cases h

end Value

end StaticSite
