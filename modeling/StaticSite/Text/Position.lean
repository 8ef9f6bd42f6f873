/-!
# Positions in a text

Lines and columns count from one, offsets from zero; all count characters.
-/

namespace StaticSite.Text

structure Position where
  line : Nat
  column : Nat
  offset : Nat
  deriving DecidableEq, Repr

/-- The position after the characters `before`. -/
def positionAfter (before : List Char) : Position :=
  { line := before.count '\n' + 1
    column := (before.reverse.takeWhile (· ≠ '\n')).length + 1
    offset := before.length }

def Position.text (p : Position) : String := s!"line {p.line} column {p.column} (char {p.offset})"

end StaticSite.Text
