/-!
# A place in a YAML text

A cursor is the rest of the text with its line, its column and its distance from the beginning. Lines end
at any of five characters, of which two are kept in the values of scalars.
-/

namespace StaticSite.Yaml

def isBreak (c : Char) : Bool :=
  c == '\n' || c == '\r' || c == '\u0085' || c == '\u2028' || c == '\u2029'

/-- The end of the text, a blank or the end of a line. -/
def isGap : Option Char → Bool
  | none => true
  | some c => c == ' ' || c == '\t' || isBreak c

/-- As `isGap`, but a tab is none. -/
def isPlainGap : Option Char → Bool
  | none => true
  | some c => c == ' ' || isBreak c

/-- The end of the text or of a line. -/
def isLineEnd : Option Char → Bool
  | none => true
  | some c => isBreak c

structure Cursor where
  rest : List Char
  index : Nat := 0
  line : Nat := 0
  column : Nat := 0

namespace Cursor

def peek? (c : Cursor) : Option Char := c.rest.head?

def peekAt? (c : Cursor) (n : Nat) : Option Char := c.rest[n]?

def byteOrderMark : Char := '\uFEFF'

def next (c : Cursor) : Cursor :=
  match c.rest with
  | [] => c
  | ch :: rest =>
    if isBreak ch && !(ch == '\r' && rest.head? == some '\n') then
      ⟨rest, c.index + 1, c.line + 1, 0⟩
    else ⟨rest, c.index + 1, c.line, if ch = byteOrderMark then c.column else c.column + 1⟩

def skip : Nat → Cursor → Cursor
  | 0, c => c
  | n + 1, c => skip n c.next

/-- The longest run of characters that satisfy `p`, and the place after it. -/
def span (p : Char → Bool) (c : Cursor) : List Char × Cursor :=
  let run := c.rest.takeWhile p
  (run, c.skip run.length)

def skipWhile (p : Char → Bool) (c : Cursor) : Cursor := (c.span p).2

def skipSpaces (c : Cursor) : Cursor := c.skipWhile (· == ' ')

/-- The end of a line as it counts in a value, empty if the line does not end here. -/
def lineBreak (c : Cursor) : List Char × Cursor :=
  match c.rest with
  | '\r' :: '\n' :: _ => (['\n'], c.skip 2)
  | ch :: _ =>
    if ch == '\u2028' || ch == '\u2029' then ([ch], c.next)
    else if isBreak ch then (['\n'], c.next)
    else ([], c)
  | [] => ([], c)

/-- A marker of three characters between documents stands here. -/
def isMarker (mark : List Char) (c : Cursor) : Bool := mark.isPrefixOf c.rest && isGap (c.peekAt? 3)

def atSeparator (c : Cursor) : Bool := c.isMarker ['-', '-', '-'] || c.isMarker ['.', '.', '.']

/-- The place after blanks and a comment, if the line ends there. -/
def skipComment (c : Cursor) : Option Cursor :=
  let c := c.skipSpaces
  let c := if c.peek? = some '#' then c.skipWhile (!isBreak ·) else c
  if isLineEnd c.peek? then some c.lineBreak.2 else none

end Cursor

end StaticSite.Yaml
