/-!
# How templates are written

The settings choose the marks that set tags apart from text. `Marks.ofSettings?` gives the marks, unless
the three kinds of tags cannot be told apart.
-/

namespace StaticSite

structure TemplateSettings where
  delimiter : String := "%"
  openDelimiter : String := "\x7b"
  closeDelimiter : String := "\x7d"
  rmWhitespace : Bool := false
  /-- Every use of a missing value is a fault. -/
  strictUndefined : Bool := false
  deriving DecidableEq, Repr

namespace Template

/-- The marks that begin and end the tags. -/
structure Marks where
  blockStart : List Char
  blockEnd : List Char
  outputStart : List Char
  outputEnd : List Char
  commentStart : List Char
  commentEnd : List Char
  /-- Blanks before a block tag on its line, and the line end after it, are dropped. -/
  trim : Bool
  deriving DecidableEq, Repr

def Marks.ofSettings? (s : TemplateSettings) : Option Marks :=
  let opening := s.openDelimiter.toList
  let closing := s.closeDelimiter.toList
  let mark := s.delimiter.toList
  if mark = opening ∨ opening = ['#'] then none
  else some {
    blockStart := opening ++ mark
    blockEnd := mark ++ closing
    outputStart := opening ++ opening
    outputEnd := closing ++ closing
    commentStart := opening ++ ['#']
    commentEnd := '#' :: closing
    trim := s.rmWhitespace }

end Template

end StaticSite
