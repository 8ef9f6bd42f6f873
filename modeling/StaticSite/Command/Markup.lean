/-!
# Marks in printed text

Text that is printed may hold marks for its style, as in `[red]`, which are not shown. A backslash before a
mark makes it text. `visible` is what is left to see, with blanks for tabs and without the characters that
move about on a terminal.
-/

namespace StaticSite.Command

namespace Markup

/-- A character that a mark may begin with. -/
def startsMark (c : Char) : Bool := 'a' ≤ c && c ≤ 'z' || c == '#' || c == '/' || c == '@'

/-- What follows the closing bracket of a mark. -/
def afterClosing : List Char → Option (List Char)
  | [] => none
  | c :: cs => if c = ']' then some cs else if c = '[' then none else afterClosing cs

/-- What follows a mark, if the text begins with one. -/
def afterMark? : List Char → Option (List Char)
  | '[' :: c :: cs => if startsMark c then afterClosing cs else none
  | _ => none

theorem length_afterClosing {cs rest : List Char} (h : afterClosing cs = some rest) :
    rest.length < cs.length := by
  induction cs with
  | nil => simp [afterClosing] at h
  | cons c cs ih =>
    unfold afterClosing at h
    split at h
    · simp only [Option.some.injEq] at h; subst h; simp
    · split at h
      · simp at h
      · have := ih h; simp only [List.length_cons]; omega

theorem length_afterMark {cs rest : List Char} (h : afterMark? cs = some rest) :
    rest.length < cs.length := by
  unfold afterMark? at h
  split at h
  · split at h
    · have := length_afterClosing h; simp only [List.length_cons]; omega
    · simp at h
  · simp at h

/-- What is shown of backslashes before a bracket that begins no mark. -/
def unmarked (slashes : List Char) (rest : List Char) : List Char :=
  match rest with
  | '[' :: _ => slashes.drop 1
  | _ => slashes

/-- The visible part of a text after some backslashes. -/
def visibleAfter (slashes : List Char) (cs : List Char) : List Char :=
  match cs with
  | '\\' :: rest => visibleAfter ('\\' :: slashes) rest
  | [] => slashes
  | c :: rest =>
    match _h : afterMark? (c :: rest) with
    | some after =>
      let shown := slashes.take (slashes.length / 2)
      if slashes.length % 2 = 0 then shown ++ visibleAfter [] after
      else shown ++ (c :: rest).take ((c :: rest).length - after.length) ++ visibleAfter [] after
    | none => unmarked slashes (c :: rest) ++ c :: visibleAfter [] rest
termination_by cs.length
decreasing_by
  · simp
  · exact length_afterMark _h
  · exact length_afterMark _h
  · simp

/-- A character that moves the place of printing or rings. -/
def isControl (c : Char) : Bool := c ∈ ['\x07', '\x08', '\x0b', '\x0c', '\r']

/-- Blanks for every tab, up to the next column that is a multiple of eight. -/
def expandTabs (column : Nat) : List Char → List Char
  | [] => []
  | '\n' :: cs => '\n' :: expandTabs 0 cs
  | '\t' :: cs =>
    let gap := 8 - column % 8
    List.replicate gap ' ' ++ expandTabs (column + gap) cs
  | c :: cs => c :: expandTabs (column + 1) cs

end Markup

/-- The text without its marks. -/
def visible (s : String) : String :=
  String.ofList (Markup.expandTabs 0 ((Markup.visibleAfter [] s.toList).filter (!Markup.isControl ·)))

end StaticSite.Command
