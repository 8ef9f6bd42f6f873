import StaticSite.Command.Markup
import StaticSite.Site.Basic

/-!
# Messages

What the command prints, with marks for its style.
-/

namespace StaticSite.Command

inductive Message where
  | report (r : Site.Report)
  | text (marked : String)

namespace Message

def marked (style s : String) : String := "[" ++ style ++ "]" ++ s ++ "[/" ++ style ++ "]"

/-- The text of a report; calls of hooks are not printed. -/
def reportText? : Site.Report → Option String
  | .created p => some (marked "green" "created" ++ " " ++ p.text)
  | .copied source target =>
    some (marked "cyan" "copied" ++ "  " ++ source.text ++ " " ++ marked "dim" "->" ++ " " ++ target.text)
  | .deleted p => some (marked "yellow" "deleted" ++ " " ++ p.text)
  | .failed fault => some (marked "red" "error" ++ "   " ++ fault.message)
  | .called _ _ => none

def text? : Message → Option String
  | .report r => reportText? r
  | .text s => some s

/-- The printed lines. -/
def lines (m : Message) : List String :=
  match m.text? with
  | none => []
  | some s => Text.pieces '\n' (visible s)

def error (s : String) : Message := .text (marked "red" ("Error: " ++ s))

def noTemplates : Message :=
  .text (marked "yellow" "No templates matched the entry patterns.")

def summary (pages assets : Nat) (out : Path) : Message :=
  .text (marked "bold" (toString pages) ++ " pages, " ++ marked "bold" (toString assets) ++
    " assets -> " ++ out.text)

def faultCount (n : Nat) : Message :=
  .text (marked "red" ("Build finished with " ++ toString n ++ " error(s)"))

def watching (roots : List String) : Message :=
  .text (marked "dim" ("Watching " ++ ", ".intercalate roots ++ " for changes..."))

def watchFailed (reason : String) : Message := .text (marked "red" ("Watch failed: " ++ reason))

def stopped : Message := .text ("\n" ++ marked "dim" "Stopped watching.")

end Message

end StaticSite.Command
