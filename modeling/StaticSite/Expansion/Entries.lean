import StaticSite.Data.Binding
import StaticSite.Expansion.Partial
import StaticSite.Glob.Files

/-!
# Pages of entry patterns

Every template that an entry pattern matches makes its contribution: one page, or for a partial the pages
of its array. A template counts once, at its first match. `expandEntries` fails only if a match does
not lie in a root directory below the working directory, if a number that names a page cannot be written,
or if a data file is beyond what can be read.
-/

namespace StaticSite

/-- A match that is no place for a template, a page that has no name, or data beyond reach. -/
inductive EntryFault where
  | outside (found cwd : Path)
  | noRootDirectory (template : Path)
  | name (fault : Number.Fault)
  | data (fault : Data.Fault)
  deriving DecidableEq, Repr

def EntryFault.message : EntryFault → String
  | .outside found cwd =>
    "Entry " ++ found.text ++ " is outside the working directory " ++ cwd.text
  | .noRootDirectory template =>
    "Template " ++ template.text ++ " must live inside a root directory, e.g. site/" ++ template.text
  | .name fault => fault.message
  | .data fault => fault.message

/-- Faults that the user is told of as mistakes in the entry patterns. -/
def EntryFault.isMistake : EntryFault → Bool
  | .name _ => false
  | .data _ => false
  | _ => true

/-- Pages, data files that could not be read, and elements without a page. -/
structure Expansion where
  pages : List Page := []
  faults : List Data.Fault := []
  skips : List (Nat × Expansion.SkipReason) := []
  deriving Repr

namespace Expansion

def append (a b : Expansion) : Expansion :=
  ⟨a.pages ++ b.pages, a.faults ++ b.faults, a.skips ++ b.skips⟩

instance : Append Expansion := ⟨append⟩

/-- What one template gives. -/
def ofTemplate (t : FileTree) (b : Bindings) (ext : String) (template : Path) :
    Except EntryFault Expansion :=
  if !template.isPartial then .ok { pages := [{ template }] }
  else match b.array? t template with
    | .error fault => if fault.isOfFile then .ok { faults := [fault] } else .error (.data fault)
    | .ok none => .ok {}
    | .ok (some items) => match partialPages template ext items with
      | .error fault => .error (.name fault)
      | .ok (pages, skips) => .ok { pages, skips }

/-- What several templates give, one after the other. -/
def ofTemplates (t : FileTree) (b : Bindings) (ext : String) (templates : List Path) :
    Except EntryFault Expansion := do
  return (← templates.mapM (ofTemplate t b ext)).foldr append {}

end Expansion

/-- A match as seen from the directory `cwd`. -/
def relativeMatch (cwd p : Path) : Except EntryFault Path :=
  if p.isAbsolute then
    match (Path.resolve cwd p).relativeTo? cwd with
    | some rel => .ok rel
    | none => .error (.outside p cwd)
  else .ok p

/-- The template that a match is, if it is one. -/
def matchTemplate (cwd : Path) (ext : String) (p : Path) : Except EntryFault (Option Path) := do
  let template ← relativeMatch cwd p
  if !template.hasTemplateExt ext then return none
  else if template.parts.length < 2 then throw (.noRootDirectory template)
  else return some template

/-- The matches of all patterns, pattern by pattern. -/
def matchesOf (t : FileTree) (cwd : Path) (ext : String) (patterns : List String) :
    List (Except EntryFault (Option Path)) :=
  (patterns.flatMap (Glob.files t cwd)).map (matchTemplate cwd ext)

/-- The good results before the first fault, and the fault. -/
def untilFault {ε α : Type} : List (Except ε α) → List α × Option ε
  | [] => ([], none)
  | .error fault :: _ => ([], some fault)
  | .ok a :: rest => (a :: (untilFault rest).1, (untilFault rest).2)

def expandEntries (t : FileTree) (b : Bindings) (ext : String) (patterns : List String) :
    Except EntryFault Expansion := do
  let (found, fault) := untilFault (matchesOf t b.cwd ext patterns)
  let templates := distinct (found.filterMap id)
  let expansion ← Expansion.ofTemplates t b ext templates
  match fault with
  | some fault => throw fault
  | none => return expansion

end StaticSite
