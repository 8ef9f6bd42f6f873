import StaticSite.Distinct
import StaticSite.Path.Basic
import StaticSite.Text.Case

/-!
# Where a source goes

A source path begins with its root directory. `outputOf` drops that segment and puts the rest below
the output root; a template's extension becomes `.html`. `outputOf` fails exactly on paths that
have no place there.
-/

namespace StaticSite

/-- The extension of a page. -/
def pageExt : String := ".html"

/-- The template extension used unless another is configured. -/
def defaultTemplateExt : String := ".j2"

namespace Path

/-- The first part of a path, empty if there is none. -/
def rootDir (p : Path) : String := p.parts.headD ""

/-- The distinct root directories of some patterns, in the order of their first appearance. -/
def rootDirs (ps : List Path) : List String :=
  distinct ((ps.map rootDir).filter (· ≠ ""))

end Path

namespace Name

/-- `name` ends with `ext`, ignoring case. -/
def hasExt (name ext : String) : Bool :=
  (Text.lower ext).toList.isSuffixOf (Text.lower name).toList

/-- The last `n` characters of a name; all of them if `n` is zero. -/
def suffix (n : Nat) (name : List Char) : List Char :=
  if n = 0 then name else name.drop (name.length - n)

/-- A name without its last `n` characters; nothing if `n` is zero. -/
def stem (n : Nat) (name : List Char) : List Char :=
  if n = 0 then [] else name.take (name.length - n)

/-- The page name of a template: its extension cut off and `.html` put on, unless it is there. -/
def toPage (name ext : String) : String :=
  let s := String.ofList (stem ext.length name.toList)
  if hasExt s pageExt then s else s ++ pageExt

end Name

/-- Why a source path has no output path. -/
inductive OutputFault where
  | absolute
  | noSegmentBelowRoot
  | escapesRoot
  /-- No file can have the path. -/
  | nullByte
  deriving DecidableEq, Repr

/-- The message for the source path as it was given. -/
def OutputFault.message (given : String) : OutputFault → String
  | .absolute => "Source path must be relative: " ++ given
  | .noSegmentBelowRoot => "Source path has no segment below its root directory: " ++ given
  | .escapesRoot => "Source path escapes its root directory: " ++ given
  | .nullByte => "embedded null byte"

namespace Path

def hasTemplateExt (p : Path) (ext : String) : Bool := Name.hasExt p.name ext

/-- The name of the output file of a source named `name`. -/
def outputName (name ext : String) : String :=
  if Name.hasExt name ext then Name.toPage name ext else name

/-- The output path of the source `p`. -/
def outputOf (p out : Path) (ext : String) : Except OutputFault Path :=
  let below := p.segments.drop 1
  if p.isAbsolute then .error .absolute
  else if below.isEmpty then .error .noSegmentBelowRoot
  else if ".." ∈ below then .error .escapesRoot
  else .ok (out / ofSegments (below.dropLast ++ [outputName (below.getLastD "") ext]))

end Path

end StaticSite
