import StaticSite.Glob.Pattern
import StaticSite.Path.Drive

/-!
# Patterns for whole paths

`ignores patterns path` says that one of the patterns stands for the whole path, without regard to case.
Both are taken as paths with drives, with slashes and backslashes alike. A segment `**` stands for any number of segments,
a segment `*` for exactly one.
-/

namespace StaticSite.Glob

open Drive (separator)

/-- The items of the segments of a pattern. -/
def wholeItems : List (List Char) → List Item
  | [] => []
  | [last] =>
    if last = ['*'] then [.one (.except separator), .many (.except separator)]
    else if last = ['*', '*'] then [.many .any]
    else segmentItems (.except separator) last
  | segment :: next :: rest =>
    (if segment = ['*'] then [.one (.except separator), .many (.except separator), .one (.only separator)]
      else if segment = ['*', '*'] then if next = ['*', '*'] then [] else [.folders separator]
      else segmentItems (.except separator) segment ++ [.one (.only separator)]) ++
    wholeItems (next :: rest)

/-- The pattern stands for the path; nothing stands for a path that has no parts. -/
def matchesWhole (pattern path : String) : Bool :=
  match Drive.normal? (Text.lower pattern), Drive.normal? path with
  | some p, some cs =>
    matchItems CharSet.acceptsCaseless (wholeItems (Text.splitOn separator p)) cs
  | _, _ => false

/-- A pattern for everything, which no list of patterns to ignore may hold. -/
def everything : String := "**"

/-- The list of patterns to ignore holds the pattern for everything. -/
structure IgnoresEverything where
  deriving DecidableEq, Repr

def IgnoresEverything.message (_ : IgnoresEverything) : String :=
  "conflicting patterns `\x7b'**'\x7d` included and excluded"

/-- One of the patterns stands for the path. -/
def ignores (patterns : List String) (path : String) : Except IgnoresEverything Bool :=
  if (patterns.map Text.lower).contains everything then .error ⟨⟩
  else .ok (patterns.any (matchesWhole · path))

/-- A path is left out if one of the patterns stands for it; where there are patterns, a path without
parts is left out too. -/
def leavesOut (patterns : List String) (path : String) : Except IgnoresEverything Bool :=
  (ignores patterns path).map fun ignored =>
    ignored || (!patterns.isEmpty && (Drive.normal? path).isNone)

end StaticSite.Glob
