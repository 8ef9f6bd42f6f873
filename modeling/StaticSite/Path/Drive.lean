import StaticSite.Text.Split

/-!
# Paths with drives

Paths where `/` and `\` both separate segments and that may begin with a drive: a letter and a colon, or
a host and a share as in `\\host\share`. `Drive.normal` is the one text of such a path: backslashes,
and no empty or `.` segments.
-/

namespace StaticSite.Drive

def separator : Char := '\\'

/-- A path taken apart: its drive, whether a separator follows that, and what comes then. -/
structure Split where
  drive : List Char
  rooted : Bool
  rest : List Char
  deriving DecidableEq, Repr

def isLetter (c : Char) : Bool := ('a' ≤ c && c ≤ 'z') || ('A' ≤ c && c ≤ 'Z')

/-- The prefix that says that a path is meant literally, and the path. -/
def cutLiteral : List Char → List Char × List Char
  | '\\' :: '\\' :: '?' :: '\\' :: 'U' :: 'N' :: 'C' :: '\\' :: cs =>
    ("\\\\?\\UNC".toList, '\\' :: '\\' :: cs)
  | '\\' :: '\\' :: '?' :: '\\' :: cs => ("\\\\?\\".toList, cs)
  | cs => ([], cs)

/-- A host and a share, each without separators, the host not empty, and what follows. -/
def share? : List Char → Option (List Char × List Char × List Char)
  | '\\' :: '\\' :: cs =>
    let host := Text.cut separator cs
    match host.2 with
    | some (c :: after) =>
      if host.1 = [] ∨ c = separator then none
      else
        let share := Text.cut separator (c :: after)
        some (host.1, share.1, share.2.getD [])
    | some [] => if host.1 = [] then none else some (host.1, [], [])
    | none => none
  | _ => none

/-- A path without a share taken apart. -/
def splitLetter (cs : List Char) : Split :=
  let lettered := match cs with
    | c :: ':' :: rest => if isLetter c then ([c, ':'], rest) else ([], cs)
    | _ => ([], cs)
  ⟨lettered.1, lettered.2.head? = some separator, lettered.2.dropWhile (· = separator)⟩

def split (cs : List Char) : Split :=
  let (lead, path) := cutLiteral cs
  match share? path with
  | some (host, share, rest) =>
    let slashes := if lead = [] then [separator, separator] else lead ++ [separator]
    ⟨slashes ++ host ++ separator :: share, true, rest⟩
  | none => let s := splitLetter path; { s with drive := lead ++ s.drive }

/-- The text of a path; none if it has neither drive nor root nor segments. -/
def normal? (s : String) : Option (List Char) :=
  let path := split (s.toList.map fun c => if c = '/' then separator else c)
  let segs := (Text.splitOn separator path.rest).filter fun p => p ≠ [] ∧ p ≠ ['.']
  if path.drive = [] ∧ path.rooted = false ∧ segs = [] then none
  else some (path.drive ++ (if path.rooted then [separator] else []) ++ Text.joinWith separator segs)

end StaticSite.Drive
