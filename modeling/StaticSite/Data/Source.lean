import StaticSite.Json.File
import StaticSite.Text.Case

/-!
# Data files

A data file holds an object or an array. An array comes as a record of one entry, whose key is made from
the file's name.
-/

namespace StaticSite

/-- A file name as a key: `posts-2.json` is `POSTS_2_JSON`. -/
def deriveKey (name : String) : String :=
  Text.upper (String.ofList (name.toList.map fun c => if c = '.' ∨ c = '-' then '_' else c))

namespace Data

inductive Reason where
  | file (fault : Json.FileFault)
  /-- Neither an object nor an array. -/
  | shape
  /-- A null byte in the path. -/
  | nullByte
  deriving DecidableEq, Repr

/-- A data file that gives no data. -/
structure Fault where
  /-- The path as it was configured. -/
  configured : String
  resolved : Path
  reason : Reason
  deriving DecidableEq, Repr

def Reason.text : Reason → String
  | .file fault => if fault.isMissing then "file not found" else fault.message
  | .shape => "expected a JSON object or array"
  | .nullByte => "embedded null byte"

/-- The file is at fault; otherwise it was not even possible to look at it or to read it to its end. -/
def Fault.isOfFile (f : Fault) : Bool :=
  match f.reason with
  | .file (.json fault) => !fault.isTooDeep
  | .nullByte => false
  | _ => true

def Fault.message (f : Fault) : String :=
  if !f.isOfFile then f.reason.text
  else "Cannot load data file '" ++ f.configured ++ "' (resolved to " ++ f.resolved.text ++ "): " ++
    f.reason.text

/-- The value in the file that `configured` names in the directory `cwd`. -/
def load (t : FileTree) (cwd : Path) (configured : String) : Except Fault Value :=
  let resolved := Path.resolve cwd (Path.ofString configured)
  if resolved.hasNull then .error ⟨configured, resolved, .nullByte⟩
  else (Json.readFile t resolved).mapError fun fault => ⟨configured, resolved, .file fault⟩

/-- The record in the file that `configured` names in the directory `cwd`. -/
def loadRecord (t : FileTree) (cwd : Path) (configured : String) : Except Fault Record := do
  let resolved := Path.resolve cwd (Path.ofString configured)
  match ← load t cwd configured with
  | .list items => return [(.text (deriveKey resolved.name), .list items)]
  | .map entries => return entries
  | _ => throw ⟨configured, resolved, .shape⟩

end Data

end StaticSite
