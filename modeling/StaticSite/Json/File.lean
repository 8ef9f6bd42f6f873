import StaticSite.FileTree.Basic
import StaticSite.Json.Reader
import StaticSite.Text.Utf8

/-!
# JSON files
-/

namespace StaticSite.Json

/-- Why a file gives no JSON value. -/
inductive FileFault where
  | os (fault : OsFault)
  | bytes (fault : Text.Utf8.Fault)
  | json (fault : Fault)
  deriving DecidableEq, Repr

def FileFault.message : FileFault → String
  | .os fault => fault.message
  | .bytes fault => fault.message
  | .json fault => fault.message

/-- The file is not there. -/
def FileFault.isMissing : FileFault → Bool
  | .os (.refused .notFound _) => true
  | _ => false

/-- The value in a file. -/
def readFile (t : FileTree) (p : Path) : Except FileFault Value := do
  let bytes ← (t.read p).mapError .os
  let s ← (Text.ofFile bytes).mapError .bytes
  (read s).mapError .json

end StaticSite.Json
