import StaticSite.Data.Source
import StaticSite.Value.Knot

/-!
# Bindings

A binding table gives templates their data: an object, an array, or a JSON file that holds one. Templates
are compared by the absolute path they denote, and of several entries for one template the last counts.
-/

namespace StaticSite

/-- What a template is bound to. -/
inductive Binding where
  | unbound
  | object (entries : Record)
  | array (items : List Value)
  /-- A file, with the path as it was configured. -/
  | file (resolved : Path) (configured : String)
  deriving Repr, Inhabited

namespace Binding

/-- An entry of a binding table that binds nothing. -/
inductive Fault where
  /-- A value of a type that is none of object, array and path. -/
  | value (type : String)
  /-- A key of a type that is no path. -/
  | key (type : String)
  /-- A path with a null byte. -/
  | nullByte
  deriving DecidableEq, Repr

def Fault.message : Fault → String
  | .value type =>
    "Data binding must be an object, an array or a JSON file path, got " ++ type
  | .key type => "unsupported operand type(s) for /: 'PosixPath' and '" ++ type ++ "'"
  | .nullByte => Data.Reason.nullByte.text

def classify (cwd : Path) : Value → Except Fault Binding
  | .text s =>
    let resolved := Path.resolve cwd (Path.ofString s)
    if resolved.hasNull then .error .nullByte else .ok (.file resolved s)
  | v => match v.record?, v.items? with
    | some entries, _ => .ok (.object entries)
    | none, some items => .ok (.array items)
    | none, none => .error (.value v.typeName)

end Binding

/-- A binding table. -/
structure Bindings where
  /-- The directory that relative paths start from. -/
  cwd : Path
  /-- Absolute template paths with what they are bound to, the latest entry first. -/
  table : List (Path × Binding)
  deriving Repr

namespace Bindings

/-- The absolute path that `p` denotes. -/
def absolute (b : Bindings) (p : Path) : Path := Path.resolve b.cwd p

def insert (b : Bindings) : Value × Value → Except Binding.Fault Bindings
  | (.text key, v) => do
    let template := b.absolute (Path.ofString key)
    if template.hasNull then throw .nullByte
    return { b with table := (template, ← Binding.classify b.cwd v) :: b.table }
  | (key, _) => .error (.key key.longTypeName)

def ofRecord (cwd : Path) (r : Record) : Except Binding.Fault Bindings :=
  r.foldlM insert ⟨cwd, []⟩

def find (b : Bindings) (template : Path) : Binding :=
  (b.table.lookup (b.absolute template)).getD .unbound

/-- The data of an ordinary template. -/
def data (b : Bindings) (t : FileTree) (template : Path) : Except Data.Fault Record :=
  match b.find template with
  | .unbound => .ok []
  | .object entries => .ok entries
  | .array items => .ok [(.text (deriveKey template.name), .list items)]
  | .file _ configured => Data.loadRecord t b.cwd configured

/-- The array that a template is bound to, if it is one. -/
def array? (b : Bindings) (t : FileTree) (template : Path) : Except Data.Fault (Option (List Value)) :=
  match b.find template with
  | .array items => .ok (some items)
  | .file _ configured => do
    match ← Data.load t b.cwd configured with
    | .list items => return some items
    | _ => return none
  | _ => .ok none

/-- The key under which a template's array is given. -/
def arrayKey (b : Bindings) (template : Path) : String :=
  match b.find template with
  | .file resolved _ => deriveKey resolved.name
  | _ => deriveKey template.name

end Bindings

end StaticSite
