import StaticSite.Config.Options
import StaticSite.Data.Source
import StaticSite.Yaml.Reader

/-!
# Configuration files

The configuration is merged from its layers, the lowest first: defaults, the project's file, a file that is
named explicitly, the command line, then data for the templates from a JSON file and from a JSON text.
-/

namespace StaticSite

/-- The name of the project's configuration file. -/
def configFileName : String := ".pagesmith.yaml"

/-- Why there is no configuration. -/
inductive ConfigFault where
  | unreadable (file : Path) (fault : OsFault)
  | notYaml (file : Path)
  | notMapping (file : Path)
  | missing (file : Path)
  /-- A configuration file that is no UTF-8. -/
  | bytes (fault : Text.Utf8.Fault)
  /-- A value in a configuration file that does not exist. -/
  | value (fault : Yaml.Fault)
  | number (fault : Number.Fault)
  | dataMissing (given : String) (resolved : Path)
  | dataUnreadable (given : String) (resolved : Path) (fault : Json.FileFault)
  | dataShape (given : String)
  /-- A null byte in the path of the data file. -/
  | nullByte
  /-- A half in the path of the data file that stands for no byte. -/
  | unnameable (fault : Text.Unwritable)
  /-- A JSON text that is nested too deep; `inMap` says what the one too many is. -/
  | tooDeep (inMap : Bool)
  | inlineJson (fault : Json.Fault)
  | inlineShape
  | options (fault : OptionsFault)
  deriving DecidableEq, Repr

def ConfigFault.message : ConfigFault → String
  | .unreadable file fault => "Cannot read config file " ++ file.text ++ ": " ++ fault.message
  | .notYaml file => "Cannot read config file " ++ file.text
  | .notMapping file => "Config file " ++ file.text ++ " must contain a mapping"
  | .missing file => "Config file not found: " ++ file.text
  | .bytes fault => fault.message
  | .value fault => fault.message
  | .number fault => fault.message
  | .dataMissing given resolved =>
    "Data file not found: " ++ given ++ " (resolved to " ++ resolved.text ++ ")"
  | .dataUnreadable given resolved fault =>
    "Cannot read data file " ++ given ++ " (resolved to " ++ resolved.text ++ "): " ++ fault.message
  | .dataShape given => "Data file " ++ given ++ " must contain a JSON object"
  | .nullByte => Data.Reason.nullByte.text
  | .unnameable fault => fault.message
  | .tooDeep inMap => (Json.Fault.tooDeep inMap).message
  | .inlineJson fault => "Invalid JSON for --global-data: " ++ fault.message
  | .inlineShape => "--global-data must be a JSON object"
  | .options fault => fault.message

/-- Faults that the user is told of as mistakes in the configuration. The others are values that no
option can have. -/
def ConfigFault.isMistake : ConfigFault → Bool
  | .bytes _ => false
  | .value _ => false
  | .number _ => false
  | .nullByte => false
  | .unnameable _ => false
  | .tooDeep _ => false
  | .options (.hook (.relative _)) => false
  | .options (.hook _) => true
  | .options _ => false
  | _ => true

namespace Config

/-- The fault in the bytes of a file that is read in pieces: what a broken end leaves is a piece of its
own. -/
def pieceFault (fault : Text.Utf8.Fault) : Text.Utf8.Fault :=
  if fault.issue = .truncated then { fault with position := 0 } else fault

/-- The mapping in a configuration file, none if the file is missing or empty. -/
def loadFile (t : FileTree) (cwd file : Path) : Except ConfigFault (Option Record) := do
  if !t.isThere (cwd / file) then return none
  let bytes ← (t.read (cwd / file)).mapError fun fault => .unreadable file (fault.renamed file)
  let s ← (Text.ofFile bytes).mapError fun fault => .bytes (pieceFault fault)
  match Yaml.read s.toList with
  | .error .notYaml => throw (.notYaml file)
  | .error fault => throw (.value fault)
  | .ok .null => return none
  | .ok v => match v.record? with
    | some entries => return some entries
    | none => throw (.notMapping file)

/-- Why a path is not followed: the system takes a segment more each time, each `..` takes one away, and what is
spelled out so far must be a path that it takes. -/
def followFault? (root : Root) : List String → List String → Option ConfigFault
  | _, [] => none
  | before, s :: rest =>
    if s = ".." then
      if root = .relative ∧ (before = [] ∨ before.getLast? = some "..") then
        followFault? root (before ++ [".."]) rest
      else followFault? root before.dropLast rest
    else match Text.unnameable? 0 (Path.mk root (before ++ [s])).text.toList with
      | some fault => some (.unnameable fault)
      | none =>
        if s.toList.contains '\x00' then some .nullByte else followFault? root (before ++ [s]) rest

/-- The object in a JSON file. -/
def loadObject (t : FileTree) (cwd : Path) (given : String) : Except ConfigFault Record := do
  let file := Path.ofString given
  match followFault? file.root [] file.segments with
  | some fault => throw fault
  | none =>
  let resolved := Path.resolve cwd file
  match Json.readFile t resolved with
  | .error (.json (.tooDeep inMap)) => throw (.tooDeep inMap)
  | .error fault =>
    if fault.isMissing then throw (.dataMissing given resolved)
    else throw (.dataUnreadable given resolved fault)
  | .ok (.map entries) => return entries
  | .ok _ => throw (.dataShape given)

/-- The object in a JSON text. -/
def readInline (s : String) : Except ConfigFault Record := do
  match Json.read s with
  | .error (.tooDeep inMap) => throw (.tooDeep inMap)
  | .error fault => throw (.inlineJson fault)
  | .ok (.map entries) => return entries
  | .ok _ => throw .inlineShape

/-- `c` with the layer in a file over it, if the file has entries. -/
def withFile (t : FileTree) (cwd file : Path) (c : Layer) : Except ConfigFault Layer := do
  match ← loadFile t cwd file with
  | none | some [] => return c
  | some entries => return c.merge (← (Layer.ofRecord entries).mapError .number)

def localFile (cwd : Path) : Path := cwd.child configFileName

/-- The layers of the files. -/
def ofFiles (t : FileTree) (cwd : Path) (file : Option Path) : Except ConfigFault Layer := do
  let c ← withFile t cwd (localFile cwd) Layer.default
  match file with
  | none => return c
  | some file =>
    if !t.isThere (cwd / file) then throw (.missing file)
    withFile t cwd file c

/-- Where the settings of a run come from. -/
structure Sources where
  /-- The layer of the command line. -/
  flags : Option Layer := none
  file : Option Path := none
  dataFile : Option String := none
  inlineData : Option String := none
  /-- Hooks that count before the named ones. -/
  hooks : Hooks := {}

def withGlobalData (c : Layer) (entries : Record) : Layer :=
  c.merge { globalData := some entries }

/-- The merged layer of all sources. -/
def merged (t : FileTree) (cwd : Path) (s : Sources) : Except ConfigFault Layer := do
  let c ← ofFiles t cwd s.file
  let c := match s.flags with
    | some flags => c.merge flags
    | none => c
  let c ← match Layer.filled? s.dataFile with
    | some given => do pure (withGlobalData c (← loadObject t cwd given))
    | none => pure c
  match Layer.filled? s.inlineData with
  | some text => return withGlobalData c (← readInline text)
  | none => return c

/-- The merged layer of all sources with its options. -/
def build (modules : List HookModule) (t : FileTree) (cwd : Path) (s : Sources) :
    Except ConfigFault (Layer × Options) := do
  let c ← merged t cwd s
  return (c, ← (c.toOptions modules s.hooks).mapError .options)

end Config

end StaticSite
