import StaticSite.Config.Layer
import StaticSite.Hook.Import
import StaticSite.Path.Output
import StaticSite.Template.Settings

/-!
# Options

`Layer.toOptions` makes a merged layer the options of a build: what is unset or empty gets its default, the
hooks are imported, and the settings of the watcher are read.
-/

namespace StaticSite

structure WatchSettings where
  ignorePatterns : List String := []
  polling : Bool := false
  pollInterval : Binary64 := Binary64.ofInt 1
  deriving DecidableEq, Repr

structure Options where
  out : Path := Path.ofString "dist"
  templates : TemplateSettings := {}
  globalData : Record := []
  data : Record := []
  copyPattern : String := Layer.defaultCopyPattern
  sitemap : Bool := false
  sitemapPrefix : Option String := none
  noWrite : Bool := false
  /-- The number of workers, one at least. -/
  parallel : Nat := 4
  templateExt : String := defaultTemplateExt
  hooks : Hooks := {}
  watch : WatchSettings := {}

/-- Why a layer gives no options. -/
inductive OptionsFault where
  | hook (fault : HookFault)
  /-- A named hook that is none of the three. -/
  | unknownHook (name : String)
  | number (fault : Number.Fault)
  /-- A value of a type that holds no patterns. -/
  | notIterable (type : String)
  deriving DecidableEq, Repr

def OptionsFault.message : OptionsFault → String
  | .hook fault => fault.message
  | .unknownHook name => "Hooks.__init__() got an unexpected keyword argument '" ++ name ++ "'"
  | .number fault => fault.message
  | .notIterable type => "'" ++ type ++ "' object is not iterable"

/-- A value as a number. -/
def Value.toReal : Value → Except Number.Fault Binary64
  | .bool b => .ok (Binary64.ofInt (if b then 1 else 0))
  | .int n => Number.realOfInteger n
  | .float x => .ok x
  | .text s => Number.readReal s
  | .bytes bs => Number.readRealBytes bs
  | v => .error (.realOf v.longTypeName)

/-- What a value lists: the items of a list or set, the keys of a map or the numbers of bytes. -/
def Value.listed? : Value → Option (List Value)
  | .tuple items => some items
  | .set items => some items
  | .bytes bs => some (bs.map fun b => .int b.toNat)
  | v => v.items? <|> v.record?.map Record.keys

/-- The patterns that a value lists; a text is one pattern. -/
def patternTexts (v : Value) : Except OptionsFault (List String) :=
  if !v.isTrue then .ok []
  else match v, v.listed? with
    | .text s, _ => .ok [s]
    | _, some items => (items.mapM Value.toText).mapError .number
    | v, none => .error (.notIterable v.longTypeName)

def WatchSettings.ofRecord (r : Record) : Except OptionsFault WatchSettings := do
  let patterns ← patternTexts ((r.field? "ignore_patterns").getD .null)
  let interval ← ((Layer.field? r "poll_interval").mapM Value.toReal).mapError .number
  let defaults : WatchSettings := {}
  return {
    ignorePatterns := patterns
    polling := ((r.field? "polling").map (·.isTrue)).getD defaults.polling
    pollInterval := interval.getD defaults.pollInterval }

namespace Layer

/-- A text that is set and not empty. -/
def filled? : Option String → Option String
  | some "" => none
  | s => s

def dotted (ext : String) : String := if ext.startsWith "." then ext else "." ++ ext

/-- A hook is imported and takes its place among others, if it has one. -/
def importNamed (modules : List HookModule) (hooks : Hooks) (named : String × String) : Except HookFault Hooks := do
  let hook ← importHook modules named.2
  return match HookKind.ofName? named.1 with
    | some kind => hooks.set kind hook
    | none => hooks

/-- The hooks named in a layer, imported in order; only then a name that is none of a hook is a fault. -/
def importHooks (modules : List HookModule) (named : List (String × String)) :
    Except OptionsFault Hooks := do
  let hooks ← (named.foldlM (importNamed modules) {}).mapError .hook
  match named.find? fun (name, _) => (HookKind.ofName? name).isNone with
  | some (name, _) => throw (.unknownHook name)
  | none => return hooks

def templateSettings (c : Layer) : TemplateSettings :=
  let defaults : TemplateSettings := {}
  { delimiter := c.delimiter.getD defaults.delimiter
    openDelimiter := c.openDelimiter.getD defaults.openDelimiter
    closeDelimiter := c.closeDelimiter.getD defaults.closeDelimiter
    rmWhitespace := c.rmWhitespace.getD defaults.rmWhitespace
    strictUndefined := c.strictUndefined.getD defaults.strictUndefined }

/-- The options of a merged layer; `given` are hooks that count before the named ones. -/
def toOptions (modules : List HookModule) (given : Hooks) (c : Layer) :
    Except OptionsFault Options := do
  let hooks ← importHooks modules (c.hooks.getD [])
  let watch ← WatchSettings.ofRecord (c.watchOptions.getD [])
  let defaults : Options := {}
  return {
    out := ((filled? c.out).map Path.ofString).getD defaults.out
    templates := c.templateSettings
    globalData := c.globalData.getD []
    data := c.data.getD []
    copyPattern := (filled? c.copyPattern).getD defaults.copyPattern
    sitemap := c.sitemap.getD defaults.sitemap
    sitemapPrefix := filled? c.sitemapPrefix
    noWrite := c.noWrite.getD defaults.noWrite
    parallel := (max 1 (c.parallel.getD defaults.parallel)).toNat
    templateExt := dotted ((filled? c.templateExt).getD defaults.templateExt)
    hooks := hooks.override given
    watch }

end Layer

end StaticSite
