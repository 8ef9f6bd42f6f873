import StaticSite.Hook.Basic
import StaticSite.Number.Reading
import StaticSite.Value.Knot
import StaticSite.Value.Text

/-!
# Configuration layers

A layer sets some of the seventeen settings and leaves the others unset. `merge` puts one layer over
another: a setting takes the upper value if there is one, and settings that are maps are merged key by key.
`ofRecord` reads a layer from data, `toRecord` writes it back.
-/

namespace StaticSite

structure Layer where
  entries : Option (List String) := none
  out : Option String := none
  delimiter : Option String := none
  openDelimiter : Option String := none
  closeDelimiter : Option String := none
  rmWhitespace : Option Bool := none
  strictUndefined : Option Bool := none
  globalData : Option Record := none
  data : Option Record := none
  copyPattern : Option String := none
  sitemap : Option Bool := none
  sitemapPrefix : Option String := none
  noWrite : Option Bool := none
  parallel : Option Int := none
  templateExt : Option String := none
  hooks : Option (List (String × String)) := none
  watchOptions : Option Record := none
  deriving Repr

namespace Layer

/-! ## Merging -/

/-- Two maps of hooks, the second over the first. -/
def mergeHooks (lower upper : List (String × String)) : List (String × String) :=
  upper.foldl (fun acc (k, v) => insertHook k v acc) lower
where
  /-- Sets the value of a key, in place if the key is there. -/
  insertHook (key v : String) : List (String × String) → List (String × String)
    | [] => [(key, v)]
    | (k, w) :: rest => if k = key then (k, v) :: rest else (k, w) :: insertHook key v rest

/-- Two optional maps: unset only if both are. -/
def mergeMaps {α : Type} (merge : List α → List α → List α) :
    Option (List α) → Option (List α) → Option (List α)
  | none, none => none
  | lower, upper => some (merge (lower.getD []) (upper.getD []))

/-- `upper` put over `lower`. -/
def merge (lower upper : Layer) : Layer where
  entries := upper.entries <|> lower.entries
  out := upper.out <|> lower.out
  delimiter := upper.delimiter <|> lower.delimiter
  openDelimiter := upper.openDelimiter <|> lower.openDelimiter
  closeDelimiter := upper.closeDelimiter <|> lower.closeDelimiter
  rmWhitespace := upper.rmWhitespace <|> lower.rmWhitespace
  strictUndefined := upper.strictUndefined <|> lower.strictUndefined
  globalData := mergeMaps Record.update lower.globalData upper.globalData
  data := mergeMaps Record.update lower.data upper.data
  copyPattern := upper.copyPattern <|> lower.copyPattern
  sitemap := upper.sitemap <|> lower.sitemap
  sitemapPrefix := upper.sitemapPrefix <|> lower.sitemapPrefix
  noWrite := upper.noWrite <|> lower.noWrite
  parallel := upper.parallel <|> lower.parallel
  templateExt := upper.templateExt <|> lower.templateExt
  hooks := mergeMaps mergeHooks lower.hooks upper.hooks
  watchOptions := mergeMaps Record.update lower.watchOptions upper.watchOptions

/-! ## Reading -/

/-- The value of a field, none if it is missing or nothing. -/
def field? (r : Record) (name : String) : Option Value :=
  match r.field? name with
  | some .null => none
  | found => found

def textField? (r : Record) (name : String) : Except Number.Fault (Option String) :=
  (field? r name).mapM (·.toText)

def boolField? (r : Record) (name : String) : Option Bool := (field? r name).map (·.isTrue)

/-- A field that holds a map; any other value counts as missing. -/
def mapField? (r : Record) (name : String) : Option Record :=
  (r.field? name).bind Value.record?

/-- One pattern or a list of patterns. -/
def entriesField? (r : Record) : Except Number.Fault (Option (List String)) :=
  match r.field? "entries" with
  | some (.text s) => .ok (some [s])
  | some v => v.items?.mapM fun items => items.mapM (·.toText)
  | none => .ok none

/-- The entries of known hooks with a value. -/
def namedHooks (entries : Record) : List (String × Value) :=
  entries.filterMap fun
    | (.text name, v) => if (HookKind.ofName? name).isSome && v.isTrue then some (name, v) else none
    | _ => none

def hooksField? (r : Record) : Except Number.Fault (Option (List (String × String))) :=
  (mapField? r "hooks").mapM fun entries => (namedHooks entries).mapM fun (name, v) => do
    return (name, ← v.toText)

/-- A value as an integer. -/
def toInt : Value → Except Number.Fault Int
  | .bool b => .ok (if b then 1 else 0)
  | .int n => .ok n
  | .float x => Number.integerOfReal x
  | .text s => Number.readInteger s
  | .bytes bs => Number.readIntegerBytes bs
  | v => .error (.integerOf v.longTypeName)

/-- The layer in a record; of several faults the one counts whose field comes first here. -/
def ofRecord (r : Record) : Except Number.Fault Layer := do
  let entries ← entriesField? r
  let parallel ← (field? r "parallel").mapM toInt
  let hooks ← hooksField? r
  return {
    entries
    out := ← textField? r "out"
    delimiter := ← textField? r "delimiter"
    openDelimiter := ← textField? r "open_delimiter"
    closeDelimiter := ← textField? r "close_delimiter"
    rmWhitespace := boolField? r "rm_whitespace"
    strictUndefined := boolField? r "strict_undefined"
    globalData := mapField? r "global_data"
    data := mapField? r "data"
    copyPattern := ← textField? r "copy_pattern"
    sitemap := boolField? r "sitemap"
    sitemapPrefix := ← textField? r "sitemap_prefix"
    noWrite := boolField? r "no_write"
    parallel
    templateExt := ← textField? r "template_ext"
    hooks
    watchOptions := mapField? r "watch_options" }

/-! ## Writing -/

def texts (items : List String) : Value := .list (items.map .text)

def hookMap (entries : List (String × String)) : Value :=
  .map (entries.map fun (k, v) => (.text k, .text v))

/-- The settings that are set, by name. -/
def toRecord (c : Layer) : Record :=
  [ ("entries", c.entries.map texts),
    ("out", c.out.map .text),
    ("delimiter", c.delimiter.map .text),
    ("open_delimiter", c.openDelimiter.map .text),
    ("close_delimiter", c.closeDelimiter.map .text),
    ("rm_whitespace", c.rmWhitespace.map .bool),
    ("strict_undefined", c.strictUndefined.map .bool),
    ("global_data", c.globalData.map .map),
    ("data", c.data.map .map),
    ("copy_pattern", c.copyPattern.map .text),
    ("sitemap", c.sitemap.map .bool),
    ("sitemap_prefix", c.sitemapPrefix.map .text),
    ("no_write", c.noWrite.map .bool),
    ("parallel", c.parallel.map .int),
    ("template_ext", c.templateExt.map .text),
    ("hooks", c.hooks.map hookMap),
    ("watch_options", c.watchOptions.map .map) ].filterMap fun (name, v) =>
      v.map fun v => (.text name, v)

/-! ## Defaults -/

def defaultCopyPattern : String :=
  "**/*.\x7bcss,js,png,jpg,jpeg,gif,svg,ico,webp,eot,ttf,woff,woff2\x7d"

/-- The lowest layer. -/
def default : Layer where
  out := some "dist"
  delimiter := some "%"
  openDelimiter := some "\x7b"
  closeDelimiter := some "\x7d"
  rmWhitespace := some false
  copyPattern := some defaultCopyPattern
  sitemap := some false
  noWrite := some false
  parallel := some 4
  templateExt := some ".j2"

end Layer

end StaticSite
