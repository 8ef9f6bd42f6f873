import StaticSite.Command.Argument
import StaticSite.Command.Message
import StaticSite.Config.Files
import StaticSite.Expansion.Entries
import StaticSite.Site.Build
import StaticSite.Watch.Session

/-!
# Runs of the command

A run reads its arguments, merges the configuration, expands the entry patterns and builds the site. It ends
with a status or goes on watching: status 2 stands for a configuration without a build, 1 for a build with
faults, 0 for one without.
-/

namespace StaticSite.Command

def name : String := "pagesmith"

def version : String := "0.3.0"

/-- What a run depends on besides its arguments and the files. -/
structure Surroundings where
  modules : List HookModule := []
  /-- The directory of the project. -/
  dir : Path
  now : Moment

inductive Fault where
  | config (fault : ConfigFault)
  | binding (fault : Binding.Fault)
  | entry (fault : EntryFault)
  | noEntries
  | site (fault : Site.Fault)
  /-- A pattern to ignore that ignores everything. -/
  | ignore (fault : Glob.IgnoresEverything)
  deriving DecidableEq, Repr

def Fault.message : Fault → String
  | .config fault => fault.message
  | .binding fault => fault.message
  | .entry fault => fault.message
  | .noEntries =>
    "No entry templates given. Pass globs such as 'site/**/*.j2' " ++
      "or set 'entries' in the config file."
  | .site fault => fault.message
  | .ignore fault => fault.message

/-- Faults that the user is told of as mistakes in the configuration. -/
def Fault.isMistake : Fault → Bool
  | .config fault => fault.isMistake
  | .binding (.value _) => true
  | .entry fault => fault.isMistake
  | .noEntries => true
  | _ => false

inductive Ending where
  | done (status : Nat)
  /-- The usage is shown, with a fault unless it was asked for. -/
  | usage (fault : Option UsageFault)
  | failed (fault : Fault)

def Ending.status : Ending → Nat
  | .done status => status
  | .usage none => 0
  | .usage (some _) => 2
  | .failed _ => 1

/-- How a run goes on after the build. -/
inductive Next where
  | ends (ending : Ending)
  | watches (session : Watch.Session)

structure Run where
  tree : FileTree
  told : List Message := []
  next : Next

/-! ## Configuration -/

/-- The layer of the options; what is not given is left to the layers below. -/
def Arguments.layer (a : Arguments) : Except UsageFault Layer := do
  let parallel ← (a.value? .parallel).mapM fun value =>
    (Number.readInteger value).mapError fun _ => .notInteger "--parallel" value
  let set (s : Switch) : Option Bool := if a.isSet s then some true else none
  return {
    entries := if a.entries.isEmpty then none else some a.entries
    out := a.value? .out
    delimiter := a.value? .delimiter
    openDelimiter := a.value? .openDelimiter
    closeDelimiter := a.value? .closeDelimiter
    rmWhitespace := set .rmWhitespace
    copyPattern := a.value? .copyPattern
    sitemap := set .sitemap
    sitemapPrefix := a.value? .sitemapPrefix
    noWrite := set .noWrite
    parallel
    templateExt := a.value? .templateExt
    watchOptions := if a.isSet .poll then some [(.text "polling", .bool true)] else none }

/-- The configuration file that is named, which is no directory. -/
def Arguments.configFile (a : Arguments) (t : FileTree) (dir : Path) :
    Except UsageFault (Option Path) :=
  match a.value? .config with
  | none => .ok none
  | some given =>
    let file := Path.ofString given
    if given ≠ "" && t.isDir (dir / file) then .error (.directory "--config" given)
    else .ok (some file)

def Arguments.sources (a : Arguments) (t : FileTree) (dir : Path) :
    Except UsageFault Config.Sources := do
  return {
    flags := some (← a.layer)
    file := ← a.configFile t dir
    dataFile := a.value? .dataFile
    inlineData := a.value? .globalData }

/-- What is to be built. -/
structure Plan where
  site : Site
  patterns : List String
  expansion : Expansion

def plan (w : Surroundings) (t : FileTree) (sources : Config.Sources) : Except Fault Plan := do
  let (config, options) ← (Config.build w.modules t w.dir sources).mapError .config
  let patterns := config.entries.getD []
  if patterns.isEmpty then throw .noEntries
  let bindings ← (Bindings.ofRecord w.dir options.data).mapError .binding
  let expansion ← (expandEntries t bindings options.templateExt patterns).mapError .entry
  return { site := ⟨options, bindings, w.dir, w.now⟩, patterns, expansion }

/-! ## The build -/

/-- Builds what is planned and says how it went. -/
def Plan.build (p : Plan) (t : FileTree) (watch : Bool) : Run :=
  let pages := p.expansion.pages
  let step := p.site.build t p.patterns pages
  let told := (if pages.isEmpty then [Message.noTemplates] else []) ++
    p.expansion.faults.map (fun fault => .report (.failed (.data fault))) ++
    step.reports.map .report
  match step.result with
  | .error fault => { tree := step.tree, told, next := .ends (.failed (.site fault)) }
  | .ok r =>
    let faults := p.expansion.faults.length + r.faults.length
    { tree := step.tree
      told := told ++ [.summary r.rendered.length r.copied.length p.site.out] ++
        if faults = 0 then [] else [.faultCount faults]
      next :=
        if watch then .watches (.ofEntries p.site p.patterns r.pages)
        else .ends (.done (if faults = 0 then 0 else 1)) }

/-- Ends without touching a file. -/
def endAt (t : FileTree) (told : List Message) (ending : Ending) : Run :=
  { tree := t, told, next := .ends ending }

def refuse (t : FileTree) (fault : UsageFault) : Run :=
  if fault.showsUsage then endAt t [] (.usage (some fault))
  else endAt t [.text ("Error: " ++ fault.message)] (.done 2)

/-- The first of the options that end a run at once. -/
def Arguments.early? (a : Arguments) : Option Switch :=
  a.given.findSome? fun
    | .switch .help => some .help
    | .switch .version => some .version
    | _ => none

def runWith (w : Surroundings) (t : FileTree) (a : Arguments) : Run :=
  match a.sources t w.dir with
  | .error fault => refuse t fault
  | .ok sources => match plan w t sources with
    | .ok p => p.build t (a.isSet .watch)
    | .error fault =>
      if fault.isMistake then endAt t [.error fault.message] (.done 2) else endAt t [] (.failed fault)

def run (w : Surroundings) (t : FileTree) (args : List String) : Run :=
  match readArguments args with
  | .error fault => refuse t fault
  | .ok a => match a.early? with
    | some .version =>
      endAt t [.text (name ++ " " ++ Message.marked "bold cyan" version)] (.done 0)
    | some _ => endAt t [] (.usage none)
    | none => runWith w t a

/-! ## Watching -/

/-- A run while it watches: its session, what was told, and its end if it has come. -/
structure Watching where
  session : Watch.Session
  told : List Message := []
  ending : Option Ending := none

/-- Waits for the session to end. -/
def Watching.check (w : Watching) : Watching :=
  match w.session.wait with
  | none => w
  | some (session, _, result) =>
    let session := session.stop.1
    match result with
    | .ok () => { w with session, ending := some (.done 0) }
    | .error fault =>
      { session, told := w.told ++ [.watchFailed fault.message], ending := some (.done 1) }

/-- Begins to watch with an observer. -/
def watch (session : Watch.Session) (o : Watch.Observer) : Watching :=
  let session := (session.start o).1
  let told := match session.readiness with
    | .running => [Message.watching session.roots]
    | _ => []
  Watching.check { session, told }

/-- Takes a notice of the observer. -/
def Watching.receive (w : Watching) (t : FileTree) (n : Watch.Notice) : Watching × FileTree :=
  match w.session.receive n with
  | .error fault => ({ w with session := w.session.stop.1, ending := some (.failed (.ignore fault)) }, t)
  | .ok session =>
    let (session, t, reports) := session.work t
    ({ w with session, told := w.told ++ reports.map .report }, t)

/-- The observer has died. -/
def Watching.loseObserver (w : Watching) : Watching :=
  Watching.check { w with session := w.session.loseObserver }

/-- The user ends the run. -/
def Watching.interrupt (w : Watching) : Watching :=
  { session := w.session.stop.1, told := w.told ++ [.stopped], ending := some (.done 0) }

end StaticSite.Command
