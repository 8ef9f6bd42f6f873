import StaticSite.Template.Document
import StaticSite.Template.Names

/-!
# Rendering a template

Statements run one after the other and add to the output. A template that extends another gives the output of
that one after its own; from then on it adds nothing outside of loops' blocks and embedded templates, but its
blocks replace those of the same name. Templates and blocks nest at most `maxDepth` deep.
-/

namespace StaticSite.Template

/-- The versions of a block, each with the template it is from, the one that counts first. -/
abbrev Versions := List (String × List Statement)

/-- What a running template shares with the templates it extends. -/
structure Context where
  globals : Variables
  blocks : List (String × Versions)

def Context.versions (c : Context) (block : String) : Versions := (c.blocks.lookup block).getD []

/-- The blocks of a template as the only versions. -/
def Document.versions (d : Document) : List (String × Versions) :=
  d.blocks.map fun (s, body) => (s, [(d.name, body)])

/-- The versions with those of an extended template behind them. -/
def addVersions (blocks more : List (String × Versions)) : List (String × Versions) :=
  blocks.map (fun (s, vs) => (s, vs ++ (more.lookup s).getD [])) ++
    more.filter fun (s, _) => (blocks.lookup s).isNone

/-- The outputs of other templates and of blocks. -/
structure Outputs where
  document : Document → Context → Except Fault String
  block : Context → String → Nat → Except Fault String

/-- What stays the same while a template runs. -/
structure Setting where
  strict : Bool
  /-- Finds a template by its name. -/
  find : String → Except Fault Document
  outputs : Outputs
  template : String

structure Run where
  context : Context
  /-- Names of the template that have no value yet. -/
  pending : List String := []
  /-- The frames of loops and blocks, the innermost first. -/
  frames : List Frame := []
  /-- Every name that the template or a frame refers to. -/
  known : List String := []
  /-- The template that is extended. -/
  upper : Option Document := none
  output : String := ""

namespace Run

def scope (run : Run) (setting : Setting) : Scope :=
  { strict := setting.strict
    template := setting.template
    globals := run.context.globals
    frames := run.frames ++ [{ pending := run.pending }]
    block := setting.outputs.block run.context }

def eval (run : Run) (setting : Setting) (e : Expr) : Except Fault Item :=
  e.eval (run.scope setting)

def add (run : Run) (s : String) : Run := { run with output := run.output ++ s }

/-- Adds to the output, unless another template is extended. -/
def addOwn (run : Run) (s : String) : Run := if run.upper.isSome then run else run.add s

/-- Gives variables their values, in the innermost frame. -/
def bind (run : Run) (found : Variables) : Run :=
  match run.frames with
  | [] => { run with
      context := { run.context with globals := found ++ run.context.globals }
      pending := run.pending.filter fun name => (found.lookup name).isNone }
  | frame :: frames => { run with
      frames := { frame with values := found ++ frame.values } :: frames }

/-- All variables that a statement sees. -/
def visible (run : Run) : Variables := run.frames.flatMap (·.values) ++ run.context.globals

/-- The run inside a frame with these values for statements that refer to these names. -/
def enter (run : Run) (values : Variables) (names : Names) : Run :=
  { run with
    frames := ⟨names.pending, values⟩ :: run.frames
    known := names.all ++ run.known }

/-- The run back in the frames of `outer`. -/
def leave (run outer : Run) : Run := { run with frames := outer.frames, known := outer.known }

end Run

mutual

/-- The variables that a target takes from an item. -/
def Target.take (item : Item) : Target → Except Fault Variables
  | .name s => .ok [(s, item)]
  | .field _ _ => .error .fieldTarget
  | .tuple targets => do
    match item.elements with
    | .error (.misuse _) => Item.misuse (.notUnpackable item.typeName)
    | .error fault => throw fault
    | .ok items =>
      if items.length > targets.length then throw (.tooManyValues targets.length)
      else if items.length < targets.length then
        throw (.tooFewValues targets.length items.length)
      else Target.takeAll items targets

def Target.takeAll : List Item → List Target → Except Fault Variables
  | item :: items, t :: ts => do
    let found ← Target.take item t
    return (← Target.takeAll items ts) ++ found
  | _, _ => .ok []

end

/-! ## Finding templates -/

/-- The first of several templates that is there. -/
def findAny (setting : Setting) (tried : List String) : List Item → Except Fault Document
  | [] => if tried.isEmpty then .error .noNames else .error (.noneFound tried)
  | .missing what _ :: items => findAny setting (tried ++ [what.message]) items
  | item :: items => match item.text? with
    | none => do
      item.asKey
      throw (.nameType item.typeName)
    | some name => match setting.find name with
      | .error (.notFound _ _) => findAny setting (tried ++ [name]) items
      | found => found

/-- The template that an item names. -/
def findNamed (setting : Setting) (item : Item) : Except Fault Document := do
  match item, item.text? with
  | _, some name => setting.find name
  | .missing what _, _ => throw (.missing what)
  | item, none =>
    if ← item.isTrue then
      match item, findAny setting [] (← item.elements) with
      | .map _, .error (.noneFound _) => throw .noneOfKeys
      | _, found => found
    else throw .noNames

/-- The template that an item names as the one to extend. -/
def findUpper (setting : Setting) (item : Item) : Except Fault Document := do
  match item.text?, item with
  | some name, _ => setting.find name
  | none, .missing what _ => throw (.missing what)
  | none, item =>
    item.asKey
    throw (.nameType item.typeName)

def isNotFound : Fault → Bool
  | .notFound _ _ => true
  | .noneFound _ => true
  | .noNames => true
  | _ => false

/-! ## Statements -/

namespace Statement

/-- The variables of one round of a loop. -/
def roundVariables (withState : Bool) (length : Nat) (bound : Variables) (i : Nat) : Variables :=
  if withState then bound ++ [("loop", .loop length i)] else bound

/-- The item passes the test of a loop. -/
def passes (setting : Setting) (run : Run) (target : Target) (test : Option Expr) (item : Item) :
    Except Fault Bool := do
  match test with
  | none => return true
  | some e =>
    let bound ← target.take item
    let found ← (run.enter bound {}).eval setting e
    found.isTrue

mutual

def exec (setting : Setting) : Statement → Run → Except Fault Run
  | .data s, run => .ok (run.addOwn s)
  | .output e, run => do
    if run.upper.isSome then return run
    let item ← match e.known? with
      | some item => .ok item
      | none => run.eval setting e
    return run.add (← item.printed)
  | .branch branches otherwise, run => do
    match ← execBranches setting branches run with
    | some run => return run
    | none => execAll setting otherwise run
  | .loop target items test body otherwise, run => do
    let items ← (← run.eval setting items).elements
    let withState := keepsState body otherwise
    let chosen ← if withState then items.filterM (passes setting run target test) else .ok items
    let names := namesOfAll run.known body
      (.ofKnown (target.names ++ if withState then ["loop"] else []))
    let (rounds, ended) ← chosen.foldlM (fun (i, inner) item => do
      let passed ← if withState then .ok true else passes setting run target test item
      if passed then
        let values := roundVariables withState chosen.length (← target.take item) i
        return (i + 1, ← execAll setting body ((inner.leave run).enter values names))
      else return (i, inner)) (0, run)
    if rounds = 0 then
      let names := namesOfAll run.known otherwise {}
      return (← execAll setting otherwise (run.enter [] names)).leave run
    else return ended.leave run
  | .assign (.field _ _) _, _ => .error .fieldTarget
  | .assign target e, run => do
    return run.bind (← target.take (← run.eval setting e))
  | .capture target body, run => do
    let inner ← execAll setting body
      { run.enter [] (namesOfAll run.known body {}) with upper := none, output := "" }
    return run.bind (← target.take (.safe inner.output))
  | .embed e mayMiss, run => do
    match findNamed setting (← run.eval setting e) with
    | .error fault => if mayMiss && isNotFound fault then return run else throw fault
    | .ok document =>
      return run.add (← setting.outputs.document document ⟨run.visible, document.versions⟩)
  | .extend e, run => do
    if run.upper.isSome then throw .extendsTwice
    let document ← findUpper setting (← run.eval setting e)
    let blocks := addVersions run.context.blocks document.versions
    return { run with upper := some document, context := { run.context with blocks } }
  | .block name seesLoops _, run => do
    if run.upper.isSome && run.frames.isEmpty then return run
    let context : Context :=
      if seesLoops then { run.context with globals := run.visible } else run.context
    return run.add (← setting.outputs.block context name 0)

def execAll (setting : Setting) : List Statement → Run → Except Fault Run
  | [], run => .ok run
  | s :: ss, run => do execAll setting ss (← exec setting s run)

/-- The statements of the first branch whose condition is true, if there is one. -/
def execBranches (setting : Setting) : List (Expr × List Statement) → Run →
    Except Fault (Option Run)
  | [], _ => .ok none
  | (e, body) :: bs, run => do
    if ← (← run.eval setting e).isTrue then return some (← execAll setting body run)
    else execBranches setting bs run

end

end Statement

/-! ## Templates and blocks -/

/-- What a block sees besides the variables of its template: the block of its name one step up. -/
def blockVariables (strict : Bool) (block : String) (level : Nat) (versions : Versions)
    (body : List Statement) : Variables :=
  if Statement.anyMentions "super" body then
    [("super", if level + 1 < versions.length then .upper block (level + 1)
      else .missing (.upperBlock block) strict)]
  else []

def blockOutput (setting : Setting) (context : Context) (block : String) (level : Nat) :
    Except Fault String := do
  let versions := context.versions block
  match versions[level]? with
  | none => throw (.missing (.upperBlock block))
  | some (template, body) =>
    let values := blockVariables setting.strict block level versions body
    let names := Statement.namesOfAll [] body (.ofKnown (values.map (·.1)))
    let run ← Statement.execAll { setting with template } body
      (Run.enter { context } values names)
    return run.output

def documentOutput (setting : Setting) (document : Document) (context : Context) :
    Except Fault String := do
  let names := Statement.namesOfAll [] document.body {}
  let run ← Statement.execAll { setting with template := document.name } document.body
    { context, pending := names.pending, known := names.all }
  match run.upper with
  | none => return run.output
  | some upper => return run.output ++ (← setting.outputs.document upper run.context)

/-- The outputs of templates and blocks that nest at most so deep. -/
def outputs (strict : Bool) (find : String → Except Fault Document) : Nat → Outputs
  | 0 => ⟨fun _ _ => .error .tooDeep, fun _ _ _ => .error .tooDeep⟩
  | depth + 1 =>
    let setting : Setting := ⟨strict, find, outputs strict find depth, ""⟩
    ⟨documentOutput setting, blockOutput setting⟩

def maxDepth : Nat := 400

/-- The variables of a record: its entries with text keys. -/
def variablesOf (r : Record) : Variables :=
  r.filterMap fun
    | (.text s, v) => some (s, .ofValue v)
    | _ => none

/-- The output of the template called `name`, given the texts of all templates by name. -/
def render (settings : TemplateSettings) (source : String → Except Fault String) (name : String)
    (data : Record) : Except Fault String := do
  match Marks.ofSettings? settings with
  | none => throw .marks
  | some marks =>
    let find (name : String) := do Document.ofText marks settings.strictUndefined name (← source name)
    let document ← find name
    let all := outputs settings.strictUndefined find maxDepth
    all.document document ⟨variablesOf data, document.versions⟩

end StaticSite.Template
