import StaticSite.Config.Options
import StaticSite.Data.Binding
import StaticSite.FileTree.Change
import StaticSite.Sitemap
import StaticSite.Template.Fault

/-!
# Sites

A `Site` is what the work on pages and files depends on besides the file tree. Every piece of work is a
`Step`: it leaves a tree, tells what it did, and has a result.
-/

namespace StaticSite

structure Site where
  options : Options
  /-- The binding table; its directory is the one that templates, data and output are looked up in. -/
  bindings : Bindings
  /-- The directory of the process. -/
  processDir : Path
  /-- The time that templates are given. -/
  now : Moment

namespace Site

/-- A site in a directory with default options and no data. -/
def ofDir (dir : Path) (now : Moment) : Site where
  options := {}
  bindings := ⟨dir, []⟩
  processDir := dir
  now := now

/-- The directory that relative paths start from. -/
def dir (site : Site) : Path := site.bindings.cwd

def out (site : Site) : Path := site.options.out

def ext (site : Site) : String := site.options.templateExt

/-- The output root as an absolute path. -/
def outRoot (site : Site) : Path := Path.resolve site.dir site.out

/-- The path is the output root or lies below it. -/
def isOutput (site : Site) (p : Path) : Bool := (Path.resolve site.dir p).isBelow site.outRoot

/-- Why a page has no text. -/
inductive RenderCause where
  | template (fault : Template.Fault)
  | hook (failure : HookFailure)
  /-- The hook gave a value of this type instead of a text. -/
  | notText (type : String)
  deriving DecidableEq, Repr

def RenderCause.message : RenderCause → String
  | .template fault => fault.message
  | .hook failure => failure.message
  | .notText type => "before_save_html returned " ++ type ++ ", not str"

inductive Fault where
  | place (fault : PlaceFault)
  | sitemap (fault : Sitemap.Fault)
  | data (fault : Data.Fault)
  | render (template : Path) (cause : RenderCause)
  | write (path : Path) (cause : OsFault)
  /-- A text that cannot be written as UTF-8. -/
  | unwritable (fault : Text.Unwritable)
  /-- A hook that is only told of something failed. -/
  | hook (failure : HookFailure)
  deriving DecidableEq, Repr

def Fault.message : Fault → String
  | .place fault => fault.message
  | .sitemap fault => fault.message
  | .data fault => fault.message
  | .render template cause => "Failed to render " ++ template.text ++ ": " ++ cause.message
  | .write path cause => "Cannot write " ++ path.text ++ ": " ++ cause.message
  | .unwritable fault => fault.message
  | .hook failure => failure.message

/-- Faults that concern one page or file only, so that the work on others goes on. -/
def Fault.isLocal : Fault → Bool
  | .data fault => fault.isOfFile
  | .render _ _ => true
  | .write _ _ => true
  | _ => false

/-- What is told while the work is done. -/
inductive Report where
  | created (path : Path)
  | copied (source target : Path)
  | deleted (path : Path)
  | failed (fault : Fault)
  | called (hook : String) (call : HookCall)

/-- A piece of work: the tree it leaves, what it told, and its result. -/
structure Step (α : Type) where
  tree : FileTree
  reports : List Report
  result : Except Fault α

/-- A step that leaves the tree as it is. -/
def Step.still {α : Type} (t : FileTree) (reports : List Report) (result : Except Fault α) :
    Step α :=
  ⟨t, reports, result⟩

/-- Continues a step with its result. -/
def Step.andThen {α β : Type} (step : Step α) (next : FileTree → α → Step β) : Step β :=
  match step.result with
  | .error fault => ⟨step.tree, step.reports, .error fault⟩
  | .ok a =>
    let after := next step.tree a
    { after with reports := step.reports ++ after.reports }

theorem Step.andThen_of_ok {α β : Type} {step : Step α} {a : α} (h : step.result = .ok a)
    (next : FileTree → α → Step β) : step.andThen next =
      ⟨(next step.tree a).tree, step.reports ++ (next step.tree a).reports, (next step.tree a).result⟩ := by
  simp [andThen, h]

theorem Step.andThen_of_error {α β : Type} {step : Step α} {fault : Fault}
    (h : step.result = .error fault) (next : FileTree → α → Step β) :
    step.andThen next = ⟨step.tree, step.reports, .error fault⟩ := by
  simp [andThen, h]

/-- The step with another result. -/
def Step.map {α β : Type} (f : α → β) (step : Step α) : Step β :=
  ⟨step.tree, step.reports, step.result.map f⟩

/-- Calls a hook, if there is one, and tells of the call. -/
def callHook (hook : Hook) (call : HookCall) : List Report × Except HookFailure Value :=
  ([.called hook.name call], hook.run call)

/-- Tells a hook of something that is done; its failure is reported. -/
def tellHook (hook : Option Hook) (call : HookCall) : List Report :=
  match hook with
  | none => []
  | some hook => match hook.run call with
    | .ok _ => [.called hook.name call]
    | .error failure => [.called hook.name call, .failed (.hook failure)]

/-- A way to run the step of every item: the tree that is left, what was told, and the results. -/
abbrev Runner (α β : Type) :=
  (FileTree → α → Step β) → FileTree → List α → FileTree × List Report × List (Except Fault β)

/-- The steps of the items one after the other, with their results. -/
def inTurn {α β : Type} (step : FileTree → α → Step β) :
    FileTree → List α → FileTree × List Report × List (Except Fault β)
  | t, [] => (t, [], [])
  | t, a :: as =>
    let first := step t a
    let (t, reports, results) := inTurn step first.tree as
    (t, first.reports ++ reports, first.result :: results)

/-! ## Writing -/

/-- Why the system does not even take the path: halves that cannot be written, or a null byte. -/
def pathFault? (p : Path) : Option Fault :=
  match Text.unnameable? 0 p.text.toList with
  | some fault => some (.unwritable fault)
  | none => if p.hasNull then some (.place ⟨p, .nullByte⟩) else none

/-- Makes the directories above `target`; the system's refusal names the path as `named`. -/
def makeRoom (t : FileTree) (target named : Path) : FileTree × Except Fault Unit :=
  match pathFault? target.parent with
  | some fault => (t, .error fault)
  | none => match t.makeDirs target.parent with
    | (t, result) => (t, result.mapError (.write named))

/-- The path next to `target` that the paths of drafts begin with. -/
def draftOf (target : Path) : Path := target.parent.child ("." ++ target.name ++ ".")

/-- The path of a new file next to `target`, for a text that is not yet complete. -/
def freshDraft (t : FileTree) (target : Path) : Path :=
  target.parent.child (t.unusedName (draftOf target).name)

/-- Completes a draft and puts it in its place. -/
def publish (t : FileTree) (draft target : Path) (s : String) : FileTree × Except Fault Unit :=
  match Text.encode s with
  | .error fault => (t, .error (.unwritable fault))
  | .ok bytes => match t.putFile draft bytes with
    | (t, .error fault) => (t, .error (.write target fault))
    | (t, .ok ()) => match t.moveFile draft target with
      | (t, result) => (t, result.mapError (.write target))

/-- A draft that did not get to its place is taken away. -/
def orDiscard (draft : Path) : FileTree × Except Fault Unit → FileTree × Except Fault Unit
  | (t, .ok ()) => (t, .ok ())
  | (t, .error fault) => (t.remove draft, .error fault)

/-- Writes a text to a file, making the directories above it. The text goes to a draft next to the file first. -/
def writeText (t : FileTree) (target : Path) (s : String) : FileTree × Except Fault Unit :=
  match makeRoom t target target with
  | (t, .error fault) => (t, .error fault)
  | (t, .ok ()) => match pathFault? (draftOf target) with
    | some fault => (t, .error fault)
    | none =>
      let draft := freshDraft t target
      match t.putFile draft .empty with
      | (t, .error fault) => (t, .error (.write target fault))
      | (t, .ok ()) => orDiscard draft (publish t draft target s)

/-- The results that are good and the local faults, up to the first fault that is not local. -/
def settle {β : Type} : List (Except Fault β) → Except Fault (List β × List Fault)
  | [] => .ok ([], [])
  | .ok b :: rest => do
    let (bs, faults) ← settle rest
    return (b :: bs, faults)
  | .error fault :: rest =>
    if fault.isLocal then do
      let (bs, faults) ← settle rest
      return (bs, fault :: faults)
    else .error fault

/-- The local faults up to the first fault that is not local. -/
def localFaults {β : Type} : List (Except Fault β) → List Fault
  | [] => []
  | .ok _ :: rest => localFaults rest
  | .error fault :: rest => if fault.isLocal then fault :: localFaults rest else []

end Site

end StaticSite
