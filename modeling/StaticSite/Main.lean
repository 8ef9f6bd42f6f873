import StaticSite.Command.Run
import StaticSite.FileTree.Difference
import StaticSite.Watch.Polling
import Std.Time.Zoned

/-!
# The program

Loads the files below the working directory, runs the command on them and saves what it changed. While it
watches, it looks at the files again and again.
-/

namespace StaticSite.Program

/-- The time on the local clock. -/
def now : IO Moment := do
  let t ← Std.Time.DateTime.now
  let d := t.date.get
  return {
    date := ⟨d.date.year.toInt.toNat, d.date.month.val.toNat, d.date.day.val.toNat⟩
    hour := d.time.hour.val.toNat
    minute := d.time.minute.val.toNat
    second := d.time.second.val.toNat
    microsecond := d.time.nanosecond.val.toNat / 1000
    offset := some (t.timezone.offset.second.val / 60) }

/-- The tree with what stands below a directory. Links are not followed. -/
partial def loadBelow (t : FileTree) (dir : Path) : IO FileTree := do
  let mut t := t
  for entry in ← ((← IO.currentDir) / dir.text).readDir do
    let p := dir.child entry.fileName
    match (← entry.path.symlinkMetadata).type with
    | .dir => t ← loadBelow (t.put p.segments .dir) p
    | .file => t := t.put p.segments (.file (← IO.FS.readBinFile entry.path))
    | _ => pure ()
  return t

def load (dir : Path) : IO FileTree := loadBelow (FileTree.empty.makeDirs dir).1 dir

/-- Makes the files what they are in `after`. -/
def save (before after : FileTree) : IO Unit := do
  for (l, node) in before.lost after do
    let p := (Path.mk .slash l).text
    match node with
    | .dir => try IO.FS.removeDirAll p catch _ => pure ()
    | .file _ => try IO.FS.removeFile p catch _ => pure ()
  for (l, node) in before.fresh after do
    let p := Path.mk .slash l
    match node with
    | .dir => IO.FS.createDirAll p.text
    | .file content =>
      IO.FS.createDirAll p.parent.text
      IO.FS.writeBinFile p.text content

def print (told : List Command.Message) : IO Unit := do
  for line in told.flatMap Command.Message.lines do
    IO.println line

/-- Prints what belongs to the end of a run and gives the status. -/
def finish (ending : Command.Ending) : IO UInt32 := do
  match ending with
  | .done _ => pure ()
  | .usage fault =>
    IO.println Command.usage
    if let some fault := fault then IO.eprintln ("Error: " ++ fault.message)
  | .failed fault => IO.eprintln fault.message
  return ending.status.toUInt32

/-- Milliseconds between two looks at the files. -/
def interval (settings : WatchSettings) : UInt32 :=
  if settings.polling then (settings.pollInterval.toFloat * 1000).toUInt32 else 500

/-- Takes notice of what changes until the run ends. -/
partial def follow (dir : Path) (seen : FileTree) (w : Command.Watching) : IO UInt32 := do
  print w.told
  match w.ending with
  | some ending => finish ending
  | none =>
    IO.sleep (interval w.session.site.options.watch)
    let files ← load dir
    let mut w := { w with told := [] }
    let mut t := files
    for notice in Watch.noticesBetween w.session.dirs seen files do
      (w, t) := w.receive t notice
    save files t
    follow dir t w

end StaticSite.Program

open StaticSite Program in
def main (args : List String) : IO UInt32 := do
  let dir := Path.ofString (← IO.currentDir).toString
  let files ← load dir
  let run := Command.run { dir, now := ← now } files args
  save files run.tree
  print run.told
  match run.next with
  | .ends ending => finish ending
  | .watches session => follow dir run.tree (Command.watch session {})
