import StaticSite.FileTree.Difference
import StaticSite.Watch.Event

/-!
# Polling

An observer that looks at the files from time to time gives notice of how they differ from the last time.
-/

namespace StaticSite.Watch

def isDirNode : Node → Bool
  | .dir => true
  | .file _ => false

/-- The notices of what changed below some directories. -/
def noticesBetween (dirs : List Path) (before after : FileTree) : List Notice :=
  let isWatched (l : Location) := dirs.any fun dir => dir.segments.isPrefixOf l
  let text (l : Location) := (Path.mk .slash l).text
  ((before.lost after).filter (isWatched ·.1)).map (fun (l, node) =>
      ⟨.deleted (text l), isDirNode node⟩) ++
    ((before.fresh after).filter (isWatched ·.1)).map fun (l, node) =>
      ⟨if (before.get? l).isSome then .modified (text l) else .created (text l), isDirNode node⟩

end StaticSite.Watch
