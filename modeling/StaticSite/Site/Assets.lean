import StaticSite.Glob.Files
import StaticSite.Path.Resolve
import StaticSite.Site.Basic

/-!
# Assets

The assets are the files that the copy pattern finds in the root directories, templates and output files
left out. Each is copied to its output path.
-/

namespace StaticSite.Site

/-- The pattern of the assets in a root directory. -/
def assetPattern (site : Site) (root : String) : String :=
  String.ofList (root.toList.reverse.dropWhile (· == '/')).reverse ++ "/" ++
    String.ofList (site.options.copyPattern.toList.dropWhile (· == '/'))

/-- The file is to be copied: neither a template nor an output. -/
def isAsset (site : Site) (p : Path) : Bool := !p.hasTemplateExt site.ext && !site.isOutput p

/-- The assets in the root directories, in increasing order. -/
def findAssets (site : Site) (t : FileTree) (roots : List String) : List Path :=
  Path.sortDistinct ((roots.flatMap fun root =>
    Glob.files t site.dir (site.assetPattern root)).filter site.isAsset)

/-- Why no assets can be looked for: the system does not take the path of the output root, or of the
directory that a pattern is followed from. -/
def searchFault? (site : Site) (roots : List String) : Option Fault :=
  (pathFault? (site.dir / site.out)).or <| roots.findSome? fun root =>
    (Glob.expandBraces (site.assetPattern root)).findSome? fun pattern =>
      (Glob.lead? pattern).bind fun lead => pathFault? (site.dir / lead)

/-- Copies the file at `source` to `target`; faults name the target as `output`. -/
def copyTo (site : Site) (t : FileTree) (source output : Path) : FileTree × Except Fault Unit :=
  let target := site.dir / output
  match makeRoom t target output with
  | (t, .error fault) => (t, .error fault)
  | (t, .ok ()) => match pathFault? (site.dir / source) with
    | some fault => (t, .error fault)
    | none => match t.copyFile (site.dir / source) target with
      | (t, result) => (t, result.mapError (.write output))

/-- Copies an asset to its output path, which is the result. -/
def copyAsset (site : Site) (t : FileTree) (source : Path) : Step Path :=
  match source.output site.out site.ext with
  | .error fault => .still t [] (.error (.place fault))
  | .ok output => match site.copyTo t source output with
    | (t, .error fault) => ⟨t, [], .error fault⟩
    | (t, .ok ()) =>
      ⟨t, .copied source output :: tellHook site.options.hooks.afterCopy (.afterCopy source output),
        .ok output⟩

/-- The outputs of several assets, and the faults of those that could not be copied. -/
def copyAssetsBy (run : Runner Path Path) (site : Site) (t : FileTree) (sources : List Path) :
    Step (List Path × List Fault) :=
  let (t, reports, results) := run site.copyAsset t sources
  ⟨t, reports ++ (localFaults results).map .failed, settle results⟩

def copyAssets : Site → FileTree → List Path → Step (List Path × List Fault) := copyAssetsBy inTurn

end StaticSite.Site
