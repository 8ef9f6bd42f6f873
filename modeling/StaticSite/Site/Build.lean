import StaticSite.Site.Assets
import StaticSite.Site.Render

/-!
# Building a site

A build writes the sitemap, renders all pages, copies all assets and then tells the hook that it is done. A
fault of one page or file does not keep the others from being done.
-/

namespace StaticSite.Site

structure Result where
  /-- The pages as they are afterwards. -/
  pages : List Page
  sitemap : List String := []
  /-- The text of every page that has one, by its logical path. -/
  rendered : List (Path × String) := []
  copied : List Path := []
  faults : List Fault := []

def Result.isOk (r : Result) : Bool := r.faults.isEmpty

/-! ## Sitemap -/

def sitemapLines (site : Site) (pages : List Page) : Except Sitemap.Fault (List String) :=
  Sitemap.lines site.out site.ext site.options.sitemapPrefix pages

/-- Writes the sitemap; the fault is the result if that fails. -/
def writeSitemap (site : Site) (t : FileTree) (lines : List String) :
    FileTree × Except Fault Unit :=
  writeText t ((site.dir / site.out).child Sitemap.fileName) (Sitemap.text lines)

/-- The sitemap of a build, written if it is wanted, and the fault of writing it. -/
def makeSitemap (site : Site) (t : FileTree) (pages : List Page) :
    Step (List String × List Fault) :=
  if !site.options.sitemap then .still t [] (.ok ([], []))
  else match site.sitemapLines pages with
    | .error fault => .still t [] (.error (.sitemap fault))
    | .ok lines => match site.writeSitemap t lines with
      | (t, .ok ()) => ⟨t, [.created (site.out.child Sitemap.fileName)], .ok (lines, [])⟩
      | (t, .error fault) =>
        if fault.isLocal then ⟨t, [.failed fault], .ok (lines, [fault])⟩ else ⟨t, [], .error fault⟩

/-! ## Pages -/

/-- Sets the text of a path, in place if it is there. -/
def setText (p : Path) (html : String) : List (Path × String) → List (Path × String)
  | [] => [(p, html)]
  | (q, other) :: rest => if q = p then (q, html) :: rest else (q, other) :: setText p html rest

def texts (rendered : List Rendered) : List (Path × String) :=
  rendered.foldl (fun acc r => match r.html with
    | some html => setText r.page.logical html acc
    | none => acc) []

/-- The pages after the work on them; a page that failed stays as it was. -/
def pagesAfter : List Page → List (Except Fault Rendered) → List Page
  | _ :: pages, .ok r :: results => r.page :: pagesAfter pages results
  | page :: pages, .error _ :: results => page :: pagesAfter pages results
  | pages, _ => pages

structure RenderedAll where
  pages : List Page
  texts : List (Path × String)
  faults : List Fault

def renderAllBy (run : Runner Page Rendered) (site : Site) (t : FileTree) (pages : List Page) :
    Step RenderedAll :=
  let (t, reports, results) := run site.renderPage t pages
  ⟨t, reports ++ (localFaults results).map .failed, (settle results).map fun (rendered, faults) =>
    ⟨pagesAfter pages results, texts rendered, faults⟩⟩

def renderAll : Site → FileTree → List Page → Step RenderedAll := renderAllBy inTurn

/-! ## The whole build -/

/-- The failures among reports. -/
def failures (reports : List Report) : List Fault :=
  reports.filterMap fun
    | .failed fault => some fault
    | _ => none

/-- Tells the hook that a build is done. -/
def finish (site : Site) (t : FileTree) (r : Result) : Step Result :=
  let reports := tellHook site.options.hooks.done (.done r.sitemap site.out r.pages)
  .still t reports (.ok { r with faults := r.faults ++ failures reports })

/-- Finds the assets in the root directories and copies them. -/
def copyAllBy (run : Runner Path Path) (site : Site) (t : FileTree) (roots : List String) :
    Step (List Path × List Fault) :=
  match site.searchFault? roots with
  | some fault => .still t [] (.error fault)
  | none => copyAssetsBy run site t (site.findAssets t roots)

/-- What a build does before the hook is told; `renders` and `copies` say how the pages and the assets are
gone through. -/
def gatherBy (renders : Runner Page Rendered) (copies : Runner Path Path) (site : Site)
    (t : FileTree) (entries : List String) (pages : List Page) : Step Result :=
  (site.makeSitemap t pages).andThen fun t (sitemap, faults) =>
    (renderAllBy renders site t pages).andThen fun t all =>
      (copyAllBy copies site t (Path.rootDirs (entries.map Path.ofString))).map
        fun (copied, copyFaults) => {
          pages := all.pages
          sitemap
          rendered := all.texts
          copied
          faults := faults ++ all.faults ++ copyFaults }

/-- Builds pages and the assets in the root directories of the entries. -/
def buildBy (renders : Runner Page Rendered) (copies : Runner Path Path) (site : Site)
    (t : FileTree) (entries : List String) (pages : List Page) : Step Result :=
  (gatherBy renders copies site t entries pages).andThen site.finish

/-- A build that goes through pages and assets one by one. -/
def build : Site → FileTree → List String → List Page → Step Result := buildBy inTurn inTurn

end StaticSite.Site
