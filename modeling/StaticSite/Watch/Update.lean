import StaticSite.Site.Assets
import StaticSite.Site.Render
import StaticSite.Watch.Event

/-!
# Keeping the output up to date

`Site.update` brings the output up to date with one event. A removal deletes the output of the path; an
addition or a change renders the pages of a template or copies the file. Directories come with their files
and are left alone.
-/

namespace StaticSite.Site

open Watch

/-- Deletes the output of a path that is gone; `whole` if that may be a directory. -/
def deleteOutput (site : Site) (t : FileTree) (p : Path) (whole : Bool) : Step Unit :=
  match p.output site.out site.ext with
  | .error fault => .still t [] (.error (.place fault))
  | .ok output =>
    let target := site.dir / output
    if whole && t.isDir target || t.isFile target then
      ⟨t.remove target, [.deleted output], .ok ()⟩
    else .still t [] (.ok ())

/-- Renders those pages that have the template and gives all pages as they are then. A page with a local
fault stays as it is; the fault is told. -/
def renderTemplate (site : Site) (template : Path) (t : FileTree) : List Page → Step (List Page)
  | [] => .still t [] (.ok [])
  | page :: pages =>
    if page.template ≠ template then (site.renderTemplate template t pages).map (page :: ·)
    else
      let first := site.renderPage t page
      let continued (page : Page) (told : List Report) : Step (List Page) :=
        let rest := site.renderTemplate template first.tree pages
        ⟨rest.tree, first.reports ++ told ++ rest.reports, rest.result.map (page :: ·)⟩
      match first.result with
      | .ok rendered => continued rendered.page []
      | .error fault =>
        if fault.isLocal then continued page [.failed fault]
        else ⟨first.tree, first.reports, .error fault⟩

/-- Applies an event to the output; the result are the pages as they are then. -/
def update (site : Site) (t : FileTree) (pages : List Page) (p : Path) (e : Event) :
    Step (List Page) :=
  match e.kind with
  | .unlink => (site.deleteOutput t p false).map fun () => pages
  | .unlinkDir => (site.deleteOutput t p true).map fun () => pages
  | .add | .change =>
    if e.isDir then .still t [] (.ok pages)
    else if p.hasTemplateExt site.ext then site.renderTemplate p t pages
    else (site.copyAsset t p).map fun _ => pages

end StaticSite.Site
