import StaticSite.Expansion.Partial
import StaticSite.Path.Resolve
import StaticSite.Site.Basic
import StaticSite.Template.Rendering

/-!
# Rendering a page

A page's text is its template rendered with the data bound to the template, the page's own data and the
reserved keys, each over the one before; then the hook may change it. A partial that is bound to an array
and has no place of its own gets no text: the array joins its data.
-/

namespace StaticSite.Site

/-! ## Data -/

def publicPathKey : String := "PUBLIC_PATH"

def globalKey : String := "GLOBAL"

def nowKey : String := "NOW_DATE"

/-- The data bound to a page's template; a partial gets none. -/
def boundData (site : Site) (t : FileTree) (page : Page) : Except Data.Fault Record :=
  if page.template.isPartial then .ok [] else site.bindings.data t page.template

/-- The record with the reserved keys. -/
def withReserved (site : Site) (publicPath : String) (r : Record) : Record :=
  ((r.set (.text publicPathKey) (.text publicPath)).set (.text globalKey)
    (.map site.options.globalData)).set (.text nowKey) (.moment site.now)

/-- What a page's template is rendered with. -/
def context (site : Site) (t : FileTree) (page : Page) (publicPath : String) :
    Except Data.Fault Record := do
  return site.withReserved publicPath (Record.update (← site.boundData t page) page.data)

/-! ## Templates -/

/-- The name of a template in its root directory. -/
def templateName (template : Path) : String := (Path.ofSegments (template.parts.drop 1)).text

/-- The directory that a template's name starts from. -/
def searchDir (site : Site) (template : Path) : Path :=
  site.dir / Path.ofString template.rootDir

/-- The text of the template called `name` in a directory; names do not lead up. -/
def templateSource (t : FileTree) (dir : Path) (name : String) : Except Template.Fault String :=
  let pieces := Text.pieces '/' name
  if ".." ∈ pieces then .error (.notFound name none)
  else match t.node? (dir / Path.ofSegments (pieces.filter fun s => s ≠ "" ∧ s ≠ ".")) with
    | some (.file content) => (Text.ofFile content).mapError .bytes
    | _ => .error (.notFound name (some dir))

/-- The output of a template. -/
def templateText (site : Site) (t : FileTree) (template : Path) (data : Record) :
    Except Template.Fault String :=
  if template.parts.isEmpty then .error .noPath
  else Template.render site.options.templates (templateSource t (site.searchDir template))
    (templateName template) data

/-! ## Pages -/

/-- The page with the array that its template is bound to, if it is a partial without a place. -/
def attached? (site : Site) (t : FileTree) (page : Page) : Except Data.Fault (Option Page) := do
  if page.place.isSome || !page.template.isPartial then return none
  match ← site.bindings.array? t page.template with
  | none => return none
  | some items =>
    let key := Value.text (site.bindings.arrayKey page.template)
    return some { page with data := Record.set key (.list items) page.data }

/-- The text that the hook makes of a page's text. -/
def hookedText (site : Site) (page : Page) (html : String) :
    List Report × Except Fault String :=
  match site.options.hooks.beforeSave with
  | none => ([], .ok html)
  | some hook =>
    let (reports, result) := callHook hook (.beforeSave html site.out page.template)
    (reports, match result with
      | .error failure => .error (.render page.template (.hook failure))
      | .ok (.text html) => .ok html
      | .ok v => .error (.render page.template (.notText v.typeName)))

/-- The text of a page that goes to `output`. -/
def pageText (site : Site) (t : FileTree) (page : Page) (output : Path) :
    List Report × Except Fault String :=
  match site.context t page (Path.publicPrefix site.processDir output site.out) with
  | .error fault => ([], .error (.data fault))
  | .ok data => match site.templateText t page.template data with
    | .error fault => ([], .error (.render page.template (.template fault)))
    | .ok html => site.hookedText page html

/-- A page after the work on it, with its text if it has one. -/
structure Rendered where
  page : Page
  html : Option String

/-- Writes the text of a page to its output. -/
def savePage (site : Site) (t : FileTree) (page : Page) (output : Path) (html : String) :
    Step Rendered :=
  if site.options.noWrite then .still t [] (.ok ⟨page, some html⟩)
  else
    match writeText t (site.dir / output) html with
    | (t, .error fault) => ⟨t, [], .error fault⟩
    | (t, .ok ()) => ⟨t, [.created output], .ok ⟨page, some html⟩⟩

def renderPage (site : Site) (t : FileTree) (page : Page) : Step Rendered :=
  match page.output site.out site.ext with
  | .error fault => .still t [] (.error (.place fault))
  | .ok output => match site.attached? t page with
    | .error fault => .still t [] (.error (.data fault))
    | .ok (some page) => .still t [] (.ok ⟨page, none⟩)
    | .ok none => match site.pageText t page output with
      | (calls, .error fault) => .still t calls (.error fault)
      | (calls, .ok html) =>
        let saved := site.savePage t page output html
        { saved with reports := calls ++ saved.reports }

end StaticSite.Site
