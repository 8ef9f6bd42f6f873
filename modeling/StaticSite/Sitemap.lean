import StaticSite.Page
import StaticSite.Text.Quoted
import StaticSite.Url.Basic

/-!
# Sitemaps

The sitemap has one line a page, in order: the page's output path as seen from the output root, or with a
prefix put before it and escaped as a URL.
-/

namespace StaticSite.Sitemap

def fileName : String := "sitemap.txt"

inductive Fault where
  | place (fault : PlaceFault)
  | notBelow (output out : Path)
  | url (fault : Url.Fault)
  deriving DecidableEq, Repr

def Fault.message : Fault → String
  | .place fault => fault.message
  | .notBelow output out =>
    Text.quote output.text ++ " is not in the subpath of " ++
      Text.quote (if out = Path.here then "" else out.text) ++
      " OR one path is relative and the other is absolute."
  | .url fault => fault.message

/-- A prefix with a slash at its end. -/
def withSlash (lead : String) : String := if lead.endsWith "/" then lead else lead ++ "/"

/-- The line for an output path; an empty prefix is none. -/
def line (output out : Path) (lead : Option String) : Except Fault String :=
  match output.relativeTo? out with
  | none => .error (.notBelow output out)
  | some rel => match lead with
    | none | some "" => .ok rel.text
    | some lead => (Url.encode (withSlash lead ++ rel.text)).mapError .url

def pageLine (out : Path) (ext : String) (lead : Option String) (page : Page) :
    Except Fault String := do
  line (← (page.output out ext).mapError .place) out lead

/-- One line a page. -/
def lines (out : Path) (ext : String) (lead : Option String) (pages : List Page) :
    Except Fault (List String) :=
  pages.mapM (pageLine out ext lead)

/-- The text of the sitemap. -/
def text (lines : List String) : String := "\n".intercalate lines

end StaticSite.Sitemap
