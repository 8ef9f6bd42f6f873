import StaticSite.Path.Output
import StaticSite.Value.Basic

/-!
# Pages

A page is one piece of work: a template, the data it is rendered with, and the path that decides where
the result goes, if that is not the template's own.
-/

namespace StaticSite

structure Page where
  template : Path
  /-- Where the page stands, for one of many pages of a template. -/
  place : Option Path := none
  data : Record := []
  deriving Repr, Inhabited

/-- The path that the output path is made from. -/
def Page.logical (p : Page) : Path := p.place.getD p.template

/-- A path without a place below the output root. -/
structure PlaceFault where
  path : Path
  fault : OutputFault
  deriving DecidableEq, Repr

def PlaceFault.message (f : PlaceFault) : String := f.fault.message f.path.text

/-- The output path of a source path. -/
def Path.output (p out : Path) (ext : String) : Except PlaceFault Path :=
  (p.outputOf out ext).mapError (PlaceFault.mk p)

def Page.output (page : Page) (out : Path) (ext : String) : Except PlaceFault Path :=
  page.logical.output out ext

end StaticSite
