import StaticSite.Page
import StaticSite.Value.Knot
import StaticSite.Value.Text

/-!
# Many pages from one template

A partial is a template whose name begins with an underscore. Bound to an array it becomes one page for
each element with a usable name: `site/_post.j2` with `[{"name": "a"}]` has the page `site/post/a.j2`.
-/

namespace StaticSite

def partialMark : Char := '_'

def Path.isPartial (p : Path) : Bool := p.name.toList.head? == some partialMark

namespace Expansion

/-- Why an element has no page. -/
inductive SkipReason where
  | noName
  | badName
  deriving DecidableEq, Repr

/-- The name in the entries of an element. -/
def nameOf? (entries : Record) : Option Value :=
  match entries.field? "name" with
  | some .null => none
  | found => found

/-- The page name that a text gives. -/
def usable? (s : String) : Option String :=
  if s = "" ∨ '/' ∈ s.toList ∨ '\\' ∈ s.toList ∨ s = "." ∨ s = ".." then none else some s

/-- The page name that a value gives: a text or a number that is usable as a file name. It is a fault if
the number cannot be written. -/
def pageName? : Value → Except Number.Fault (Option String)
  | .text s => .ok (usable? s)
  | .int n => (Value.int n).toText.map usable?
  | .float x => .ok (usable? x.text)
  | _ => .ok none

/-- The extension of a template as spelled in its name. -/
def spelledExt (template : Path) (ext : String) : String :=
  String.ofList (Name.suffix ext.length template.name.toList)

/-- The name of the directory for the pages of a partial. -/
def pageDir (template : Path) (ext : String) : String :=
  String.ofList ((Name.stem ext.length template.name.toList).drop 1)

/-- Where the page of the element named `name` stands. -/
def pagePlace (template : Path) (ext name : String) : Path :=
  template.parent / Path.ofString (pageDir template ext) /
    Path.ofString (name ++ spelledExt template ext)

/-- The page of an element, or why it has none. -/
def elementPage (template : Path) (ext : String) (item : Value) :
    Except Number.Fault (Except SkipReason Page) :=
  match item.record?, item.record?.bind nameOf? with
  | some entries, some v => (pageName? v).map fun
    | some name => .ok { template, place := some (pagePlace template ext name), data := entries }
    | none => .error .badName
  | _, _ => .ok (.error .noName)

/-- The pages of a partial, and the elements without one by index. -/
def partialPages (template : Path) (ext : String) (items : List Value) :
    Except Number.Fault (List Page × List (Nat × SkipReason)) := do
  let results ← items.mapM (elementPage template ext)
  return (results.filterMap (·.toOption),
    results.zipIdx.filterMap fun (r, i) => match r with
      | .error reason => some (i, reason)
      | .ok _ => none)

end Expansion

end StaticSite
