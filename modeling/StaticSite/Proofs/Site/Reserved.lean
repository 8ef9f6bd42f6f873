import StaticSite.Proofs.FileTree.Abreast
import StaticSite.Proofs.Site.Lasting
import StaticSite.Proofs.Template.Variables
import StaticSite.Proofs.Value.Union

/-!
# Reserved keys

The reserved keys have their values whatever the data of a page and of its template say (`context_settles`). So data
that differ in no other key come to the same end: the same text or fault is told, and what is written is the same
(`reserved_keys_inert`). Only as a file of its own may such data tell more, if a template takes it in
(`data_file_embedded`).
-/

namespace StaticSite

open Path (collapse)

namespace Site

/-! ## The keys -/

/-- A key that has its value from the site and not from data. -/
def IsReserved (k : Value) : Prop := k = .text publicPathKey ∨ k = .text globalKey ∨ k = .text nowKey

/-- The records have the same value at every key that is not reserved. -/
def OffReserved (r s : Record) : Prop := ∀ k, k.key?.isSome → ¬ IsReserved k → s.get? k = r.get? k

theorem OffReserved.refl (r : Record) : OffReserved r r := fun _ _ _ => rfl

variable {site site' : Site} {t t' u u' : FileTree} {page page' : Page} {r s : Record} {k v : Value} {publicPath : String}

theorem key?_eq_text {name : String} : Value.key? (.text name) = k.key? ↔ k = .text name := by
  cases k <;> simp [Value.key?, eq_comm]

theorem get?_set_text (name : String) : (r.set (.text name) v).get? (.text name) = some v := by
  rw [Record.get?_set rfl, if_pos rfl]

theorem get?_set_other {name : String} (hk : k.key?.isSome) (other : k ≠ .text name) :
    (r.set (.text name) v).get? k = r.get? k := by
  rw [Record.get?_set hk, if_neg (mt key?_eq_text.1 other)]

/-! ### Reserved keys have their values -/

theorem field?_withReserved (site : Site) (publicPath : String) (r : Record) :
    (site.withReserved publicPath r).field? publicPathKey = some (.text publicPath) ∧
      (site.withReserved publicPath r).field? globalKey = some (.map site.options.globalData) ∧
      (site.withReserved publicPath r).field? nowKey = some (.moment site.now) := by
  have apart : ∀ {a b : String}, a ≠ b → Value.text a ≠ .text b := fun ne same => ne (Value.text.inj same)
  simp only [Record.field?, withReserved]
  refine ⟨?_, ?_, get?_set_text _⟩
  · rw [get?_set_other rfl (apart (by decide)), get?_set_other rfl (apart (by decide)), get?_set_text]
  · rw [get?_set_other rfl (apart (by decide)), get?_set_text]

theorem get?_withReserved_of_not (hk : k.key?.isSome) (other : ¬ IsReserved k) :
    (site.withReserved publicPath r).get? k = r.get? k := by
  simp only [IsReserved, not_or] at other
  rw [withReserved, get?_set_other hk other.2.2, get?_set_other hk other.2.1, get?_set_other hk other.1]

/-- Records that differ in reserved keys alone are alike with the reserved keys. -/
theorem OffReserved.withReserved (h : OffReserved r s) (hk : k.key?.isSome) :
    (site.withReserved publicPath s).get? k = (site.withReserved publicPath r).get? k := by
  obtain ⟨lead, global, now⟩ := site.field?_withReserved publicPath r
  obtain ⟨lead', global', now'⟩ := site.field?_withReserved publicPath s
  by_cases reserved : IsReserved k
  · rcases reserved with rfl | rfl | rfl
    · exact lead'.trans lead.symm
    · exact global'.trans global.symm
    · exact now'.trans now.symm
  · rw [get?_withReserved_of_not hk reserved, get?_withReserved_of_not hk reserved, h k hk reserved]

theorem OffReserved.update (h : OffReserved r s) {below below' : Record} (hb : OffReserved below below')
    (hr : r.Distinct) (hs : s.Distinct) : OffReserved (below.update r) (below'.update s) := fun k hk other => by
  rw [Record.get?_update hr hk, Record.get?_update hs hk, h k hk other, hb k hk other]

theorem OffReserved.set (h : OffReserved r s) (name : String) (v : Value) :
    OffReserved (r.set (.text name) v) (s.set (.text name) v) := fun k hk other => by
  by_cases here : k = .text name
  · rw [here, get?_set_text, get?_set_text]
  · rw [get?_set_other hk here, get?_set_other hk here, h k hk other]

theorem offReserved_set {name : String} (reserved : IsReserved (.text name)) (r : Record) (v : Value) :
    OffReserved r (r.set (.text name) v) := fun k hk other => by
  exact get?_set_other hk fun same => other (same ▸ reserved)

/-! ## The data of a page -/

/-- What a page is rendered with, if `bound` is bound to its template. -/
structure Settles (site : Site) (publicPath : String) (page : Page) (bound data : Record) : Prop where
  other : ∀ k, k.key?.isSome → ¬ IsReserved k → data.get? k = (page.data.get? k <|> bound.get? k)
  publicPath : data.field? publicPathKey = some (.text publicPath)
  global : data.field? globalKey = some (.map site.options.globalData)
  now : data.field? nowKey = some (.moment site.now)

theorem settles_withReserved (map : page.data.Distinct) (bound : Record) :
    Settles site publicPath page bound (site.withReserved publicPath (bound.update page.data)) where
  other k hk other := by rw [get?_withReserved_of_not hk other, Record.get?_update map hk]
  publicPath := (site.field?_withReserved _ _).1
  global := (site.field?_withReserved _ _).2.1
  now := (site.field?_withReserved _ _).2.2

theorem context_settles (map : page.data.Distinct) (site : Site) (t : FileTree) (publicPath : String) :
    (page.template.isPartial = true →
      ∃ data, site.context t page publicPath = .ok data ∧ Settles site publicPath page [] data) ∧
    (page.template.isPartial = false →
      (∀ fault, site.bindings.data t page.template = .error fault → site.context t page publicPath = .error fault) ∧
      ∀ bound, site.bindings.data t page.template = .ok bound →
        ∃ data, site.context t page publicPath = .ok data ∧ Settles site publicPath page bound data) := by
  have of_bound : ∀ {bound}, site.boundData t page = .ok bound →
      ∃ data, site.context t page publicPath = .ok data ∧ Settles site publicPath page bound data := fun hb =>
    ⟨_, by rw [context, hb]; rfl, settles_withReserved map _⟩
  refine ⟨fun isPartial => of_bound (by rw [boundData, if_pos isPartial]), fun ordinary => ?_⟩
  have own : site.boundData t page = site.bindings.data t page.template := by rw [boundData, if_neg (by simp [ordinary])]
  exact ⟨fun fault refused => by rw [context, own, refused]; rfl, fun bound found => of_bound (own.trans found)⟩

/-! ## Two runs -/

/-- The template is bound to this object, inline or as a file. -/
def BindsObject (b : Bindings) (t : FileTree) (template : Path) (r : Record) : Prop :=
  b.find template = .object r ∨
    ∃ resolved configured, b.find template = .file resolved configured ∧ Data.load t b.cwd configured = .ok (.map r)

/-- The template is bound alike, apart from the reserved keys of an object. -/
inductive BoundAlike (b b' : Bindings) (t t' : FileTree) (template : Path) : Prop
  | same (binding : b'.find template = b.find template) (loaded : ∀ resolved configured,
      b.find template = .file resolved configured → Data.load t' b'.cwd configured = Data.load t b.cwd configured)
  | objects {r r' : Record} (bound : BindsObject b t template r) (bound' : BindsObject b' t' template r')
      (alike : OffReserved r r')

/-- Two runs for one page that differ in the reserved keys of the page's data and of the object that is bound to its
template, in the moment if the page does not tell it, and in files that no template of the page is read from. -/
structure RunsAlike (site site' : Site) (t t' : FileTree) (page page' : Page) : Prop where
  options : site'.options = site.options
  dir : site'.dir = site.dir
  processDir : site'.processDir = site.processDir
  template : page'.template = page.template
  place : page'.place = page.place
  maps : page.data.IsMap ∧ page'.data.IsMap
  data : OffReserved page.data page'.data
  bound : BoundAlike site.bindings site'.bindings t t' page.template
  shape : t.SameShape t'
  unread : ∀ data, site.templateText t' page.template data = site.templateText t page.template data
  timeless : ∀ output, page.output site.out site.ext = .ok output →
    (site.asOf site'.now).pageText t page output = site.pageText t page output

section
variable {b b' : Bindings} {template : Path}

theorem BindsObject.data (h : BindsObject b t template r) : b.data t template = .ok r := by
  rw [Bindings.data]
  rcases h with inline | ⟨resolved, configured, file, loaded⟩
  · rw [inline]
  · rw [file]
    dsimp only
    rw [Data.loadRecord, loaded]
    rfl

theorem BindsObject.array? (h : BindsObject b t template r) : b.array? t template = .ok none := by
  rw [Bindings.array?]
  rcases h with inline | ⟨resolved, configured, file, loaded⟩
  · rw [inline]
  · rw [file]
    dsimp only
    rw [loaded]
    rfl

theorem BoundAlike.data (h : BoundAlike b b' t t' template) (dir : b'.cwd = b.cwd) :
    (∃ fault, b.data t template = .error fault ∧ b'.data t' template = .error fault) ∨
      ∃ r r', b.data t template = .ok r ∧ b'.data t' template = .ok r' ∧ OffReserved r r' := by
  cases h with
  | same binding loaded =>
    have same : b'.data t' template = b.data t template := by
      rw [Bindings.data, Bindings.data, binding]
      split
      · rfl
      · rfl
      · rfl
      · next resolved configured file =>
        rw [Data.loadRecord, Data.loadRecord, loaded resolved configured file, dir]
    cases found : b.data t template with
    | error fault => exact .inl ⟨fault, rfl, same.trans found⟩
    | ok r => exact .inr ⟨r, r, rfl, same.trans found, .refl r⟩
  | objects bound bound' alike => exact .inr ⟨_, _, bound.data, bound'.data, alike⟩

theorem BoundAlike.array? (h : BoundAlike b b' t t' template) : b'.array? t' template = b.array? t template ∧
    ∀ items, b.array? t template = .ok (some items) → b'.arrayKey template = b.arrayKey template := by
  cases h with
  | same binding loaded =>
    refine ⟨?_, fun _ _ => by rw [Bindings.arrayKey, Bindings.arrayKey, binding]⟩
    rw [Bindings.array?, Bindings.array?, binding]
    split
    · rfl
    · next resolved configured file => rw [loaded resolved configured file]
    · rfl
  | objects bound bound' alike =>
    rw [bound.array?, bound'.array?]
    exact ⟨rfl, fun items found => by cases found⟩

end

/-! ## Texts -/

/-- Data in which every name has the same value give a template the same output. -/
theorem templateText_agree (h : ∀ name, s.field? name = r.field? name) (site : Site) (t : FileTree) (template : Path) :
    site.templateText t template s = site.templateText t template r := by
  rw [templateText, templateText, Template.render_agree h]

/-- Templates are read from no other place than their root directory. -/
theorem templateText_elsewhere (shape : t.SameShape t') (template : Path)
    (elsewhere : ∀ l, collapse (site.searchDir template).segments <+: l → t'.get? l = t.get? l) (data : Record) :
    site.templateText t' template data = site.templateText t template data := by
  have sources : templateSource t' (site.searchDir template) = templateSource t (site.searchDir template) := by
    funext name
    unfold templateSource
    dsimp only
    split
    · rfl
    · next down =>
      have plain : Path.Plain ((Text.pieces '/' name).filter fun s => s ≠ "" ∧ s ≠ ".") :=
        ⟨by simp, fun hm => down (List.mem_of_mem_filter hm)⟩
      generalize (Text.pieces '/' name).filter (fun s => s ≠ "" ∧ s ≠ ".") = segs at plain ⊢
      have place : (t'.node? (site.searchDir template / Path.ofSegments segs)) =
          t.node? (site.searchDir template / Path.ofSegments segs) := by
        rw [FileTree.node?, FileTree.node?, shape.locate_eq, FileTree.locate_eq, Path.segments_div_ofSegments,
          Path.collapse_append_of_plain _ plain]
        cases t.hurdle? (FileTree.trail [] ((site.searchDir template).segments ++ segs)).dropLast with
        | some cause => rfl
        | none => exact elsewhere _ (List.prefix_append _ _)
      rw [place]
  rw [templateText, templateText, sources]

namespace RunsAlike

variable (h : RunsAlike site site' t t' page page')
include h

theorem boundData : (∃ fault, site.boundData t page = .error fault ∧ site'.boundData t' page' = .error fault) ∨
    ∃ r r', site.boundData t page = .ok r ∧ site'.boundData t' page' = .ok r' ∧ OffReserved r r' := by
  rw [Site.boundData, Site.boundData, h.template]
  split
  · exact .inr ⟨[], [], rfl, rfl, .refl []⟩
  · exact h.bound.data h.dir

theorem withReserved (r : Record) :
    site'.withReserved publicPath r = (site.asOf site'.now).withReserved publicPath r := by
  rw [Site.withReserved, Site.withReserved, h.options]
  rfl

/-- At the moment of the other run a page has the same data by every name. -/
theorem context : (∃ fault, (site.asOf site'.now).context t page publicPath = .error fault ∧
      site'.context t' page' publicPath = .error fault) ∨
    ∃ data data' : Record, (site.asOf site'.now).context t page publicPath = .ok data ∧
      site'.context t' page' publicPath = .ok data' ∧ ∀ name, data'.field? name = data.field? name := by
  have own : (site.asOf site'.now).boundData t page = site.boundData t page := rfl
  rw [Site.context, Site.context, own]
  rcases h.boundData with ⟨fault, found, found'⟩ | ⟨r, r', found, found', alike⟩
  · exact .inl ⟨fault, by rw [found]; rfl, by rw [found']; rfl⟩
  · refine .inr ⟨_, _, by rw [found]; rfl, by rw [found']; rfl, fun name => ?_⟩
    rw [h.withReserved]
    exact (h.data.update alike h.maps.1.distinct h.maps.2.distinct).withReserved rfl

theorem templateText (data : Record) : site'.templateText t' page'.template data =
    site.templateText t page.template data := by
  have dir : site'.searchDir page.template = site.searchDir page.template := by
    rw [searchDir, searchDir, h.dir]
  rw [← h.unread data, h.template, Site.templateText, Site.templateText, h.options, dir]

theorem hookedText (html : String) : site'.hookedText page' html = site.hookedText page html := by
  rw [Site.hookedText, Site.hookedText, h.options, h.template, out, out, h.options]

theorem output : page'.output site'.out site'.ext = page.output site.out site.ext := by
  rw [Page.output, Page.output, Page.logical, Page.logical, h.place, h.template, out, out, ext, ext, h.options]

theorem pageText {output : Path} (ho : page.output site.out site.ext = .ok output) :
    site'.pageText t' page' output = site.pageText t page output := by
  let mid := site.asOf site'.now
  let lead := Path.publicPrefix site.processDir output site.out
  have same : Path.publicPrefix site'.processDir output site'.out = lead := by rw [h.processDir, out, h.options]; rfl
  have own : Path.publicPrefix mid.processDir output mid.out = lead := rfl
  have texts : ∀ data, mid.templateText t page.template data = site.templateText t page.template data := fun _ => rfl
  have hooked : ∀ html, mid.hookedText page html = site.hookedText page html := fun _ => rfl
  rw [← h.timeless output ho]
  unfold Site.pageText
  rw [same, own]
  rcases @context _ _ _ _ _ _ lead h with ⟨fault, found, found'⟩ | ⟨data, data', found, found', alike⟩
  · rw [found, found']
  · rw [found, found']
    dsimp only
    rw [h.templateText, templateText_agree alike, texts, h.template]
    split
    · rfl
    · rw [h.hookedText, hooked]

/-- The array of a partial joins the data of its page, or the page goes on to be rendered. -/
theorem attached? : (∃ fault, site.attached? t page = .error fault ∧ site'.attached? t' page' = .error fault) ∨
    site.attached? t page = .ok none ∧ site'.attached? t' page' = .ok none ∨
    ∃ data data', site.attached? t page = .ok (some { page with data }) ∧
      site'.attached? t' page' = .ok (some { page' with data := data' }) ∧ OffReserved data data' := by
  obtain ⟨array, key⟩ := h.bound.array?
  rw [Site.attached?, Site.attached?, h.place, h.template, array]
  split
  · exact .inr (.inl ⟨rfl, rfl⟩)
  · cases found : site.bindings.array? t page.template with
    | error fault => exact .inl ⟨fault, rfl, rfl⟩
    | ok items? =>
      cases items? with
      | none => exact .inr (.inl ⟨rfl, rfl⟩)
      | some items =>
        refine .inr (.inr ⟨_, _, rfl, rfl, ?_⟩)
        rw [key items found]
        exact h.data.set _ _

end RunsAlike

/-! ## Written files -/

open FileTree (Abreast AbreastIn)

theorem abreast_makeRoom (h : Abreast t t' u u') (target named : Path) :
    AbreastIn t t' (makeRoom u target named) (makeRoom u' target named) := by
  rw [makeRoom, makeRoom]
  split
  · exact ⟨h, rfl⟩
  · have made := FileTree.abreast_makeDirs h target.parent
    exact ⟨made.trees, congrArg (Except.mapError (Fault.write named)) made.result⟩

theorem abreast_writeText (h : Abreast t t' u u') (target : Path) (text : String) :
    AbreastIn t t' (writeText u target text) (writeText u' target text) := by
  have room := abreast_makeRoom h target target
  rw [writeText_directly, writeText_directly]
  generalize makeRoom u target target = made at room ⊢
  generalize makeRoom u' target target = made' at room ⊢
  obtain ⟨v, r⟩ := made
  obtain ⟨v', r'⟩ := made'
  obtain rfl : r' = r := room.result
  cases r' with
  | error fault => exact room
  | ok _ =>
    dsimp only
    cases textBytes target text with
    | error fault => exact ⟨room.trees, rfl⟩
    | ok bytes =>
      have put := FileTree.abreast_putFile room.trees target bytes
      exact ⟨put.trees, congrArg (Except.mapError (Fault.write target)) put.result⟩

/-- What a page becomes is alike, apart from reserved keys in its data. -/
structure Rendered.Alike (a b : Rendered) : Prop where
  html : b.html = a.html
  template : b.page.template = a.page.template
  place : b.page.place = a.page.place
  data : OffReserved a.page.data b.page.data

/-- Two runs of a step told the same, came to the same end and wrote the same. -/
structure StepsAlike (t t' : FileTree) (step step' : Step Rendered) : Prop where
  reports : step'.reports = step.reports
  result : Both Rendered.Alike step.result step'.result
  trees : Abreast t t' step.tree step'.tree

namespace RunsAlike

variable (h : RunsAlike site site' t t' page page')
include h

theorem rendered (html? : Option String) : Rendered.Alike ⟨page, html?⟩ ⟨page', html?⟩ :=
  ⟨rfl, h.template, h.place, h.data⟩

theorem savePage (output : Path) (html : String) :
    StepsAlike t t' (site.savePage t page output html) (site'.savePage t' page' output html) := by
  have written := abreast_writeText (.start h.shape) (site.dir / output) html
  rw [Site.savePage, Site.savePage, h.options, h.dir]
  split
  · exact ⟨rfl, .inr ⟨_, _, rfl, rfl, h.rendered _⟩, .start h.shape⟩
  · generalize writeText t (site.dir / output) html = w at written ⊢
    generalize writeText t' (site.dir / output) html = w' at written ⊢
    obtain ⟨v, r⟩ := w
    obtain ⟨v', r'⟩ := w'
    obtain rfl : r' = r := written.result
    cases r' with
    | error fault => exact ⟨rfl, .inl ⟨fault, rfl, rfl⟩, written.trees⟩
    | ok _ => exact ⟨rfl, .inr ⟨_, _, rfl, rfl, h.rendered _⟩, written.trees⟩

theorem renderPage : StepsAlike t t' (site.renderPage t page) (site'.renderPage t' page') := by
  have start : Abreast t t' t t' := .start h.shape
  rw [Site.renderPage, Site.renderPage, h.output]
  cases ho : page.output site.out site.ext with
  | error fault => exact ⟨rfl, .inl ⟨_, rfl, rfl⟩, start⟩
  | ok output =>
    dsimp only
    rcases h.attached? with ⟨fault, found, found'⟩ | ⟨found, found'⟩ | ⟨data, data', found, found', alike⟩
    · rw [found, found']
      exact ⟨rfl, .inl ⟨_, rfl, rfl⟩, start⟩
    · rw [found, found', h.pageText ho]
      dsimp only
      obtain ⟨calls, fault | html⟩ := site.pageText t page output
      · exact ⟨rfl, .inl ⟨_, rfl, rfl⟩, start⟩
      · have saved := h.savePage output html
        exact ⟨congrArg (calls ++ ·) saved.reports, saved.result, saved.trees⟩
    · rw [found, found']
      exact ⟨rfl, .inr ⟨_, _, rfl, rfl, rfl, h.template, h.place, alike⟩, start⟩

end RunsAlike

/-- The reserved keys have their values whatever data there are, and two runs whose data differ in them alone tell the
same, have the same text or fault and write the same: each place holds the same after both or is as it was. -/
theorem reserved_keys_inert (map : page.data.IsMap) (site : Site) (t : FileTree) :
    (∀ publicPath,
      (page.template.isPartial = true →
        ∃ data, site.context t page publicPath = .ok data ∧ Settles site publicPath page [] data) ∧
      (page.template.isPartial = false →
        (∀ fault, site.bindings.data t page.template = .error fault → site.context t page publicPath = .error fault) ∧
        ∀ bound, site.bindings.data t page.template = .ok bound →
          ∃ data, site.context t page publicPath = .ok data ∧ Settles site publicPath page bound data)) ∧
    ∀ site' t' page', RunsAlike site site' t t' page page' →
      let step := site.renderPage t page
      let step' := site'.renderPage t' page'
      step'.reports = step.reports ∧ Both Rendered.Alike step.result step'.result ∧
        ∀ l, step'.tree.get? l = step.tree.get? l ∨
          step.tree.get? l = t.get? l ∧ step'.tree.get? l = t'.get? l := by
  refine ⟨context_settles map.distinct site t, fun site' t' page' h => ?_⟩
  obtain ⟨reports, result, trees⟩ := h.renderPage
  exact ⟨reports, result, trees.2⟩

/-! ### Data files with and without a reserved key -/

/-- A project with a template and a data file. -/
def datedTree (template : String) (file : Location) (json : String) : FileTree := ⟨[(["p"], .dir), (["p", "site"], .dir),
  (["p", "site", "a.j2"], .file template.toUTF8), (file, .file json.toUTF8)]⟩

/-- A site in it that binds the template to the data file. -/
def datedSite (file : Location) (configured : String) (now : Moment) : Site := { Site.ofDir ⟨.slash, ["p"]⟩ now with
  bindings := ⟨⟨.slash, ["p"]⟩, [(⟨.slash, ["p", "site", "a.j2"]⟩, .file ⟨.slash, file⟩ configured)]⟩ }

def datedPage (data : Record) : Page := { template := ⟨.relative, ["site", "a.j2"]⟩, data }

def titleTemplate : String := "\x7b\x7b title \x7d\x7d"

def plainJson : String := "\x7b\x7d"

def reservedJson : String := "\x7b\"GLOBAL\": \"g\"\x7d"

def reservedRecord : Record := [(.text globalKey, .text "g")]

theorem datedTree_elsewhere {template json json' : String} {file l : Location} (h : l ≠ file) :
    (datedTree template file json').get? l = (datedTree template file json).get? l := by
  have other : (l == file) = false := beq_false_of_ne h
  simp [FileTree.get?, datedTree, List.lookup_cons, other]

theorem datedTree_sameShape {file : Location} (new : file ∉ [[], ["p"], ["p", "site"], ["p", "site", "a.j2"]])
    (template json json' : String) : (datedTree template file json).SameShape (datedTree template file json') := fun l => by
  by_cases here : l = file
  · subst here
    have other : ∀ place ∈ [[], ["p"], ["p", "site"], ["p", "site", "a.j2"]], (l == place) = false := fun place hp =>
      beq_false_of_ne fun same => new (same ▸ hp)
    simp only [List.forall_mem_cons] at other
    have holds : ∀ json, (datedTree template l json).hasFile l = true := fun json => by
      simp [FileTree.hasFile, FileTree.get?, datedTree, List.lookup_cons, beq_eq_false_iff_ne.1 other.1, other]
    exact .inr ⟨holds _, holds _⟩
  · exact .inl (datedTree_elsewhere here)

section
variable {x : Except Data.Fault Value}

theorem eq_text {s : String} (h : v.eq (.text s) = true) : v = .text s := by
  cases v <;> simp_all [Value.eq, Value.numeric?]

theorem exists_record (h : x.toOption.map (Value.eq · (.map r)) = some true) :
    ∃ r', x = .ok (.map r') ∧ r'.length = r.length ∧ Value.eqEntries r' r = true := by
  obtain ⟨v, loaded, equal⟩ := Option.map_eq_some_iff.1 h
  rw [toOption_eq_some_iff.1 loaded]
  cases v <;> simp_all [Value.eq, Value.numeric?]

theorem eq_plain (h : x.toOption.map (Value.eq · (.map [])) = some true) : x = .ok (.map []) := by
  obtain ⟨r, rfl, none, -⟩ := exists_record h
  rw [List.length_eq_zero_iff.1 none]

theorem eq_reserved (h : x.toOption.map (Value.eq · (.map reservedRecord)) = some true) :
    x = .ok (.map reservedRecord) := by
  obtain ⟨r, rfl, one, same⟩ := exists_record h
  obtain ⟨⟨k, w⟩, rfl⟩ := List.length_eq_one_iff.1 one
  unfold reservedRecord at same ⊢
  cases key : k.eq (.text globalKey) with
  | false => simp [Value.eqEntries, key] at same
  | true =>
    have value : w.eq (.text "g") = true := by simpa [Value.eqEntries, key] using same
    rw [eq_text key, eq_text value]

end

/-- A reserved key in the page's data, one in the data file and another moment change nothing. -/
theorem reserved_keys_inert_dated :
    let site := datedSite ["p", "d.json"] "d.json" ⟨⟨2024, 1, 1⟩, 0, 0, 0, 0, none⟩
    let site' := datedSite ["p", "d.json"] "d.json" ⟨⟨2025, 1, 1⟩, 0, 0, 0, 0, none⟩
    let t := datedTree titleTemplate ["p", "d.json"] plainJson
    let t' := datedTree titleTemplate ["p", "d.json"] reservedJson
    let page := datedPage [(.text "title", .text "t")]
    let page' := datedPage [(.text "title", .text "t"), (.text nowKey, .int 1)]
    page.data.IsMap ∧ RunsAlike site site' t t' page page' ∧
      Both Rendered.Alike (site.renderPage t page).result (site'.renderPage t' page').result := by
  intro site site' t t' page page'
  have map : page.data.IsMap := by decide +kernel
  have set : Record.set (.text nowKey) (.int 1) page.data = page'.data := by
    have apart : (Value.text "title").sameKey (.text nowKey) = false := by decide +kernel
    simp [Record.set, page, page', datedPage, apart]
  have shape : t.SameShape t' := datedTree_sameShape (by decide) _ _ _
  have runs : RunsAlike site site' t t' page page' :=
    { options := rfl
      dir := rfl
      processDir := rfl
      template := rfl
      place := rfl
      maps := ⟨map, by decide +kernel⟩
      data := set ▸ offReserved_set (.inr (.inr rfl)) page.data (.int 1)
      bound := .objects (.inr ⟨_, _, rfl, eq_plain (by decide +kernel)⟩)
        (.inr ⟨_, _, rfl, eq_reserved (by decide +kernel)⟩) (offReserved_set (.inr (.inl rfl)) [] (.text "g"))
      shape
      unread := templateText_elsewhere shape _ fun l below => datedTree_elsewhere fun file => by
        have dir : Path.collapse (site.searchDir page.template).segments = ["p", "site"] := by decide +kernel
        exact absurd below (by rw [dir, file]; decide)
      timeless := fun output ho => by
        have own : page.output site.out site.ext = .ok (.ofString "dist/a.html") := by decide +kernel
        cases ho.symm.trans own
        have silent : ((site.asOf site'.now).pageText t page (.ofString "dist/a.html")).1.isEmpty = true ∧
            (site.pageText t page (.ofString "dist/a.html")).1.isEmpty = true := by decide +kernel
        refine Prod.ext ?_ (by decide +kernel)
        rw [List.isEmpty_iff.1 silent.1, List.isEmpty_iff.1 silent.2] }
  exact ⟨map, runs, ((reserved_keys_inert map site t).2 site' t' page' runs).2.1⟩

/-- A reserved key in a data file shows where a template embeds the file itself. -/
theorem data_file_embedded :
    let site := datedSite ["p", "site", "d.json"] "site/d.json" ⟨⟨2024, 1, 1⟩, 0, 0, 0, 0, none⟩
    let t := datedTree "\x7b% include 'd.json' %\x7d" ["p", "site", "d.json"] plainJson
    let t' := datedTree "\x7b% include 'd.json' %\x7d" ["p", "site", "d.json"] reservedJson
    t.SameShape t' ∧ BoundAlike site.bindings site.bindings t t' (datedPage []).template ∧
      (site.renderPage t (datedPage [])).result.toOption.map Rendered.html = some (some plainJson) ∧
      (site.renderPage t' (datedPage [])).result.toOption.map Rendered.html = some (some reservedJson) := by
  intro site t t'
  exact ⟨datedTree_sameShape (by decide) _ _ _, .objects (.inr ⟨_, _, rfl, eq_plain (by decide +kernel)⟩)
    (.inr ⟨_, _, rfl, eq_reserved (by decide +kernel)⟩) (offReserved_set (.inr (.inl rfl)) [] (.text "g")),
    by decide +kernel, by decide +kernel⟩

end Site

end StaticSite
