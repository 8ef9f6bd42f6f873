import StaticSite.Proofs.FileTree.MakeDirs
import StaticSite.Proofs.Site.Deposit
import StaticSite.Site.Render

/-!
# What a page is made of

A page is made of templates and data files. These lie outside of the output root, so what is read of them is
the same in all trees that differ in the output only (`near_read`, `templateSource_eq`), and so is the text of
a page (`near_attached`, `near_pageText`).
-/

namespace StaticSite

open FileTree (trail IsTree)
open Path (collapse)

namespace FileTree

/-- Why nothing is found at the end of a path. -/
def absence (t : FileTree) (p : Path) : OsCause :=
  if (trail [] p.segments).dropLast.any t.hasFile then .notDirectory else .notFound

/-- What reading a path that leads to its end gives is said by what stands there and, if that is nothing, by
the files on the way. -/
theorem read_of_leads {t : FileTree} {p : Path} (ht : IsTree t) (h : t.Leads p) :
    t.read p = match t.get? (collapse p.segments) with
      | some (.file content) => .ok content
      | some .dir => .error (.refused .isDirectory p)
      | none => .error (.refused (t.absence p) p) := by
  rw [read, locate_eq]
  cases hn : t.get? (collapse p.segments) with
  | some node =>
    rw [hurdle?_dropLast_of_leads ht h (by rw [hn]; rfl)]
    dsimp only
    rw [hn]
    cases node <;> rfl
  | none =>
    rcases t.hurdle?_cases (trail [] p.segments).dropLast with hh | hh | hh
    · have clear : (trail [] p.segments).dropLast.any t.hasFile = false := by
        rw [List.any_eq_false]
        intro l hl
        simp [hasFile, hurdle?_eq_none.1 hh l hl]
      rw [hh, absence, clear]
      simp [hn]
    · have missing : t.hurdle? (trail [] p.segments.dropLast) = some .notFound := by
        rwa [← dropLast_trail]
      obtain ⟨l, hl, hnone, hdir⟩ := exists_missing ht rfl missing
      rw [← dropLast_trail] at hl
      have onWay : ∀ m ∈ (trail [] p.segments).dropLast,
          m <+: collapse p.segments ∨ t.get? m = some .dir := fun m hm => (h m hm).imp_left And.left
      have clear : (trail [] p.segments).dropLast.any t.hasFile = false := by
        rw [List.any_eq_false]
        intro m hm
        simp [no_file_of_missing ht onWay hl hnone hdir m hm]
      rw [hh, absence, clear]
      rfl
    · obtain ⟨l, hl, hf⟩ := exists_file_of_notDirectory hh
      have blocked : (trail [] p.segments).dropLast.any t.hasFile = true :=
        List.any_eq_true.2 ⟨l, hl, hf⟩
      rw [hh, absence, blocked]
      rfl

/-- A path leads to its end if at most one segment of it, the first one below a directory that is there, leads
up. -/
theorem leads_of_home {t : FileTree} (ht : IsTree t) {home : List String} (hp : Path.Plain home)
    (hd : t.get? home = some .dir) {root : Root} (s : String) {rest : List String}
    (hr : Path.Plain rest) : t.Leads ⟨root, home ++ s :: rest⟩ := by
  intro l hl
  have above : ∀ more, more <+: home → t.get? more = some .dir := fun more hm => by
    by_cases he : more = home
    · rw [he, hd]
    · exact ht.dir_of_prefix hm he (by rw [hd]; rfl)
  have start : home.foldl Path.descend [] = home := Path.collapse_of_plain hp
  have goal : collapse (home ++ s :: rest) = Path.descend home s ++ rest := by
    rw [Path.collapse_append, Path.collapse_of_plain hp, List.foldl_cons, Path.foldl_descend_of_plain hr]
  rw [trail_append, start, List.dropLast_append_of_ne_nil (by simp [trail])] at hl
  change l <+: collapse (home ++ s :: rest) ∧ l ≠ collapse (home ++ s :: rest) ∨ _
  rw [goal]
  rcases List.mem_append.1 hl with hl | hl
  · obtain ⟨more, -, hm, rfl⟩ := (mem_trail_of_plain hp).1 hl
    exact .inr (above _ hm)
  · left
    by_cases hn : rest = []
    · subst hn; simp [trail] at hl
    rw [trail, List.dropLast_cons_of_ne_nil (by cases rest <;> simp_all [trail]), dropLast_trail] at hl
    rcases List.mem_cons.1 hl with rfl | hl
    · exact ⟨List.prefix_append _ _, by simpa using hn⟩
    · obtain ⟨more, -, hm, rfl⟩ := (mem_trail_of_plain hr.dropLast).1 hl
      obtain ⟨above, hne⟩ := (prefix_dropLast_iff hn).1 hm
      exact ⟨(List.prefix_append_right_inj _).2 above, fun he => hne (List.append_cancel_left he)⟩

end FileTree

namespace Site

/-! ## Trees that differ in the output -/

/-- A tree as it may be while the output of a site changes: outside of the output root, only directories on
the way to it were made. -/
structure Varied (site : Site) (t₀ t : FileTree) : Prop where
  isTree : IsTree t
  around : Around site t₀ t
  home : t.get? site.dir.segments = some .dir

/-- The path of the output root makes no detour through what is not there. -/
def Straight (site : Site) (t : FileTree) : Prop :=
  ∀ l ∈ site.outWay, l <+: site.outLocation ∨ t.get? l = some .dir

variable {site : Site} {exact : Prop} {t₀ t t' : FileTree}

theorem Around.refl (t : FileTree) : Around site t t := fun _ _ => .inl rfl

theorem Around.trans {t'' : FileTree} (h : Around site t t') (h' : Around site t' t'') :
    Around site t t'' := by
  intro l hl
  rcases h l hl with he | ⟨hw, hn, hd⟩
  · rcases h' l hl with he' | ⟨hw, hn, hd⟩
    · exact .inl (he'.trans he)
    · exact .inr ⟨hw, he ▸ hn, hd⟩
  · rcases h' l hl with he' | ⟨-, hn', -⟩
    · exact .inr ⟨hw, hn, he'.trans hd⟩
    · rw [hd] at hn'; cases hn'

theorem Around.file_iff (h : Around site t t') {l : Location} (hl : ¬ site.outLocation <+: l)
    (content : ByteArray) : t'.get? l = some (.file content) ↔ t.get? l = some (.file content) := by
  rcases h l hl with he | ⟨-, hn, hd⟩
  · rw [he]
  · rw [hn, hd]; simp

theorem Around.hasFile_eq (h : Around site t t') {l : Location} (hl : ¬ site.outLocation <+: l) :
    t'.hasFile l = t.hasFile l := by
  rw [Bool.eq_iff_iff, FileTree.hasFile_iff, FileTree.hasFile_iff]
  exact exists_congr fun content => h.file_iff hl content

/-- Where the path of the output root makes no detour, only directories above the output root are made. -/
theorem Around.get?_eq (h : Around site t₀ t) (hs : Straight site t₀) {l : Location}
    (hl : ¬ site.outLocation <+: l) (hl' : ¬ l <+: site.outLocation) : t.get? l = t₀.get? l := by
  rcases h l hl with he | ⟨hw, hn, -⟩
  · exact he
  · rcases hs l hw with hp | hd
    · exact absurd hp hl'
    · rw [hn] at hd; cases hd

/-- What is read outside of the output root is the same in all trees that differ in the output; it is exactly
the same if nothing on the way is at or below the output root and the path of that root makes no detour. -/
theorem near_read (h : Varied site t₀ t) (h' : Varied site t₀ t') {p : Path} (hp : t.Leads p)
    (hp' : t'.Leads p) (hl : ¬ site.outLocation <+: collapse p.segments)
    (hx : exact → Straight site t₀ ∧ ¬ collapse p.segments <+: site.outLocation ∧
      ∀ l ∈ (trail [] p.segments).dropLast, ¬ site.outLocation <+: l) :
    Near (fun _ _ => True) exact (t.read p) (t'.read p) := by
  rw [FileTree.read_of_leads h.isTree hp, FileTree.read_of_leads h'.isTree hp']
  have file := fun content =>
    (h'.around.file_iff hl content).trans (h.around.file_iff hl content).symm
  by_cases he : exact
  · obtain ⟨straight, above, onWay⟩ := hx he
    have absence : t'.absence p = t.absence p := by
      have same : (trail [] p.segments).dropLast.any t'.hasFile =
          (trail [] p.segments).dropLast.any t.hasFile := by
        rw [Bool.eq_iff_iff, List.any_eq_true, List.any_eq_true]
        refine exists_congr fun l => and_congr_right fun hm => ?_
        rw [h.around.hasFile_eq (onWay l hm), h'.around.hasFile_eq (onWay l hm)]
      rw [FileTree.absence, FileTree.absence, same]
    rw [h.around.get?_eq straight hl above, h'.around.get?_eq straight hl above, absence]
    exact .refl _
  · rcases hn : t.get? (collapse p.segments) with - | ⟨content | -⟩
    · rcases hn' : t'.get? (collapse p.segments) with - | ⟨content | -⟩
      · exact .inr ⟨he, _, _, rfl, rfl, trivial⟩
      · rw [(file content).1 hn'] at hn; cases hn
      · exact .inr ⟨he, _, _, rfl, rfl, trivial⟩
    · rw [(file content).2 hn]
      exact .refl _
    · rcases hn' : t'.get? (collapse p.segments) with - | ⟨content | -⟩
      · exact .inr ⟨he, _, _, rfl, rfl, trivial⟩
      · rw [(file content).1 hn'] at hn; cases hn
      · exact .inr ⟨he, _, _, rfl, rfl, trivial⟩

/-! ## Data -/

/-- The templates and the data of a template's pages lie outside of the output root, and it lies outside of
them. -/
structure IsApart (site : Site) (template : Path) : Prop where
  root : template.parts ≠ [] → Unnested site.outLocation (collapse (site.searchDir template).segments)
  data : ∀ resolved configured, site.bindings.find template = .file resolved configured →
    Unnested site.outLocation (Path.resolve site.dir (Path.ofString configured)).segments

/-- A project with its pages: a tree with the directory of the project in it, which is written without detours, and
pages whose paths were read from texts and whose sources are apart from the output root. -/
structure Project (site : Site) (t : FileTree) (pages : List Page) : Prop where
  isTree : IsTree t
  plain : Path.Plain site.dir.segments
  home : t.get? site.dir.segments = some .dir
  places : ∀ page ∈ pages, page.logical.IsRead
  apart : ∀ page ∈ pages, IsApart site page.template

theorem Project.varied {pages : List Page} (h : Project site t pages) : Varied site t t :=
  ⟨h.isTree, .refl t, h.home⟩

theorem Project.dots {pages : List Page} (h : Project site t pages) :
    ∀ page ∈ pages, "." ∉ page.logical.segments :=
  fun page hm hd => (h.places page hm "." hd).2.1 rfl

theorem near_load (h : Varied site t₀ t) (h' : Varied site t₀ t') (hx : exact → Straight site t₀)
    {configured : String}
    (hc : Unnested site.outLocation (Path.resolve site.dir (Path.ofString configured)).segments) :
    Near Data.Fault.Alike exact (Data.load t site.dir configured) (Data.load t' site.dir configured) := by
  have plain : Path.Plain (Path.resolve site.dir (Path.ofString configured)).segments :=
    Path.plain_collapse _
  unfold Data.load
  generalize Path.resolve site.dir (Path.ofString configured) = p at hc plain ⊢
  dsimp only
  split
  · exact .refl _
  · have goal := Path.collapse_of_plain plain
    have onWay : ∀ l ∈ (trail [] p.segments).dropLast, ¬ site.outLocation <+: l := fun l hl hp => by
      obtain ⟨more, -, hm, rfl⟩ := (FileTree.mem_trail_of_plain plain).1 (List.dropLast_subset _ hl)
      exact hc.1 (hp.trans hm)
    have read : Near (fun _ _ => True) exact (t.read p) (t'.read p) :=
      near_read h h' (FileTree.leads_of_plain plain) (FileTree.leads_of_plain plain)
        (by rw [goal]; exact hc.1) fun he => ⟨hx he, by rw [goal]; exact hc.2, onWay⟩
    have opened : Near (fun f f' => ∃ a b, f = Json.FileFault.os a ∧ f' = .os b) exact
        ((t.read p).mapError .os) ((t'.read p).mapError .os) :=
      read.mapError fun f f' _ => ⟨f, f', rfl, rfl⟩
    refine (opened.bind _).mapError fun f f' hf => ?_
    obtain ⟨a, b, rfl, rfl⟩ := hf
    exact .os configured p a b

theorem near_data (h : Varied site t₀ t) (h' : Varied site t₀ t') (hx : exact → Straight site t₀)
    {template : Path} (ha : IsApart site template) :
    Near Data.Fault.Alike exact (site.bindings.data t template) (site.bindings.data t' template) := by
  unfold Bindings.data
  cases hf : site.bindings.find template with
  | unbound => exact .refl _
  | object entries => exact .refl _
  | array items => exact .refl _
  | file resolved configured => exact (near_load h h' hx (ha.data resolved configured hf)).bind _

theorem near_array (h : Varied site t₀ t) (h' : Varied site t₀ t') (hx : exact → Straight site t₀)
    {template : Path} (ha : IsApart site template) :
    Near Data.Fault.Alike exact (site.bindings.array? t template) (site.bindings.array? t' template) := by
  unfold Bindings.array?
  cases hf : site.bindings.find template with
  | unbound => exact .refl _
  | object entries => exact .refl _
  | array items => exact .refl _
  | file resolved configured => exact (near_load h h' hx (ha.data resolved configured hf)).bind _

theorem near_attached (h : Varied site t₀ t) (h' : Varied site t₀ t') (hx : exact → Straight site t₀)
    {page : Page} (ha : IsApart site page.template) :
    Near Data.Fault.Alike exact (site.attached? t page) (site.attached? t' page) := by
  unfold attached?
  split
  · exact .refl _
  · exact (near_array h h' hx ha).bind _

theorem near_context (h : Varied site t₀ t) (h' : Varied site t₀ t') (hx : exact → Straight site t₀)
    {page : Page} (ha : IsApart site page.template) (lead : String) :
    Near Data.Fault.Alike exact (site.context t page lead) (site.context t' page lead) := by
  unfold context boundData
  split
  · exact .refl _
  · exact (near_data h h' hx ha).bind _

/-! ## Templates -/

/-- The directory of templates is the one of the project with one more segment. -/
theorem searchDir_eq {template : Path} (hr : template.IsRead) (hn : template.parts ≠ [])
    (hu : Unnested site.outLocation (collapse (site.searchDir template).segments)) :
    ∃ s, site.searchDir template = ⟨site.dir.root, site.dir.segments ++ [s]⟩ := by
  obtain ⟨root, segments⟩ := template
  cases root with
  | relative =>
    cases segments with
    | nil => exact absurd rfl hn
    | cons s segments =>
      refine ⟨s, ?_⟩
      have first : Path.rootDir ⟨.relative, s :: segments⟩ = s := rfl
      rw [searchDir, first, Path.ofString_segment (hr s List.mem_cons_self), Path.join_ofSegments]
  | slash =>
    have above : site.searchDir ⟨.slash, segments⟩ = ⟨.slash, []⟩ := by
      simp [searchDir, Path.rootDir, Path.parts, Path.isAbsolute, Root.text]; rfl
    exact absurd List.nil_prefix (above ▸ hu.2)
  | slashes =>
    have above : site.searchDir ⟨.slashes, segments⟩ = ⟨.slashes, []⟩ := by
      simp [searchDir, Path.rootDir, Path.parts, Path.isAbsolute, Root.text]; rfl
    exact absurd List.nil_prefix (above ▸ hu.2)

/-- A template is the same in all trees that differ in the output. -/
theorem templateSource_eq (h : Varied site t₀ t) (h' : Varied site t₀ t') (hd : Path.Plain site.dir.segments)
    {template : Path} (hr : template.IsRead) (hn : template.parts ≠ [])
    (hu : Unnested site.outLocation (collapse (site.searchDir template).segments)) :
    templateSource t' (site.searchDir template) = templateSource t (site.searchDir template) := by
  obtain ⟨s, hs⟩ := searchDir_eq hr hn hu
  funext name
  unfold templateSource
  dsimp only
  split
  · rfl
  · next up =>
    have plain : Path.Plain ((Text.pieces '/' name).filter fun s => s ≠ "" ∧ s ≠ ".") :=
      ⟨fun hm => by simpa using (List.mem_filter.1 hm).2, fun hm => up (List.mem_filter.1 hm).1⟩
    generalize (Text.pieces '/' name).filter (fun s => s ≠ "" ∧ s ≠ ".") = segs at plain ⊢
    have goal : collapse (site.searchDir template / Path.ofSegments segs).segments =
        collapse (site.searchDir template).segments ++ segs := by
      rw [Path.segments_div_ofSegments, Path.collapse_append_of_plain _ plain]
    have outside : ¬ site.outLocation <+: collapse (site.searchDir template / Path.ofSegments segs).segments := by
      rw [goal]
      intro hp
      rcases List.prefix_or_prefix_of_prefix hp (List.prefix_append _ segs) with hq | hq
      · exact hu.1 hq
      · exact hu.2 hq
    have written : site.searchDir template / Path.ofSegments segs =
        ⟨site.dir.root, site.dir.segments ++ s :: segs⟩ := by
      rw [Path.join_ofSegments, hs]
      simp
    have found : ∀ {u : FileTree}, Varied site t₀ u →
        u.node? (site.searchDir template / Path.ofSegments segs) =
          u.get? (collapse (site.searchDir template / Path.ofSegments segs).segments) := fun {u} hu => by
      refine FileTree.node?_of_leads hu.isTree ?_
      rw [written]
      exact FileTree.leads_of_home hu.isTree hd hu.home s plain
    have file := fun content =>
      (h'.around.file_iff outside content).trans (h.around.file_iff outside content).symm
    rw [found h, found h']
    generalize collapse (site.searchDir template / Path.ofSegments segs).segments = l at file ⊢
    rcases hl : t.get? l with - | ⟨content | -⟩
    · rcases hl' : t'.get? l with - | ⟨content | -⟩
      · rfl
      · rw [(file content).1 hl'] at hl; cases hl
      · rfl
    · rw [(file content).2 hl]
    · rcases hl' : t'.get? l with - | ⟨content | -⟩
      · rfl
      · rw [(file content).1 hl'] at hl; cases hl
      · rfl

theorem templateText_eq (h : Varied site t₀ t) (h' : Varied site t₀ t') (hd : Path.Plain site.dir.segments)
    {template : Path} (hr : template.IsRead) (ha : IsApart site template) (data : Record) :
    site.templateText t' template data = site.templateText t template data := by
  unfold templateText
  split
  · rfl
  · next hn => rw [templateSource_eq h h' hd hr (by simpa using hn) (ha.root (by simpa using hn))]

/-! ## Texts -/

/-- The text of a page, or why it has none, is the same in all trees that differ in the output. -/
theorem near_pageText (h : Varied site t₀ t) (h' : Varied site t₀ t') (hx : exact → Straight site t₀)
    (hd : Path.Plain site.dir.segments) {page : Page} (hr : page.template.IsRead)
    (ha : IsApart site page.template) (output : Path) :
    Near Fault.Alike exact (site.pageText t page output).2 (site.pageText t' page output).2 := by
  unfold pageText
  rcases near_context h h' hx ha (Path.publicPrefix site.processDir output site.out) with
    hc | ⟨he, f, f', hf, hf', alike⟩
  · rw [hc]
    cases site.context t page (Path.publicPrefix site.processDir output site.out) with
    | error fault => exact .refl _
    | ok data =>
      dsimp only
      rw [templateText_eq h h' hd hr ha data]
      exact .refl _
  · rw [hf, hf']
    exact .inr ⟨he, _, _, rfl, rfl, .data f f' alike⟩

end Site

end StaticSite
