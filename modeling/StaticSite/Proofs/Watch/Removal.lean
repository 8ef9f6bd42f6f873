import StaticSite.Proofs.Site.AnyProcess
import StaticSite.Proofs.Site.Delivering

/-!
# Removals

What is deleted when something is gone is what stands at its output path (`get?_deleteOutput`), whoever put it there. So
with a directory go the outputs of all that lies below it, and those of other sources that go to the same directory of
the output (`unlinkDir_clears`). With a template goes the file at its own output path, and that is the file of all its
pages only if it is no partial (`unlink_removes_pages_iff`).
-/

namespace StaticSite

open FileTree (trail IsTree)
open Path (collapse)

namespace FileTree

variable {t : FileTree} {p : Path}

theorem isThere_iff : t.isThere p = true ↔ (∀ l ∈ (trail [] p.segments).dropLast, t.get? l = some .dir) ∧
    (t.get? (collapse p.segments)).isSome := by
  rw [isThere, node?, locate_eq, ← hurdle?_eq_none]
  cases t.hurdle? (trail [] p.segments).dropLast <;> simp

theorem isThere_eq (t : FileTree) (p : Path) : t.isThere p = (t.isDir p || t.isFile p) := by
  unfold isThere isDir isFile
  rcases t.node? p with - | ⟨content | -⟩ <;> rfl

theorem isFile_iff : t.isFile p = true ↔ (∀ l ∈ (trail [] p.segments).dropLast, t.get? l = some .dir) ∧
    t.hasFile (collapse p.segments) = true := by
  rw [isFile, node?, locate_eq, ← hurdle?_eq_none, hasFile]
  cases t.hurdle? (trail [] p.segments).dropLast with
  | some cause => simp
  | none =>
    dsimp only
    generalize t.get? (collapse p.segments) = node
    rcases node with - | ⟨content | -⟩ <;> simp

theorem isFile_of_read {content : ByteArray} (h : t.read p = .ok content) : t.isFile p = true :=
  isFile_iff.2 ⟨hurdle?_eq_none.1 (hurdle?_of_read h), hasFile_iff.2 ⟨content, (located_of_read h).2⟩⟩

theorem exists_read_of_isFile (h : t.isFile p = true) : ∃ content, t.read p = .ok content := by
  obtain ⟨way, file⟩ := isFile_iff.1 h
  obtain ⟨content, stands⟩ := hasFile_iff.1 file
  exact ⟨content, read_of_dirs way stands⟩

theorem Grows.isFile {t' : FileTree} (h : Grows t t') (hf : t.isFile p = true) : t'.isFile p = true := by
  obtain ⟨way, file⟩ := isFile_iff.1 hf
  exact isFile_iff.2 ⟨fun l hl => h.dir (way l hl), h.file file⟩

/-- What is there stands in a directory, at the end of any part of its path. -/
theorem isDir_of_isThere {more : List String} (nonempty : more ≠ []) {root root' : Root} {segs : List String}
    (h : t.isThere ⟨root, segs ++ more⟩ = true) : t.isDir ⟨root', segs⟩ = true := by
  obtain ⟨way, -⟩ := isThere_iff.1 h
  rw [dropLast_trail, List.dropLast_append_of_ne_nil nonempty, trail_append] at way
  have front : ∀ l ∈ trail [] segs, t.get? l = some .dir := fun l hl => way l (List.mem_append_left _ hl)
  refine isDir_iff.2 ⟨fun l hl => front l (List.dropLast_subset _ hl), ?_⟩
  by_cases empty : segs = []
  · rw [empty]; rfl
  · exact front _ (foldl_mem_trail [] empty)

end FileTree

namespace Site

variable {site : Site} {t u : FileTree} {pages : List Page} {p q o : Path} {whole : Bool}

/-! ## What is deleted -/

/-- What stands at the output is deleted: a file, or a directory if `whole` says so. -/
def deletes (site : Site) (t : FileTree) (o : Path) (whole : Bool) : Bool :=
  whole && t.isDir (site.dir / o) || t.isFile (site.dir / o)

theorem deleteOutput_eq (ho : p.output site.out site.ext = .ok o) (t : FileTree) (whole : Bool) :
    site.deleteOutput t p whole = if site.deletes t o whole then ⟨t.remove (site.dir / o), [.deleted o], .ok ()⟩
      else .still t [] (.ok ()) := by
  rw [deleteOutput, ho]
  rfl

theorem located_of_deletes (h : site.deletes t o whole = true) :
    t.locate (site.dir / o) = .ok (collapse (site.dir / o).segments) := by
  have isThere : t.isThere (site.dir / o) = true := by
    rw [FileTree.isThere_eq, Bool.or_eq_true]
    exact (Bool.or_eq_true_iff.1 h).imp_left fun dir => (Bool.and_eq_true_iff.1 dir).2
  rw [FileTree.locate_eq, FileTree.hurdle?_eq_none.2 (FileTree.isThere_iff.1 isThere).1]

/-- A deletion takes away what stands at the output path and below it, and nothing else. -/
theorem get?_deleteOutput (ho : p.output site.out site.ext = .ok o) (hr : "." ∉ p.segments) (t : FileTree)
    (whole : Bool) (l : Location) : (site.deleteOutput t p whole).tree.get? l =
      if site.deletes t o whole = true ∧ site.outLocation ++ p.belowOut site.ext <+: l then none else t.get? l := by
  rw [deleteOutput_eq ho]
  split
  · next deleted =>
    have root : ¬ site.outLocation ++ p.belowOut site.ext <+: [] := by simp [Path.belowOut_ne_nil]
    by_cases hl : l = []
    · rw [hl, if_neg fun h => root h.2]
      rfl
    · rw [FileTree.remove, located_of_deletes deleted, location_of_output ho hr]
      dsimp only
      rw [FileTree.get?_erase _ _ hl]
      simp [deleted]
  · next kept => rw [if_neg fun h => kept h.1]; rfl

/-! ## Directories -/

/-- The path `q` lies strictly below `p` when both are seen from their root directories. -/
def Beneath (p q : Path) : Prop :=
  p.root = q.root ∧ p.segments.drop 1 <+: q.segments.drop 1 ∧ p.segments.drop 1 ≠ q.segments.drop 1

instance (p q : Path) : Decidable (Beneath p q) := inferInstanceAs (Decidable (_ ∧ _ ∧ _))

theorem belowOut_of_plain {ext : String} (long : 2 ≤ p.segments.length) (plain : p.hasTemplateExt ext = false) :
    p.belowOut ext = p.segments.drop 1 := by
  have some : p.segments.drop 1 ≠ [] := by
    rw [ne_eq, List.drop_eq_nil_iff]
    omega
  have last : (p.segments.drop 1).getLastD "" = p.name := by
    rw [Path.name, List.getLastD_eq_getLast?, List.getLastD_eq_getLast?, List.getLast?_drop, if_neg (by omega)]
  have own : Path.outputName p.name ext = p.name := if_neg (by rw [← Path.hasTemplateExt, plain]; decide)
  rw [Path.belowOut, last, own, ← last, List.getLastD_eq_getLast?, List.getLast?_eq_some_getLast some]
  exact List.dropLast_concat_getLast some

/-- Outputs at or below that of a directory: its own, and those of the paths beneath it. -/
theorem prefix_belowOut_iff {ext : String} (long : 2 ≤ p.segments.length) (plain : p.hasTemplateExt ext = false)
    (relative : p.root = q.root) (hq : q.segments.drop 1 ≠ []) :
    p.belowOut ext <+: q.belowOut ext ↔ p.belowOut ext = q.belowOut ext ∨ Beneath p q := by
  have whole := belowOut_of_plain long plain
  rw [Beneath, ← whole, and_iff_right relative, ← FileTree.prefix_dropLast_iff hq, Path.belowOut.eq_1 q]
  exact List.prefix_concat_iff

/-- What lies strictly below a path lies beneath it. -/
theorem beneath_of_prefix (long : 2 ≤ p.segments.length) (root : p.root = q.root)
    (above : p.segments <+: q.segments) (different : p.segments ≠ q.segments) : Beneath p q := by
  obtain ⟨more, whole⟩ := above
  rw [← whole] at different
  have first : 1 ≤ p.segments.length := by omega
  refine ⟨root, ⟨more, ?_⟩, fun same => different ?_⟩
  · rw [← whole, List.drop_append_of_le_length first]
  · rw [← whole, List.drop_append_of_le_length first] at same
    rw [List.self_eq_append_right.1 same, List.append_nil]

/-- A directory above a path with an output has an output. -/
theorem output_of_beneath (long : 2 ≤ p.segments.length) (h : Beneath p q) (ho : q.output site.out site.ext = .ok o) :
    ∃ m, p.output site.out site.ext = .ok m := by
  obtain ⟨-, relative, -, down⟩ := Path.output_ok ho
  rw [Path.output_eq (h.1.trans relative) long, if_neg fun up => down (h.2.1.subset up)]
  exact ⟨_, rfl⟩

/-- Two paths have the same output if it is the same below the output root. -/
theorem output_eq_iff_belowOut {m : Path} (hm : p.output site.out site.ext = .ok m)
    (ho : q.output site.out site.ext = .ok o) : m = o ↔ p.belowOut site.ext = q.belowOut site.ext := by
  rw [(Path.output_ok hm).1, (Path.output_ok ho).1, Path.join_ofSegments, Path.join_ofSegments]
  simp

/-- The output `o` of the path `q` goes with the directory `p`: `q` lies beneath it, or `o` is what the directory itself
is mapped to. -/
def GoesWith (site : Site) (p q o : Path) : Prop := Beneath p q ∨ p.output site.out site.ext = .ok o

/-- What goes with a directory lies at or below its output. -/
theorem goesWith_iff {m : Path} (long : 2 ≤ p.segments.length) (plain : p.hasTemplateExt site.ext = false)
    (hm : p.output site.out site.ext = .ok m) (ho : q.output site.out site.ext = .ok o) :
    GoesWith site p q o ↔ p.belowOut site.ext <+: q.belowOut site.ext := by
  have root : p.root = q.root := (Path.output_ok hm).2.1.trans (Path.output_ok ho).2.1.symm
  rw [GoesWith, prefix_belowOut_iff long plain root (Path.output_ok ho).2.2.1, ← output_eq_iff_belowOut hm ho, hm,
    Except.ok.injEq, or_comm]

/-- Nothing is left of what goes with a directory. -/
theorem not_isThere_of_goesWith (long : 2 ≤ p.segments.length) (dots : "." ∉ p.segments)
    (plain : p.hasTemplateExt site.ext = false) (hq : "." ∉ q.segments) (ho : q.output site.out site.ext = .ok o)
    (h : GoesWith site p q o) (t : FileTree) : (site.deleteOutput t p true).tree.isThere (site.dir / o) = false := by
  obtain ⟨m, hm⟩ : ∃ m, p.output site.out site.ext = .ok m :=
    h.elim (output_of_beneath long · ho) fun own => ⟨o, own⟩
  obtain ⟨more, whole⟩ := (goesWith_iff long plain hm ho).1 h
  have place : site.dir / o = ⟨(site.dir / m).root, (site.dir / m).segments ++ more⟩ := by
    rw [placePath_of_output ho, placePath_of_output hm, placePath, placePath, ← whole, Path.join_ofSegments,
      Path.join_ofSegments, List.append_assoc]
  refine Bool.eq_false_iff.2 fun isThere => ?_
  cases deleted : site.deletes t m true with
  | true =>
    obtain ⟨-, stands⟩ := FileTree.isThere_iff.1 isThere
    rw [get?_deleteOutput hm dots, location_of_output ho hq, ← whole, ← List.append_assoc,
      if_pos ⟨deleted, List.prefix_append _ _⟩] at stands
    cases stands
  | false =>
    -- neither a directory nor a file is at the output, so nothing is below it
    have kept : (site.deleteOutput t p true).tree = t := by rw [deleteOutput_eq hm, deleted]; rfl
    have free : t.isThere (site.dir / m) = false := by
      rw [FileTree.isThere_eq]
      simpa [deletes] using deleted
    rw [kept, place] at isThere
    by_cases own : more = []
    · rw [own, List.append_nil] at isThere
      exact absurd (free.symm.trans isThere) (by decide)
    · have dir : t.isDir (site.dir / m) = true := FileTree.isDir_of_isThere own isThere
      rw [FileTree.isThere_eq, dir] at free
      cases free

/-- When a directory is gone, nothing is left at the outputs of the paths below it, nor at the outputs of paths that lie
below it when seen from their own root directories, nor at what the directory itself is mapped to. Every other output
is as it was. The name of the directory has not the extension of templates. -/
theorem unlinkDir_clears (long : 2 ≤ p.segments.length) (dots : "." ∉ p.segments)
    (plain : p.hasTemplateExt site.ext = false) (t : FileTree) (pages : List Page) (isDir : Bool) :
    let after := (site.update t pages p ⟨.unlinkDir, isDir⟩).tree
    (∀ q, p.root = q.root → p.segments <+: q.segments → p.segments ≠ q.segments → Beneath p q) ∧
    ∀ q o, "." ∉ q.segments → q.output site.out site.ext = .ok o →
      (GoesWith site p q o → after.isThere (site.dir / o) = false) ∧
      (¬ GoesWith site p q o →
        after.get? (collapse (site.dir / o).segments) = t.get? (collapse (site.dir / o).segments)) := by
  intro after
  have tree : after = (site.deleteOutput t p true).tree := rfl
  refine ⟨fun q => beneath_of_prefix long, fun q o hq ho => ⟨fun goes => ?_, fun stays => ?_⟩⟩
  · rw [tree]
    exact not_isThere_of_goesWith long dots plain hq ho goes t
  · rw [tree]
    cases hm : p.output site.out site.ext with
    | error fault => rw [deleteOutput, hm]; rfl
    | ok m =>
      rw [get?_deleteOutput hm dots, location_of_output ho hq, if_neg]
      rintro ⟨-, above⟩
      exact stays ((goesWith_iff long plain hm ho).2 ((List.prefix_append_right_inj _).1 above))

/-- A project with two root directories, each with a directory `about`. -/
def sharedTree : FileTree := ⟨[(["p"], .dir), (["p", "site"], .dir), (["p", "site", "about"], .dir),
  (["p", "site", "about", "x.j2"], .file .empty), (["p", "site", "z.j2"], .file .empty), (["p", "docs"], .dir),
  (["p", "docs", "about"], .dir), (["p", "docs", "about", "y.j2"], .file .empty)]⟩

def sharedSite : Site := { Site.ofDir ⟨.slash, ["p"]⟩ newYear with
  options := { out := Path.ofString "dist", copyPattern := "**/*.css" } }

def sharedEntries : List String := ["site/**/*.j2", "docs/**/*.j2"]

def sharedPages : List Page :=
  ["site/about/x.j2", "site/z.j2", "docs/about/y.j2"].map fun template => { template := Path.ofString template }

/-- What a build of that project leaves. -/
def sharedBuilt : Step Result := buildIn .forward .forward sharedSite sharedTree sharedEntries sharedPages

/-- The output of a page below the directory is gone, that of a page outside of it is there as before. -/
theorem unlinkDir_clears_about :
    let after := (sharedSite.update sharedBuilt.tree sharedPages (.ofString "site/about") ⟨.unlinkDir, true⟩).tree
    sharedBuilt.tree.isThere (.ofString "/p/dist/about/x.html") = true ∧
      after.isThere (.ofString "/p/dist/about/x.html") = false ∧
      after.get? ["p", "dist", "z.html"] = sharedBuilt.tree.get? ["p", "dist", "z.html"] := by
  intro after
  obtain ⟨-, each⟩ := @unlinkDir_clears sharedSite (.ofString "site/about") (by decide +kernel) (by decide +kernel)
    (by decide +kernel) sharedBuilt.tree sharedPages true
  refine ⟨by decide +kernel, ?_, ?_⟩
  · exact (each (.ofString "site/about/x.j2") (.ofString "dist/about/x.html") (by decide +kernel)
      (by decide +kernel)).1 (.inl (by decide +kernel))
  · refine (each (.ofString "site/z.j2") (.ofString "dist/z.html") (by decide +kernel) (by decide +kernel)).2 ?_
    unfold GoesWith
    decide +kernel

/-- With a directory of one root directory goes the output of a page in another one. -/
theorem unlinkDir_clears_other_root :
    ∃ page ∈ sharedPages, ∃ o, page.output sharedSite.out sharedSite.ext = .ok o ∧
      ¬ (Path.ofString "site/about").segments <+: page.template.segments ∧
      sharedBuilt.tree.read (sharedSite.dir / o) = .ok .empty ∧
      (sharedSite.update sharedBuilt.tree sharedPages (.ofString "site/about") ⟨.unlinkDir, true⟩).tree.isThere
        (sharedSite.dir / o) = false := by
  refine ⟨{ template := .ofString "docs/about/y.j2" }, ?_, .ofString "dist/about/y.html", ?_, ?_, ?_, ?_⟩
  · exact .tail _ (.tail _ (.head _))
  all_goals decide +kernel

/-! ## Templates -/

/-- The outputs that were told to be deleted. -/
def deletedIn (reports : List Report) : List Path :=
  reports.filterMap fun
    | .deleted path => some path
    | _ => none

/-- The step takes away the file of every page of the template and tells of it once. Every other output file can be
read as before. -/
structure RemovesPages (site : Site) (pages : List Page) (p : Path) (t : FileTree) (step : Step (List Page)) : Prop where
  gone : ∀ page ∈ pages, page.template = p → ∀ o, page.output site.out site.ext = .ok o →
    step.tree.isThere (site.dir / o) = false
  told : ∀ page ∈ pages, page.template = p → ∀ o, page.output site.out site.ext = .ok o →
    (deletedIn step.reports).count o = 1
  kept : ∀ (q o : Path) (content : ByteArray), "." ∉ q.segments → q.output site.out site.ext = .ok o →
    (∀ page ∈ pages, page.template = p → page.output site.out site.ext ≠ .ok o) →
      t.read (site.dir / o) = .ok content → step.tree.read (site.dir / o) = .ok content

/-- A file is not affected by the deletion of another one. -/
theorem read_deleteOutput {m r : Path} {content : ByteArray} (tree : IsTree t)
    (hm : p.output site.out site.ext = .ok m) (dots : "." ∉ p.segments) (h : t.read r = .ok content)
    (other : collapse r.segments ≠ site.outLocation ++ p.belowOut site.ext) :
    (site.deleteOutput t p false).tree.read r = .ok content := by
  cases file : t.isFile (site.dir / m) with
  | false =>
    have none : site.deletes t m false = false := by simp [deletes, file]
    rw [deleteOutput_eq hm, none]
    exact h
  | true =>
    have hasFile := (FileTree.isFile_iff.1 file).2
    rw [location_of_output hm dots] at hasFile
    -- nothing stands below a file
    have spared : ∀ {l node}, l ≠ site.outLocation ++ p.belowOut site.ext → t.get? l = some node →
        (site.deleteOutput t p false).tree.get? l = some node := fun {l node} different stands => by
      rw [get?_deleteOutput hm dots, if_neg, stands]
      rintro ⟨-, above⟩
      have dir := tree.dir_of_prefix above different.symm (by rw [stands]; rfl)
      rw [FileTree.hasFile_of_dir dir] at hasFile
      cases hasFile
    refine FileTree.read_of_dirs (fun l hl => ?_) (spared other (FileTree.located_of_read h).2)
    have dir := FileTree.hurdle?_eq_none.1 (FileTree.hurdle?_of_read h) l hl
    refine spared ?_ dir
    rintro rfl
    rw [FileTree.hasFile_of_dir dir] at hasFile
    cases hasFile

/-- After a build without a fault every page has its file. -/
theorem isFile_of_isOk {σ τ : Schedule} {entries : List String} {r : Result}
    (planned : ∀ page ∈ pages, page.Planned site.ext) (hw : site.options.noWrite = false)
    (h : (buildIn σ τ site t entries pages).result = .ok r) (ok : r.isOk = true) : ∀ page ∈ pages,
      ∃ o, page.output site.out site.ext = .ok o ∧
        (buildIn σ τ site t entries pages).tree.isFile (site.dir / o) = true := by
  obtain ⟨-, ⟨all, rendered⟩, -, tree⟩ := phases_of_isOk h ok
  have copied : FileTree.Puts (fun _ => True) (copyingTree σ site t pages)
      (buildIn σ τ site t entries pages).tree :=
    tree ▸ puts_run τ (fun source _ => puts_copyAsset fun _ _ => ⟨trivial, trivial⟩) _
  have grows : ∀ (page : Page) u, FileTree.Grows u (site.renderPage u page).tree := fun page u =>
    (@puts_renderPage site (fun _ => True) page (fun _ _ _ => trivial) u).grows
  intro page hm
  obtain ⟨done, -, stands⟩ := run_stands_of_settle (Q := fun page result u => ∀ done, result = .ok done →
      ∃ o, page.output site.out site.ext = .ok o ∧ u.isFile (site.dir / o) = true) σ
    (fun page hm u done hr => by
      obtain ⟨html, bytes, o, -, ho, -, read⟩ := stands_renderPage (planned page hm) hw u done hr
      exact ⟨o, ho, FileTree.isFile_of_read read⟩)
    (List.pairwise_of_forall fun a b => ⟨fun r u h done hr => (h done hr).imp fun o file =>
      ⟨file.1, (grows b u).isFile file.2⟩, fun r u h done hr => (h done hr).imp fun o file =>
      ⟨file.1, (grows a u).isFile file.2⟩⟩) rendered page hm
  obtain ⟨o, ho, file⟩ := stands done rfl
  exact ⟨o, ho, copied.grows.isFile file⟩

/-- The template of a page with an output has an output of its own. -/
theorem output_of_planned {page : Page} (planned : page.Planned site.ext)
    (ho : page.output site.out site.ext = .ok o) : ∃ m, page.template.output site.out site.ext = .ok m := by
  have down : ".." ∉ page.template.segments.drop 1 := fun up =>
    (Path.output_ok ho).2.2.2 (planned.logical.2.2.2.2 (.inl up))
  rw [Path.output_eq planned.relative planned.long, if_neg down]
  exact ⟨_, rfl⟩

/-- A page of a partial that has a directory for its pages stands deeper than the partial. -/
theorem output_ne_of_pageDir {page : Page} (planned : page.Planned site.ext) (isPartial : page.template.isPartial = true)
    (dir : Path.segmentsOf (Expansion.pageDir page.template site.ext) ≠ []) {m : Path}
    (ho : page.output site.out site.ext = .ok o) (hm : page.template.output site.out site.ext = .ok m) : o ≠ m := by
  intro same
  have depth := congrArg List.length ((output_eq_iff_belowOut ho hm).1 same)
  obtain ⟨-, ⟨-, whole⟩ | ⟨-, given, name, usable, placed⟩⟩ := planned.standing
  · rw [isPartial] at whole
    cases whole
  · have place : page.logical.segments = page.template.segments.dropLast ++
        Path.segmentsOf (Expansion.pageDir page.template site.ext) ++
          [name ++ Expansion.spelledExt page.template site.ext] := by
      rw [Page.logical, placed, Option.getD_some, (Path.pagePlace_eq planned.read site.ext usable).2.2]
    have deeper := List.length_pos_iff.2 dir
    have long := planned.long
    simp only [Path.belowOut, place, List.length_append, List.length_dropLast, List.length_drop,
      List.length_singleton] at depth
    omega

section
variable {m : Path} {isDir : Bool}

/-- The removal of a file tells of its output if a file is there. -/
theorem deletedIn_unlink (hm : p.output site.out site.ext = .ok m) :
    deletedIn (site.update t pages p ⟨.unlink, isDir⟩).reports = if t.isFile (site.dir / m) then [m] else [] := by
  have reports : (site.update t pages p ⟨.unlink, isDir⟩).reports = (site.deleteOutput t p false).reports := rfl
  rw [reports, deleteOutput_eq hm, deletes, Bool.false_and, Bool.false_or]
  split <;> rfl

theorem result_unlink (hm : p.output site.out site.ext = .ok m) :
    (site.update t pages p ⟨.unlink, isDir⟩).result = .ok pages := by
  have step : site.update t pages p ⟨.unlink, isDir⟩ = (site.deleteOutput t p false).map fun () => pages := rfl
  rw [step, deleteOutput_eq hm]
  split <;> rfl

theorem not_isThere_unlink (hm : p.output site.out site.ext = .ok m) (dots : "." ∉ p.segments)
    (file : t.isFile (site.dir / m) = true) :
    (site.update t pages p ⟨.unlink, isDir⟩).tree.isThere (site.dir / m) = false := by
  have tree : (site.update t pages p ⟨.unlink, isDir⟩).tree = (site.deleteOutput t p false).tree := rfl
  refine Bool.eq_false_iff.2 fun isThere => ?_
  have stands := (FileTree.isThere_iff.1 isThere).2
  rw [tree, get?_deleteOutput hm dots, location_of_output hm dots,
    if_pos ⟨by simp [deletes, file], List.prefix_refl _⟩] at stands
  cases stands

/-- The file at another output stays. -/
theorem read_unlink (tree : t.IsTree) (hm : p.output site.out site.ext = .ok m) (dots : "." ∉ p.segments)
    (ho : q.output site.out site.ext = .ok o) (hq : "." ∉ q.segments) (different : o ≠ m) {content : ByteArray}
    (read : t.read (site.dir / o) = .ok content) :
    (site.update t pages p ⟨.unlink, isDir⟩).tree.read (site.dir / o) = .ok content := by
  refine read_deleteOutput tree hm dots read fun same => different ?_
  rw [location_of_output ho hq] at same
  exact (output_eq_iff_belowOut ho hm).2 (List.append_cancel_left same)

theorem isFile_unlink (tree : t.IsTree) (hm : p.output site.out site.ext = .ok m) (dots : "." ∉ p.segments)
    (ho : q.output site.out site.ext = .ok o) (hq : "." ∉ q.segments) (different : o ≠ m)
    (file : t.isFile (site.dir / o) = true) :
    (site.update t pages p ⟨.unlink, isDir⟩).tree.isFile (site.dir / o) = true := by
  obtain ⟨content, read⟩ := FileTree.exists_read_of_isFile file
  exact FileTree.isFile_of_read (read_unlink tree hm dots ho hq different read)

/-- Where every page has its file, the files of a template's pages go with it exactly if the one file that goes is that
of each of them. -/
theorem removesPages_iff (tree : t.IsTree) (hm : p.output site.out site.ext = .ok m) (dots : "." ∉ p.segments)
    (dotless : Dotless pages) (files : ∀ page ∈ pages, ∃ o, page.output site.out site.ext = .ok o ∧
      t.isFile (site.dir / o) = true) (hp : ∃ page ∈ pages, page.template = p) :
    RemovesPages site pages p t (site.update t pages p ⟨.unlink, isDir⟩) ↔
      ∀ page ∈ pages, page.template = p → page.output site.out site.ext = p.output site.out site.ext := by
  constructor
  · intro removes page hpage own
    obtain ⟨o, ho, file⟩ := files page hpage
    by_contra different
    have stays : (site.update t pages p ⟨.unlink, isDir⟩).tree.isFile (site.dir / o) = true :=
      isFile_unlink tree hm dots ho (dotless page hpage) (fun same => different (by rw [ho, hm, same])) file
    have gone := removes.gone page hpage own o ho
    rw [FileTree.isThere_eq, stays, Bool.or_true] at gone
    cases gone
  · intro same
    have only : ∀ page ∈ pages, page.template = p → ∀ o, page.output site.out site.ext = .ok o → o = m :=
      fun page hpage own o ho => Except.ok.inj (ho.symm.trans ((same page hpage own).trans hm))
    obtain ⟨page, hpage, own⟩ := hp
    obtain ⟨o, ho, file⟩ := files page hpage
    obtain rfl := only page hpage own o ho
    refine ⟨fun page hpage own o' ho' => ?_, fun page hpage own o' ho' => ?_, fun q o' content hq ho' others read => ?_⟩
    · rw [only page hpage own o' ho']
      exact not_isThere_unlink hm dots file
    · rw [only page hpage own o' ho', deletedIn_unlink hm, if_pos file, List.count_singleton_self]
    · refine read_unlink tree hm dots ho' hq ?_ read
      rintro rfl
      exact others page hpage own ho

end

/-- When a template is gone after a build without a fault, the files of all its pages go, each told of once, and no
other output file is affected, exactly if all its pages have the output of the template itself. So it is for a template
that is no partial. The files of the pages of a partial that has a directory for them all stay, and nothing is told of
them. -/
theorem unlink_removes_pages_iff {t₀ : FileTree} {entries entries₀ : List String} {x : Expansion} {σ τ : Schedule}
    {r : Result} (tree : t.IsTree) (named : t₀.Named)
    (expanded : expandEntries t₀ site.bindings site.ext entries₀ = .ok x) (hw : site.options.noWrite = false)
    (built : (buildIn σ τ site t entries x.pages).result = .ok r) (ok : r.isOk = true)
    (hp : ∃ page ∈ x.pages, page.template = p) (isDir : Bool) :
    let u := (buildIn σ τ site t entries x.pages).tree
    let step := site.update u x.pages p ⟨.unlink, isDir⟩
    step.result = .ok x.pages ∧
    (∀ page ∈ x.pages, ∃ o, page.output site.out site.ext = .ok o ∧ u.isFile (site.dir / o) = true) ∧
    (RemovesPages site x.pages p u step ↔
      ∀ page ∈ x.pages, page.template = p → page.output site.out site.ext = p.output site.out site.ext) ∧
    (p.isPartial = false → RemovesPages site x.pages p u step) ∧
    (p.isPartial = true → Path.segmentsOf (Expansion.pageDir p site.ext) ≠ [] →
      ∀ page ∈ x.pages, page.template = p → ∀ o, page.output site.out site.ext = .ok o →
        step.tree.isFile (site.dir / o) = true ∧ o ∉ deletedIn step.reports) := by
  intro u step
  have planned : ∀ page ∈ x.pages, page.Planned site.ext := fun page hm =>
    (planned_of_expandEntries named expanded hm).1
  have dotless : Dotless x.pages := dotless_of_expandEntries expanded
  have files := isFile_of_isOk planned hw built ok
  have isTree : u.IsTree := (puts_buildIn σ τ site t entries x.pages).isTree tree
  obtain ⟨m, hm, dots⟩ : ∃ m, p.output site.out site.ext = .ok m ∧ "." ∉ p.segments := by
    obtain ⟨page, hpage, rfl⟩ := hp
    obtain ⟨o, ho, -⟩ := files page hpage
    obtain ⟨m, hm⟩ := output_of_planned (planned page hpage) ho
    exact ⟨m, hm, (dot_notMem_of_page expanded hpage).1⟩
  have removes : RemovesPages site x.pages p u step ↔ _ := removesPages_iff isTree hm dots dotless files hp
  refine ⟨result_unlink hm, files, removes, fun whole => removes.2 fun page hpage own => ?_,
    fun isPartial dir page hpage own o ho => ?_⟩
  · obtain ⟨-, ⟨unplaced, -⟩ | ⟨isPartial, -⟩⟩ := (planned page hpage).standing
    · rw [Page.output, Page.logical, unplaced, ← own]
      rfl
    · rw [own, whole] at isPartial
      cases isPartial
  · subst own
    have different := output_ne_of_pageDir (planned page hpage) isPartial dir ho hm
    obtain ⟨o', ho', file⟩ := files page hpage
    cases ho.symm.trans ho'
    refine ⟨isFile_unlink isTree hm dots ho (dotless page hpage) different file, ?_⟩
    rw [deletedIn_unlink hm]
    split
    · simpa using different
    · simp

/-- The file of a template that is no partial goes with it. -/
theorem unlink_removes_pages_iff_shared :
    let step := sharedSite.update sharedBuilt.tree sharedPages (.ofString "site/z.j2") ⟨.unlink, false⟩
    sharedBuilt.tree.isFile (.ofString "/p/dist/z.html") = true ∧
      RemovesPages sharedSite sharedPages (.ofString "site/z.j2") sharedBuilt.tree step ∧
      step.tree.isThere (.ofString "/p/dist/z.html") = false := by
  intro step
  have tree : sharedTree.IsTree := FileTree.isTree_of_entries (by decide)
  have named : sharedTree.Named := FileTree.named_of_entries (by decide +kernel)
  have expanded : expandEntries sharedTree sharedSite.bindings sharedSite.ext sharedEntries =
      .ok { pages := (sharedPages.map Page.template).map fun template => { template } } :=
    expandEntries_of_whole (sharedPages.map Page.template) (by decide +kernel) (by decide +kernel) (by decide +kernel)
  have ends : sharedBuilt.result.toOption.any Result.isOk = true := by decide +kernel
  obtain ⟨r, hr, ok⟩ := (Option.any_eq_true _ _).1 ends
  have mem : { template := .ofString "site/z.j2" : Page } ∈ sharedPages := .tail _ (.head _)
  have output : ({ template := .ofString "site/z.j2" } : Page).output sharedSite.out sharedSite.ext =
      .ok (.ofString "dist/z.html") := by decide +kernel
  have place : sharedSite.dir / .ofString "dist/z.html" = .ofString "/p/dist/z.html" := by decide +kernel
  obtain ⟨-, files, -, whole, -⟩ := unlink_removes_pages_iff tree named expanded rfl
    (toOption_eq_some_iff.1 hr : sharedBuilt.result = .ok r) ok ⟨_, mem, rfl⟩ false
  obtain ⟨o, ho, file⟩ := files _ mem
  cases output.symm.trans ho
  have removes := whole (by decide +kernel)
  have gone := removes.gone _ mem rfl _ output
  rw [place] at file gone
  exact ⟨file, removes, gone⟩

/-- A project with a partial that is bound to an array of two elements. -/
def fannedTree : FileTree :=
  ⟨[(["p"], .dir), (["p", "site"], .dir), (["p", "site", "_post.j2"], .file .empty)]⟩

def fannedSite : Site := { sharedSite with
  bindings := {
    cwd := ⟨.slash, ["p"]⟩
    table := [(⟨.slash, ["p", "site", "_post.j2"]⟩,
      .array (["a", "b"].map fun name => .map [(.text "name", .text name)]))] } }

/-- What a build of that project leaves. -/
def fannedBuilt (pages : List Page) : Step Result :=
  buildIn .forward .forward fannedSite fannedTree ["site/*.j2"] pages

/-- The removal of the partial after that build. -/
def fannedAfter (pages : List Page) : Step (List Page) :=
  fannedSite.update (fannedBuilt pages).tree pages (.ofString "site/_post.j2") ⟨.unlink, false⟩

/-- The files of the pages of a partial stay when it is gone, though each page has an output of its own. -/
theorem unlink_keeps_fanned_pages :
    ∃ x r, expandEntries fannedTree fannedSite.bindings fannedSite.ext ["site/*.j2"] = .ok x ∧
      (x.pages.map (·.output fannedSite.out fannedSite.ext)).Nodup ∧ fannedSite.options.noWrite = false ∧
      (fannedBuilt x.pages).result = .ok r ∧ r.isOk = true ∧
      (∃ page ∈ x.pages, page.template = .ofString "site/_post.j2") ∧
      deletedIn (fannedAfter x.pages).reports = [] ∧
      ¬ RemovesPages fannedSite x.pages (.ofString "site/_post.j2") (fannedBuilt x.pages).tree
        (fannedAfter x.pages) := by
  have run : (expandEntries fannedTree fannedSite.bindings fannedSite.ext ["site/*.j2"]).toOption.any (fun x =>
      decide (x.pages.map (·.output fannedSite.out fannedSite.ext)).Nodup &&
        (fannedBuilt x.pages).result.toOption.any Result.isOk && decide (deletedIn (fannedAfter x.pages).reports = []) &&
        x.pages.any fun page => decide (page.template = .ofString "site/_post.j2") &&
          decide (page.output fannedSite.out fannedSite.ext = .ok (.ofString "dist/post/a.html")) &&
          (fannedAfter x.pages).tree.isThere (fannedSite.dir / .ofString "dist/post/a.html")) = true := by
    decide +kernel
  obtain ⟨x, hx, facts⟩ := (Option.any_eq_true _ _).1 run
  simp only [Bool.and_eq_true, decide_eq_true_eq] at facts
  obtain ⟨⟨⟨distinct, ends⟩, silent⟩, some⟩ := facts
  obtain ⟨r, hr, ok⟩ := (Option.any_eq_true _ _).1 ends
  obtain ⟨page, hpage, facts⟩ := List.any_eq_true.1 some
  simp only [Bool.and_eq_true, decide_eq_true_eq] at facts
  obtain ⟨⟨own, output⟩, isThere⟩ := facts
  refine ⟨x, r, toOption_eq_some_iff.1 hx, distinct, rfl, toOption_eq_some_iff.1 hr, ok, ⟨page, hpage, own⟩, silent,
    fun removes => ?_⟩
  rw [removes.gone page hpage own _ output] at isThere
  cases isThere

end Site

end StaticSite
