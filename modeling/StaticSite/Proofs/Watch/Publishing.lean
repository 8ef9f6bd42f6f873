import StaticSite.Proofs.Site.Atomic
import StaticSite.Proofs.Watch.Incremental

/-!
# What the watcher publishes

The event of a new or changed file that is no template copies the file, whether or not the copy pattern finds it
(`update_copies`). A build copies the files that the pattern finds, so the two publish the same only as far as it does:
the events of all assets leave what a build's copying of them leaves (`applyEvents_of_writes`).
-/

namespace StaticSite.Site

open FileTree (SameFiles)
open Watch (Event applyEvent applyEvents)

variable {site : Site} {t : FileTree} {pages : List Page} {f : Path} {e : Event}

/-- A file is new or was changed. -/
def IsWrite (e : Event) : Prop := (e.kind = .add ∨ e.kind = .change) ∧ e.isDir = false

instance (e : Event) : Decidable (IsWrite e) := inferInstanceAs (Decidable (_ ∧ _))

theorem update_of_isAsset (write : IsWrite e) (asset : site.isAsset f = true) (t : FileTree) (pages : List Page) :
    site.update t pages f e = (site.copyAsset t f).map fun _ => pages := by
  have plain : f.hasTemplateExt site.ext = false ∧ site.isOutput f = false := by simpa [isAsset] using asset
  obtain ⟨kind | kind, file⟩ := write
  all_goals rw [update, kind]; simp [file, plain.1]

/-! ## One copy -/

theorem sameFiles_copyAsset {fault : Fault} (h : (site.copyAsset t f).result = .error fault) :
    t.SameFiles (site.copyAsset t f).tree := by
  have done := copyAsset_done site f t
  cases ho : f.output site.out site.ext with
  | error missing =>
    rw [ho] at done
    rw [show (site.copyAsset t f).tree = t from congrArg Prod.fst done]
    exact .refl t
  | ok o =>
    rw [ho] at done
    have result := h.symm.trans (congrArg Prod.snd done)
    rw [show (site.copyAsset t f).tree = (site.copyTo t f o).1 from congrArg Prod.fst done]
    dsimp only at result
    cases hc : (site.copyTo t f o).2 with
    | error refused => exact sameFiles_copyTo hc
    | ok _ => rw [hc] at result; cases result

/-- A copy that went well is what was to be done. -/
theorem copyTo_of_copyAsset {o : Path} (h : (site.copyAsset t f).result = .ok o) :
    f.output site.out site.ext = .ok o ∧ (site.copyTo t f o).2 = .ok () ∧
      (site.copyAsset t f).tree = (site.copyTo t f o).1 := by
  have done := copyAsset_done site f t
  have result := h.symm.trans (congrArg Prod.snd done)
  cases ho : f.output site.out site.ext with
  | error missing => rw [ho] at result; cases result
  | ok o' =>
    rw [ho] at done result
    obtain ⟨_, copied, rfl⟩ := map_eq_ok_iff.1 result.symm
    exact ⟨rfl, copied, congrArg Prod.fst done⟩

/-- The step copies the file `f`, or it fails. If it fails no file differs; otherwise the copy stands at its destination,
is told of once and is the only file that differs. -/
structure Copies (site : Site) (t : FileTree) (f : Path) (step : Step (List Page)) : Prop where
  failed : ∀ fault, step.result = .error fault → t.SameFiles step.tree ∧ copiesIn step.reports = []
  done : ∀ pages, step.result = .ok pages → ∃ o, f.output site.out site.ext = .ok o ∧
    copiesIn step.reports = [(f, o)] ∧ ∀ content, t.read (site.dir / f) = .ok content →
      IsCopy t content (step.tree.destination (site.dir / f) (site.dir / o)) step.tree

theorem copies_copyAsset (site : Site) (t : FileTree) (f : Path) (pages : List Page) :
    Copies site t f ((site.copyAsset t f).map fun _ => pages) := by
  have told := copiesIn_copyAsset site t f
  cases hr : (site.copyAsset t f).result with
  | error refused =>
    rw [hr] at told
    refine ⟨fun _ _ => ⟨sameFiles_copyAsset hr, told⟩, fun pages' h => ?_⟩
    rw [Step.map, hr] at h
    cases h
  | ok o =>
    rw [hr] at told
    obtain ⟨ho, copied, tree⟩ := copyTo_of_copyAsset hr
    refine ⟨fun fault h => ?_, fun _ _ => ⟨o, ho, told, fun content read => ?_⟩⟩
    · rw [Step.map, hr] at h
      cases h
    · show IsCopy t content ((site.copyAsset t f).tree.destination _ _) (site.copyAsset t f).tree
      rw [tree]
      exact isCopy_copyTo read copied

/-! ## Several events -/

theorem copiesIn_append (reports others : List Report) :
    copiesIn (reports ++ others) = copiesIn reports ++ copiesIn others := List.filterMap_append

/-- The event of a written asset copies it; the pages stay as they are. -/
theorem applyEvent_of_write (write : IsWrite e) (asset : site.isAsset f = true) :
    (applyEvent site t pages f e).tree = (site.copyAsset t f).tree ∧
      (applyEvent site t pages f e).pages = pages ∧
      copiesIn (applyEvent site t pages f e).reports = copiesIn (site.copyAsset t f).reports := by
  rw [applyEvent, update_of_isAsset write asset]
  cases hr : (site.copyAsset t f).result with
  | ok o => simp only [Step.map, hr]; exact ⟨rfl, rfl, rfl⟩
  | error fault =>
    simp only [Step.map, hr]
    exact ⟨rfl, rfl, (copiesIn_append _ _).trans (List.append_nil _)⟩

/-- The events of written assets, one after the other, copy them in turn. -/
theorem applyEvents_of_writes {log : List (Path × Event)}
    (writes : ∀ x ∈ log, site.isAsset x.1 = true ∧ IsWrite x.2) (t : FileTree) (pages : List Page) :
    (applyEvents site t pages log).tree = (inTurn site.copyAsset t (log.map Prod.fst)).1 ∧
      (applyEvents site t pages log).pages = pages ∧
      copiesIn (applyEvents site t pages log).reports =
        copiesIn (inTurn site.copyAsset t (log.map Prod.fst)).2.1 := by
  induction log generalizing t with
  | nil => exact ⟨rfl, rfl, rfl⟩
  | cons x log ih =>
    obtain ⟨⟨asset, write⟩, rest⟩ := List.forall_mem_cons.1 writes
    obtain ⟨tree, same, told⟩ := @applyEvent_of_write site t pages x.1 x.2 write asset
    obtain ⟨trees, kept, copies⟩ := ih rest (site.copyAsset t x.1).tree
    rw [applyEvents]
    dsimp only
    rw [tree, same, copiesIn_append, told, copies]
    exact ⟨trees, kept, (copiesIn_append _ _).symm⟩

theorem copiesIn_copyAssets (site : Site) (t : FileTree) (sources : List Path) :
    copiesIn (site.copyAssets t sources).reports = copiesIn (inTurn site.copyAsset t sources).2.1 := by
  have silent : ∀ faults : List Fault, copiesIn (faults.map .failed) = [] := fun faults =>
    List.filterMap_eq_nil_iff.2 fun report hr => by
      obtain ⟨fault, -, rfl⟩ := List.mem_map.1 hr
      rfl
  have reports : (site.copyAssets t sources).reports = (inTurn site.copyAsset t sources).2.1 ++
      (localFaults (inTurn site.copyAsset t sources).2.2).map .failed := rfl
  rw [reports, copiesIn_append, silent, List.append_nil]

/-- The event of a new or changed file that is neither a template nor an output copies it, in every project. The file
need not be among the assets, which are the files of that kind that the copy pattern finds in a root directory. So a
build copies no other files, and the events of all assets, one after the other, leave the tree that its copying of them
leaves, and tell of the same copies. -/
theorem update_copies (asset : site.isAsset f = true) (write : IsWrite e) (t : FileTree) (pages : List Page)
    (roots : List String) :
    Copies site t f (site.update t pages f e) ∧
    (f ∈ site.findAssets t roots ↔ ∃ root ∈ roots, f ∈ Glob.files t site.dir (site.assetPattern root)) ∧
    let watched := applyEvents site t pages ((site.findAssets t roots).map (·, e))
    let built := site.copyAssets t (site.findAssets t roots)
    watched.tree = built.tree ∧ watched.pages = pages ∧ copiesIn watched.reports = copiesIn built.reports := by
  refine ⟨?_, ?_, ?_⟩
  · rw [update_of_isAsset write asset]
    exact copies_copyAsset site t f pages
  · rw [mem_findAssets, and_iff_left asset]
  · have writes : ∀ x ∈ (site.findAssets t roots).map (·, e), site.isAsset x.1 = true ∧ IsWrite x.2 := by
      intro x hx
      obtain ⟨source, hs, rfl⟩ := List.mem_map.1 hx
      exact ⟨(mem_findAssets.1 hs).2, write⟩
    obtain ⟨tree, kept, copies⟩ := applyEvents_of_writes writes t pages
    have sources : ((site.findAssets t roots).map (·, e)).map Prod.fst = site.findAssets t roots := by
      rw [List.map_map]
      exact List.map_id _
    rw [sources] at tree copies
    exact ⟨tree, kept, copies.trans (copiesIn_copyAssets site t _).symm⟩

/-- A project with two files of which the copy pattern finds one. -/
def notedTree : FileTree := ⟨[(["p"], .dir), (["p", "site"], .dir), (["p", "site", "c.css"], .file "c".toUTF8),
  (["p", "site", "notes.txt"], .file "n".toUTF8)]⟩

def notedSite : Site := { Site.ofDir ⟨.slash, ["p"]⟩ newYear with
  options := { out := Path.ofString "dist", copyPattern := "**/*.css" } }

/-- The file that the pattern finds is copied when it was changed. -/
theorem update_copies_noted :
    let step := notedSite.update notedTree [] (.ofString "site/c.css") ⟨.change, false⟩
    .ofString "site/c.css" ∈ notedSite.findAssets notedTree ["site"] ∧
      copiesIn step.reports = [(.ofString "site/c.css", .ofString "dist/c.css")] ∧
      IsCopy notedTree "c".toUTF8 (.ofString "/p/dist/c.css") step.tree := by
  intro step
  obtain ⟨copies, found, -⟩ := @update_copies notedSite (.ofString "site/c.css") ⟨.change, false⟩ (by decide +kernel)
    (by decide) notedTree [] ["site"]
  have ends : step.result.toOption.any (·.isEmpty) = true := by decide +kernel
  obtain ⟨pages, hr, -⟩ := (Option.any_eq_true _ _).1 ends
  obtain ⟨o, ho, told, copy⟩ := copies.done pages (toOption_eq_some_iff.1 hr)
  have output : (Path.ofString "site/c.css").output notedSite.out notedSite.ext = .ok (.ofString "dist/c.css") := by
    decide +kernel
  cases output.symm.trans ho
  have place : step.tree.destination (notedSite.dir / .ofString "site/c.css") (notedSite.dir / .ofString "dist/c.css") =
      .ofString "/p/dist/c.css" := by decide +kernel
  have there := copy "c".toUTF8 (by decide +kernel)
  rw [place] at there
  exact ⟨found.2 ⟨"site", by decide, by decide +kernel⟩, told, there⟩

/-- The file that the pattern does not find is copied as well. -/
theorem update_copies_unlisted :
    let f := Path.ofString "site/notes.txt"
    let step := notedSite.update notedTree [] f ⟨.add, false⟩
    notedSite.isAsset f = true ∧ f ∉ notedSite.findAssets notedTree ["site"] ∧
      copiesIn step.reports = [(f, .ofString "dist/notes.txt")] ∧
      step.tree.read (.ofString "/p/dist/notes.txt") = .ok "n".toUTF8 := by
  decide +kernel

end StaticSite.Site
