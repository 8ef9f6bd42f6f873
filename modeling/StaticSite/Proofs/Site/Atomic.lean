import StaticSite.Proofs.Site.Delivering
import StaticSite.Proofs.Value.Record

/-!
# All or nothing

Work that fails leaves every file as it was; only directories may be new (`sameFiles_writeText`, `sameFiles_copyTo`).
So a page is rendered whole or not at all (`renderPage_whole`), and an asset is copied whole or not at all. But its copy
goes into the directory that stands at its output, while the output itself is returned (`copyAsset_whole`).
-/

namespace StaticSite

open FileTree (Puts)
open Path (collapse)

namespace FileTree

variable {t t' t'' : FileTree}

/-- The same files stand in both trees. -/
def SameFiles (t t' : FileTree) : Prop := t.KeepsFiles (fun _ => False) t'

theorem SameFiles.refl (t : FileTree) : t.SameFiles t := KeepsFiles.refl _ t

/-- A file is put whole or not at all. -/
theorem putFile_of_error {p : Path} {content : ByteArray} {fault : OsFault}
    (h : (t.putFile p content).2 = .error fault) : (t.putFile p content).1 = t := by
  unfold putFile at h ⊢
  cases hl : t.locate p with
  | error cause => rfl
  | ok loc =>
    rw [hl] at h
    dsimp only at h ⊢
    split at h
    · rfl
    · cases h

theorem copyFile_of_error {source target : Path} {fault : OsFault}
    (h : (t.copyFile source target).2 = .error fault) : (t.copyFile source target).1 = t := by
  unfold copyFile at h ⊢
  dsimp only at h ⊢
  generalize (if t.isDir target then target.child source.name else target) = q at h ⊢
  split at h
  · next same => rw [if_pos same]
  · next other =>
    rw [if_neg other]
    cases hr : t.read source with
    | error refused => rfl
    | ok content =>
      rw [hr] at h
      exact putFile_of_error h

end FileTree

namespace Site

open FileTree (SameFiles)

variable {site : Site} {t : FileTree} {page : Page}

/-! ## Failed writing -/

theorem sameFiles_makeRoom (t : FileTree) (target named : Path) : t.SameFiles (makeRoom t target named).1 :=
  (puts_makeRoom _ t target named).keeps

theorem sameFiles_writeText {target : Path} {s : String} {fault : Fault}
    (h : (writeText t target s).2 = .error fault) : t.SameFiles (writeText t target s).1 := by
  have room := sameFiles_makeRoom t target target
  rw [writeText_directly] at h ⊢
  generalize makeRoom t target target = made at h room ⊢
  obtain ⟨u, refused | _⟩ := made
  · exact room
  · dsimp only at h ⊢
    cases hb : textBytes target s with
    | error refused => exact room
    | ok bytes =>
      rw [hb] at h
      dsimp only at h ⊢
      cases hp : (u.putFile target bytes).2 with
      | error refused =>
        rw [FileTree.putFile_of_error hp]
        exact room
      | ok _ => rw [hp] at h; cases h

theorem sameFiles_copyTo {source output : Path} {fault : Fault} (h : (site.copyTo t source output).2 = .error fault) :
    t.SameFiles (site.copyTo t source output).1 := by
  have room := sameFiles_makeRoom t (site.dir / output) output
  unfold copyTo at h ⊢
  dsimp only at h ⊢
  generalize makeRoom t (site.dir / output) output = made at h room ⊢
  obtain ⟨u, refused | _⟩ := made
  · exact room
  · dsimp only at h ⊢
    cases hf : pathFault? (site.dir / source) with
    | some refused => exact room
    | none =>
      rw [hf] at h
      dsimp only at h ⊢
      cases hc : (u.copyFile (site.dir / source) (site.dir / output)).2 with
      | error refused =>
        rw [FileTree.copyFile_of_error hc]
        exact room
      | ok _ => rw [hc] at h; cases h

theorem sameFiles_renderPage {fault : Fault} (h : (site.renderPage t page).result = .error fault) :
    t.SameFiles (site.renderPage t page).tree := by
  have tree : ∀ {u r}, (site.renderPage t page).done = (u, r) → (site.renderPage t page).tree = u := congrArg Prod.fst
  rcases site.renderPage_cases t page with ⟨_, done⟩ | ⟨_, -, done⟩ | ⟨o, html, -, -, -, done⟩
  · rw [tree done]
    exact .refl t
  · rw [tree done]
    exact .refl t
  · split at done
    · rw [tree done]
      exact .refl t
    · rw [tree done]
      cases hw : (writeText t (site.dir / o) html).2 with
      | error refused => exact sameFiles_writeText hw
      | ok _ =>
        rw [hw] at done
        cases h.symm.trans (congrArg Prod.snd done)

/-! ## Pages -/

/-- The page's template, rendered for `output`, is the text, or the hook makes the text of it. -/
def IsTextOf (site : Site) (t : FileTree) (page : Page) (output : Path) (html : String) : Prop :=
  ∃ data raw, site.context t page (Path.publicPrefix site.processDir output site.out) = .ok data ∧
    site.templateText t page.template data = .ok raw ∧
      match site.options.hooks.beforeSave with
      | none => html = raw
      | some hook => hook.run (.beforeSave raw site.out page.template) = .ok (.text html)

theorem isTextOf_of_pageText {output : Path} {html : String} (h : (site.pageText t page output).2 = .ok html) :
    IsTextOf site t page output html := by
  unfold pageText at h
  unfold IsTextOf
  cases hc : site.context t page (Path.publicPrefix site.processDir output site.out) with
  | error fault => rw [hc] at h; cases h
  | ok data =>
    rw [hc] at h
    dsimp only at h
    cases ht : site.templateText t page.template data with
    | error fault => rw [ht] at h; cases h
    | ok raw =>
      rw [ht] at h
      refine ⟨data, raw, rfl, ht, ?_⟩
      unfold hookedText callHook at h
      dsimp only at h
      cases hb : site.options.hooks.beforeSave with
      | none => rw [hb] at h; cases h; rfl
      | some hook =>
        rw [hb] at h
        dsimp only at h ⊢
        cases hr : hook.run (.beforeSave raw site.out page.template) with
        | error failure => rw [hr] at h; cases h
        | ok v =>
          rw [hr] at h
          cases v <;> cases h
          rfl

/-- The file at `target` is a copy of a file with the content, and no other file differs. -/
structure IsCopy (t : FileTree) (content : ByteArray) (target : Path) (t' : FileTree) : Prop where
  stands : t'.read target = .ok content
  keeps : t.KeepsFiles (· = collapse target.segments) t'

/-- A copy that went well stands at its destination. -/
theorem isCopy_copyTo {source output : Path} {content : ByteArray} (hs : t.read (site.dir / source) = .ok content)
    (h : (site.copyTo t source output).2 = .ok ()) :
    let after := (site.copyTo t source output).1
    IsCopy t content (after.destination (site.dir / source) (site.dir / output)) after := by
  have room : Puts (fun _ => False) t (makeRoom t (site.dir / output) output).1 := puts_makeRoom _ t _ _
  unfold copyTo at h ⊢
  dsimp only at h ⊢
  generalize makeRoom t (site.dir / output) output = made at h room ⊢
  obtain ⟨u, refused | _⟩ := made
  · cases h
  · dsimp only at h room ⊢
    cases hf : pathFault? (site.dir / source) with
    | some refused => rw [hf] at h; cases h
    | none =>
      rw [hf] at h
      dsimp only at h ⊢
      have copied := mapError_eq_ok_iff.1 h
      obtain ⟨held, hr, whole⟩ := FileTree.copyFile_of_ok copied
      cases (room.read id hs).symm.trans hr
      rw [whole] at copied ⊢
      rw [FileTree.destination_putFile copied]
      generalize u.destination (site.dir / source) (site.dir / output) = q at copied ⊢
      have puts : Puts (collapse q.segments = ·) u (u.putFile q content).1 := FileTree.puts_putFile rfl content
      exact ⟨FileTree.read_putFile copied,
        (room.keeps.mono fun _ => False.elim).trans (puts.keeps.mono fun _ => Eq.symm)⟩

theorem copiesIn_copyAsset (site : Site) (t : FileTree) (source : Path) :
    copiesIn (site.copyAsset t source).reports =
      ((site.copyAsset t source).result.toOption.map (source, ·)).toList := by
  have told := (@tells_copyAsset site (t, source)).copies
  unfold copyOf? copyFate at told
  cases hr : (site.copyAsset t source).result with
  | error fault =>
    rw [hr] at told
    exact List.perm_nil.1 told
  | ok o =>
    rw [hr] at told
    exact List.perm_singleton.1 told

/-- An asset that could not be copied leaves all files and no copy is told of. Otherwise its output is returned and
told of, and the copy stands at its destination; that is the output, unless a directory stands there. Whatever the
hook does makes no difference. -/
theorem copyAsset_whole {source o : Path} {content : ByteArray} (hs : t.read (site.dir / source) = .ok content)
    (ho : source.output site.out site.ext = .ok o) :
    let step := site.copyAsset t source
    (∀ fault, step.result = .error fault → t.SameFiles step.tree ∧ copiesIn step.reports = []) ∧
      (∀ dest, step.result = .ok dest →
        dest = o ∧ copiesIn step.reports = [(source, o)] ∧
          IsCopy t content (step.tree.destination (site.dir / source) (site.dir / o)) step.tree ∧
          (IsCopy t content (site.dir / o) step.tree ↔ step.tree.isDir (site.dir / o) = false)) ∧
      ∀ hook, let other := ({ site with options.hooks.afterCopy := hook } : Site).copyAsset t source
        other.tree = step.tree ∧ other.result = step.result := by
  intro step
  have done := copyAsset_done site source t
  rw [ho] at done
  have tree : step.tree = (site.copyTo t source o).1 := congrArg Prod.fst done
  have result : step.result = (site.copyTo t source o).2.map fun () => o := congrArg Prod.snd done
  refine ⟨fun fault h => ⟨?_, ?_⟩, fun dest h => ?_, fun hook => ?_⟩
  · rw [tree]
    cases hc : (site.copyTo t source o).2 with
    | error refused => exact sameFiles_copyTo hc
    | ok _ => rw [h, hc] at result; cases result
  · rw [copiesIn_copyAsset, h]
    rfl
  · obtain ⟨_, copied, rfl⟩ := map_eq_ok_iff.1 (h.symm.trans result).symm
    have there := isCopy_copyTo hs copied
    rw [← tree] at there
    refine ⟨rfl, ?_, there, fun here => FileTree.isDir_of_read here.stands, fun free => ?_⟩
    · rw [copiesIn_copyAsset, h]
      rfl
    · have own : step.tree.destination (site.dir / source) (site.dir / o) = site.dir / o := if_neg (by simp [free])
      exact own ▸ there
  · have other := copyAsset_done ({ site with options.hooks.afterCopy := hook } : Site) source t
    have same := other.trans (copyAsset_done site source t).symm
    exact ⟨congrArg Prod.fst same, congrArg Prod.snd same⟩

/-- A file to copy, and a file or a directory at its output. -/
def coveredTree (there : List (Location × Node)) : FileTree :=
  ⟨[(["p"], .dir), (["p", "site"], .dir), (["p", "site", "c.css"], .file "c".toUTF8), (["p", "dist"], .dir)] ++ there⟩

/-- A site of it. -/
def coveredSite : Site := .ofDir ⟨.slash, ["p"]⟩ newYear

/-- A file at the output is replaced. -/
theorem copyAsset_whole_file :
    let before := coveredTree [(["p", "dist", "c.css"], .file "old".toUTF8)]
    let step := coveredSite.copyAsset before ⟨.relative, ["site", "c.css"]⟩
    step.result = .ok ⟨.relative, ["dist", "c.css"]⟩ ∧
      IsCopy before "c".toUTF8 ⟨.slash, ["p", "dist", "c.css"]⟩ step.tree := by
  intro before step
  have result : step.result = .ok ⟨.relative, ["dist", "c.css"]⟩ := by decide +kernel
  have read : before.read (coveredSite.dir / ⟨.relative, ["site", "c.css"]⟩) = .ok "c".toUTF8 := by decide +kernel
  have whole := copyAsset_whole read (o := ⟨.relative, ["dist", "c.css"]⟩) (by decide +kernel)
  exact ⟨result, (whole.2.1 _ result).2.2.2.2 (by decide +kernel)⟩

/-- Into a directory at the output the copy goes, and the directory is returned. -/
theorem copyAsset_into_directory :
    let before := coveredTree [(["p", "dist", "c.css"], .dir), (["p", "dist", "c.css", "x"], .file "y".toUTF8)]
    let step := coveredSite.copyAsset before ⟨.relative, ["site", "c.css"]⟩
    step.result = .ok ⟨.relative, ["dist", "c.css"]⟩ ∧
      copiesIn step.reports = [(⟨.relative, ["site", "c.css"]⟩, ⟨.relative, ["dist", "c.css"]⟩)] ∧
      step.tree.isDir ⟨.slash, ["p", "dist", "c.css"]⟩ = true ∧
      step.tree.read ⟨.slash, ["p", "dist", "c.css", "c.css"]⟩ = .ok "c".toUTF8 := by
  decide +kernel

end Site

end StaticSite
