import StaticSite.Proofs.FileTree.Growing
import StaticSite.Proofs.Site.Deleting

/-!
# Files outside of the output

What writes a text or copies a file puts a file where its path ends and takes nothing away (`puts_writeText`,
`puts_copyTo`). Whatever is rendered, copied or deleted lies strictly below the output root (`confined_renderPage`,
`confined_copyAsset`, `confined_deleteOutput`). Directories may be made outside of it, on the way to the root; no
file outside is made, changed or taken away.
-/

namespace StaticSite

open Path (collapse)

namespace FileTree

/-- The same files stand outside of a part of the tree. -/
def KeepsFiles (part : Location → Prop) (t t' : FileTree) : Prop :=
  ∀ l, ¬ part l → ∀ content, t'.get? l = some (.file content) ↔ t.get? l = some (.file content)

variable {part part' : Location → Prop} {t t' t'' : FileTree}

theorem KeepsFiles.refl (part : Location → Prop) (t : FileTree) : KeepsFiles part t t := fun _ _ _ => .rfl

theorem KeepsFiles.trans (h : KeepsFiles part t t') (h' : KeepsFiles part t' t'') : KeepsFiles part t t'' :=
  fun l hl content => (h' l hl content).trans (h l hl content)

theorem KeepsFiles.of_get? (h : ∀ l, ¬ part l → t'.get? l = t.get? l) : KeepsFiles part t t' :=
  fun l hl content => by rw [h l hl]

theorem KeepsFiles.mono (h : KeepsFiles part t t') (hp : ∀ l, part l → part' l) : KeepsFiles part' t t' :=
  fun l hl => h l fun hpart => hl (hp l hpart)

/-- A file was made at the location, changed or taken away. -/
def Touched (t t' : FileTree) (l : Location) : Prop :=
  ∃ content, ¬ (t'.get? l = some (.file content) ↔ t.get? l = some (.file content))

theorem KeepsFiles.part_of_touched (h : KeepsFiles part t t') {l : Location} (ht : Touched t t' l) : part l := by
  obtain ⟨content, differs⟩ := ht
  by_contra outside
  exact differs (h l outside content)

/-- Files are made or changed in a part of the tree only, and nothing is taken away. What is new stands at plain
locations and in directories. -/
structure Puts (part : Location → Prop) (t t' : FileTree) : Prop extends Onward t t' where
  keeps : KeepsFiles part t t'
  isTree : t.IsTree → t'.IsTree

theorem Puts.refl (part : Location → Prop) (t : FileTree) : Puts part t t := ⟨.refl t, .refl part t, id⟩

theorem Puts.trans (h : Puts part t t') (h' : Puts part t' t'') : Puts part t t'' :=
  ⟨h.toOnward.trans h'.toOnward, h.keeps.trans h'.keeps, fun ht => h'.isTree (h.isTree ht)⟩

/-- To make directories changes no file. -/
theorem puts_makeDirs (part : Location → Prop) (t : FileTree) (p : Path) : Puts part t (t.makeDirs p).1 := by
  have look := get?_pave t [] p.segments
  rw [makeDirs_tree]
  have kept : ∀ {l node}, t.get? l = some node → (t.pave [] p.segments).get? l = some node := fun h => by
    rw [look, h]; simp
  have plainly : t.Plainly → (t.pave [] p.segments).Plainly := fun ht l hl => by
    rw [look] at hl
    split at hl
    · next way => exact plain_of_mem_trail ⟨by simp, by simp⟩ (Site.mem_of_mem_passed way.2)
    · exact ht l hl
  refine ⟨⟨⟨kept, fun h => ?_⟩, plainly⟩, fun l _ content => ⟨fun h => ?_, kept⟩, fun ht => isTree_pave ht rfl _⟩
  · obtain ⟨content, hc⟩ := hasFile_iff.1 h
    exact hasFile_iff.2 ⟨content, kept hc⟩
  · rw [look] at h
    split at h
    · cases h
    · exact h

/-- A file is put where its path ends, whatever it leads through. -/
theorem puts_putFile {p : Path} (hp : part (collapse p.segments)) (content : ByteArray) :
    Puts part t (t.putFile p content).1 := by
  unfold putFile
  rw [locate_eq]
  cases way : t.hurdle? (trail [] p.segments).dropLast with
  | some cause => exact .refl _ _
  | none =>
    dsimp only
    split
    · exact .refl _ _
    · next hd =>
      have nonempty : collapse p.segments ≠ [] := fun h => hd (by rw [h]; rfl)
      have look := get?_put t (.file content) nonempty
      refine ⟨⟨⟨fun {l} hl => ?_, fun {l} hl => ?_⟩, fun ht l hl => ?_⟩, .of_get? fun l hl => ?_, fun ht => ?_⟩
      · rw [look, if_neg]
        · exact hl
        · rintro rfl; exact hd hl
      · by_cases he : l = collapse p.segments
        · exact hasFile_iff.2 ⟨content, by rw [look, if_pos he]⟩
        · rw [hasFile, look, if_neg he]
          exact hl
      · by_cases he : l = collapse p.segments
        · exact he ▸ Path.plain_collapse _
        · rw [look, if_neg he] at hl
          exact ht l hl
      · rw [look, if_neg]
        rintro rfl
        exact hl hp
      · obtain ⟨init, s, -, ends, dir⟩ := collapse_of_not_dir ht way hd
        rw [ends] at hd ⊢
        exact ht.put dir hd

/-- A copy goes where its path ends, or into the directory there. -/
theorem puts_copyFile {source target : Path} (hp : part (collapse target.segments))
    (hs : part (collapse (target.child source.name).segments)) :
    Puts part t (t.copyFile source target).1 := by
  unfold copyFile
  dsimp only
  generalize hq : (if t.isDir target then target.child source.name else target) = q
  have ends : part (collapse q.segments) := by
    rw [← hq]
    split
    · exact hs
    · exact hp
  split
  · exact .refl _ _
  · split
    · exact .refl _ _
    · exact puts_putFile ends _

/-- What is removed stands where the path ends, or below. -/
theorem keepsFiles_remove {p : Path} (hp : ∀ l, collapse p.segments <+: l → part l) :
    KeepsFiles part t (t.remove p) := by
  unfold remove
  rw [locate_eq]
  cases t.hurdle? (trail [] p.segments).dropLast with
  | some cause => exact .refl _ _
  | none =>
    refine .of_get? fun l hl => ?_
    by_cases hr : l = []
    · rw [hr]; rfl
    · have outside : ¬ (collapse p.segments).isPrefixOf l = true := fun h =>
        hl (hp l (List.isPrefixOf_iff_prefix.1 h))
      rw [get?_erase _ _ hr, if_neg outside]

end FileTree

namespace Site

open FileTree (Puts)

variable {site : Site} {t : FileTree} {below : List String} {part : Location → Prop}

/-! ## Writing and copying -/

theorem puts_makeRoom (part : Location → Prop) (t : FileTree) (target named : Path) :
    Puts part t (makeRoom t target named).1 := by
  unfold makeRoom
  split
  · exact .refl _ _
  · exact FileTree.puts_makeDirs _ t target.parent

/-- A text goes to its file and nowhere else; no draft is left. -/
theorem puts_writeText {target : Path} (hp : part (collapse target.segments)) (t : FileTree) (s : String) :
    Puts part t (writeText t target s).1 := by
  have room := puts_makeRoom part t target target
  rw [writeText_directly]
  generalize makeRoom t target target = made at room ⊢
  obtain ⟨t', fault | u⟩ := made
  · exact room
  · dsimp only
    split
    · exact room
    · exact room.trans (FileTree.puts_putFile hp _)

theorem puts_copyTo {source o : Path} (hp : part (collapse (site.dir / o).segments))
    (hs : part (collapse ((site.dir / o).child (site.dir / source).name).segments)) (t : FileTree) :
    Puts part t (site.copyTo t source o).1 := by
  have room := puts_makeRoom part t (site.dir / o) o
  unfold copyTo
  dsimp only
  generalize makeRoom t (site.dir / o) o = made at room ⊢
  obtain ⟨t', fault | u⟩ := made
  · exact room
  · dsimp only
    split
    · exact room
    · exact room.trans (FileTree.puts_copyFile hp hs)

theorem puts_renderPage {page : Page}
    (hp : ∀ o, page.output site.out site.ext = .ok o → site.options.noWrite = false →
      part (collapse (site.dir / o).segments)) (t : FileTree) :
    Puts part t (site.renderPage t page).tree := by
  have tree : (site.renderPage t page).tree = (site.renderPage t page).done.1 := rfl
  rw [tree, renderPage_done]
  cases ho : page.output site.out site.ext with
  | error fault => exact .refl _ _
  | ok o =>
    dsimp only
    unfold goOn
    cases site.drafted page o t with
    | error fault => exact .refl _ _
    | ok r =>
      dsimp only
      unfold saved
      split
      · exact .refl _ _
      · split
        · exact .refl _ _
        · next hw => exact puts_writeText (hp o ho (by simpa using hw)) t _

theorem puts_copyAsset {p : Path}
    (hp : ∀ o, p.output site.out site.ext = .ok o → part (collapse (site.dir / o).segments) ∧
      part (collapse ((site.dir / o).child (site.dir / p).name).segments)) (t : FileTree) :
    Puts part t (site.copyAsset t p).tree := by
  have tree : (site.copyAsset t p).tree = (site.copyAsset t p).done.1 := rfl
  rw [tree, copyAsset_done]
  cases ho : p.output site.out site.ext with
  | error fault => exact .refl _ _
  | ok o => exact puts_copyTo (hp o ho).1 (hp o ho).2 t

/-! ## What lies below the output root -/

/-- The location lies strictly below the output root. -/
def IsInside (site : Site) (l : Location) : Prop := site.outLocation <+: l ∧ l ≠ site.outLocation

instance (site : Site) (l : Location) : Decidable (IsInside site l) := inferInstanceAs (Decidable (_ ∧ _))

/-- All files that differ lie strictly below the output root. -/
def Confined (site : Site) (t t' : FileTree) : Prop := t.KeepsFiles (IsInside site) t'

/-- No path that a page stands at has a segment `.`. -/
def Dotless (pages : List Page) : Prop := ∀ page ∈ pages, "." ∉ page.logical.segments

theorem isInside_append (hb : below ≠ []) : IsInside site (site.outLocation ++ below) :=
  ⟨List.prefix_append _ _, by simpa using hb⟩

theorem isInside_of_place (hb : below ≠ []) {l : Location} (h : site.outLocation ++ below <+: l) :
    IsInside site l := by
  refine ⟨(List.prefix_append _ _).trans h, ?_⟩
  rintro rfl
  exact not_under_root hb h

/-- The path of an output is that of a place. -/
theorem placePath_of_output {p o : Path} (ho : p.output site.out site.ext = .ok o) :
    site.dir / o = site.placePath (p.belowOut site.ext) := by
  rw [(Path.output_ok ho).1]
  exact Path.div_div_ofSegments site.dir site.out _

/-- Where the file of an output stands. -/
theorem location_of_output {p o : Path} (ho : p.output site.out site.ext = .ok o) (hr : "." ∉ p.segments) :
    collapse (site.dir / o).segments = site.outLocation ++ p.belowOut site.ext := by
  rw [placePath_of_output ho, collapse_placePath (Path.plain_belowOut ho hr)]

/-- Where a copy goes in a directory that stands where the output should. -/
theorem location_entered {p o : Path} (ho : p.output site.out site.ext = .ok o) (hr : "." ∉ p.segments)
    (hs : site.isOutput p = false) : collapse ((site.dir / o).child (site.dir / p).name).segments =
      site.outLocation ++ (p.belowOut site.ext ++ [p.name]) := by
  have outside := isOutside_of_output ho hr hs
  have plain := Path.plain_belowOut ho hr
  have deeper : Path.Plain (p.belowOut site.ext ++ [p.name]) :=
    ⟨by simpa [plain.1] using outside.name.1, by simpa [plain.2] using outside.name.2⟩
  rw [placePath_of_output ho, name_div outside.named, child_placePath, collapse_placePath deeper]

theorem location_of_sitemap (site : Site) :
    collapse ((site.dir / site.out).child Sitemap.fileName).segments = site.outLocation ++ sitemapBelow := by
  have place : (site.dir / site.out).child Sitemap.fileName = site.placePath sitemapBelow := by
    simp [placePath, base, sitemapBelow, Path.child, Path.join_ofSegments]
  rw [place, collapse_placePath (show Path.Plain sitemapBelow from ⟨by decide, by decide⟩)]

theorem isInside_output {p o : Path} (ho : p.output site.out site.ext = .ok o) (hr : "." ∉ p.segments) :
    IsInside site (collapse (site.dir / o).segments) := by
  rw [location_of_output ho hr]
  exact isInside_append (Path.belowOut_ne_nil _ _)

theorem isInside_entered {p o : Path} (ho : p.output site.out site.ext = .ok o) (hr : "." ∉ p.segments)
    (hs : site.isOutput p = false) : IsInside site (collapse ((site.dir / o).child (site.dir / p).name).segments) := by
  rw [location_entered ho hr hs]
  exact isInside_append (by simp)

theorem confined_renderPage {page : Page} (hr : "." ∉ page.logical.segments) (t : FileTree) :
    Confined site t (site.renderPage t page).tree :=
  (puts_renderPage (fun _ ho _ => isInside_output ho hr) t).keeps

theorem confined_copyAsset {p : Path} (hr : "." ∉ p.segments) (hs : site.isOutput p = false) (t : FileTree) :
    Confined site t (site.copyAsset t p).tree :=
  (puts_copyAsset (fun _ ho => ⟨isInside_output ho hr, isInside_entered ho hr hs⟩) t).keeps

theorem confined_deleteOutput {p : Path} (hr : "." ∉ p.segments) (t : FileTree) (whole : Bool) :
    Confined site t (site.deleteOutput t p whole).tree := by
  unfold deleteOutput
  cases ho : p.output site.out site.ext with
  | error fault => exact .refl _ _
  | ok o =>
    dsimp only
    split
    · refine FileTree.keepsFiles_remove fun l hl => ?_
      rw [location_of_output ho hr] at hl
      exact isInside_of_place (Path.belowOut_ne_nil _ _) hl
    · exact .refl _ _

end Site

end StaticSite
