import StaticSite.Proofs.Site.Manifest

/-!
# What a build without a fault leaves

At the end of a build without a fault the sitemap, the texts of all pages and the copies of all assets that were found
stand below the output root, if the outputs are apart from each other (`delivers_of_isOk`). A copy goes into the
directory that stands at its output, if there is one. In an output root that was empty there is one only if the path to
the root itself leads through it (`newDirs_buildIn`).
-/

namespace StaticSite

open FileTree (Puts trail)
open Path (collapse)

/-! ## New directories -/

namespace FileTree

/-- Directories that are new stand on the way. -/
def NewDirs (way : Location → Prop) (t t' : FileTree) : Prop :=
  ∀ l, t'.get? l = some .dir → t.get? l = some .dir ∨ way l

variable {way way' : Location → Prop} {t t' t'' : FileTree}

theorem NewDirs.refl (way : Location → Prop) (t : FileTree) : NewDirs way t t := fun _ => .inl

theorem NewDirs.trans (h : NewDirs way t t') (h' : NewDirs way t' t'') : NewDirs way t t'' := fun l hl =>
  (h' l hl).elim (h l) .inr

theorem NewDirs.mono (h : NewDirs way t t') (hw : ∀ l, way l → way' l) : NewDirs way' t t' := fun l hl =>
  (h l hl).imp_right (hw l)

theorem newDirs_makeDirs (t : FileTree) (p : Path) : NewDirs (· ∈ trail [] p.segments) t (t.makeDirs p).1 := by
  intro l hl
  rw [makeDirs_tree, get?_pave] at hl
  split at hl
  · next made => exact .inr (Site.mem_of_mem_passed made.2)
  · exact .inl hl

/-- To put a file makes no directory. -/
theorem newDirs_putFile (way : Location → Prop) (t : FileTree) (p : Path) (content : ByteArray) :
    NewDirs way t (t.putFile p content).1 := by
  unfold putFile
  split
  · exact .refl _ t
  · next loc _ =>
    split
    · exact .refl _ t
    · next free =>
      have nonempty : loc ≠ [] := fun he => free (by rw [he]; rfl)
      intro l hl
      rw [get?_put _ _ nonempty] at hl
      split at hl
      · cases hl
      · exact .inl hl

theorem newDirs_copyFile (way : Location → Prop) (t : FileTree) (source target : Path) :
    NewDirs way t (t.copyFile source target).1 := by
  unfold copyFile
  dsimp only
  generalize (if t.isDir target then target.child source.name else target) = q
  split
  · exact .refl _ t
  · split
    · exact .refl _ t
    · exact newDirs_putFile way t q _

end FileTree

namespace Site

open FileTree (NewDirs newDirs_makeDirs newDirs_putFile newDirs_copyFile)

variable {site : Site} {t u : FileTree} {pages : List Page} {sources : List Path}

theorem newDirs_makeRoom (t : FileTree) (target named : Path) :
    NewDirs (· ∈ trail [] target.parent.segments) t (makeRoom t target named).1 := by
  unfold makeRoom
  split
  · exact .refl _ t
  · exact newDirs_makeDirs t target.parent

theorem newDirs_writeText (t : FileTree) (target : Path) (s : String) :
    NewDirs (· ∈ trail [] target.parent.segments) t (writeText t target s).1 := by
  have room := newDirs_makeRoom t target target
  rw [writeText_directly]
  generalize makeRoom t target target = made at room ⊢
  obtain ⟨t', fault | _⟩ := made
  · exact room
  · dsimp only
    split
    · exact room
    · exact room.trans (newDirs_putFile _ _ _ _)

theorem newDirs_copyTo (site : Site) (t : FileTree) (source o : Path) :
    NewDirs (· ∈ trail [] (site.dir / o).parent.segments) t (site.copyTo t source o).1 := by
  have room := newDirs_makeRoom t (site.dir / o) o
  unfold copyTo
  dsimp only
  generalize makeRoom t (site.dir / o) o = made at room ⊢
  obtain ⟨t', fault | _⟩ := made
  · exact room
  · dsimp only
    split
    · exact room
    · exact room.trans (newDirs_copyFile _ _ _ _)

theorem newDirs_renderPage {way : Location → Prop} {page : Page}
    (hw : ∀ o, page.output site.out site.ext = .ok o → ∀ l ∈ trail [] (site.dir / o).parent.segments, way l)
    (t : FileTree) : NewDirs way t (site.renderPage t page).tree := by
  have tree : (site.renderPage t page).tree = (site.renderPage t page).done.1 := rfl
  rw [tree, renderPage_done]
  cases ho : page.output site.out site.ext with
  | error fault => exact .refl _ t
  | ok o =>
    dsimp only
    unfold goOn
    cases site.drafted page o t with
    | error fault => exact .refl _ t
    | ok r =>
      dsimp only
      unfold saved
      split
      · exact .refl _ t
      · split
        · exact .refl _ t
        · exact (newDirs_writeText t _ _).mono (hw o ho)

theorem newDirs_copyAsset {way : Location → Prop} {source : Path}
    (hw : ∀ o, source.output site.out site.ext = .ok o → ∀ l ∈ trail [] (site.dir / o).parent.segments, way l)
    (t : FileTree) : NewDirs way t (site.copyAsset t source).tree := by
  have tree : (site.copyAsset t source).tree = (site.copyAsset t source).done.1 := rfl
  rw [tree, copyAsset_done]
  cases ho : source.output site.out site.ext with
  | error fault => exact .refl _ t
  | ok o => exact (newDirs_copyTo site t source o).mono (hw o ho)

theorem newDirs_makeSitemap {way : Location → Prop}
    (hw : site.options.sitemap = true →
      ∀ l ∈ trail [] ((site.dir / site.out).child Sitemap.fileName).parent.segments, way l)
    (t : FileTree) (pages : List Page) : NewDirs way t (site.makeSitemap t pages).tree := by
  unfold makeSitemap
  split
  · exact .refl _ t
  · next wanted =>
    cases site.sitemapLines pages with
    | error fault => exact .refl _ t
    | ok lines =>
      have made := (newDirs_writeText t ((site.dir / site.out).child Sitemap.fileName) (Sitemap.text lines)).mono
        (hw (by simpa using wanted))
      dsimp only [writeSitemap]
      generalize writeText t _ (Sitemap.text lines) = w at made ⊢
      obtain ⟨t', fault | _⟩ := w
      · dsimp only
        split <;> exact made
      · exact made

theorem newDirs_run {α β : Type} {way : Location → Prop} {step : FileTree → α → Step β} {as : List α} (σ : Schedule)
    (hs : ∀ a ∈ as, ∀ t, NewDirs way t (step t a).tree) (t : FileTree) : NewDirs way t (σ.run step t as).1 := by
  rw [tree_run]
  have each : ∀ a ∈ (picked (σ.order as.length) as).map Prod.snd, ∀ t, NewDirs way t (step t a).tree := fun a ha =>
    hs a ((picked_order_perm σ as).mem_iff.1 ha)
  generalize (picked (σ.order as.length) as).map Prod.snd = bs at each ⊢
  induction bs generalizing t with
  | nil => exact .refl _ t
  | cons b bs ih =>
    exact (each b List.mem_cons_self t).trans (ih _ fun c hc => each c (List.mem_cons_of_mem b hc))

/-- The sitemap stands at a place below the output root. -/
theorem child_sitemap (site : Site) : (site.dir / site.out).child Sitemap.fileName = site.placePath sitemapBelow := by
  simp [placePath, base, sitemapBelow, Path.child, Path.join_ofSegments]

theorem div_child_sitemap (site : Site) : site.dir / site.out.child Sitemap.fileName = site.placePath sitemapBelow := by
  have below : site.out.child Sitemap.fileName = site.out / Path.ofSegments sitemapBelow := by
    simp [Path.child, Path.join_ofSegments, sitemapBelow]
  rw [below, Path.div_div_ofSegments]
  rfl

/-- Where a build makes directories: on the way to the output root, and above outputs. -/
def OnWay (site : Site) (pages : List Page) (sources : List Path) (l : Location) : Prop :=
  l ∈ site.outWay ∨ ∃ o ∈ site.mapped pages sources, l <+: (collapse (site.dir / o).segments).dropLast

/-- The way to a place leads to the output root, and from there down. -/
theorem onWay_of_place {below : List String} {o : Path} (hb : below ≠ []) (hp : Path.Plain below)
    (ho : site.dir / o = site.placePath below) (hm : o ∈ site.mapped pages sources) {l : Location}
    (hl : l ∈ trail [] (site.dir / o).parent.segments) : OnWay site pages sources l := by
  rw [ho] at hl
  rcases (mem_placeWay hb hp).1 hl with hl | ⟨more, -, above, rfl⟩
  · exact .inl hl
  · refine .inr ⟨o, hm, ?_⟩
    rw [ho, collapse_placePath hp, List.dropLast_append_of_ne_nil hb]
    exact (List.prefix_append_right_inj _).2 above

theorem mem_mapped_page {page : Page} {o : Path} (hm : page ∈ pages) (ho : page.output site.out site.ext = .ok o) :
    o ∈ site.mapped pages sources :=
  List.mem_append_left _ (List.mem_append_right _ (List.mem_filterMap.2 ⟨page, hm, toOption_eq_some ho⟩))

theorem mem_mapped_source {source o : Path} (hm : source ∈ sources) (ho : source.output site.out site.ext = .ok o) :
    o ∈ site.mapped pages sources :=
  List.mem_append_right _ (List.mem_filterMap.2 ⟨source, hm, toOption_eq_some ho⟩)

/-- All outputs are places below the output root. -/
theorem place_of_mapped (hp : Dotless pages) (hs : ∀ source ∈ sources, "." ∉ source.segments) {o : Path}
    (ho : o ∈ site.mapped pages sources) :
    ∃ below, below ≠ [] ∧ Path.Plain below ∧ o = site.out / Path.ofSegments below := by
  have ofOutput : ∀ {p : Path}, "." ∉ p.segments → p.output site.out site.ext = .ok o →
      ∃ below, below ≠ [] ∧ Path.Plain below ∧ o = site.out / Path.ofSegments below := fun dots ho =>
    ⟨_, Path.belowOut_ne_nil _ _, Path.plain_belowOut ho dots, (Path.output_ok ho).1⟩
  rcases List.mem_append.1 ho with ho | ho
  · rcases List.mem_append.1 ho with ho | ho
    · split at ho
      · obtain rfl := List.mem_singleton.1 ho
        exact ⟨sitemapBelow, by decide, ⟨by decide, by decide⟩, by simp [Path.child, Path.join_ofSegments, sitemapBelow]⟩
      · cases ho
    · obtain ⟨page, hm, made⟩ := List.mem_filterMap.1 ho
      exact ofOutput (hp page hm) (toOption_eq_some_iff.1 made)
  · obtain ⟨source, hm, made⟩ := List.mem_filterMap.1 ho
    exact ofOutput (hs source hm) (toOption_eq_some_iff.1 made)

theorem isInside_of_mapped (hp : Dotless pages) (hs : ∀ source ∈ sources, "." ∉ source.segments) {o : Path}
    (ho : o ∈ site.mapped pages sources) : IsInside site (collapse (site.dir / o).segments) := by
  obtain ⟨below, nonempty, plain, rfl⟩ := place_of_mapped hp hs ho
  rw [Path.div_div_ofSegments]
  show IsInside site (collapse (site.placePath below).segments)
  rw [collapse_placePath plain]
  exact isInside_append nonempty

/-- Outputs that are apart stand apart. -/
theorem unnested_of_mapped (hp : Dotless pages) (hs : ∀ source ∈ sources, "." ∉ source.segments) {o o' : Path}
    (ho : o ∈ site.mapped pages sources) (ho' : o' ∈ site.mapped pages sources)
    (h : Unnested o.segments o'.segments) :
    Unnested (collapse (site.dir / o).segments) (collapse (site.dir / o').segments) := by
  obtain ⟨below, -, plain, rfl⟩ := place_of_mapped hp hs ho
  obtain ⟨below', -, plain', rfl⟩ := place_of_mapped hp hs ho'
  rw [Path.segments_div_ofSegments, Path.segments_div_ofSegments, unnested_append] at h
  rw [Path.div_div_ofSegments, Path.div_div_ofSegments]
  show Unnested (collapse (site.placePath below).segments) (collapse (site.placePath below').segments)
  rw [collapse_placePath plain, collapse_placePath plain', unnested_append]
  exact h

theorem newDirs_buildIn (hp : Dotless pages) (σ τ : Schedule) (site : Site) (t : FileTree) (entries : List String) :
    NewDirs (OnWay site pages (foundAssets σ site t entries pages)) t (buildIn σ τ site t entries pages).tree := by
  generalize hsources : foundAssets σ site t entries pages = sources
  have onPage : ∀ page ∈ pages, ∀ o, page.output site.out site.ext = .ok o →
      ∀ l ∈ trail [] (site.dir / o).parent.segments, OnWay site pages sources l := fun page hm o ho l hl =>
    onWay_of_place (Path.belowOut_ne_nil _ _) (Path.plain_belowOut ho (hp page hm)) (placePath_of_output ho)
      (mem_mapped_page hm ho) hl
  have onSource : ∀ source ∈ sources, ∀ o, source.output site.out site.ext = .ok o →
      ∀ l ∈ trail [] (site.dir / o).parent.segments, OnWay site pages sources l := fun source hm o ho l hl =>
    onWay_of_place (Path.belowOut_ne_nil _ _) (Path.plain_belowOut ho (asset_of_mem (hsources ▸ hm)).2.1)
      (placePath_of_output ho) (mem_mapped_source hm ho) hl
  have made : NewDirs (OnWay site pages sources) t (site.makeSitemap t pages).tree := by
    refine newDirs_makeSitemap (fun wanted l hl => ?_) t pages
    have mem : site.out.child Sitemap.fileName ∈ site.mapped pages sources := by
      simp [mapped, wanted]
    rw [child_sitemap] at hl
    exact onWay_of_place (by decide) ⟨by decide, by decide⟩ (div_child_sitemap site) mem (div_child_sitemap site ▸ hl)
  have rendered := made.trans (newDirs_run σ (fun page hm => newDirs_renderPage (onPage page hm)) _)
  have gathered : NewDirs (OnWay site pages sources) t (gatherBy σ.run τ.run site t entries pages).tree := by
    refine Step.tree_andThen made fun _ => Step.tree_andThen rendered fun _ => rendered.trans ?_
    show NewDirs _ _ (copyAllBy τ.run site (copyingTree σ site t pages) _).tree
    unfold copyAllBy
    split
    · exact .refl _ _
    · exact newDirs_run τ (fun source hm => newDirs_copyAsset (onSource source (hsources ▸ hm))) _
  exact Step.tree_andThen gathered fun _ => gathered

/-! ## Copies -/

end Site

namespace FileTree

variable {t t' : FileTree}

/-- A file that was copied is at the target, or in the directory there, and still at the source. -/
theorem read_copyFile {source target : Path} (h : (t.copyFile source target).2 = .ok ())
    (other : collapse source.segments ≠ collapse target.segments)
    (other' : collapse source.segments ≠ collapse (target.child source.name).segments) :
    ∃ content, (t.copyFile source target).1.read source = .ok content ∧
      ((t.copyFile source target).1.read target = .ok content ∨ (t.copyFile source target).1.isDir target = true ∧
        (t.copyFile source target).1.read (target.child source.name) = .ok content) := by
  obtain ⟨content, hr, whole⟩ := copyFile_of_ok h
  rw [whole] at h ⊢
  generalize hq : t.destination source target = q at h ⊢
  unfold destination at hq
  have puts : Puts (collapse q.segments = ·) t (t.putFile q content).1 := puts_putFile rfl content
  have apart : collapse source.segments ≠ collapse q.segments := by
    rw [← hq]
    split
    · exact other'
    · exact other
  refine ⟨content, puts.read apart.symm hr, ?_⟩
  by_cases entered : t.isDir target = true
  · obtain rfl : target.child source.name = q := by rwa [if_pos entered] at hq
    exact .inr ⟨puts.grows.isDir entered, read_putFile h⟩
  · obtain rfl : target = q := by rwa [if_neg entered] at hq
    exact .inl (read_putFile h)

end FileTree

namespace Site

open FileTree (NewDirs)

variable {site : Site} {t u : FileTree} {pages : List Page} {sources : List Path}

/-- If the copying went well, what the source holds stands at its output, or in the directory there. -/
def Copied (site : Site) (source : Path) (result : Except Fault Path) (u : FileTree) : Prop :=
  ∀ o, result = .ok o → source.output site.out site.ext = .ok o ∧ ∃ content,
    u.read (site.dir / source) = .ok content ∧ (u.read (site.dir / o) = .ok content ∨
      u.isDir (site.dir / o) = true ∧ u.read ((site.dir / o).child (site.dir / source).name) = .ok content)

/-- Where a copy can go. -/
def Lands (site : Site) (source : Path) (l : Location) : Prop :=
  ∃ o, source.output site.out site.ext = .ok o ∧
    (l = collapse (site.dir / o).segments ∨ l = collapse ((site.dir / o).child (site.dir / source).name).segments)

theorem puts_lands (site : Site) (source : Path) (t : FileTree) :
    Puts (Lands site source) t (site.copyAsset t source).tree :=
  puts_copyAsset (fun o ho => ⟨⟨o, ho, .inl rfl⟩, ⟨o, ho, .inr rfl⟩⟩) t

section
variable {source other : Path}

theorem Lands.isInside (dots : "." ∉ source.segments) (outside : site.isOutput source = false) {l : Location}
    (h : Lands site source l) : IsInside site l := by
  obtain ⟨o, ho, rfl | rfl⟩ := h
  · exact isInside_output ho dots
  · exact isInside_entered ho dots outside

/-- Copies whose outputs are apart go to different places. -/
theorem Lands.apart (dots : "." ∉ source.segments) (outside : site.isOutput source = false)
    (dots' : "." ∉ other.segments) (outside' : site.isOutput other = false)
    (apart : ∀ o o', source.output site.out site.ext = .ok o → other.output site.out site.ext = .ok o' →
      Unnested o.segments o'.segments) {l : Location} (h : Lands site source l) : ¬ Lands site other l := by
  have above : ∀ {p : Path} {o : Path}, p.output site.out site.ext = .ok o → "." ∉ p.segments →
      site.isOutput p = false → (l = collapse (site.dir / o).segments ∨
        l = collapse ((site.dir / o).child (site.dir / p).name).segments) → collapse (site.dir / o).segments <+: l := by
    rintro p o ho hp hs (rfl | rfl)
    · exact List.prefix_refl _
    · exact prefix_entered ho hp hs
  obtain ⟨o, ho, hl⟩ := h
  rintro ⟨o', ho', hl'⟩
  have unnested := unnested_locations ho dots ho' dots' (apart o o' ho ho')
  rcases List.prefix_or_prefix_of_prefix (above ho dots outside hl) (above ho' dots' outside' hl') with hp | hp
  · exact unnested.1 hp
  · exact unnested.2 hp

theorem copied_copyAsset (dots : "." ∉ source.segments) (outside : site.isOutput source = false) (t : FileTree) :
    Copied site source (site.copyAsset t source).result (site.copyAsset t source).tree := by
  intro o hr
  have done := copyAsset_done site source t
  have tree := congrArg Prod.fst done
  have result := congrArg Prod.snd done
  dsimp only [Step.done] at tree result
  rw [hr] at result
  rw [tree]
  cases ho : source.output site.out site.ext with
  | error fault => rw [ho] at result; cases result
  | ok o' =>
    rw [ho] at result
    dsimp only at result ⊢
    have away : ∀ l, Lands site source l → collapse (site.dir / source).segments ≠ l := by
      rintro l lands rfl
      exact outside_of_not_output outside (lands.isInside dots outside).1
    unfold copyTo at result ⊢
    dsimp only at result ⊢
    generalize makeRoom t (site.dir / o') o' = made at result ⊢
    obtain ⟨u, fault | _⟩ := made
    · cases result
    · dsimp only at result ⊢
      cases hf : pathFault? (site.dir / source) with
      | some fault => rw [hf] at result; cases result
      | none =>
        rw [hf] at result
        dsimp only at result ⊢
        cases hc : (u.copyFile (site.dir / source) (site.dir / o')).2 with
        | error fault => rw [hc] at result; cases result
        | ok _ =>
          rw [hc] at result
          cases result
          exact ⟨rfl, FileTree.read_copyFile hc (away _ ⟨o', ho, .inl rfl⟩) (away _ ⟨o', ho, .inr rfl⟩)⟩

/-- A copy stays as long as no file is put where it is, or where its source is. -/
theorem Copied.of_puts {part : Location → Prop} {result : Except Fault Path} {u u' : FileTree}
    (h : Copied site source result u) (puts : Puts part u u') (free : ∀ l, Lands site source l → ¬ part l)
    (kept : ¬ part (collapse (site.dir / source).segments)) : Copied site source result u' := by
  intro o hr
  obtain ⟨ho, content, read, copy⟩ := h o hr
  refine ⟨ho, content, puts.read kept read, copy.imp (fun at_ => ?_) fun ⟨dir, inside⟩ => ?_⟩
  · exact puts.read (free _ ⟨o, ho, .inl rfl⟩) at_
  · exact ⟨puts.grows.isDir dir, puts.read (free _ ⟨o, ho, .inr rfl⟩) inside⟩

theorem spares_copyAsset (dots : "." ∉ source.segments) (outside : site.isOutput source = false)
    (dots' : "." ∉ other.segments) (outside' : site.isOutput other = false)
    (apart : ∀ o o', source.output site.out site.ext = .ok o → other.output site.out site.ext = .ok o' →
      Unnested o.segments o'.segments) : Spares site.copyAsset (Copied site) source other := by
  have away : ∀ {p q : Path}, site.isOutput p = false → "." ∉ q.segments → site.isOutput q = false →
      ¬ Lands site q (collapse (site.dir / p).segments) := fun hp hq hq' lands =>
    outside_of_not_output hp (lands.isInside hq hq').1
  refine ⟨fun r u h => ?_, fun r u h => ?_⟩
  · exact h.of_puts (puts_lands site other u) (fun l hl => hl.apart dots outside dots' outside' apart)
      (away outside dots' outside')
  · exact h.of_puts (puts_lands site source u) (fun l hl hl' => hl'.apart dots outside dots' outside' apart hl)
      (away outside' dots outside)

end

/-! ## Results without a fault -/

theorem eq_map_of_settle {β : Type} {results : List (Except Fault β)} {bs : List β}
    (h : settle results = .ok (bs, [])) : results = bs.map .ok := by
  induction results generalizing bs with
  | nil => cases h; rfl
  | cons r results ih =>
    cases r with
    | ok b =>
      rw [settle, bind_eq_ok_iff] at h
      obtain ⟨⟨bs', faults⟩, settled, same⟩ := h
      cases same
      exact congrArg _ (ih settled)
    | error fault =>
      rw [settle] at h
      split at h
      · obtain ⟨_, -, same⟩ := bind_eq_ok_iff.1 h
        cases same
      · cases h

/-- What each item of a run without a fault leaves stands at the end. -/
theorem run_stands_of_settle {α β : Type} {step : FileTree → α → Step β} {Q : α → Except Fault β → FileTree → Prop}
    {as : List α} {bs : List β} (σ : Schedule) (each : ∀ a ∈ as, ∀ u, Q a (step u a).result (step u a).tree)
    (apart : as.Pairwise (Spares step Q)) (h : settle (σ.run step t as).2.2 = .ok (bs, [])) :
    ∀ a ∈ as, ∃ b ∈ bs, Q a (.ok b) (σ.run step t as).1 := by
  intro a ha
  have stands := run_stands (t := t) σ each apart
  rw [eq_map_of_settle h, List.forall₂_map_right_iff] at stands
  exact mem_of_forall₂ stands.flip ha

section
variable {σ τ : Schedule} {entries : List String} {r : Result}

/-- All phases of a build without a fault are without a fault. -/
theorem phases_of_isOk (h : (buildIn σ τ site t entries pages).result = .ok r) (ok : r.isOk = true) :
    (site.makeSitemap t pages).result = .ok (r.sitemap, []) ∧
    (∃ all, settle (σ.run site.renderPage (site.makeSitemap t pages).tree pages).2.2 = .ok (all, [])) ∧
    settle (τ.run site.copyAsset (copyingTree σ site t pages) (foundAssets σ site t entries pages)).2.2 =
      .ok (r.copied, []) ∧
    (buildIn σ τ site t entries pages).tree =
      (τ.run site.copyAsset (copyingTree σ site t pages) (foundAssets σ site t entries pages)).1 := by
  obtain ⟨gathered, hg, finished, tree⟩ := Step.exists_of_andThen h
  obtain ⟨⟨lines, faults⟩, hm, hr, tree'⟩ := Step.exists_of_andThen hg
  obtain ⟨all, ha, hc, tree''⟩ := Step.exists_of_andThen hr
  obtain ⟨⟨copied, copyFaults⟩, hs, rfl⟩ := exists_of_map_eq_ok hc
  cases finished
  have none := List.isEmpty_iff.1 ok
  dsimp only at none hs
  simp only [List.append_eq_nil_iff] at none
  obtain ⟨⟨⟨rfl, allFaults⟩, rfl⟩, -⟩ := none
  have rendered : ∃ all, settle (σ.run site.renderPage (site.makeSitemap t pages).tree pages).2.2 = .ok (all, []) := by
    obtain ⟨⟨good, bad⟩, hsettle, rfl⟩ := exists_of_map_eq_ok (f := fun (found : List Rendered × List Fault) =>
      (⟨pagesAfter pages (σ.run site.renderPage (site.makeSitemap t pages).tree pages).2.2, texts found.1, found.2⟩ :
        RenderedAll)) ha
    cases allFaults
    exact ⟨good, hsettle⟩
  have search : site.searchFault? (Path.rootDirs (entries.map Path.ofString)) = Option.none := by
    unfold copyAllBy at hs
    split at hs
    · cases hs
    · assumption
  have copies : copyAllBy τ.run site (copyingTree σ site t pages) (Path.rootDirs (entries.map Path.ofString)) =
      copyAssetsBy τ.run site (copyingTree σ site t pages) (foundAssets σ site t entries pages) := by
    rw [copyAllBy, search]
    rfl
  refine ⟨hm, rendered, ?_, ?_⟩
  · have := congrArg Step.result copies
    exact this.symm.trans hs
  · exact ((tree.trans tree').trans tree'').trans (congrArg Step.tree copies)

/-- The sitemap is there once it has been written. -/
theorem read_makeSitemap {lines : List String} (wanted : site.options.sitemap = true)
    (h : (site.makeSitemap t pages).result = .ok (lines, [])) :
    ∃ bytes, site.sitemapLines pages = .ok lines ∧ Text.encode (Sitemap.text lines) = .ok bytes ∧
      (site.makeSitemap t pages).tree.read ((site.dir / site.out).child Sitemap.fileName) = .ok bytes := by
  have made := lines_of_makeSitemap wanted h
  unfold makeSitemap at h ⊢
  simp only [wanted, Bool.not_true, Bool.false_eq_true, if_false, made] at h ⊢
  cases written : site.writeSitemap t lines with
  | mk t' result =>
    rw [written] at h
    cases result with
    | error fault =>
      dsimp only at h
      split at h <;> cases h
    | ok _ =>
      have wrote : (writeText t ((site.dir / site.out).child Sitemap.fileName) (Sitemap.text lines)).2 = .ok () :=
        congrArg Prod.snd written
      obtain ⟨bytes, encoded, read⟩ := read_writeText wrote
      have tree : (writeText t ((site.dir / site.out).child Sitemap.fileName) (Sitemap.text lines)).1 = t' :=
        congrArg Prod.fst written
      exact ⟨bytes, trivial, encoded, tree ▸ read⟩

/-- Every page has an output if all were rendered. -/
theorem outputs_of_settle {u : FileTree} {all : List Rendered}
    (h : settle (σ.run site.renderPage u pages).2.2 = .ok (all, [])) :
    ∀ page ∈ pages, ∃ o, page.output site.out site.ext = .ok o := by
  have stands := run_stands_of_settle (t := u)
    (Q := fun page result _ => ∀ rendered, result = .ok rendered → ∃ o, page.output site.out site.ext = .ok o) σ
    (fun page _ u rendered hr => by
      cases ho : page.output site.out site.ext with
      | error fault => rw [renderPage, ho] at hr; cases hr
      | ok o => exact ⟨o, rfl⟩)
    (List.pairwise_of_forall fun _ _ => ⟨fun _ _ => id, fun _ _ => id⟩) h
  intro page hm
  obtain ⟨rendered, -, has⟩ := stands page hm
  exact has rendered rfl

/-! ## Outputs that are apart -/

/-- The outputs of pages and assets and the sitemap are apart from each other. -/
def Apart (site : Site) (pages : List Page) (sources : List Path) : Prop :=
  (site.mapped pages sources).Pairwise fun o o' => Unnested o.segments o'.segments

instance (site : Site) (pages : List Page) (sources : List Path) : Decidable (Apart site pages sources) :=
  inferInstanceAs (Decidable (List.Pairwise _ _))

section
variable {o o' : Path} (hp : Dotless pages) (hs : ∀ source ∈ sources, "." ∉ source.segments)
  (apart : Apart site pages sources)
include hp hs apart

theorem Apart.unnested (ho : o ∈ site.mapped pages sources) (ho' : o' ∈ site.mapped pages sources) (hne : o ≠ o') :
    Unnested (collapse (site.dir / o).segments) (collapse (site.dir / o').segments) := by
  have : Std.Symm fun o o' : Path => Unnested o.segments o'.segments := ⟨fun _ _ h => h.symm⟩
  exact unnested_of_mapped hp hs ho ho' (List.Pairwise.forall apart ho ho' hne)

/-- Where a directory stands at an output that was free, the path to the output root leads through it. -/
theorem Apart.mem_outWay (made : NewDirs (OnWay site pages sources) t u) (ho : o ∈ site.mapped pages sources)
    (free : t.get? (collapse (site.dir / o).segments) = none)
    (dir : u.get? (collapse (site.dir / o).segments) = some .dir) :
    collapse (site.dir / o).segments ∈ site.outWay := by
  rcases made _ dir with old | onWay | ⟨o', ho', above⟩
  · rw [free] at old
    cases old
  · exact onWay
  · have nonempty : collapse (site.dir / o').segments ≠ [] := fun nil => by
      have inside := isInside_of_mapped hp hs ho'
      rw [nil] at inside
      exact inside.2 (List.prefix_nil.1 inside.1).symm
    obtain ⟨under, strictly⟩ := (FileTree.prefix_dropLast_iff nonempty).1 above
    have different : o ≠ o' := fun same => strictly (by rw [same])
    exact absurd under (Apart.unnested hp hs apart ho ho' different).1

end

/-- Copies whose outputs are apart all stand when all assets were copied. -/
theorem copies_stand (τ : Schedule) (hs : ∀ source ∈ sources, "." ∉ source.segments ∧ site.isOutput source = false)
    (apart : Apart site pages sources) {copied : List Path}
    (h : settle (τ.run site.copyAsset u sources).2.2 = .ok (copied, [])) :
    ∀ source ∈ sources, ∃ o ∈ copied, Copied site source (.ok o) (τ.run site.copyAsset u sources).1 := by
  have spares : sources.Pairwise (Spares site.copyAsset (Copied site)) := by
    refine (List.pairwise_filterMap.1 (List.pairwise_append.1 apart).2.1).imp_of_mem fun {p q} hp hq hu => ?_
    exact spares_copyAsset (hs p hp).1 (hs p hp).2 (hs q hq).1 (hs q hq).2 fun o o' ho ho' =>
      hu o (toOption_eq_some ho) o' (toOption_eq_some ho')
  exact run_stands_of_settle τ (fun source hm u => copied_copyAsset (hs source hm).1 (hs source hm).2 u) spares h

/-- Neither a page nor a copy is put where the sitemap stands. -/
theorem read_sitemap_after {content : ByteArray} (σ τ : Schedule) (hp : Dotless pages)
    (hs : ∀ source ∈ sources, "." ∉ source.segments ∧ site.isOutput source = false)
    (apart : Apart site pages sources) (wanted : site.options.sitemap = true)
    (read : t.read ((site.dir / site.out).child Sitemap.fileName) = .ok content) :
    (τ.run site.copyAsset (σ.run site.renderPage t pages).1 sources).1.read
      ((site.dir / site.out).child Sitemap.fileName) = .ok content := by
  have mem : site.out.child Sitemap.fileName ∈ site.mapped pages sources := by simp [mapped, wanted]
  have place : (site.dir / site.out).child Sitemap.fileName = site.dir / site.out.child Sitemap.fileName := by
    rw [child_sitemap, div_child_sitemap]
  obtain ⟨withPages, -, withCopies⟩ := List.pairwise_append.1 apart
  have before : site.out.child Sitemap.fileName ∈
      if site.options.sitemap then [site.out.child Sitemap.fileName] else [] := by simp [wanted]
  have free : ∀ {o' : Path}, o' ∈ site.mapped pages sources →
      Unnested (site.out.child Sitemap.fileName).segments o'.segments →
        ¬ collapse (site.dir / o').segments <+: collapse (site.dir / site.out.child Sitemap.fileName).segments :=
    fun ho' hu => (unnested_of_mapped hp (fun s hm => (hs s hm).1) mem ho' hu).2
  have pagesPut : Puts (fun l => ∃ page ∈ pages, ∃ o, page.output site.out site.ext = .ok o ∧
      l = collapse (site.dir / o).segments) t (σ.run site.renderPage t pages).1 :=
    puts_run σ (fun page hm => puts_renderPage fun o ho _ => ⟨page, hm, o, ho, rfl⟩) t
  have copiesPut : Puts (fun l => ∃ source ∈ sources, Lands site source l) (σ.run site.renderPage t pages).1
      (τ.run site.copyAsset (σ.run site.renderPage t pages).1 sources).1 :=
    puts_run τ (fun source hm => puts_copyAsset fun o ho =>
      ⟨⟨source, hm, o, ho, .inl rfl⟩, ⟨source, hm, o, ho, .inr rfl⟩⟩) _
  rw [place] at read ⊢
  refine copiesPut.read ?_ (pagesPut.read ?_ read)
  · rintro ⟨source, hm, o, ho, here⟩
    have mem' : o ∈ site.mapped pages sources := mem_mapped_source hm ho
    refine free mem' (withCopies _ (List.mem_append_left _ before) o
      (List.mem_filterMap.2 ⟨source, hm, toOption_eq_some ho⟩)) ?_
    rcases here with here | here
    · exact here ▸ List.prefix_refl _
    · exact here ▸ prefix_entered ho (hs source hm).1 (hs source hm).2
  · rintro ⟨page, hm, o, ho, here⟩
    have ofPage : o ∈ pages.filterMap fun page => (page.output site.out site.ext).toOption :=
      List.mem_filterMap.2 ⟨page, hm, toOption_eq_some ho⟩
    exact free (mem_mapped_page hm ho) ((List.pairwise_append.1 withPages).2.2 _ before o ofPage)
      (here ▸ List.prefix_refl _)

/-! ## The whole build -/

/-- What stands at the end of a build: the sitemap if it is wanted, the text of every page, and a copy of every asset
that was found. -/
structure Delivers (site : Site) (pages : List Page) (sources : List Path) (r : Result) (u : FileTree) : Prop where
  page : ∀ page ∈ pages, ∃ html bytes o, (page.logical, html) ∈ r.rendered ∧ page.output site.out site.ext = .ok o ∧
    Text.encode html = .ok bytes ∧ u.read (site.dir / o) = .ok bytes ∧ IsInside site (collapse (site.dir / o).segments)
  /-- The copy stands at its output, or in a directory there that the path to the output root leads through. -/
  asset : ∀ source ∈ sources, ∃ o ∈ r.copied, ∃ content, source.output site.out site.ext = .ok o ∧
    u.read (site.dir / source) = .ok content ∧
    (u.read (site.dir / o) = .ok content ∧ IsInside site (collapse (site.dir / o).segments) ∨
      collapse (site.dir / o).segments ∈ site.outWay ∧
        u.read ((site.dir / o).child (site.dir / source).name) = .ok content ∧
        IsInside site (collapse ((site.dir / o).child (site.dir / source).name).segments))
  sitemap : site.options.sitemap = true → ∃ bytes, site.sitemapLines pages = .ok r.sitemap ∧
    Text.encode (Sitemap.text r.sitemap) = .ok bytes ∧
    u.read ((site.dir / site.out).child Sitemap.fileName) = .ok bytes ∧
    IsInside site (collapse ((site.dir / site.out).child Sitemap.fileName).segments)

/-- The output root is empty if none of the entries of the tree lies below it. -/
theorem empty_of_entries (h : ∀ e ∈ t.entries, ¬ IsInside site e.1) : ∀ l, IsInside site l → t.get? l = none := by
  intro l inside
  by_contra there
  have nonempty : l ≠ [] := by
    rintro rfl
    exact inside.2 (List.prefix_nil.1 inside.1).symm
  obtain ⟨node, mem⟩ := (FileTree.exists_entry_iff nonempty).2 (Option.isSome_iff_ne_none.2 there)
  exact h _ mem inside

/-- At the end of a build without a fault everything stands, if the output root was empty and the outputs are apart
from each other. -/
theorem delivers_of_isOk (planned : ∀ page ∈ pages, page.Planned site.ext)
    (apart : Apart site pages (foundAssets σ site t entries pages)) (hw : site.options.noWrite = false)
    (empty : ∀ l, IsInside site l → t.get? l = none) (h : (buildIn σ τ site t entries pages).result = .ok r)
    (ok : r.isOk = true) :
    Delivers site pages (foundAssets σ site t entries pages) r (buildIn σ τ site t entries pages).tree := by
  have dots : Dotless pages := fun page hm hdot => ((planned page hm).logical.2.2.1 "." hdot).2.1 rfl
  have assets : ∀ source ∈ foundAssets σ site t entries pages, "." ∉ source.segments ∧ site.isOutput source = false :=
    fun source hm => ⟨(asset_of_mem hm).2.1, (asset_of_mem hm).1⟩
  obtain ⟨made, ⟨all, rendered⟩, copied, tree⟩ := phases_of_isOk h ok
  refine ⟨fun page hm => ?_, fun source hm => ?_, fun wanted => ?_⟩
  · obtain ⟨-, stands⟩ := stands_of_isOk planned (outputs_of_settle rendered) apart hw h ok
    obtain ⟨html, bytes, o, mem, ho, encoded, read⟩ := stands page hm
    exact ⟨html, bytes, o, mem, ho, encoded, read, isInside_output ho (dots page hm)⟩
  · obtain ⟨dotless, outside⟩ := assets source hm
    obtain ⟨o, mem, copy⟩ := copies_stand τ assets apart copied source hm
    obtain ⟨ho, content, read, copy⟩ := copy o rfl
    rw [← tree] at read copy
    refine ⟨o, mem, content, ho, read, copy.imp (⟨·, isInside_output ho dotless⟩) fun ⟨dir, copy⟩ => ?_⟩
    have way := Apart.mem_outWay dots (fun s hs => (assets s hs).1) apart (newDirs_buildIn dots σ τ site t entries)
      (mem_mapped_source hm ho) (empty _ (isInside_output ho dotless)) (FileTree.isDir_iff.1 dir).2
    exact ⟨way, copy, isInside_entered ho dotless outside⟩
  · obtain ⟨bytes, lines, encoded, read⟩ := read_makeSitemap wanted made
    refine ⟨bytes, lines, encoded, ?_, ?_⟩
    · rw [tree]
      exact read_sitemap_after σ τ dots assets apart wanted read
    · rw [location_of_sitemap]
      exact isInside_append (by decide)

end

end Site

end StaticSite
