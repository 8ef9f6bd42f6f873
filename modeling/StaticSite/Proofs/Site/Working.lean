import StaticSite.Proofs.Path.Output
import StaticSite.Proofs.Site.Reading
import StaticSite.Proofs.Site.Writing

/-!
# Work on pages and assets

To render a page and to copy an asset are local to the area of the output path (`local_renderPage`,
`local_copyAsset`), and so is to write the sitemap (`local_makeSitemap`). The areas of two paths are apart if
neither of their output paths is at or below the other (`pathArea_apart`).
-/

namespace StaticSite

open FileTree (Area Local IsTree)

namespace Site

/-- The tree and the result of a step. -/
def Step.done {α : Type} (step : Step α) : FileTree × Except Fault α := (step.tree, step.result)

variable {site : Site} {exact : Prop} {K : FileTree → Prop} {t₀ : FileTree}

/-- The area of the output path of a path. -/
def pathArea (site : Site) (p : Path) : Area :=
  match p.output site.out site.ext with
  | .ok _ => site.area (p.belowOut site.ext)
  | .error _ => .none

theorem unnested_append {l below below' : List String} :
    Unnested (l ++ below) (l ++ below') ↔ Unnested below below' := by
  simp [Unnested, List.prefix_append_right_inj]

theorem pathArea_apart {p q : Path} (hp : "." ∉ p.segments) (hq : "." ∉ q.segments)
    (h : ∀ o o', p.output site.out site.ext = .ok o → q.output site.out site.ext = .ok o' →
      Unnested o.segments o'.segments) : (site.pathArea p).Apart (site.pathArea q) := by
  unfold pathArea
  cases ho : p.output site.out site.ext with
  | error fault => exact ⟨fun _ h => h.elim, fun _ _ h => h.elim⟩
  | ok o =>
    cases ho' : q.output site.out site.ext with
    | error fault => exact ⟨fun _ _ => ⟨fun h => h.elim, fun h => h.elim⟩, fun _ h => h.elim⟩
    | ok o' =>
      have apart := h o o' ho ho'
      rw [(Path.output_ok ho).1, (Path.output_ok ho').1, Path.segments_div_ofSegments,
        Path.segments_div_ofSegments, unnested_append] at apart
      exact area_apart apart (Path.belowOut_ne_nil _ _) (Path.belowOut_ne_nil _ _)
        (Path.plain_belowOut ho hp) (Path.plain_belowOut ho' hq)

/-! ## Pages -/

/-- Goes on with what was read, unless that is a fault. -/
def goOn {α β : Type} (next : α → FileTree → FileTree × Except Fault β) (read : Except Fault α)
    (t : FileTree) : FileTree × Except Fault β :=
  match read with
  | .error fault => (t, .error fault)
  | .ok a => next a t

/-- Work is local if what is read for it is near and what is done with that is local. -/
theorem local_goOn {α β : Type} {A : Area} {look : FileTree → Except Fault α}
    {next : α → FileTree → FileTree × Except Fault β}
    (hl : ∀ {t t'}, K t → K t' → Near Fault.Alike exact (look t) (look t'))
    (hn : ∀ a, Local K A (Near Fault.Alike exact) (next a)) :
    Local K A (Near Fault.Alike exact) fun t => goOn next (look t) t := by
  have still : Local K A (fun _ _ => True) fun t => (t, ()) := .still fun _ _ _ => trivial
  -- two trees either both stop the work, or let the same operation go on
  have cases_near : ∀ {t t'}, K t → K t' → (∃ a, look t = .ok a ∧ look t' = .ok a) ∨
      ∃ f f', look t = .error f ∧ look t' = .error f' ∧
        Near Fault.Alike exact (.error f : Except Fault β) (.error f') := by
    intro t t' ht ht'
    rcases hl ht ht' with he | ⟨hn, f, f', hf, hf', alike⟩
    · cases h : look t with
      | ok a => exact .inl ⟨a, rfl, he.trans h⟩
      | error f => exact .inr ⟨f, f, rfl, he.trans h, .refl _⟩
    · exact .inr ⟨f, f', hf, hf', .inr ⟨hn, f, f', rfl, rfl, alike⟩⟩
  refine ⟨fun {t} ht => ?_, fun {t} ht l hlo => ?_, fun {t t'} ht ht' hs l hlo => ?_,
    fun {t t'} ht ht' hs l hlw => ?_, fun {t t'} ht ht' hs => ?_⟩
  · unfold goOn
    cases look t with
    | error f => exact ht
    | ok a => exact (hn a).keeps ht
  · unfold goOn
    cases look t with
    | error f => exact .inl rfl
    | ok a => exact (hn a).frame ht l hlo
  · rcases cases_near ht ht' with ⟨a, h, h'⟩ | ⟨f, f', h, h', -⟩ <;> simp only [goOn, h, h']
    · exact (hn a).own ht ht' hs l hlo
    · exact still.own ht ht' hs l hlo
  · rcases cases_near ht ht' with ⟨a, h, h'⟩ | ⟨f, f', h, h', -⟩ <;> simp only [goOn, h, h']
    · exact (hn a).way ht ht' hs l hlw
    · exact still.way ht ht' hs l hlw
  · rcases cases_near ht ht' with ⟨a, h, h'⟩ | ⟨f, f', h, h', near⟩ <;> simp only [goOn, h, h']
    · exact (hn a).near ht ht' hs
    · exact near

/-- What is decided about a page that goes to `output` before anything is written. -/
def drafted (site : Site) (page : Page) (output : Path) (t : FileTree) : Except Fault Rendered :=
  match site.attached? t page with
  | .error fault => .error (.data fault)
  | .ok (some page) => .ok ⟨page, none⟩
  | .ok none => (site.pageText t page output).2.map fun html => ⟨page, some html⟩

/-- Writes the text of a page, if there is one. -/
def saved (site : Site) (output : Path) (r : Rendered) (t : FileTree) : FileTree × Except Fault Rendered :=
  match r.html with
  | none => (t, .ok r)
  | some html =>
    if site.options.noWrite then (t, .ok r)
    else ((writeText t (site.dir / output) html).1, (writeText t (site.dir / output) html).2.map fun () => r)

theorem renderPage_done (site : Site) (page : Page) (t : FileTree) :
    (site.renderPage t page).done = match page.output site.out site.ext with
      | .error fault => (t, .error (.place fault))
      | .ok output => goOn (site.saved output) (site.drafted page output t) t := by
  unfold renderPage goOn drafted saved
  cases page.output site.out site.ext with
  | error fault => rfl
  | ok output =>
    dsimp only
    cases site.attached? t page with
    | error fault => rfl
    | ok attached =>
      cases attached with
      | some page => rfl
      | none =>
        dsimp only
        rcases site.pageText t page output with ⟨calls, fault | html⟩
        · rfl
        · simp only [savePage, Except.map]
          cases site.options.noWrite with
          | true => rfl
          | false =>
            simp only [Bool.false_eq_true, if_false]
            rcases writeText t (site.dir / output) html with ⟨t', fault | u⟩ <;> rfl

theorem near_drafted {t t' : FileTree} (h : Varied site t₀ t) (h' : Varied site t₀ t')
    (hx : exact → Straight site t₀) (hd : Path.Plain site.dir.segments) {page : Page}
    (hr : page.template.IsRead) (ha : IsApart site page.template) (output : Path) :
    Near Fault.Alike exact (site.drafted page output t) (site.drafted page output t') := by
  unfold drafted
  rcases near_attached h h' hx ha with he | ⟨hn, f, f', hf, hf', alike⟩
  · rw [he]
    cases site.attached? t page with
    | error fault => exact .refl _
    | ok attached =>
      cases attached with
      | some page => exact .refl _
      | none => exact (near_pageText h h' hx hd hr ha output).map _
  · rw [hf, hf']
    exact .inr ⟨hn, _, _, rfl, rfl, .data f f' alike⟩

theorem local_saved (hG : Ground site exact K) {p o : Path} (ho : p.output site.out site.ext = .ok o)
    (hr : "." ∉ p.segments) (r : Rendered) :
    Local K (site.area (p.belowOut site.ext)) (Near Fault.Alike exact) (site.saved o r) := by
  have still : Local K (site.area (p.belowOut site.ext)) (Near Fault.Alike exact)
      fun t => (t, (.ok r : Except Fault Rendered)) := .still fun _ _ _ => .refl _
  have target : site.dir / o = site.placePath (p.belowOut site.ext) := by
    rw [(Path.output_ok ho).1]
    exact Path.div_div_ofSegments site.dir site.out _
  have written := fun html => local_writeText hG (Path.belowOut_ne_nil p site.ext) (Path.plain_belowOut ho hr) html
  unfold saved
  cases r.html with
  | none => exact still
  | some html =>
    dsimp only
    split
    · exact still
    · rw [target]
      exact (written html).map fun _ _ near => near.map _

/-- To render a page is local to the area of its output path. -/
theorem local_renderPage (hG : Ground site exact K) (hK : ∀ {t}, K t → Varied site t₀ t)
    (hx : exact → Straight site t₀) (hd : Path.Plain site.dir.segments) {page : Page}
    (hl : "." ∉ page.logical.segments) (hr : page.template.IsRead) (ha : IsApart site page.template) :
    Local K (site.pathArea page.logical) (Near Fault.Alike exact) fun t => (site.renderPage t page).done := by
  simp only [renderPage_done]
  unfold pathArea Page.output
  cases ho : page.logical.output site.out site.ext with
  | error fault => exact .still fun _ _ _ => .refl _
  | ok o =>
    dsimp only
    exact local_goOn (fun ht ht' => near_drafted (hK ht) (hK ht') hx hd hr ha o) (local_saved hG ho hl)

/-- The page gets the array that its template is bound to, and no text. -/
def Attaches (site : Site) (t : FileTree) (page : Page) : Prop := ∃ q, site.attached? t page = .ok (some q)

theorem attaches_iff {t : FileTree} {page : Page} : Attaches site t page ↔
    page.place = none ∧ page.template.isPartial = true ∧
      ∃ items, site.bindings.array? t page.template = .ok (some items) := by
  unfold Attaches attached?
  cases page.place with
  | some place => simp [pure, Except.pure]
  | none =>
    cases page.template.isPartial with
    | false => simp [pure, Except.pure]
    | true =>
      cases site.bindings.array? t page.template with
      | error fault => simp [bind, Except.bind]
      | ok items => cases items <;> simp [bind, Except.bind, pure, Except.pure]

/-- The array joins the data of the page under its key. -/
theorem eq_of_attached {t : FileTree} {page q : Page} (h : site.attached? t page = .ok (some q)) :
    page.place = none ∧ page.template.isPartial = true ∧
      ∃ items, site.bindings.array? t page.template = .ok (some items) ∧
        q = { page with data := page.data.set (.text (site.bindings.arrayKey page.template)) (.list items) } := by
  obtain ⟨hp, hq, items, ha⟩ := attaches_iff.1 ⟨q, h⟩
  refine ⟨hp, hq, items, ha, ?_⟩
  unfold attached? at h
  simp only [hp, hq, ha, bind, Except.bind, pure, Except.pure] at h
  simpa [hp] using h.symm

theorem page_of_attached {t : FileTree} {page q : Page} (h : site.attached? t page = .ok (some q)) :
    q.template = page.template ∧ q.place = page.place := by
  obtain ⟨-, -, items, -, rfl⟩ := eq_of_attached h
  exact ⟨rfl, rfl⟩

/-- All that can come of the work on a page: it stops before anything is written, it gets its array, or it has a text,
which is written if that is wanted. -/
theorem renderPage_cases (site : Site) (t : FileTree) (page : Page) :
    (∃ fault, (site.renderPage t page).done = (t, .error fault)) ∨
      (∃ q, site.attached? t page = .ok (some q) ∧ (site.renderPage t page).done = (t, .ok ⟨q, none⟩)) ∨
      ∃ o html, page.output site.out site.ext = .ok o ∧ site.attached? t page = .ok none ∧
        (site.pageText t page o).2 = .ok html ∧
        (site.renderPage t page).done = if site.options.noWrite then (t, .ok ⟨page, some html⟩)
          else ((writeText t (site.dir / o) html).1,
            (writeText t (site.dir / o) html).2.map fun () => ⟨page, some html⟩) := by
  rw [renderPage_done]
  cases page.output site.out site.ext with
  | error fault => exact .inl ⟨_, rfl⟩
  | ok o =>
    dsimp only
    unfold goOn drafted
    cases site.attached? t page with
    | error fault => exact .inl ⟨_, rfl⟩
    | ok attached =>
      cases attached with
      | some q => exact .inr (.inl ⟨q, rfl, rfl⟩)
      | none =>
        dsimp only
        cases hp : (site.pageText t page o).2 with
        | error fault => exact .inl ⟨_, rfl⟩
        | ok html => exact .inr (.inr ⟨o, html, rfl, rfl, hp, rfl⟩)

/-- A page that has a text is the page as it was, and only writing the text changes files. -/
theorem rendered_text {t : FileTree} {page after : Page} {html : String}
    (h : (site.renderPage t page).result = .ok ⟨after, some html⟩) :
    after = page ∧ site.attached? t page = .ok none ∧ ∃ o, page.output site.out site.ext = .ok o ∧
      (site.pageText t page o).2 = .ok html ∧
        (site.options.noWrite = true → (site.renderPage t page).tree = t) := by
  rcases site.renderPage_cases t page with ⟨_, done⟩ | ⟨_, -, done⟩ | ⟨o, text, ho, attached, ht, done⟩
  · cases h.symm.trans (congrArg Prod.snd done)
  · cases h.symm.trans (congrArg Prod.snd done)
  · split at done
    · cases h.symm.trans (congrArg Prod.snd done)
      exact ⟨rfl, attached, o, ho, ht, fun _ => congrArg Prod.fst done⟩
    · next wanted =>
      obtain ⟨_, -, same⟩ := map_eq_ok_iff.1 (h.symm.trans (congrArg Prod.snd done)).symm
      cases same
      exact ⟨rfl, attached, o, ho, ht, fun unwanted => absurd unwanted wanted⟩

/-- A page that has no text got the array that joins its data, and nothing was written. -/
theorem rendered_array {t : FileTree} {page after : Page}
    (h : (site.renderPage t page).result = .ok ⟨after, none⟩) :
    site.attached? t page = .ok (some after) ∧ (site.renderPage t page).tree = t := by
  rcases site.renderPage_cases t page with ⟨_, done⟩ | ⟨q, attached, done⟩ | ⟨o, text, -, -, -, done⟩
  · cases h.symm.trans (congrArg Prod.snd done)
  · cases h.symm.trans (congrArg Prod.snd done)
    exact ⟨attached, congrArg Prod.fst done⟩
  · have result := h.symm.trans (congrArg Prod.snd done)
    split at result
    · cases result
    · obtain ⟨_, -, same⟩ := map_eq_ok_iff.1 result.symm
      cases same

/-- A page that was worked on without a fault has a text, or it got the array that joins its data. -/
theorem rendered_cases {t : FileTree} {page : Page} {r : Rendered} (h : (site.renderPage t page).result = .ok r) :
    (∃ html, r = ⟨page, some html⟩ ∧ site.attached? t page = .ok none) ∨
      ∃ q, r = ⟨q, none⟩ ∧ site.attached? t page = .ok (some q) := by
  obtain ⟨after, _ | html⟩ := r
  · exact .inr ⟨after, rfl, (rendered_array h).1⟩
  · obtain ⟨rfl, attached, -⟩ := rendered_text h
    exact .inl ⟨html, rfl, attached⟩

/-- To render a page gives it back, or the page with the array that joins its data. -/
theorem page_of_rendered {t : FileTree} {page : Page} {r : Rendered}
    (h : (site.renderPage t page).result = .ok r) : r.page = page ∨ site.attached? t page = .ok (some r.page) := by
  rcases rendered_cases h with ⟨html, rfl, -⟩ | ⟨q, rfl, hq⟩
  · exact .inl rfl
  · exact .inr hq

/-! ## Assets -/

theorem copyAsset_done (site : Site) (source : Path) (t : FileTree) :
    (site.copyAsset t source).done = match source.output site.out site.ext with
      | .error fault => (t, .error (.place fault))
      | .ok output =>
        ((site.copyTo t source output).1, (site.copyTo t source output).2.map fun () => output) := by
  unfold copyAsset
  cases source.output site.out site.ext with
  | error fault => rfl
  | ok output =>
    dsimp only
    rcases site.copyTo t source output with ⟨t', fault | u⟩ <;> rfl

theorem outside_of_not_output {p : Path} (h : site.isOutput p = false) :
    ¬ site.outLocation <+: Path.collapse (site.dir / p).segments := by
  intro hp
  have below : site.isOutput p = true := by
    simp only [isOutput, Path.isBelow, Path.relativeTo?, outRoot, Path.resolve]
    rw [if_pos ⟨trivial, List.isPrefixOf_iff_prefix.2 hp⟩]
    rfl
  rw [below] at h; cases h

theorem isOutside_of_output {source o : Path} (ho : source.output site.out site.ext = .ok o)
    (hr : "." ∉ source.segments) (hs : site.isOutput source = false) : IsOutside site source := by
  obtain ⟨-, -, hne, hup⟩ := Path.output_ok ho
  have hn : source.segments ≠ [] := fun h => hne (by rw [h]; rfl)
  have named : source.name ∈ source.segments.drop 1 := by
    have last := List.getLast?_drop (l := source.segments) (i := 1)
    have long : ¬ source.segments.length ≤ 1 := fun h => hne (List.drop_eq_nil_of_le h)
    rw [if_neg long, List.getLast?_eq_some_getLast hn] at last
    rw [Path.name, List.getLastD_eq_getLast?, List.getLast?_eq_some_getLast hn]
    exact List.mem_of_getLast? last
  refine ⟨hn, ⟨?_, ?_⟩, ?_⟩
  · rw [List.mem_singleton]
    exact fun h => hr (h ▸ List.mem_of_mem_drop named)
  · rw [List.mem_singleton]
    exact fun h => hup (h ▸ named)
  · exact outside_of_not_output hs

/-- To copy an asset is local to the area of its output path if what is read of it is always the same. -/
theorem local_copyAsset (hG : Ground site exact K) {source : Path} (hr : "." ∉ source.segments)
    (hs : site.isOutput source = false)
    (hread : ∀ {t t'}, K t → K t' →
      Near (fun _ _ => True) exact (t.read (site.dir / source)) (t'.read (site.dir / source))) :
    Local K (site.pathArea source) (Near Fault.Alike exact) fun t => (site.copyAsset t source).done := by
  simp only [copyAsset_done]
  unfold pathArea
  cases ho : source.output site.out site.ext with
  | error fault => exact .still fun _ _ _ => .refl _
  | ok o =>
    obtain ⟨rfl, -, -, -⟩ := Path.output_ok ho
    exact (local_copyTo hG (isOutside_of_output ho hr hs) (Path.belowOut_ne_nil _ _)
      (Path.plain_belowOut ho hr) hread).map fun _ _ near => near.map _

/-! ## Sitemap -/

/-- The segments of the sitemap below the output root. -/
def sitemapBelow : List String := [Sitemap.fileName]

/-- To write the sitemap changes nothing but the sitemap. -/
theorem local_makeSitemap (hG : Ground site exact K) (pages : List Page) :
    Local K (site.area sitemapBelow) (fun _ _ => True) fun t => (site.makeSitemap t pages).done := by
  have target : (site.dir / site.out).child Sitemap.fileName = site.placePath sitemapBelow := by
    simp [placePath, base, sitemapBelow, Path.child, Path.join_ofSegments]
  have still : Local K (site.area sitemapBelow) (fun _ _ => True) fun t => (t, ()) :=
    .still fun _ _ _ => trivial
  have written := fun lines => local_writeText hG (by simp [sitemapBelow])
    (show Path.Plain sitemapBelow from ⟨by decide, by decide⟩) (Sitemap.text lines)
  cases wanted : site.options.sitemap with
  | false => exact still.of_tree fun t => by simp [Step.done, makeSitemap, wanted, Step.still]
  | true =>
    cases hl : site.sitemapLines pages with
    | error fault => exact still.of_tree fun t => by simp [Step.done, makeSitemap, wanted, hl, Step.still]
    | ok lines =>
      refine (written lines).of_tree fun t => ?_
      simp only [Step.done, makeSitemap, wanted, hl, writeSitemap, target, Bool.not_true,
        Bool.false_eq_true, if_false]
      rcases writeText t (site.placePath sitemapBelow) (Sitemap.text lines) with ⟨t', fault | u⟩
      · dsimp only
        split <;> rfl
      · rfl

end Site

end StaticSite
