import StaticSite.Proofs.FileTree.Growing
import StaticSite.Proofs.Site.AnyOrder

/-!
# Work on pages and assets, done again

To put something below the output root is lasting work: done again on a tree that has grown from the one it left,
it comes to the same end, finds nothing to make and puts the same file at the same place (`lasting_deposit`). So it
is for writing a text, copying a file, rendering a page and making the sitemap, and a second run through a list
of pages or assets follows the trace of the first one (`LastingAll.retraced`).
-/

namespace StaticSite.Site

open FileTree (Grows Leaves Lasting Retraced imprint trail)

variable {site : Site} {exact : Prop} {K K' : FileTree → Prop} {below : List String} {t t' w T : FileTree}

/-! ## Putting a file -/

theorem plain_place (hp : Path.Plain below) : Path.Plain (site.outLocation ++ below) := by
  have out : Path.Plain site.outLocation := Path.plain_collapse _
  exact ⟨by simp [out.1, hp.1], by simp [out.2, hp.2]⟩

/-- The directories above a place are made plainly. -/
theorem leaves_room (below : List String) (t : FileTree) : Leaves t (site.room below t) none where
  put h := nomatch h
  other {l} _ := (grown_room below t l).imp_right fun ⟨hw, hn, hd⟩ =>
    ⟨hn, hd, FileTree.plain_of_mem_trail ⟨by simp, by simp⟩ hw⟩

/-- Room that was made once is there, if there was a way at all. -/
theorem room_again (h : Grows (site.room below t) w) :
    site.room below w = w ∧ (Clear site below w ↔ Clear site below t) := by
  refine ⟨FileTree.pave_again h, fun hc l hl => ?_, fun hc l hl => ?_⟩
  · by_contra hf
    have file := h.file ((FileTree.hasFile_pave t [] _ l).trans (by simpa using hf))
    rw [hc l hl] at file
    cases file
  · exact FileTree.hasFile_of_dir (h.dir (room_of_clear hc l hl))

/-- A payload goes to its place, plainly, and goes there again once the tree has grown. -/
structure Stays {β : Type} (site : Site) (exact : Prop) (K K' : FileTree → Prop) (below : List String)
    (payload payload' : Payload β) : Prop where
  plain : ∀ {t l content}, K t → (payload t).1 = some (l, content) → Path.Plain l
  again : ∀ {t w}, K t → K' w → Grows (putting payload t).1 w →
    (payload' w).1 = (payload t).1 ∧ Near Fault.Alike exact (payload t).2 (payload' w).2

theorem leaves_putting {β : Type} {payload payload' : Payload β} (hf : Fits site exact K below payload)
    (hs : Stays site exact K K' below payload payload') (ht : K t)
    (hw : ∀ m ∈ site.placeWay below, t.get? m = some .dir) : Leaves t (putting payload t).1 (payload t).1 := by
  have get := get?_putting hf ht hw
  refine ⟨fun {l content} hm => ?_, fun {l} hm => .inl ?_⟩
  · refine ⟨(hf.place ht hw hm).2.1, ?_, hs.plain ht hm⟩
    rw [get, hm]
    simp
  · rw [get]
    cases hp : (payload t).1 with
    | none => rfl
    | some m =>
      obtain ⟨l', content⟩ := m
      dsimp only
      refine if_neg ?_
      rintro rfl
      exact hm content hp

/-- Why there is no room is said again, up to the system's reason. -/
theorem near_blocked (hG : Ground site exact K) (hb : below ≠ []) (hp : Path.Plain below) (ht : K t)
    (hc : ¬ Clear site below t) (h : Grows t w) {f f' : OsFault} {β : Type}
    (hf : (t.makeDirs (site.base / Path.ofSegments below).parent).2 = .error f)
    (hf' : (w.makeDirs (site.base / Path.ofSegments below).parent).2 = .error f') (named : Path) :
    Near Fault.Alike exact (.error (.write named f) : Except Fault β) (.error (.write named f')) := by
  by_cases he : exact
  · have blocked : ∃ l ∈ site.placeWay below, t.hasFile l = true := by simpa [Clear] using hc
    have first := hurdle?_of_straight hG he hb hp ht blocked
    have hurdle := FileTree.hurdle?_grows h first
    have blocked' : ∃ l ∈ site.placeWay below, w.hasFile l = true := by
      obtain ⟨l, hl, file⟩ := blocked
      exact ⟨l, hl, h.file file⟩
    rw [FileTree.makeDirs_refused blocked first] at hf
    rw [FileTree.makeDirs_refused blocked' (hurdle ▸ first)] at hf'
    have same : w.refusal (site.base / Path.ofSegments below).parent =
        t.refusal (site.base / Path.ofSegments below).parent := by
      rw [FileTree.refusal, FileTree.refusal, ← placeWay, hurdle]
    rw [← Except.error.inj hf, ← Except.error.inj hf', same]
    exact .refl _
  · exact .inr ⟨he, _, _, rfl, rfl, .write named f f'⟩

/-- To put something at a place is lasting work, if what is put stays. -/
theorem lasting_deposit {β : Type} {payload payload' : Payload β} (hG : Ground site exact K)
    (hf : Fits site exact K below payload) (hs : Stays site exact K K' below payload payload') (hb : below ≠ [])
    (hp : Path.Plain below) (named : Path) :
    Lasting K K' (site.area below).own (Near Fault.Alike exact)
      (deposit (site.base / Path.ofSegments below) named payload)
      (deposit (site.base / Path.ofSegments below) named payload') := by
  intro t ht
  cases hpath : pathFault? (site.base / Path.ofSegments below).parent with
  | some fault =>
    have still : ∀ (q : Payload β) u, deposit (site.base / Path.ofSegments below) named q u = (u, .error fault) :=
      fun q u => by rw [deposit, makeRoom, hpath]
    refine ⟨none, fun _ _ h => (by cases h), ?_, fun w _ _ => ?_⟩
    · rw [still]
      exact .still t
    · rw [still, still]
      exact ⟨rfl, .refl _⟩
  | none =>
    have kept : K (site.room below t) := hG.keeps_room hb hp ht
    by_cases hc : Clear site below t
    · have way := room_of_clear hc
      have leaves := leaves_putting hf hs kept way
      rw [deposit_of_clear hpath hc]
      refine ⟨(payload (site.room below t)).1, fun l content hm => ?_, (leaves_room below t).andThen leaves,
        fun w hw grows => ?_⟩
      · obtain ⟨under, notDir, -⟩ := hf.place kept way hm
        refine ⟨under, fun ho => notDir (way l ?_)⟩
        rw [placeWay_eq hb]
        exact List.mem_append_left _ ho
      · obtain ⟨room, clear⟩ := room_again (leaves.grows.trans grows)
        obtain ⟨mark, near⟩ := hs.again kept hw grows
        rw [deposit_of_clear hpath (clear.2 hc), room, result_putting, result_putting]
        refine ⟨?_, near⟩
        rw [← mark, putting]
        rcases payload' w with ⟨- | ⟨l, content⟩, result⟩ <;> rfl
    · obtain ⟨f, hm, hd⟩ := @deposit_of_blocked site below β payload named _ hpath hc
      rw [hd]
      refine ⟨none, fun _ _ h => (by cases h), leaves_room below t, fun w hw grows => ?_⟩
      obtain ⟨room, clear⟩ := room_again grows
      obtain ⟨f', hm', hd'⟩ := @deposit_of_blocked site below β payload' named w hpath (clear.not.2 hc)
      rw [hd', room]
      exact ⟨rfl, near_blocked hG hb hp ht hc ((leaves_room below t).grows.trans grows) hm hm' named⟩

/-! ## Texts and copies -/

theorem not_dir_of_put {l : Location} {content : ByteArray} (hd : t.get? l ≠ some .dir)
    (h : Grows (t.put l (.file content)) w) : w.get? l ≠ some .dir := by
  have nonempty : l ≠ [] := by rintro rfl; exact hd rfl
  have file : w.hasFile l = true := h.file (FileTree.hasFile_iff.2 ⟨content, by simp [nonempty]⟩)
  intro dir
  rw [FileTree.hasFile_of_dir dir] at file
  cases file

theorem textPayload_of_not_dir {s : String} {bytes : ByteArray}
    (hb : textBytes (site.placePath below) s = .ok bytes) (hd : t.get? (site.outLocation ++ below) ≠ some .dir) :
    site.textPayload below s t = (some (site.outLocation ++ below, bytes), .ok ()) := by
  rw [textPayload, hb]
  dsimp only
  split
  · next he => exact absurd he hd
  · rfl

theorem stays_textPayload (hp : Path.Plain below) (s : String) :
    Stays site exact K K' below (site.textPayload below s) (site.textPayload below s) where
  plain {t l content} _ h := by
    unfold textPayload at h
    split at h
    · cases h
    · split at h
      · cases h
      · cases h; exact plain_place hp
  again {t w} _ _ h := by
    cases hb : textBytes (site.placePath below) s with
    | error fault => simp only [textPayload, hb]; exact ⟨trivial, .refl _⟩
    | ok bytes =>
      by_cases hd : t.get? (site.outLocation ++ below) = some .dir
      · have stands : (site.textPayload below s t).1 = none := by rw [textPayload, hb]; simp only [hd]
        have still : (putting (site.textPayload below s) t).1 = t := by
          unfold putting
          generalize site.textPayload below s t = put at stands ⊢
          obtain ⟨mark, result⟩ := put
          cases stands
          rfl
        have hd' := h.dir (still ▸ hd)
        simp only [textPayload, hb, hd, hd']
        exact ⟨trivial, .refl _⟩
      · have put := textPayload_of_not_dir hb hd
        rw [putting, put] at h
        rw [put, textPayload_of_not_dir hb (not_dir_of_put hd h)]
        exact ⟨rfl, .refl _⟩

/-- To write a text is lasting work. -/
theorem lasting_writeText (hG : Ground site exact K) (hb : below ≠ []) (hp : Path.Plain below) (s : String) :
    Lasting K K' (site.area below).own (Near Fault.Alike exact) (writeText · (site.placePath below) s)
      (writeText · (site.placePath below) s) := by
  have written : (writeText · (site.placePath below) s) =
      deposit (site.placePath below) (site.placePath below) (site.textPayload below s) :=
    funext fun t => writeText_eq hp t s
  rw [written]
  exact lasting_deposit hG (fits_textPayload hb hp s) (stays_textPayload hp s) hb hp (site.placePath below)

section
variable {source output : Path}

/-- A copy that nothing keeps from its place. -/
theorem copyPayload_of_not_dir {content : ByteArray} (hf : pathFault? (site.dir / source) = none)
    (hr : t.read (site.dir / source) = .ok content) {b : List String} (hb : site.landing source below t = b)
    (hd : t.get? (site.outLocation ++ b) ≠ some .dir) :
    site.copyPayload source output below t = (some (site.outLocation ++ b, content), .ok ()) := by
  simp only [copyPayload, hf, hr, hb]

/-- A copy with a directory where it would land. -/
theorem copyPayload_of_dir {content : ByteArray} (hf : pathFault? (site.dir / source) = none)
    (hr : t.read (site.dir / source) = .ok content) {b : List String} (hb : site.landing source below t = b)
    (hd : t.get? (site.outLocation ++ b) = some .dir) : site.copyPayload source output below t =
      (none, .error (.write output (.refused .isDirectory (site.placePath b)))) := by
  simp only [copyPayload, hf, hr, hb, hd]

theorem landing_of_dir (h : t.get? (site.outLocation ++ below) = some .dir) :
    site.landing source below t = below ++ [source.name] := by rw [landing, if_pos h]

theorem landing_of_not_dir (h : t.get? (site.outLocation ++ below) ≠ some .dir) :
    site.landing source below t = below := by rw [landing, if_neg h]

/-- A copy of the same content lands where the first one has landed, in a directory or not. -/
theorem copyPayload_again {content : ByteArray} (hf : pathFault? (site.dir / source) = none)
    (hr : t.read (site.dir / source) = .ok content) (hr' : w.read (site.dir / source) = .ok content)
    (h : Grows (putting (site.copyPayload source output below) t).1 w) :
    site.copyPayload source output below w = site.copyPayload source output below t := by
  by_cases hd : t.get? (site.outLocation ++ below) = some .dir
  · have lands := @landing_of_dir site below t source hd
    by_cases hd' : t.get? (site.outLocation ++ (below ++ [source.name])) = some .dir
    · have first := @copyPayload_of_dir site below t source output content hf hr _ lands hd'
      rw [putting, first] at h
      rw [first, copyPayload_of_dir hf hr' (landing_of_dir (h.dir hd)) (h.dir hd')]
    · have first := @copyPayload_of_not_dir site below t source output content hf hr _ lands hd'
      rw [putting, first] at h
      have other : site.outLocation ++ below ≠ site.outLocation ++ (below ++ [source.name]) := by simp
      have kept : (t.put (site.outLocation ++ (below ++ [source.name])) (.file content)).get?
          (site.outLocation ++ below) = some .dir := by
        rw [FileTree.get?_put _ _ (by simp), if_neg other, hd]
      rw [first, copyPayload_of_not_dir hf hr' (landing_of_dir (h.dir kept)) (not_dir_of_put hd' h)]
  · have first := @copyPayload_of_not_dir site below t source output content hf hr _ (landing_of_not_dir hd) hd
    rw [putting, first] at h
    have hd' := not_dir_of_put hd h
    rw [first, copyPayload_of_not_dir hf hr' (landing_of_not_dir hd') hd']

/-- A copy stays where it landed. -/
theorem stays_copyPayload (hs : IsOutside site source) (hp : Path.Plain below)
    (hread : ∀ {t w}, K t → K' w →
      Near (fun _ _ => True) exact (t.read (site.dir / source)) (w.read (site.dir / source))) :
    Stays site exact K K' below (site.copyPayload source output below) (site.copyPayload source output below) where
  plain {t l content} _ h := by
    unfold copyPayload at h
    split at h
    · cases h
    · split at h
      · cases h
      · split at h
        · cases h
        · cases h; exact plain_place (plain_landing hs hp)
  again {t w} ht hw h := by
    cases hf : pathFault? (site.dir / source) with
    | some fault => simp only [copyPayload, hf]; exact ⟨trivial, .refl _⟩
    | none =>
      rcases hread ht hw with he | ⟨hn, f, f', hr, hr', -⟩
      · cases hr : t.read (site.dir / source) with
        | error f => simp only [copyPayload, hf, hr, he]; exact ⟨trivial, .refl _⟩
        | ok content =>
          rw [copyPayload_again hf hr (he.trans hr) h]
          exact ⟨rfl, .refl _⟩
      · simp only [copyPayload, hf, hr, hr']
        exact ⟨trivial, .inr ⟨hn, _, _, rfl, rfl, .write output f f'⟩⟩

/-- To copy a file is lasting work, if what is read of it stays. -/
theorem lasting_copyTo (hG : Ground site exact K) (hs : IsOutside site source) (hb : below ≠ [])
    (hp : Path.Plain below)
    (hread : ∀ {t t'}, K t → K t' →
      Near (fun _ _ => True) exact (t.read (site.dir / source)) (t'.read (site.dir / source)))
    (hread' : ∀ {t w}, K t → K' w →
      Near (fun _ _ => True) exact (t.read (site.dir / source)) (w.read (site.dir / source))) :
    Lasting K K' (site.area below).own (Near Fault.Alike exact)
      (site.copyTo · source (site.out / Path.ofSegments below))
      (site.copyTo · source (site.out / Path.ofSegments below)) := by
  have copied : (site.copyTo · source (site.out / Path.ofSegments below)) =
      deposit (site.placePath below) (site.out / Path.ofSegments below)
        (site.copyPayload source (site.out / Path.ofSegments below) below) :=
    funext fun t => copyTo_eq hs hb hp t
  rw [copied]
  exact lasting_deposit hG (fits_copyPayload hs hb hp hread) (stays_copyPayload hs hp hread') hb hp _

end

/-! ## Pages at another moment -/

/-- The site at another moment. -/
def asOf (site : Site) (now : Moment) : Site := { site with now }

/-- The texts of pages do not tell the moment: a page has the same text, or none for the same reason, at both. -/
def Timeless (site : Site) (now : Moment) (t : FileTree) (pages : List Page) : Prop :=
  ∀ page ∈ pages, ∀ output ∈ (page.output site.out site.ext).toOption,
    ((site.asOf now).pageText t page output).2 = (site.pageText t page output).2

instance (site : Site) (now : Moment) (t : FileTree) (pages : List Page) : Decidable (Timeless site now t pages) :=
  inferInstanceAs (Decidable (∀ _ ∈ _, _))

theorem Varied.asOf (h : Varied site t t') (now : Moment) : Varied (site.asOf now) t t' :=
  ⟨h.isTree, h.around, h.home⟩

theorem IsApart.asOf {template : Path} (h : IsApart site template) (now : Moment) :
    IsApart (site.asOf now) template := ⟨h.root, h.data⟩

section
variable {t₀ : FileTree} {now : Moment} {page : Page}

/-- A page has the same text where its data are the same. -/
theorem pageText_eq (h : Varied site t₀ t) (h' : Varied site t₀ t') (hd : Path.Plain site.dir.segments)
    (hr : page.template.IsRead) (ha : IsApart site page.template)
    (hb : site.boundData t' page = site.boundData t page) (output : Path) :
    site.pageText t' page output = site.pageText t page output := by
  have same : ∀ lead, site.context t' page lead = site.context t page lead := fun lead => by
    rw [context, context, hb]
  unfold pageText
  rw [same]
  cases site.context t page (Path.publicPrefix site.processDir output site.out) with
  | error fault => rfl
  | ok data =>
    dsimp only
    rw [templateText_eq h h' hd hr ha data]

/-- A text that does not tell the moment in one tree does not tell it in any that differs in the output. -/
theorem pageText_asOf (h₀ : Varied site t₀ t₀) (h : Varied site t₀ t) (hd : Path.Plain site.dir.segments)
    (hr : page.template.IsRead) (ha : IsApart site page.template) {output : Path}
    (hn : ((site.asOf now).pageText t₀ page output).2 = (site.pageText t₀ page output).2) :
    ((site.asOf now).pageText t page output).2 = (site.pageText t page output).2 := by
  have near : Near Data.Fault.Alike False (site.boundData t₀ page) (site.boundData t page) := by
    unfold boundData
    split
    · exact .refl _
    · exact near_data h₀ h False.elim ha
  rcases near with he | ⟨-, f, f', -, hf', -⟩
  · have first := pageText_eq h₀ h hd hr ha he output
    have second := pageText_eq (h₀.asOf now) (h.asOf now) hd hr (ha.asOf now) he output
    rw [first, second, hn]
  · -- data that cannot be read are none at any moment
    have failed : ∀ n lead, (site.asOf n).context t page lead = .error f' := fun n lead => by
      have hf' : (site.asOf n).boundData t page = .error f' := hf'
      rw [context, hf']
      rfl
    have text : ∀ n, ((site.asOf n).pageText t page output).2 = .error (.data f') := fun n => by
      unfold pageText
      rw [failed]
    exact (text now).trans (text site.now).symm

/-- What is decided about a page is the same at another moment, if its text is. -/
theorem drafted_asOf (h₀ : Varied site t₀ t₀) (h : Varied site t₀ t) (hd : Path.Plain site.dir.segments)
    (hr : page.template.IsRead) (ha : IsApart site page.template) {output : Path}
    (hn : ((site.asOf now).pageText t₀ page output).2 = (site.pageText t₀ page output).2) :
    (site.asOf now).drafted page output t = site.drafted page output t := by
  rw [drafted, pageText_asOf h₀ h hd hr ha hn]
  rfl

/-- To render a page does the same at both moments. -/
theorem renderPage_asOf (h₀ : Varied site t₀ t₀) (h : Varied site t₀ t) (hd : Path.Plain site.dir.segments)
    (hr : page.template.IsRead) (ha : IsApart site page.template) (hn : Timeless site now t₀ [page]) :
    ((site.asOf now).renderPage t page).done = (site.renderPage t page).done := by
  rw [renderPage_done, renderPage_done]
  cases ho : page.output site.out site.ext with
  | error fault =>
    have ho' : page.output (site.asOf now).out (site.asOf now).ext = .error fault := ho
    rw [ho']
  | ok o =>
    have ho' : page.output (site.asOf now).out (site.asOf now).ext = .ok o := ho
    have drafted := drafted_asOf h₀ h hd hr ha (hn page List.mem_cons_self o (toOption_eq_some ho))
    rw [ho']
    dsimp only
    rw [drafted]
    rfl

/-- Work lasts if what is read for it is near and what is done with that lasts. -/
theorem lasting_goOn {α β : Type} {own : Location → Prop} {look look' : FileTree → Except Fault α}
    {next : α → FileTree → FileTree × Except Fault β}
    (hl : ∀ {t w}, K t → K' w → Near Fault.Alike exact (look t) (look' w))
    (hn : ∀ a, Lasting K K' own (Near Fault.Alike exact) (next a) (next a)) :
    Lasting K K' own (Near Fault.Alike exact) (fun t => goOn next (look t) t) fun w => goOn next (look' w) w := by
  intro t ht
  have here : ∀ r, look t = r → goOn next (look t) t = goOn next r t := fun r h => by rw [h]
  have there : ∀ w r, look' w = r → goOn next (look' w) w = goOn next r w := fun w r h => by rw [h]
  cases h : look t with
  | error f =>
    dsimp only
    rw [here _ h]
    refine ⟨none, fun _ _ h => (nomatch h), .still t, fun w hw _ => ?_⟩
    rcases hl ht hw with he | ⟨hx, g, f', hg, hf', alike⟩
    · rw [there w _ (he.trans h)]
      exact ⟨rfl, .refl _⟩
    · rw [h] at hg
      cases hg
      rw [there w _ hf']
      exact ⟨rfl, .inr ⟨hx, f, f', rfl, rfl, alike⟩⟩
  | ok a =>
    obtain ⟨mark, own, leaves, again⟩ := hn a t ht
    dsimp only
    rw [here _ h]
    refine ⟨mark, own, leaves, fun w hw grows => ?_⟩
    rcases hl ht hw with he | ⟨-, f, f', hf, -, -⟩
    · rw [there w _ (he.trans h)]
      exact again w hw grows
    · rw [h] at hf; cases hf

theorem lasting_saved (hG : Ground site exact K) {p o : Path} (ho : p.output site.out site.ext = .ok o)
    (hr : "." ∉ p.segments) (r : Rendered) :
    Lasting K K' (site.area (p.belowOut site.ext)).own (Near Fault.Alike exact) (site.saved o r)
      (site.saved o r) := by
  have still : Lasting K K' (site.area (p.belowOut site.ext)).own (Near Fault.Alike exact)
      (fun t => (t, (.ok r : Except Fault Rendered))) fun t => (t, .ok r) := .still fun _ _ => .refl _
  have target : site.dir / o = site.placePath (p.belowOut site.ext) := by
    rw [(Path.output_ok ho).1]
    exact Path.div_div_ofSegments site.dir site.out _
  have written := fun html =>
    @lasting_writeText site exact K K' _ hG (Path.belowOut_ne_nil p site.ext) (Path.plain_belowOut ho hr) html
  unfold saved
  cases r.html with
  | none => exact still
  | some html =>
    dsimp only
    split
    · exact still
    · rw [target]
      exact (written html).map fun _ _ near => near.map _

/-- To render a page is lasting work if what is decided about it is the same. -/
theorem lasting_renderPage_of_near (hG : Ground site exact K) (hl : "." ∉ page.logical.segments)
    (hn : ∀ output, page.output site.out site.ext = .ok output → ∀ {t w}, K t → K' w →
      Near Fault.Alike exact (site.drafted page output t) (site.drafted page output w)) :
    Lasting K K' (site.pathArea page.logical).own (Near Fault.Alike exact) (fun t => (site.renderPage t page).done)
      fun t => (site.renderPage t page).done := by
  simp only [renderPage_done]
  unfold pathArea Page.output
  cases ho : page.logical.output site.out site.ext with
  | error fault => exact .still fun _ _ => .refl _
  | ok o => exact lasting_goOn (hn o ho) (lasting_saved hG ho hl)

/-- To render a page is lasting work, at another moment too if its text does not tell it. -/
theorem lasting_renderPage (hG : Ground site exact K) (hK : ∀ {t}, K t → Varied site t₀ t)
    (hK' : ∀ {t}, K' t → Varied site t₀ t) (h₀ : Varied site t₀ t₀) (hx : exact → Straight site t₀)
    (hd : Path.Plain site.dir.segments) (hl : "." ∉ page.logical.segments) (hr : page.template.IsRead)
    (ha : IsApart site page.template) (hn : Timeless site now t₀ [page]) :
    Lasting K K' (site.pathArea page.logical).own (Near Fault.Alike exact) (fun t => (site.renderPage t page).done)
      fun t => ((site.asOf now).renderPage t page).done := by
  have same : Lasting K K' (site.pathArea page.logical).own (Near Fault.Alike exact)
      (fun t => (site.renderPage t page).done) fun t => (site.renderPage t page).done :=
    lasting_renderPage_of_near hG hl fun o _ => fun {t w} ht hw => near_drafted (hK ht) (hK' hw) hx hd hr ha o
  exact same.congr fun w hw => renderPage_asOf h₀ (hK' hw) hd hr ha hn

end

/-! ## Assets and the sitemap -/

/-- To copy an asset is lasting work, if what is read of it stays. -/
theorem lasting_copyAsset (hG : Ground site exact K) {source : Path} (hr : "." ∉ source.segments)
    (hs : site.isOutput source = false)
    (hread : ∀ {t t'}, K t → K t' →
      Near (fun _ _ => True) exact (t.read (site.dir / source)) (t'.read (site.dir / source)))
    (hread' : ∀ {t w}, K t → K' w →
      Near (fun _ _ => True) exact (t.read (site.dir / source)) (w.read (site.dir / source))) :
    Lasting K K' (site.pathArea source).own (Near Fault.Alike exact) (fun t => (site.copyAsset t source).done)
      fun t => (site.copyAsset t source).done := by
  simp only [copyAsset_done]
  unfold pathArea
  cases ho : source.output site.out site.ext with
  | error fault => exact .still fun _ _ => .refl _
  | ok o =>
    obtain ⟨rfl, -, -, -⟩ := Path.output_ok ho
    exact (lasting_copyTo hG (isOutside_of_output ho hr hs) (Path.belowOut_ne_nil _ _)
      (Path.plain_belowOut ho hr) hread hread').map fun _ _ near => near.map _

/-- The lines of the sitemap and the faults of writing it agree. -/
def SitemapAgree (exact : Prop) (r r' : List String × List Fault) : Prop :=
  r'.1 = r.1 ∧ FaultsAgree exact r.2 r'.2

/-- The result of making the sitemap, from that of writing its text. -/
def sitemapResult (lines : List String) : Except Fault Unit → Except Fault (List String × List Fault)
  | .ok () => .ok (lines, [])
  | .error fault => if fault.isLocal then .ok (lines, [fault]) else .error fault

theorem both_sitemapResult (lines : List String) {r r' : Except Fault Unit} (h : Near Fault.Alike exact r r') :
    Both (SitemapAgree exact) (sitemapResult lines r) (sitemapResult lines r') := by
  rcases h with rfl | ⟨hx, f, f', rfl, rfl, alike⟩
  · cases sitemapResult lines r' with
    | error f => exact .inl ⟨f, rfl, rfl⟩
    | ok a => exact .inr ⟨a, a, rfl, rfl, rfl, .refl _⟩
  · have same := alike.isLocal
    cases hl : f.isLocal with
    | false =>
      obtain rfl := alike.eq_of_not_local hl
      exact .inl ⟨f', by simp [sitemapResult, hl], by simp [sitemapResult, hl]⟩
    | true =>
      exact .inr ⟨(lines, [f]), (lines, [f']), by simp [sitemapResult, hl], by simp [sitemapResult, same, hl], rfl,
        .cons alike .nil, fun he => absurd he hx⟩

/-- To make the sitemap is lasting work. -/
theorem lasting_makeSitemap (hG : Ground site exact K) (pages : List Page) :
    Lasting K K' (site.area sitemapBelow).own (Both (SitemapAgree exact)) (fun t => (site.makeSitemap t pages).done)
      fun t => (site.makeSitemap t pages).done := by
  have target : (site.dir / site.out).child Sitemap.fileName = site.placePath sitemapBelow := by
    simp [placePath, base, sitemapBelow, Path.child, Path.join_ofSegments]
  have written := fun lines => @lasting_writeText site exact K K' _ hG (by simp [sitemapBelow])
    (show Path.Plain sitemapBelow from ⟨by decide, by decide⟩) (Sitemap.text lines)
  cases wanted : site.options.sitemap with
  | false =>
    simp only [Step.done, makeSitemap, wanted, Step.still]
    exact .still fun _ _ => .inr ⟨_, _, rfl, rfl, rfl, .refl _⟩
  | true =>
    cases hl : site.sitemapLines pages with
    | error fault =>
      simp only [Step.done, makeSitemap, wanted, hl, Step.still]
      exact .still fun _ _ => .inl ⟨_, rfl, rfl⟩
    | ok lines =>
      -- the sitemap is made by writing its text
      have made : ∀ t, (site.makeSitemap t pages).done =
          ((writeText t (site.placePath sitemapBelow) (Sitemap.text lines)).1,
            sitemapResult lines (writeText t (site.placePath sitemapBelow) (Sitemap.text lines)).2) := fun t => by
        simp only [Step.done, makeSitemap, wanted, hl, writeSitemap, target, Bool.not_true, Bool.false_eq_true,
          if_false]
        rcases writeText t (site.placePath sitemapBelow) (Sitemap.text lines) with ⟨t', fault | u⟩
        · cases h : fault.isLocal <;> simp [sitemapResult, h]
        · rfl
      simp only [made]
      exact (written lines).map fun _ _ => both_sitemapResult lines

/-! ## A list of them -/

section
variable {α β : Type} {own : α → Location → Prop} {near : Except Fault β → Except Fault β → Prop}
  {step step' : FileTree → α → Step β} {as : List α}

/-- The work on each of several items lasts, and the classes of trees are kept by it. -/
structure LastingAll (K K' : FileTree → Prop) (own : α → Location → Prop)
    (near : Except Fault β → Except Fault β → Prop) (step step' : FileTree → α → Step β) (as : List α) : Prop where
  lasting : ∀ a ∈ as, Lasting K K' (own a) near (fun t => (step t a).done) fun w => (step' w a).done
  keeps : ∀ a ∈ as, ∀ {t}, K t → K (step t a).tree
  keeps' : ∀ a ∈ as, ∀ {w}, K' w → K' (step' w a).tree

theorem LastingAll.tail {a : α} (h : LastingAll K K' own near step step' (a :: as)) :
    LastingAll K K' own near step step' as where
  lasting b hb := h.lasting b (List.mem_cons_of_mem _ hb)
  keeps b hb := h.keeps b (List.mem_cons_of_mem _ hb)
  keeps' b hb := h.keeps' b (List.mem_cons_of_mem _ hb)

theorem LastingAll.onward (h : LastingAll K K' own near step step' as) (ht : K t) :
    FileTree.Onward t (inTurn step t as).1 := by
  induction as generalizing t with
  | nil => exact .refl t
  | cons a as ih =>
    exact ((h.lasting a List.mem_cons_self).onward ht).trans (ih h.tail (h.keeps a List.mem_cons_self ht))

theorem LastingAll.kept (h : LastingAll K K' own near step step' as) (ht : K t) (hw : K' w) :
    K (inTurn step t as).1 ∧ K' (inTurn step' w as).1 := by
  induction as generalizing t w with
  | nil => exact ⟨ht, hw⟩
  | cons a as ih => exact ih h.tail (h.keeps a List.mem_cons_self ht) (h.keeps' a List.mem_cons_self hw)

/-- A second run through the items follows the trace of the first one. -/
theorem LastingAll.retraced (h : LastingAll K K' own near step step' as) (ht : K t) (hw : K' w)
    (hT : Grows (inTurn step t as).1 T) (hr : Retraced T t w) :
    Retraced T (inTurn step t as).1 (inTurn step' w as).1 ∧
      List.Forall₂ near (inTurn step t as).2.2 (inTurn step' w as).2.2 := by
  induction as generalizing t w with
  | nil => exact ⟨hr, .nil⟩
  | cons a as ih =>
    have kept := h.keeps a List.mem_cons_self ht
    have first := hr.lasting (h.lasting a List.mem_cons_self) ht hw ((h.tail.onward kept).grows.trans hT)
    have rest := ih h.tail kept (h.keeps' a List.mem_cons_self hw) hT first.1
    exact ⟨rest.1, .cons first.2 rest.2⟩

end

end StaticSite.Site
