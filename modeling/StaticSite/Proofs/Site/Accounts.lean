import Mathlib.Data.List.Nodup
import StaticSite.Proofs.Site.Targets

/-!
# The accounts of a build

What a build returns and what it tells while it works agree (`Accounts`): every page has a text, a fault or an
array, every asset is copied or has a fault, and each of these is told once. A build of pages that have places of
their own either accounts for all of them or is halted by a fault that is none of a page or file (`build_accounts`).
-/

namespace StaticSite.Site

variable {site : Site} {t : FileTree}

/-! ## Reports -/

/-- The outputs that were told to be made. -/
def madeIn (reports : List Report) : List Path :=
  reports.filterMap fun
    | .created path => some path
    | _ => none

/-- The copies that were told of, with their sources. -/
def copiesIn (reports : List Report) : List (Path × Path) :=
  reports.filterMap fun
    | .copied source target => some (source, target)
    | _ => none

/-- What was told of outputs, copies and failures. -/
structure Tells (reports : List Report) (made : List Path) (copies : List (Path × Path)) (failed : List Fault) :
    Prop where
  made : (madeIn reports).Perm made
  copies : (copiesIn reports).Perm copies
  failed : (failures reports).Perm failed

section
variable {reports reports' : List Report} {made made' : List Path} {copies copies' : List (Path × Path)}
  {failed failed' : List Fault}

theorem Tells.nil : Tells [] [] [] [] := ⟨.nil, .nil, .nil⟩

theorem Tells.append (h : Tells reports made copies failed) (h' : Tells reports' made' copies' failed') :
    Tells (reports ++ reports') (made ++ made') (copies ++ copies') (failed ++ failed') where
  made := by rw [madeIn, List.filterMap_append]; exact h.made.append h'.made
  copies := by rw [copiesIn, List.filterMap_append]; exact h.copies.append h'.copies
  failed := by rw [failures, List.filterMap_append]; exact h.failed.append h'.failed

theorem Tells.perm (h : Tells reports made copies failed) (hr : reports'.Perm reports) :
    Tells reports' made copies failed :=
  ⟨(hr.filterMap _).trans h.made, (hr.filterMap _).trans h.copies, (hr.filterMap _).trans h.failed⟩

theorem Tells.of_perm (h : Tells reports made copies failed) (hm : made.Perm made') (hc : copies.Perm copies')
    (hf : failed.Perm failed') : Tells reports made' copies' failed' :=
  ⟨h.made.trans hm, h.copies.trans hc, h.failed.trans hf⟩

theorem tells_failed (faults : List Fault) : Tells (faults.map .failed) [] [] faults := by
  induction faults with
  | nil => exact .nil
  | cons fault faults ih =>
    have first : Tells [.failed fault] [] [] [fault] := ⟨.nil, .nil, .refl _⟩
    exact first.append ih

theorem tells_flatMap {α : Type} (as : List α) {told : α → List Report} {made : α → List Path}
    {copies : α → List (Path × Path)} {failed : α → List Fault}
    (h : ∀ a ∈ as, Tells (told a) (made a) (copies a) (failed a)) :
    Tells (as.flatMap told) (as.flatMap made) (as.flatMap copies) (as.flatMap failed) := by
  induction as with
  | nil => exact .nil
  | cons a as ih =>
    simp only [List.flatMap_cons]
    exact (h a List.mem_cons_self).append (ih fun b hb => h b (List.mem_cons_of_mem _ hb))

/-- A hook that is only told of something tells of no output and no copy. -/
theorem tells_tellHook (hook : Option Hook) (call : HookCall) :
    Tells (tellHook hook call) [] [] (failures (tellHook hook call)) := by
  refine ⟨?_, ?_, .refl _⟩ <;> unfold tellHook <;> split <;> try exact .nil
  all_goals split <;> exact .nil

end

/-! ## Pages -/

/-- The result of the work on a page in a tree. -/
def pageFate (site : Site) (m : FileTree × Page) : Except Fault Rendered := (site.renderPage m.1 m.2).result

/-- The text of a page that has one, by its logical path. -/
def textOf? (site : Site) (m : FileTree × Page) : Option (Path × String) :=
  match site.pageFate m with
  | .ok ⟨_, some html⟩ => some (m.2.logical, html)
  | _ => none

/-- The page as it is afterwards. -/
def pageAfter (site : Site) (m : FileTree × Page) : Page :=
  match site.pageFate m with
  | .ok r => r.page
  | .error _ => m.2

/-- The output of a page that was written. -/
def written (site : Site) (p : Path × String) : Option Path :=
  if site.options.noWrite then none else (p.1.output site.out site.ext).toOption

theorem tells_hookedText (page : Page) (html : String) : Tells (site.hookedText page html).1 [] [] [] := by
  unfold hookedText callHook
  split
  · exact .nil
  · exact ⟨.nil, .nil, .nil⟩

theorem tells_pageText (page : Page) (output : Path) : Tells (site.pageText t page output).1 [] [] [] := by
  unfold pageText
  split
  · exact .nil
  · split
    · exact .nil
    · exact tells_hookedText page _

/-- Of a page that has a text its output is told, if it is written; of others nothing. -/
theorem tells_renderPage (m : FileTree × Page) :
    Tells (site.renderPage m.1 m.2).reports ((site.textOf? m).bind site.written).toList [] [] := by
  obtain ⟨t, page⟩ := m
  unfold textOf? pageFate renderPage
  dsimp only
  cases ho : page.output site.out site.ext with
  | error fault => exact .nil
  | ok o =>
    dsimp only
    cases site.attached? t page with
    | error fault => exact .nil
    | ok attached =>
      cases attached with
      | some q => exact .nil
      | none =>
        dsimp only
        have told := @tells_pageText site t page o
        generalize site.pageText t page o = text at told ⊢
        obtain ⟨calls, fault | html⟩ := text
        · exact told
        · dsimp only
          have saved : Tells (site.savePage t page o html).reports
              ((match (site.savePage t page o html).result with
                | .ok ⟨_, some html⟩ => some (page.logical, html)
                | _ => none).bind site.written).toList [] [] := by
            have place : page.logical.output site.out site.ext = .ok o := ho
            unfold savePage
            cases hw : site.options.noWrite with
            | true => simpa [Step.still, written, hw] using Tells.nil
            | false =>
              simp only [Bool.false_eq_true, if_false]
              rcases writeText t (site.dir / o) html with ⟨t', fault | u⟩
              · exact .nil
              · simp only [Option.bind_some, written, hw, place]
                exact ⟨.refl _, .nil, .nil⟩
          exact told.append saved

theorem setText_of_new {p : Path} {html : String} {acc : List (Path × String)} (h : ∀ e ∈ acc, e.1 ≠ p) :
    setText p html acc = acc ++ [(p, html)] := by
  induction acc with
  | nil => rfl
  | cons e acc ih =>
    rw [setText, if_neg (h e List.mem_cons_self), ih fun e he => h e (List.mem_cons_of_mem _ he)]
    rfl

/-- The logical path of a page that was taken up. -/
def placeOf (m : FileTree × Page) : Path := m.2.logical

theorem fst_of_textOf {m : FileTree × Page} {p : Path × String} (h : site.textOf? m = some p) : p.1 = placeOf m := by
  unfold textOf? at h
  split at h
  · cases h; rfl
  · cases h

def withText (acc : List (Path × String)) (r : Rendered) : List (Path × String) :=
  match r.html with
  | some html => setText r.page.logical html acc
  | none => acc

theorem texts_eq_foldl (rendered : List Rendered) : texts rendered = rendered.foldl withText [] := rfl

/-- Pages whose logical paths are different do not overwrite each other's texts. -/
theorem texts_of_distinct {ms : List (FileTree × Page)} (distinct : (ms.map placeOf).Nodup) :
    texts (goods (ms.map site.pageFate)) = ms.filterMap site.textOf? := by
  suffices go : ∀ acc : List (Path × String), (∀ e ∈ acc, ∀ m ∈ ms, e.1 ≠ placeOf m) →
      (goods (ms.map site.pageFate)).foldl withText acc = acc ++ ms.filterMap site.textOf? by
    rw [texts_eq_foldl]
    exact go [] fun _ he => by cases he
  induction ms with
  | nil => intro acc _; simp [goods]
  | cons m ms ih =>
    intro acc fresh
    obtain ⟨other, distinct⟩ := List.nodup_cons.1 distinct
    have rest := ih distinct
    have later : ∀ e ∈ acc, ∀ n ∈ ms, e.1 ≠ placeOf n := fun e he n hn => fresh e he n (List.mem_cons_of_mem _ hn)
    rw [List.map_cons, goods, List.filterMap_cons, List.filterMap_cons]
    cases hf : site.pageFate m with
    | error fault =>
      have none : site.textOf? m = none := by rw [textOf?, hf]
      rw [none]
      exact rest acc later
    | ok r =>
      rcases rendered_cases hf with ⟨html, rfl, -⟩ | ⟨q, rfl, -⟩
      · have some : site.textOf? m = some (placeOf m, html) := by rw [textOf?, hf]; rfl
        have new : setText m.2.logical html acc = acc ++ [(placeOf m, html)] :=
          setText_of_new fun e he => fresh e he m List.mem_cons_self
        rw [some]
        have fresh' : ∀ e ∈ acc ++ [(placeOf m, html)], ∀ n ∈ ms, e.1 ≠ placeOf n := by
          intro e he n hn
          rcases List.mem_append.1 he with he | he
          · exact later e he n hn
          · obtain rfl := List.mem_singleton.1 he
            exact fun same => other (List.mem_map.2 ⟨n, hn, same.symm⟩)
        refine (congrArg (List.foldl _ · _) new).trans ((rest _ fresh').trans ?_)
        rw [List.append_assoc]
        rfl
      · have none : site.textOf? m = none := by rw [textOf?, hf]
        rw [none]
        exact rest acc later

theorem pagesAfter_fates (ms : List (FileTree × Page)) :
    pagesAfter (ms.map Prod.snd) (ms.map site.pageFate) = ms.map site.pageAfter := by
  induction ms with
  | nil => rfl
  | cons m ms ih =>
    rw [List.map_cons, List.map_cons, List.map_cons, pageAfter]
    cases site.pageFate m with
    | ok r => exact congrArg (r.page :: ·) ih
    | error fault => exact congrArg (m.2 :: ·) ih

/-! ## Assets -/

/-- The result of the work on an asset in a tree. -/
def copyFate (site : Site) (m : FileTree × Path) : Except Fault Path := (site.copyAsset m.1 m.2).result

/-- An asset that was copied, with its output. -/
def copyOf? (site : Site) (m : FileTree × Path) : Option (Path × Path) := (site.copyFate m).toOption.map (m.2, ·)

/-- How the hook fails that is told of a copy. -/
def copyFailures (site : Site) (copy : Path × Path) : List Fault :=
  failures (tellHook site.options.hooks.afterCopy (.afterCopy copy.1 copy.2))

/-- Of an asset that is copied the copy is told, and how the hook failed; of others nothing. -/
theorem tells_copyAsset (m : FileTree × Path) :
    Tells (site.copyAsset m.1 m.2).reports [] (site.copyOf? m).toList
      ((site.copyOf? m).toList.flatMap site.copyFailures) := by
  obtain ⟨t, source⟩ := m
  unfold copyOf? copyFate copyAsset
  dsimp only
  cases source.output site.out site.ext with
  | error fault => exact .nil
  | ok o =>
    dsimp only
    rcases site.copyTo t source o with ⟨t', fault | u⟩
    · exact .nil
    · have first : Tells [.copied source o] [] [(source, o)] [] := ⟨.nil, .refl _, .nil⟩
      have both := first.append (tells_tellHook site.options.hooks.afterCopy (.afterCopy source o))
      simpa [Except.toOption, copyFailures] using both

/-- Copies go to the outputs of their sources. -/
theorem output_of_copied {m : FileTree × Path} {copy : Path × Path} (h : site.copyOf? m = some copy) :
    copy.1 = m.2 ∧ copy.1.output site.out site.ext = .ok copy.2 := by
  obtain ⟨t, source⟩ := m
  obtain ⟨o, ho, rfl⟩ := Option.map_eq_some_iff.1 h
  refine ⟨rfl, ?_⟩
  unfold copyFate copyAsset at ho
  cases hp : source.output site.out site.ext with
  | error fault => rw [hp] at ho; cases ho
  | ok output =>
    rw [hp] at ho
    dsimp only at ho
    rcases hc : site.copyTo t source output with ⟨t', fault | u⟩ <;> rw [hc] at ho <;> cases ho
    rfl

/-! ## Sitemap -/

/-- The path of the sitemap, if it is wanted and was written without a fault. -/
def sitemapMade (site : Site) (faults : List Fault) : List Path :=
  if site.options.sitemap && faults.isEmpty then [site.out.child Sitemap.fileName] else []

theorem tells_makeSitemap {pages : List Page} {lines : List String} {faults : List Fault}
    (h : (site.makeSitemap t pages).result = .ok (lines, faults)) :
    Tells (site.makeSitemap t pages).reports (site.sitemapMade faults) [] faults := by
  unfold makeSitemap at h ⊢
  unfold sitemapMade
  cases hw : site.options.sitemap with
  | false =>
    simp only [hw, Step.still, Bool.not_false, if_true] at h
    cases h
    exact .nil
  | true =>
    simp only [hw, Bool.not_true, Bool.false_eq_true, if_false, Bool.true_and] at h ⊢
    cases hl : site.sitemapLines pages with
    | error fault => rw [hl] at h; cases h
    | ok made =>
      rw [hl] at h
      dsimp only at h ⊢
      generalize site.writeSitemap t made = w at h ⊢
      obtain ⟨t', fault | u⟩ := w
      · dsimp only at h ⊢
        cases isLocal : fault.isLocal with
        | false => simp [isLocal] at h
        | true =>
          simp only [isLocal, if_true] at h ⊢
          cases h
          exact ⟨.nil, .nil, .refl _⟩
      · cases h
        exact ⟨.refl _, .nil, .nil⟩

/-! ## Stray faults -/

/-- Faults of no page or file that come up although all paths have places: a text or a path that cannot be written,
a null byte in a path, and data that are nested too deep to be read. -/
def Fault.isStray : Fault → Bool
  | .unwritable _ => true
  | .place fault => fault.fault = .nullByte
  | .data fault => !fault.isOfFile
  | _ => false

/-- If the work is halted, then by a stray fault. -/
def Strays {β : Type} (result : Except Fault β) : Prop :=
  ∀ fault, result = .error fault → fault.isLocal = false → fault.isStray = true

section
variable {β γ : Type}

theorem strays_ok (b : β) : Strays (.ok b) := fun _ h => (nomatch h)

theorem strays_error {fault : Fault} (h : fault.isLocal = false → fault.isStray = true) :
    Strays (.error fault : Except Fault β) := by
  intro other he
  cases he
  exact h

theorem Strays.of_error {fault : Fault} (h : Strays (.error fault : Except Fault β)) :
    Strays (.error fault : Except Fault γ) := strays_error (h fault rfl)

theorem strays_write {p : Path} (r : Except OsFault β) : Strays (r.mapError (.write p)) := by
  cases r with
  | ok b => exact strays_ok b
  | error fault => exact strays_error fun h => by cases h

theorem strays_pathFault {p : Path} {fault : Fault} (h : pathFault? p = some fault) :
    Strays (.error fault : Except Fault β) := by
  refine strays_error fun _ => ?_
  unfold pathFault? at h
  split at h
  · cases h; rfl
  · split at h <;> cases h; rfl

theorem strays_makeRoom (t : FileTree) (target named : Path) : Strays (makeRoom t target named).2 := by
  unfold makeRoom
  split
  · next hf => exact strays_pathFault hf
  · exact strays_write _

theorem strays_writeText (t : FileTree) (target : Path) (s : String) : Strays (writeText t target s).2 := by
  have room := strays_makeRoom t target target
  rw [writeText_directly]
  generalize makeRoom t target target = made at room ⊢
  obtain ⟨t', fault | u⟩ := made
  · exact room
  · dsimp only
    cases hb : textBytes target s with
    | ok bytes => exact strays_write _
    | error fault =>
      unfold textBytes at hb
      split at hb
      · next hf => cases hb; exact strays_pathFault hf
      · cases he : Text.encode s with
        | ok bytes => rw [he] at hb; cases hb
        | error refused => rw [he] at hb; cases hb; exact strays_error fun _ => rfl

theorem strays_copyTo (t : FileTree) (source o : Path) : Strays (site.copyTo t source o).2 := by
  have room := strays_makeRoom t (site.dir / o) o
  unfold copyTo
  dsimp only
  generalize makeRoom t (site.dir / o) o = made at room ⊢
  obtain ⟨t', fault | u⟩ := made
  · exact room
  · dsimp only
    split
    · next hf => exact strays_pathFault hf
    · exact strays_write _

end

theorem strays_makeSitemap {pages : List Page}
    (h : site.options.sitemap = true → ∃ lines, site.sitemapLines pages = .ok lines) :
    Strays (site.makeSitemap t pages).result := by
  unfold makeSitemap
  split
  · exact strays_ok _
  · next wanted =>
    obtain ⟨lines, hl⟩ := h (by simpa using wanted)
    have written := strays_writeText t ((site.dir / site.out).child Sitemap.fileName) (Sitemap.text lines)
    rw [hl]
    dsimp only [writeSitemap]
    generalize writeText t ((site.dir / site.out).child Sitemap.fileName) (Sitemap.text lines) = w at written ⊢
    obtain ⟨t', fault | u⟩ := w
    · dsimp only
      split
      · exact strays_ok _
      · exact written.of_error
    · exact strays_ok _

theorem strays_pageText (t : FileTree) (page : Page) (o : Path) : Strays (site.pageText t page o).2 := by
  unfold pageText
  split
  · exact strays_error fun h => by simpa [Fault.isLocal, Fault.isStray] using h
  · split
    · exact strays_error fun h => by cases h
    · exact fun fault he hl => absurd ⟨fault, he, hl⟩ halted_hookedText

theorem strays_renderPage {page : Page} (h : ∃ o, page.output site.out site.ext = .ok o) (t : FileTree) :
    Strays (site.renderPage t page).result := by
  obtain ⟨o, ho⟩ := h
  unfold renderPage
  rw [ho]
  dsimp only
  split
  · exact strays_error fun h => by simpa [Fault.isLocal, Fault.isStray] using h
  · exact strays_ok _
  · have text := @strays_pageText site t page o
    generalize site.pageText t page o = made at text ⊢
    obtain ⟨calls, fault | html⟩ := made
    · exact text.of_error
    · dsimp only [savePage]
      split
      · exact strays_ok _
      · have saved := strays_writeText t (site.dir / o) html
        generalize writeText t (site.dir / o) html = w at saved ⊢
        obtain ⟨t', fault | u⟩ := w
        · exact saved.of_error
        · exact strays_ok _

theorem strays_copyAsset {source : Path} (h : ∃ o, source.output site.out site.ext = .ok o) (t : FileTree) :
    Strays (site.copyAsset t source).result := by
  obtain ⟨o, ho⟩ := h
  have copied := @strays_copyTo site t source o
  unfold copyAsset
  rw [ho]
  dsimp only
  generalize site.copyTo t source o = made at copied ⊢
  obtain ⟨t', fault | u⟩ := made
  · exact copied.of_error
  · exact strays_ok _

/-- The fault with which work is settled is one of its results. -/
theorem mem_of_settle {β : Type} {results : List (Except Fault β)} {fault : Fault}
    (h : settle results = .error fault) : .error fault ∈ results := by
  induction results with
  | nil => cases h
  | cons r results ih =>
    have failed : FailsIn (· = fault) (settle (r :: results)) := ⟨fault, h, rfl⟩
    cases r with
    | ok b =>
      rcases failsIn_bind.1 failed with ⟨_, hs, rfl⟩ | ⟨_, -, hf⟩
      · exact List.mem_cons_of_mem _ (ih hs)
      · exact absurd hf (failsIn_pure _)
    | error other =>
      rw [settle] at failed
      split at failed
      · rcases failsIn_bind.1 failed with ⟨_, hs, rfl⟩ | ⟨_, -, hf⟩
        · exact List.mem_cons_of_mem _ (ih hs)
        · exact absurd hf (failsIn_pure _)
      · exact (failsIn_error _).1 failed ▸ List.mem_cons_self

/-- Work is halted by stray faults alone if each piece of it is. -/
theorem strays_settle {β : Type} {results : List (Except Fault β)} (h : ∀ r ∈ results, Strays r) :
    Strays (settle results) :=
  fun fault hs => h _ (mem_of_settle hs) fault rfl

/-! ## The whole build -/

/-- Exactly one of three statements holds. -/
def OneOf (a b c : Prop) : Prop := a ∧ ¬ b ∧ ¬ c ∨ ¬ a ∧ b ∧ ¬ c ∨ ¬ a ∧ ¬ b ∧ c

/-- The page is a partial without a place of its own that is bound to an array. -/
def SuppliesArray (site : Site) (t : FileTree) (page : Page) : Prop :=
  page.place = none ∧ page.template.isPartial = true ∧ ∃ items, site.bindings.array? t page.template = .ok (some items)

/-- A page that has a place has a text, a fault, or an array. -/
theorem oneOf_page {ms : List (FileTree × Page)} {m : FileTree × Page} (distinct : (ms.map placeOf).Nodup)
    (hm : m ∈ ms) (place : ∃ o, m.2.output site.out site.ext = .ok o) :
    OneOf (placeOf m ∈ (ms.filterMap site.textOf?).map Prod.fst) (∃ fault, site.pageFate m = .error fault)
      (SuppliesArray site m.1 m.2) := by
  have key : placeOf m ∈ (ms.filterMap site.textOf?).map Prod.fst ↔ (site.textOf? m).isSome := by
    constructor
    · intro h
      obtain ⟨p, hp, same⟩ := List.mem_map.1 h
      obtain ⟨n, hn, text⟩ := List.mem_filterMap.1 hp
      obtain rfl : n = m := List.inj_on_of_nodup_map distinct hn hm ((fst_of_textOf text).symm.trans same)
      rw [text]; rfl
    · intro h
      obtain ⟨p, hp⟩ := Option.isSome_iff_exists.1 h
      exact List.mem_map.2 ⟨p, List.mem_filterMap.2 ⟨m, hm, hp⟩, fst_of_textOf hp⟩
  have attaches : SuppliesArray site m.1 m.2 ↔ Attaches site m.1 m.2 := attaches_iff.symm
  rw [key, attaches, textOf?]
  cases hf : site.pageFate m with
  | error fault =>
    refine .inr (.inl ⟨nofun, ⟨fault, rfl⟩, fun ⟨q, hq⟩ => ?_⟩)
    obtain ⟨o, ho⟩ := place
    rw [pageFate, renderPage, ho, hq] at hf
    cases hf
  | ok r =>
    rcases rendered_cases hf with ⟨html, rfl, none⟩ | ⟨q, rfl, some⟩
    · exact .inl ⟨rfl, nofun, fun ⟨q, hq⟩ => by rw [none] at hq; cases hq⟩
    · exact .inr (.inr ⟨nofun, nofun, q, some⟩)

theorem tells_pages (ms : List (FileTree × Page)) :
    Tells (ms.flatMap fun m => (site.renderPage m.1 m.2).reports)
      ((ms.filterMap site.textOf?).filterMap site.written) [] [] := by
  have told := tells_flatMap ms fun m _ => @tells_renderPage site m
  have none : ∀ {β : Type}, (ms.flatMap fun _ => ([] : List β)) = [] := List.flatMap_eq_nil_iff.2 fun _ _ => rfl
  rwa [← List.filterMap_eq_flatMap_toList, ← List.filterMap_filterMap, none, none] at told

theorem tells_assets (cs : List (FileTree × Path)) :
    Tells (cs.flatMap fun c => (site.copyAsset c.1 c.2).reports) [] (cs.filterMap site.copyOf?)
      ((cs.filterMap site.copyOf?).flatMap site.copyFailures) := by
  have told := tells_flatMap cs fun c _ => @tells_copyAsset site c
  have none : ∀ {β : Type}, (cs.flatMap fun _ => ([] : List β)) = [] := List.flatMap_eq_nil_iff.2 fun _ _ => rfl
  rwa [none, ← List.flatMap_assoc, ← List.filterMap_eq_flatMap_toList] at told

theorem goods_copies (cs : List (FileTree × Path)) :
    goods (cs.map site.copyFate) = (cs.filterMap site.copyOf?).map Prod.snd := by
  rw [goods, List.filterMap_map, List.map_filterMap]
  refine List.filterMap_congr fun c _ => ?_
  simp [copyOf?, Function.comp_def]

/-- Good results and faults are all the results. -/
theorem length_goods_add {β : Type} (results : List (Except Fault β)) :
    (goods results).length + (faultsOf results).length = results.length := by
  induction results with
  | nil => rfl
  | cons r results ih =>
    cases r <;> simp only [goods, faultsOf, List.filterMap_cons, Except.toOption, fault?, List.length_cons] at ih ⊢ <;>
      omega

/-- What a build returned and what it told agree. The pages and the assets are given with the trees in which they
were taken up, the sitemap with its fault. -/
structure Accounts (site : Site) (made : List String × List Fault) (ms : List (FileTree × Page))
    (cs : List (FileTree × Path)) (r : Result) (reports : List Report) : Prop where
  sitemap : r.sitemap = made.1
  /-- Every page is in exactly one class: its path has a text, it has a fault, or it supplies an array. -/
  pages : ∀ m ∈ ms, OneOf (placeOf m ∈ r.rendered.map Prod.fst) (∃ fault, site.pageFate m = .error fault)
    (SuppliesArray site m.1 m.2)
  rendered : r.rendered = ms.filterMap site.textOf?
  after : r.pages = ms.map site.pageAfter
  /-- The assets that were copied and those that were not are all assets, in order. -/
  copied : r.copied = (cs.filterMap site.copyOf?).map Prod.snd
  assets : r.copied.length + (faultsOf (cs.map site.copyFate)).length = cs.length
  targets : ∀ copy ∈ cs.filterMap site.copyOf?, copy.1.output site.out site.ext = .ok copy.2
  faults : r.faults = made.2 ++ faultsOf (ms.map site.pageFate) ++ faultsOf (cs.map site.copyFate) ++
    failures (tellHook site.options.hooks.done (.done r.sitemap site.out r.pages))
  /-- Outputs are told of pages that have a text, if they are written, and of the sitemap; copies of the assets that
  were copied; failures of all faults and of the hook that is told of copies. -/
  tells : Tells reports (site.sitemapMade made.2 ++ r.rendered.filterMap site.written)
    (cs.filterMap site.copyOf?) (r.faults ++ (cs.filterMap site.copyOf?).flatMap site.copyFailures)
  isOk : r.isOk = true ↔ made.2 = [] ∧ (∀ m ∈ ms, ¬ ∃ fault, site.pageFate m = .error fault) ∧
    (∀ c ∈ cs, ¬ ∃ fault, site.copyFate c = .error fault) ∧
    failures (tellHook site.options.hooks.done (.done r.sitemap site.out r.pages)) = []
  /-- The hook is told once, after everything else. -/
  told : ∃ before, reports = before ++ tellHook site.options.hooks.done (.done r.sitemap site.out r.pages) ∧
    ∀ report ∈ before, report.isDone = false

theorem faultsOf_eq_nil {α β : Type} {fate : α → Except Fault β} {as : List α} :
    faultsOf (as.map fate) = [] ↔ ∀ a ∈ as, ¬ ∃ fault, fate a = .error fault := by
  rw [faultsOf, List.filterMap_map, List.filterMap_eq_nil_iff]
  refine forall₂_congr fun a _ => ?_
  cases h : fate a <;> simp [fault?, h]

/-- Pages with different logical paths that have places, as the assets have, and lines in the sitemap if it is
wanted. -/
structure Placed (σ : Schedule) (site : Site) (t : FileTree) (entries : List String) (pages : List Page) : Prop where
  distinct : (pages.map Page.logical).Nodup
  outputs : ∀ page ∈ pages, ∃ o, page.output site.out site.ext = .ok o
  copies : ∀ source ∈ foundAssets σ site t entries pages, ∃ o, source.output site.out site.ext = .ok o
  lines : site.options.sitemap = true → ∃ lines, site.sitemapLines pages = .ok lines

section
variable {σ τ : Schedule} {entries : List String} {pages : List Page} {ms : List (FileTree × Page)}
  {cs : List (FileTree × Path)} {made : List String × List Fault}

/-- What is gathered before the hook is told. -/
def gatheredOf (site : Site) (made : List String × List Fault) (ms : List (FileTree × Page))
    (cs : List (FileTree × Path)) : Result where
  pages := ms.map site.pageAfter
  sitemap := made.1
  rendered := ms.filterMap site.textOf?
  copied := (cs.filterMap site.copyOf?).map Prod.snd
  faults := made.2 ++ faultsOf (ms.map site.pageFate) ++ faultsOf (cs.map site.copyFate)

theorem accounts_finish {u : FileTree} {before : List Report} (distinct : (ms.map placeOf).Nodup)
    (places : ∀ m ∈ ms, ∃ o, m.2.output site.out site.ext = .ok o)
    (tells : Tells before (site.sitemapMade made.2 ++ (ms.filterMap site.textOf?).filterMap site.written)
      (cs.filterMap site.copyOf?)
      ((site.gatheredOf made ms cs).faults ++ (cs.filterMap site.copyOf?).flatMap site.copyFailures))
    (quiet : ∀ report ∈ before, report.isDone = false) :
    ∃ r, (site.finish u (site.gatheredOf made ms cs)).result = .ok r ∧
      Accounts site made ms cs r (before ++ (site.finish u (site.gatheredOf made ms cs)).reports) := by
  refine ⟨_, rfl, rfl, fun m hm => oneOf_page distinct hm (places m hm), rfl, rfl, rfl, ?_, ?_, rfl, ?_, ?_,
    _, rfl, quiet⟩
  · have fates : (cs.map site.copyFate).length = cs.length := List.length_map _
    rw [← fates, ← length_goods_add, goods_copies]
    rfl
  · intro copy hc
    obtain ⟨c, -, h⟩ := List.mem_filterMap.1 hc
    exact (output_of_copied h).2
  · refine (tells.append (tells_tellHook _ _)).of_perm ?_ ?_ ?_
    · rw [List.append_nil]; rfl
    · rw [List.append_nil]
    · rw [List.append_assoc]
      exact (List.Perm.append_left _ List.perm_append_comm).trans (.of_eq (List.append_assoc ..).symm)
  · have isEmpty : ∀ F : List Fault, ((site.gatheredOf made ms cs).faults ++ F).isEmpty = true ↔
        made.2 = [] ∧ (∀ m ∈ ms, ¬ ∃ fault, site.pageFate m = .error fault) ∧
          (∀ c ∈ cs, ¬ ∃ fault, site.copyFate c = .error fault) ∧ F = [] := fun F => by
      simp only [gatheredOf, List.isEmpty_iff, List.append_eq_nil_iff, faultsOf_eq_nil, and_assoc]
    exact isEmpty _

theorem isDone_run {α β : Type} (σ : Schedule) {step : FileTree → α → Step β}
    (h : ∀ {t a}, ∀ report ∈ (step t a).reports, report.isDone = false) (t : FileTree) (as : List α) :
    ∀ report ∈ (σ.run step t as).2.1, report.isDone = false := by
  obtain ⟨ms, -, -, told⟩ := exists_met_run σ step t as
  intro report hr
  obtain ⟨m, -, hm⟩ := List.mem_flatMap.1 (told.mem_iff.1 hr)
  exact h report hm

/-- Work on pages accounts for all of them, or it is halted by a stray fault. -/
theorem renderAll_accounts (σ : Schedule) (u : FileTree) (distinct : (pages.map Page.logical).Nodup)
    (outputs : ∀ page ∈ pages, ∃ o, page.output site.out site.ext = .ok o) :
    (∃ ms : List (FileTree × Page), ms.map Prod.snd = pages ∧ (renderAllBy σ.run site u pages).result =
        .ok ⟨ms.map site.pageAfter, ms.filterMap site.textOf?, faultsOf (ms.map site.pageFate)⟩ ∧
      Tells (renderAllBy σ.run site u pages).reports ((ms.filterMap site.textOf?).filterMap site.written) []
        (faultsOf (ms.map site.pageFate))) ∨
    ∃ fault, (renderAllBy σ.run site u pages).result = .error fault ∧ fault.isStray = true := by
  obtain ⟨ms, rfl, results, told⟩ := exists_met_run σ site.renderPage u pages
  have fates : (σ.run site.renderPage u (ms.map Prod.snd)).2.2 = ms.map site.pageFate := results
  by_cases halted : ∃ r ∈ (σ.run site.renderPage u (ms.map Prod.snd)).2.2, Halted r
  · obtain ⟨fault, hs, notLocal⟩ := halted_settle halted
    refine .inr ⟨fault, by simp [renderAllBy, hs, Except.map], strays_settle (fun r hr => ?_) fault hs notLocal⟩
    rw [fates] at hr
    obtain ⟨m, hm, rfl⟩ := List.mem_map.1 hr
    exact strays_renderPage (outputs m.2 (List.mem_map_of_mem hm)) m.1
  · have distinct : (ms.map placeOf).Nodup := by rwa [List.map_map] at distinct
    have result := renderAllBy_of_not_halted halted
    have locals := (settle_of_not_halted fun r hr hh => halted ⟨r, hr, hh⟩).2
    rw [fates, pagesAfter_fates, texts_of_distinct distinct] at result
    refine .inl ⟨ms, rfl, result, ?_⟩
    have tells := ((tells_pages ms).perm told).append (tells_failed (faultsOf (ms.map site.pageFate)))
    rw [fates] at locals
    unfold renderAllBy
    dsimp only
    rw [fates, locals]
    simpa using tells

theorem stray_searchFault {roots : List String} {fault : Fault} (h : site.searchFault? roots = some fault) :
    fault.isStray = true := by
  have path : ∀ {p : Path}, pathFault? p = some fault → fault.isStray = true := fun hp =>
    strays_pathFault (β := Unit) hp fault rfl (isLocal_pathFault hp)
  unfold searchFault? at h
  rcases Option.or_eq_some_iff.1 h with h | ⟨-, h⟩
  · exact path h
  · obtain ⟨root, -, h⟩ := List.exists_of_findSome?_eq_some h
    obtain ⟨pattern, -, h⟩ := List.exists_of_findSome?_eq_some h
    obtain ⟨lead, -, h⟩ := Option.bind_eq_some_iff.1 h
    exact path h

/-- So does the copying of assets. -/
theorem copyAll_accounts (τ : Schedule) (u : FileTree) (roots : List String)
    (outputs : ∀ source ∈ site.findAssets u roots, ∃ o, source.output site.out site.ext = .ok o) :
    (∃ cs : List (FileTree × Path), cs.map Prod.snd = site.findAssets u roots ∧
      (copyAllBy τ.run site u roots).result =
        .ok ((cs.filterMap site.copyOf?).map Prod.snd, faultsOf (cs.map site.copyFate)) ∧
      Tells (copyAllBy τ.run site u roots).reports [] (cs.filterMap site.copyOf?)
        ((cs.filterMap site.copyOf?).flatMap site.copyFailures ++ faultsOf (cs.map site.copyFate))) ∨
    ∃ fault, (copyAllBy τ.run site u roots).result = .error fault ∧ fault.isStray = true := by
  cases hs : site.searchFault? roots with
  | some fault => exact .inr ⟨fault, by simp [copyAllBy, hs, Step.still], stray_searchFault hs⟩
  | none =>
    have copying : copyAllBy τ.run site u roots = copyAssetsBy τ.run site u (site.findAssets u roots) := by
      simp [copyAllBy, hs]
    obtain ⟨cs, sources, results, told⟩ := exists_met_run τ site.copyAsset u (site.findAssets u roots)
    have fates : (τ.run site.copyAsset u (site.findAssets u roots)).2.2 = cs.map site.copyFate := results
    by_cases halted : ∃ r ∈ (τ.run site.copyAsset u (site.findAssets u roots)).2.2, Halted r
    · obtain ⟨fault, hs, notLocal⟩ := halted_settle halted
      refine .inr ⟨fault, by rw [copying]; exact hs, strays_settle (fun r hr => ?_) fault hs notLocal⟩
      rw [fates] at hr
      obtain ⟨c, hc, rfl⟩ := List.mem_map.1 hr
      have found : c.2 ∈ site.findAssets u roots := sources ▸ List.mem_map_of_mem hc
      exact strays_copyAsset (outputs c.2 found) c.1
    · have result := copyAllBy_of_not_halted hs halted
      have locals := (settle_of_not_halted fun r hr hh => halted ⟨r, hr, hh⟩).2
      rw [fates, goods_copies] at result
      refine .inl ⟨cs, sources, result, ?_⟩
      have tells := ((tells_assets cs).perm told).append (tells_failed (faultsOf (cs.map site.copyFate)))
      rw [fates] at locals
      rw [copying]
      unfold copyAssetsBy
      dsimp only
      rw [fates, locals]
      simpa using tells

/-- What is gathered before the hook is told accounts for all pages and assets, or the build is halted by a stray
fault. -/
theorem gather_accounts (h : Placed σ site t entries pages) (τ : Schedule) :
    (∃ made ms cs, (gatherBy σ.run τ.run site t entries pages).result = .ok (site.gatheredOf made ms cs) ∧
      (site.makeSitemap t pages).result = .ok made ∧
      ms.map Prod.snd = pages ∧ cs.map Prod.snd = foundAssets σ site t entries pages ∧
      Tells (gatherBy σ.run τ.run site t entries pages).reports
        (site.sitemapMade made.2 ++ (ms.filterMap site.textOf?).filterMap site.written) (cs.filterMap site.copyOf?)
        ((site.gatheredOf made ms cs).faults ++ (cs.filterMap site.copyOf?).flatMap site.copyFailures)) ∨
    ∃ fault, (gatherBy σ.run τ.run site t entries pages).result = .error fault ∧ fault.isStray = true := by
  have halted : ∀ {α β : Type} {step : Step α} {next : FileTree → α → Step β},
      (∃ fault, step.result = .error fault ∧ fault.isStray = true) →
        ∃ fault, (step.andThen next).result = .error fault ∧ fault.isStray = true := by
    rintro α β step next ⟨fault, hf, stray⟩
    exact ⟨fault, by rw [Step.andThen_of_error hf], stray⟩
  unfold gatherBy
  rcases @makeSitemap_ends site t pages with ⟨fault, hf, notLocal⟩ | ⟨lines, faults, hs⟩
  · exact .inr (halted ⟨fault, hf, strays_makeSitemap h.lines fault hf notLocal⟩)
  rw [Step.andThen_of_ok hs]
  dsimp only
  rcases renderAll_accounts σ (site.makeSitemap t pages).tree h.distinct h.outputs with
    ⟨ms, taken, hr, toldPages⟩ | stray
  swap
  · exact .inr (halted stray)
  rw [Step.andThen_of_ok hr]
  rcases copyAll_accounts τ (copyingTree σ site t pages) _ h.copies with ⟨cs, found, hc, toldAssets⟩ | stray
  swap
  · obtain ⟨fault, hf, stray⟩ := stray
    exact .inr ⟨fault, congrArg (Except.map _) hf, stray⟩
  refine .inl ⟨(lines, faults), ms, cs, congrArg (Except.map _) hc, hs, taken, found, ?_⟩
  refine ((tells_makeSitemap hs).append (toldPages.append toldAssets)).of_perm ?_ ?_ ?_
  · rw [List.append_nil]
  · rfl
  · simp only [gatheredOf, List.append_assoc]
    exact .append_left _ (.append_left _ List.perm_append_comm)

/-- A build of pages that have places accounts for all pages and assets, or it is halted by a stray fault. Then the
hook is not told. -/
theorem build_accounts (h : Placed σ site t entries pages) (τ : Schedule) :
    (∃ r made ms cs, (buildIn σ τ site t entries pages).result = .ok r ∧
      (site.makeSitemap t pages).result = .ok made ∧
      ms.map Prod.snd = pages ∧ cs.map Prod.snd = foundAssets σ site t entries pages ∧
      Accounts site made ms cs r (buildIn σ τ site t entries pages).reports) ∨
    ∃ fault, (buildIn σ τ site t entries pages).result = .error fault ∧ fault.isStray = true ∧
      ∀ report ∈ (buildIn σ τ site t entries pages).reports, report.isDone = false := by
  have quiet : ∀ report ∈ (gatherBy σ.run τ.run site t entries pages).reports, report.isDone = false :=
    isDone_gatherBy (isDone_run σ isDone_renderPage) (isDone_run τ isDone_copyAsset)
  unfold buildIn buildBy
  rcases gather_accounts h τ with ⟨made, ms, cs, hg, hs, taken, found, tells⟩ | ⟨fault, hf, stray⟩
  · have distinct : (ms.map placeOf).Nodup := by
      have := h.distinct
      rwa [← taken, List.map_map] at this
    have places : ∀ m ∈ ms, ∃ o, m.2.output site.out site.ext = .ok o := fun m hm =>
      h.outputs m.2 (taken ▸ List.mem_map_of_mem hm)
    rw [Step.andThen_of_ok hg]
    obtain ⟨r, hr, accounts⟩ := accounts_finish distinct places tells quiet
    exact .inl ⟨r, made, ms, cs, hr, hs, taken, found, accounts⟩
  · rw [Step.andThen_of_error hf]
    exact .inr ⟨fault, rfl, stray, quiet⟩

end

theorem exists_ok {ε β : Type} {r : Except ε β} (h : r.toOption.isSome) : ∃ b, r = .ok b := by
  cases r with
  | ok b => exact ⟨b, rfl⟩
  | error e => cases h

/-- Whether pages and assets have places can be computed. -/
theorem placed_of_isSome {σ : Schedule} {entries : List String} {pages : List Page}
    (distinct : (pages.map Page.logical).Nodup)
    (outputs : ∀ page ∈ pages, (page.output site.out site.ext).toOption.isSome)
    (copies : ∀ source ∈ foundAssets σ site t entries pages, (source.output site.out site.ext).toOption.isSome)
    (lines : site.options.sitemap = true → (site.sitemapLines pages).toOption.isSome) :
    Placed σ site t entries pages :=
  ⟨distinct, fun page hm => exists_ok (outputs page hm), fun source hm => exists_ok (copies source hm),
    fun hw => exists_ok (lines hw)⟩

/-- The small site accounts for its pages and its asset. -/
theorem build_accounts_small :
    let site := smallSite (Path.ofString "dist") true
    let build := buildIn .backward .forward site smallTree ["site/**/*.j2"] smallPages
    Placed .backward site smallTree ["site/**/*.j2"] smallPages ∧
      ∃ r made ms cs, build.result = .ok r ∧ (site.makeSitemap smallTree smallPages).result = .ok made ∧
        ms.map Prod.snd = smallPages ∧
        cs.map Prod.snd = foundAssets .backward site smallTree ["site/**/*.j2"] smallPages ∧
        Accounts site made ms cs r build.reports := by
  have placed : Placed .backward (smallSite (Path.ofString "dist") true) smallTree ["site/**/*.j2"] smallPages :=
    placed_of_isSome (by decide) (by decide +kernel) (by decide +kernel) (by decide +kernel)
  refine ⟨placed, (build_accounts placed .forward).resolve_right fun ⟨fault, hf, _⟩ => ?_⟩
  have finishes : (buildIn .backward .forward (smallSite (Path.ofString "dist") true) smallTree ["site/**/*.j2"]
      smallPages).result.toOption.isSome = true := by decide +kernel
  rw [hf] at finishes
  cases finishes

/-- A hook that gives back nothing. -/
def quietHook : Hook := ⟨"hooks:done", fun _ => .ok .null⟩

/-- A site with a key that holds half of a surrogate pair, and a hook that is told when a build is done. -/
def halvedSite : Site :=
  { Site.ofDir ⟨.slash, ["p"]⟩ ⟨⟨2024, 1, 1⟩, 0, 0, 0, 0, none⟩ with
    options := {
      globalData := [(.text (String.singleton (Text.ofCode 0xD800)), .int 1)]
      hooks := { done := some quietHook } } }

/-- A page that prints the keys, another page and a style sheet. -/
def halvedTree : FileTree := ⟨[(["p"], .dir), (["p", "site"], .dir),
  (["p", "site", "a.j2"], .file "\x7b% for x in GLOBAL %\x7d\x7b\x7b x \x7d\x7d\x7b% endfor %\x7d".toUTF8),
  (["p", "site", "b.j2"], .file "b".toUTF8), (["p", "site", "c.css"], .file "c".toUTF8)]⟩

def halvedPages : List Page :=
  [{ template := ⟨.relative, ["site", "a.j2"]⟩ }, { template := ⟨.relative, ["site", "b.j2"]⟩ }]

/-- Although all pages have places, a page whose text cannot be written halts the build: there is no result, the asset
is not copied, and the hook is not told. -/
theorem halved_build_unaccounted :
    let build := buildIn .forward .forward halvedSite halvedTree ["site/*.j2"] halvedPages
    Placed .forward halvedSite halvedTree ["site/*.j2"] halvedPages ∧ (∀ r, build.result ≠ .ok r) ∧
      build.tree.hasFile ["p", "dist", "c.css"] = false ∧ ∀ report ∈ build.reports, report.isDone = false := by
  intro build
  have placed : Placed .forward halvedSite halvedTree ["site/*.j2"] halvedPages :=
    placed_of_isSome (by decide) (by decide +kernel) (by decide +kernel) (by decide +kernel)
  have computed : build.result.toOption.isNone = true ∧ build.tree.hasFile ["p", "dist", "c.css"] = false ∧
      ∀ report ∈ build.reports, report.isDone = false := by decide +kernel
  obtain ⟨halted, notCopied, quiet⟩ := computed
  refine ⟨placed, fun r hr => ?_, notCopied, quiet⟩
  rw [hr] at halted
  cases halted

end StaticSite.Site
