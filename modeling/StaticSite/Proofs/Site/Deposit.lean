import StaticSite.Proofs.FileTree.Area
import StaticSite.Proofs.FileTree.MakeDirs
import StaticSite.Proofs.Site.Alike

/-!
# Putting a file below the output root

All that a build writes it puts at a place below the output root: it makes room and then puts a file there, or
into the directory there. `local_deposit` says that this is local to the area of that place, on every class
of trees that is `Ground` for the site.
-/

namespace StaticSite

open FileTree (trail IsTree Grown)

namespace Site

/-! ## Places below the output root -/

/-- The path of the output root as it is written. -/
def base (site : Site) : Path := site.dir / site.out

/-- The locations that the path of the output root leads through. -/
def outWay (site : Site) : List Location := trail [] site.base.segments

/-- The location of the output root. -/
def outLocation (site : Site) : Location := site.outRoot.segments

/-- The directories above a place. -/
def placeWay (site : Site) (below : List String) : List Location :=
  trail [] (site.base / Path.ofSegments below).parent.segments

/-- The area of a place below the output root. What the path of the output root leads through is not its
own, not even where that path takes a detour below the root. -/
def area (site : Site) (below : List String) : FileTree.Area where
  own l := site.outLocation ++ below <+: l ∧ l ∉ site.outWay
  way l := l ∈ site.placeWay below

variable {site : Site}

theorem placeWay_eq {below : List String} (h : below ≠ []) :
    site.placeWay below = site.outWay ++ trail site.outLocation below.dropLast := by
  rw [placeWay, Path.parent_div_ofSegments _ h, Path.segments_div_ofSegments, FileTree.trail_append]
  rfl

theorem mem_placeWay {below : List String} (h : below ≠ []) (hp : Path.Plain below) {l : Location} :
    l ∈ site.placeWay below ↔
      l ∈ site.outWay ∨ ∃ more, more ≠ [] ∧ more <+: below.dropLast ∧ l = site.outLocation ++ more := by
  rw [placeWay_eq h, List.mem_append, FileTree.mem_trail_of_plain hp.dropLast]

/-- Neither of two places is at or below the other. -/
def Unnested (below below' : List String) : Prop := ¬ below <+: below' ∧ ¬ below' <+: below

instance (below below' : List String) : Decidable (Unnested below below') := inferInstanceAs (Decidable (_ ∧ _))

theorem area_apart {below below' : List String} (h : Unnested below below') (hb : below ≠ [])
    (hb' : below' ≠ []) (hp : Path.Plain below) (hp' : Path.Plain below') :
    (site.area below).Apart (site.area below') := by
  have notWay : ∀ {b b' : List String}, ¬ b <+: b' → b' ≠ [] → Path.Plain b' → ∀ l,
      (site.area b).own l → ¬ (site.area b').way l := by
    intro b b' hn hne hpl l ⟨hl, hw⟩ hway
    rcases (mem_placeWay hne hpl).1 hway with h | ⟨more, -, hm, rfl⟩
    · exact hw h
    · have := (List.prefix_append_right_inj _).1 hl
      exact hn (this.trans (hm.trans (List.dropLast_prefix _)))
  refine ⟨fun l hl => ⟨fun hl' => ?_, notWay h.1 hb' hp' l hl⟩, fun l hl => notWay h.2 hb hp l hl⟩
  rcases List.prefix_or_prefix_of_prefix hl.1 hl'.1 with hq | hq
  · exact h.1 ((List.prefix_append_right_inj _).1 hq)
  · exact h.2 ((List.prefix_append_right_inj _).1 hq)

/-! ## Ground -/

/-- Where only directories on the way to the output root were made, seen from outside of the root. -/
def Around (site : Site) (t t' : FileTree) : Prop :=
  ∀ l, ¬ site.outLocation <+: l →
    t'.get? l = t.get? l ∨ l ∈ site.outWay ∧ t.get? l = none ∧ t'.get? l = some .dir

/-- A class of trees on which files may be put below the output root. -/
structure Ground (site : Site) (exact : Prop) (K : FileTree → Prop) : Prop where
  isTree : ∀ {t}, K t → IsTree t
  keeps : ∀ {t t'}, K t → IsTree t' → (∀ l, t.get? l = some .dir → t'.get? l = some .dir) →
    Around site t t' → K t'
  straight : exact → ∀ {t}, K t → ∀ l ∈ site.outWay, l <+: site.outLocation ∨ t.get? l = some .dir

/-! ## Room for a file -/

/-- The tree with the directories above a place, as far as no file stands on the way. -/
def room (site : Site) (below : List String) (t : FileTree) : FileTree :=
  t.pave [] (site.base / Path.ofSegments below).parent.segments

theorem get?_room (below : List String) (t : FileTree) (l : Location) :
    (site.room below t).get? l =
      if t.get? l = none ∧ l ∈ t.passed (site.placeWay below) then some .dir else t.get? l :=
  FileTree.get?_pave t [] _ l

theorem mem_of_mem_passed {t : FileTree} {ls : List Location} {l : Location} (h : l ∈ t.passed ls) :
    l ∈ ls := List.takeWhile_subset _ h

theorem grown_room (below : List String) (t : FileTree) (l : Location) :
    (site.room below t).get? l = t.get? l ∨
      l ∈ site.placeWay below ∧ t.get? l = none ∧ (site.room below t).get? l = some .dir := by
  rw [get?_room]
  split
  · next h => exact .inr ⟨mem_of_mem_passed h.2, h.1, rfl⟩
  · exact .inl rfl

theorem dir_room {below : List String} {t : FileTree} {l : Location} (h : t.get? l = some .dir) :
    (site.room below t).get? l = some .dir := by
  rw [get?_room, if_neg (by simp [h]), h]

/-- No file stands on the way to a place. -/
def Clear (site : Site) (below : List String) (t : FileTree) : Prop :=
  ∀ l ∈ site.placeWay below, t.hasFile l = false

theorem room_of_clear {below : List String} {t : FileTree} (h : Clear site below t) :
    ∀ l ∈ site.placeWay below, (site.room below t).get? l = some .dir := by
  intro l hl
  rw [get?_room, FileTree.passed_of_no_file h]
  rcases FileTree.hasFile_eq_false_iff.1 (h l hl) with hn | hd
  · rw [if_pos ⟨hn, hl⟩]
  · rw [if_neg (by simp [hd]), hd]

theorem hasFile_grown {t t' : FileTree} {l : Location} (h : Grown (t.get? l) (t'.get? l)) :
    t'.hasFile l = t.hasFile l := by
  unfold FileTree.hasFile
  rcases h with h | ⟨h, h'⟩
  · rw [h]
  · rw [h, h']

theorem clear_of_sees {below : List String} {t t' : FileTree} (h : (site.area below).Sees t t') :
    Clear site below t' ↔ Clear site below t := by
  have same := fun l hl => hasFile_grown (h.way l hl)
  exact ⟨fun hc l hl => (same l hl) ▸ hc l hl, fun hc l hl => (same l hl).trans (hc l hl)⟩

theorem makeRoom_eq {t : FileTree} {below : List String} {named : Path}
    (h : pathFault? (site.base / Path.ofSegments below).parent = none) :
    makeRoom t (site.base / Path.ofSegments below) named = (site.room below t,
      (t.makeDirs (site.base / Path.ofSegments below).parent).2.mapError (.write named)) := by
  have tree := FileTree.makeDirs_tree t (site.base / Path.ofSegments below).parent
  rw [makeRoom, h, room, ← tree]

section
variable {exact : Prop} {K : FileTree → Prop} {below : List String}

theorem around_of_grown (hb : below ≠ []) (hp : Path.Plain below) {t t' : FileTree}
    (h : ∀ l, ¬ site.outLocation <+: l → t'.get? l = t.get? l ∨
      l ∈ site.placeWay below ∧ t.get? l = none ∧ t'.get? l = some .dir) : Around site t t' := by
  intro l hl
  rcases h l hl with he | ⟨hw, hn, hd⟩
  · exact .inl he
  · rcases (mem_placeWay hb hp).1 hw with hw | ⟨more, -, -, rfl⟩
    · exact .inr ⟨hw, hn, hd⟩
    · exact absurd (List.prefix_append _ _) hl

theorem Ground.keeps_room (hG : Ground site exact K) (hb : below ≠ []) (hp : Path.Plain below)
    {t : FileTree} (ht : K t) : K (site.room below t) :=
  hG.keeps ht (FileTree.isTree_pave (hG.isTree ht) rfl _) (fun _ h => dir_room h)
    (around_of_grown hb hp fun l _ => grown_room below t l)

/-! ## Putting a file there -/

/-- What is to be put where there is room: a file at a location, if any, and the result. -/
abbrev Payload (β : Type) := FileTree → Option (Location × ByteArray) × Except Fault β

def putting {β : Type} (payload : Payload β) (t : FileTree) : FileTree × Except Fault β :=
  match payload t with
  | (none, result) => (t, result)
  | (some (l, content), result) => (t.put l (.file content), result)

/-- Makes room at a place and puts something there. -/
def deposit {β : Type} (target named : Path) (payload : Payload β) (t : FileTree) :
    FileTree × Except Fault β :=
  match makeRoom t target named with
  | (t, .error fault) => (t, .error fault)
  | (t, .ok ()) => putting payload t

/-- The payload goes to its place and depends on no more than what stands there. -/
structure Fits {β : Type} (site : Site) (exact : Prop) (K : FileTree → Prop) (below : List String)
    (payload : Payload β) : Prop where
  place : ∀ {t l content}, K t → (∀ m ∈ site.placeWay below, t.get? m = some .dir) →
    (payload t).1 = some (l, content) → site.outLocation ++ below <+: l ∧ t.get? l ≠ some .dir ∧
      ∃ dir s, l = dir ++ [s] ∧ t.get? dir = some .dir
  same : ∀ {t t'}, K t → K t' → (∀ m ∈ site.placeWay below, t.get? m = some .dir) →
    (∀ m ∈ site.placeWay below, t'.get? m = some .dir) →
    (∀ l, site.outLocation ++ below <+: l → t'.get? l = t.get? l) →
    (payload t').1 = (payload t).1 ∧ Near Fault.Alike exact (payload t).2 (payload t').2

theorem result_putting {β : Type} (payload : Payload β) (t : FileTree) :
    (putting payload t).2 = (payload t).2 := by
  unfold putting
  rcases payload t with ⟨- | ⟨l, content⟩, result⟩ <;> rfl

theorem get?_putting {β : Type} {payload : Payload β} (hf : Fits site exact K below payload) {t : FileTree}
    (ht : K t) (hw : ∀ m ∈ site.placeWay below, t.get? m = some .dir) (l : Location) :
    (putting payload t).1.get? l = match (payload t).1 with
      | none => t.get? l
      | some (m, content) => if l = m then some (.file content) else t.get? l := by
  unfold putting
  rcases hp : payload t with ⟨- | ⟨m, content⟩, result⟩
  · rfl
  · obtain ⟨-, -, dir, s, rfl, -⟩ := hf.place ht hw (by rw [hp])
    exact FileTree.get?_put t _ (by simp) l

/-- Only what is the place's own is changed by putting something there. -/
theorem putting_frame {β : Type} {payload : Payload β} (hf : Fits site exact K below payload) (hb : below ≠ [])
    {t : FileTree} (ht : K t) (hw : ∀ m ∈ site.placeWay below, t.get? m = some .dir) {l : Location}
    (hl : ¬ (site.area below).own l) : (putting payload t).1.get? l = t.get? l := by
  rw [get?_putting hf ht hw]
  rcases hp : payload t with ⟨- | ⟨m, content⟩, result⟩
  · rfl
  · obtain ⟨hm, hd, -⟩ := hf.place ht hw (by rw [hp])
    refine if_neg ?_
    rintro rfl
    refine hl ⟨hm, fun ho => hd (hw _ ?_)⟩
    rw [placeWay_eq hb]
    exact List.mem_append_left _ ho

theorem Ground.keeps_putting {β : Type} {payload : Payload β} (hG : Ground site exact K)
    (hf : Fits site exact K below payload) {t : FileTree} (ht : K t)
    (hw : ∀ m ∈ site.placeWay below, t.get? m = some .dir) : K (putting payload t).1 := by
  have get := get?_putting hf ht hw
  rcases hp : payload t with ⟨- | ⟨m, content⟩, result⟩
  · simpa [putting, hp] using ht
  · obtain ⟨hm, hd, dir, s, rfl, hdir⟩ := hf.place ht hw (by rw [hp])
    rw [hp] at get
    refine hG.keeps ht ?_ (fun l hl => ?_) fun l hl => .inl ?_
    · simp only [putting, hp]
      exact (hG.isTree ht).put hdir hd
    · refine (get l).trans ((if_neg ?_).trans hl)
      rintro rfl
      exact hd hl
    · refine (get l).trans (if_neg ?_)
      rintro rfl
      exact hl ((List.prefix_append _ _).trans hm)

/-! ## Locality -/

/-- Where the path of the output root takes no detour through what is not there, nothing is missing before a
file on the way to a place. -/
theorem hurdle?_of_straight (hG : Ground site exact K) (he : exact) (hb : below ≠ [])
    (hp : Path.Plain below) {t : FileTree} (ht : K t)
    (hf : ∃ l ∈ site.placeWay below, t.hasFile l = true) :
    t.hurdle? (site.placeWay below).dropLast ≠ some .notFound := by
  intro hm
  have isTree := hG.isTree ht
  have onWay : ∀ l ∈ site.placeWay below, l <+: site.outLocation ++ below ∨ t.get? l = some .dir := by
    intro l hl
    rcases (mem_placeWay hb hp).1 hl with hl | ⟨more, -, hm, rfl⟩
    · exact (hG.straight he ht l hl).imp_left fun h => h.trans (List.prefix_append _ _)
    · exact .inl ((List.prefix_append_right_inj _).2 (hm.trans (List.dropLast_prefix _)))
  rw [placeWay, FileTree.dropLast_trail] at hm
  obtain ⟨l, hl, hn, hd⟩ := FileTree.exists_missing isTree rfl hm
  have hl : l ∈ site.placeWay below := by
    rw [← FileTree.dropLast_trail] at hl
    exact List.dropLast_subset _ hl
  obtain ⟨m, hm, hfile⟩ := hf
  rw [FileTree.no_file_of_missing isTree onWay hl hn hd m hm] at hfile
  cases hfile

theorem hurdle?_grown {t t' : FileTree} {ls : List Location}
    (h : ∀ l ∈ ls, Grown (t.get? l) (t'.get? l)) (hm : t.hurdle? ls ≠ some .notFound) :
    t'.hurdle? ls = t.hurdle? ls := by
  induction ls with
  | nil => rfl
  | cons l ls ih =>
    rw [FileTree.hurdle?] at hm ⊢
    rcases h l List.mem_cons_self with he | ⟨hn, -⟩
    · rw [FileTree.hurdle?, he]
      split
      · rfl
      · rfl
      · next hd =>
        rw [hd] at hm
        exact ih (fun m hl => h m (List.mem_cons_of_mem _ hl)) hm
    · rw [hn] at hm; exact absurd rfl hm

/-- Whether there is room, and why not, is the same for trees that look alike from the place. -/
theorem near_makeDirs (hG : Ground site exact K) (hb : below ≠ []) (hp : Path.Plain below)
    {t t' : FileTree} (ht : K t) (hs : (site.area below).Sees t t') (named : Path) :
    Near Fault.Alike exact
      ((t.makeDirs (site.base / Path.ofSegments below).parent).2.mapError (Fault.write named))
      ((t'.makeDirs (site.base / Path.ofSegments below).parent).2.mapError (Fault.write named)) := by
  have ok := FileTree.makeDirs_ok_iff t (site.base / Path.ofSegments below).parent
  have ok' := FileTree.makeDirs_ok_iff t' (site.base / Path.ofSegments below).parent
  have same := clear_of_sees hs
  by_cases hc : Clear site below t
  · exact .inl (by rw [ok.2 hc, ok'.2 (same.2 hc)])
  · have blocked : ∃ l ∈ site.placeWay below, t.hasFile l = true := by
      simpa [Clear] using hc
    by_cases he : exact
    · have first := hurdle?_of_straight hG he hb hp ht blocked
      have grown : ∀ l ∈ (site.placeWay below).dropLast, Grown (t.get? l) (t'.get? l) :=
        fun l hl => hs.way l (List.dropLast_subset _ hl)
      have hurdle := hurdle?_grown grown first
      have blocked' : ∃ l ∈ site.placeWay below, t'.hasFile l = true := by
        obtain ⟨l, hl, hf⟩ := blocked
        exact ⟨l, hl, by rw [hasFile_grown (hs.way l hl), hf]⟩
      refine .inl ?_
      rw [FileTree.makeDirs_refused blocked first, FileTree.makeDirs_refused blocked' (hurdle ▸ first),
        FileTree.refusal, FileTree.refusal]
      exact congrArg _ (by rw [← placeWay, hurdle])
    · cases h : (t.makeDirs (site.base / Path.ofSegments below).parent).2 with
      | ok u => exact absurd (ok.1 h) hc
      | error f =>
        cases h' : (t'.makeDirs (site.base / Path.ofSegments below).parent).2 with
        | ok u => exact absurd (same.1 (ok'.1 h')) hc
        | error f' => exact .inr ⟨he, _, _, rfl, rfl, .write named f f'⟩

/-- What stands at the place is the same once there is room. -/
theorem get?_room_of_sees (hb : below ≠ []) (hp : Path.Plain below) {t t' : FileTree}
    (hs : (site.area below).Sees t t') (hc : Clear site below t) {l : Location}
    (hl : site.outLocation ++ below <+: l) : (site.room below t').get? l = (site.room below t).get? l := by
  by_cases hw : l ∈ site.placeWay below
  · rw [room_of_clear ((clear_of_sees hs).2 hc) l hw, room_of_clear hc l hw]
  · have own : (site.area below).own l := ⟨hl, fun ho => hw ((mem_placeWay hb hp).2 (.inl ho))⟩
    have still := fun t : FileTree => (@grown_room site below t l).resolve_right fun h => hw h.1
    rw [still t', still t, hs.own l own]

theorem not_own_of_mem_placeWay (hb : below ≠ []) (hp : Path.Plain below) {l : Location}
    (hl : l ∈ site.placeWay below) : ¬ (site.area below).own l := by
  rintro ⟨ho, hn⟩
  rcases (mem_placeWay hb hp).1 hl with h | ⟨more, -, hm, rfl⟩
  · exact hn h
  · obtain ⟨above, hne⟩ := (FileTree.prefix_dropLast_iff hb).1 hm
    have under := (List.prefix_append_right_inj _).1 ho
    exact hne (above.eq_of_length_le under.length_le)

/-- What making room does on the way is the same but for directories that are there already. -/
theorem room_way {t t' : FileTree} (hs : (site.area below).Sees t t') {l : Location}
    (hl : l ∈ site.placeWay below) : (site.room below t').get? l = some .dir ↔
      (site.room below t).get? l = some .dir ∨ t'.get? l = some .dir := by
  have passed : t'.passed (site.placeWay below) = t.passed (site.placeWay below) :=
    FileTree.passed_congr fun m hm => hasFile_grown (hs.way m hm)
  rw [get?_room, get?_room, passed]
  rcases hs.way l hl with he | ⟨hn, hd⟩
  · rw [he]
    constructor
    · exact .inl
    · rintro (h | h)
      · exact h
      · rw [if_neg (by simp [h]), h]
  · simp [hd]

theorem deposit_of_clear {β : Type} {payload : Payload β} {named : Path} {t : FileTree}
    (hpath : pathFault? (site.base / Path.ofSegments below).parent = none) (hc : Clear site below t) :
    deposit (site.base / Path.ofSegments below) named payload t = putting payload (site.room below t) := by
  rw [deposit, makeRoom_eq hpath, (FileTree.makeDirs_ok_iff t _).2 hc]
  rfl

theorem deposit_of_blocked {β : Type} {payload : Payload β} {named : Path} {t : FileTree}
    (hpath : pathFault? (site.base / Path.ofSegments below).parent = none) (hc : ¬ Clear site below t) :
    ∃ f, (t.makeDirs (site.base / Path.ofSegments below).parent).2 = .error f ∧
      deposit (site.base / Path.ofSegments below) named payload t =
        (site.room below t, .error (.write named f)) := by
  cases h : (t.makeDirs (site.base / Path.ofSegments below).parent).2 with
  | ok u => exact absurd ((FileTree.makeDirs_ok_iff t _).1 h) hc
  | error f => exact ⟨f, rfl, by rw [deposit, makeRoom_eq hpath, h]; rfl⟩

/-- Putting something at a place is local to the place's area. -/
theorem local_deposit {β : Type} {payload : Payload β} (hG : Ground site exact K)
    (hf : Fits site exact K below payload) (hb : below ≠ []) (hp : Path.Plain below) (named : Path) :
    FileTree.Local K (site.area below) (Near Fault.Alike exact)
      (deposit (site.base / Path.ofSegments below) named payload) := by
  cases hpath : pathFault? (site.base / Path.ofSegments below).parent with
  | some fault =>
    have still : ∀ t, deposit (site.base / Path.ofSegments below) named payload t = (t, .error fault) :=
      fun t => by rw [deposit, makeRoom, hpath]
    refine ⟨fun ht => ?_, fun _ l _ => ?_, fun _ _ hs l hl => ?_, fun _ _ hs l hl => ?_, fun _ _ _ => ?_⟩ <;>
      simp only [still]
    · exact ht
    · exact .inl trivial
    · exact hs.own l hl
    · exact ⟨.inr, fun h => h.elim (fun h => by rcases hs.way l hl with he | ⟨hn, -⟩ <;> simp_all) id⟩
    · exact .refl _
  | none =>
    have keeps : ∀ {t}, K t → K (site.room below t) := hG.keeps_room hb hp
    have clear : ∀ {t t'}, (site.area below).Sees t t' → (Clear site below t' ↔ Clear site below t) :=
      clear_of_sees
    -- with room on both sides, the payload is the same
    have same : ∀ {t t'}, K t → K t' → (site.area below).Sees t t' → Clear site below t →
        (payload (site.room below t')).1 = (payload (site.room below t)).1 ∧
          Near Fault.Alike exact (payload (site.room below t)).2 (payload (site.room below t')).2 :=
      fun ht ht' hs hc =>
      hf.same (keeps ht) (keeps ht') (room_of_clear hc) (room_of_clear ((clear hs).2 hc))
        fun l hl => get?_room_of_sees hb hp hs hc hl
    refine ⟨fun {t} ht => ?_, fun {t} ht l hl => ?_, fun {t t'} ht ht' hs l hl => ?_,
      fun {t t'} ht ht' hs l hl => ?_, fun {t t'} ht ht' hs => ?_⟩
    · by_cases hc : Clear site below t
      · rw [deposit_of_clear hpath hc]
        exact hG.keeps_putting hf (keeps ht) (room_of_clear hc)
      · obtain ⟨f, -, hd⟩ := @deposit_of_blocked site below β payload named _ hpath hc
        rw [hd]
        exact keeps ht
    · by_cases hc : Clear site below t
      · rw [deposit_of_clear hpath hc, putting_frame hf hb (keeps ht) (room_of_clear hc) hl]
        exact grown_room below t l
      · obtain ⟨f, -, hd⟩ := @deposit_of_blocked site below β payload named _ hpath hc
        rw [hd]
        exact grown_room below t l
    · by_cases hc : Clear site below t
      · have hc' := (clear hs).2 hc
        rw [deposit_of_clear hpath hc, deposit_of_clear hpath hc',
          get?_putting hf (keeps ht') (room_of_clear hc'), get?_putting hf (keeps ht) (room_of_clear hc),
          (same ht ht' hs hc).1, get?_room_of_sees hb hp hs hc hl.1]
      · obtain ⟨f, -, hd⟩ := @deposit_of_blocked site below β payload named _ hpath hc
        obtain ⟨f', -, hd'⟩ := @deposit_of_blocked site below β payload named _ hpath
          ((clear hs).not.2 hc)
        have notWay : l ∉ site.placeWay below := fun hw => not_own_of_mem_placeWay hb hp hw hl
        have still := fun t : FileTree =>
          (@grown_room site below t l).resolve_right fun h => notWay h.1
        rw [hd, hd', still t', still t, hs.own l hl]
    · by_cases hc : Clear site below t
      · have hc' := (clear hs).2 hc
        have own := not_own_of_mem_placeWay hb hp hl
        rw [deposit_of_clear hpath hc, deposit_of_clear hpath hc',
          putting_frame hf hb (keeps ht') (room_of_clear hc') own,
          putting_frame hf hb (keeps ht) (room_of_clear hc) own]
        exact room_way hs hl
      · obtain ⟨f, -, hd⟩ := @deposit_of_blocked site below β payload named _ hpath hc
        obtain ⟨f', -, hd'⟩ := @deposit_of_blocked site below β payload named _ hpath
          ((clear hs).not.2 hc)
        rw [hd, hd']
        exact room_way hs hl
    · by_cases hc : Clear site below t
      · rw [deposit_of_clear hpath hc, deposit_of_clear hpath ((clear hs).2 hc), result_putting,
          result_putting]
        exact (same ht ht' hs hc).2
      · obtain ⟨f, hm, hd⟩ := @deposit_of_blocked site below β payload named _ hpath hc
        obtain ⟨f', hm', hd'⟩ := @deposit_of_blocked site below β payload named _ hpath
          ((clear hs).not.2 hc)
        have near := near_makeDirs hG hb hp ht hs named
        rw [hm, hm'] at near
        rw [hd, hd']
        exact near.bind fun _ => (.error (.write named f) : Except Fault β)

end

end Site

end StaticSite
