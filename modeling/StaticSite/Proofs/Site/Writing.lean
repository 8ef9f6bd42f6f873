import StaticSite.Proofs.Site.Deposit

/-!
# Writing texts and copying files

Writing a text and copying a file put something at a place below the output root, so both are local to the
area of that place (`local_writeText`, `local_copyTo`).
-/

namespace StaticSite

open FileTree (trail IsTree)

namespace Site

variable {site : Site} {exact : Prop} {K : FileTree → Prop} {below : List String} {t : FileTree}
  {named : Path}

/-- The path of a place below the output root. -/
def placePath (site : Site) (below : List String) : Path := site.base / Path.ofSegments below

theorem collapse_placePath (hp : Path.Plain below) :
    Path.collapse (site.placePath below).segments = site.outLocation ++ below := by
  rw [placePath, Path.segments_div_ofSegments, Path.collapse_append_of_plain _ hp]
  rfl

theorem dropLast_trail_placePath (below : List String) :
    (trail [] (site.placePath below).segments).dropLast = site.placeWay below := by
  rw [FileTree.dropLast_trail]
  rfl

/-- With the directories above it there, the path of a place leads to its location. -/
theorem locate_placePath (hp : Path.Plain below) {t : FileTree}
    (hw : ∀ m ∈ site.placeWay below, t.get? m = some .dir) :
    t.locate (site.placePath below) = .ok (site.outLocation ++ below) := by
  rw [FileTree.locate_eq, dropLast_trail_placePath, FileTree.hurdle?_eq_none.2 hw, collapse_placePath hp]

/-- The directory of a place is there once the way to it is. -/
theorem dir_above_place (hb : below ≠ []) (hp : Path.Plain below) {t : FileTree}
    (hw : ∀ m ∈ site.placeWay below, t.get? m = some .dir) :
    ∃ dir s, site.outLocation ++ below = dir ++ [s] ∧ t.get? dir = some .dir := by
  have above : Path.collapse (site.placePath below).parent.segments =
      site.outLocation ++ below.dropLast := by
    rw [placePath, Path.parent_div_ofSegments _ hb]
    exact collapse_placePath hp.dropLast
  refine ⟨site.outLocation ++ below.dropLast, below.getLast hb, ?_, ?_⟩
  · rw [List.append_assoc, List.dropLast_concat_getLast]
  · rw [← above]
    by_cases hs : (site.placePath below).parent.segments = []
    · rw [hs]; rfl
    · exact hw _ (FileTree.foldl_mem_trail [] hs)

/-! ## Texts -/

/-- A text for a place: its bytes go there unless a directory is in the way. -/
def textPayload (site : Site) (below : List String) (s : String) : Payload Unit := fun t =>
  match textBytes (site.placePath below) s with
  | .error fault => (none, .error fault)
  | .ok bytes => match t.get? (site.outLocation ++ below) with
    | some .dir =>
      (none, .error (.write (site.placePath below) (.refused .isDirectory (site.placePath below))))
    | _ => (some (site.outLocation ++ below, bytes), .ok ())

theorem putFile_placePath (hp : Path.Plain below) {t : FileTree}
    (hw : ∀ m ∈ site.placeWay below, t.get? m = some .dir) (bytes : ByteArray) :
    t.putFile (site.placePath below) bytes = match t.get? (site.outLocation ++ below) with
      | some .dir => (t, .error (.refused .isDirectory (site.placePath below)))
      | _ => (t.put (site.outLocation ++ below) (.file bytes), .ok ()) := by
  rewrite [FileTree.putFile, locate_placePath hp hw]
  rfl

theorem makeRoom_ok (hm : (makeRoom t (site.placePath below) named).2 = .ok ()) :
    (makeRoom t (site.placePath below) named).1 = site.room below t ∧
      ∀ m ∈ site.placeWay below, (site.room below t).get? m = some .dir := by
  obtain ⟨hpath, hd⟩ := makeRoom_eq_ok_iff.1 hm
  have eq := @makeRoom_eq site t below named hpath
  exact ⟨congrArg Prod.fst eq, room_of_clear ((FileTree.makeDirs_ok_iff t _).1 hd)⟩

theorem writeText_eq (hp : Path.Plain below) (t : FileTree) (s : String) :
    writeText t (site.placePath below) s =
      deposit (site.placePath below) (site.placePath below) (site.textPayload below s) t := by
  have room := @makeRoom_ok site below t (site.placePath below)
  rw [writeText_directly]
  unfold deposit
  generalize makeRoom t (site.placePath below) (site.placePath below) = made at room ⊢
  obtain ⟨t', made⟩ := made
  cases made with
  | error fault => rfl
  | ok u =>
    obtain ⟨rfl, hw⟩ := room rfl
    dsimp only
    rw [putting, textPayload]
    cases textBytes (site.placePath below) s with
    | error fault => rfl
    | ok bytes =>
      dsimp only
      rw [putFile_placePath hp hw]
      rcases (site.room below t).get? (site.outLocation ++ below) with - | ⟨content | -⟩ <;> rfl

theorem fits_textPayload (hb : below ≠ []) (hp : Path.Plain below) (s : String) :
    Fits site exact K below (site.textPayload below s) where
  place {t l content} _ hw h := by
    unfold textPayload at h
    cases hbytes : textBytes (site.placePath below) s with
    | error fault => rw [hbytes] at h; cases h
    | ok bytes =>
      rw [hbytes] at h
      dsimp only at h
      split at h
      · cases h
      · next hd =>
        cases h
        exact ⟨List.prefix_rfl, hd, dir_above_place hb hp hw⟩
  same {t t'} _ _ _ _ same := by
    have : site.textPayload below s t' = site.textPayload below s t := by
      rw [textPayload, textPayload, same _ List.prefix_rfl]
    rw [this]
    exact ⟨rfl, .refl _⟩

theorem local_writeText (hG : Ground site exact K) (hb : below ≠ []) (hp : Path.Plain below)
    (s : String) : FileTree.Local K (site.area below) (Near Fault.Alike exact)
      (writeText · (site.placePath below) s) := by
  have written : (writeText · (site.placePath below) s) =
      deposit (site.placePath below) (site.placePath below) (site.textPayload below s) :=
    funext fun t => writeText_eq hp t s
  rw [written]
  exact local_deposit hG (fits_textPayload hb hp s) hb hp (site.placePath below)

/-! ## Copies -/

/-- Where a copy lands: at its place or in the directory there. -/
def landing (site : Site) (source : Path) (below : List String) (t : FileTree) : List String :=
  if t.get? (site.outLocation ++ below) = some .dir then below ++ [source.name] else below

/-- A copy for a place: the content of the source goes there unless a directory is in the way. -/
def copyPayload (site : Site) (source output : Path) (below : List String) : Payload Unit := fun t =>
  match pathFault? (site.dir / source) with
  | some fault => (none, .error fault)
  | none => match t.read (site.dir / source) with
    | .error fault => (none, .error (.write output fault))
    | .ok content => match t.get? (site.outLocation ++ site.landing source below t) with
      | some .dir =>
        (none, .error (.write output (.refused .isDirectory (site.placePath (site.landing source below t)))))
      | _ => (some (site.outLocation ++ site.landing source below t, content), .ok ())

/-- The source lies outside of the output root and has a name. -/
structure IsOutside (site : Site) (source : Path) : Prop where
  named : source.segments ≠ []
  name : Path.Plain [source.name]
  location : ¬ site.outLocation <+: Path.collapse (site.dir / source).segments

section
variable {source output : Path}

theorem prefix_landing (site : Site) (source : Path) (below : List String) (t : FileTree) :
    below <+: site.landing source below t := by
  unfold landing
  split
  · exact List.prefix_append _ _
  · exact List.prefix_rfl

theorem plain_landing (hs : IsOutside site source) (hp : Path.Plain below) :
    Path.Plain (site.landing source below t) := by
  unfold landing
  split
  · exact ⟨by simpa [hp.1] using hs.name.1, by simpa [hp.2] using hs.name.2⟩
  · exact hp

theorem landing_ne_nil (hb : below ≠ []) : site.landing source below t ≠ [] := by
  unfold landing
  split
  · simp
  · exact hb

/-- The way to where a copy lands is there once the way to its place is. -/
theorem way_landing (hb : below ≠ []) (hw : ∀ m ∈ site.placeWay below, t.get? m = some .dir)
    (hp : Path.Plain below) :
    ∀ m ∈ site.placeWay (site.landing source below t), t.get? m = some .dir := by
  unfold landing
  split
  · next hd =>
    intro m hm
    rw [placeWay_eq (by simp), List.dropLast_concat] at hm
    rcases List.mem_append.1 hm with hm | hm
    · exact hw m (by rw [placeWay_eq hb]; exact List.mem_append_left _ hm)
    · obtain ⟨more, hne, hpre, rfl⟩ := (FileTree.mem_trail_of_plain hp).1 hm
      by_cases he : more = below
      · rw [he]; exact hd
      · have above : more <+: below.dropLast := (FileTree.prefix_dropLast_iff hb).2 ⟨hpre, he⟩
        exact hw _ ((mem_placeWay hb hp).2 (.inr ⟨more, hne, above, rfl⟩))
  · exact hw

theorem name_div {source : Path} (h : source.segments ≠ []) (p : Path) : (p / source).name = source.name := by
  simp only [HDiv.hDiv, Div.div, Path.join]
  split
  · rfl
  · simp [Path.name, List.getLastD_eq_getLast?, List.getLast?_append, List.getLast?_eq_some_getLast h]

theorem child_placePath (below : List String) (s : String) :
    (site.placePath below).child s = site.placePath (below ++ [s]) := by
  simp [placePath, Path.join_ofSegments, Path.child]

theorem copyFile_placePath (hs : IsOutside site source) (hb : below ≠ []) (hp : Path.Plain below)
    (hw : ∀ m ∈ site.placeWay below, t.get? m = some .dir) :
    t.copyFile (site.dir / source) (site.placePath below) =
      match t.read (site.dir / source) with
      | .error fault => (t, .error fault)
      | .ok content => t.putFile (site.placePath (site.landing source below t)) content := by
  have located := locate_placePath (plain_landing (t := t) hs hp) (way_landing hb hw hp)
  have isDir : t.isDir (site.placePath below) = true ↔ t.get? (site.outLocation ++ below) = some .dir := by
    rw [FileTree.isDir, FileTree.node?, locate_placePath hp hw]
    dsimp only
    generalize t.get? (site.outLocation ++ below) = node
    rcases node with - | ⟨content | -⟩ <;> simp
  have target : (if t.isDir (site.placePath below) then
      (site.placePath below).child (site.dir / source).name else site.placePath below) =
        site.placePath (site.landing source below t) := by
    rw [landing, name_div hs.named, child_placePath]
    by_cases hd : t.get? (site.outLocation ++ below) = some .dir
    · rw [if_pos (isDir.2 hd), if_pos hd]
    · rw [if_neg fun h => hd (isDir.1 h), if_neg hd]
  have other : t.sameNode (site.dir / source) (site.placePath (site.landing source below t)) = false := by
    rw [FileTree.sameNode, located, FileTree.locate_eq]
    cases t.hurdle? (trail [] (site.dir / source).segments).dropLast with
    | some cause => rfl
    | none =>
      have : Path.collapse (site.dir / source).segments ≠
          site.outLocation ++ site.landing source below t := fun h =>
        hs.location (h ▸ List.prefix_append _ _)
      simp [this]
  unfold FileTree.copyFile
  dsimp only
  rw [target, other]
  rfl

theorem copyTo_eq (hs : IsOutside site source) (hb : below ≠ []) (hp : Path.Plain below) (t : FileTree) :
    site.copyTo t source (site.out / Path.ofSegments below) =
      deposit (site.placePath below) (site.out / Path.ofSegments below)
        (site.copyPayload source (site.out / Path.ofSegments below) below) t := by
  have target : site.dir / (site.out / Path.ofSegments below) = site.placePath below :=
    Path.div_div_ofSegments site.dir site.out below
  have room := @makeRoom_ok site below t (site.out / Path.ofSegments below)
  unfold copyTo deposit
  rw [target]
  dsimp only
  generalize makeRoom t (site.placePath below) (site.out / Path.ofSegments below) = made at room ⊢
  obtain ⟨t', made⟩ := made
  cases made with
  | error fault => rfl
  | ok u =>
    obtain ⟨rfl, hw⟩ := room rfl
    dsimp only
    rw [putting, copyPayload]
    cases pathFault? (site.dir / source) with
    | some fault => rfl
    | none =>
      dsimp only
      rw [copyFile_placePath hs hb hp hw]
      cases (site.room below t).read (site.dir / source) with
      | error fault => rfl
      | ok content =>
        dsimp only
        rw [putFile_placePath (plain_landing hs hp) (way_landing hb hw hp)]
        rcases (site.room below t).get?
          (site.outLocation ++ site.landing source below (site.room below t)) with - | ⟨content | -⟩ <;> rfl

theorem fits_copyPayload (hs : IsOutside site source) (hb : below ≠ []) (hp : Path.Plain below)
    (hread : ∀ {t t'}, K t → K t' →
      Near (fun _ _ => True) exact (t.read (site.dir / source)) (t'.read (site.dir / source))) :
    Fits site exact K below (site.copyPayload source output below) where
  place {t l content} _ hw h := by
    unfold copyPayload at h
    split at h
    · cases h
    · split at h
      · cases h
      · split at h
        · cases h
        · next hd =>
          cases h
          refine ⟨(List.prefix_append_right_inj _).2 (prefix_landing site source below t), hd, ?_⟩
          exact dir_above_place (landing_ne_nil hb) (plain_landing hs hp) (way_landing hb hw hp)
  same {t t'} ht ht' _ _ same := by
    have lands : site.landing source below t' = site.landing source below t := by
      rw [landing, landing, same _ List.prefix_rfl]
    have there := same (site.outLocation ++ site.landing source below t)
      ((List.prefix_append_right_inj _).2 (prefix_landing site source below t))
    unfold copyPayload
    cases pathFault? (site.dir / source) with
    | some fault => exact ⟨rfl, .refl _⟩
    | none =>
      dsimp only
      rw [lands, there]
      rcases hread ht ht' with he | ⟨hn, f, f', hr, hr', -⟩
      · rw [he]
        exact ⟨rfl, .refl _⟩
      · rw [hr, hr']
        exact ⟨rfl, .inr ⟨hn, _, _, rfl, rfl, .write output f f'⟩⟩

theorem local_copyTo (hG : Ground site exact K) (hs : IsOutside site source) (hb : below ≠ [])
    (hp : Path.Plain below)
    (hread : ∀ {t t'}, K t → K t' →
      Near (fun _ _ => True) exact (t.read (site.dir / source)) (t'.read (site.dir / source))) :
    FileTree.Local K (site.area below) (Near Fault.Alike exact)
      (site.copyTo · source (site.out / Path.ofSegments below)) := by
  have copied : (site.copyTo · source (site.out / Path.ofSegments below)) =
      deposit (site.placePath below) (site.out / Path.ofSegments below)
        (site.copyPayload source (site.out / Path.ofSegments below) below) :=
    funext fun t => copyTo_eq hs hb hp t
  rw [copied]
  exact local_deposit hG (fits_copyPayload hs hb hp hread) hb hp _

end

end Site

end StaticSite
