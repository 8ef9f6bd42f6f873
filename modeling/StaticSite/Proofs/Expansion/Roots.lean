import StaticSite.Proofs.Expansion.Places
import StaticSite.Proofs.Path.Text
import StaticSite.Proofs.Site.Again
import StaticSite.Watch.Session

/-!
# Root directories of entry patterns

An entry pattern is read in two ways: as a pattern, to find templates, and as a plain path, whose first segment
is its root directory. The two agree on patterns whose first segment is a name (`Rooted`): then the templates that
the pattern finds lie in its root directory, where assets are looked for and changes are watched
(`root_of_page`). They do not agree where the first segment stands for several names, or where a group of
alternatives begins in it and ends behind it.
-/

namespace StaticSite

/-! ## Names at the beginning of a pattern -/

namespace Glob

variable {t : FileTree}

/-- The names of the pieces before the first one that is no name. -/
def leadingNames (pieces : List Piece) : List String :=
  (pieces.takeWhile (·.name?.isSome)).filterMap Piece.name?

theorem leadingNames_cons_name (s : String) (pieces : List Piece) :
    leadingNames (.name s :: pieces) = s :: leadingNames pieces := by
  simp [leadingNames, Piece.name?]

theorem leadingNames_cons_of_isNone {piece : Piece} (h : piece.name? = none) (pieces : List Piece) :
    leadingNames (piece :: pieces) = [] := by
  simp [leadingNames, h]

/-- What is found begins with what leads there and the names that the pieces begin with. -/
theorem leadingNames_prefix_found {base : Location} {lead : List String} {pieces : List Piece} {segs : List String}
    (h : segs ∈ found t base lead pieces) : lead ++ leadingNames pieces <+: segs := by
  induction pieces generalizing lead with
  | nil =>
    rw [found, List.mem_singleton] at h
    simp [leadingNames, h]
  | cons piece rest ih =>
    -- a piece that is no name makes the lead longer, and no more is said of what comes after it
    have later : ∀ {more}, segs ∈ found t base (lead ++ more) rest → lead <+: segs := fun hm =>
      (List.prefix_append _ _).trans ((List.prefix_append _ _).trans (ih hm))
    cases piece with
    | name s =>
      rw [found] at h
      split at h
      · cases h
      · rw [leadingNames_cons_name]
        simpa using ih h
    | pattern items hidden =>
      obtain ⟨s, -, hm⟩ := List.mem_flatMap.1 h
      rw [leadingNames_cons_of_isNone rfl, List.append_nil]
      exact later hm
    | deep =>
      rw [leadingNames_cons_of_isNone rfl, List.append_nil]
      rcases List.mem_append.1 h with h | h
      · exact (List.prefix_append _ _).trans (ih h)
      · obtain ⟨more, -, hm⟩ := List.mem_flatMap.1 h
        exact later hm

theorem leadingNames_prefix_foundFrom {base : Location} {pieces : List Piece} {segs : List String}
    (h : segs ∈ foundFrom t base pieces) : leadingNames pieces <+: segs := by
  unfold foundFrom at h
  dsimp only at h
  split at h
  · simpa using leadingNames_prefix_found h
  · exact (List.prefix_append _ _).trans (leadingNames_prefix_found h)

/-- A first segment without magic stands first among the names. -/
theorem head?_leadingNames {segs : List String} {s : String} (hm : hasMagic s = false)
    (hs : (segs.filter (· ≠ ".")).head? = some s) :
    ((leadingNames (segs.map Piece.ofString)).filter (· ≠ ".")).head? = some s := by
  have named : ∀ {u}, hasMagic u = false → Piece.ofString u = .name u := by
    intro u hu
    have : u ≠ "**" := by rintro rfl; exact absurd hu (by decide)
    simp [Piece.ofString, this, hu]
  induction segs with
  | nil => cases hs
  | cons u segs ih =>
    by_cases hu : u = "."
    · subst hu
      rw [List.map_cons, named (by decide), leadingNames_cons_name]
      simpa using ih (by simpa using hs)
    · have first : u = s := by simpa [hu] using hs
      subst first
      rw [List.map_cons, named hm, leadingNames_cons_name]
      simp [hu]

/-- What stands before the first brace stands at the beginning of all that the groups give. -/
theorem prefix_of_mem_expand {cs lead plain : List Char} (h : plain ∈ expand cs) (hl : lead <+: cs) (hb : '{' ∉ lead) :
    lead <+: plain := by
  induction cs using expand.induct generalizing plain with
  | case1 cs none =>
    rw [expand_of_firstGroup_eq_none none, List.mem_singleton] at h
    rwa [h]
  | case2 cs group some ih =>
    rw [expand_eq_of_firstGroup some, mem_distinct, List.mem_flatMap] at h
    obtain ⟨alternative, ha, h⟩ := h
    have split : group.head ++ ['{'] <+: cs := by
      rw [(firstGroup_eq some).1]
      exact ⟨group.body ++ '}' :: group.tail, by simp⟩
    have before : lead <+: group.head := by
      rcases List.prefix_or_prefix_of_prefix hl split with hp | hp
      · exact (List.prefix_concat_iff.1 hp).resolve_left fun he => hb (by simp [he])
      · exact absurd (hp.subset (by simp)) hb
    refine ih alternative ha h ?_
    rw [List.append_assoc]
    exact before.trans (List.prefix_append _ _)

end Glob

/-! ## Rooted patterns -/

/-- The first segment of the pattern is a name, and it is the first segment of all that the groups of alternatives
give. -/
structure Rooted (pattern : String) : Prop where
  nonempty : (Path.ofString pattern).rootDir ≠ ""
  plain : Glob.hasMagic (Path.ofString pattern).rootDir = false
  stands : ∀ plain ∈ Glob.expandBraces pattern,
    Path.rootOf plain.toList = .relative ∧ (Path.ofString plain).rootDir = (Path.ofString pattern).rootDir

theorem rooted_iff {pattern : String} : Rooted pattern ↔ (Path.ofString pattern).rootDir ≠ "" ∧
    Glob.hasMagic (Path.ofString pattern).rootDir = false ∧ ∀ plain ∈ Glob.expandBraces pattern,
      Path.rootOf plain.toList = .relative ∧ (Path.ofString plain).rootDir = (Path.ofString pattern).rootDir :=
  ⟨fun h => ⟨h.nonempty, h.plain, h.stands⟩, fun h => ⟨h.1, h.2.1, h.2.2⟩⟩

instance (pattern : String) : Decidable (Rooted pattern) := decidable_of_iff _ rooted_iff.symm

variable {t : FileTree} {base p : Path} {pattern : String}

theorem rootDir_of_relative {p : Path} (h : p.root = .relative) : p.rootDir = p.segments.headD "" := by
  simp [Path.rootDir, Path.parts, Path.isAbsolute, h]

theorem rootDir_of_mem_plainFiles {plain : String} (hr : Path.rootOf plain.toList = .relative)
    (hn : (Path.ofString plain).rootDir ≠ "") (hm : Glob.hasMagic (Path.ofString plain).rootDir = false)
    (h : p ∈ Glob.plainFiles t base plain) : p.root = .relative ∧ p.rootDir = (Path.ofString plain).rootDir := by
  have relative : (Path.ofString plain).root = .relative := hr
  rw [rootDir_of_relative relative] at hn hm ⊢
  obtain ⟨s, rest, hsegs⟩ := List.exists_cons_of_ne_nil (l := (Path.ofString plain).segments) fun he =>
    hn (by rw [he]; rfl)
  rw [hsegs, List.headD_cons] at hm ⊢
  -- the segments of the text are its pieces without those that are empty or a dot
  have texts : ((Text.pieces '/' plain).filter (· ≠ "")).filter (· ≠ ".") = s :: rest := by
    rw [← hsegs, List.filter_filter]
    exact List.filter_congr fun u _ => by simp [Bool.and_comm]
  have first := Glob.head?_leadingNames hm (by rw [texts]; rfl)
  unfold Glob.plainFiles at h
  dsimp only at h
  split at h
  · next pieces loc hp _ =>
    obtain ⟨segs, hsegs, hfile⟩ := List.mem_filterMap.1 h
    obtain ⟨all, hall, rfl⟩ := List.mem_map.1 hsegs
    have names := Glob.leadingNames_prefix_foundFrom (List.mem_filter.1 hall).1
    have isPieces : pieces = ((Text.pieces '/' plain).filter (· ≠ "")).map Glob.Piece.ofString := by
      unfold Glob.pieces? at hp
      dsimp only at hp
      split at hp
      · cases hp
      · exact (Option.some.inj hp).symm
    rw [isPieces] at names
    obtain ⟨more, hmore⟩ := names.filter (· ≠ ".")
    obtain ⟨tail, htail⟩ := List.head?_eq_some_iff.1 first
    split at hfile
    · split at hfile
      · obtain rfl := Option.some.inj hfile
        refine ⟨hr, ?_⟩
        rw [rootDir_of_relative hr]
        dsimp only
        rw [← hmore, htail]
        rfl
      · cases hfile
    · cases hfile
  · cases h

/-- A pattern is rooted if its first segment is a name and no brace stands before the end of it. -/
theorem rooted_of_text {head rest s : String} (hb : '{' ∉ head.toList) (hh : Path.ofString head = .ofSegments [s])
    (hm : Glob.hasMagic s = false) : Rooted (head ++ "/" ++ rest) := by
  have name : s ≠ "" := (Path.isRead_ofString head s (by rw [hh]; exact List.mem_singleton.2 rfl)).1
  have relative : Path.rootOf head.toList = .relative := congrArg Path.root hh
  have segment : Path.segmentsOf head = [s] := congrArg Path.segments hh
  have chars : ∀ more : String, (head ++ "/" ++ more).toList = head.toList ++ '/' :: more.toList := by simp
  have rooted : ∀ more : String, Path.rootOf (head ++ "/" ++ more).toList = .relative ∧
      (Path.ofString (head ++ "/" ++ more)).rootDir = s := by
    intro more
    have root : Path.rootOf (head ++ "/" ++ more).toList = .relative := by
      rw [chars]
      cases hc : head.toList with
      | nil =>
        have empty : Path.segmentsOf head = [] := by rw [Path.segmentsOf, Text.pieces, hc]; rfl
        rw [empty] at segment; cases segment
      | cons c cs =>
        rw [hc] at relative
        exact Path.rootOf_append .relative (by simpa using Path.ne_slash_of_relative relative)
    refine ⟨root, ?_⟩
    rw [rootDir_of_relative root]
    simp [Path.ofString, Path.segmentsOf_append, segment]
  have own := (rooted rest).2
  refine ⟨by rwa [own], by rwa [own], fun plain hplain => ?_⟩
  obtain ⟨given, hgiven, rfl⟩ := List.mem_map.1 hplain
  have lead : head.toList ++ ['/'] <+: given :=
    Glob.prefix_of_mem_expand hgiven ⟨rest.toList, by simp⟩ (by simp [hb])
  obtain ⟨more, rfl⟩ := lead
  have text : String.ofList (head.toList ++ ['/'] ++ more) = head ++ "/" ++ String.ofList more := by
    apply String.toList_inj.1; simp
  rw [text, own]
  exact rooted _

/-- What a rooted pattern finds begins with its root directory. -/
theorem Rooted.found (hr : Rooted pattern) (h : p ∈ Glob.files t base pattern) :
    p.root = .relative ∧ p.rootDir = (Path.ofString pattern).rootDir := by
  rw [Glob.files, Path.mem_sortDistinct, List.mem_flatMap] at h
  obtain ⟨plain, hplain, h⟩ := h
  obtain ⟨relative, same⟩ := hr.stands plain hplain
  have nonempty := hr.nonempty
  have noMagic := hr.plain
  rw [← same] at nonempty noMagic ⊢
  exact rootDir_of_mem_plainFiles relative nonempty noMagic h

/-! ## Where assets are looked for and changes are watched -/

/-- The pattern finds the template. -/
def Finds (t : FileTree) (cwd : Path) (ext pattern : String) (template : Path) : Prop :=
  ∃ p ∈ Glob.files t cwd pattern, matchTemplate cwd ext p = .ok (some template)

/-- The template lies in the root directory of a rooted pattern that finds it. -/
theorem Rooted.rootDir_of_finds (hr : Rooted pattern) {cwd template : Path} {ext : String}
    (hf : Finds t cwd ext pattern template) : template.rootDir = (Path.ofString pattern).rootDir := by
  obtain ⟨p, hp, isMatch⟩ := hf
  obtain ⟨relative, root⟩ := hr.found hp
  obtain ⟨seen, -, -⟩ := matchTemplate_eq_some isMatch
  have same : template = p := by
    unfold relativeMatch at seen
    rw [if_neg (by simp [Path.isAbsolute, relative])] at seen
    exact (Except.ok.inj seen).symm
  rw [same, root]

theorem mem_rootDirs {entries : List String} (hp : pattern ∈ entries)
    (hn : (Path.ofString pattern).rootDir ≠ "") :
    (Path.ofString pattern).rootDir ∈ Path.rootDirs (entries.map Path.ofString) := by
  rw [Path.rootDirs, mem_distinct, List.mem_filter, List.map_map]
  exact ⟨List.mem_map_of_mem hp, by simpa using hn⟩

/-- An observer that is set up watches all directories. -/
theorem Watch.Observer.calls_setUp {o : Watch.Observer} {dirs : List Path} (h : (o.setUp dirs).2 = none) :
    (o.setUp dirs).1 = dirs.map .schedule ++ [.start] := by
  induction dirs with
  | nil =>
    unfold setUp at h ⊢
    split
    · rfl
    · next hs => rw [hs] at h; cases h
  | cons dir dirs ih =>
    unfold setUp at h ⊢
    split
    · next hs =>
      rw [hs] at h
      show .schedule dir :: (o.setUp dirs).1 = _
      rw [ih h]
      rfl
    · next hs => rw [hs] at h; cases h

/-- A page comes from a pattern that finds its template. If one such pattern is rooted, the template lies in a root
directory of the entries: its assets are looked for in every build, and it is watched in every session. -/
theorem root_of_page {site : Site} {entries : List String} {x : Expansion}
    (h : expandEntries t site.bindings site.ext entries = .ok x) {page : Page} (hm : page ∈ x.pages) :
    (∃ pattern ∈ entries, Finds t site.dir site.ext pattern page.template) ∧
    ∀ pattern ∈ entries, Finds t site.dir site.ext pattern page.template → Rooted pattern →
      page.template.rootDir = (Path.ofString pattern).rootDir ∧
      page.template.rootDir ∈ Path.rootDirs (entries.map Path.ofString) ∧
      (∀ u, ∀ source ∈ Glob.files u site.dir (site.assetPattern page.template.rootDir), site.isAsset source = true →
        source ∈ site.findAssets u (Path.rootDirs (entries.map Path.ofString))) ∧
      ∀ pages o, (o.setUp (Watch.Session.ofEntries site entries pages).dirs).2 = none →
        .schedule (site.searchDir page.template) ∈ ((Watch.Session.ofEntries site entries pages).start o).2.1 := by
  obtain ⟨-, pattern, hp, p, found, isMatch⟩ := matched_of_page h hm
  refine ⟨⟨pattern, hp, p, found, isMatch⟩, fun pattern hp finds rooted => ?_⟩
  have root := rooted.rootDir_of_finds finds
  have mem : page.template.rootDir ∈ Path.rootDirs (entries.map Path.ofString) := by
    rw [root]
    exact mem_rootDirs hp rooted.nonempty
  refine ⟨root, mem, fun u source hs isAsset => Site.mem_findAssets.2 ⟨⟨_, mem, hs⟩, isAsset⟩, fun pages o ho => ?_⟩
  have scheduled : Watch.ObserverCall.schedule (site.searchDir page.template) ∈
      (o.setUp (Watch.Session.ofEntries site entries pages).dirs).1 := by
    rw [Watch.Observer.calls_setUp ho]
    exact List.mem_append_left _ (List.mem_map_of_mem (List.mem_map_of_mem mem))
  unfold Watch.Session.start
  generalize o.setUp (Watch.Session.ofEntries site entries pages).dirs = set at ho scheduled
  obtain ⟨calls, failure⟩ := set
  subst ho
  exact scheduled

/-- Two templates in two directories, and a style sheet. -/
def looseTree : FileTree := ⟨[(["p"], .dir), (["p", "site"], .dir), (["p", "site", "a.j2"], .file .empty),
  (["p", "site", "c.css"], .file .empty), (["p", "docs"], .dir), (["p", "docs", "b.j2"], .file .empty)]⟩

def looseSite : Site := { Site.ofDir ⟨.slash, ["p"]⟩ ⟨⟨2024, 1, 1⟩, 0, 0, 0, 0, none⟩ with
  options := { copyPattern := "**/*.css" } }

/-- A page with a decidable property that the evaluation of the entries shows. -/
theorem exists_page_of_any {b : Bindings} {ext : String} {entries : List String} {q : Page → Bool}
    (h : (expandEntries t b ext entries).toOption.any (·.pages.any q) = true) :
    ∃ x, expandEntries t b ext entries = .ok x ∧ ∃ page ∈ x.pages, q page = true := by
  cases hx : expandEntries t b ext entries with
  | error fault => rw [hx] at h; cases h
  | ok x =>
    rw [hx] at h
    exact ⟨x, rfl, List.any_eq_true.1 h⟩

theorem root_of_page_loose :
    let entries := ["./site/{a,b}*.j2"]
    ∃ x, expandEntries looseTree looseSite.bindings looseSite.ext entries = .ok x ∧ ∃ page ∈ x.pages,
      page.template.rootDir = "site" ∧ page.template.rootDir ∈ Path.rootDirs (entries.map Path.ofString) := by
  have planned : (expandEntries looseTree looseSite.bindings looseSite.ext ["./site/{a,b}*.j2"]).toOption.any
      (·.pages.any fun _ => true) = true := by decide +kernel
  obtain ⟨x, hx, page, hm, -⟩ := exists_page_of_any planned
  obtain ⟨⟨pattern, hp, finds⟩, roots⟩ := @root_of_page looseTree looseSite _ x hx page hm
  have rooted : ∀ pattern ∈ ["./site/{a,b}*.j2"], Rooted pattern ∧ (Path.ofString pattern).rootDir = "site" := by
    decide +kernel
  obtain ⟨root, mem, -⟩ := roots pattern hp finds (rooted pattern hp).1
  exact ⟨x, hx, page, hm, root.trans (rooted pattern hp).2, mem⟩

/-- A first segment that stands for several names is not the root directory of the template that is found, nor is one
in which a group of alternatives begins that ends behind it, nor the root of an absolute pattern. In the first two cases
the assets beside the template are not found, or it is not watched. -/
theorem loose_pattern_misses_root :
    (∀ entries ∈ [["{site/a,docs/b}.j2"], ["s*/*.j2"], ["/p/site/a.j2"]],
      ∃ x, expandEntries looseTree looseSite.bindings looseSite.ext entries = .ok x ∧
        ∃ page ∈ x.pages, page.template.rootDir ∉ Path.rootDirs (entries.map Path.ofString)) ∧
    looseSite.findAssets looseTree ["site", "docs"] = [⟨.relative, ["site", "c.css"]⟩] ∧
    looseSite.findAssets looseTree (Path.rootDirs (["{site/a,docs/b}.j2"].map Path.ofString)) = [] ∧
    (Watch.Session.ofEntries looseSite ["s*/*.j2"] []).dirs = [⟨.slash, ["p", "s*"]⟩] := by
  have planned : ∀ entries ∈ [["{site/a,docs/b}.j2"], ["s*/*.j2"], ["/p/site/a.j2"]],
      (expandEntries looseTree looseSite.bindings looseSite.ext entries).toOption.any (·.pages.any fun page =>
        page.template.rootDir ∉ Path.rootDirs (entries.map Path.ofString)) = true := by
    decide +kernel
  refine ⟨fun entries he => ?_, by decide +kernel, by decide +kernel, by decide +kernel⟩
  obtain ⟨x, hx, page, hm, outside⟩ := exists_page_of_any (planned entries he)
  exact ⟨x, hx, page, hm, by simpa using outside⟩

end StaticSite
