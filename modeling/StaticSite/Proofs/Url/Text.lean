import Mathlib.Data.List.TakeDrop
import Mathlib.Data.List.TakeWhile
import StaticSite.Url.Basic

/-!
# URLs and their texts

A text is cut into scheme, authority and what follows (`cutScheme_cases`, `cutAuthority_cases`), and a URL that is read
from one satisfies `IsSplit`. The text of such a URL is read as it again (`IsSplit.ofChars?_text`), unless two slashes
that begin the path are taken for those of an authority (`IsSplit.ofChars?_text_of_slashes`). What is written behind a
URL with scheme and authority joins what follows the authority (`ofChars?_append`).
-/

namespace StaticSite

theorem Text.cut_of_notMem {sep : Char} {cs : List Char} (h : sep ∉ cs) : cut sep cs = (cs, none) := by
  induction cs with
  | nil => rfl
  | cons c cs ih =>
    simp only [List.mem_cons, not_or] at h
    rw [cut, if_neg (Ne.symm h.1), ih h.2]

theorem Text.mem_of_mem_cut {sep c : Char} {cs : List Char} (h : c ∈ (cut sep cs).1 ∨ c ∈ (cut sep cs).2.getD []) :
    c ∈ cs := by
  by_cases hs : sep ∈ cs
  · obtain ⟨before, after, rfl, first⟩ := List.eq_append_cons_of_mem hs
    rw [cut_append first] at h
    exact h.elim (List.mem_append_left _) fun h => List.mem_append_right _ (List.mem_cons_of_mem _ h)
  · rw [cut_of_notMem hs] at h
    exact h.elim id fun h => absurd h List.not_mem_nil

theorem Text.prefix_cut (sep : Char) (cs : List Char) : (cut sep cs).1 <+: cs := by
  induction cs with
  | nil => exact List.nil_prefix
  | cons c cs ih =>
    rw [cut]
    split
    · exact List.nil_prefix
    · exact (List.cons_prefix_cons).2 ⟨rfl, ih⟩

theorem Text.head?_of_prefix {c : Char} {cs ds : List Char} (h : ds <+: cs) (hc : c ∈ ds.head?) : c ∈ cs.head? := by
  obtain ⟨behind, rfl⟩ := h
  rw [List.head?_append, Option.mem_def.1 hc]
  rfl

/-- A part that is written only if there is one is found again. -/
theorem Text.cut_append_unless {sep : Char} {before : List Char} (h : sep ∉ before) (after : List Char) :
    cut sep (before ++ if after = [] then [] else sep :: after) =
      (before, if after = [] then none else some after) := by
  split
  · rw [List.append_nil, cut_of_notMem h]
  · exact cut_append h _

namespace Url

/-! ## Cleaning -/

/-- The character is no tab and no line end. -/
def isKept (c : Char) : Bool := c ≠ '\t' ∧ c ≠ '\r' ∧ c ≠ '\n'

theorem cleaned_append {cs : List Char} (h : cleaned cs ≠ []) (ds : List Char) :
    cleaned (cs ++ ds) = cleaned cs ++ ds.filter isKept := by
  have begun : ¬ (cs.dropWhile fun c => c.toNat ≤ 32).isEmpty = true := by
    rw [List.isEmpty_iff]
    exact fun he => h (by rw [cleaned, he]; rfl)
  rw [cleaned, List.dropWhile_append, if_neg begun, List.filter_append]
  rfl

theorem cleaned_append_slash (cs : List Char) : cleaned (cs ++ ['/']) = cleaned cs ++ ['/'] := by
  rw [cleaned, List.dropWhile_append, cleaned]
  split
  · next gone =>
    rw [List.isEmpty_iff.1 gone]
    rfl
  · rw [List.filter_append]
    rfl

theorem isKept_of_lt {c : Char} (h : 32 < c.toNat) : isKept c = true := by
  have other : ∀ d : Char, d.toNat ≤ 32 → c ≠ d := fun d hd same => by rw [same] at h; omega
  exact decide_eq_true ⟨other '\t' (by decide), other '\r' (by decide), other '\n' (by decide)⟩

theorem isKept_of_mem_cleaned {cs : List Char} {c : Char} (h : c ∈ cleaned cs) : isKept c = true :=
  (List.mem_filter.1 h).2

theorem mem_of_mem_cleaned {cs : List Char} {c : Char} (h : c ∈ cleaned cs) : c ∈ cs :=
  (List.dropWhile_sublist _).subset (List.mem_filter.1 h).1

/-- A cleaned text begins with no control and no space. -/
theorem head?_cleaned {cs : List Char} {c : Char} (h : c ∈ (cleaned cs).head?) : 32 < c.toNat := by
  have first := List.head?_dropWhile_not (fun c : Char => decide (c.toNat ≤ 32)) cs
  rw [cleaned] at h
  cases hd : cs.dropWhile fun c => c.toNat ≤ 32 with
  | nil => rw [hd] at h; cases h
  | cons d ds =>
    rw [hd] at h first
    have high : 32 < d.toNat := by simpa using first
    change c ∈ ((d :: ds).filter isKept).head? at h
    rw [List.filter_cons_of_pos (isKept_of_lt high)] at h
    exact Option.some.inj h ▸ high

theorem cleaned_eq_self {cs : List Char} (begins : ∀ c ∈ cs.head?, 32 < c.toNat)
    (kept : ∀ c ∈ cs, isKept c = true) : cleaned cs = cs := by
  have all : (cs.dropWhile fun c => c.toNat ≤ 32) = cs := by
    cases cs with
    | nil => rfl
    | cons c cs => exact List.dropWhile_cons_of_neg (by simpa using begins c rfl)
  rw [cleaned, all]
  exact List.filter_eq_self.2 kept

/-! ## Schemes -/

structure IsScheme (cs : List Char) : Prop where
  begins : cs.head?.any isAsciiAlpha = true
  chars : ∀ c ∈ cs, isSchemeChar c = true

theorem cutScheme_of_isScheme {scheme : List Char} (h : IsScheme scheme) (rest : List Char) :
    cutScheme (scheme ++ ':' :: rest) = (scheme.map Text.asciiLower, rest) := by
  have colon : ':' ∉ scheme := fun hm => absurd (h.chars _ hm) (by decide)
  have valid : (scheme.head?.any isAsciiAlpha && scheme.all isSchemeChar) = true := by
    rw [Bool.and_eq_true, List.all_eq_true]
    exact ⟨h.begins, h.chars⟩
  rw [cutScheme, Text.cut_append colon]
  exact if_pos valid

theorem IsScheme.ne_nil {cs : List Char} (h : IsScheme cs) : cs ≠ [] := by
  rintro rfl
  exact absurd h.begins (by decide)

/-- The text begins with a scheme. -/
def Named (cs : List Char) : Prop := ∃ scheme rest, IsScheme scheme ∧ cs = scheme ++ ':' :: rest

theorem Named.append {cs : List Char} : Named cs → ∀ ds, Named (cs ++ ds)
  | ⟨scheme, rest, isScheme, whole⟩, ds => ⟨scheme, rest ++ ds, isScheme, by simp [whole]⟩

theorem Named.begins {cs : List Char} (h : Named cs) : cs.head?.any isAsciiAlpha = true := by
  obtain ⟨scheme, rest, isScheme, rfl⟩ := h
  have first := isScheme.begins
  cases scheme with
  | nil => cases first
  | cons c scheme => exact first

theorem not_named_of_slash {cs : List Char} (h : ∀ c ∈ cs.head?, c = '/') : ¬ Named cs := by
  intro named
  have letter := named.begins
  cases cs with
  | nil => cases letter
  | cons c cs =>
    rw [List.head?_cons, h c rfl] at letter
    cases letter

theorem cutScheme_of_not_named {cs : List Char} (h : ¬ Named cs) : cutScheme cs = ([], cs) := by
  unfold cutScheme
  split
  · next scheme rest found =>
    split
    · next valid =>
      have whole := Text.eq_of_cut (congrArg Prod.snd found)
      rw [found] at whole
      rw [Bool.and_eq_true, List.all_eq_true] at valid
      exact absurd ⟨scheme, rest, ⟨valid.1, valid.2⟩, whole⟩ h
    · rfl
  · rfl

theorem cutScheme_cases (cs : List Char) :
    (¬ Named cs ∧ cutScheme cs = ([], cs)) ∨
      ∃ scheme rest, IsScheme scheme ∧ cs = scheme ++ ':' :: rest ∧
        cutScheme cs = (scheme.map Text.asciiLower, rest) := by
  by_cases named : Named cs
  · obtain ⟨scheme, rest, isScheme, rfl⟩ := named
    exact .inr ⟨scheme, rest, isScheme, rfl, cutScheme_of_isScheme isScheme rest⟩
  · exact .inl ⟨named, cutScheme_of_not_named named⟩

/-- What is checked character by character holds of every ASCII character. -/
theorem of_ascii {P : Char → Prop} (ascii : ∀ n < 128, P (Char.ofNat n)) {c : Char} (h : c.toNat < 128) : P c := by
  have at_c := ascii c.toNat h
  rwa [Char.ofNat_toNat] at at_c

/-- What holds of every ASCII character of a scheme holds of every character of one. -/
theorem of_isSchemeChar {P : Char → Prop} (ascii : ∀ n < 128, isSchemeChar (Char.ofNat n) = true → P (Char.ofNat n))
    {c : Char} (h : isSchemeChar c = true) : P c := by
  have small : c.toNat < 128 := by
    have char := h
    simp only [isSchemeChar, isAsciiAlpha, isAsciiDigit, Bool.or_eq_true, Bool.and_eq_true, decide_eq_true_eq,
      beq_iff_eq, Char.le_def, UInt32.le_iff_toNat_le] at char
    have bounds : 'z'.val.toNat = 122 ∧ 'Z'.val.toNat = 90 ∧ '9'.val.toNat = 57 := by decide
    change c.val.toNat < 128
    rcases char with (((alnum | alnum) | rfl) | rfl) | rfl
    · omega
    · omega
    all_goals decide
  exact of_ascii (P := fun c => isSchemeChar c = true → P c) ascii small h

theorem isKept_of_isSchemeChar {c : Char} (h : isSchemeChar c = true) : isKept c = true :=
  of_isSchemeChar (P := (isKept · = true)) (by decide) h

/-- In lower case a scheme is still one, and stays as it is. -/
theorem IsScheme.lower {cs : List Char} (h : IsScheme cs) :
    IsScheme (cs.map Text.asciiLower) ∧ (cs.map Text.asciiLower).map Text.asciiLower = cs.map Text.asciiLower := by
  have chars : ∀ {c}, isSchemeChar c = true → isSchemeChar (Text.asciiLower c) = true :=
    of_isSchemeChar (P := fun c => isSchemeChar (Text.asciiLower c) = true) (by decide +kernel)
  have begins : ∀ {c}, isSchemeChar c = true → isAsciiAlpha c = true → isAsciiAlpha (Text.asciiLower c) = true :=
    of_isSchemeChar (P := fun c => isAsciiAlpha c = true → isAsciiAlpha (Text.asciiLower c) = true) (by decide +kernel)
  have twice : ∀ {c}, isSchemeChar c = true → Text.asciiLower (Text.asciiLower c) = Text.asciiLower c :=
    of_isSchemeChar (P := fun c => Text.asciiLower (Text.asciiLower c) = Text.asciiLower c) (by decide +kernel)
  refine ⟨⟨?_, fun d hd => ?_⟩, ?_⟩
  · cases cs with
    | nil => exact h.begins
    | cons c cs => exact begins (h.chars c List.mem_cons_self) h.begins
  · obtain ⟨c, hc, rfl⟩ := List.mem_map.1 hd
    exact chars (h.chars c hc)
  · rw [List.map_map]
    exact List.map_congr_left fun c hc => twice (h.chars c hc)

/-! ## Authorities -/

structure IsAuthority (cs : List Char) : Prop where
  nonempty : cs ≠ []
  chars : ∀ c ∈ cs, endsAuthority c = false
  brackets : checkBrackets cs = .ok ()
  checked : checkAuthority cs = .ok ()

/-- An authority may stand before the text. -/
def EndsAuthority (cs : List Char) : Prop := ∀ c ∈ cs.head?, endsAuthority c = true

theorem cutAuthority_of_plain {authority rest : List Char} (h : ∀ c ∈ authority, endsAuthority c = false)
    (ends : EndsAuthority rest) : cutAuthority ('/' :: '/' :: (authority ++ rest)) = (authority, rest) := by
  have plain : ∀ c ∈ authority, (!endsAuthority c) = true := fun c hc => by rw [h c hc]; rfl
  have stop : rest.takeWhile (!endsAuthority ·) = [] ∧ rest.dropWhile (!endsAuthority ·) = rest := by
    cases rest with
    | nil => exact ⟨rfl, rfl⟩
    | cons c rest => simp [ends c rfl]
  rw [cutAuthority, List.span_eq_takeWhile_dropWhile, List.takeWhile_append_of_pos plain,
    List.dropWhile_append_of_pos plain, stop.1, stop.2, List.append_nil]

/-- Two slashes begin an authority, which may be empty. -/
theorem cutAuthority_cases (cs : List Char) :
    (startsTwoSlashes cs = false ∧ cutAuthority cs = ([], cs)) ∨
      ∃ authority rest, (∀ c ∈ authority, endsAuthority c = false) ∧ EndsAuthority rest ∧
        cs = '/' :: '/' :: (authority ++ rest) ∧ cutAuthority cs = (authority, rest) := by
  unfold cutAuthority
  split
  · next rest =>
    refine .inr ⟨_, _, fun c hc => ?_, ?_, ?_, List.span_eq_takeWhile_dropWhile ..⟩
    · simpa using List.mem_takeWhile_imp hc
    · intro c hc
      have := List.head?_dropWhile_not (!endsAuthority ·) rest
      rw [hc] at this
      simpa using this
    · rw [List.takeWhile_append_dropWhile]
  · next other => exact .inl ⟨by unfold startsTwoSlashes; split <;> simp_all, rfl⟩

/-! ## Parts -/

/-- The URL with what follows its authority. -/
def ofParts (scheme authority rest : List Char) : Url :=
  let (rest, fragment) := Text.cut '#' rest
  let (path, query) := Text.cut '?' rest
  ⟨scheme, authority, path, query.getD [], fragment.getD []⟩

variable {cs scheme authority rest : List Char} {u : Url}

theorem ofChars?_eq (cs : List Char) :
    ofChars? cs = do
      let (scheme, rest) := cutScheme (cleaned cs)
      let (authority, rest) := cutAuthority rest
      checkBrackets authority
      checkAuthority authority
      return ofParts scheme authority rest := by
  rfl

theorem ofChars?_of_parts (hs : IsScheme scheme) (ha : IsAuthority authority) (ends : EndsAuthority rest)
    (h : cleaned cs = scheme ++ ':' :: '/' :: '/' :: (authority ++ rest)) :
    ofChars? cs = .ok (ofParts (scheme.map Text.asciiLower) authority rest) := by
  rw [ofChars?_eq, h, cutScheme_of_isScheme hs]
  dsimp only
  rw [cutAuthority_of_plain ha.chars ends]
  dsimp only
  rw [ha.brackets, ha.checked]
  rfl

/-- A text that is read has been cut into a scheme, an authority that may stand there, and what follows. -/
theorem exists_cuts (h : ofChars? cs = .ok u) :
    ∃ afterScheme rest, cutScheme (cleaned cs) = (u.scheme, afterScheme) ∧
      cutAuthority afterScheme = (u.authority, rest) ∧ checkBrackets u.authority = .ok () ∧
      checkAuthority u.authority = .ok () ∧ u = ofParts u.scheme u.authority rest := by
  rw [ofChars?_eq] at h
  dsimp only at h
  cases brackets : checkBrackets (cutAuthority (cutScheme (cleaned cs)).2).1 with
  | error fault => rw [brackets] at h; cases h
  | ok =>
    cases checked : checkAuthority (cutAuthority (cutScheme (cleaned cs)).2).1 with
    | error fault => rw [brackets, checked] at h; cases h
    | ok =>
      rw [brackets, checked] at h
      cases h
      exact ⟨_, _, rfl, rfl, brackets, checked, rfl⟩

theorem exists_parts (h : ofChars? cs = .ok u) (hs : u.scheme ≠ []) (ha : u.authority ≠ []) :
    ∃ scheme rest, IsScheme scheme ∧ IsAuthority u.authority ∧ EndsAuthority rest ∧
      cleaned cs = scheme ++ ':' :: '/' :: '/' :: (u.authority ++ rest) ∧
      u = ofParts (scheme.map Text.asciiLower) u.authority rest := by
  obtain ⟨afterScheme, rest, cutS, cutA, brackets, checked, whole⟩ := exists_cuts h
  rcases cutScheme_cases (cleaned cs) with ⟨-, none⟩ | ⟨scheme, _, isScheme, clean, found⟩
  · exact absurd (Prod.mk.inj (cutS.symm.trans none)).1 hs
  obtain ⟨lower, rfl⟩ := Prod.mk.inj (cutS.symm.trans found)
  rcases cutAuthority_cases afterScheme with ⟨-, none⟩ | ⟨_, _, plain, ends, rfl, found⟩
  · exact absurd (Prod.mk.inj (cutA.symm.trans none)).1 ha
  obtain ⟨rfl, rfl⟩ := Prod.mk.inj (cutA.symm.trans found)
  exact ⟨scheme, rest, isScheme, ⟨ha, plain, brackets, checked⟩, ends, clean, lower ▸ whole⟩

theorem mem_of_mem_path (h : ofChars? cs = .ok u) (hs : u.scheme ≠ []) (ha : u.authority ≠ []) {c : Char}
    (hc : c ∈ u.path) : c ∈ cs := by
  obtain ⟨scheme, rest, -, -, -, clean, whole⟩ := exists_parts h hs ha
  rw [whole] at hc
  have among : c ∈ rest := Text.mem_of_mem_cut (.inl (Text.mem_of_mem_cut (.inl hc)))
  exact mem_of_mem_cleaned (by simp [clean, among])

theorem ofParts_of_plain (question : '?' ∉ rest) (hash : '#' ∉ rest) :
    ofParts scheme authority rest = ⟨scheme, authority, rest, [], []⟩ := by
  rw [ofParts, Text.cut_of_notMem hash]
  dsimp only
  rw [Text.cut_of_notMem question]
  rfl

/-- The path is what comes first behind the authority. -/
theorem path_prefix_ofParts (scheme authority rest : List Char) : (ofParts scheme authority rest).path <+: rest :=
  (Text.prefix_cut '?' _).trans (Text.prefix_cut '#' rest)

/-- Where an authority may stand before it, the path begins with a slash. -/
theorem slash_of_endsAuthority (ends : EndsAuthority rest) {c : Char}
    (hc : c ∈ (ofParts scheme authority rest).path.head?) : c = '/' := by
  have first := Text.head?_of_prefix (path_prefix_ofParts scheme authority rest) hc
  have among : c ∈ (ofParts scheme authority rest).path := List.mem_of_mem_head? hc
  have question : c ≠ '?' := fun he => Text.notMem_cut '?' _ (he ▸ among)
  have hash : c ≠ '#' := fun he => Text.notMem_cut '#' _ (he ▸ Text.mem_of_mem_cut (.inl among))
  simpa [endsAuthority, question, hash] using ends c first

theorem mem_of_mem_ofParts {c : Char}
    (hc : c ∈ (ofParts scheme authority rest).path ∨ c ∈ (ofParts scheme authority rest).query ∨
      c ∈ (ofParts scheme authority rest).fragment) : c ∈ rest := by
  rcases hc with hc | hc | hc
  · exact Text.mem_of_mem_cut (.inl (Text.mem_of_mem_cut (.inl hc)))
  · exact Text.mem_of_mem_cut (.inl (Text.mem_of_mem_cut (.inr hc)))
  · exact Text.mem_of_mem_cut (.inr hc)

/-! ## URLs that texts are read as -/

/-- A text is read as the URL. Where scheme and authority are missing, the path is not taken for them. -/
structure IsSplit (u : Url) : Prop where
  scheme : u.scheme ≠ [] → IsScheme u.scheme
  lower : u.scheme.map Text.asciiLower = u.scheme
  authority : u.authority ≠ [] → IsAuthority u.authority
  rooted : u.authority ≠ [] → ∀ c ∈ u.path.head?, c = '/'
  begins : u.scheme = [] → u.authority = [] → ∀ c ∈ u.path.head?, 32 < c.toNat
  unnamed : u.scheme = [] → u.authority = [] → ¬ Named u.path
  pathPlain : '?' ∉ u.path ∧ '#' ∉ u.path
  query : '#' ∉ u.query
  kept : ∀ c ∈ u.authority ++ u.path ++ u.query ++ u.fragment, isKept c = true

theorem isSplit_of_ofChars? (h : ofChars? cs = .ok u) : u.IsSplit := by
  obtain ⟨afterScheme, rest, cutS, cutA, brackets, checked, whole⟩ := exists_cuts h
  have named : (u.scheme = [] ∧ afterScheme = cleaned cs ∧ ¬ Named (cleaned cs)) ∨
      (IsScheme u.scheme ∧ u.scheme.map Text.asciiLower = u.scheme ∧ ∃ scheme, cleaned cs = scheme ++ afterScheme) := by
    rcases cutScheme_cases (cleaned cs) with ⟨unnamed, none⟩ | ⟨scheme, _, isScheme, clean, found⟩
    · obtain ⟨empty, rfl⟩ := Prod.mk.inj (cutS.symm.trans none)
      exact .inl ⟨empty, rfl, unnamed⟩
    · obtain ⟨lower, rfl⟩ := Prod.mk.inj (cutS.symm.trans found)
      rw [lower]
      exact .inr ⟨isScheme.lower.1, isScheme.lower.2, scheme ++ [':'], by simp [clean]⟩
  have hosted : (u.authority = [] ∧ rest = afterScheme) ∨
      (EndsAuthority rest ∧ (∀ c ∈ u.authority, endsAuthority c = false) ∧
        afterScheme = '/' :: '/' :: (u.authority ++ rest)) := by
    rcases cutAuthority_cases afterScheme with ⟨-, none⟩ | ⟨_, _, plain, ends, rfl, found⟩
    · exact .inl (Prod.mk.inj (cutA.symm.trans none))
    · obtain ⟨rfl, rfl⟩ := Prod.mk.inj (cutA.symm.trans found)
      exact .inr ⟨ends, plain, rfl⟩
  have among : ∀ c ∈ u.authority ++ rest, c ∈ cleaned cs := by
    intro c hc
    have behind : c ∈ afterScheme := by
      rcases hosted with ⟨empty, rfl⟩ | ⟨-, -, rfl⟩
      · rwa [empty] at hc
      · exact .tail _ (.tail _ hc)
    rcases named with ⟨-, rfl, -⟩ | ⟨-, -, scheme, clean⟩
    · exact behind
    · exact clean ▸ List.mem_append_right _ behind
  -- without scheme and authority the path begins the text, or a slash begins the path
  have start : u.scheme = [] → u.authority = [] →
      (u.path <+: cleaned cs ∧ ¬ Named (cleaned cs)) ∨ ∀ c ∈ u.path.head?, c = '/' := by
    intro hs _
    rcases hosted with ⟨-, rfl⟩ | ⟨ends, -⟩
    · rcases named with ⟨-, rfl, unnamed⟩ | ⟨isScheme, -⟩
      · exact .inl ⟨whole ▸ path_prefix_ofParts .., unnamed⟩
      · exact absurd hs isScheme.ne_nil
    · exact .inr fun c hc => slash_of_endsAuthority ends (whole ▸ hc)
  exact {
    scheme := fun hs => by
      rcases named with ⟨empty, -⟩ | ⟨isScheme, -⟩
      · exact absurd empty hs
      · exact isScheme
    lower := by
      rcases named with ⟨empty, -⟩ | ⟨-, lower, -⟩
      · rw [empty]; rfl
      · exact lower
    authority := fun ha => by
      rcases hosted with ⟨empty, -⟩ | ⟨-, plain, -⟩
      · exact absurd empty ha
      · exact ⟨ha, plain, brackets, checked⟩
    rooted := fun ha c hc => by
      rcases hosted with ⟨empty, -⟩ | ⟨ends, -⟩
      · exact absurd empty ha
      · exact slash_of_endsAuthority ends (whole ▸ hc)
    begins := fun hs ha c hc => by
      rcases start hs ha with ⟨first, -⟩ | slash
      · exact head?_cleaned (Text.head?_of_prefix first hc)
      · rw [slash c hc]; decide
    unnamed := fun hs ha named => by
      rcases start hs ha with ⟨⟨behind, first⟩, unnamed⟩ | slash
      · exact unnamed (first ▸ named.append behind)
      · exact not_named_of_slash slash named
    pathPlain := by
      rw [whole]
      exact ⟨Text.notMem_cut '?' _, fun hm => Text.notMem_cut '#' rest (Text.mem_of_mem_cut (.inl hm))⟩
    query := by
      rw [whole]
      exact fun hm => Text.notMem_cut '#' rest (Text.mem_of_mem_cut (.inr hm))
    kept := fun c hc => by
      refine isKept_of_mem_cleaned (among c ?_)
      simp only [List.mem_append] at hc ⊢
      rcases hc with ((hc | hc) | hc) | hc
      · exact .inl hc
      · exact .inr (mem_of_mem_ofParts (.inl (whole ▸ hc)))
      · exact .inr (mem_of_mem_ofParts (.inr (.inl (whole ▸ hc))))
      · exact .inr (mem_of_mem_ofParts (.inr (.inr (whole ▸ hc)))) }

/-! ## Texts of URLs -/

/-- The scheme with its colon, if there is one. -/
def lead (scheme : List Char) : List Char := if scheme = [] then [] else scheme ++ [':']

/-- The path as it is written behind an authority. -/
def rootedPath (path : List Char) : List Char := if path = [] ∨ path.head? = some '/' then path else '/' :: path

/-- The text of the URL has an authority, if an empty one. -/
def ShowsAuthority (u : Url) : Prop :=
  u.authority ≠ [] ∨ (String.ofList u.scheme ∈ authoritySchemes ∧ !startsTwoSlashes u.path)

/-- What stands behind the path. -/
def tail (u : Url) : List Char :=
  (if u.query = [] then [] else '?' :: u.query) ++ (if u.fragment = [] then [] else '#' :: u.fragment)

theorem text_of_shows (h : u.ShowsAuthority) :
    u.text = lead u.scheme ++ '/' :: '/' :: (u.authority ++ (rootedPath u.path ++ u.tail)) := by
  unfold ShowsAuthority at h
  rw [text, hierarchy, if_pos h, lead, rootedPath, tail]
  simp

theorem text_of_not_shows (h : ¬ u.ShowsAuthority) : u.text = lead u.scheme ++ (u.path ++ u.tail) := by
  unfold ShowsAuthority at h
  rw [text, hierarchy, if_neg h, lead, tail]
  simp

theorem slash_of_mem_rootedPath {path : List Char} {c : Char} (h : c ∈ (rootedPath path).head?) : c = '/' := by
  unfold rootedPath at h
  split at h
  · next given =>
    rcases given with rfl | first
    · cases h
    · exact (Option.some.inj (first.symm.trans h)).symm
  · exact (Option.some.inj h).symm

theorem rootedPath_of_slash {path : List Char} (h : ∀ c ∈ path.head?, c = '/') : rootedPath path = path := by
  refine if_pos ?_
  cases path with
  | nil => exact .inl rfl
  | cons c path => exact .inr (congrArg some (h c rfl))

theorem mem_rootedPath {path : List Char} {c : Char} (h : c ∈ rootedPath path) : c = '/' ∨ c ∈ path := by
  unfold rootedPath at h
  split at h
  · exact .inr h
  · exact List.mem_cons.1 h

theorem head?_tail {c : Char} (h : c ∈ u.tail.head?) : c = '?' ∨ c = '#' := by
  unfold tail at h
  split at h
  · split at h
    · cases h
    · exact .inr (Option.some.inj h).symm
  · exact .inl (Option.some.inj h).symm

theorem mem_tail {c : Char} (h : c ∈ u.tail) : c = '?' ∨ c = '#' ∨ c ∈ u.query ∨ c ∈ u.fragment := by
  have written : ∀ {d : Char} {cs : List Char}, c ∈ (if cs = [] then [] else d :: cs) → c = d ∨ c ∈ cs := fun hm => by
    split at hm
    · cases hm
    · exact List.mem_cons.1 hm
  rcases List.mem_append.1 h with h | h
  · exact (written h).imp_right fun h => .inr (.inl h)
  · exact .inr ((written h).imp_right .inr)

theorem mem_text {c : Char} (h : c ∈ u.text) :
    c ∈ u.scheme ∨ c ∈ [':', '/', '?', '#'] ∨ c ∈ u.authority ++ u.path ++ u.query ++ u.fragment := by
  have front : c ∈ lead u.scheme → c ∈ u.scheme ∨ c = ':' := fun hm => by
    unfold lead at hm
    split at hm
    · cases hm
    · simpa using hm
  have middle := @mem_rootedPath u.path c
  have back := @mem_tail u c
  by_cases shows : u.ShowsAuthority
  · rw [text_of_shows shows] at h
    simp only [List.mem_append, List.mem_cons, List.not_mem_nil, or_false] at h ⊢
    grind
  · rw [text_of_not_shows shows] at h
    simp only [List.mem_append, List.mem_cons, List.not_mem_nil, or_false] at h ⊢
    grind

/-- What stands behind an authority is taken apart again. -/
theorem ofParts_append_tail {path : List Char} (hp : '?' ∉ path ∧ '#' ∉ path) (hq : '#' ∉ u.query)
    (scheme authority : List Char) :
    ofParts scheme authority (path ++ u.tail) = ⟨scheme, authority, path, u.query, u.fragment⟩ := by
  have noFragment : '#' ∉ path ++ (if u.query = [] then [] else '?' :: u.query) := by
    rw [List.mem_append, not_or]
    refine ⟨hp.2, ?_⟩
    split
    · exact List.not_mem_nil
    · simpa using hq
  have given : ∀ cs : List Char, (if cs = [] then none else some cs).getD [] = cs := fun cs => by
    split
    · next he => exact he.symm
    · rfl
  rw [ofParts, tail, ← List.append_assoc, Text.cut_append_unless noFragment]
  dsimp only
  rw [Text.cut_append_unless hp.1]
  simp only [given]

theorem endsAuthority_append_tail {path : List Char} (h : ∀ c ∈ path.head?, c = '/') :
    EndsAuthority (path ++ u.tail) := by
  intro c hc
  cases path with
  | cons d path =>
    rw [← Option.some.inj hc, h d rfl]
    rfl
  | nil => rcases head?_tail hc with rfl | rfl <;> rfl

/-- What stands behind a path completes no scheme. -/
theorem named_of_named_append_tail {path : List Char} (h : Named (path ++ u.tail)) : Named path := by
  obtain ⟨scheme, rest, isScheme, whole⟩ := h
  have first : ∀ {c ds}, u.tail = c :: ds → isSchemeChar c = false ∧ c ≠ ':' := fun {c ds} hd => by
    rcases head?_tail (u := u) (c := c) (by rw [hd]; rfl) with rfl | rfl
    · decide
    · decide
  rcases List.append_eq_append_iff.1 whole with ⟨inside, same, rest'⟩ | ⟨inside, same, rest'⟩
  · -- the scheme is longer than the path
    cases inside with
    | nil => exact absurd rfl (first rest').2
    | cons c inside =>
      have char := isScheme.chars c (by simp [same])
      rw [(first rest').1] at char
      cases char
  · cases inside with
    | nil => exact absurd rfl (first rest'.symm).2
    | cons c inside =>
      obtain ⟨rfl, -⟩ := List.cons.inj rest'
      exact ⟨scheme, inside, isScheme, same⟩

/-- Where no scheme stands, the text of the URL is not read as if it had one. -/
theorem IsSplit.text_begins (h : u.IsSplit) (hs : u.scheme = []) :
    ¬ Named u.text ∧ ∀ c ∈ u.text.head?, 32 < c.toNat := by
  by_cases shows : u.ShowsAuthority
  · have slash : ∀ c ∈ u.text.head?, c = '/' := by
      rw [text_of_shows shows, hs]
      exact fun c hc => (Option.some.inj hc).symm
    exact ⟨not_named_of_slash slash, fun c hc => by rw [slash c hc]; decide⟩
  · have ha : u.authority = [] := not_not.1 fun ha => shows (.inl ha)
    have whole : u.text = u.path ++ u.tail := by
      rw [text_of_not_shows shows, hs]
      rfl
    rw [whole]
    refine ⟨fun named => h.unnamed hs ha (named_of_named_append_tail named), fun c hc => ?_⟩
    cases hp : u.path with
    | cons d path =>
      rw [hp] at hc
      exact h.begins hs ha c (by rw [hp]; exact hc)
    | nil =>
      rw [hp] at hc
      rcases head?_tail hc with rfl | rfl <;> decide

theorem IsSplit.cleaned_text (h : u.IsSplit) : cleaned u.text = u.text := by
  refine cleaned_eq_self ?_ fun c hc => ?_
  · by_cases hs : u.scheme = []
    · exact (h.text_begins hs).2
    · obtain ⟨c, scheme, named⟩ := List.exists_cons_of_ne_nil hs
      have isScheme := h.scheme hs
      have first : u.text.head? = some c := by
        rw [text, if_neg hs, named]
        rfl
      have letter : isAsciiAlpha c = true := by simpa [named] using isScheme.begins
      rw [first]
      rintro _ ⟨⟩
      exact of_isSchemeChar (P := fun c => isAsciiAlpha c = true → 32 < c.toNat) (by decide)
        (isScheme.chars c (named ▸ List.mem_cons_self)) letter
  · rcases mem_text hc with hc | hc | hc
    · exact isKept_of_isSchemeChar ((h.scheme (List.ne_nil_of_mem hc)).chars c hc)
    · simp only [List.mem_cons, List.not_mem_nil, or_false] at hc
      rcases hc with rfl | rfl | rfl | rfl <;> rfl
    · exact h.kept c hc

/-- The scheme is found again, and what follows is read on. -/
theorem IsSplit.cutScheme_text (h : u.IsSplit) {behind : List Char} (text : u.text = lead u.scheme ++ behind) :
    cutScheme u.text = (u.scheme, behind) := by
  by_cases hs : u.scheme = []
  · rw [cutScheme_of_not_named (h.text_begins hs).1, text, hs]
    rfl
  · have again := cutScheme_of_isScheme (h.scheme hs) behind
    rw [h.lower] at again
    rw [text, lead, if_neg hs, List.append_assoc]
    exact again

/-- An authority that is shown is read again, and the path that is written behind it. -/
theorem IsSplit.ofChars?_text (h : u.IsSplit) (shows : u.ShowsAuthority) :
    ofChars? u.text = .ok { u with path := rootedPath u.path } := by
  have plain : ∀ c ∈ u.authority, endsAuthority c = false := fun c hc =>
    (h.authority (List.ne_nil_of_mem hc)).chars c hc
  have checks : checkBrackets u.authority = .ok () ∧ checkAuthority u.authority = .ok () := by
    by_cases ha : u.authority = []
    · rw [ha]
      exact ⟨rfl, rfl⟩
    · exact ⟨(h.authority ha).brackets, (h.authority ha).checked⟩
  have other : ∀ c ≠ '/', c ∉ u.path → c ∉ rootedPath u.path := fun c hc hn hm =>
    (mem_rootedPath hm).elim hc hn
  rw [ofChars?_eq, h.cleaned_text, h.cutScheme_text (text_of_shows shows)]
  dsimp only
  rw [cutAuthority_of_plain plain (endsAuthority_append_tail fun c hc => slash_of_mem_rootedPath hc)]
  dsimp only
  rw [checks.1, checks.2,
    ofParts_append_tail ⟨other _ (by decide) h.pathPlain.1, other _ (by decide) h.pathPlain.2⟩ h.query]
  rfl

/-- A URL without one is read again, if its path does not begin as one does. -/
theorem IsSplit.ofChars?_text_of_not_shows (h : u.IsSplit) (shows : ¬ u.ShowsAuthority)
    (plain : startsTwoSlashes u.path = false) : ofChars? u.text = .ok u := by
  have ha : u.authority = [] := not_not.1 fun ha => shows (.inl ha)
  rcases cutAuthority_cases (u.path ++ u.tail) with ⟨-, cut⟩ | ⟨host, rest, -, -, slashes, -⟩
  · rw [ofChars?_eq, h.cleaned_text, h.cutScheme_text (text_of_not_shows shows)]
    dsimp only
    rw [cut]
    dsimp only
    rw [ofParts_append_tail h.pathPlain h.query]
    show Except.ok _ = _
    rw [← ha]
  · -- one of the slashes would stand at the end of the path
    have notFirst : ∀ {cs}, u.tail ≠ '/' :: cs := fun {cs} he => by
      rcases head?_tail (u := u) (c := '/') (by rw [he]; rfl) with hc | hc <;> cases hc
    match hp : u.path with
    | [] => exact absurd (by simpa [hp] using slashes) notFirst
    | [c] => exact absurd (by rw [hp] at slashes; exact (List.cons.inj slashes).2) notFirst
    | c :: d :: path =>
      rw [hp] at slashes plain
      obtain ⟨rfl, both⟩ := List.cons.inj slashes
      obtain ⟨rfl, -⟩ := List.cons.inj both
      cases plain

theorem not_shows_of_slashes {behind : List Char} (ha : u.authority = []) (hp : u.path = '/' :: '/' :: behind) :
    ¬ u.ShowsAuthority := by
  rintro (some | ⟨-, one⟩)
  · exact some ha
  · rw [hp] at one
    cases one

/-- Two slashes that begin a path are read as those of an authority. -/
theorem IsSplit.ofChars?_text_of_slashes (h : u.IsSplit) (ha : u.authority = []) {host rest : List Char}
    (hp : u.path = '/' :: '/' :: (host ++ rest)) (plain : ∀ c ∈ host, endsAuthority c = false)
    (slash : ∀ c ∈ rest.head?, c = '/') :
    ofChars? u.text = do
      checkBrackets host
      checkAuthority host
      return { u with authority := host, path := rest } := by
  have rest' : ∀ {c}, c ∉ u.path → c ∉ rest := fun hn hm => hn (by simp [hp, hm])
  have again := text_of_not_shows (not_shows_of_slashes ha hp)
  rw [hp, List.cons_append, List.cons_append, List.append_assoc] at again
  rw [ofChars?_eq, h.cleaned_text, h.cutScheme_text again]
  dsimp only
  rw [cutAuthority_of_plain plain (endsAuthority_append_tail slash)]
  dsimp only
  rw [ofParts_append_tail ⟨rest' h.pathPlain.1, rest' h.pathPlain.2⟩ h.query]

/-! ## URLs with scheme and authority -/

/-- The URL has a scheme and an authority, and a text is read as it. -/
structure IsRead (u : Url) : Prop where
  scheme : IsScheme u.scheme
  lower : u.scheme.map Text.asciiLower = u.scheme
  authority : IsAuthority u.authority
  path : ∀ c ∈ u.path.head?, c = '/'
  pathPlain : '?' ∉ u.path ∧ '#' ∉ u.path
  query : '#' ∉ u.query
  kept : ∀ c ∈ u.authority ++ u.path ++ u.query ++ u.fragment, isKept c = true

theorem IsSplit.isRead (h : u.IsSplit) (hs : u.scheme ≠ []) (ha : u.authority ≠ []) : u.IsRead :=
  ⟨h.scheme hs, h.lower, h.authority ha, h.rooted ha, h.pathPlain, h.query, h.kept⟩

theorem IsRead.isSplit (h : u.IsRead) : u.IsSplit where
  scheme _ := h.scheme
  lower := h.lower
  authority _ := h.authority
  rooted _ := h.path
  begins hs := absurd hs h.scheme.ne_nil
  unnamed hs := absurd hs h.scheme.ne_nil
  pathPlain := h.pathPlain
  query := h.query
  kept := h.kept

/-- The text of the URL is read as the URL. -/
theorem IsRead.ofChars?_text (h : u.IsRead) : ofChars? u.text = .ok u := by
  rw [h.isSplit.ofChars?_text (.inl h.authority.nonempty), rootedPath_of_slash h.path]

theorem isRead_of_ofChars? (h : ofChars? cs = .ok u) (hs : u.scheme ≠ []) (ha : u.authority ≠ []) : u.IsRead :=
  (isSplit_of_ofChars? h).isRead hs ha

/-! ## Texts behind a URL -/

/-- What is written behind a URL without query and fragment stands behind its path, without tabs and line ends, and is
cut as that is. -/
theorem ofChars?_append (h : ofChars? cs = .ok u) (hs : u.scheme ≠ []) (ha : u.authority ≠ []) (question : '?' ∉ cs)
    (hash : '#' ∉ cs) {ds : List Char} (slash : u.path ≠ [] ∨ ds.head? = some '/') :
    ofChars? (cs ++ ds) = .ok (ofParts u.scheme u.authority (u.path ++ ds.filter isKept)) := by
  obtain ⟨scheme, rest, isScheme, authority, ends, clean, whole⟩ := exists_parts h hs ha
  have among : ∀ c ∈ rest, c ∈ cs := fun c hc => mem_of_mem_cleaned (by simp [clean, hc])
  have path : u.path = rest := by
    rw [whole, ofParts_of_plain (fun hm => question (among _ hm)) fun hm => hash (among _ hm)]
  have named : u.scheme = scheme.map Text.asciiLower := by
    rw [whole]
    rfl
  have longer : cleaned (cs ++ ds) = scheme ++ ':' :: '/' :: '/' :: (u.authority ++ (rest ++ ds.filter isKept)) := by
    rw [cleaned_append (by simp [clean]), clean]
    simp
  have stillEnds : EndsAuthority (rest ++ ds.filter isKept) := by
    rcases rest with _ | ⟨c, rest⟩
    · obtain ⟨behind, rfl⟩ := List.head?_eq_some_iff.1 (slash.resolve_left (not_not_intro path))
      rintro _ ⟨⟩
      rfl
    · exact ends
  rw [named, path]
  exact ofChars?_of_parts isScheme authority stillEnds longer

/-- Behind the authority of a URL that is written with a slash at its end stands a path. -/
theorem path_ne_nil_of_slash (h : ofChars? (cs ++ ['/']) = .ok u) (hs : u.scheme ≠ []) (ha : u.authority ≠ [])
    (question : '?' ∉ cs) (hash : '#' ∉ cs) : u.path ≠ [] := by
  obtain ⟨scheme, rest, -, authority, -, clean, whole⟩ := exists_parts h hs ha
  have among : ∀ c ∈ rest, c ∈ cs ++ ['/'] := fun c hc => mem_of_mem_cleaned (by simp [clean, hc])
  rw [whole, ofParts_of_plain (fun hm => by simpa [question] using among _ hm)
    fun hm => by simpa [hash] using among _ hm]
  rintro rfl
  -- the slash would be the last character of the authority
  rw [cleaned_append_slash, List.append_nil] at clean
  obtain ⟨front, last, concat⟩ := (List.eq_nil_or_concat u.authority).resolve_left authority.nonempty
  have ends : cleaned cs ++ ['/'] = scheme ++ ':' :: '/' :: '/' :: front ++ [last] := by simpa [concat] using clean
  obtain ⟨⟩ := List.append_inj_right' ends rfl
  have slash : '/' ∈ u.authority := by simp [concat]
  exact absurd (authority.chars _ slash) (by decide)

end Url

end StaticSite
