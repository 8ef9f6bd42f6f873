import StaticSite.Proofs.Url.Decoding
import StaticSite.Proofs.Url.Text

/-!
# Escaped URLs

Escaping what is escaped changes nothing (`escaped_escaped`). The text that `encode` makes is read again as the URL it
was made of, unless the path is taken for an authority; so encoding twice is encoding once exactly for the URLs that are
`Steady` (`encode_encode_iff`).
-/

namespace StaticSite.Url

variable {cs : List Char} {u : Url}

/-! ## What stands in an escaped URL -/

/-- What holds of the characters that pass, and of those in escapes, holds of all of an escaped text. -/
theorem of_mem_escape {safe cs : List Char} {P : Char → Prop} (percent : P '%')
    (hex : ∀ d, isHexDigit d = true → P d)
    (passes : ∀ c ∈ cs, c.toNat > 0x7f ∨ isUnreserved c = true ∨ c ∈ safe → P c) : ∀ c ∈ escape safe cs, P c := by
  intro c hc
  rw [escape_eq, List.mem_flatMap] at hc
  obtain ⟨_, hm, hc⟩ := hc
  obtain ⟨t, ht, rfl⟩ := List.mem_map.1 hm
  cases written : t.written safe with
  | byte high low isHigh isLow =>
    simp only [written, Token.text, List.mem_cons, List.not_mem_nil, or_false] at hc
    rcases hc with rfl | rfl | rfl
    · exact percent
    · exact hex _ isHigh
    · exact hex _ isLow
  | char d =>
    rw [written, Token.text, List.mem_singleton] at hc
    subst hc
    obtain ⟨rfl, passing⟩ := Token.char_of_written written
    have own : c ∈ cs := by
      rw [← text_tokens cs]
      exact List.mem_flatMap.2 ⟨_, ht, List.mem_singleton_self c⟩
    exact passes c own passing

theorem of_mem_escapePair {cs : List Char} {P : Char → Prop} (percent : P '%') (hex : ∀ d, isHexDigit d = true → P d)
    (own : ∀ c ∈ cs, P c) : ∀ c ∈ escapePair cs, P c := by
  induction cs with
  | nil => exact own
  | cons d cs ih =>
    rw [List.forall_mem_cons] at own
    rw [escapePair]
    split
    · next equals =>
      exact List.forall_mem_cons.2 ⟨equals ▸ own.1, of_mem_escape percent hex fun c hc _ => own.2 c hc⟩
    · exact List.forall_mem_cons.2 ⟨own.1, ih own.2⟩

theorem of_mem_escapeQuery {cs : List Char} {P : Char → Prop} (percent : P '%') (hex : ∀ d, isHexDigit d = true → P d)
    (between : P '&') (own : ∀ c ∈ cs, P c) : ∀ c ∈ escapeQuery cs, P c := by
  intro c hc
  rcases Text.mem_joinWith hc with rfl | ⟨pair, hp, hc⟩
  · exact between
  · obtain ⟨piece, hm, rfl⟩ := List.mem_map.1 hp
    exact of_mem_escapePair percent hex (fun d hd => own d (Text.mem_of_mem_splitOn hm hd)) c hc

theorem ne_of_isHexDigit {c d : Char} (h : isHexDigit c = true) (hd : isHexDigit d = false) : c ≠ d := by
  rintro rfl
  rw [h] at hd
  cases hd

theorem isSchemeChar_of_isHexDigit {c : Char} (h : isHexDigit c = true) : isSchemeChar c = true := by
  simp only [isHexDigit, Bool.or_eq_true, Bool.and_eq_true, decide_eq_true_eq] at h
  rcases h with (⟨low, high⟩ | ⟨low, high⟩) | ⟨low, high⟩
  · simp [isSchemeChar, isAsciiDigit, low, high]
  · simp [isSchemeChar, isAsciiAlpha, low, Char.le_trans high (by decide : 'f' ≤ 'z')]
  · simp [isSchemeChar, isAsciiAlpha, low, Char.le_trans high (by decide : 'F' ≤ 'Z')]

/-- The character may stand in a path that is put into a URL; it is no space and no control. -/
def IsPathChar (c : Char) : Prop := 32 < c.toNat ∧ c ∉ ['?', '#', '[', ']']

instance : DecidablePred IsPathChar := fun _ => inferInstanceAs (Decidable (_ ∧ _))

theorem isPathChar_of_mem_escapePath {path : List Char} : ∀ c ∈ escapePath path, IsPathChar c := by
  have hex : ∀ d, isHexDigit d = true → IsPathChar d := fun d hd =>
    of_isSchemeChar (by decide +kernel) (isSchemeChar_of_isHexDigit hd)
  rw [escapePath_eq]
  refine of_mem_escape (by decide) hex fun c _ hc => ?_
  by_cases small : c.toNat < 128
  · exact of_ascii (P := fun c => isUnreserved c = true ∨ c ∈ '/' :: segmentSafe → IsPathChar c) (by decide +kernel)
      small (hc.resolve_left (by omega))
  · refine ⟨by omega, fun hm => small ?_⟩
    simp only [List.mem_cons, List.not_mem_nil, or_false] at hm
    rcases hm with rfl | rfl | rfl | rfl <;> decide

theorem escape_cons_cases (safe : List Char) (c : Char) (cs : List Char) :
    escape safe (c :: cs) = c :: escape safe cs ∨ (escape safe (c :: cs)).head? = some '%' := by
  by_cases begins : ∃ a b rest, c :: cs = '%' :: a :: b :: rest ∧ (isHexDigit a && isHexDigit b) = true
  · obtain ⟨a, b, rest, whole, digits⟩ := begins
    rw [whole, escape, if_pos digits]
    exact .inr rfl
  · rw [escape_cons fun a b rest whole digits => begins ⟨a, b, rest, whole, digits⟩, escapeOne]
    split
    · exact .inl rfl
    · exact .inr rfl

/-- What begins an escaped text and holds no percent sign has begun the text. -/
theorem exists_append_of_escape {safe front behind cs : List Char} (hf : '%' ∉ front)
    (h : escape safe cs = front ++ behind) : ∃ rest, cs = front ++ rest := by
  induction front generalizing cs with
  | nil => exact ⟨cs, rfl⟩
  | cons d front ih =>
    rw [List.mem_cons, not_or] at hf
    cases cs with
    | nil => cases h
    | cons c cs =>
      rcases escape_cons_cases safe c cs with same | percent
      · rw [same] at h
        obtain ⟨rfl, rest⟩ := List.cons.inj h
        obtain ⟨more, rfl⟩ := ih hf.2 rest
        exact ⟨more, rfl⟩
      · rw [h] at percent
        exact absurd (Option.some.inj percent).symm hf.1

theorem named_of_named_escapePath {path : List Char} (h : Named (escapePath path)) : Named path := by
  obtain ⟨scheme, rest, isScheme, whole⟩ := h
  have noPercent : '%' ∉ scheme ++ [':'] := by
    rw [List.mem_append, not_or]
    exact ⟨fun hm => absurd (isScheme.chars _ hm) (by decide), by decide⟩
  rw [escapePath_eq, List.append_cons] at whole
  obtain ⟨more, rfl⟩ := exists_append_of_escape noPercent whole
  exact ⟨scheme, more, isScheme, List.append_assoc ..⟩

/-- An escaped path begins with a slash where the path does. -/
theorem head?_escapePath {path : List Char} {c : Char} (h : c ∈ (escapePath path).head?) :
    c = '%' ∨ c ∈ path.head? := by
  rw [escapePath_eq] at h
  cases path with
  | nil => cases h
  | cons d path =>
    rcases escape_cons_cases ('/' :: segmentSafe) d path with same | percent
    · rw [same] at h
      exact .inr h
    · exact .inl (Option.some.inj (percent.symm.trans h)).symm

theorem escapePath_slash (path : List Char) : escapePath ('/' :: path) = '/' :: escapePath path := by
  rw [escapePath_eq, escapePath_eq, escape_cons_safe List.mem_cons_self (by decide)]

/-- Escaped, the URL is still one that a text is read as. -/
theorem IsSplit.escaped (h : u.IsSplit) : u.escaped.IsSplit where
  scheme := h.scheme
  lower := h.lower
  authority := h.authority
  rooted ha c hc := by
    have slash := h.rooted ha
    cases hp : u.path with
    | nil => rw [Url.escaped, hp] at hc; cases hc
    | cons d path =>
      rw [Url.escaped, hp, slash d (by rw [hp]; rfl), escapePath_slash] at hc
      exact (Option.some.inj hc).symm
  begins _ _ c hc := (isPathChar_of_mem_escapePath c (List.mem_of_mem_head? hc)).1
  unnamed hs ha named := h.unnamed hs ha (named_of_named_escapePath named)
  pathPlain := ⟨fun hm => (isPathChar_of_mem_escapePath _ hm).2 (by decide),
    fun hm => (isPathChar_of_mem_escapePath _ hm).2 (by decide)⟩
  query hm := (of_mem_escapeQuery (P := (· ≠ '#')) (by decide) (fun d hd => ne_of_isHexDigit hd rfl) (by decide)
    (fun c hc he => h.query (he ▸ hc)) _ hm) rfl
  kept c hc := by
    have own := h.kept
    simp only [Url.escaped, List.mem_append] at hc own
    rcases hc with ((hc | hc) | hc) | hc
    · exact own c (.inl (.inl (.inl hc)))
    · exact isKept_of_lt (isPathChar_of_mem_escapePath c hc).1
    · have hex : ∀ d, isHexDigit d = true → isKept d = true := fun d hd =>
        isKept_of_isSchemeChar (isSchemeChar_of_isHexDigit hd)
      exact of_mem_escapeQuery (P := (isKept · = true)) rfl hex rfl (fun c hc => own c (.inl (.inr hc))) c hc
    · exact own c (.inr hc)

theorem IsRead.escaped (h : u.IsRead) : u.escaped.IsRead :=
  h.isSplit.escaped.isRead h.scheme.ne_nil h.authority.nonempty

/-! ## Escaping twice -/

theorem escapePath_escapePath (path : List Char) : escapePath (escapePath path) = escapePath path := by
  rw [escapePath_eq, escapePath_eq, escape_escape (by decide)]

theorem escapePair_escapePair (pair : List Char) : escapePair (escapePair pair) = escapePair pair := by
  induction pair with
  | nil => rfl
  | cons c pair ih =>
    rw [escapePair]
    split
    · rw [escapePair, if_pos rfl, escape_escape (by decide)]
    · next key => rw [escapePair, if_neg key, ih]

theorem escapeQuery_escapeQuery (query : List Char) : escapeQuery (escapeQuery query) = escapeQuery query := by
  have pieces : ∀ pair ∈ (Text.splitOn '&' query).map escapePair, '&' ∉ pair := by
    intro pair hm
    obtain ⟨piece, hp, rfl⟩ := List.mem_map.1 hm
    have own : ∀ c ∈ piece, c ≠ '&' := fun c hc he => Text.notMem_of_mem_splitOn hp (he ▸ hc)
    exact fun hc => of_mem_escapePair (P := (· ≠ '&')) (by decide) (fun d hd => ne_of_isHexDigit hd rfl) own _ hc rfl
  have some : (Text.splitOn '&' query).map escapePair ≠ [] := fun he =>
    Text.splitOn_ne_nil '&' query (List.map_eq_nil_iff.1 he)
  have again : (Text.splitOn '&' query).map (escapePair ∘ escapePair) = (Text.splitOn '&' query).map escapePair :=
    List.map_congr_left fun pair _ => escapePair_escapePair pair
  rw [escapeQuery, escapeQuery, Text.splitOn_joinWith some pieces, List.map_map, again]

theorem escaped_eq_self (path : escapePath u.path = u.path) (query : escapeQuery u.query = u.query) :
    u.escaped = u := by
  rw [escaped, path, query]

/-- Escaping path and query values twice is escaping them once. -/
theorem escaped_escaped (u : Url) : u.escaped.escaped = u.escaped :=
  escaped_eq_self (escapePath_escapePath u.path) (escapeQuery_escapeQuery u.query)

/-! ## Two slashes before a path -/

theorem startsTwoSlashes_of_head? {cs : List Char} (h : cs.head? ≠ some '/') :
    startsTwoSlashes cs = false ∧ startsTwoSlashes ('/' :: cs) = false := by
  constructor <;> unfold startsTwoSlashes <;> split <;> simp_all

theorem startsTwoSlashes_rootedPath (path : List Char) :
    startsTwoSlashes (rootedPath path) = startsTwoSlashes path := by
  unfold rootedPath
  split
  · rfl
  · next other =>
    have first : path.head? ≠ some '/' := fun slash => other (.inr slash)
    rw [(startsTwoSlashes_of_head? first).1, (startsTwoSlashes_of_head? first).2]

theorem startsTwoSlashes_escapePath (path : List Char) :
    startsTwoSlashes (escapePath path) = startsTwoSlashes path := by
  have other {cs : List Char} (hn : cs.head? ≠ some '/') : (escapePath cs).head? ≠ some '/' := fun he => by
    rcases head?_escapePath he with percent | slash
    · cases percent
    · exact hn slash
  by_cases first : path.head? = some '/'
  · obtain ⟨rest, rfl⟩ := List.head?_eq_some_iff.1 first
    rw [escapePath_slash]
    by_cases second : rest.head? = some '/'
    · obtain ⟨rest, rfl⟩ := List.head?_eq_some_iff.1 second
      rw [escapePath_slash]
      rfl
    · rw [(startsTwoSlashes_of_head? (other second)).2, (startsTwoSlashes_of_head? second).2]
  · rw [(startsTwoSlashes_of_head? (other first)).1, (startsTwoSlashes_of_head? first).1]

/-! ## Encoding twice -/

/-- Where an authority is shown, a slash before the path makes no difference. -/
theorem text_rooted (shows : u.ShowsAuthority) : ({ u with path := rootedPath u.path } : Url).text = u.text := by
  have stillShows : ({ u with path := rootedPath u.path } : Url).ShowsAuthority := by
    unfold ShowsAuthority
    rwa [startsTwoSlashes_rootedPath]
  rw [text_of_shows stillShows, text_of_shows shows, rootedPath_of_slash fun c hc => slash_of_mem_rootedPath hc]
  rfl

theorem encode_text {v : Url} (read : ofChars? u.text = .ok v) (fixed : v.escaped = v) :
    encode (String.ofList u.text) = .ok (String.ofList v.text) := by
  rw [encode, String.toList_ofList, read]
  show Except.ok (String.ofList v.escaped.text) = _
  rw [fixed]

theorem encode_text_of_shows (h : u.IsSplit) (shows : u.escaped.ShowsAuthority) :
    encode (String.ofList u.escaped.text) = .ok (String.ofList u.escaped.text) := by
  have path : escapePath (rootedPath u.escaped.path) = rootedPath u.escaped.path := by
    unfold rootedPath
    split
    · exact escapePath_escapePath u.path
    · rw [escapePath_slash]
      exact congrArg _ (escapePath_escapePath u.path)
  rw [encode_text (h.escaped.ofChars?_text shows) (escaped_eq_self path (escapeQuery_escapeQuery u.query)),
    text_rooted shows]

/-- What is read from two slashes is put together as it was exactly if they come back with an authority. -/
theorem text_eq_iff_shows (ha : u.authority = []) {host below : List Char}
    (hp : u.path = '/' :: '/' :: (host ++ below)) (slash : ∀ c ∈ below.head?, c = '/') :
    ({ u with authority := host, path := below } : Url).text = u.text ↔
      ({ u with authority := host, path := below } : Url).ShowsAuthority := by
  have tail : ({ u with authority := host, path := below } : Url).tail = u.tail := rfl
  have before := text_of_not_shows (not_shows_of_slashes ha hp)
  rw [hp] at before
  by_cases shows : ({ u with authority := host, path := below } : Url).ShowsAuthority
  · refine iff_of_true ?_ shows
    rw [text_of_shows shows, before, rootedPath_of_slash slash, tail]
    simp
  · refine iff_of_false (fun same => ?_) shows
    have lengths := congrArg List.length same
    rw [text_of_not_shows shows, before, tail] at lengths
    simp only [List.length_append, List.length_cons] at lengths
    omega

/-- What follows two slashes up to the next one. -/
def hostOf (rest : List Char) : List Char := rest.takeWhile (· ≠ '/')

/-- Put together, the URL is read again as what has been put together. Where no authority stands, two slashes that
begin the path are taken for its own: what follows must be one, or be empty and get its slashes back. -/
def Steady (u : Url) : Prop :=
  u.authority = [] → ∀ rest, u.path = '/' :: '/' :: rest →
    checkAuthority (hostOf rest) = .ok () ∧
      (hostOf rest ≠ [] ∨ String.ofList u.scheme ∈ authoritySchemes ∧ startsTwoSlashes rest = false)

theorem checkAuthority_eq_ok {authority : List Char} :
    checkAuthority authority = .ok () ↔ ∀ c ∈ authority, c.toNat ∉ hiddenDelimiters := by
  unfold checkAuthority
  split
  · next hidden =>
    refine iff_of_false (fun he => by cases he) fun none => ?_
    obtain ⟨c, hc, among⟩ := List.any_eq_true.1 hidden
    exact none c hc (List.contains_iff_mem.1 among)
  · next none =>
    refine iff_of_true rfl fun c hc among => none ?_
    exact List.any_eq_true.2 ⟨c, hc, List.contains_iff_mem.2 among⟩

/-- Escaping leaves characters beyond ASCII and makes none. -/
theorem mem_escape_of_high {safe cs : List Char} {c : Char} (h : 0x7f < c.toNat) : c ∈ escape safe cs ↔ c ∈ cs := by
  constructor
  · have hex : ∀ d, isHexDigit d = true → 0x7f < d.toNat → d ∈ cs := fun d hd high => by
      have small := of_isSchemeChar (P := fun c => c.toNat ≤ 0x7f) (by decide) (isSchemeChar_of_isHexDigit hd)
      omega
    intro hm
    exact of_mem_escape (P := fun d => 0x7f < d.toNat → d ∈ cs) (fun high => absurd high (by decide)) hex
      (fun d hd _ _ => hd) c hm h
  · intro hm
    induction cs using escape.induct with
    | case1 a b rest digits ih =>
      rw [escape, if_pos digits]
      simp only [List.mem_cons] at hm ⊢
      exact hm.imp_right (Or.imp_right (Or.imp_right ih))
    | case2 a b rest other ih =>
      rw [escape, if_neg other, List.mem_append]
      rcases List.mem_cons.1 hm with rfl | hm
      · exact absurd h (by decide)
      · exact .inr (ih hm)
    | case3 d rest alone ih =>
      rw [escape_cons fun a b more whole _ => alone a b more (List.cons.inj whole).1 (List.cons.inj whole).2,
        List.mem_append]
      rcases List.mem_cons.1 hm with rfl | hm
      · rw [escapeOne, if_pos (.inl h)]
        exact .inl List.mem_cons_self
      · exact .inr (ih hm)
    | case4 => exact hm

theorem checkAuthority_escapePath (path : List Char) :
    checkAuthority (escapePath path) = .ok () ↔ checkAuthority path = .ok () := by
  have high : ∀ n ∈ hiddenDelimiters, 0x7f < n := by decide
  rw [checkAuthority_eq_ok, checkAuthority_eq_ok, escapePath_eq]
  constructor
  · exact fun none c hc among => none c ((mem_escape_of_high (high _ among)).2 hc) among
  · exact fun none c hc among => none c ((mem_escape_of_high (high _ among)).1 hc) among

theorem escapePath_append {cs ds : List Char} (slash : ∀ c ∈ ds.head?, c = '/') :
    escapePath (cs ++ ds) = escapePath cs ++ escapePath ds := by
  cases ds with
  | nil => rw [List.append_nil]; exact (List.append_nil _).symm
  | cons d ds => rw [slash d rfl, escapePath_eq, escapePath_eq, escapePath_eq, escape_append_slash]

theorem escapePath_eq_nil {path : List Char} : escapePath path = [] ↔ path = [] := by
  cases path with
  | nil => exact iff_of_true rfl rfl
  | cons c path =>
    refine iff_of_false (fun he => ?_) (List.cons_ne_nil c path)
    rw [escapePath_eq] at he
    rcases escape_cons_cases ('/' :: segmentSafe) c path with same | percent
    · rw [he] at same; cases same
    · rw [he] at percent; cases percent

/-- What follows two slashes is escaped part by part. -/
theorem exists_host (rest : List Char) :
    ∃ below, rest = hostOf rest ++ below ∧ (∀ c ∈ below.head?, c = '/') ∧
      escapePath rest = escapePath (hostOf rest) ++ escapePath below ∧
      (∀ c ∈ escapePath (hostOf rest), endsAuthority c = false) ∧
      checkBrackets (escapePath (hostOf rest)) = .ok () := by
  have slash : ∀ c ∈ (rest.dropWhile (· ≠ '/')).head?, c = '/' := fun c hc => by
    have stop := List.head?_dropWhile_not (· ≠ '/') rest
    rw [hc] at stop
    simpa using stop
  refine ⟨rest.dropWhile (· ≠ '/'), (List.takeWhile_append_dropWhile ..).symm, slash, ?_, ?_, ?_⟩
  · rw [← escapePath_append slash, hostOf, List.takeWhile_append_dropWhile]
  · intro c hc
    have noSlash : c ≠ '/' := by
      rw [escapePath_eq] at hc
      refine of_mem_escape (P := (· ≠ '/')) (by decide) (fun d hd => ne_of_isHexDigit hd rfl) (fun d hd _ => ?_) c hc
      simpa using List.mem_takeWhile_imp hd
    have other := (isPathChar_of_mem_escapePath c hc).2
    simp only [List.mem_cons, not_or] at other
    simp [endsAuthority, noSlash, other]
  · have none : ∀ c ∈ ['[', ']'], c ∉ escapePath (hostOf rest) := fun c hc hm =>
      (isPathChar_of_mem_escapePath c hm).2 (List.mem_of_mem_drop (i := 2) hc)
    rw [checkBrackets, if_neg fun both => none _ (by decide) both.1, if_neg fun one => ?_]
    rcases one with one | one
    · exact none _ (by decide) one
    · exact none _ (by decide) one

/-- Where the path begins with two slashes, what follows them is read as the authority. -/
theorem encode_text_of_slashes (h : u.IsSplit) (ha : u.authority = []) {rest : List Char}
    (hp : u.path = '/' :: '/' :: rest) :
    encode (String.ofList u.escaped.text) = .ok (String.ofList u.escaped.text) ↔
      checkAuthority (hostOf rest) = .ok () ∧
        (hostOf rest ≠ [] ∨ String.ofList u.scheme ∈ authoritySchemes ∧ startsTwoSlashes rest = false) := by
  obtain ⟨below, whole, slash, parts, plain, brackets⟩ := exists_host rest
  have path : u.escaped.path = '/' :: '/' :: (escapePath (hostOf rest) ++ escapePath below) := by
    rw [escaped, hp, escapePath_slash, escapePath_slash, parts]
  have slash' : ∀ c ∈ (escapePath below).head?, c = '/' := fun c hc => by
    cases below with
    | nil => cases hc
    | cons d below =>
      rw [slash d rfl, escapePath_slash] at hc
      exact (Option.some.inj hc).symm
  have read := h.escaped.ofChars?_text_of_slashes ha path plain slash'
  rw [brackets] at read
  cases checked : checkAuthority (escapePath (hostOf rest)) with
  | error fault =>
    rw [checked] at read
    refine iff_of_false (fun he => ?_) fun ⟨again, _⟩ => ?_
    · rw [encode, String.toList_ofList, read] at he
      cases he
    · rw [(checkAuthority_escapePath _).2 again] at checked
      cases checked
  | ok =>
    rw [checked] at read
    rw [and_iff_right ((checkAuthority_escapePath _).1 checked)]
    have again : ({ u.escaped with authority := escapePath (hostOf rest), path := escapePath below } :
        Url).ShowsAuthority ↔
          hostOf rest ≠ [] ∨ String.ofList u.scheme ∈ authoritySchemes ∧ startsTwoSlashes rest = false := by
      by_cases none : hostOf rest = []
      · have empty : escapePath (hostOf rest) = [] := escapePath_eq_nil.2 none
        have all : rest = below := by rw [whole, none]; rfl
        rw [ShowsAuthority, empty, none, all, startsTwoSlashes_escapePath, Bool.not_eq_true']
        exact Iff.rfl
      · exact iff_of_true (.inl fun he => none (escapePath_eq_nil.1 he)) (.inl none)
    rw [encode_text read (escaped_eq_self (escapePath_escapePath below) (escapeQuery_escapeQuery u.query)), ← again,
      ← text_eq_iff_shows (u := u.escaped) ha path slash', Except.ok.injEq, String.ofList_inj]

/-- Encoding twice is encoding once exactly for the URLs that are steady. What is escaped is never escaped again. -/
theorem encode_encode_iff {s e : String} (h : encode s = .ok e) :
    ∃ u, ofChars? s.toList = .ok u ∧ e = String.ofList u.escaped.text ∧ (encode e = .ok e ↔ u.Steady) ∧
      u.escaped.escaped = u.escaped := by
  unfold encode at h
  cases read : ofChars? s.toList with
  | error fault => rw [read] at h; cases h
  | ok u =>
    rw [read] at h
    cases h
    have split := isSplit_of_ofChars? read
    refine ⟨u, rfl, rfl, ?_, escaped_escaped u⟩
    by_cases two : u.authority = [] ∧ startsTwoSlashes u.path = true
    · obtain ⟨ha, two⟩ := two
      obtain ⟨rest, hp⟩ : ∃ rest, u.path = '/' :: '/' :: rest := by
        unfold startsTwoSlashes at two
        split at two
        · exact ⟨_, ‹_›⟩
        · cases two
      rw [encode_text_of_slashes split ha hp]
      refine ⟨fun both _ other hp' => ?_, fun steady => steady ha rest hp⟩
      cases hp.symm.trans hp'
      exact both
    · have steady : u.Steady := fun ha rest hp => absurd ⟨ha, by rw [hp]; rfl⟩ two
      refine iff_of_true ?_ steady
      by_cases shows : u.escaped.ShowsAuthority
      · exact encode_text_of_shows split shows
      · have plain : startsTwoSlashes u.escaped.path = false := by
          rw [escaped, startsTwoSlashes_escapePath]
          exact Bool.eq_false_iff.2 fun slashes => two ⟨not_not.1 fun ha => shows (.inl ha), slashes⟩
        exact encode_text (split.escaped.ofChars?_text_of_not_shows shows plain) (escaped_escaped u)

/-- A host behind four slashes is first escaped as a path, then read as a host and left alone. -/
theorem encode_encode_iff_host :
    encode "http:////x y/?k=a b" = .ok "http://x%20y/?k=a%20b" ∧
      encode "http://x%20y/?k=a%20b" = .ok "http://x%20y/?k=a%20b" := by
  have first : encode "http:////x y/?k=a b" = .ok "http://x%20y/?k=a%20b" := by decide +kernel
  obtain ⟨u, read, -, again, -⟩ := encode_encode_iff first
  have parts : ofChars? "http:////x y/?k=a b".toList =
      .ok ⟨"http".toList, [], "//x y/".toList, "k=a b".toList, []⟩ := by decide +kernel
  refine ⟨first, again.2 ?_⟩
  cases read.symm.trans parts
  intro _ rest hp
  cases hp
  decide +kernel

/-- Slashes are dropped again and again, and what was a path may be no authority. -/
theorem encode_slashes_again :
    encode "////" = .ok "//" ∧ encode "//" = .ok "" ∧
      encode "http://////x" = .ok "http:////x" ∧ encode "http:////x" = .ok "http://x" ∧
      encode "////℀" = .ok "//℀" ∧ encode "//℀" = .error (.hiddenDelimiter "℀") := by
  decide +kernel

end StaticSite.Url
