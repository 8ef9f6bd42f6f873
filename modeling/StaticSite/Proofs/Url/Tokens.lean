import StaticSite.Url.Escape

/-!
# Tokens of texts with escapes

A text is read as escapes and single characters, its `tokens`. Escaping writes one token after the other (`escape_eq`),
and what it has written is read as these very tokens (`tokens_escape`): the escape of a stray percent sign takes none of
the digits behind it, and no escape arises that was not there. So what is made is an escaped text, and it is made of
escaped texts as they are (`escape_eq_self_iff`).
-/

namespace StaticSite.Url

variable {safe cs : List Char} {c : Char}

theorem isHexDigit_upperHexDigit (n : Nat) : isHexDigit (upperHexDigit n) = true := by
  have digits : ∀ d < 16, isHexDigit (Nat.digitChar d).toUpper = true := by decide
  exact digits _ (Nat.mod_lt n (by decide))

/-! ## Reading tokens -/

/-- An escape, or a character that belongs to none. -/
inductive Token where
  | byte (high low : Char) (isHigh : isHexDigit high = true) (isLow : isHexDigit low = true)
  | char (c : Char)

def Token.text : Token → List Char
  | .byte high low _ _ => ['%', high, low]
  | .char c => [c]

def tokens : List Char → List Token
  | '%' :: a :: b :: rest =>
    if digits : isHexDigit a = true ∧ isHexDigit b = true then .byte a b digits.1 digits.2 :: tokens rest
    else .char '%' :: tokens (a :: b :: rest)
  | c :: rest => .char c :: tokens rest
  | [] => []

theorem text_tokens (cs : List Char) : (tokens cs).flatMap Token.text = cs := by
  induction cs using tokens.induct with
  | case1 a b rest digits ih => rw [tokens, dif_pos digits, List.flatMap_cons, ih]; rfl
  | case2 a b rest other ih => rw [tokens, dif_neg other, List.flatMap_cons, ih]; rfl
  | case3 c rest alone ih =>
    rw [tokens, List.flatMap_cons, ih]
    · rfl
    · exact alone
  | case4 => rfl

theorem length_tokens_le (cs : List Char) : (tokens cs).length ≤ cs.length := by
  have each : ∀ t : Token, 1 ≤ t.text.length := fun t => by cases t <;> simp [Token.text]
  have all : ∀ ts : List Token, ts.length ≤ (ts.flatMap Token.text).length := fun ts => by
    induction ts with
    | nil => exact Nat.le_refl 0
    | cons t ts ih =>
      have := each t
      rw [List.flatMap_cons, List.length_append, List.length_cons]
      omega
  calc (tokens cs).length ≤ ((tokens cs).flatMap Token.text).length := all _
    _ = cs.length := by rw [text_tokens]

/-- Tokens are read off their text, unless a percent sign that is none of theirs stands before digits. -/
theorem tokens_text {ts : List Token} (h : .char '%' ∉ ts) : tokens (ts.flatMap Token.text) = ts := by
  induction ts with
  | nil => rfl
  | cons t ts ih =>
    rw [List.mem_cons, not_or] at h
    cases t with
    | byte high low isHigh isLow =>
      show tokens ('%' :: high :: low :: ts.flatMap Token.text) = _
      rw [tokens, dif_pos ⟨isHigh, isLow⟩, ih h.2]
    | char c =>
      have plain : c ≠ '%' := fun hc => h.1 (hc ▸ rfl)
      show tokens (c :: ts.flatMap Token.text) = _
      rw [tokens, ih h.2]
      exact fun _ _ _ hc => absurd hc plain

/-! ## Writing tokens -/

/-- Characters that escaping leaves as they are. -/
def Passes (safe : List Char) (c : Char) : Prop := c.toNat > 0x7f ∨ isUnreserved c = true ∨ c ∈ safe

instance (safe : List Char) : DecidablePred (Passes safe) := fun _ => inferInstanceAs (Decidable (_ ∨ _))

theorem not_passes_percent (hs : '%' ∉ safe) : ¬ Passes safe '%' := by
  rintro (high | unreserved | among)
  · exact absurd high (by decide)
  · exact absurd unreserved (by decide)
  · exact hs among

/-- An escape stays, and a character that may not pass becomes one. -/
def Token.written (safe : List Char) : Token → Token
  | .byte high low isHigh isLow => .byte high low isHigh isLow
  | .char c =>
    if Passes safe c then .char c
    else .byte (upperHexDigit (c.toNat / 16)) (upperHexDigit c.toNat) (isHexDigit_upperHexDigit _)
      (isHexDigit_upperHexDigit _)

theorem Token.text_written_char (safe : List Char) (c : Char) :
    ((Token.char c).written safe).text = escapeOne safe c := by
  by_cases passes : Passes safe c
  · rw [written, if_pos passes]; exact (if_pos passes).symm
  · rw [written, if_neg passes]; exact (if_neg passes).symm

/-- A character is written only for itself, if it passes. -/
theorem Token.char_of_written {t : Token} (h : t.written safe = .char c) : t = .char c ∧ Passes safe c := by
  cases t with
  | byte => cases h
  | char d =>
    by_cases passes : Passes safe d
    · rw [written, if_pos passes] at h
      cases h
      exact ⟨rfl, passes⟩
    · rw [written, if_neg passes] at h
      cases h

theorem Token.written_eq_self {t : Token} (h : ∀ c, t = .char c → Passes safe c) : t.written safe = t := by
  cases t with
  | byte => rfl
  | char c => exact if_pos (h c rfl)

/-- Escaping writes one token after the other. -/
theorem escape_eq (safe cs : List Char) :
    escape safe cs = ((tokens cs).map (Token.written safe)).flatMap Token.text := by
  induction cs using tokens.induct with
  | case1 a b rest digits ih =>
    rw [escape, if_pos (by simpa using digits), tokens, dif_pos digits, List.map_cons, List.flatMap_cons, ← ih]
    rfl
  | case2 a b rest other ih =>
    rw [escape, if_neg (by simpa using other), tokens, dif_neg other, List.map_cons, List.flatMap_cons, ← ih,
      Token.text_written_char]
  | case3 c rest alone ih =>
    rw [escape, tokens, List.map_cons, List.flatMap_cons, ← ih, Token.text_written_char]
    · exact alone
    · exact alone
  | case4 => rfl

/-- What is written is read as the tokens that have been written. -/
theorem tokens_escape (hs : '%' ∉ safe) (cs : List Char) :
    tokens (escape safe cs) = (tokens cs).map (Token.written safe) := by
  rw [escape_eq, tokens_text]
  intro hm
  obtain ⟨t, -, ht⟩ := List.mem_map.1 hm
  exact not_passes_percent hs ((Token.char_of_written ht).2)

/-! ## Escaped texts -/

/-- The text is made of escapes and of characters that pass. -/
def IsEscaped (safe cs : List Char) : Prop :=
  ∃ ts : List Token, cs = ts.flatMap Token.text ∧ ∀ c, .char c ∈ ts → Passes safe c

theorem isEscaped_escape (safe cs : List Char) : IsEscaped safe (escape safe cs) := by
  refine ⟨_, escape_eq safe cs, fun c hc => ?_⟩
  obtain ⟨t, -, ht⟩ := List.mem_map.1 hc
  exact (Token.char_of_written ht).2

/-- Escaping leaves the texts that are escaped, and no others. -/
theorem escape_eq_self_iff (hs : '%' ∉ safe) : escape safe cs = cs ↔ IsEscaped safe cs := by
  constructor
  · intro same
    rw [← same]
    exact isEscaped_escape safe cs
  · rintro ⟨ts, rfl, passes⟩
    have own : tokens (ts.flatMap Token.text) = ts := tokens_text fun hm => not_passes_percent hs (passes _ hm)
    have stay : ts.map (Token.written safe) = ts := by
      refine (List.map_congr_left fun t ht => Token.written_eq_self ?_).trans (List.map_id ts)
      rintro c rfl
      exact passes c ht
    rw [escape_eq, own, stay]

/-- What is escaped stays as it is. -/
theorem escape_escape (hs : '%' ∉ safe) (cs : List Char) : escape safe (escape safe cs) = escape safe cs :=
  (escape_eq_self_iff hs).2 (isEscaped_escape safe cs)

end StaticSite.Url
