import StaticSite.Proofs.Path.Text
import StaticSite.Proofs.Url.Tokens

/-!
# Percent-decoding

`decoded` reads every escape as the byte it stands for and every other character as its own bytes. Escaping changes
nothing of what is read (`decoded_escape`), as it has the same tokens written. So what it makes means what was given
(`escape_keeps_meaning`), and an escaped path without percent signs of its own is read as it was
(`decoded_escapePath`).
-/

namespace StaticSite.Url

/-! ## Bytes -/

/-- The bytes of a text. -/
def octets (cs : List Char) : List UInt8 := cs.flatMap String.utf8EncodeChar

theorem octets_injective {cs ds : List Char} (h : octets cs = octets ds) : cs = ds := by
  have bytes : (String.ofList cs).toByteArray = (String.ofList ds).toByteArray := by
    rw [String.toByteArray_ofList, String.toByteArray_ofList]
    exact congrArg List.toByteArray h
  exact String.ofList_inj.1 (String.toByteArray_inj.1 bytes)

theorem utf8EncodeChar_ascii {c : Char} (h : c.toNat ≤ 0x7f) :
    String.utf8EncodeChar c = [UInt8.ofNat c.toNat] := by
  rw [String.utf8EncodeChar.eq_1]
  simp only [Char.toNat_val, h, ↓reduceIte]

/-! ## Escapes -/

def hexValue (c : Char) : Nat :=
  if '0' ≤ c ∧ c ≤ '9' then c.toNat - 48
  else if 'a' ≤ c ∧ c ≤ 'f' then c.toNat - 87
  else c.toNat - 55

/-- The bytes of a text with escapes. A percent sign that begins no escape stands for itself. -/
def decoded : List Char → List UInt8
  | '%' :: a :: b :: rest =>
    if isHexDigit a && isHexDigit b then UInt8.ofNat (16 * hexValue a + hexValue b) :: decoded rest
    else String.utf8EncodeChar '%' ++ decoded (a :: b :: rest)
  | c :: rest => String.utf8EncodeChar c ++ decoded rest
  | [] => []

theorem decoded_cons {c : Char} (h : c ≠ '%') (cs : List Char) :
    decoded (c :: cs) = String.utf8EncodeChar c ++ decoded cs := by
  rw [decoded]
  exact fun _ _ _ hc => absurd hc h

/-- Without percent signs a text is read as it is. -/
theorem decoded_of_notMem {cs : List Char} (h : '%' ∉ cs) : decoded cs = octets cs := by
  induction cs with
  | nil => rfl
  | cons c cs ih =>
    simp only [List.mem_cons, not_or] at h
    rw [decoded_cons (Ne.symm h.1), ih h.2]
    rfl

theorem hexValue_upperHexDigit (n : Nat) : hexValue (upperHexDigit n) = n % 16 := by
  have digits : ∀ d < 16, hexValue (Nat.digitChar d).toUpper = d := by decide
  exact digits _ (Nat.mod_lt n (by decide))

/-- The bytes of a token. -/
def Token.octets : Token → List UInt8
  | .byte high low _ _ => [UInt8.ofNat (16 * hexValue high + hexValue low)]
  | .char c => String.utf8EncodeChar c

theorem decoded_eq (cs : List Char) : decoded cs = (tokens cs).flatMap Token.octets := by
  induction cs using tokens.induct with
  | case1 a b rest digits ih =>
    rw [decoded, if_pos (by simpa using digits), tokens, dif_pos digits, List.flatMap_cons, ← ih]
    rfl
  | case2 a b rest other ih =>
    rw [decoded, if_neg (by simpa using other), tokens, dif_neg other, List.flatMap_cons, ← ih]
    rfl
  | case3 c rest alone ih =>
    rw [decoded, tokens, List.flatMap_cons, ← ih]
    · rfl
    · exact alone
    · exact alone
  | case4 => rfl

/-- A character has the bytes of its escape. -/
theorem Token.octets_written (safe : List Char) (t : Token) : (t.written safe).octets = t.octets := by
  cases t with
  | byte => rfl
  | char c =>
    by_cases passes : Passes safe c
    · rw [written, if_pos passes]
    · have small : c.toNat ≤ 0x7f := Nat.le_of_not_lt fun high => passes (.inl high)
      have value : 16 * (c.toNat / 16 % 16) + c.toNat % 16 = c.toNat := by omega
      rw [written, if_neg passes, octets, octets, hexValue_upperHexDigit, hexValue_upperHexDigit, value,
        utf8EncodeChar_ascii small]

/-- Escaping changes nothing of what is read. -/
theorem decoded_escape {safe : List Char} (hs : '%' ∉ safe) (cs : List Char) :
    decoded (escape safe cs) = decoded cs := by
  rw [decoded_eq, tokens_escape hs, List.flatMap_map, decoded_eq]
  simp only [Token.octets_written]

/-- The scan of a part ends after one round for each of its tokens. What it has written is an escaped text with the
bytes of the part, and stays when it is escaped again. -/
structure KeepsMeaning (safe part : List Char) : Prop where
  scanned : ∃ ts : List Token, ts.length ≤ part.length ∧ part = ts.flatMap Token.text ∧
    escape safe part = (ts.map (Token.written safe)).flatMap Token.text
  escaped : IsEscaped safe (escape safe part)
  bytes : decoded (escape safe part) = decoded part
  again : escape safe (escape safe part) = escape safe part

theorem keepsMeaning_of_notMem {safe : List Char} (hs : '%' ∉ safe) (part : List Char) : KeepsMeaning safe part where
  scanned := ⟨tokens part, length_tokens_le part, (text_tokens part).symm, escape_eq safe part⟩
  escaped := isEscaped_escape safe part
  bytes := decoded_escape hs part
  again := escape_escape hs part

/-- Escaping keeps the meaning of the segments of a path and of the values of a query. -/
theorem escape_keeps_meaning (part : List Char) : KeepsMeaning segmentSafe part ∧ KeepsMeaning [] part :=
  ⟨keepsMeaning_of_notMem (by decide) part, keepsMeaning_of_notMem List.not_mem_nil part⟩

example : escape [] "%%41 %4".toList = "%25%41%20%254".toList := by decide

/-! ## Escaped paths -/

theorem escape_cons {safe : List Char} {c : Char} {cs : List Char}
    (h : ∀ a b rest, c :: cs = '%' :: a :: b :: rest → ¬ (isHexDigit a && isHexDigit b) = true) :
    escape safe (c :: cs) = escapeOne safe c ++ escape safe cs := by
  by_cases long : ∃ a b rest, c = '%' ∧ cs = a :: b :: rest
  · obtain ⟨a, b, rest, rfl, rfl⟩ := long
    rw [escape, if_neg (h a b rest rfl)]
  · rw [escape]
    exact fun a b rest hc hcs => long ⟨a, b, rest, hc, hcs⟩

theorem escape_cons_safe {safe : List Char} {c : Char} (h : c ∈ safe) (hc : c ≠ '%') (cs : List Char) :
    escape safe (c :: cs) = c :: escape safe cs := by
  rw [escape, escapeOne, if_pos (.inr (.inr h))]
  · rfl
  · exact fun _ _ _ he => absurd he hc

/-- No escape goes on behind a slash. -/
theorem escape_append_slash (safe cs ds : List Char) :
    escape safe (cs ++ '/' :: ds) = escape safe cs ++ escape safe ('/' :: ds) := by
  induction cs using escape.induct with
  | case1 a b rest digits ih =>
    rw [escape, if_pos digits, List.cons_append, List.cons_append, List.cons_append, escape, if_pos digits, ih]
    rfl
  | case2 a b rest other ih =>
    rw [escape, if_neg other, List.cons_append, List.cons_append, List.cons_append, escape, if_neg other,
      List.append_assoc, ← ih]
    rfl
  | case3 c rest alone ih =>
    rw [List.cons_append, escape_cons, escape_cons, ih, List.append_assoc]
    · exact fun a b more text _ => alone a b more (List.cons.inj text).1 (List.cons.inj text).2
    · intro a b more text digits
      obtain ⟨hc, behind⟩ := List.cons.inj text
      rw [Bool.and_eq_true] at digits
      cases rest with
      | nil =>
        obtain ⟨rfl, -⟩ := List.cons.inj behind
        exact absurd digits.1 (by decide)
      | cons x rest =>
        cases rest with
        | nil =>
          obtain ⟨rfl, -⟩ := List.cons.inj (List.cons.inj behind).2
          exact absurd digits.2 (by decide)
        | cons y rest => exact alone x y rest hc rfl
  | case4 => rfl

theorem escape_congr {safe safe' cs : List Char} (h : ∀ c ∈ cs, c ∈ safe ↔ c ∈ safe') :
    escape safe cs = escape safe' cs := by
  have one : ∀ c, (c ∈ safe ↔ c ∈ safe') → escapeOne safe c = escapeOne safe' c := fun c hc => by
    simp only [escapeOne, hc]
  induction cs using escape.induct with
  | case1 a b rest digits ih =>
    rw [escape, if_pos digits, escape, if_pos digits, ih fun c hc => h c (by simp [hc])]
  | case2 a b rest other ih =>
    rw [escape, if_neg other, escape, if_neg other, one _ (h _ (by simp)), ih fun c hc => h c (by simp_all)]
  | case3 c rest alone ih =>
    rw [escape, escape, one _ (h _ (by simp)), ih fun c hc => h c (by simp [hc])]
    · exact alone
    · exact alone
  | case4 => rfl

/-- As no slash stands in an escape, the segments of a path are escaped as the whole path is. -/
theorem escapePath_eq (path : List Char) : escapePath path = escape ('/' :: segmentSafe) path := by
  have whole : ∀ segs : List (List Char), (∀ seg ∈ segs, '/' ∉ seg) →
      Text.joinWith '/' (segs.map (escape segmentSafe)) = escape ('/' :: segmentSafe) (Text.joinWith '/' segs) := by
    intro segs hs
    induction segs with
    | nil => rfl
    | cons seg rest ih =>
      have own : escape ('/' :: segmentSafe) seg = escape segmentSafe seg :=
        escape_congr fun c hc => by
          have : c ≠ '/' := fun he => hs seg List.mem_cons_self (he ▸ hc)
          simp [this]
      cases rest with
      | nil => exact own.symm
      | cons next rest =>
        rw [Text.joinWith, escape_append_slash, escape_cons_safe List.mem_cons_self (by decide), own,
          ← ih fun s h => hs s (List.mem_cons_of_mem _ h)]
        · rfl
        · exact List.cons_ne_nil _ _
  rw [escapePath, whole _ fun seg h => Text.notMem_of_mem_splitOn h, Text.joinWith_splitOn]

/-- An escaped path without percent signs of its own is read as it was. -/
theorem decoded_escapePath {path : List Char} (h : '%' ∉ path) : decoded (escapePath path) = octets path := by
  rw [escapePath_eq, decoded_escape (by decide), decoded_of_notMem h]

end StaticSite.Url
