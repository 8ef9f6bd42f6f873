import Mathlib.Data.List.Infix
import StaticSite.Proofs.Url.Text
import StaticSite.Text.Case

/-!
# Lower case

What `lowerFrom` makes of a text has no capitals left, so it stays as it is in lower case (`lowerFrom_of_isLowered`).
Each character has one character as its lower case, a letter for a letter, but for `İ`, which becomes an `i` and a dot
above it. So two things alone keep the lower case of a text's end from being the end of its lower case: that dot, and a
sigma before which there is no letter in the end itself (`lowerFrom_eq_of_opensOnSigma`, `exists_lowerFrom_of_suffix`).

The facts about the tables of case mappings are checked run by run, not point by point: membership in a set does not
change between two of its bounds.
-/

namespace StaticSite.Text

/-! ## Sets between their bounds -/

/-- With `inside` before the first bound, membership is `wanted` from `lo` to `hi`, where it does not change. -/
def CodeSet.isOn (wanted : Bool) (lo hi : Nat) (inside : Bool) : CodeSet → Bool
  | [] => inside == wanted
  | b :: bs => bif Nat.ble b lo then isOn wanted lo hi (!inside) bs else Nat.blt hi b && inside == wanted

theorem CodeSet.memFrom_of_isOn {s : CodeSet} {wanted inside : Bool} {lo hi n : Nat}
    (h : isOn wanted lo hi inside s = true) (hl : lo ≤ n) (hh : n ≤ hi) : s.memFrom inside n = wanted := by
  induction s generalizing inside with
  | nil => exact eq_of_beq h
  | cons b bs ih =>
    rw [isOn, Bool.cond_eq_ite] at h
    rw [memFrom]
    split at h
    · next below =>
      rw [Nat.ble_eq] at below
      rw [if_neg (by omega), ih h]
    · rw [Bool.and_eq_true, Nat.blt_eq, beq_iff_eq] at h
      rw [if_pos (by omega), h.2]

/-! ## Runs of letters -/

namespace ShiftRun

/-- The point that the run moves `n` to. -/
def image (r : ShiftRun) (n : Nat) : Nat := ((n : Int) + r.delta).toNat

variable {r r' : ShiftRun} {n : Nat}

theorem covers_iff : r.covers n = true ↔ r.lo ≤ n ∧ n ≤ r.hi ∧ (n - r.lo) % r.stride = 0 := by
  simp [covers, and_assoc]

theorem image_bounds (h : r.covers n = true) : r.image r.lo ≤ r.image n ∧ r.image n ≤ r.image r.hi := by
  obtain ⟨hl, hh, -⟩ := covers_iff.1 h
  unfold image
  omega

/-- All points of the run are in the set; they are looked at one by one only if the set has a bound among them. -/
def isIn (r : ShiftRun) (s : CodeSet) : Bool :=
  s.isOn true r.lo r.hi false || (List.range' r.lo (r.hi + 1 - r.lo)).all fun n => !r.covers n || s.memFrom false n

/-- The run moves letters to letters, which are code points of characters and not that of `İ`. -/
def isOfLetters (r : ShiftRun) : Bool :=
  r.isIn cased && caseIgnorable.isOn false r.lo r.hi false && cased.isOn true (r.image r.lo) (r.image r.hi) false &&
    caseIgnorable.isOn false (r.image r.lo) (r.image r.hi) false &&
    (Nat.blt (r.image r.hi) 0xD800 || Nat.blt 0xDFFF (r.image r.lo) && Nat.blt (r.image r.hi) 0x110000) &&
    (Nat.blt (r.image r.hi) 0x130 || Nat.blt 0x130 (r.image r.lo))

theorem memFrom_of_isIn {s : CodeSet} (h : r.isIn s = true) (hn : r.covers n = true) : s.memFrom false n = true := by
  obtain ⟨hl, hh, -⟩ := covers_iff.1 hn
  rcases (Bool.or_eq_true _ _).mp h with on | each
  · exact CodeSet.memFrom_of_isOn on hl hh
  · have point := List.all_eq_true.1 each n (List.mem_range'_1.2 (by omega))
    simpa [hn] using point

/-- No point that `r` gives is one that `r'` moves: they lie apart, or `r'` takes every other point and passes it. -/
def isApart (r r' : ShiftRun) : Bool :=
  Nat.blt (r.image r.hi) r'.lo || Nat.blt r'.hi (r.image r.lo) ||
    Nat.beq r.stride 2 && Nat.beq r'.stride 2 && Nat.blt 0 (r.image r.lo) && Nat.beq ((r.image r.lo + r'.lo) % 2) 1 ||
    Nat.beq r.lo r.hi && !r'.covers (r.image r.lo)

theorem not_covers_of_isApart (h : r.isApart r' = true) (hn : r.covers n = true) : r'.covers (r.image n) = false := by
  obtain ⟨low, high⟩ := image_bounds hn
  obtain ⟨hl, hh, step⟩ := covers_iff.1 hn
  simp only [isApart, Bool.or_eq_true, Bool.and_eq_true, Nat.blt_eq, Nat.beq_eq, Bool.not_eq_true'] at h
  rw [Bool.eq_false_iff, ne_eq, covers_iff]
  rintro ⟨hl', hh', step'⟩
  rcases h with ((before | behind) | ⟨⟨⟨two, two'⟩, positive⟩, odd⟩) | ⟨single, outside⟩
  · omega
  · omega
  · rw [two] at step
    rw [two'] at step'
    unfold image at positive odd step' hl'
    omega
  · obtain rfl : n = r.lo := by omega
    rw [covers_iff.2 ⟨hl', hh', step'⟩] at outside
    cases outside

end ShiftRun

theorem lowerRuns_letters : ∀ r ∈ lowerRuns, r.isOfLetters = true := by decide +kernel

theorem lowerRuns_apart : ∀ r ∈ lowerRuns, ∀ r' ∈ lowerRuns, r.isApart r' = true := by decide +kernel

/-! ## Characters -/

/-- The character has case, and decides with it how a sigma next to it is written. -/
def IsLetter (c : Char) : Prop := cased.mem c = true ∧ caseIgnorable.mem c = false

instance : DecidablePred IsLetter := fun _ => inferInstanceAs (Decidable (_ ∧ _))

/-- The character is its own lower case. -/
def IsLowered (c : Char) : Prop := lowerChar c = [c]

instance : DecidablePred IsLowered := fun _ => inferInstanceAs (Decidable (_ = _))

variable {c d : Char}

theorem isLowered_of_not_covers (h : ∀ r ∈ lowerRuns, r.covers c.toNat = false) (dotted : c ≠ 'İ') : IsLowered c := by
  have unmoved : shift? lowerRuns c.toNat = none := by
    rw [shift?, List.find?_eq_none.2 fun r hr => by simp [h r hr], Option.map_none]
  unfold IsLowered lowerChar
  split
  · next ascii =>
    -- the capitals of ASCII are a run of their own
    have small := h ⟨65, 90, 1, 32⟩ (List.Mem.head _)
    refine congrArg (· :: []) (if_neg fun ⟨low, high⟩ => ?_)
    rw [Bool.eq_false_iff] at small
    refine small (ShiftRun.covers_iff.2 ⟨?_, ?_, Nat.mod_one _⟩)
    · exact UInt32.le_iff_toNat_le.1 low
    · exact UInt32.le_iff_toNat_le.1 high
  · rw [unmoved]
    rfl

/-- The lower case of a character other than `İ` is one character: itself, or a letter for a letter. -/
theorem exists_lowerChar (dotted : c ≠ 'İ') :
    ∃ d, lowerChar c = [d] ∧ IsLowered d ∧ (d = c ∨ IsLetter c ∧ IsLetter d) := by
  by_cases ascii : isAscii c = true
  · refine ⟨asciiLower c, if_pos ascii, ?_⟩
    exact Url.of_ascii (P := fun c => IsLowered (asciiLower c) ∧
      (asciiLower c = c ∨ IsLetter c ∧ IsLetter (asciiLower c))) (by decide +kernel) (by simpa [isAscii] using ascii)
  · cases found : lowerRuns.find? (·.covers c.toNat) with
    | none =>
      have own : IsLowered c :=
        isLowered_of_not_covers (fun r hr => by simpa using List.find?_eq_none.1 found r hr) dotted
      exact ⟨c, own, own, .inl rfl⟩
    | some r =>
      have hr := List.mem_of_find?_eq_some found
      have covered := List.find?_some found
      obtain ⟨low, high, -⟩ := ShiftRun.covers_iff.1 covered
      obtain ⟨below, above⟩ := ShiftRun.image_bounds covered
      have checked := lowerRuns_letters r hr
      simp only [ShiftRun.isOfLetters, Bool.and_eq_true, Bool.or_eq_true, Nat.blt_eq] at checked
      obtain ⟨⟨⟨⟨⟨isCased, plain⟩, imageCased⟩, imagePlain⟩, valid⟩, other⟩ := checked
      have point : (Char.ofNat (r.image c.toNat)).toNat = r.image c.toNat := by
        refine toNat_ofNat ?_
        unfold Nat.isValidChar
        omega
      refine ⟨Char.ofNat (r.image c.toNat), ?_, isLowered_of_not_covers (fun r' hr' => ?_) ?_, .inr ⟨⟨?_, ?_⟩, ?_, ?_⟩⟩
      · rw [lowerChar, if_neg ascii, if_neg dotted, shift?, found]
        rfl
      · rw [point]
        exact ShiftRun.not_covers_of_isApart (lowerRuns_apart r hr r' hr') covered
      · intro dot
        have code : r.image c.toNat = 0x130 := point.symm.trans (congrArg Char.toNat dot)
        omega
      · exact ShiftRun.memFrom_of_isIn isCased covered
      · exact CodeSet.memFrom_of_isOn plain low high
      · rw [CodeSet.mem, point]
        exact CodeSet.memFrom_of_isOn imageCased below above
      · rw [CodeSet.mem, point]
        exact CodeSet.memFrom_of_isOn imagePlain below above

/-! ## Texts -/

variable {inWord : Bool} {cs more lowered : List Char}

/-- Whether a letter stands before what follows `c`. -/
def wordAfter (inWord : Bool) (c : Char) : Bool := if caseIgnorable.mem c then inWord else cased.mem c

theorem lowerFrom_dotted : lowerFrom inWord ('İ' :: cs) = 'i' :: '\u0307' :: lowerFrom true cs := by
  have word : wordAfter inWord 'İ' = true := by cases inWord <;> decide +kernel
  rw [← word]
  rfl

theorem lowerFrom_sigma :
    lowerFrom inWord ('Σ' :: cs) = (if inWord && !casedAhead cs then 'ς' else 'σ') :: lowerFrom true cs := by
  have word : wordAfter inWord 'Σ' = true := by cases inWord <;> decide +kernel
  rw [← word]
  rfl

/-- Any other character has one character as its lower case, wherever it stands. -/
theorem exists_lowerFrom (dotted : c ≠ 'İ') (sigma : c ≠ 'Σ') :
    ∃ d, IsLowered d ∧ (d = c ∨ IsLetter c ∧ IsLetter d) ∧
      ∀ inWord cs, lowerFrom inWord (c :: cs) = d :: lowerFrom (wordAfter inWord c) cs := by
  obtain ⟨d, hd, isLowered, alike⟩ := exists_lowerChar dotted
  refine ⟨d, isLowered, alike, fun inWord cs => ?_⟩
  rw [lowerFrom, if_neg sigma, hd]
  rfl

theorem IsLowered.ne (h : IsLowered c) : c ≠ 'İ' ∧ c ≠ 'Σ' := by
  constructor
  · rintro rfl
    exact absurd h (by decide +kernel)
  · rintro rfl
    exact absurd h (by decide +kernel)

theorem isLowered_of_mem_lowerFrom (h : d ∈ lowerFrom inWord cs) : IsLowered d := by
  induction cs generalizing inWord with
  | nil => cases h
  | cons c cs ih =>
    by_cases dotted : c = 'İ'
    · rw [dotted, lowerFrom_dotted] at h
      rcases List.mem_cons.1 h with rfl | h
      · decide
      rcases List.mem_cons.1 h with rfl | h
      · decide +kernel
      · exact ih h
    by_cases sigma : c = 'Σ'
    · rw [sigma, lowerFrom_sigma] at h
      rcases List.mem_cons.1 h with rfl | h
      · split <;> decide +kernel
      · exact ih h
    obtain ⟨e, isLowered, -, whole⟩ := exists_lowerFrom dotted sigma
    rw [whole] at h
    rcases List.mem_cons.1 h with rfl | h
    · exact isLowered
    · exact ih h

/-- What is lowered stays as it is in front of any text. -/
theorem lowerFrom_append_of_isLowered (h : ∀ c ∈ cs, IsLowered c) (inWord : Bool) (more : List Char) :
    lowerFrom inWord (cs ++ more) = cs ++ lowerFrom (cs.foldl wordAfter inWord) more := by
  induction cs generalizing inWord with
  | nil => rfl
  | cons c cs ih =>
    obtain ⟨first, rest⟩ := List.forall_mem_cons.1 h
    have own : (if c = 'Σ' then [if inWord && !casedAhead (cs ++ more) then 'ς' else 'σ'] else lowerChar c) = [c] :=
      (if_neg first.ne.2).trans first
    rw [List.cons_append, lowerFrom, own]
    exact congrArg (c :: ·) (ih rest _)

theorem lowerFrom_of_isLowered (h : ∀ c ∈ cs, IsLowered c) (inWord : Bool) : lowerFrom inWord cs = cs := by
  have whole := lowerFrom_append_of_isLowered h inWord []
  rwa [List.append_nil, lowerFrom, List.append_nil] at whole

/-! ## Sigmas -/

@[simp] theorem casedAhead_cons_of_ignorable (h : caseIgnorable.mem c = true) :
    casedAhead (c :: cs) = casedAhead cs := by
  rw [casedAhead, List.dropWhile_cons_of_pos h, casedAhead]

@[simp] theorem casedAhead_cons_of_not (h : caseIgnorable.mem c = false) : casedAhead (c :: cs) = cased.mem c := by
  rw [casedAhead, List.dropWhile_cons_of_neg (by simp [h])]

/-- Letters stand in the lower case where they stand in the text. -/
theorem casedAhead_lowerFrom (inWord : Bool) (cs : List Char) : casedAhead (lowerFrom inWord cs) = casedAhead cs := by
  induction cs generalizing inWord with
  | nil => rfl
  | cons c cs ih =>
    by_cases dotted : c = 'İ'
    · rw [dotted, lowerFrom_dotted, casedAhead_cons_of_not (by decide), casedAhead_cons_of_not (by decide +kernel)]
      decide +kernel
    by_cases sigma : c = 'Σ'
    · rw [sigma, lowerFrom_sigma, casedAhead_cons_of_not (c := 'Σ') (by decide +kernel)]
      split <;> rw [casedAhead_cons_of_not (by decide +kernel)] <;> decide +kernel
    obtain ⟨d, -, rfl | ⟨letter, letter'⟩, whole⟩ := exists_lowerFrom dotted sigma
    · rw [whole]
      cases ignorable : caseIgnorable.mem d with
      | true => rw [casedAhead_cons_of_ignorable ignorable, casedAhead_cons_of_ignorable ignorable, ih]
      | false => rw [casedAhead_cons_of_not ignorable, casedAhead_cons_of_not ignorable]
    · rw [whole, casedAhead_cons_of_not letter.2, casedAhead_cons_of_not letter'.2, letter.1, letter'.1]

/-- The first character that is not ignorable is a sigma, and no letter follows it. -/
def opensOnSigma (cs : List Char) : Bool :=
  match cs.dropWhile caseIgnorable.mem with
  | [] => false
  | c :: rest => (c == 'σ' || c == 'ς') && !casedAhead rest

/-- Unless it opens on a sigma, a text has its lower case whatever stands before it. -/
theorem lowerFrom_eq_of_opensOnSigma (h : opensOnSigma (lowerFrom inWord cs) = false) (inWord' : Bool) :
    lowerFrom inWord' cs = lowerFrom inWord cs := by
  induction cs with
  | nil => rfl
  | cons c cs ih =>
    by_cases dotted : c = 'İ'
    · rw [dotted, lowerFrom_dotted, lowerFrom_dotted]
    by_cases sigma : c = 'Σ'
    · -- a letter follows the sigma
      have ahead : casedAhead cs = true := by
        rw [← casedAhead_lowerFrom true]
        rw [sigma, lowerFrom_sigma] at h
        by_contra none
        split at h <;> exact absurd h (by rw [opensOnSigma, List.dropWhile_cons_of_neg (by decide +kernel)]; simpa using none)
      simp only [sigma, lowerFrom_sigma, ahead, Bool.not_true, Bool.and_false]
    obtain ⟨d, -, alike, whole⟩ := exists_lowerFrom dotted sigma
    rw [whole, whole] at *
    cases ignorable : caseIgnorable.mem c with
    | false => simp only [wordAfter, ignorable, Bool.false_eq_true, if_false]
    | true =>
      obtain rfl : d = c := alike.resolve_right fun ⟨letter, _⟩ => by rw [letter.2] at ignorable; cases ignorable
      simp only [wordAfter, ignorable, if_true] at h ⊢
      rw [opensOnSigma, List.dropWhile_cons_of_pos ignorable] at h
      rw [ih h]

/-! ## Ends of texts -/

theorem exists_lowerFrom_cons (dotted : c ≠ 'İ') (inWord : Bool) (cs : List Char) :
    ∃ d inWord', lowerFrom inWord (c :: cs) = d :: lowerFrom inWord' cs := by
  by_cases sigma : c = 'Σ'
  · exact ⟨_, _, sigma ▸ lowerFrom_sigma⟩
  · obtain ⟨d, -, -, whole⟩ := exists_lowerFrom dotted sigma
    exact ⟨d, _, whole _ _⟩

/-- What `İ` becomes. -/
def dottedPair : List Char := ['i', '\u0307']

theorem length_lowerFrom (h : ¬ dottedPair <:+: lowerFrom inWord cs) : (lowerFrom inWord cs).length = cs.length := by
  induction cs generalizing inWord with
  | nil => rfl
  | cons c cs ih =>
    by_cases dotted : c = 'İ'
    · rw [dotted, lowerFrom_dotted] at h
      exact absurd ⟨[], _, rfl⟩ h
    obtain ⟨d, inWord', whole⟩ := exists_lowerFrom_cons dotted inWord cs
    rw [whole] at h ⊢
    rw [List.length_cons, List.length_cons, ih fun infix_ => h (List.infix_cons infix_)]

/-- A text ends where the end of its lower case begins, unless that begins with the dot that `İ` gives. -/
theorem exists_lowerFrom_of_suffix (mark : lowered.head? ≠ some '\u0307') (h : lowered <:+ lowerFrom inWord cs) :
    ∃ before after inWord', cs = before ++ after ∧ lowerFrom inWord' after = lowered := by
  induction cs generalizing inWord with
  | nil => exact ⟨[], [], inWord, rfl, (List.suffix_nil.1 h).symm⟩
  | cons c cs ih =>
    have within : ∀ {inWord'}, lowered <:+ lowerFrom inWord' cs →
        ∃ before after inWord', c :: cs = before ++ after ∧ lowerFrom inWord' after = lowered := fun short => by
      obtain ⟨before, after, inWord', rfl, lowers⟩ := ih short
      exact ⟨c :: before, after, inWord', rfl, lowers⟩
    by_cases dotted : c = 'İ'
    · have split := h
      rw [dotted, lowerFrom_dotted] at split
      rcases List.suffix_cons_iff.1 split with whole | short
      · exact ⟨[], c :: cs, inWord, rfl, by rw [whole, dotted, lowerFrom_dotted]⟩
      rcases List.suffix_cons_iff.1 short with rest | short
      · exact absurd (congrArg List.head? rest) mark
      · exact within short
    obtain ⟨d, inWord', whole⟩ := exists_lowerFrom_cons dotted inWord cs
    have split := h
    rw [whole] at split
    rcases List.suffix_cons_iff.1 split with all | short
    · exact ⟨[], c :: cs, inWord, rfl, whole.trans all.symm⟩
    · exact within short

/-- A text whose lower case ends with this one has an end of its own with that lower case, and the other way round. -/
structure Steady (lowered : List Char) : Prop where
  sigma : opensOnSigma lowered = false
  mark : lowered.head? ≠ some '\u0307'
  pair : ¬ dottedPair <:+: lowered

instance (lowered : List Char) : Decidable (Steady lowered) :=
  decidable_of_iff (opensOnSigma lowered = false ∧ lowered.head? ≠ some '\u0307' ∧ ¬ dottedPair <:+: lowered)
    ⟨fun ⟨sigma, mark, pair⟩ => ⟨sigma, mark, pair⟩, fun h => ⟨h.sigma, h.mark, h.pair⟩⟩

theorem foldl_wordAfter (h : ∀ c ∈ cs, caseIgnorable.mem c = true) (inWord : Bool) :
    cs.foldl wordAfter inWord = inWord := by
  induction cs with
  | nil => rfl
  | cons c cs ih =>
    obtain ⟨first, rest⟩ := List.forall_mem_cons.1 h
    rw [List.foldl_cons, wordAfter, if_pos first, ih rest]

/-- An end of a text is told by its length. -/
theorem eq_of_append (more : List Char) {before after own : List Char} (h : more ++ own = before ++ after)
    (length : after.length = own.length) : after = own :=
  (List.append_inj' h length.symm).2.symm

theorem exists_of_opensOnSigma (h : opensOnSigma cs = true) : ∃ lead d rest, cs = lead ++ d :: rest ∧
    (∀ c ∈ lead, caseIgnorable.mem c = true) ∧ (d = 'σ' ∨ d = 'ς') ∧ casedAhead rest = false := by
  have split := List.takeWhile_append_dropWhile (p := caseIgnorable.mem) (l := cs)
  unfold opensOnSigma at h
  cases dropped : cs.dropWhile caseIgnorable.mem with
  | nil => rw [dropped] at h; cases h
  | cons d rest =>
    rw [dropped] at h split
    simp only [Bool.and_eq_true, Bool.or_eq_true, beq_iff_eq, Bool.not_eq_true'] at h
    exact ⟨_, d, rest, split.symm, fun c => List.mem_takeWhile_imp, h⟩

/-- A capital sigma that ends a word, if there is one before the text. -/
theorem lowerFrom_lead_sigma {lead rest : List Char} (leadLowered : ∀ c ∈ lead, IsLowered c)
    (restLowered : ∀ c ∈ rest, IsLowered c) (ignorable : ∀ c ∈ lead, caseIgnorable.mem c = true)
    (last : casedAhead rest = false) (inWord : Bool) :
    lowerFrom inWord (lead ++ 'Σ' :: rest) = lead ++ (if inWord then 'ς' else 'σ') :: rest := by
  rw [lowerFrom_append_of_isLowered leadLowered, foldl_wordAfter ignorable, lowerFrom_sigma, last,
    lowerFrom_of_isLowered restLowered, Bool.not_false, Bool.and_true]

/-- The lower case of a text has a slash only for a slash. -/
theorem slash_mem_lowerFrom : '/' ∈ lowerFrom inWord cs ↔ '/' ∈ cs := by
  induction cs generalizing inWord with
  | nil => rfl
  | cons c cs ih =>
    by_cases dotted : c = 'İ'
    · rw [dotted, lowerFrom_dotted]
      simp [ih]
    by_cases sigma : c = 'Σ'
    · rw [sigma, lowerFrom_sigma]
      split <;> simp [ih]
    obtain ⟨d, -, alike, whole⟩ := exists_lowerFrom dotted sigma
    rw [whole, List.mem_cons, List.mem_cons, ih]
    rcases alike with rfl | ⟨letter, letter'⟩
    · rfl
    · have other : ∀ {c}, IsLetter c → '/' ≠ c := by
        rintro c letter rfl
        exact absurd letter (by decide +kernel)
      simp [other letter, other letter']

/-- A text ends with these characters in lower case exactly if its last `n` characters have them as their lower case.
Only texts count that could be the name of a file. -/
def ToldByLast (n : Nat) (lowered : List Char) : Prop :=
  ∀ cs, '/' ∉ cs → (∃ c ∈ cs, c ≠ '.') → (lowered <:+ lowerFrom false cs ↔
    ∃ before after, cs = before ++ after ∧ after.length = n ∧ lowerFrom false after = lowered)

section
variable {n : Nat} (isLowered : ∀ c ∈ lowered, IsLowered c) (noSlash : '/' ∉ lowered)
include isLowered noSlash

theorem ToldByLast.length_eq (h : ToldByLast n lowered) : lowered.length = n := by
  have own : lowerFrom false ('a' :: lowered) = 'a' :: lowered :=
    lowerFrom_of_isLowered (List.forall_mem_cons.2 ⟨by decide, isLowered⟩) false
  obtain ⟨before, after, split, rfl, lowers⟩ :=
    (h ('a' :: lowered) (by simp [noSlash]) ⟨'a', by simp⟩).1 (own.symm ▸ List.suffix_cons _ _)
  have afterLowered : ∀ c ∈ after, IsLowered c := fun c hc => by
    have within : c ∈ 'a' :: lowered := split ▸ List.mem_append_right _ hc
    exact List.forall_mem_cons.2 ⟨by decide, isLowered⟩ c within
  rw [← lowers, lowerFrom_of_isLowered afterLowered]

/-- A sigma that it opens on is another one behind an `a`. -/
theorem ToldByLast.sigma (h : ToldByLast lowered.length lowered) : opensOnSigma lowered = false := by
  refine Bool.eq_false_iff.2 fun opens => ?_
  obtain ⟨lead, d, rest, rfl, ignorable, sigma, last⟩ := exists_of_opensOnSigma opens
  obtain ⟨leadLowered, others⟩ := List.forall_mem_append.1 isLowered
  have capital := lowerFrom_lead_sigma leadLowered (List.forall_mem_cons.1 others).2 ignorable last
  have behind : lowerFrom false ('a' :: (lead ++ 'Σ' :: rest)) = 'a' :: lowerFrom true (lead ++ 'Σ' :: rest) := rfl
  have isName : '/' ∉ 'a' :: (lead ++ 'Σ' :: rest) := by
    simp only [List.mem_append, List.mem_cons, not_or] at noSlash
    simp [noSlash]
  have law := h _ isName ⟨'a', by simp⟩
  rw [behind, capital true] at law
  rcases sigma with rfl | rfl
  · have ends := law.2 ⟨['a'], _, rfl, by simp, capital false⟩
    rcases List.suffix_cons_iff.1 ends with whole | short
    · simpa using congrArg List.length whole
    · simpa using short.eq_of_length (by simp)
  · obtain ⟨before, after, split, length, lowers⟩ := law.1 (List.suffix_cons _ _)
    obtain rfl := eq_of_append ['a'] split (by simpa using length)
    simpa using (capital false).symm.trans lowers

/-- The lower case of `İ` and more ends with a dot that no character of its own becomes. -/
theorem ToldByLast.mark (h : ToldByLast lowered.length lowered) : lowered.head? ≠ some '\u0307' := by
  intro mark
  obtain ⟨rest, rfl⟩ := List.head?_eq_some_iff.1 mark
  have whole : lowerFrom false ('İ' :: rest) = 'i' :: '\u0307' :: rest := by
    rw [lowerFrom_dotted, lowerFrom_of_isLowered (List.forall_mem_cons.1 isLowered).2]
  have isName : '/' ∉ 'İ' :: rest := by
    simp only [List.mem_cons, not_or] at noSlash
    simp [noSlash]
  obtain ⟨before, after, split, length, lowers⟩ := (h _ isName ⟨'İ', by simp⟩).1 (whole ▸ List.suffix_cons _ _)
  obtain rfl := eq_of_append [] split length
  simpa using congrArg List.length (whole.symm.trans lowers)

/-- A text with `İ` for its two characters is shorter than its lower case. -/
theorem ToldByLast.pair (h : ToldByLast lowered.length lowered) : ¬ dottedPair <:+: lowered := by
  rintro ⟨front, back, rfl⟩
  rw [List.append_assoc] at isLowered
  obtain ⟨frontLowered, others⟩ := List.forall_mem_append.1 isLowered
  have same : lowerFrom false (front ++ 'İ' :: back) = front ++ dottedPair ++ back := by
    rw [lowerFrom_append_of_isLowered frontLowered, lowerFrom_dotted,
      lowerFrom_of_isLowered (List.forall_mem_append.1 others).2, List.append_assoc]
    rfl
  have isName : '/' ∉ front ++ 'İ' :: back := by
    simp only [List.mem_append, not_or] at noSlash
    simp [noSlash]
  obtain ⟨before, after, split, length, -⟩ := (h _ isName ⟨'İ', by simp⟩).1 (same ▸ List.suffix_refl _)
  have total := congrArg List.length split
  simp only [dottedPair, List.length_append, List.length_cons, List.length_nil] at total length
  omega

/-- Only texts that are steady are told by the last characters, as many as ever. -/
theorem ToldByLast.steady (h : ToldByLast n lowered) : Steady lowered := by
  obtain rfl := h.length_eq isLowered noSlash
  exact ⟨h.sigma isLowered noSlash, h.mark isLowered noSlash, h.pair isLowered noSlash⟩

end

end StaticSite.Text
