import StaticSite.Text.Case
import StaticSite.Text.Split

/-!
# Patterns

A pattern is a list of items, each of which stands for some characters. `segmentItems` reads the pattern
of one segment: `*` any text, `?` one character, `[…]` one of a class, `[!…]` one outside it. A bracket
that is not closed is plain.
-/

namespace StaticSite.Glob

/-- Ranges of characters, or with `negated` all others. -/
structure CharClass where
  negated : Bool
  ranges : List (Char × Char)
  deriving DecidableEq, Repr

inductive CharSet where
  | any
  | except (c : Char)
  | only (c : Char)
  | oneOf (cls : CharClass)
  deriving DecidableEq, Repr

inductive Item where
  | one (set : CharSet)
  | many (set : CharSet)
  /-- Nothing, or something that ends with the separator. -/
  | folders (separator : Char)
  deriving DecidableEq, Repr

/-! ## Matching -/

namespace CharSet

def holds (inRange : Char → Char × Char → Bool) (same : Char → Char → Bool) (c : Char) :
    CharSet → Bool
  | .any => true
  | .except d => c ≠ d
  | .only d => same d c
  | .oneOf cls => cls.ranges.any (inRange c) != cls.negated

def accepts (set : CharSet) (c : Char) : Bool :=
  set.holds (fun c (lo, hi) => lo ≤ c && c ≤ hi) (· == ·) c

/-- As `accepts`, but without regard to case. -/
def acceptsCaseless (set : CharSet) (c : Char) : Bool :=
  set.holds (fun c (lo, hi) => (Text.caselessVariants c).any fun n => lo.toNat ≤ n && n ≤ hi.toNat)
    Text.caselessEq c

end CharSet

/-- The text and its ends after one, two, … characters, as long as these satisfy `p`. -/
def restsWhile (p : Char → Bool) : List Char → List (List Char)
  | [] => [[]]
  | c :: cs => (c :: cs) :: if p c then restsWhile p cs else []

/-- The ends of a text that begin after a separator. -/
def restsAfter (separator : Char) : List Char → List (List Char)
  | [] => []
  | c :: cs => (if c = separator then [cs] else []) ++ restsAfter separator cs

/-- The items stand for the whole text. -/
def matchItems (accepts : CharSet → Char → Bool) : List Item → List Char → Bool
  | [], cs => cs.isEmpty
  | .one set :: items, c :: cs => accepts set c && matchItems accepts items cs
  | .one _ :: _, [] => false
  | .many set :: items, cs =>
    (restsWhile (accepts set) cs).any fun rest => matchItems accepts items rest
  | .folders separator :: items, cs =>
    matchItems accepts items cs ||
      (restsAfter separator (cs.drop 1)).any fun rest => matchItems accepts items rest

/-! ## Reading a segment -/

/-- A character at the beginning, if it is there, and the rest. -/
def cutLead (lead : Char) : List Char → List Char × List Char
  | [] => ([], [])
  | c :: cs => if c = lead then ([c], cs) else ([], c :: cs)

/-- The text in brackets and what follows them; a bracket that comes first belongs to the text. -/
def bracketBody (cs : List Char) : Option (List Char × List Char) :=
  let bang := cutLead '!' cs
  let bracket := cutLead ']' bang.2
  let body := Text.cut ']' bracket.2
  body.2.map fun after => (bang.1 ++ bracket.1 ++ body.1, after)

/-- The parts of a class between the hyphens that make a range. `lead` characters stand before the first
of these hyphens at least, two between any others, and one after the last. -/
def rangeParts : Nat → List Char → List (List Char)
  | _, [] => [[]]
  | 0, '-' :: c :: cs => [] :: rangeParts 2 (c :: cs)
  | lead, c :: cs => match rangeParts (lead - 1) cs with
    | [] => [[c]]
    | part :: rest => (c :: part) :: rest

/-- The parts, where those on both sides of a range that holds nothing are one, without its ends. -/
def withoutEmptyRanges : List (List Char) → List (List Char)
  | [] => []
  | part :: rest => match withoutEmptyRanges rest with
    | [] => [part]
    | next :: more => match part.getLast?, next.head? with
      | some lo, some hi =>
        if hi < lo then (part.dropLast ++ next.tail) :: more else part :: next :: more
      | _, _ => part :: next :: more

/-- A character of a class, or none for a hyphen that makes a range. -/
abbrev Mark := Option Char

def marks : List (List Char) → List Mark
  | [] => []
  | [part] => part.map some
  | part :: rest => part.map some ++ none :: marks rest

/-- The ranges of some marks; a hyphen that has lost its range is plain. -/
def ranges : List Mark → List (Char × Char)
  | some lo :: none :: some hi :: rest => (lo, hi) :: ranges rest
  | some c :: rest => (c, c) :: ranges rest
  | none :: rest => ('-', '-') :: ranges rest
  | [] => []

/-- The class written as `body`. Empty ranges go first, so they may bring a `!` to the front. -/
def charClass (body : List Char) : CharClass :=
  let lead := if body.head? = some '!' then 2 else 1
  match marks (withoutEmptyRanges (rangeParts lead body)) with
  | some '!' :: rest => ⟨true, ranges rest⟩
  | all => ⟨false, ranges all⟩

theorem length_cutLead (lead : Char) (cs : List Char) : (cutLead lead cs).2.length ≤ cs.length := by
  cases cs with
  | nil => simp [cutLead]
  | cons c cs => by_cases h : c = lead <;> simp [cutLead, h]

theorem length_of_bracketBody {cs body rest : List Char} (h : bracketBody cs = some (body, rest)) :
    rest.length < cs.length := by
  obtain ⟨after, ha, he⟩ := Option.map_eq_some_iff.1 h
  have hr : after = rest := congrArg Prod.snd he
  subst hr
  have hc := congrArg List.length (Text.eq_of_cut ha)
  have h1 := length_cutLead '!' cs
  have h2 := length_cutLead ']' (cutLead '!' cs).2
  simp only [List.length_append, List.length_cons] at hc
  omega

/-- The items of a segment pattern; `one` is what `*` and `?` stand for. -/
def segmentItems (one : CharSet) (cs : List Char) : List Item :=
  match cs with
  | [] => []
  | '*' :: rest => .many one :: segmentItems one rest
  | '?' :: rest => .one one :: segmentItems one rest
  | '[' :: rest =>
    match _h : bracketBody rest with
    | some (body, after) => .one (.oneOf (charClass body)) :: segmentItems one after
    | none => .one (.only '[') :: segmentItems one rest
  | c :: rest => .one (.only c) :: segmentItems one rest
  termination_by cs.length
  decreasing_by
    · simp
    · simp
    · have := length_of_bracketBody _h
      simp only [List.length_cons]; omega
    · simp
    · simp

end StaticSite.Glob
