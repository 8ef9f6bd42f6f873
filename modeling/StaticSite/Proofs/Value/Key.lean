import Mathlib.Algebra.Ring.Int.Defs
import Mathlib.Algebra.Ring.Nat
import StaticSite.Value.Basic

/-!
# Keys of maps

Values are compared as keys by `Value.sameKey`, which looks at numbers of several kinds. `Value.key?` gives each scalar
a normal form, so that two scalars are one key exactly if they have one normal form (`sameKey_iff`).
-/

namespace StaticSite

/-! ## Numbers -/

/-- The normal form of a number: its size in units of the least number that is there, or the side of an infinity. A NaN
is equal to itself alone. -/
inductive Amount where
  | units (n : Int)
  | infinite (isNegative : Bool)
  | nan (x : Binary64)
  deriving DecidableEq

namespace Binary64

variable {x y : Binary64}

def exponent (x : Binary64) : Nat := x.magnitudeBits / 2 ^ 52

def fraction (x : Binary64) : Nat := x.magnitudeBits % 2 ^ 52

/-- The size of a finite number in units of the least one. -/
def units (x : Binary64) : Nat :=
  if x.exponent = 0 then x.fraction else (x.fraction + 2 ^ 52) * 2 ^ (x.exponent - 1)

theorem fraction_lt (x : Binary64) : x.fraction < 2 ^ 52 := Nat.mod_lt _ (Nat.two_pow_pos 52)

theorem magnitudeBits_eq (x : Binary64) : x.magnitudeBits = 2 ^ 52 * x.exponent + x.fraction :=
  (Nat.div_add_mod ..).symm

theorem units_eq_zero_iff : x.units = 0 ↔ x.magnitudeBits = 0 := by
  rw [units, magnitudeBits_eq]
  split
  · omega
  · have : 0 < (x.fraction + 2 ^ 52) * 2 ^ (x.exponent - 1) :=
      Nat.mul_pos (by omega) (Nat.two_pow_pos _)
    omega

theorem units_lt (h : x.exponent < y.exponent) : x.units < y.units := by
  have below : x.units < 2 ^ 52 * 2 ^ x.exponent := by
    have := x.fraction_lt
    rw [units]
    split
    · next he => simpa [he] using this
    · next he =>
      have step : 2 ^ x.exponent = 2 * 2 ^ (x.exponent - 1) := by
        rw [← Nat.pow_succ']
        congr 1
        omega
      rw [step, ← Nat.mul_assoc]
      exact Nat.mul_lt_mul_of_pos_right (by omega) (Nat.two_pow_pos _)
  have above : 2 ^ 52 * 2 ^ (y.exponent - 1) ≤ y.units := by
    rw [units, if_neg (by omega)]
    exact Nat.mul_le_mul_right _ (by omega)
  have grows : 2 ^ x.exponent ≤ 2 ^ (y.exponent - 1) := Nat.pow_le_pow_right (by omega) (by omega)
  exact Nat.lt_of_lt_of_le below (Nat.le_trans (Nat.mul_le_mul_left _ grows) above)

/-- Numbers of one size have the same bits but for the sign. -/
theorem units_inj : x.units = y.units ↔ x.magnitudeBits = y.magnitudeBits := by
  refine ⟨fun h => ?_, fun h => by simp [units, exponent, fraction, h]⟩
  have exponents : x.exponent = y.exponent := by
    rcases Nat.lt_trichotomy x.exponent y.exponent with hl | he | hl
    · exact absurd h (Nat.ne_of_lt (units_lt hl))
    · exact he
    · exact absurd h.symm (Nat.ne_of_lt (units_lt hl))
  have fractions : x.fraction = y.fraction := by
    rw [units, units, exponents] at h
    split at h
    · exact h
    · exact Nat.add_right_cancel (Nat.eq_of_mul_eq_mul_right (Nat.two_pow_pos _) h)
  rw [magnitudeBits_eq, magnitudeBits_eq, exponents, fractions]

def amount (x : Binary64) : Amount :=
  if x.isNan then .nan x
  else if x.isInfinite then .infinite x.isNegative
  else .units (if x.isNegative then -(x.units : Int) else x.units)

theorem rank_eq_iff : x.rank = y.rank ↔
    x.magnitudeBits = y.magnitudeBits ∧ (x.isNegative = y.isNegative ∨ x.magnitudeBits = 0) := by
  unfold rank
  cases x.isNegative <;> cases y.isNegative <;> simp <;> omega

theorem compare?_eq_iff : x.compare? y = some .eq ↔ x.isNan = false ∧ x.amount = y.amount := by
  unfold compare? amount
  cases hx : x.isNan with
  | true => simp
  | false => cases hy : y.isNan with
    | true => cases x.isInfinite <;> simp
    | false =>
      simp only [Bool.or_self, Bool.false_eq_true, if_false, true_and]
      rw [Option.some.injEq, Std.compare_eq_iff_eq, rank_eq_iff]
      have ux := x.units_eq_zero_iff
      have uy := y.units_eq_zero_iff
      have inj := units_inj (x := x) (y := y)
      have infinity : infinityBits ≠ 0 := by decide
      cases ix : x.isInfinite <;> cases iy : y.isInfinite <;>
        simp only [isInfinite, beq_iff_eq, beq_eq_false_iff_ne] at ix iy
      · cases x.isNegative <;> cases y.isNegative <;> simp <;> omega
      · simp
        omega
      · simp
        omega
      · simp [ix, iy, infinity]

/-- Numbers are one key exactly if they have one normal form. -/
theorem amount_eq_iff : x.amount = y.amount ↔ x.compare? y = some .eq ∨ x = y := by
  refine ⟨fun h => ?_, fun h => h.elim (fun h => (compare?_eq_iff.1 h).2) (congrArg amount)⟩
  cases hx : x.isNan with
  | false => exact .inl (compare?_eq_iff.2 ⟨hx, h⟩)
  | true =>
    right
    rw [amount, if_pos hx, amount] at h
    split at h
    · exact Amount.nan.inj h
    · split at h <;> cases h

/-- How a number is read back: an infinity not at all, and a finite one with its size. -/
theorem magnitude?_cases (h : x.isNan = false) : (x.isInfinite = true ∧ x.magnitude? = none) ∨
    x.isInfinite = false ∧ ∃ m q, x.magnitude? = some (m, q) ∧ -1074 ≤ q ∧ x.units = m * 2 ^ (q + 1074).toNat := by
  have infinity : infinityBits = 0x7ff * 2 ^ 52 := rfl
  have parts := x.magnitudeBits_eq
  have short := x.fraction_lt
  simp only [isNan, infinity, decide_eq_false_iff_not] at h
  have read : x.magnitude? = if x.exponent = 0x7ff then none
      else if x.exponent = 0 then some (x.fraction, -1074)
      else some (x.fraction + 2 ^ 52, (x.exponent : Int) - 1075) := rfl
  rw [read]
  by_cases he : x.exponent = 0x7ff
  · exact .inl ⟨by simp [isInfinite, infinity]; omega, if_pos he⟩
  · refine .inr ⟨by simp [isInfinite, infinity]; omega, ?_⟩
    rw [if_neg he, units]
    by_cases hz : x.exponent = 0
    · exact ⟨x.fraction, -1074, by simp [hz], by omega, by simp [hz]⟩
    · refine ⟨_, _, if_neg hz, by omega, ?_⟩
      rw [if_neg hz]
      congr 2
      omega

theorem natCast_pow_two (k : Nat) : ((Nat.pow 2 k : Nat) : Int) = 2 ^ k := Int.natCast_pow 2 k

theorem pow_two_ne_zero (k : Nat) : (2 : Int) ^ k ≠ 0 := Int.pow_ne_zero (by decide)

/-- One in units of the least number. -/
def one : Int := 2 ^ 1074

theorem compareInt?_eq_iff {n : Int} : x.compareInt? n = some .eq ↔ x.amount = .units (n * one) := by
  unfold compareInt? amount
  cases hx : x.isNan with
  | true => simp
  | false =>
    rcases magnitude?_cases hx with ⟨hi, hm⟩ | ⟨hi, m, q, hm, hq, hu⟩
    · cases x.isNegative <;> simp [hi, hm]
    · simp only [hi, hm, hu, Bool.false_eq_true, if_false]
      have signed : (if x.isNegative = true then -((m * 2 ^ (q + 1074).toNat : Nat) : Int)
          else ((m * 2 ^ (q + 1074).toNat : Nat) : Int)) =
          (if x.isNegative = true then -(m : Int) else m) * 2 ^ (q + 1074).toNat := by
        cases x.isNegative with
        | false => exact Int.natCast_mul ..
        | true => exact (congrArg Neg.neg (Int.natCast_mul ..)).trans (Int.neg_mul ..).symm
      rw [signed]
      generalize (if x.isNegative = true then -(m : Int) else m) = s
      simp only [Amount.units.injEq, one]
      split
      · next hpos =>
        have shift : (q + 1074).toNat = q.toNat + 1074 := by omega
        rw [Option.some.injEq, Std.compare_eq_iff_eq, shift, Int.pow_add, ← Int.mul_assoc, natCast_pow_two,
          Int.mul_eq_mul_right_iff (pow_two_ne_zero 1074)]
      · next hneg =>
        have shift : 1074 = (-q).toNat + (q + 1074).toNat := by omega
        have split : (2 : Int) ^ 1074 = 2 ^ (-q).toNat * 2 ^ (q + 1074).toNat := by
          rw [← Int.pow_add, ← shift]
        rw [Option.some.injEq, Std.compare_eq_iff_eq, natCast_pow_two, split, ← Int.mul_assoc,
          Int.mul_eq_mul_right_iff (pow_two_ne_zero _)]

end Binary64

namespace Value

variable {a b : Value}

def Numeric.amount : Numeric → Amount
  | .int n => .units (n * Binary64.one)
  | .float x => x.amount

theorem mul_one_inj {m n : Int} : m * Binary64.one = n * Binary64.one ↔ m = n :=
  Int.mul_eq_mul_right_iff (Binary64.pow_two_ne_zero 1074)

theorem Numeric.compare?_swap_eq_iff {n : Int} {x : Binary64} :
    (Numeric.int n).compare? (.float x) = some .eq ↔ (Numeric.float x).compare? (.int n) = some .eq := by
  simp only [compare?]
  cases x.compareInt? n with
  | none => simp
  | some o => cases o <;> simp

/-- An integer is compared by its normal form, on either side. -/
theorem Numeric.compare?_int_eq_iff {n : Int} {b : Numeric} :
    (Numeric.int n).compare? b = some .eq ↔ (Numeric.int n).amount = b.amount := by
  cases b with
  | int m => simp only [compare?, amount, Option.some.injEq, Std.compare_eq_iff_eq, Amount.units.injEq, mul_one_inj]
  | float y =>
    rw [compare?_swap_eq_iff]
    exact Binary64.compareInt?_eq_iff.trans eq_comm

theorem Numeric.compare?_eq_int_iff {n : Int} {x : Binary64} :
    (Numeric.float x).compare? (.int n) = some .eq ↔ (Numeric.float x).amount = (Numeric.int n).amount := by
  rw [← compare?_swap_eq_iff, compare?_int_eq_iff, eq_comm]

theorem Numeric.compare?_float_eq_iff {x y : Binary64} : ((Numeric.float x).compare? (.float y) = some .eq ∨ x = y) ↔
    (Numeric.float x).amount = (Numeric.float y).amount :=
  Binary64.amount_eq_iff.symm

/-! ## Normal forms -/

/-- The normal form of a scalar. -/
inductive Key where
  | null
  | number (amount : Amount)
  | text (s : String)
  | bytes (bs : List UInt8)
  | date (d : Date)
  | moment (isLocal : Bool) (instant : Int)
  deriving DecidableEq

/-- The normal form of a value that is a scalar, as every key of a map is. -/
def key? : Value → Option Key
  | .null => some .null
  | .bool b => some (.number (Numeric.int (if b then 1 else 0)).amount)
  | .int n => some (.number (Numeric.int n).amount)
  | .float x => some (.number (Numeric.float x).amount)
  | .text s => some (.text s)
  | .bytes bs => some (.bytes bs)
  | .date d => some (.date d)
  | .moment t => some (.moment t.offset.isNone t.instant)
  | _ => none

theorem sameInstant_iff {s t : Moment} :
    s.sameInstant t = true ↔ s.offset.isNone = t.offset.isNone ∧ s.instant = t.instant := by
  cases hs : s.offset <;> cases ht : t.offset <;> simp [Moment.sameInstant, hs, ht]

/-- Two values of which one is a scalar are one key exactly if both are scalars with one normal form. -/
theorem sameKey_iff (h : a.key?.isSome ∨ b.key?.isSome) : a.sameKey b = true ↔ a.key? = b.key? := by
  cases a <;> cases b <;> simp_all [sameKey, Value.eq, key?, numeric?, Numeric.compare?_int_eq_iff,
    Numeric.compare?_eq_int_iff, Numeric.compare?_float_eq_iff, sameInstant_iff]

end Value

end StaticSite
