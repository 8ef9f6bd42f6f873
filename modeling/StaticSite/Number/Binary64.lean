/-!
# Double precision numbers

A number is kept as its 64 bits, so that two numbers are equal when they are the same. `ofRatio`
rounds a quotient to the nearest number, ties to even; `magnitude?` reads a finite number back as
`m * 2 ^ q`. Arithmetic is that of the machine.
-/

namespace StaticSite

structure Binary64 where
  bits : UInt64
  deriving DecidableEq, Repr

namespace Binary64

def ofFloat (x : Float) : Binary64 := ⟨x.toBits⟩

def toFloat (x : Binary64) : Float := Float.ofBits x.bits

def signBit : Nat := Nat.pow 2 63

/-- The bits of infinity. -/
def infinityBits : Nat := 0x7ff * Nat.pow 2 52

def ofBits (negative : Bool) (magnitude : Nat) : Binary64 :=
  ⟨UInt64.ofNat (magnitude + if negative then signBit else 0)⟩

def zero : Binary64 := ofBits false 0

def infinity (negative : Bool) : Binary64 := ofBits negative infinityBits

def nan : Binary64 := ofBits false (infinityBits + Nat.pow 2 51)

def isNegative (x : Binary64) : Bool := signBit ≤ x.bits.toNat

def magnitudeBits (x : Binary64) : Nat := x.bits.toNat % signBit

def isNan (x : Binary64) : Bool := infinityBits < x.magnitudeBits

def isInfinite (x : Binary64) : Bool := x.magnitudeBits == infinityBits

def isZero (x : Binary64) : Bool := x.magnitudeBits == 0

/-- `(m, q)` with absolute value `m * 2 ^ q`; none for infinities and NaN. -/
def magnitude? (x : Binary64) : Option (Nat × Int) :=
  let exponent : Nat := x.magnitudeBits / Nat.pow 2 52
  let fraction : Nat := x.magnitudeBits % Nat.pow 2 52
  if exponent = 0x7ff then none
  else if exponent = 0 then some (fraction, -1074)
  else some (fraction + Nat.pow 2 52, (exponent : Int) - 1075)

/-- `num / den` rounded to the nearest integer, a tie to the even one. -/
def roundQuotient (num den : Nat) : Nat :=
  let q := num / den
  let r := 2 * (num % den)
  if r < den then q else if r > den then q + 1 else q + q % 2

/-- `num / (den * 2 ^ e)` as a quotient of natural numbers. -/
def scaleDown (num den : Nat) (e : Int) : Nat × Nat :=
  if e ≥ 0 then (num, den * Nat.pow 2 e.toNat) else (num * Nat.pow 2 (-e).toNat, den)

/-- The number nearest to `num / den`, infinity beyond the greatest finite one. -/
def ofRatio (negative : Bool) (num den : Nat) : Binary64 :=
  if num = 0 then ofBits negative 0
  else
    let e := max ((Nat.log2 num : Int) - Nat.log2 den - 53) (-1074)
    let (n, d) := scaleDown num den e
    let e := if n / d ≥ Nat.pow 2 53 then e + 1 else e
    let (n, d) := scaleDown num den e
    let magnitude := (e + 1074).toNat * Nat.pow 2 52 + roundQuotient n d
    ofBits negative (min magnitude infinityBits)

def ofInt (n : Int) : Binary64 := ofRatio (n < 0) n.natAbs 1

/-- `digits * 10 ^ exponent`, rounded. -/
def ofDecimal (negative : Bool) (digits : Nat) (exponent : Int) : Binary64 :=
  let size : Int := Nat.log2 digits / 3 + 1
  if digits = 0 ∨ exponent + size < -400 then ofBits negative 0
  else if exponent > 400 then infinity negative
  else if exponent ≥ 0 then ofRatio negative (digits * Nat.pow 10 exponent.toNat) 1
  else ofRatio negative digits (Nat.pow 10 (-exponent).toNat)

/-- The integer part, none for infinities and NaN. -/
def truncate? (x : Binary64) : Option Int :=
  x.magnitude?.map fun (m, q) =>
    let n : Nat := if q ≥ 0 then m * Nat.pow 2 q.toNat else m / Nat.pow 2 (-q).toNat
    if x.isNegative then -n else n

/-- Comparison with an integer, none for NaN. -/
def compareInt? (x : Binary64) (n : Int) : Option Ordering :=
  if x.isNan then none
  else match x.magnitude? with
    | none => some (if x.isNegative then .lt else .gt)
    | some (m, q) =>
      let signed : Int := if x.isNegative then -m else m
      if q ≥ 0 then some (compare (signed * Nat.pow 2 q.toNat) n)
      else some (compare signed (n * Nat.pow 2 (-q).toNat))

/-- The place of a number among all: numbers other than NaN are in the order of their ranks, and both zeros have
rank zero. -/
def rank (x : Binary64) : Int := if x.isNegative then -(x.magnitudeBits : Int) else x.magnitudeBits

/-- Comparison of two numbers, none if one is NaN. -/
def compare? (x y : Binary64) : Option Ordering :=
  if x.isNan || y.isNan then none else some (compare x.rank y.rank)

/-! ## Arithmetic -/

def neg (x : Binary64) : Binary64 := ofBits (!x.isNegative) x.magnitudeBits

def add (x y : Binary64) : Binary64 := ofFloat (x.toFloat + y.toFloat)

def sub (x y : Binary64) : Binary64 := ofFloat (x.toFloat - y.toFloat)

def mul (x y : Binary64) : Binary64 := ofFloat (x.toFloat * y.toFloat)

def div (x y : Binary64) : Binary64 := ofFloat (x.toFloat / y.toFloat)

end Binary64

end StaticSite
