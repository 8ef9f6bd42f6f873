import StaticSite.Number.Binary64

/-!
# Decimal text

`shortest?` finds the fewest decimal digits that read back as a number, and of those the nearest to
it. `Binary64.text` lays them out: positional from `1e-4` up to `1e16`, with an exponent of at least
two digits beyond.
-/

namespace StaticSite

/-- The decimal `0.d₁d₂… * 10 ^ point`. -/
structure Decimal where
  digits : List Char
  point : Int
  deriving DecidableEq, Repr

namespace Decimal

def zeros (n : Nat) : List Char := List.replicate n '0'

/-- Drops zeros at the end. -/
def trimZeros (ds : List Char) : List Char := (ds.reverse.dropWhile (· == '0')).reverse

/-- A grid of the decimals `c * 10 ^ k`, with a number and the bounds of what rounds to it scaled to
common integers. -/
structure Grid where
  value : Nat
  below : Nat
  above : Nat
  unit : Nat
  closed : Bool

/-- The grid at `10 ^ k` for `m * 2 ^ q`; four times the number, so that a quarter of the last place
is whole. -/
def Grid.mk' (m : Nat) (q k : Int) : Grid :=
  let scale := Nat.pow 2 q.toNat * Nat.pow 10 (-k).toNat
  { value := 4 * m * scale
    below := (if m = Nat.pow 2 52 ∧ q > -1074 then 1 else 2) * scale
    above := 2 * scale
    unit := 4 * Nat.pow 2 (-q).toNat * Nat.pow 10 k.toNat
    closed := m % 2 == 0 }

/-- `c` on the grid rounds to the number. -/
def Grid.hits (g : Grid) (c : Nat) : Bool :=
  let x := c * g.unit
  if g.closed then g.value ≤ x + g.below && x ≤ g.value + g.above
  else g.value < x + g.below && x < g.value + g.above

/-- The neighbour of the number on the grid that rounds to it, the nearer of two. -/
def Grid.nearest? (g : Grid) : Option Nat :=
  let c := g.value / g.unit
  let down := g.value - c * g.unit
  let up := (c + 1) * g.unit - g.value
  let first := if down < up ∨ (down = up ∧ c % 2 = 0) then c else c + 1
  let second := if first = c then c + 1 else c
  if g.hits first then some first else if g.hits second then some second else none

/-- `10 ^ e ≤ m * 2 ^ q`. -/
def atLeast (m : Nat) (q e : Int) : Bool :=
  Nat.pow 10 e.toNat * Nat.pow 2 (-q).toNat ≤ m * Nat.pow 2 q.toNat * Nat.pow 10 (-e).toNat

/-- The exponent of the first digit, by search from an estimate. -/
def leading (m : Nat) (q : Int) : Int :=
  let estimate : Int := ((Nat.log2 m : Int) + q) * 1233 / 4096
  if atLeast m q (estimate + 1) then estimate + 1
  else if atLeast m q estimate then estimate
  else estimate - 1

/-- The first grid, from coarse to fine, with a hit. -/
def search (m : Nat) (q e : Int) : Nat → Nat → Decimal
  | 0, _ => ⟨[], 0⟩
  | fuel + 1, n =>
    let k := e - n + 1
    match (Grid.mk' m q k).nearest? with
    | some c =>
      let ds := (Nat.toDigits 10 c)
      ⟨trimZeros ds, (ds.length : Int) + k⟩
    | none => search m q e fuel (n + 1)

/-- The shortest decimal that reads back as `m * 2 ^ q`. -/
def shortest (m : Nat) (q : Int) : Decimal := search m q (leading m q) 18 1

/-- Positional notation with at least one digit on each side of the point. -/
def positional (d : Decimal) : List Char :=
  if d.point ≤ 0 then '0' :: '.' :: zeros (-d.point).toNat ++ d.digits
  else
    let n := d.point.toNat
    if d.digits.length ≤ n then d.digits ++ zeros (n - d.digits.length) ++ ['.', '0']
    else d.digits.take n ++ '.' :: d.digits.drop n

/-- One digit before the point, and an exponent with its sign and at least two digits. -/
def scientific (d : Decimal) : List Char :=
  let e := d.point - 1
  let es := Nat.toDigits 10 e.natAbs
  d.digits.take 1 ++ (if d.digits.length ≤ 1 then [] else '.' :: d.digits.drop 1) ++
    'e' :: (if e < 0 then '-' else '+') :: (if es.length < 2 then '0' :: es else es)

def text (d : Decimal) : List Char :=
  if d.point > -4 ∧ d.point ≤ 16 then d.positional else d.scientific

end Decimal

namespace Binary64

def text (x : Binary64) : String :=
  if x.isNan then "nan"
  else
    let magnitude := match x.magnitude? with
      | none => "inf".toList
      | some (0, _) => "0.0".toList
      | some (m, q) => (Decimal.shortest m q).text
    String.ofList (if x.isNegative then '-' :: magnitude else magnitude)

end Binary64

end StaticSite
