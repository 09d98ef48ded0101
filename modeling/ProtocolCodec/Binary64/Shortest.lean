import ProtocolCodec.Binary64.Basic
import ProtocolCodec.Text.Decimal

/-!
# The shortest decimal that reads back

The reals that round to a number form an interval around it. `shortest` looks for the coarsest
decimal grid with a point in that interval, and of two such points takes the nearer, the even one
when both are equally near.
-/

namespace ProtocolCodec

/-- A positive decimal: `digits * 10 ^ exponent`. -/
structure Decimal where
  digits : Nat
  exponent : Int
deriving DecidableEq, Repr

namespace Finite

/-- The interval of reals that round to a positive number, in quarters of a unit. -/
structure Interval where
  lower : Nat
  value : Nat
  upper : Nat
  closed : Bool
deriving Repr

/-- The rounding interval of a number. Below a power of two the neighbour is nearer. -/
def interval (x : Finite) : Interval where
  value := 4 * x.units
  upper := 4 * x.units + (2 <<< x.exponent)
  lower :=
    if x.mantissa = 0x10000000000000 ∧ 0 < x.exponent then 4 * x.units - (1 <<< x.exponent)
    else 4 * x.units - (2 <<< x.exponent)
  closed := x.mantissa % 2 = 0

/-- A common denominator for quarter units and a decimal grid: a quarter unit becomes `quarter`, a
step of the grid `step`. -/
structure Grid where
  quarter : Nat
  step : Nat
deriving Repr

/-- The grid of the multiples of `10 ^ exponent`. -/
def grid (exponent : Int) : Grid where
  quarter := Nat.pow 10 (-exponent).toNat
  step := (Nat.pow 10 exponent.toNat) <<< (unitBits + 2)

namespace Interval

/-- Whether the grid point with this index lies in the interval. -/
def holds (i : Interval) (g : Grid) (index : Nat) : Bool :=
  let point := index * g.step
  if i.closed then i.lower * g.quarter ≤ point && point ≤ i.upper * g.quarter
  else i.lower * g.quarter < point && point < i.upper * g.quarter

/-- The index of the best grid point of the interval, if it has one. -/
def best? (i : Interval) (g : Grid) : Option Nat :=
  let target := i.value * g.quarter
  let below := target / g.step
  let down := target - below * g.step
  let up := (below + 1) * g.step - target
  match i.holds g below, i.holds g (below + 1) with
  | true, true => some (if down < up ∨ (down = up ∧ below % 2 = 0) then below else below + 1)
  | true, false => some below
  | false, true => some (below + 1)
  | false, false => none

end Interval

/-- The exponent of the leading decimal digit: the greatest `e` with `10 ^ e` at most the number,
looked for from an estimate at most two too small. -/
def leadingExponent (x : Finite) : Int :=
  let estimate : Int := ((x.units.log2 : Int) - unitBits) * 30103 / 100000 - 1
  let atMost (e : Int) : Bool :=
    let g := grid e
    g.step ≤ 4 * x.units * g.quarter
  if atMost (estimate + 2) then estimate + 2
  else if atMost (estimate + 1) then estimate + 1
  else estimate

/-- Look for the shortest decimal among those with a last digit at `exponent` and finer. -/
def search (i : Interval) : Nat → Int → Decimal
  | 0, exponent => ⟨i.value, exponent⟩
  | fuel + 1, exponent =>
      match i.best? (grid exponent) with
      | some digits => ⟨digits, exponent⟩
      | none => search i fuel (exponent - 1)

/-- The shortest decimal that rounds to a positive number, and the nearest of those. Seventeen
digits always suffice. -/
def shortest (x : Finite) : Decimal :=
  search x.interval 17 x.leadingExponent

end Finite

end ProtocolCodec
