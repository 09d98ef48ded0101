/-!
# Binary64 numbers

A finite number is a signed mantissa times a power of two, kept in its only normal form. Its
magnitude is a whole number of units of `2 ^ -1074`, so arithmetic is exact on natural numbers
followed by one rounding to the nearest number, ties to the even mantissa.
-/

namespace ProtocolCodec

/-- A finite binary64 number: `mantissa * 2 ^ exponent` units of `2 ^ -1074`, with a sign. Zero
keeps its sign. The mantissa is below `2 ^ 53`, and at least `2 ^ 52` unless the exponent is
zero. -/
structure Finite where
  negative : Bool
  mantissa : Nat
  exponent : Nat
  mantissa_lt : mantissa < 0x20000000000000
  normal : exponent = 0 ∨ 0x10000000000000 ≤ mantissa
  exponent_le : exponent ≤ 2045
deriving DecidableEq, Repr

/-- A binary64 number. -/
inductive Binary64 where
  | finite (value : Finite)
  | infinite (negative : Bool)
  | notANumber
deriving DecidableEq, Repr

namespace Finite

/-- Positive zero. -/
def zero : Finite :=
  ⟨false, 0, 0, by decide, by decide, by decide⟩

instance : Inhabited Finite := ⟨zero⟩

/-- The binary digits after the point in the unit of measure. -/
def unitBits : Nat := 1074

/-- The magnitude in units of `2 ^ -1074`. -/
def units (x : Finite) : Nat :=
  x.mantissa <<< x.exponent

/-- The number with the opposite sign. -/
def neg (x : Finite) : Finite :=
  { x with negative := !x.negative }

/-- Whether the number is a zero of either sign. -/
def isZero (x : Finite) : Bool :=
  x.mantissa == 0

/-- The number rounded toward zero. -/
def truncate (x : Finite) : Int :=
  let magnitude : Int := (x.units >>> unitBits : Nat)
  if x.negative then -magnitude else magnitude

end Finite

namespace Binary64

/-- The quotient of natural numbers rounded to the nearest, a half to the even neighbour. -/
def divideToEven (num den : Nat) : Nat :=
  let quotient := num / den
  let twice := 2 * (num % den)
  if twice < den ∨ (twice = den ∧ quotient % 2 = 0) then quotient else quotient + 1

/-- The number with this mantissa and exponent, or an infinity when the exponent is too large. -/
def ofParts (negative : Bool) (mantissa exponent : Nat) : Binary64 :=
  if h : mantissa < 0x20000000000000 ∧ (exponent = 0 ∨ 0x10000000000000 ≤ mantissa) ∧
      exponent ≤ 2045 then
    .finite ⟨negative, mantissa, exponent, h.1, h.2.1, h.2.2⟩
  else .infinite negative

/-- The binary64 number nearest to `num / den`. -/
def round (negative : Bool) (num den : Nat) : Binary64 :=
  let scaled := num <<< Finite.unitBits
  let exponent := (scaled / den).log2 - 52
  let mantissa := divideToEven scaled (den <<< exponent)
  if mantissa = 0x20000000000000 then ofParts negative 0x10000000000000 (exponent + 1)
  else ofParts negative mantissa exponent

/-- The number nearest to an integer. -/
def ofInt (n : Int) : Binary64 :=
  round (n < 0) n.natAbs 1

/-- The number nearest to a power of ten. -/
def powerOfTen (exponent : Nat) : Binary64 :=
  round false (Nat.pow 10 exponent) 1

end Binary64

namespace Finite

/-- The rounded product. -/
def mul (x y : Finite) : Binary64 :=
  .round (x.negative != y.negative) (x.units * y.units) (1 <<< (2 * unitBits))

/-- The rounded quotient; the divisor is not a zero. -/
def div (x y : Finite) : Binary64 :=
  .round (x.negative != y.negative) x.units y.units

end Finite

namespace Binary64

/-- The finite number, if it is one. -/
def toFinite? : Binary64 → Option Finite
  | .finite value => some value
  | _ => none

end Binary64

end ProtocolCodec
