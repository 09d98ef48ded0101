import ProtocolCodec.Binary64.Shortest

/-!
# Writing binary64 numbers

A number is written with its shortest digits, positionally when its leading exponent lies in a
given range and with an exponent otherwise.
-/

namespace ProtocolCodec

/-- Where positional notation begins and ends: leading exponents from `least` up to but not
including `limit`. -/
structure Layout where
  least : Int
  limit : Int

namespace Layout

/-- Documents write hundred-thousandths to just below ten quadrillion positionally. -/
def document : Layout := ⟨-5, 16⟩

/-- Drop the zeros at the end of a numeral, keeping one digit. -/
def dropZeros : List Char → List Char
  | [] => []
  | [c] => [c]
  | c :: rest =>
      match dropZeros rest with
      | ['0'] => [c]
      | kept => c :: kept

/-- Positional notation of a numeral whose first digit has the exponent `leading`; there is always a
digit after the point. -/
def positional (digits : List Char) (leading : Int) : List Char :=
  if leading < 0 then
    ['0', '.'] ++ List.replicate ((-leading).toNat - 1) '0' ++ digits
  else
    let whole := leading.toNat + 1
    let fraction := digits.drop whole
    digits.take whole ++ List.replicate (whole - digits.length) '0' ++ ['.'] ++
      (if fraction.isEmpty then ['0'] else fraction)

/-- Exponent notation: one digit before the point, no point without a fraction, a signed
exponent. -/
def scientific (digits : List Char) (leading : Int) : List Char :=
  let fraction := digits.drop 1
  digits.take 1 ++ (if fraction.isEmpty then [] else '.' :: fraction) ++
    ['e', if leading < 0 then '-' else '+'] ++ Text.decimalNat leading.natAbs

/-- The text of a positive decimal. -/
def decimal (layout : Layout) (d : Decimal) : List Char :=
  let numeral := Text.decimalNat d.digits
  let leading : Int := d.exponent + numeral.length - 1
  let digits := dropZeros numeral
  if layout.least ≤ leading ∧ leading < layout.limit then positional digits leading
  else scientific digits leading

/-- The text of a finite number. -/
def finite (layout : Layout) (x : Finite) : List Char :=
  let magnitude := if x.isZero then ['0', '.', '0'] else layout.decimal x.shortest
  if x.negative then '-' :: magnitude else magnitude

end Layout

end ProtocolCodec
