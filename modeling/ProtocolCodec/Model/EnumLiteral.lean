import ProtocolCodec.Model.Basic
import ProtocolCodec.Text.Decimal

/-!
# The two readings of an enumeration literal

Every literal has a text; it has an integer when it is one or when its text is the decimal numeral
of a 64-bit integer.
-/

namespace ProtocolCodec.EnumLiteral

/-- The literal as a text. -/
def toText : EnumLiteral → String
  | .integer n => Text.decimalText n.toInt
  | .text s => s

/-- The literal as an integer. -/
def toInteger? : EnumLiteral → Option Int64
  | .integer n => some n
  | .text s => Text.readInt64? s.toList

end ProtocolCodec.EnumLiteral
