/-!
# Numerals

Decimal and hexadecimal numerals as character lists, and the reader for signed decimal numerals of
64 bits. The writer puts no leading zero and no plus sign; the reader takes both.
-/

namespace ProtocolCodec.Text

/-- The character of a digit below sixteen. -/
def digitChar (digit : Nat) : Char :=
  if digit < 10 then Char.ofNat (0x30 + digit) else Char.ofNat (0x57 + digit)

/-- The value of a decimal digit. -/
def digitValue (c : Char) : Nat :=
  c.toNat - 0x30

/-- The numeral of `n` in base `b + 2`, most significant digit first. -/
def numeral (b : Nat) (n : Nat) : List Char :=
  if n < b + 2 then [digitChar n] else numeral b (n / (b + 2)) ++ [digitChar (n % (b + 2))]
termination_by n
decreasing_by
  exact Nat.div_lt_self (by omega) (by omega)

/-- Decimal numeral of a natural number. -/
def decimalNat (n : Nat) : List Char :=
  numeral 8 n

/-- Lower-case hexadecimal numeral. -/
def hexadecimal (n : Nat) : List Char :=
  numeral 14 n

/-- Decimal numeral of an integer, with a minus sign when negative. -/
def decimalInt : Int → List Char
  | .ofNat n => decimalNat n
  | .negSucc n => '-' :: decimalNat (n + 1)

/-- Decimal numeral of an integer, as a string. -/
def decimalText (n : Int) : String :=
  String.ofList (decimalInt n)

/-- The value of a sequence of decimal digits. -/
def valueOfDigits (digits : List Char) : Nat :=
  digits.foldl (fun value c => 10 * value + digitValue c) 0

/-- The least integer of 64 bits: `-(2 ^ 63)`. -/
def leastInt64 : Int := -0x8000000000000000

/-- The greatest integer of 64 bits: `2 ^ 63 - 1`. -/
def greatestInt64 : Int := 0x7fffffffffffffff

/-- An integer as a word of 64 bits, if it fits. -/
def int64? (n : Int) : Option Int64 :=
  if leastInt64 ≤ n ∧ n ≤ greatestInt64 then some (Int64.ofInt n) else none

/-- Split an optional sign off a numeral; the flag says whether it was a minus. -/
def splitSign : List Char → Bool × List Char
  | '-' :: rest => (true, rest)
  | '+' :: rest => (false, rest)
  | text => (false, text)

/-- Read a signed decimal numeral of 64 bits: an optional sign, then ASCII digits only. -/
def readInt64? (text : List Char) : Option Int64 :=
  let (negative, digits) := splitSign text
  if digits.isEmpty || !digits.all Char.isDigit then none
  else
    let value : Int := valueOfDigits digits
    int64? (if negative then -value else value)

end ProtocolCodec.Text
