import ProtocolCodec.Json.Basic

/-!
# Decoding JSON values

What decoders are made of: the views of a document that each kind of value admits, and the ways to
reach into objects and arrays. Scalars are strict, arrays are not: whatever is no array counts as
the empty one.
-/

namespace ProtocolCodec

/-- Why a document cannot be decoded. -/
inductive DecodeError where
  | expectedObject
  | expectedString
  | expectedNumber
  | expectedBoolean
  | missingField (key : String)
  | invalidEnumValue
deriving DecidableEq, Repr

namespace DecodeError

/-- The wording of an error. -/
def message : DecodeError → String
  | expectedObject => "expected object"
  | expectedString => "expected string"
  | expectedNumber => "expected number"
  | expectedBoolean => "expected boolean"
  | missingField key => "missing field `" ++ key ++ "`"
  | invalidEnumValue => "invalid enum value"

end DecodeError

/-- The outcome of decoding. -/
abbrev Decoded := Except DecodeError

namespace Binary64

/-- The signed word nearest to an integer. -/
def clamp (n : Int) : Int64 :=
  Int64.ofInt (max Text.leastInt64 (min Text.greatestInt64 n))

/-- The number rounded toward zero and clamped to the signed words; zero for what is no number. -/
def toInt64 : Binary64 → Int64
  | .finite x => clamp x.truncate
  | .infinite true => Int64.ofInt Text.leastInt64
  | .infinite false => Int64.ofInt Text.greatestInt64
  | .notANumber => 0

end Binary64

namespace Json

/-- The text of a string. -/
def text? : Json → Option String
  | .string s => some s
  | _ => none

/-- The value of a boolean. -/
def boolean? : Json → Option Bool
  | .boolean b => some b
  | _ => none

/-- The members of an object. -/
def members? : Json → Option Members
  | .object members => some members
  | _ => none

/-- An integer number that is a signed word. -/
def int64? : Json → Option Int64
  | .number (.whole n) => n.toInt64?
  | _ => none

/-- The value of a number as a binary64 number. -/
def decimal? : Json → Option Binary64
  | .number n => some n.toBinary64
  | _ => none

/-- The value of a number as an integer: exact where it is a signed word, otherwise that of its
binary64 value, truncated and clamped. -/
def integer? (value : Json) : Option Int64 :=
  match value.int64? with
  | some n => some n
  | none => value.decimal?.map Binary64.toInt64

/-- Whether a document is null. -/
def isNull : Json → Bool
  | .null => true
  | _ => false

end Json

namespace Members

/-- The value under a key that has to be there. -/
def required (object : Members) (key : String) : Decoded Json :=
  match object.get? key with
  | some value => .ok value
  | none => .error (.missingField key)

/-- The value under a key that may be missing; null counts as missing. -/
def optional (object : Members) (key : String) : Option Json :=
  (object.get? key).filter fun value => !value.isNull

end Members

/-- Decode the items of an array in order; anything else decodes to no items. -/
def decodeArray {α : Type} (decode : Json → Decoded α) : Json → Decoded (List α)
  | .array items => items.mapM decode
  | _ => .ok []

/-- The value, or the error when there is none. -/
def orError {α : Type} (error : DecodeError) : Option α → Decoded α
  | some a => .ok a
  | none => .error error

end ProtocolCodec
