import ProtocolCodec.Binary64.Basic
import ProtocolCodec.Text.Decimal

/-!
# JSON documents

A document keeps the order of its members. Objects as they are read may repeat a key; `merged`
gives the document with one member per key, where the first occurrence fixes the place and the last
one the content.
-/

namespace ProtocolCodec

/-- The integers a document holds exactly: the signed and the unsigned words of 64 bits, from
`-(2 ^ 63)` to just below `2 ^ 64`. -/
structure Whole where
  value : Int
  least_le : -0x8000000000000000 ≤ value
  lt_limit : value < 0x10000000000000000
deriving DecidableEq, Repr

/-- A number of a document. -/
inductive Number where
  | whole (n : Whole)
  | float (x : Finite)
deriving DecidableEq, Repr

/-- A JSON document. -/
inductive Json where
  | null
  | boolean (b : Bool)
  | number (n : Number)
  | string (s : String)
  | array (items : List Json)
  | object (members : List (String × Json))
deriving Repr

namespace Whole

/-- An integer as a document integer, if it is in range. -/
def ofInt? (n : Int) : Option Whole :=
  if h : -0x8000000000000000 ≤ n ∧ n < 0x10000000000000000 then some ⟨n, h.1, h.2⟩ else none

/-- A signed word is a document integer. -/
def ofInt64 (n : Int64) : Whole :=
  ⟨n.toInt, Int.le_trans (by decide) n.le_toInt, Int.lt_trans n.toInt_lt (by decide)⟩

/-- The signed word with this value, if there is one. -/
def toInt64? (n : Whole) : Option Int64 :=
  Text.int64? n.value

end Whole

namespace Number

/-- The nearest binary64 number. -/
def toBinary64 : Number → Binary64
  | .whole n => .ofInt n.value
  | .float x => .finite x

end Number

/-- The members of an object, in order. -/
abbrev Members := List (String × Json)

namespace Members

/-- Set a member: an existing key keeps its place, a new one goes to the end. -/
def insert (key : String) (value : Json) : Members → Members
  | [] => [(key, value)]
  | (k, v) :: rest => if k = key then (key, value) :: rest else (k, v) :: insert key value rest

/-- The value under a key. -/
def get? (key : String) (members : Members) : Option Json :=
  List.lookup key members

end Members

namespace Json

instance : Inhabited Json := ⟨null⟩

/-- A signed word as a document. -/
def ofInt64 (n : Int64) : Json :=
  .number (.whole (.ofInt64 n))

/-- A binary64 number as a document; what is not finite becomes null. -/
def ofBinary64 : Binary64 → Json
  | .finite x => .number (.float x)
  | _ => .null

/-- A string or null. -/
def ofString? : Option String → Json
  | some s => .string s
  | none => .null

mutual

/-- The document with one member per key. -/
def merged : Json → Json
  | .array items => .array (mergedItems items)
  | .object members => .object (mergedMembers [] members)
  | other => other

/-- Merge every item. -/
def mergedItems : List Json → List Json
  | [] => []
  | item :: rest => merged item :: mergedItems rest

/-- Insert every merged member, in order. -/
def mergedMembers (done : Members) : List (String × Json) → Members
  | [] => done
  | (key, value) :: rest => mergedMembers (done.insert key (merged value)) rest

end

mutual

/-- How many arrays and objects are nested in one another. -/
def height : Json → Nat
  | .array items => heightItems items + 1
  | .object members => heightMembers members + 1
  | _ => 0

/-- The greatest height of an item. -/
def heightItems : List Json → Nat
  | [] => 0
  | item :: rest => max (height item) (heightItems rest)

/-- The greatest height of a member. -/
def heightMembers : List (String × Json) → Nat
  | [] => 0
  | (_, value) :: rest => max (height value) (heightMembers rest)

end

end Json

end ProtocolCodec
