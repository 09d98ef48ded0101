import ProtocolCodec.Json.Record
import ProtocolCodec.Model.Basic

/-!
# Reading types

A type is an object with a tag, `kind`, anywhere among its members, or an array that begins with the
tag. The whole value is read before it is decoded, except for the tag of the outermost type, which
is checked as soon as it is met. Inside a value the tag may also be given by its number.
-/

namespace ProtocolCodec

open Json

/-- The tags of types. -/
inductive TypeKind where
  | base
  | reference
  | array
  | map
  | union
  | intersection
  | literal
  | stringLiteral
  | integerLiteral
  | booleanLiteral
  | tuple
deriving DecidableEq, Repr

namespace TypeKind

/-- Every tag, in the order of their numbers. -/
def all : List TypeKind :=
  [base, reference, array, map, union, intersection, literal, stringLiteral, integerLiteral,
   booleanLiteral, tuple]

/-- How a tag is written. -/
def tag : TypeKind → String
  | base => "base"
  | reference => "reference"
  | array => "array"
  | map => "map"
  | union => "or"
  | intersection => "and"
  | literal => "literal"
  | stringLiteral => "stringLiteral"
  | integerLiteral => "integerLiteral"
  | booleanLiteral => "booleanLiteral"
  | tuple => "tuple"

/-- How the fields that go with a tag are called in messages. -/
def label : TypeKind → String
  | base => "struct variant TypeRef::Base"
  | reference => "struct variant TypeRef::Reference"
  | array => "struct variant TypeRef::Array"
  | map => "struct variant TypeRef::Map"
  | union => "struct variant TypeRef::Or"
  | intersection => "struct variant TypeRef::And"
  | literal => "struct variant TypeRef::Literal"
  | stringLiteral => "struct variant TypeRef::StringLiteral"
  | integerLiteral => "struct variant TypeRef::IntegerLiteral"
  | booleanLiteral => "struct variant TypeRef::BooleanLiteral"
  | tuple => "struct variant TypeRef::Tuple"

/-- The tag with this spelling. -/
def ofTag (tag : String) : Except Cause TypeKind :=
  match all.find? (·.tag == tag) with
  | some kind => .ok kind
  | none => .error (.unknownTag tag (all.map TypeKind.tag))

/-- A tag inside a value: its spelling or its number. -/
def decode : Decoder TypeKind
  | .string s => ofTag s
  | .number (.whole n) =>
      if n.value < 0 then .error (.wrongKind (.number (.whole n)) "variant identifier")
      else
        match all[n.value.toNat]? with
        | some kind => .ok kind
        | none => .error (.wrongInteger n.value "variant index 0 <= i < 11")
  | value => .error (.wrongKind value.found "variant identifier")

/-- Read a tag. -/
def read : Reader TypeKind := fun _ _ text =>
  match skipSpace text with
  | [] => .error (.here .endInValue [])
  | '"' :: rest => do
      let (body, rest) ← readString rest
      match ofTag (String.ofList body) with
      | .ok kind => .ok (kind, rest)
      | .error cause => .error (.here cause rest)
  | rest => .error (unexpected "variant identifier" rest)

end TypeKind

namespace TypeExpr

/-- What a type is called in messages. -/
def label : String := "internally tagged enum TypeRef"

/-- Take the tag out of the members of an object. -/
def splitTag : Option TypeKind → List (String × Json) →
    Except Cause (Option TypeKind × List (String × Json))
  | kind?, [] => .ok (kind?, [])
  | kind?, (key, value) :: rest =>
      if key = "kind" then
        if kind?.isSome then .error (.duplicateField "kind")
        else
          match TypeKind.decode value with
          | .error cause => .error cause
          | .ok kind => splitTag (some kind) rest
      else
        match splitTag kind? rest with
        | .error cause => .error cause
        | .ok (kind?, others) => .ok (kind?, (key, value) :: others)

/-- A value split into its tag and the rest of its content. -/
def split : Json → Except Cause (TypeKind × Json)
  | .object members => do
      match ← splitTag none members with
      | (some kind, others) => .ok (kind, .object others)
      | (none, _) => .error (.missingField "kind")
  | .array [] => .error (.missingField "kind")
  | .array (tag :: items) => do
      let kind ← TypeKind.decode tag
      .ok (kind, .array items)
  | value => .error (.wrongKind value.found label)

/-- Decode the only field of a type. -/
def decodeField {α : Type} (kind : TypeKind) (key : String) (decode : Decoder α) (blank : α) :
    Decoder α :=
  decodeRecord kind.label [valueField true key decode fun _ a => a] blank

/-- The fields of a property of a literal type. -/
def literalFields (type : Decoder TypeExpr) : List (ValueField (String × TypeExpr × Bool)) :=
  [valueField true "name" decodeText fun p name => (name, p.2),
   valueField true "type" type fun p type => (p.1, type, p.2.2),
   valueField false "optional" decodeFlag fun p optional => (p.1, p.2.1, optional)]

/-- Decode a property of a literal type. -/
def decodeLiteralProperty (type : Decoder TypeExpr) : Decoder LiteralProperty := fun value => do
  let (name, type, optional) ←
    decodeRecord "struct LiteralProperty" (literalFields type) ("", default, false) value
  .ok (.mk name type optional)

/-- Decode a literal type. -/
def decodeLiteral (type : Decoder TypeExpr) : Decoder (List LiteralProperty) :=
  decodeRecord "struct LiteralShape"
    [valueField false "properties" (decodeList (decodeLiteralProperty type)) fun _ ps => ps] []

/-- Decode the content that goes with a tag, given how types inside it are decoded. -/
def decodeContent (type : Decoder TypeExpr) : TypeKind → Decoder TypeExpr
  | .base => fun value => .base <$> decodeField .base "name" decodeText "" value
  | .reference => fun value => .reference <$> decodeField .reference "name" decodeText "" value
  | .array => fun value => .array <$> decodeField .array "element" type default value
  | .map => fun value => do
      let (key, val) ←
        decodeRecord TypeKind.map.label
          [valueField true "key" type fun p key => (key, p.2),
           valueField true "value" type fun p val => (p.1, val)]
          (default, default) value
      .ok (.map key val)
  | .union => fun value => .union <$> decodeField .union "items" (decodeList type) [] value
  | .intersection => fun value =>
      .intersection <$> decodeField .intersection "items" (decodeList type) [] value
  | .literal => fun value => .literal <$> decodeField .literal "value" (decodeLiteral type) [] value
  | .stringLiteral => fun value =>
      .stringLiteral <$> decodeField .stringLiteral "value" decodeText "" value
  | .integerLiteral => fun value =>
      .integerLiteral <$> decodeField .integerLiteral "value" decodeInt64 0 value
  | .booleanLiteral => fun value =>
      .booleanLiteral <$> decodeField .booleanLiteral "value" decodeFlag false value
  | .tuple => fun value => .tuple <$> decodeField .tuple "items" (decodeList type) [] value

/-- Decode a type nested at most `depth` deep; a value read within the nesting limit never passes
it. -/
def decode : (depth : Nat) → Decoder TypeExpr
  | 0, value =>
      match split value with
      | .error cause => .error cause
      | .ok _ => .error .nestingLimit
  | depth + 1, value =>
      match split value with
      | .error cause => .error cause
      | .ok (kind, content) => decodeContent (decode depth) kind content

/-- Read one member of the outermost type: its tag at once, any other member whole. -/
def readTagged (width depth : Nat) (key : String) (state : Option TypeKind × Members)
    (text : List Char) : Outcome ((Option TypeKind × Members) × List Char) :=
  if key = "kind" then
    if state.1.isSome then .error (.late (.duplicateField "kind") text)
    else do
      let (kind, rest) ← readMember key (TypeKind.read width depth) text
      .ok ((some kind, state.2), rest)
  else do
    let (value, rest) ← readMember key (readValue width depth) text
    .ok ((state.1, (key, value) :: state.2), rest)

/-- Read the tag and the content of an object. -/
def readObject (width depth : Nat) (text : List Char) :
    Outcome ((TypeKind × Json) × List Char) := do
  let ((kind?, members), rest) ← foldMembers (readTagged width depth) width true (none, []) text
  match kind? with
  | some kind => .ok ((kind, .object members.reverse), rest)
  | none => .error (.late (.missingField "kind") rest)

/-- Read the tag and the content of an array. -/
def readArray (width depth : Nat) (text : List Char) : Outcome ((TypeKind × Json) × List Char) := do
  let (more, rest) ← nextItem true text
  if more then
    let item (items : List Json) (text : List Char) := do
      let (value, rest) ← readValue width depth text
      .ok (value :: items, rest)
    let (kind, rest) ← inside (.index 0) (TypeKind.read width depth rest)
    let (items, rest) ← foldItems item width 1 [] rest
    .ok ((kind, .array items.reverse), rest)
  else .error (.late (.missingField "kind") rest)

/-- Read the tag and the content of a type. -/
def readSplit : Reader (TypeKind × Json) := fun width depth text =>
  match skipSpace text with
  | [] => .error (.here .endInValue [])
  | '[' :: rest => deeper depth ('[' :: rest) fun depth => inList rest (readArray width depth)
  | '\x7b' :: rest =>
      deeper depth ('\x7b' :: rest) fun depth => inObject rest (readObject width depth)
  | rest => .error (unexpected label rest)

/-- Read a type. -/
def read : Reader TypeExpr := fun width depth text => do
  let ((kind, content), rest) ← readSplit width depth text
  match decodeContent (decode depth) kind content with
  | .ok type => .ok (type, rest)
  | .error cause => .error (.late cause rest)

end TypeExpr

end ProtocolCodec
