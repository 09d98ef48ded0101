import ProtocolCodec.Codec.Decoding
import ProtocolCodec.Codec.Plan

/-!
# What a generated codec computes

The text written for a plan is a program; this module says what that program does. `Datum` are the
values of the generated types. A shape is encoded and decoded relative to the codecs of the named
types, so the codec of a plan is a function of the codecs it refers to. A library ties the knot: it
looks names up and unfolds as many levels as the value at hand is deep.
-/

namespace ProtocolCodec

/-- A value of a generated type. -/
inductive Datum where
  | text (s : String)
  | integer (n : Int64)
  | decimal (x : Binary64)
  | boolean (b : Bool)
  | unit
  | list (items : List Datum)
  | json (value : Json)
  /-- A variant of an enumeration. -/
  | variant (name : String)
  /-- A value of a structure, field by field. -/
  | record (slots : List (String × Datum))
  /-- The content of an optional field that holds nothing. -/
  | absent

namespace Datum

instance : Inhabited Datum := ⟨absent⟩

/-- Whether a field holds nothing. -/
def isAbsent : Datum → Bool
  | absent => true
  | _ => false

/-- The content of a field. -/
def slot (slots : List (String × Datum)) (field : String) : Datum :=
  (List.lookup field slots).getD absent

mutual

/-- How many lists and records are nested in one another. -/
def height : Datum → Nat
  | list items => heightItems items + 1
  | record slots => heightSlots slots + 1
  | _ => 0

/-- The greatest height of an item. -/
def heightItems : List Datum → Nat
  | [] => 0
  | item :: rest => max (height item) (heightItems rest)

/-- The greatest height of a field. -/
def heightSlots : List (String × Datum) → Nat
  | [] => 0
  | (_, content) :: rest => max (height content) (heightSlots rest)

end

end Datum

/-- A way to and from JSON. Encoding is total; what is no value of the type in question is encoded
as null. -/
structure Codec where
  encode : Datum → Json
  decode : Json → Decoded Datum

namespace Codec

/-- The codec of JSON values: they are kept as they are. -/
def json : Codec where
  encode
    | .json value => value
    | _ => .null
  decode value := .ok (.json value)

end Codec

namespace BaseKind

/-- Encode a primitive value. -/
def encode : BaseKind → Datum → Json
  | string, .text s => .string s
  | integer, .integer n => .ofInt64 n
  | decimal, .decimal x => .ofBinary64 x
  | boolean, .boolean b => .boolean b
  | _, _ => .null

/-- Decode a primitive value. Anything at all is accepted as null. -/
def decode : BaseKind → Json → Decoded Datum
  | string, value => (orError .expectedString value.text?).map .text
  | integer, value => (orError .expectedNumber value.integer?).map .integer
  | decimal, value => (orError .expectedNumber value.decimal?).map .decimal
  | boolean, value => (orError .expectedBoolean value.boolean?).map .boolean
  | null, _ => .ok .unit

/-- Decode an element of an array of primitive values; a malformed one becomes a default. -/
def decodeElement : BaseKind → Json → Datum
  | string, value => .text (value.text?.getD "")
  | integer, value => .integer (value.integer?.getD 0)
  | decimal, value => .decimal (value.decimal?.getD (.finite .zero))
  | boolean, value => .boolean (value.boolean?.getD false)
  | null, _ => .unit

end BaseKind

namespace Shape

/-- Encode a value of a shape. -/
def encode (entities : String → Codec) : Shape → Datum → Json
  | .base kind, datum => kind.encode datum
  | .entity name, datum => (entities name).encode datum
  | .sequence item, .list items => .array (items.map (item.encode entities))
  | .sequence _, _ => .null
  | .json, datum => Codec.json.encode datum

/-- Decode an element of an array: primitive values fall back to a default. -/
def decodeElement (entities : String → Codec) : Shape → Json → Decoded Datum
  | .base kind, value => .ok (kind.decodeElement value)
  | .entity name, value => (entities name).decode value
  | .sequence item, value => (decodeArray (item.decodeElement entities) value).map .list
  | .json, value => Codec.json.decode value

/-- Decode a value of a shape. -/
def decode (entities : String → Codec) : Shape → Json → Decoded Datum
  | .base kind, value => kind.decode value
  | .entity name, value => (entities name).decode value
  | .sequence item, value => (decodeArray (item.decodeElement entities) value).map .list
  | .json, value => Codec.json.decode value

end Shape

namespace FieldPlan

/-- The member a field is written as, if it is written. -/
def encode (entities : String → Codec) (plan : FieldPlan) (content : Datum) : Option Json :=
  if plan.optional && content.isAbsent then none
  else some (plan.shape.encode entities content)

/-- The content of a field, taken from an object. -/
def decode (entities : String → Codec) (plan : FieldPlan) (object : Members) : Decoded Datum :=
  if plan.passthrough then
    .ok (match object.get? plan.key with
      | some value => .json value
      | none => .absent)
  else if plan.optional then
    match object.optional plan.key with
    | some value => plan.shape.decode entities value
    | none => .ok .absent
  else do
    let value ← object.required plan.key
    plan.shape.decode entities value

end FieldPlan

namespace RecordPlan

/-- Write a field into an object. -/
def insertField (entities : String → Codec) (slots : List (String × Datum)) (object : Members)
    (field : FieldPlan) : Members :=
  match field.encode entities (Datum.slot slots field.field) with
  | some value => object.insert field.key value
  | none => object

/-- Take the fields from an object in order. -/
def decodeFields (entities : String → Codec) (object : Members) :
    List FieldPlan → Decoded (List (String × Datum))
  | [] => .ok []
  | field :: fields => do
      let content ← field.decode entities object
      let slots ← decodeFields entities object fields
      .ok ((field.field, content) :: slots)

/-- The codec of a structure. -/
def codec (entities : String → Codec) (plan : RecordPlan) : Codec where
  encode
    | .record slots => .object (plan.fields.foldl (insertField entities slots) [])
    | _ => .null
  decode value := do
    let object ← orError .expectedObject value.members?
    let slots ← decodeFields entities object plan.fields
    .ok (.record slots)

end RecordPlan

namespace EnumArm

/-- What an arm is written as. -/
def encode (backing : Backing) (arm : EnumArm) : Json :=
  match backing with
  | .text => .string arm.text
  | .integer => .ofInt64 arm.integer

end EnumArm

namespace EnumPlan

/-- The first arm that fits, as a variant. -/
def choose (plan : EnumPlan) (fits : EnumArm → Bool) : Decoded Datum :=
  orError .invalidEnumValue ((plan.arms.find? fits).map fun arm => .variant arm.variant)

/-- The codec of an enumeration. Arms are tried from top to bottom. -/
def codec (plan : EnumPlan) : Codec where
  encode
    | .variant name =>
        match plan.arms.find? fun arm => arm.variant == name with
        | some arm => arm.encode plan.backing
        | none => .null
    | _ => .null
  decode value :=
    match plan.backing with
    | .text => do
        let text ← orError .expectedString value.text?
        plan.choose fun arm => arm.text == text
    | .integer => do
        let n ← orError .expectedNumber value.integer?
        plan.choose fun arm => arm.integer == n

end EnumPlan

/-- What a name of a library stands for. -/
inductive Definition where
  | planned (plan : Plan)
  /-- A type with a codec written by hand. -/
  | written (codec : Codec)

/-- The types a generated text can refer to, by name. -/
abbrev Library := List (String × Definition)

namespace Library

/-- Look up a name, going on from a synonym to the name it stands for. Each entry is used once. -/
def find? (entries : Library) (name : String) : Option Definition :=
  match h : findName? Prod.fst entries name with
  | none => none
  | some (_, .planned (.synonym plan)) =>
      match plan.target with
      | .named next =>
          have := length_removeName_lt h
          find? (removeName Prod.fst entries name) next
      | .json => some (.written .json)
      | _ => none
  | some (_, definition) => some definition
termination_by entries.length

/-- The codec of a name, good for values of less than the given height. Names that stand for nothing
are taken for JSON values. -/
def codec (library : Library) : (height : Nat) → String → Codec
  | 0, _ => .json
  | height + 1, name =>
      match library.find? name with
      | some (.planned (.enumeration plan)) => plan.codec
      | some (.planned (.record plan)) => plan.codec (library.codec height)
      | some (.written codec) => codec
      | _ => .json

/-- Encode a value of a named type. -/
def encode (library : Library) (name : String) (datum : Datum) : Json :=
  (library.codec (datum.height + 1) name).encode datum

/-- Decode a value of a named type. -/
def decode (library : Library) (name : String) (value : Json) : Decoded Datum :=
  (library.codec (value.height + 1) name).decode value

end Library

end ProtocolCodec
