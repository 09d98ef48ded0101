import ProtocolCodec.Json.Printer
import ProtocolCodec.Model.Basic

/-!
# The document of a metamodel

Every field is written, in a fixed order; an absent documentation is null. A type is an object
whose first member, `kind`, says which type it is.
-/

namespace ProtocolCodec

namespace Json

/-- An object with the member `kind` and the members that go with it. -/
def ofKind (kind : String) (members : Members) : Json :=
  .object (("kind", .string kind) :: members)

end Json

mutual

/-- The document of a type. -/
def TypeExpr.toJson : TypeExpr → Json
  | .base name => .ofKind "base" [("name", .string name)]
  | .reference name => .ofKind "reference" [("name", .string name)]
  | .array element => .ofKind "array" [("element", element.toJson)]
  | .map key value => .ofKind "map" [("key", key.toJson), ("value", value.toJson)]
  | .union items => .ofKind "or" [("items", .array (TypeExpr.listToJson items))]
  | .intersection items => .ofKind "and" [("items", .array (TypeExpr.listToJson items))]
  | .literal properties =>
      .ofKind "literal"
        [("value", .object [("properties", .array (LiteralProperty.listToJson properties))])]
  | .stringLiteral value => .ofKind "stringLiteral" [("value", .string value)]
  | .integerLiteral value => .ofKind "integerLiteral" [("value", .ofInt64 value)]
  | .booleanLiteral value => .ofKind "booleanLiteral" [("value", .boolean value)]
  | .tuple items => .ofKind "tuple" [("items", .array (TypeExpr.listToJson items))]

/-- The documents of a list of types. -/
def TypeExpr.listToJson : List TypeExpr → List Json
  | [] => []
  | type :: rest => type.toJson :: TypeExpr.listToJson rest

/-- The document of a property of a literal type. -/
def LiteralProperty.toJson : LiteralProperty → Json
  | .mk name type optional =>
      .object [("name", .string name), ("type", type.toJson), ("optional", .boolean optional)]

/-- The documents of the properties of a literal type. -/
def LiteralProperty.listToJson : List LiteralProperty → List Json
  | [] => []
  | property :: rest => property.toJson :: LiteralProperty.listToJson rest

end

namespace Message

/-- The document of a message. -/
def toJson (message : Message) : Json :=
  .object
    [("method", .string message.method),
     ("messageDirection", .ofString? message.direction),
     ("documentation", .ofString? message.documentation)]

end Message

namespace Property

/-- The document of a property. -/
def toJson (property : Property) : Json :=
  .object
    [("name", .string property.name),
     ("type", property.type.toJson),
     ("optional", .boolean property.optional),
     ("documentation", .ofString? property.documentation)]

end Property

namespace Structure

/-- The document of a structure. -/
def toJson (s : Structure) : Json :=
  .object
    [("name", .string s.name),
     ("properties", .array (s.properties.map Property.toJson)),
     ("extends", .array (s.extended.map TypeExpr.toJson)),
     ("mixins", .array (s.mixins.map TypeExpr.toJson)),
     ("documentation", .ofString? s.documentation)]

end Structure

namespace EnumLiteral

/-- The document of a literal. -/
def toJson : EnumLiteral → Json
  | .integer n => .ofInt64 n
  | .text s => .string s

end EnumLiteral

namespace EnumMember

/-- The document of a member of an enumeration. -/
def toJson (m : EnumMember) : Json :=
  .object
    [("name", .string m.name),
     ("value", m.value.toJson),
     ("documentation", .ofString? m.documentation)]

end EnumMember

namespace Enumeration

/-- The document of an enumeration. -/
def toJson (e : Enumeration) : Json :=
  .object
    [("name", .string e.name),
     ("type", e.type.toJson),
     ("values", .array (e.values.map EnumMember.toJson)),
     ("supportsCustomValues", .boolean e.supportsCustomValues),
     ("documentation", .ofString? e.documentation)]

end Enumeration

namespace TypeAlias

/-- The document of a type alias. -/
def toJson (a : TypeAlias) : Json :=
  .object
    [("name", .string a.name),
     ("type", a.type.toJson),
     ("documentation", .ofString? a.documentation)]

end TypeAlias

namespace Model

/-- The document of a metamodel. -/
def toJson (model : Model) : Json :=
  .object
    [("metaData", .object [("version", .string model.version)]),
     ("requests", .array (model.requests.map Message.toJson)),
     ("notifications", .array (model.notifications.map Message.toJson)),
     ("structures", .array (model.structures.map Structure.toJson)),
     ("enumerations", .array (model.enumerations.map Enumeration.toJson)),
     ("typeAliases", .array (model.aliases.map TypeAlias.toJson))]

end Model

end ProtocolCodec
