import ProtocolCodec.Model.Document
import ProtocolCodec.Model.TypeReader

/-!
# Reading metamodels

Every declaration is a record. Names and types are required; lists, flags and documentation have
defaults.
-/

namespace ProtocolCodec

open Json

namespace EnumLiteral

/-- A literal is a 64-bit integer or a string. -/
def ofJson? : Json → Option EnumLiteral
  | .number (.whole n) => n.toInt64?.map .integer
  | .string s => some (.text s)
  | _ => none

/-- Read a literal. -/
def read : Reader EnumLiteral := fun width depth text => do
  let (value, rest) ← readValue width depth text
  match ofJson? value with
  | some literal => .ok (literal, rest)
  | none => .error (.late (.noAlternative "EnumLiteral") rest)

end EnumLiteral

namespace Message

/-- The fields of a message. -/
def fields : List (TextField Message) :=
  [textField true "method" readText fun m method => { m with method },
   textField false "messageDirection" (readNullable readText) fun m direction =>
     { m with direction },
   textField false "documentation" (readNullable readText) fun m documentation =>
     { m with documentation }]

/-- Read a request. -/
def readRequest : Reader Message :=
  readRecord "Request" fields default

/-- Read a notification. -/
def readNotification : Reader Message :=
  readRecord "Notification" fields default

end Message

namespace Property

/-- The fields of a property. -/
def fields : List (TextField Property) :=
  [textField true "name" readText fun p name => { p with name },
   textField true "type" TypeExpr.read fun p type => { p with type },
   textField false "optional" readFlag fun p optional => { p with optional },
   textField false "documentation" (readNullable readText) fun p documentation =>
     { p with documentation }]

/-- Read a property. -/
def read : Reader Property :=
  readRecord "Property" fields { name := "", type := default }

end Property

namespace Structure

/-- The fields of a structure. -/
def fields : List (TextField Structure) :=
  [textField true "name" readText fun s name => { s with name },
   textField false "properties" (readList Property.read) fun s properties =>
     { s with properties },
   textField false "extends" (readList TypeExpr.read) fun s extended => { s with extended },
   textField false "mixins" (readList TypeExpr.read) fun s mixins => { s with mixins },
   textField false "documentation" (readNullable readText) fun s documentation =>
     { s with documentation }]

/-- Read a structure. -/
def read : Reader Structure :=
  readRecord "Structure" fields { name := "" }

end Structure

namespace EnumMember

/-- The fields of a member of an enumeration. -/
def fields : List (TextField EnumMember) :=
  [textField true "name" readText fun m name => { m with name },
   textField true "value" EnumLiteral.read fun m value => { m with value },
   textField false "documentation" (readNullable readText) fun m documentation =>
     { m with documentation }]

/-- Read a member of an enumeration. -/
def read : Reader EnumMember :=
  readRecord "EnumValue" fields { name := "", value := default }

end EnumMember

namespace Enumeration

/-- The fields of an enumeration. -/
def fields : List (TextField Enumeration) :=
  [textField true "name" readText fun e name => { e with name },
   textField true "type" TypeExpr.read fun e type => { e with type },
   textField false "values" (readList EnumMember.read) fun e values => { e with values },
   textField false "supportsCustomValues" readFlag fun e supportsCustomValues =>
     { e with supportsCustomValues },
   textField false "documentation" (readNullable readText) fun e documentation =>
     { e with documentation }]

/-- Read an enumeration. -/
def read : Reader Enumeration :=
  readRecord "Enumeration" fields { name := "", type := default }

end Enumeration

namespace TypeAlias

/-- The fields of a type alias. -/
def fields : List (TextField TypeAlias) :=
  [textField true "name" readText fun a name => { a with name },
   textField true "type" TypeExpr.read fun a type => { a with type },
   textField false "documentation" (readNullable readText) fun a documentation =>
     { a with documentation }]

/-- Read a type alias. -/
def read : Reader TypeAlias :=
  readRecord "TypeAlias" fields { name := "", type := default }

end TypeAlias

namespace Model

/-- The fields of the metadata, of which only the version is kept. -/
def metaDataFields : List (TextField String) :=
  [textField true "version" readText fun _ version => version]

/-- The fields of a metamodel. -/
def fields : List (TextField Model) :=
  [textField true "metaData" (readRecord "MetaData" metaDataFields "") fun m version =>
     { m with version },
   textField false "requests" (readList Message.readRequest) fun m requests =>
     { m with requests },
   textField false "notifications" (readList Message.readNotification) fun m notifications =>
     { m with notifications },
   textField false "structures" (readList Structure.read) fun m structures =>
     { m with structures },
   textField false "enumerations" (readList Enumeration.read) fun m enumerations =>
     { m with enumerations },
   textField false "typeAliases" (readList TypeAlias.read) fun m aliases => { m with aliases }]

/-- Read a metamodel. -/
def read : Reader Model :=
  readRecord "MetaModel" fields { version := "" }

end Model

namespace Model

/-- The metamodel a text begins with. -/
def ofText (text : String) : Outcome Model :=
  readWith read text

/-- The compact document of a metamodel. -/
def toText (model : Model) : String :=
  model.toJson.compact

end Model

end ProtocolCodec
