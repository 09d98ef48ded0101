import ProtocolCodec.Codec.Semantics
import ProtocolCodec.Emission

/-!
# A sample protocol

A small metamodel with one declaration of every kind that the generator treats in a way of its own,
and the library of codecs that goes with its generated text. Positions and arbitrary values are
written by hand.
-/

namespace ProtocolCodec.Sample

/-- A required property. -/
def field (name : String) (type : TypeExpr) : Property :=
  { name, type }

/-- An optional property. -/
def maybe (name : String) (type : TypeExpr) : Property :=
  { name, type, optional := true }

/-- The enumerations of the sample. -/
def enumerations : List Enumeration :=
  [{ name := "Kind"
     type := .base "string"
     values :=
       [{ name := "a", value := .text "A", documentation := some "The first kind." },
        { name := "b", value := .text "B" }]
     documentation := some "A closed set of string-valued kinds." },
   { name := "Severity"
     type := .base "uinteger"
     values :=
       [{ name := "Error", value := .integer 1 },
        { name := "Warning", value := .integer 2 }] }]

/-- The properties of the structure that has a field of every kind. -/
def everything : List Property :=
  [field "tags" (.array (.base "string")),
   maybe "children" (.array (.reference "Thing")),
   field "payload" (.reference "Payload"),
   maybe "options" (.map (.base "string") (.base "integer")),
   maybe "range" (.reference "Position"),
   maybe "label" (.reference "ChangeAnnotationIdentifier"),
   maybe "names" (.reference "Names"),
   maybe "literalKind" (.stringLiteral "fixed"),
   maybe "data" (.reference "LSPAny"),
   field "thing" (.reference "ThingAlias"),
   field "id" (.reference "Identifier"),
   maybe "counts" (.array (.base "integer")),
   maybe "token" (.reference "Payload"),
   maybe "nothing" (.base "null")]

/-- The structures of the sample. -/
def structures : List Structure :=
  [{ name := "Thing", properties := [field "kind" (.reference "Kind")] },
   { name := "Plain"
     properties :=
       [field "name" (.base "string"), field "count" (.base "integer"),
        field "weight" (.base "decimal"), field "flag" (.base "boolean")] },
   { name := "Base"
     properties := [field "x" (.base "integer"), field "uri" (.base "DocumentUri")] },
   { name := "Tagged", properties := [maybe "tags" (.array (.base "string"))] },
   { name := "Derived"
     properties := [field "x" (.base "string"), maybe "severity" (.reference "Severity")]
     extended := [.reference "Base"]
     mixins := [.reference "Tagged"]
     documentation := some "Inherits `x` from Base; its own `x` is shadowed." },
   { name := "Everything", properties := everything },
   { name := "Node"
     properties := [field "name" (.base "string"), maybe "parent" (.reference "Node")] },
   { name := "Loop1"
     properties := [field "a" (.base "string")]
     extended := [.reference "Loop2"] },
   { name := "Loop2"
     properties := [field "b" (.base "string")]
     extended := [.reference "Loop1"] },
   { name := "_Hidden", properties := [field "id" (.base "integer")] },
   { name := "Hidden"
     properties := [field "other" (.base "string")]
     extended := [.reference "_Hidden"] },
   { name := "Position"
     properties := [field "line" (.base "uinteger"), field "character" (.base "uinteger")] }]

/-- The aliases of the sample. -/
def aliases : List TypeAlias :=
  [{ name := "Names", type := .array (.base "string") },
   { name := "ThingAlias", type := .reference "Thing" },
   { name := "Payload", type := .union [.base "string", .base "integer"] },
   { name := "Identifier", type := .base "string" },
   { name := "ChangeAnnotationIdentifier", type := .base "string" },
   { name := "LSPAny", type := .union [.base "string", .base "null"] }]

/-- The sample metamodel. -/
def model : Model where
  version := "3.17.0"
  requests :=
    [{ method := "textDocument/hover", direction := some "clientToServer" },
     { method := "shutdown", direction := some "clientToServer" }]
  notifications := [{ method := "exit", direction := some "clientToServer" }]
  structures := structures
  enumerations := enumerations
  aliases := aliases

/-- The settings of the sample: positions are written by hand. -/
def settings : Settings :=
  Settings.standard.exclude ["Position"]

/-- A coordinate of a position: an integer that is a signed word. -/
def coordinate (object : Members) (key : String) : Decoded Datum := do
  let value ← object.required key
  let n ← orError .expectedNumber value.int64?
  .ok (.integer n)

/-- The codec of positions. -/
def positionCodec : Codec where
  encode
    | .record slots =>
        .object
          [("line", BaseKind.integer.encode (Datum.slot slots "line")),
           ("character", BaseKind.integer.encode (Datum.slot slots "character"))]
    | _ => .null
  decode value := do
    let object ← orError .expectedObject value.members?
    let line ← coordinate object "line"
    let character ← coordinate object "character"
    .ok (.record [("line", line), ("character", character)])

/-- The plans of everything that is generated for the sample. -/
def plans : List Plan :=
  (Run.emit { settings } model).blocks.filterMap fun block =>
    match block with
    | .entity plan => some plan
    | .banner _ => none

/-- The types of the sample. -/
def library : Library :=
  [("Position", .written positionCodec), ("LSPAny", .written .json)] ++
    plans.map fun plan => (plan.name, .planned plan)

end ProtocolCodec.Sample
