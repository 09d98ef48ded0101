/-!
# Protocol metamodels

A metamodel declares the structures, enumerations and type aliases of a protocol and lists its
requests and notifications. The messages are counted but never generated.
-/

namespace ProtocolCodec

mutual

/-- One occurrence of a type. -/
inductive TypeExpr where
  | base (name : String)
  | reference (name : String)
  | array (element : TypeExpr)
  | map (key value : TypeExpr)
  | union (items : List TypeExpr)
  | intersection (items : List TypeExpr)
  /-- An object type written in place. -/
  | literal (properties : List LiteralProperty)
  | stringLiteral (value : String)
  | integerLiteral (value : Int64)
  | booleanLiteral (value : Bool)
  | tuple (items : List TypeExpr)

/-- A property of an object type written in place. -/
inductive LiteralProperty where
  | mk (name : String) (type : TypeExpr) (optional : Bool)

end

instance : Inhabited TypeExpr := ⟨.base ""⟩

instance : Inhabited LiteralProperty := ⟨.mk "" default false⟩

namespace TypeExpr

/-- The name referred to, for references only. -/
def referenceName? : TypeExpr → Option String
  | .reference name => some name
  | _ => none

end TypeExpr

/-- A request or a notification. -/
structure Message where
  method : String
  direction : Option String := none
  documentation : Option String := none
deriving Inhabited

/-- A property of a structure. -/
structure Property where
  name : String
  type : TypeExpr
  optional : Bool := false
  documentation : Option String := none
deriving Inhabited

/-- A structure with its parents. `extended` parents come before `mixins`. -/
structure Structure where
  name : String
  properties : List Property := []
  extended : List TypeExpr := []
  mixins : List TypeExpr := []
  documentation : Option String := none
deriving Inhabited

/-- The value of an enumeration member on the wire. -/
inductive EnumLiteral where
  | integer (value : Int64)
  | text (value : String)
deriving DecidableEq, Repr, Inhabited

/-- A member of an enumeration. -/
structure EnumMember where
  name : String
  value : EnumLiteral
  documentation : Option String := none
deriving Inhabited

/-- An enumeration. Whether it admits custom values is recorded but has no effect. -/
structure Enumeration where
  name : String
  type : TypeExpr
  values : List EnumMember := []
  supportsCustomValues : Bool := false
  documentation : Option String := none
deriving Inhabited

/-- A name for a type. -/
structure TypeAlias where
  name : String
  type : TypeExpr
  documentation : Option String := none
deriving Inhabited

/-- A protocol metamodel. -/
structure Model where
  version : String
  requests : List Message := []
  notifications : List Message := []
  structures : List Structure := []
  enumerations : List Enumeration := []
  aliases : List TypeAlias := []
deriving Inhabited

end ProtocolCodec
