import ProtocolCodec.Model.Basic

/-!
# Target types

What the target language calls a schema type. Maps, unions, intersections, literal objects, tuples
and unknown primitives have no faithful counterpart and become the type of JSON values.
-/

namespace ProtocolCodec

/-- The primitive types of the target. -/
inductive BaseKind where
  | string
  | integer
  | decimal
  | boolean
  | null
deriving DecidableEq, Repr

namespace BaseKind

/-- The primitive a schema name stands for. -/
def ofName? (name : String) : Option BaseKind :=
  if name = "string" ∨ name = "DocumentUri" ∨ name = "URI" ∨ name = "RegExp" then some string
  else if name = "integer" ∨ name = "uinteger" then some integer
  else if name = "decimal" then some decimal
  else if name = "boolean" then some boolean
  else if name = "null" then some null
  else none

/-- The primitive of a base type or a constant. -/
def of? : TypeExpr → Option BaseKind
  | .base name => ofName? name
  | .stringLiteral _ => some string
  | .integerLiteral _ => some integer
  | .booleanLiteral _ => some boolean
  | _ => none

/-- The spelling of a primitive in the target language. -/
def spelling : BaseKind → String
  | string => "String"
  | integer => "i64"
  | decimal => "f64"
  | boolean => "bool"
  | null => "()"

end BaseKind

/-- A type expression of the target. -/
inductive Target where
  | base (kind : BaseKind)
  /-- Any JSON value. -/
  | json
  | named (name : String)
  | sequence (item : Target)
  | boxed (inner : Target)
  | optional (inner : Target)
deriving DecidableEq, Repr

namespace Target

/-- The spelling of a type expression. -/
def spelling : Target → String
  | base kind => kind.spelling
  | json => "Value"
  | named name => name
  | sequence item => "Vec<" ++ item.spelling ++ ">"
  | boxed inner => "Box<" ++ inner.spelling ++ ">"
  | optional inner => "Option<" ++ inner.spelling ++ ">"

end Target

end ProtocolCodec
