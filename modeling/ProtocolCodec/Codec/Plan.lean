import ProtocolCodec.Lowering.Containment
import ProtocolCodec.Model.EnumLiteral

/-!
# Plans for declarations

A plan says everything that is written for one declaration and everything its codec does. The text
of a declaration (`Codec.Source`) and the codec it stands for (`Codec.Semantics`) are both functions
of the plan.
-/

namespace ProtocolCodec

/-- What one field of a structure is called, holds and does. -/
structure FieldPlan where
  /-- The key on the wire. -/
  key : String
  /-- The identifier in the target language. -/
  field : String
  target : Target
  shape : Shape
  optional : Bool
  /-- An optional field of a type without counterpart: a null that is present is kept. -/
  passthrough : Bool
  boxed : Bool
  documentation : Option String

/-- What the literals of an enumeration are on the wire. -/
inductive Backing where
  | text
  | integer
deriving DecidableEq, Repr

/-- One variant of an enumeration. -/
structure EnumArm where
  variant : String
  literal : EnumLiteral
  documentation : Option String

/-- The plan of an enumeration. -/
structure EnumPlan where
  name : String
  documentation : Option String
  backing : Backing
  arms : List EnumArm

/-- The plan of a structure. -/
structure RecordPlan where
  name : String
  documentation : Option String
  fields : List FieldPlan

/-- The plan of a type alias. -/
structure SynonymPlan where
  name : String
  documentation : Option String
  target : Target

/-- The plan of a declaration. -/
inductive Plan where
  | enumeration (plan : EnumPlan)
  | record (plan : RecordPlan)
  | synonym (plan : SynonymPlan)

namespace EnumArm

/-- The integer of an arm; zero stands in for a literal without one. -/
def integer (arm : EnumArm) : Int64 :=
  arm.literal.toInteger?.getD 0

/-- The text of an arm. -/
def text (arm : EnumArm) : String :=
  arm.literal.toText

/-- The arm of a member of an enumeration. -/
def ofMember (m : EnumMember) : EnumArm where
  variant := Naming.variantName m.name
  literal := m.value
  documentation := m.documentation

end EnumArm

namespace Enumeration

/-- Whether every literal has an integer. -/
def allIntegers (e : Enumeration) : Bool :=
  e.values.all fun m => m.value.toInteger?.isSome

/-- The arms of the members; of two variants of one name the first stands. -/
def arms (e : Enumeration) : List EnumArm :=
  keepFirst EnumArm.variant (e.values.map EnumArm.ofMember)

/-- The names of the variants that are dropped, in order. -/
def droppedVariants (e : Enumeration) : List String :=
  (repeats EnumArm.variant [] (e.values.map EnumArm.ofMember)).map EnumArm.variant

end Enumeration

namespace Context

/-- An enumeration is over integers when its type is the integer type and all its literals are
integers, those of dropped variants included. -/
def backing (context : Context) (e : Enumeration) : Backing :=
  if context.resolve e.type = .base .integer ∧ e.allIntegers then .integer else .text

/-- The plan of an enumeration. -/
def planEnumeration (context : Context) (name : String) (e : Enumeration) : EnumPlan where
  name := name
  documentation := e.documentation
  backing := context.backing e
  arms := e.arms

/-- The plan of a field in the structure with the type name `owner`. -/
def planField (context : Context) (owner : String) (property : Property) : FieldPlan :=
  let boxed := context.needsBox owner property.type
  let shape := context.shape property.type
  let plain := context.resolve property.type
  let stored := if boxed then plain.boxed else plain
  { key := property.name
    field := Naming.fieldName property.name
    target := if property.optional then stored.optional else stored
    shape := shape
    optional := property.optional
    passthrough :=
      property.optional && shape == .json && property.type.referenceName?.isNone
    boxed := boxed
    documentation := property.documentation }

/-- The plan of a structure with the given properties. -/
def planRecord (context : Context) (name : String) (s : Structure) (properties : List Property) :
    RecordPlan where
  name := name
  documentation := s.documentation
  fields := properties.map (context.planField name)

/-- The plan of a type alias. -/
def planSynonym (context : Context) (name : String) (a : TypeAlias) : SynonymPlan where
  name := name
  documentation := a.documentation
  target := context.resolve a.type

end Context

end ProtocolCodec
