import ProtocolCodec.Inheritance
import ProtocolCodec.Lowering.Target
import ProtocolCodec.Naming
import ProtocolCodec.Settings

/-!
# Lowering schema types

A context is a catalog with settings. In it a schema type has a target type (`resolve`) and a codec
shape (`shape`). The target type names what a reference refers to; the shape looks through aliases
to what they stand for.
-/

namespace ProtocolCodec

/-- How values of a schema type are encoded and decoded. -/
inductive Shape where
  | base (kind : BaseKind)
  /-- By the codec of the named type. -/
  | entity (name : String)
  | sequence (item : Shape)
  /-- As they are. -/
  | json
deriving DecidableEq, Repr

/-- The declarations and settings a type is read against. -/
structure Context where
  catalog : Catalog
  settings : Settings

namespace Context

/-- The context of a metamodel. -/
def ofModel (model : Model) (settings : Settings) : Context :=
  ⟨.ofModel model, settings⟩

/-- The target type of a schema type. -/
def resolve (context : Context) : TypeExpr → Target
  | .reference name =>
      if context.settings.isStringAlias name then .base .string
      else .named (Naming.typeName name)
  | .array element => .sequence (context.resolve element)
  | type =>
      match BaseKind.of? type with
      | some kind => .base kind
      | none => .json

/-- Whether a reference to this name is to a codec of its own: an excluded type, a structure or an
enumeration. -/
def hasOwnCodec (context : Context) (name : String) : Bool :=
  context.settings.isExcluded (Naming.typeName name) ||
    (context.catalog.structure? name).isSome || (context.catalog.enumeration? name).isSome

/-- The shape of a type when only some aliases may still be looked through. A reference to an alias
that may not, or to nothing at all, is to a codec by its own name. -/
def shapeWith (context : Context) (aliases : List TypeAlias) (type : TypeExpr) : Shape :=
  match type with
  | .reference name =>
      if context.settings.isStringAlias name then .base .string
      else if context.hasOwnCodec name then .entity (Naming.typeName name)
      else
        match h : findName? TypeAlias.name aliases name with
        | none => .entity (Naming.typeName name)
        | some a =>
            match a.type with
            | .union _ => .json
            | target =>
                have := length_removeName_lt h
                shapeWith context (removeName TypeAlias.name aliases name) target
  | .array element => .sequence (shapeWith context aliases element)
  | other =>
      match BaseKind.of? other with
      | some kind => .base kind
      | none => .json
termination_by (aliases.length, sizeOf type)

/-- The codec shape of a type. -/
def shape (context : Context) (type : TypeExpr) : Shape :=
  context.shapeWith context.catalog.aliases type

end Context

end ProtocolCodec
