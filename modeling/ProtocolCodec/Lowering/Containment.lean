import ProtocolCodec.Lowering.Context

/-!
# Containment by value

A field of a structure type holds that structure inside itself, and so everything that structure
holds. Where this leads back to the owner of the field, the field has to be boxed.
-/

namespace ProtocolCodec.Context

/-- The structure a reference stands for when only some aliases may still be followed. -/
def structureOfName? (context : Context) (aliases : List TypeAlias) (name : String) :
    Option Structure :=
  if context.settings.isStringAlias name || context.settings.isExcluded (Naming.typeName name) then
    none
  else
    match context.catalog.structure? name with
    | some s => some s
    | none =>
        match h : findName? TypeAlias.name aliases name with
        | none => none
        | some a =>
            match a.type.referenceName? with
            | none => none
            | some next =>
                have := length_removeName_lt h
                structureOfName? context (removeName TypeAlias.name aliases name) next
termination_by aliases.length

/-- The structure held inside a value of a type, if there is one. -/
def byValue? (context : Context) (type : TypeExpr) : Option Structure :=
  type.referenceName?.bind (context.structureOfName? context.catalog.aliases)

/-- The structures held directly inside a structure. -/
def parts (context : Context) (s : Structure) : List Structure :=
  (context.catalog.flatten s).filterMap fun property => context.byValue? property.type

/-- Whether a structure whose type name is `owner` can be reached from the frontier through
structures of the pool. -/
def reachesFrom (context : Context) (owner : String) (pool : List Structure) :
    List Structure → Bool
  | [] => false
  | s :: frontier =>
      if Naming.typeName s.name = owner then true
      else
        match h : findName? Structure.name pool s.name with
        | none => reachesFrom context owner pool frontier
        | some _ =>
            have := length_removeName_lt h
            reachesFrom context owner (removeName Structure.name pool s.name)
              (context.parts s ++ frontier)
termination_by frontier => (pool.length, frontier.length)

/-- Whether a field of this type, in a structure with this type name, has to be boxed. -/
def needsBox (context : Context) (owner : String) (type : TypeExpr) : Bool :=
  match context.byValue? type with
  | some s => context.reachesFrom owner context.catalog.structures [s]
  | none => false

end ProtocolCodec.Context
