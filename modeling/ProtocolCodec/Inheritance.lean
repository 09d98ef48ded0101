import ProtocolCodec.Catalog

/-!
# Inherited properties

A structure carries the properties of its parents before its own: first those of everything it
extends, then those of its mixins, each in declaration order and each with its own parents first.
Of two properties of one name the first stands, so an inherited property hides a later one. A
structure met for the second time adds nothing, which also ends walks around a cycle.

The walk keeps the structures not yet entered in a pool and what is still to be done on a stack.
-/

namespace ProtocolCodec

/-- The names of the parents of a structure that refer to anything. -/
def Structure.parents (s : Structure) : List String :=
  (s.extended ++ s.mixins).filterMap TypeExpr.referenceName?

namespace Inheritance

/-- What a walk still has to do. -/
inductive Task where
  /-- Go through the structure of this name, if it is in the pool. -/
  | enter (name : String)
  /-- Add these properties. -/
  | add (properties : List Property)

/-- The tasks for the parents of a structure and then itself. -/
def tasksOf (s : Structure) : List Task :=
  s.parents.map .enter ++ [.add s.properties]

/-- Carry out the tasks in order; `found` are the properties found so far. -/
def walk (pool : List Structure) (found : List Property) : List Task → List Property
  | [] => found
  | .add properties :: tasks => walk pool (addAllFirst Property.name found properties) tasks
  | .enter name :: tasks =>
      match h : findName? Structure.name pool name with
      | none => walk pool found tasks
      | some s =>
          have := length_removeName_lt h
          walk (removeName Structure.name pool name) found (tasksOf s ++ tasks)
termination_by tasks => (pool.length, tasks.length)

end Inheritance

/-- Every property a structure carries, in order. -/
def Catalog.flatten (catalog : Catalog) (s : Structure) : List Property :=
  Inheritance.walk (removeName Structure.name catalog.structures s.name) [] (Inheritance.tasksOf s)

end ProtocolCodec
