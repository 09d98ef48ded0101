import ProtocolCodec.Inheritance
import ProtocolCodec.Proofs.FirstWins

/-!
# Carried properties

The walk over the parents of a structure only ever adds properties whose name is new, so the
properties a structure carries have distinct names. Without parents they are its own.
-/

namespace ProtocolCodec

open Inheritance

/-- The parents of a structure are what it refers to where it extends and mixes in. -/
theorem Structure.mem_parents_iff {s : Structure} {name : String} :
    name ∈ s.parents ↔ .reference name ∈ s.extended ∨ .reference name ∈ s.mixins := by
  have hreference : ∀ type : TypeExpr,
      type.referenceName? = some name ↔ type = .reference name := by
    intro type
    cases type <;> simp [TypeExpr.referenceName?]
  rw [Structure.parents, List.mem_filterMap]
  simp only [hreference, exists_eq_right, List.mem_append]

/-- One task of a walk keeps names distinct, and so does the walk. -/
theorem nodup_walk (pool : List Structure) (found : List Property) (tasks : List Task)
    (h : (found.map Property.name).Nodup) :
    ((walk pool found tasks).map Property.name).Nodup := by
  fun_induction walk pool found tasks with
  | case1 pool found => exact h
  | case2 pool found properties tasks ih => exact ih (nodup_addAllFirst h properties)
  | case3 pool found name tasks hnone ih => exact ih h
  | case4 pool found name tasks s hfound hshort ih => exact ih h

/-- The properties a structure carries have distinct names. -/
theorem nodup_flatten (catalog : Catalog) (s : Structure) :
    ((catalog.flatten s).map Property.name).Nodup :=
  nodup_walk _ _ _ List.nodup_nil

/-- A structure without parents carries its own properties. -/
theorem flatten_of_parents_eq_nil (catalog : Catalog) {s : Structure} (h : s.parents = []) :
    catalog.flatten s = keepFirst Property.name s.properties := by
  rw [Catalog.flatten, tasksOf, h, List.map_nil, List.nil_append, walk, walk]
  rfl

end ProtocolCodec
