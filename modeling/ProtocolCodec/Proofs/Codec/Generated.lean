import ProtocolCodec.Proofs.Codec.NormalForm
import ProtocolCodec.Proofs.Inheritance.Hierarchy
import ProtocolCodec.Proofs.Lowering.Dependence

/-!
# Libraries of generated codecs

What goes into a library from a run: the plans of the admitted declarations, under their type names.
What their fields use and whether they forget follows from what the metamodel writes down, since a
shape is made of the references and primitives in a type and in the aliases it is looked through.
-/

namespace ProtocolCodec

/-! ## What shapes are made of -/

namespace Context

variable (context : Context)

/-- A shape uses the codecs of types that are referred to, in the type itself or in an alias. -/
theorem exists_of_mem_entities_shapeWith {aliases : List TypeAlias} {type : TypeExpr}
    {name : String} (h : name ∈ (context.shapeWith aliases type).entities) :
    ∃ reference, Naming.typeName reference = name ∧
      (reference ∈ type.references ∨ ∃ a ∈ aliases, reference ∈ a.type.references) := by
  fun_induction shapeWith context aliases type with
  | case1 aliases reference hstring => cases h
  | case2 aliases reference hstring hcodec =>
      rw [Shape.entities, List.mem_singleton] at h
      exact ⟨reference, h.symm, Or.inl List.mem_cons_self⟩
  | case3 aliases reference hstring hcodec hnone =>
      rw [Shape.entities, List.mem_singleton] at h
      exact ⟨reference, h.symm, Or.inl List.mem_cons_self⟩
  | case4 aliases reference hstring hcodec a hfind items htype => cases h
  | case5 aliases reference hstring hcodec a hfind hunion hlt ih =>
      obtain ⟨other, hname, hmem | ⟨b, hb, hmem⟩⟩ := ih h
      · exact ⟨other, hname, Or.inr ⟨a, mem_of_findName? hfind, hmem⟩⟩
      · exact ⟨other, hname, Or.inr ⟨b, (mem_removeName.mp hb).1, hmem⟩⟩
  | case6 aliases element ih =>
      rw [Shape.entities] at h
      exact ih h
  | case7 aliases type hreference harray kind hkind => cases h
  | case8 aliases type hreference harray hnone => cases h

/-- A shape is a primitive other than string only where the type or an alias is that primitive. -/
theorem base_of_shapeWith {aliases : List TypeAlias} {type : TypeExpr} {kind : BaseKind}
    (hkind : kind ≠ .string) (h : context.shapeWith aliases type = .base kind) :
    BaseKind.of? type = some kind ∨ ∃ a ∈ aliases, BaseKind.of? a.type = some kind := by
  fun_induction shapeWith context aliases type with
  | case1 aliases reference hstring => exact absurd (Shape.base.inj h).symm hkind
  | case2 aliases reference hstring hcodec => cases h
  | case3 aliases reference hstring hcodec hnone => cases h
  | case4 aliases reference hstring hcodec a hfind items htype => cases h
  | case5 aliases reference hstring hcodec a hfind hunion hlt ih =>
      obtain hbase | ⟨b, hb, hbase⟩ := ih h
      · exact Or.inr ⟨a, mem_of_findName? hfind, hbase⟩
      · exact Or.inr ⟨b, (mem_removeName.mp hb).1, hbase⟩
  | case6 aliases element ih => cases h
  | case7 aliases type hreference harray other hof => exact Or.inl (Shape.base.inj h ▸ hof)
  | case8 aliases type hreference harray hnone => cases h

theorem shapeWith_of_base {type : TypeExpr} {kind : BaseKind} (h : BaseKind.of? type = some kind)
    (aliases : List TypeAlias) : context.shapeWith aliases type = .base kind := by
  rw [shapeWith_of_plain, h, Option.elim_some]
  · rintro name rfl
    cases h
  · rintro element rfl
    cases h

end Context

/-! ## Fields of structures -/

namespace Catalog

/-- A structure carries properties of structures of the metamodel: of itself and of parents. -/
theorem exists_structure_of_mem_flatten {model : Model} {s : Structure} (hs : s ∈ model.structures)
    {property : Property} (h : property ∈ (ofModel model).flatten s) :
    ∃ t ∈ model.structures, property ∈ t.properties ∧
      (t = s ∨ ∃ u ∈ model.structures, t.name ∈ u.parents) := by
  have hmem : ∀ t, (ofModel model).InHierarchy s t → t ∈ model.structures := by
    intro t ht
    rcases ht.eq_or_structure? with rfl | ⟨_, hfound⟩
    · exact hs
    · rw [structure?_ofModel] at hfound
      exact mem_of_findName? hfound
  obtain ⟨t, ht, hfound⟩ := exists_of_mem_flatten h
  refine ⟨t, hmem t ht, mem_of_findName? hfound, ?_⟩
  rcases Relation.ReflTransGen.cases_tail ht with heq | ⟨u, hu, hstep, _⟩
  · exact Or.inl heq
  · exact Or.inr ⟨u, hmem u hu, (inherits_iff.mp hstep).1⟩

end Catalog

/-- The names of all properties of a metamodel. -/
def Model.propertyNames (model : Model) : List String :=
  model.structures.flatMap fun s => s.properties.map Property.name

namespace Context

/-- Where identifiers tell the properties of a metamodel apart, the fields of each of its structures
are told apart. -/
theorem regular_carriedPlan {model : Model} {settings : Settings}
    (hinj : Set.InjOn Naming.fieldName {name | name ∈ model.propertyNames}) (owner : String)
    {s : Structure} (hs : s ∈ model.structures) :
    ((ofModel model settings).carriedPlan owner s).Regular where
  nodup_keys := nodup_carriedPlan_keys _ _ _
  nodup_fields := by
    rw [map_field_carriedPlan]
    refine (nodup_flatten _ s).map_on ?_
    have hname : ∀ name ∈ ((Catalog.ofModel model).flatten s).map Property.name,
        name ∈ model.propertyNames := by
      intro name hname
      obtain ⟨property, hproperty, rfl⟩ := List.mem_map.mp hname
      obtain ⟨t, ht, hown, _⟩ := Catalog.exists_structure_of_mem_flatten hs hproperty
      exact List.mem_flatMap.mpr ⟨t, ht, List.mem_map_of_mem hown⟩
    intro first hfirst second hsecond heq
    exact hinj (hname first hfirst) (hname second hsecond) heq
  passthrough _ hfield := carriedPlan_passthrough _ _ _ hfield

end Context

/-! ## What a run puts into a library -/

/-- The plan a block was written for. -/
def Block.plan? : Block → Option Plan
  | .entity plan => some plan
  | .banner _ => none

/-- The plans in the output of a metamodel are those of its admitted declarations. -/
theorem plans_emit (model : Model) (settings : Settings) :
    (Run.emit { settings } model).blocks.filterMap Block.plan? =
      (({ settings } : Run).admitted model.declarations).map
        (Context.ofModel model settings).plan := by
  rw [Run.blocks_emit, List.nil_append, List.filterMap_cons]
  simp only [Block.plan?, List.filterMap_map]
  exact congrFun List.filterMap_eq_map _

end ProtocolCodec
