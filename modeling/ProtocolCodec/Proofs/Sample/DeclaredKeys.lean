import ProtocolCodec.Proofs.Codec.DeclaredKeys
import ProtocolCodec.Proofs.Sample

/-!
# What the structures of the sample look at

Every structure of the sample, the one written by hand included, looks only at the keys of the
properties it carries. A structure inside another is again looked at in this way.
-/

namespace ProtocolCodec

/-- A structure is the first declaration of its type name when no enumeration has that name. -/
theorem findName?_declarations_of_structure {model : Model} {name : String} {s : Structure}
    (henumerations : name ∉ model.enumerations.map fun e => Naming.typeName e.name)
    (hs : findName? (fun s => Naming.typeName s.name) model.structures name = some s) :
    findName? Declaration.typeName model.declarations name = some (.record s) := by
  have hnone : findName? (Declaration.typeName ∘ Declaration.enumeration) model.enumerations name =
      none := findName?_eq_none_iff.mpr henumerations
  have hsome : findName? (Declaration.typeName ∘ Declaration.record) model.structures name =
      some s := hs
  rw [Model.declarations, findName?_append, findName?_append, findName?_map, findName?_map, hnone,
    hsome]
  rfl

namespace Sample

/-- The structure that a type name stands for: the first one declared under it. -/
def structure? (name : String) : Option Structure :=
  findName? (fun s => Naming.typeName s.name) model.structures name

/-- What the structures declare: the keys of the properties they carry, with the shapes of their
types. -/
def declared : Declared := fun name =>
  (structure? name).map fun s =>
    (context.catalog.flatten s).map fun property => (property.name, context.shape property.type)

/-- How a coordinate of a position is decoded: it has to be a signed word. -/
def decodeCoordinate (value : Json) : Decoded Datum :=
  (orError .expectedNumber value.int64?).map .integer

/-- How a structure decodes the value of one of its properties. -/
def decodeValue (name : String) (property : Property) : Json → Decoded Datum :=
  if name = "Position" then decodeCoordinate
  else (context.shape property.type).decode library.entity

/-! ## Generated structures -/

section

variable {name : String} {s : Structure}

/-- Every structure of the sample but the position has the codec of its plan. -/
theorem entity_of_structure? (hs : structure? name = some s) (hname : name ≠ "Position") :
    library.entity name = (context.carriedPlan name s).codec library.entity := by
  have hsettings : ∀ s ∈ model.structures, Naming.typeName s.name ≠ "Position" →
      settings.isExcluded (Naming.typeName s.name) = false := by
    decide +kernel
  have hwritten : ∀ s ∈ model.structures, Naming.typeName s.name ≠ "LSPAny" := by
    decide +kernel
  have henumerations : ∀ s ∈ model.structures,
      Naming.typeName s.name ∉ model.enumerations.map fun e => Naming.typeName e.name := by
    decide +kernel
  have hmem : s ∈ model.structures := mem_of_findName? hs
  obtain rfl : Naming.typeName s.name = name := by
    simpa using List.find?_some hs
  refine Library.entity_of_record (find?_library _ (.record s) ?_ (hsettings s hmem hname)
    (findName?_declarations_of_structure (henumerations s hmem) hs) nofun)
  apply findName?_eq_none_iff.mpr
  simp [hname, hwritten s hmem]

end

/-! ## Positions -/

theorem entity_position : library.entity "Position" = positionCodec := by
  have hfind : findName? Prod.fst library "Position" =
      some ("Position", .written positionCodec) := rfl
  exact Library.entity_of_written (Library.find?_of_findName? hfind nofun)

/-- The structure of positions. -/
def position : Structure where
  name := "Position"
  properties := [field "line" (.base "uinteger"), field "character" (.base "uinteger")]

theorem structure?_position : structure? "Position" = some position := by
  rfl

theorem flatten_position : context.catalog.flatten position = position.properties :=
  flatten_of_parents_eq_nil _ rfl

/-- A coordinate is looked up and decoded on its own. -/
theorem coordinate_eq (object : Members) (key : String) :
    coordinate object key = object.required key >>= decodeCoordinate :=
  rfl

theorem coordinate_eq_error_iff {object : Members} {key : String} {error : DecodeError} :
    coordinate object key = .error error ↔
      object.fault? key false decodeCoordinate = some error := by
  rw [coordinate_eq, Members.required_bind_eq_error_iff]

theorem decode_positionCodec (object : Members) :
    positionCodec.decode (.object object) = (do
      let line ← coordinate object "line"
      let character ← coordinate object "character"
      .ok (.record [("line", line), ("character", character)])) :=
  rfl

/-- The line is looked at before the character. -/
theorem decode_positionCodec_eq_error_iff {object : Members} {error : DecodeError} :
    positionCodec.decode (.object object) = .error error ↔
      position.properties.findSome? (fun property => object.fault? property.name property.optional
        (decodeValue "Position" property)) = some error := by
  have hfaults : position.properties.findSome? (fun property => object.fault? property.name
      property.optional (decodeValue "Position" property)) =
      (object.fault? "line" false decodeCoordinate).or
        (object.fault? "character" false decodeCoordinate) := by
    simp only [position, field, decodeValue, if_true, List.findSome?_cons, List.findSome?_nil]
    cases object.fault? "line" false _ <;> cases object.fault? "character" false _ <;> rfl
  rw [decode_positionCodec, hfaults]
  cases hline : coordinate object "line" with
  | error first =>
      rw [coordinate_eq_error_iff.mp hline]
      simp [bind, Except.bind]
  | ok line =>
      have hnone : object.fault? "line" false decodeCoordinate = none := by
        rw [Option.eq_none_iff_forall_ne_some]
        intro first hfirst
        rw [coordinate_eq_error_iff.mpr hfirst] at hline
        cases hline
      rw [hnone, Option.none_or, ← coordinate_eq_error_iff]
      cases coordinate object "character" <;> simp [bind, Except.bind]

/-- The codec of positions looks at its two keys and at nothing else. -/
theorem heeds_positionCodec {codecs : String → Codec} :
    positionCodec.Heeds declared codecs
      [("line", .base .integer), ("character", .base .integer)] := by
  intro first second hpresent hvalues
  have hget : ∀ field ∈ [("line", Shape.base .integer), ("character", .base .integer)],
      field.2 = .base .integer → first.get? field.1 = second.get? field.1 := by
    intro field hfield hshape
    have hsome := hpresent field hfield
    have hequal := hvalues field hfield
    rw [hshape] at hequal
    cases hfirst : first.get? field.1 with
    | none =>
        symm
        simpa [hfirst] using hsome.symm
    | some v =>
        rw [hfirst, Option.isSome_some] at hsome
        obtain ⟨w, hsecond⟩ := Option.isSome_iff_exists.mp hsome.symm
        rw [hsecond, (hequal v w hfirst hsecond).1.eq_of_base]
  have hcoordinate : ∀ key, first.get? key = second.get? key →
      coordinate first key = coordinate second key := by
    intro key hkey
    rw [coordinate, coordinate, Members.required, Members.required, hkey]
  rw [decode_positionCodec, decode_positionCodec,
    hcoordinate "line" (hget _ List.mem_cons_self rfl),
    hcoordinate "character" (hget _ (List.mem_cons_of_mem _ List.mem_cons_self) rfl)]

/-! ## All structures -/

section

variable {name : String} {s : Structure} (hs : structure? name = some s)

include hs

theorem declared_of_structure? : declared name =
    some ((context.catalog.flatten s).map fun property =>
      (property.name, context.shape property.type)) := by
  rw [declared, hs, Option.map_some]

/-- Every structure of the library looks at its declared keys and at nothing else. -/
theorem heeds_entity :
    (library.entity name).Heeds declared library.entity
      ((context.catalog.flatten s).map fun property =>
        (property.name, context.shape property.type)) := by
  by_cases hname : name = "Position"
  · subst hname
    rw [structure?_position, Option.some.injEq] at hs
    subst hs
    have hshape : context.shape (.base "uinteger") = .base .integer :=
      context.shapeWith_of_base rfl _
    have hfields : position.properties.map (fun property =>
        (property.name, context.shape property.type)) =
        [("line", .base .integer), ("character", .base .integer)] := by
      simp only [position, field, List.map_cons, List.map_nil, hshape]
    rw [entity_position, flatten_position, hfields]
    exact heeds_positionCodec
  · have hheeds := (RecordPlan.heeds_codec fun _ hfield =>
      context.carriedPlan_passthrough name s hfield : Codec.Heeds declared library.entity _ _)
    rw [Context.carriedPlan, Context.planRecord, List.map_map] at hheeds
    rw [entity_of_structure? hs hname]
    exact hheeds

/-- A structure fails with the fault of the first of its properties that has one. -/
theorem decode_eq_error_iff {object : Members} {error : DecodeError} :
    library.decode name (.object object) = .error error ↔
      (context.catalog.flatten s).findSome? (fun property =>
        object.fault? property.name property.optional (decodeValue name property)) =
          some error := by
  change (library.entity name).decode _ = _ ↔ _
  by_cases hname : name = "Position"
  · subst hname
    rw [structure?_position, Option.some.injEq] at hs
    subst hs
    rw [entity_position, flatten_position, decode_positionCodec_eq_error_iff]
  · have hvalue : ∀ property, decodeValue name property =
        (context.shape property.type).decode library.entity := fun _ => if_neg hname
    rw [entity_of_structure? hs hname, RecordPlan.decode_eq_error_iff fun _ hfield =>
      context.carriedPlan_passthrough name s hfield, Context.carriedPlan, Context.planRecord,
      List.findSome?_map]
    simp only [hvalue]
    rfl

end

/-- Documents that are alike at the declared keys are decoded alike. -/
theorem decode_eq_decode {name : String} {first second : Json}
    (h : Shape.Alike declared (.entity name) first second) :
    library.decode name first = library.decode name second := by
  change (Shape.entity name).decode library.entity _ = (Shape.entity name).decode library.entity _
  refine (h.decode_eq ?_).1
  intro other fields hdeclared
  obtain ⟨s, hs, rfl⟩ := Option.map_eq_some_iff.mp hdeclared
  exact heeds_entity hs

/-- Objects that hold the same members under the declared keys, in whatever order and among whatever
others, are decoded alike. -/
theorem decode_eq_decode_of_perm {name : String} {s : Structure} (hs : structure? name = some s)
    {first second : Members}
    (hperm : (first.under ((context.catalog.flatten s).map Property.name)).Perm
      (second.under ((context.catalog.flatten s).map Property.name)))
    (hkeys : ((first.under ((context.catalog.flatten s).map Property.name)).map Prod.fst).Nodup) :
    library.decode name (.object first) = library.decode name (.object second) := by
  have hget : ∀ field ∈ (context.catalog.flatten s).map fun property =>
      (property.name, context.shape property.type),
      first.get? field.1 = second.get? field.1 := by
    rw [List.forall_mem_map]
    intro property hproperty
    have hkey : property.name ∈ (context.catalog.flatten s).map Property.name :=
      List.mem_map_of_mem hproperty
    rw [← Members.get?_under hkey first, ← Members.get?_under hkey second]
    exact Members.get?_eq_of_perm hperm hkeys _
  refine decode_eq_decode (.members (declared_of_structure? hs) ?_ ?_)
  · intro field hfield
    rw [hget field hfield]
  · intro field hfield v w hv hw
    rw [hget field hfield, hw, Option.some.injEq] at hv
    rw [hv]
    exact .same _ _

/-- The decoder of a structure looks at the declared keys only. Objects that agree under them, at
the positions of structures in the same sense again, give the same result, be it a value or an
error. An error is that of the first property, in the order in which they are carried, whose own
value is missing or rejected. So neither the order of the members nor any other member matters. -/
theorem decode_looks_at_declared (name : String) (s : Structure) (hs : structure? name = some s) :
    (∀ first second : Members,
      Shape.Alike declared (.entity name) (.object first) (.object second) →
        library.decode name (.object first) = library.decode name (.object second)) ∧
      (∀ (object : Members) (error : DecodeError),
        library.decode name (.object object) = .error error ↔
          (context.catalog.flatten s).findSome? (fun property =>
            object.fault? property.name property.optional (decodeValue name property)) =
              some error) ∧
      ∀ first second : Members,
        (first.under ((context.catalog.flatten s).map Property.name)).Perm
            (second.under ((context.catalog.flatten s).map Property.name)) →
          ((first.under ((context.catalog.flatten s).map Property.name)).map Prod.fst).Nodup →
            library.decode name (.object first) = library.decode name (.object second) :=
  ⟨fun _ _ => decode_eq_decode, fun _ _ => decode_eq_error_iff hs,
    fun _ _ => decode_eq_decode_of_perm hs⟩

/-- The structure of nodes, which can be nested. -/
def node : Structure where
  name := "Node"
  properties := [field "name" (.base "string"), maybe "parent" (.reference "Node")]

theorem flatten_node : context.catalog.flatten node = node.properties :=
  flatten_of_parents_eq_nil _ rfl

theorem declared_node :
    declared "Node" = some [("name", .base .string), ("parent", .entity "Node")] := by
  have hnode : structure? "Node" = some node := rfl
  have hname : context.shape (.base "string") = .base .string := context.shapeWith_of_base rfl _
  have hparent : context.shape (.reference "Node") = .entity "Node" := by
    rw [Context.shape, Context.shapeWith_reference]
    rfl
  rw [declared_of_structure? hnode, flatten_node]
  simp only [node, field, maybe, List.map_cons, List.map_nil, hname, hparent]

/-- A node and the same node with members in another order and of no meaning, also in its parent;
and a node without a name, whose parent has none either. -/
theorem decode_looks_at_declared_node :
    library.decode "Node" (.object [("name", .string "a"),
        ("parent", .object [("name", .string "b")])]) =
      library.decode "Node" (.object [("parent", .object [("depth", .null), ("name", .string "b")]),
        ("name", .string "a"), ("parents", .boolean true)]) ∧
    library.decode "Node" (.object [("parent", .object [("parent", .null)])]) =
      .error (.missingField "name") := by
  obtain ⟨halike, herror, _⟩ := decode_looks_at_declared "Node" node rfl
  constructor
  · apply halike
    refine .members declared_node (by decide)
      (List.forall_mem_cons.mpr ⟨?_, List.forall_mem_singleton.mpr ?_⟩)
    · intro v w hv hw
      cases hv
      cases hw
      exact .same _ _
    · intro v w hv hw
      cases hv
      cases hw
      refine .members declared_node (by decide)
        (List.forall_mem_cons.mpr ⟨?_, List.forall_mem_singleton.mpr nofun⟩)
      intro v w hv hw
      cases hv
      cases hw
      exact .same _ _
  · rw [herror, flatten_node]
    rfl

end Sample

end ProtocolCodec
