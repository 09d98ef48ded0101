import ProtocolCodec.Proofs.Codec.Generated
import ProtocolCodec.Sample

/-!
# Normal forms in the sample

Every type of the sample gives back what it has decoded, whatever the document was, with one
exception. One structure has an optional field of type null, which any document that is not null
fills; once encoded the field reads as empty, and stays so.

That a type settles is read off the metamodel: which property is of type null, what refers to the
structure that has it, and whether identifiers tell properties apart are finite questions.
-/

namespace ProtocolCodec

/-! ## Emptying a field -/

/-- The slots of a record with one field emptied. -/
def Datum.emptied (field : String) (slots : List (String × Datum)) : List (String × Datum) :=
  slots.map fun slot => if slot.1 = field then (field, .absent) else slot

theorem Datum.names_emptied (field : String) (slots : List (String × Datum)) :
    (emptied field slots).map Prod.fst = slots.map Prod.fst := by
  rw [emptied, List.map_map]
  apply List.map_congr_left
  intro slot _
  by_cases heq : slot.1 = field <;> simp [heq]

theorem Datum.slot_emptied (field other : String) (slots : List (String × Datum)) :
    slot (emptied field slots) other =
      if other = field then .absent else slot slots other := by
  induction slots with
  | nil => simp [emptied, slot]
  | cons first rest ih =>
      obtain ⟨name, content⟩ := first
      have hcons : emptied field ((name, content) :: rest) =
          (if name = field then (field, .absent) else (name, content)) :: emptied field rest := rfl
      rw [hcons]
      by_cases hname : name = field
      · subst hname
        rw [if_pos rfl]
        by_cases hother : other = name
        · subst hother
          rw [slot_cons_self, if_pos rfl]
        · rw [slot_cons_of_ne hother, slot_cons_of_ne hother, ih]
      · rw [if_neg hname]
        by_cases hother : other = name
        · subst hother
          rw [slot_cons_self, slot_cons_self, if_neg hname]
        · rw [slot_cons_of_ne hother, slot_cons_of_ne hother, ih]

namespace Sample

/-! ## Positions -/

theorem exists_of_coordinate {object : Members} {key : String} {datum : Datum}
    (h : coordinate object key = .ok datum) : ∃ n, datum = .integer n := by
  unfold coordinate Members.required at h
  cases hget : object.get? key with
  | none =>
      rw [hget] at h
      cases h
  | some value =>
      simp only [hget, bind, Except.bind] at h
      cases hvalue : value.int64? with
      | none =>
          rw [hvalue] at h
          cases h
      | some n =>
          rw [hvalue] at h
          exact ⟨n, (Except.ok.inj h).symm⟩

theorem coordinate_of_get? {object : Members} {key : String} {n : Int64}
    (h : object.get? key = some (.ofInt64 n)) : coordinate object key = .ok (.integer n) := by
  have hword : (Json.ofInt64 n).int64? = some n := Json.toInt64?_ofInt64 n
  simp only [coordinate, Members.required, h, hword, orError, bind, Except.bind]

/-- What is decoded as a position has a line and a character. -/
theorem exists_of_decode_positionCodec {value : Json} {datum : Datum}
    (h : positionCodec.decode value = .ok datum) :
    ∃ line character,
      datum = .record [("line", .integer line), ("character", .integer character)] := by
  cases value with
  | object object =>
      simp only [positionCodec, Json.members?, orError, bind, Except.bind] at h
      cases hline : coordinate object "line" with
      | error e =>
          rw [hline] at h
          cases h
      | ok line =>
          cases hcharacter : coordinate object "character" with
          | error e =>
              rw [hline, hcharacter] at h
              cases h
          | ok character =>
              rw [hline, hcharacter] at h
              obtain ⟨m, rfl⟩ := exists_of_coordinate hline
              obtain ⟨n, rfl⟩ := exists_of_coordinate hcharacter
              exact ⟨m, n, (Except.ok.inj h).symm⟩
  | _ => cases h

/-- The codec of positions, written by hand, settles. -/
theorem settles_positionCodec : positionCodec.Settles := by
  intro height
  constructor
  · intro value _ h
    obtain ⟨line, character, habsent⟩ := exists_of_decode_positionCodec h
    cases habsent
  · intro value datum _ h _
    obtain ⟨line, character, rfl⟩ := exists_of_decode_positionCodec h
    exact nofun
  · intro value datum _ h
    obtain ⟨line, character, rfl⟩ := exists_of_decode_positionCodec h
    have hline : coordinate [("line", .ofInt64 line), ("character", .ofInt64 character)] "line" =
        .ok (.integer line) := coordinate_of_get? rfl
    have hcharacter : coordinate [("line", .ofInt64 line), ("character", .ofInt64 character)]
        "character" = .ok (.integer character) := coordinate_of_get? rfl
    change (do
      let m ← coordinate [("line", .ofInt64 line), ("character", .ofInt64 character)] "line"
      let n ← coordinate [("line", .ofInt64 line), ("character", .ofInt64 character)] "character"
      .ok (Datum.record [("line", m), ("character", n)])) = _
    rw [hline, hcharacter]
    rfl

/-! ## What the metamodel writes down -/

/-- What the types of the sample are read against. -/
def context : Context :=
  .ofModel model settings

theorem injOn_fieldName : Set.InjOn Naming.fieldName {name | name ∈ model.propertyNames} := by
  have hnodup : ((keepFirst id model.propertyNames).map Naming.fieldName).Nodup := by
    decide +kernel
  intro first hfirst second hsecond heq
  exact List.inj_on_of_nodup_map hnodup (mem_keepFirst_id.mpr hfirst)
    (mem_keepFirst_id.mpr hsecond) heq

section

variable {s : Structure} (hs : s ∈ model.structures) {property : Property}
  (hproperty : property ∈ s.properties) (owner : String)

include hs hproperty

/-- The only property of type null is the one called so. -/
theorem forgets_planField_iff :
    (context.planField owner property).forgets = true ↔ property.name = "nothing" := by
  have hown : ∀ s ∈ model.structures, ∀ property ∈ s.properties,
      (BaseKind.of? property.type = some .null ↔ property.name = "nothing") ∧
        (property.name = "nothing" → property.optional = true) := by
    decide +kernel
  have haliases : ∀ a ∈ context.catalog.aliases, BaseKind.of? a.type ≠ some .null := by
    decide +kernel
  obtain ⟨hnull, hoptional⟩ := hown s hs property hproperty
  rw [FieldPlan.forgets_iff]
  constructor
  · rintro ⟨_, hshape⟩
    rcases context.base_of_shapeWith (by decide) hshape with hbase | ⟨a, ha, hbase⟩
    · exact hnull.mp hbase
    · exact absurd hbase (haliases a ha)
  · intro hname
    exact ⟨hoptional hname, context.shapeWith_of_base (hnull.mpr hname) _⟩

theorem ne_of_mem_entities_planField :
    ∀ name ∈ (context.planField owner property).shape.entities, name ≠ "Everything" := by
  have hown : ∀ s ∈ model.structures, ∀ property ∈ s.properties,
      ∀ reference ∈ property.type.references, Naming.typeName reference ≠ "Everything" := by
    decide +kernel
  have haliases : ∀ a ∈ context.catalog.aliases, ∀ reference ∈ a.type.references,
      Naming.typeName reference ≠ "Everything" := by
    decide +kernel
  intro name hname
  obtain ⟨reference, rfl, hmem | ⟨a, ha, hmem⟩⟩ := context.exists_of_mem_entities_shapeWith hname
  · exact hown s hs property hproperty reference hmem
  · exact haliases a ha reference hmem

end

/-- Every field comes from a property of a structure of the sample. Only the structure with a field
of every kind has the one that forgets: nothing inherits from it. -/
theorem exists_of_mem_fields {s : Structure} (hs : s ∈ model.structures) {owner : String}
    {field : FieldPlan} (hfield : field ∈ (context.carriedPlan owner s).fields) :
    ∃ t ∈ model.structures, ∃ property ∈ t.properties, field = context.planField owner property ∧
      (property.name = "nothing" → s.name = "Everything") := by
  have hparents : ∀ s ∈ model.structures, "Everything" ∉ s.parents := by
    decide +kernel
  have howner : ∀ s ∈ model.structures, ∀ property ∈ s.properties,
      property.name = "nothing" → s.name = "Everything" := by
    decide +kernel
  obtain ⟨property, hproperty, rfl⟩ := List.mem_map.mp hfield
  obtain ⟨t, ht, hown, hcarried⟩ := Catalog.exists_structure_of_mem_flatten hs hproperty
  refine ⟨t, ht, property, hown, rfl, ?_⟩
  intro hname
  rcases hcarried with rfl | ⟨u, hu, hparent⟩
  · exact howner t ht property hown hname
  · rw [howner t ht property hown hname] at hparent
    exact absurd hparent (hparents u hu)

/-! ## All types but one -/

/-- The library has the codecs written by hand and those of the admitted declarations. -/
theorem library_eq :
    library = [("Position", .written positionCodec), ("LSPAny", .written .json)] ++
      (({ settings } : Run).admitted model.declarations).map fun d =>
        (d.typeName, .planned (context.plan d)) := by
  have hplans : plans = (({ settings } : Run).admitted model.declarations).map context.plan :=
    plans_emit model settings
  have hentry : (fun plan => (plan.name, Definition.planned plan)) ∘ context.plan =
      fun d => (d.typeName, .planned (context.plan d)) := by
    funext d
    rw [Function.comp_apply, Context.plan_name]
  rw [library, hplans, List.map_map, hentry]

/-- Every entry of the library but one settles, given that the others do. -/
theorem settlesIn_of_mem_library {entry : String × Definition} (h : entry ∈ library)
    (hname : entry.1 ≠ "Everything") : entry.2.SettlesIn (· ≠ "Everything") := by
  have haliases : ∀ a ∈ model.aliases, context.resolve a.type ≠ .named "Everything" := by
    decide +kernel
  have htypeName : Naming.typeName "Everything" = "Everything" := by
    decide +kernel
  simp only [library_eq, List.cons_append, List.nil_append, List.mem_cons, List.mem_map] at h
  rcases h with rfl | rfl | ⟨d, hadmitted, rfl⟩
  · exact settles_positionCodec
  · exact Codec.settles_json
  · have hd := mem_of_findName? (Run.findName?_of_mem_admitted hadmitted)
    simp only [Model.declarations, List.mem_append, List.mem_map] at hd
    rcases hd with (⟨e, _, rfl⟩ | ⟨s, hs, rfl⟩) | ⟨a, ha, rfl⟩
    · exact nodup_keepFirst _
    · refine ⟨Context.regular_carriedPlan injOn_fieldName _ hs, ?_⟩
      intro field hfield
      obtain ⟨t, ht, property, hown, rfl, hnothing⟩ := exists_of_mem_fields hs hfield
      refine ⟨?_, ne_of_mem_entities_planField ht hown _⟩
      rw [Bool.eq_false_iff, ne_eq, forgets_planField_iff ht hown]
      intro hforgets
      apply hname
      rw [Declaration.typeName, Declaration.name, hnothing hforgets, htypeName]
    · rintro next htarget rfl
      exact haliases a ha htarget

/-- All codecs of the library but one settle. -/
theorem settles_entity {name : String} (hname : name ≠ "Everything") :
    (library.entity name).Settles :=
  Library.settles_entity (· ≠ "Everything") (fun _ hentry => settlesIn_of_mem_library hentry) name
    hname

/-! ## The type with a field of every kind -/

/-- The plan of the structure that has a field of every kind. -/
def everythingPlan : RecordPlan :=
  context.carriedPlan "Everything" { name := "Everything", properties := everything }

/-- A structure or enumeration that is neither written by hand nor excluded is in the library with
its plan. -/
theorem find?_library (name : String) (d : Declaration)
    (hwritten : findName? Prod.fst
      [("Position", Definition.written positionCodec), ("LSPAny", .written .json)] name = none)
    (hexcluded : settings.isExcluded name = false)
    (hdeclared : findName? Declaration.typeName model.declarations name = some d)
    (hsynonym : ∀ a, d ≠ .synonym a) : library.find? name = some (.planned (context.plan d)) := by
  have hfind : findName? Prod.fst library name = some (d.typeName, .planned (context.plan d)) := by
    rw [library_eq, findName?_append, hwritten, Option.none_or, findName?_map]
    change (findName? Declaration.typeName _ _).map _ = _
    rw [Run.findName?_admitted, hexcluded, hdeclared]
    rfl
  refine Library.find?_of_findName? hfind ?_
  intro plan hplan
  cases d with
  | enumeration e => cases hplan
  | record s => cases hplan
  | synonym a => exact hsynonym a rfl

theorem entity_everything : library.entity "Everything" = everythingPlan.codec library.entity :=
  Library.entity_of_record <| find?_library "Everything"
    (.record { name := "Everything", properties := everything }) rfl (by decide +kernel) rfl nofun

theorem mem_structures_everything :
    { name := "Everything", properties := everything } ∈ model.structures := by
  simp [model, structures]

theorem regular_everythingPlan : everythingPlan.Regular :=
  Context.regular_carriedPlan injOn_fieldName _ mem_structures_everything

/-- One field of the structure forgets. -/
theorem forgets_iff_of_mem_fields {field : FieldPlan} (hfield : field ∈ everythingPlan.fields) :
    field.forgets = true ↔ field.field = "nothing" := by
  have hidentifier : Naming.fieldName "nothing" = "nothing" := by
    decide +kernel
  have hnothing : "nothing" ∈ model.propertyNames := by
    decide +kernel
  obtain ⟨t, ht, property, hown, rfl, _⟩ := exists_of_mem_fields mem_structures_everything hfield
  have hname : property.name ∈ model.propertyNames :=
    List.mem_flatMap.mpr ⟨t, ht, List.mem_map_of_mem hown⟩
  rw [forgets_planField_iff ht hown, ← injOn_fieldName.eq_iff hname hnothing, hidentifier]
  rfl

theorem exists_forgetful :
    ∃ field ∈ everythingPlan.fields, field.key = "nothing" ∧ field.field = "nothing" := by
  have hidentifier : Naming.fieldName "nothing" = "nothing" := by
    decide +kernel
  have hown : "nothing" ∈ everything.map Property.name := by
    decide +kernel
  have hcarried : "nothing" ∈ (context.catalog.flatten
      { name := "Everything", properties := everything }).map Property.name :=
    Catalog.mem_names_flatten_iff.mpr ⟨_, Relation.ReflTransGen.refl, hown⟩
  obtain ⟨property, hproperty, hname⟩ := List.mem_map.mp hcarried
  refine ⟨context.planField "Everything" property, List.mem_map_of_mem hproperty, hname, ?_⟩
  rw [← hidentifier, ← hname]
  rfl

/-! ## What comes back of it -/

/-- The document is of the type with a field of every kind, and its member for the field of type
null is not null. -/
def FillsNothing (name : String) (value : Json) : Prop :=
  name = "Everything" ∧ ∃ (object : Members) (content : Json), value = .object object ∧
    object.get? "nothing" = some content ∧ content ≠ .null

/-- What is decoded as the structure has its slots, the forgetful one filled just when the key is
there. -/
theorem exists_of_decode_everything {value : Json} {datum : Datum}
    (h : library.decode "Everything" value = .ok datum) :
    ∃ (object : Members) (slots : List (String × Datum)), value = .object object ∧
      datum = .record slots ∧ slots.map Prod.fst = everythingPlan.fields.map FieldPlan.field ∧
      (∀ field ∈ everythingPlan.fields,
        field.decode library.entity object = .ok (Datum.slot slots field.field)) ∧
      Datum.slot slots "nothing" =
        if (object.optional "nothing").isSome then .unit else .absent := by
  have hdecode : (everythingPlan.codec library.entity).decode value = .ok datum := by
    rw [← entity_everything]
    exact h
  obtain ⟨object, slots, rfl, rfl, hnames, hdecoded⟩ :=
    RecordPlan.exists_of_decode regular_everythingPlan hdecode
  obtain ⟨field, hfield, hkey, hidentifier⟩ := exists_forgetful
  have hforgets := (forgets_iff_of_mem_fields hfield).mpr hidentifier
  have hnothing := hdecoded field hfield
  rw [FieldPlan.decode_of_forgets (regular_everythingPlan.passthrough field hfield) hforgets,
    Except.ok.injEq, hkey, hidentifier] at hnothing
  exact ⟨object, slots, rfl, rfl, hnames, hdecoded, hnothing.symm⟩

/-- The exception is a document that has the key of the forgetful field. -/
theorem fillsNothing_everything_iff {object : Members} :
    FillsNothing "Everything" (.object object) ↔ (object.optional "nothing").isSome = true := by
  rw [Option.isSome_iff_exists]
  constructor
  · rintro ⟨_, members, content, hobject, hget, hnull⟩
    cases hobject
    refine ⟨content, Option.filter_eq_some_iff.mpr ⟨hget, ?_⟩⟩
    cases content <;> first | rfl | exact absurd rfl hnull
  · rintro ⟨content, hcontent⟩
    obtain ⟨hget, hnull⟩ := Option.filter_eq_some_iff.mp hcontent
    refine ⟨rfl, object, content, rfl, hget, ?_⟩
    rintro rfl
    cases hnull

/-- Data come back with the forgetful field emptied and all others kept. -/
theorem decode_encode_everything {value : Json} {slots again : List (String × Datum)}
    (h : library.decode "Everything" value = .ok (.record slots))
    (hnames : again.map Prod.fst = slots.map Prod.fst)
    (hagain : ∀ field, Datum.slot again field =
      if field = "nothing" then .absent else Datum.slot slots field) :
    library.decode "Everything" (library.encode "Everything" (.record slots)) =
      .ok (.record again) := by
  obtain ⟨object, _, rfl, hslots, hfields, hdecoded, _⟩ := exists_of_decode_everything h
  cases hslots
  have hknown : ∀ field ∈ everythingPlan.fields, ∀ name ∈ field.shape.entities,
      name ≠ "Everything" := by
    intro field hfield
    obtain ⟨t, ht, property, hown, rfl, _⟩ := exists_of_mem_fields mem_structures_everything hfield
    exact ne_of_mem_entities_planField ht hown _
  have hcodec : (everythingPlan.codec library.entity).decode
      ((everythingPlan.codec library.entity).encode (.record slots)) = .ok (.record again) := by
    refine RecordPlan.decode_encode_of_decode regular_everythingPlan
      (fun name hname => settles_entity hname _) hknown (Nat.lt_succ_self _) hdecoded
      (hnames.trans hfields) ?_
    intro field hfield
    rw [hagain]
    simp only [forgets_iff_of_mem_fields hfield]
  rw [← entity_everything] at hcodec
  exact hcodec

/-- Data in which the forgetful field is empty come back. -/
theorem decode_encode_of_empty {value : Json} {slots : List (String × Datum)}
    (h : library.decode "Everything" value = .ok (.record slots))
    (hnothing : Datum.slot slots "nothing" = .absent) :
    library.decode "Everything" (library.encode "Everything" (.record slots)) =
      .ok (.record slots) := by
  refine decode_encode_everything h rfl ?_
  intro field
  split
  next heq => rw [heq, hnothing]
  next => rfl

/-! ## A document that fills the field -/

/-- A document that fills the field of type null and has a malformed tag. -/
def filledDocument : Members :=
  [("nothing", .boolean true), ("id", .string "first"), ("payload", .null),
   ("thing", .object [("kind", .string "A")]), ("tags", .array [.string "tag", .null])]

/-- What is decoded from it. -/
def filledSlots : List (String × Datum) :=
  [("tags", .list [.text "tag", .text ""]), ("children", .absent), ("payload", .json .null),
   ("options", .absent), ("range", .absent), ("label", .absent), ("names", .absent),
   ("literal_kind", .absent), ("data", .absent), ("thing", .record [("kind", .variant "A")]),
   ("id", .text "first"), ("counts", .absent), ("token", .absent), ("nothing", .unit)]

theorem decode_planField_of_required {codecs : String → Codec} {owner : String}
    {property : Property} {shape : Shape} {object : Members} {value : Json}
    (hoptional : property.optional = false) (hshape : context.shape property.type = shape)
    (hget : object.get? property.name = some value) :
    (context.planField owner property).decode codecs object = shape.decode codecs value := by
  subst hshape
  simp only [FieldPlan.decode, Context.planField, hoptional, Members.required, hget]
  rfl

theorem decode_planField_of_missing {codecs : String → Codec} {owner : String}
    {property : Property} {object : Members} (hoptional : property.optional = true)
    (hget : object.get? property.name = none) :
    (context.planField owner property).decode codecs object = .ok .absent := by
  simp only [FieldPlan.decode, Context.planField, hoptional, Members.optional, hget]
  split <;> rfl

theorem fields_carriedPlan {s : Structure} (hparents : s.parents = []) (owner : String) :
    (context.carriedPlan owner s).fields =
      (keepFirst Property.name s.properties).map (context.planField owner) := by
  rw [Context.carriedPlan, Context.planRecord, flatten_of_parents_eq_nil _ hparents]

theorem decode_kind : library.decode "Kind" (.string "A") = .ok (.variant "A") := by
  have hentity : library.entity "Kind" = EnumPlan.codec _ :=
    Library.entity_of_enumeration <| find?_library "Kind" (.enumeration _) rfl (by decide +kernel)
      rfl nofun
  change (library.entity "Kind").decode _ = _
  rw [hentity]
  rfl

theorem decode_thing :
    library.decode "Thing" (.object [("kind", .string "A")]) =
      .ok (.record [("kind", .variant "A")]) := by
  have hregular : (context.carriedPlan "Thing"
      { name := "Thing", properties := [field "kind" (.reference "Kind")] }).Regular :=
    Context.regular_carriedPlan injOn_fieldName _ List.mem_cons_self
  have hentity : library.entity "Thing" = RecordPlan.codec library.entity _ :=
    Library.entity_of_record <| find?_library "Thing" (.record _) rfl (by decide +kernel) rfl nofun
  have hshape : context.shape (.reference "Kind") = .entity "Kind" := by
    rw [Context.shape, Context.shapeWith_reference]
    rfl
  change (library.entity "Thing").decode _ = _
  rw [hentity]
  refine RecordPlan.decode_object hregular ?_ ?_
  · rw [fields_carriedPlan rfl]
    rfl
  · rw [fields_carriedPlan rfl]
    intro field hfield
    cases List.mem_singleton.mp hfield
    rw [decode_planField_of_required rfl hshape rfl]
    exact decode_kind

theorem decode_filledDocument :
    library.decode "Everything" (.object filledDocument) = .ok (.record filledSlots) := by
  have htags : context.shape (.array (.base "string")) = .sequence (.base .string) := by
    rw [Context.shape, Context.shapeWith_array, context.shapeWith_of_base rfl]
  have hpayload : context.shape (.reference "Payload") = .json := by
    rw [Context.shape, Context.shapeWith_reference]
    exact context.comesFrom_resolve (.union [.base "string", .base "integer"]) _
  have hthing : context.shape (.reference "ThingAlias") = .entity "Thing" := by
    rw [Context.shape, Context.shapeWith_reference]
    change context.shapeWith _ (.reference "Thing") = _
    rw [Context.shapeWith_reference]
    rfl
  have hid : context.shape (.reference "Identifier") = .base .string := by
    rw [Context.shape, Context.shapeWith_reference]
    exact context.shapeWith_of_base rfl _
  have hnothing : (context.planField "Everything" (maybe "nothing" (.base "null"))).decode
      library.entity filledDocument = .ok .unit := by
    have hnull : context.shape (.base "null") = .base .null := context.shapeWith_of_base rfl _
    simp only [FieldPlan.decode, Context.planField, maybe, hnull]
    rfl
  have hidentifiers : everything.map (fun property => Naming.fieldName property.name) =
      ["tags", "children", "payload", "options", "range", "label", "names", "literal_kind", "data",
       "thing", "id", "counts", "token", "nothing"] := by
    decide +kernel
  have hfields : everythingPlan.fields = everything.map (context.planField "Everything") :=
    fields_carriedPlan rfl "Everything"
  change (library.entity "Everything").decode _ = _
  rw [entity_everything]
  refine RecordPlan.decode_object regular_everythingPlan ?_ ?_
  · rw [hfields, List.map_map]
    exact hidentifiers.symm
  · rw [hfields]
    simp only [everything, List.map_cons, List.map_nil, List.forall_mem_cons]
    and_intros
    -- nine optional fields have no member
    any_goals exact decode_planField_of_missing rfl rfl
    · rw [decode_planField_of_required rfl htags rfl]
      rfl
    · rw [decode_planField_of_required rfl hpayload rfl]
      rfl
    · rw [decode_planField_of_required rfl hthing rfl]
      exact decode_thing
    · rw [decode_planField_of_required rfl hid rfl]
      rfl
    · exact hnothing
    · exact List.forall_mem_nil _

/-! ## The sample as a whole -/

/-- Decoding a document of any type, encoding what was decoded and decoding it again gives the same
value, however malformed the document was in what the decoders put up with. The one exception are
documents that fill the field of type null: it is empty the second time, nothing else has changed,
and the result comes back from then on. -/
theorem decode_encode_decoded (name : String) (value : Json) (datum : Datum)
    (h : library.decode name value = .ok datum) :
    (library.decode name (library.encode name datum) = .ok datum ↔ ¬ FillsNothing name value) ∧
      (FillsNothing name value → ∃ slots, datum = .record slots ∧
        Datum.slot slots "nothing" = .unit ∧
        library.decode name (library.encode name datum) =
          .ok (.record (Datum.emptied "nothing" slots)) ∧
        library.decode name (library.encode name (.record (Datum.emptied "nothing" slots))) =
          .ok (.record (Datum.emptied "nothing" slots))) := by
  by_cases hname : name = "Everything"
  · -- here alone the second value can differ, in the field that was filled
    subst hname
    obtain ⟨object, slots, rfl, rfl, _, _, hnothing⟩ := exists_of_decode_everything h
    have hemptied := decode_encode_everything h (Datum.names_emptied "nothing" slots)
      fun field => Datum.slot_emptied "nothing" field slots
    have hempty : Datum.slot (Datum.emptied "nothing" slots) "nothing" = .absent := by
      rw [Datum.slot_emptied, if_pos rfl]
    rw [fillsNothing_everything_iff]
    by_cases hfilled : (object.optional "nothing").isSome = true
    · rw [if_pos hfilled] at hnothing
      refine ⟨iff_of_false ?_ (not_not_intro hfilled), fun _ => ⟨slots, rfl, hnothing, hemptied,
        decode_encode_of_empty hemptied hempty⟩⟩
      intro hsame
      rw [hemptied, Except.ok.injEq, Datum.record.injEq] at hsame
      rw [hsame, hnothing] at hempty
      cases hempty
    · rw [if_neg hfilled] at hnothing
      exact ⟨iff_of_true (decode_encode_of_empty h hnothing) hfilled, fun hfills =>
        absurd hfills hfilled⟩
  · have hfills : ¬ FillsNothing name value := fun hfills => hname hfills.1
    have hsettles := (settles_entity hname (value.height + 1)).decode_encode (Nat.lt_succ_self _) h
    exact ⟨iff_of_true hsettles hfills, fun hfilled => absurd hfilled hfills⟩

theorem decode_encode_decoded_filled :
    library.decode "Everything" (.object filledDocument) = .ok (.record filledSlots) ∧
      FillsNothing "Everything" (.object filledDocument) ∧
      library.decode "Everything" (library.encode "Everything" (.record filledSlots)) =
        .ok (.record (Datum.emptied "nothing" filledSlots)) := by
  have hfills : FillsNothing "Everything" (.object filledDocument) :=
    ⟨rfl, filledDocument, .boolean true, rfl, rfl, nofun⟩
  obtain ⟨slots, hslots, _, hagain, _⟩ :=
    (decode_encode_decoded "Everything" _ _ decode_filledDocument).2 hfills
  cases hslots
  exact ⟨decode_filledDocument, hfills, hagain⟩

end Sample

end ProtocolCodec
