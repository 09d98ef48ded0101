import ProtocolCodec.Codec.Semantics
import ProtocolCodec.Proofs.Inheritance
import ProtocolCodec.Proofs.Json.Scalars

/-!
# When decoding undoes encoding

The codec of a structure loses a value in two ways only. A decimal that is not finite is written as
null; and an optional field whose content is written as null reads as a field that holds nothing,
unless the field passes documents through. Whatever values the named types have, and whatever codecs
that decode what they encode, every other value comes back.
-/

namespace ProtocolCodec

/-! ## Values of a shape -/

/-- Values for the named types, and codecs that give them back. That nothing is there is the content
of a field, not a value of a type. -/
structure Entities where
  codec : String → Codec
  Holds : String → Datum → Prop
  not_holds_absent : ∀ name, ¬ Holds name .absent
  decode_encode : ∀ {name : String} {datum : Datum}, Holds name datum →
    (codec name).decode ((codec name).encode datum) = .ok datum

/-- The values of a primitive type. -/
def BaseKind.Holds : BaseKind → Datum → Prop
  | .string, .text _ => True
  | .integer, .integer _ => True
  | .decimal, .decimal _ => True
  | .boolean, .boolean _ => True
  | .null, .unit => True
  | _, _ => False

namespace Shape

/-- The values of a shape. -/
def Holds (entities : Entities) : Shape → Datum → Prop
  | .base kind, datum => kind.Holds datum
  | .entity name, datum => entities.Holds name datum
  | .sequence item, .list items => ∀ datum ∈ items, item.Holds entities datum
  | .json, .json _ => True
  | _, _ => False

/-- Every decimal in a value of a shape is finite. What the values of named types are made of is not
seen from here. -/
def DecimalsFinite : Shape → Datum → Prop
  | .base .decimal, .decimal x => ∃ value, x = .finite value
  | .sequence item, .list items => ∀ datum ∈ items, item.DecimalsFinite datum
  | _, _ => True

theorem not_holds_absent (entities : Entities) (shape : Shape) :
    ¬ shape.Holds entities .absent := by
  cases shape with
  | base kind => cases kind <;> exact id
  | entity name => exact entities.not_holds_absent name
  | sequence item => exact id
  | json => exact id

end Shape

/-! ## Primitive values -/

/-- An integer of 64 bits is read back exactly. -/
theorem Json.integer?_ofInt64 (n : Int64) : (Json.ofInt64 n).integer? = some n := by
  simp only [integer?, int64?, ofInt64, toInt64?_ofInt64]

namespace BaseKind

variable {kind : BaseKind} {datum : Datum}

/-- A primitive value comes back on its own just when it is no decimal that is not finite. -/
theorem decode_encode_iff (h : kind.Holds datum) :
    kind.decode (kind.encode datum) = .ok datum ↔ (Shape.base kind).DecimalsFinite datum := by
  cases kind <;> cases datum <;> try exact h.elim
  case string.text s => exact iff_of_true rfl trivial
  case integer.integer n =>
    refine iff_of_true ?_ trivial
    rw [encode, decode, Json.integer?_ofInt64]
    rfl
  case decimal.decimal x =>
    cases x with
    | finite value => exact iff_of_true rfl ⟨value, rfl⟩
    | infinite negative => exact iff_of_false nofun nofun
    | notANumber => exact iff_of_false nofun nofun
  case boolean.boolean b => exact iff_of_true rfl trivial
  case null.unit => exact iff_of_true rfl trivial

/-- What stands in for a malformed element. -/
def fallback : BaseKind → Datum
  | string => .text ""
  | integer => .integer 0
  | decimal => .decimal (.finite .zero)
  | boolean => .boolean false
  | null => .unit

/-- What becomes of an element: what it is decoded to on its own, or else what stands in for it. -/
def convert (kind : BaseKind) (element : Json) : Datum :=
  match kind.decode element with
  | .ok datum => datum
  | .error _ => kind.fallback

/-- Base types convert elements without ever failing. -/
theorem decodeElement_eq_convert (kind : BaseKind) (element : Json) :
    kind.decodeElement element = kind.convert element := by
  unfold convert
  cases kind with
  | string =>
      rw [decodeElement, decode]
      cases element.text? <;> rfl
  | integer =>
      rw [decodeElement, decode]
      cases element.integer? <;> rfl
  | decimal =>
      rw [decodeElement, decode]
      cases element.decimal? <;> rfl
  | boolean =>
      rw [decodeElement, decode]
      cases element.boolean? <;> rfl
  | null => rfl

theorem decodeElement_of_decode {value : Json} (h : kind.decode value = .ok datum) :
    kind.decodeElement value = datum := by
  rw [decodeElement_eq_convert, convert, h]

/-- In an array a default takes the place of a malformed element, which is never the value that was
lost. -/
theorem decodeElement_encode_iff (h : kind.Holds datum) :
    kind.decodeElement (kind.encode datum) = datum ↔ (Shape.base kind).DecimalsFinite datum := by
  by_cases hfinite : (Shape.base kind).DecimalsFinite datum
  · exact iff_of_true (decodeElement_of_decode ((decode_encode_iff h).mpr hfinite)) hfinite
  · -- the default is zero, which is finite
    refine iff_of_false ?_ hfinite
    cases kind <;> cases datum <;> try exact absurd trivial hfinite
    case decimal.decimal x =>
      cases x with
      | finite value => exact absurd ⟨value, rfl⟩ hfinite
      | infinite negative => exact nofun
      | notANumber => exact nofun

end BaseKind

/-! ## Shapes -/

/-- The items of a list come back together just when each of them does. -/
theorem mapM_map_eq_ok_iff {ε α β : Type} {encode : α → β} {decode : β → Except ε α}
    (items : List α) :
    (items.map encode).mapM decode = .ok items ↔
      ∀ item ∈ items, decode (encode item) = .ok item := by
  induction items with
  | nil => simp [pure, Except.pure]
  | cons first rest ih =>
      rw [List.map_cons, List.mapM_cons, List.forall_mem_cons, ← ih]
      cases hfirst : decode (encode first) with
      | error e => simp [bind, Except.bind]
      | ok a =>
          cases hrest : (rest.map encode).mapM decode with
          | error e => simp [bind, Except.bind]
          | ok as => simp [bind, Except.bind, pure, Except.pure]

namespace Shape

variable {entities : Entities} {datum : Datum}

theorem list_of_holds {item : Shape} (h : (sequence item).Holds entities datum) :
    ∃ items, datum = .list items ∧ ∀ element ∈ items, item.Holds entities element := by
  cases datum <;> try exact h.elim
  case list items => exact ⟨items, rfl, h⟩

theorem map_list_eq_ok_iff {outcome : Decoded (List Datum)} {items : List Datum} :
    outcome.map Datum.list = .ok (.list items) ↔ outcome = .ok items := by
  cases outcome <;> simp [Except.map]

/-- An element comes back just when its decimals are finite. -/
theorem decodeElement_encode_iff {shape : Shape} (h : shape.Holds entities datum) :
    shape.decodeElement entities.codec (shape.encode entities.codec datum) = .ok datum ↔
      shape.DecimalsFinite datum := by
  induction shape generalizing datum with
  | base kind =>
      rw [encode, decodeElement, Except.ok.injEq]
      exact BaseKind.decodeElement_encode_iff h
  | entity name => exact iff_of_true (entities.decode_encode h) trivial
  | sequence item ih =>
      obtain ⟨items, rfl, hitems⟩ := list_of_holds h
      rw [encode, decodeElement, decodeArray, map_list_eq_ok_iff, mapM_map_eq_ok_iff]
      exact forall₂_congr fun element helement => ih (hitems element helement)
  | json =>
      cases datum <;> try exact h.elim
      case json value => exact iff_of_true rfl trivial

/-- A value of a shape comes back just when its decimals are finite. The elements of an array are
decoded leniently, at whatever depth, but that does not bring back more. -/
theorem decode_encode_iff {shape : Shape} (h : shape.Holds entities datum) :
    shape.decode entities.codec (shape.encode entities.codec datum) = .ok datum ↔
      shape.DecimalsFinite datum := by
  cases shape with
  | base kind => exact BaseKind.decode_encode_iff h
  | entity name => exact decodeElement_encode_iff h
  | sequence item => exact decodeElement_encode_iff h
  | json => exact decodeElement_encode_iff h

end Shape

/-! ## Fields -/

namespace Members

theorem get?_insert_self (key : String) (value : Json) (members : Members) :
    (members.insert key value).get? key = some value := by
  induction members with
  | nil => simp [insert, get?]
  | cons first rest ih =>
      obtain ⟨k, v⟩ := first
      by_cases hk : k = key
      · simp [insert, get?, hk]
      · have hne : (key == k) = false := by simpa using Ne.symm hk
        simpa [insert, get?, hk, List.lookup_cons, hne] using ih

theorem get?_insert_of_ne {key other : String} (h : other ≠ key) (value : Json)
    (members : Members) : (members.insert key value).get? other = members.get? other := by
  induction members with
  | nil =>
      have hne : (other == key) = false := by simpa using h
      simp [insert, get?, List.lookup_cons, hne]
  | cons first rest ih =>
      obtain ⟨k, v⟩ := first
      by_cases hk : k = key
      · have hne : (other == key) = false := by simpa using h
        simp [insert, get?, hk, List.lookup_cons, hne]
      · simp only [insert, if_neg hk, get?, List.lookup_cons]
        cases other == k with
        | true => rfl
        | false => exact ih

end Members

namespace FieldPlan

/-- What a field can hold: a value of its shape or, when it is optional, nothing. -/
def Holds (entities : Entities) (plan : FieldPlan) (content : Datum) : Prop :=
  plan.optional = true ∧ content = .absent ∨ plan.shape.Holds entities content

/-- The content of the field reads as if it held nothing: the field is optional, does not pass
documents through, and its content is written as null. -/
def ReadsAbsent (codecs : String → Codec) (plan : FieldPlan) (content : Datum) : Prop :=
  plan.optional = true ∧ plan.passthrough = false ∧ content ≠ .absent ∧
    plan.shape.encode codecs content = .null

theorem json_of_holds {entities : Entities} {content : Datum}
    (h : Shape.json.Holds entities content) : ∃ value, content = .json value := by
  cases content <;> try exact h.elim
  case json value => exact ⟨value, rfl⟩

theorem decimalsFinite_absent (shape : Shape) : shape.DecimalsFinite .absent := by
  cases shape with
  | base kind => cases kind <;> trivial
  | _ => trivial

section Decoding

variable {entities : Entities} {plan : FieldPlan} {content : Datum} {object : Members}

/-- A field that holds nothing is not written, and not found. -/
theorem decode_of_absent (hoptional : plan.optional = true)
    (hobject : object.get? plan.key = plan.encode entities.codec .absent) :
    plan.decode entities.codec object = .ok .absent := by
  have hnone : object.get? plan.key = none := by
    rw [hobject, encode, hoptional]
    rfl
  rw [decode, hnone, hoptional, Members.optional, hnone]
  cases plan.passthrough <;> rfl

/-- A value that is passed through is decoded as it is. -/
theorem decode_of_passthrough (hpass : plan.passthrough = true) {value : Json}
    (hobject : object.get? plan.key = some value) :
    plan.decode entities.codec object = .ok (.json value) := by
  rw [decode, hpass, hobject]
  rfl

/-- An optional field takes null for nothing. -/
theorem decode_of_optional (hpass : plan.passthrough = false) (hoptional : plan.optional = true)
    {value : Json} (hobject : object.get? plan.key = some value) :
    plan.decode entities.codec object =
      if value.isNull then .ok .absent else plan.shape.decode entities.codec value := by
  rw [decode, hpass, hoptional, Members.optional, hobject]
  cases value <;> rfl

/-- A required field is decoded by its shape. -/
theorem decode_of_required (hpass : plan.passthrough = false) (hoptional : plan.optional = false)
    {value : Json} (hobject : object.get? plan.key = some value) :
    plan.decode entities.codec object = plan.shape.decode entities.codec value := by
  rw [decode, hpass, hoptional, Members.required, hobject]
  rfl

/-- A value in a field comes back from an object that has what it was written as. -/
theorem decode_eq_ok_iff_of_value
    (hpass : plan.passthrough = true → plan.optional = true ∧ plan.shape = .json)
    (hvalue : plan.shape.Holds entities content)
    (hobject : object.get? plan.key = some (plan.shape.encode entities.codec content)) :
    plan.decode entities.codec object = .ok content ↔
      plan.shape.DecimalsFinite content ∧ ¬ plan.ReadsAbsent entities.codec content := by
  have habsent : content ≠ .absent := by
    rintro rfl
    exact plan.shape.not_holds_absent entities hvalue
  cases hpassthrough : plan.passthrough with
  | true =>
      have hshape := (hpass hpassthrough).2
      rw [hshape] at hvalue hobject
      obtain ⟨value, rfl⟩ := json_of_holds hvalue
      refine iff_of_true (decode_of_passthrough hpassthrough hobject) ⟨?_, ?_⟩
      · rw [hshape]
        trivial
      · rintro ⟨_, hnot, _⟩
        simp [hpassthrough] at hnot
  | false =>
      rw [← Shape.decode_encode_iff hvalue]
      cases hoptional : plan.optional with
      | true =>
          rw [decode_of_optional hpassthrough hoptional hobject]
          by_cases hnull : plan.shape.encode entities.codec content = .null
          · -- null is taken for nothing, and the content is something
            refine iff_of_false ?_ fun h => h.2 ⟨hoptional, hpassthrough, habsent, hnull⟩
            rw [hnull]
            exact fun heq => habsent (Except.ok.inj heq).symm
          · have hnot : (plan.shape.encode entities.codec content).isNull = false := by
              cases hencoded : plan.shape.encode entities.codec content with
              | null => exact absurd hencoded hnull
              | _ => rfl
            rw [hnot]
            exact (and_iff_left fun hreads => hnull hreads.2.2.2).symm
      | false =>
          rw [decode_of_required hpassthrough hoptional hobject]
          refine (and_iff_left ?_).symm
          rintro ⟨hopt, _⟩
          simp [hoptional] at hopt

/-- A field comes back from an object that has what the field was written as. -/
theorem decode_eq_ok_iff
    (hpass : plan.passthrough = true → plan.optional = true ∧ plan.shape = .json)
    (hcontent : plan.Holds entities content)
    (hobject : object.get? plan.key = plan.encode entities.codec content) :
    plan.decode entities.codec object = .ok content ↔
      plan.shape.DecimalsFinite content ∧ ¬ plan.ReadsAbsent entities.codec content := by
  rcases hcontent with ⟨hoptional, rfl⟩ | hvalue
  · exact iff_of_true (decode_of_absent hoptional hobject)
      ⟨decimalsFinite_absent plan.shape, fun hreads => hreads.2.2.1 rfl⟩
  · have hpresent : content.isAbsent = false := by
      cases content with
      | absent => exact absurd hvalue (plan.shape.not_holds_absent entities)
      | _ => rfl
    refine decode_eq_ok_iff_of_value hpass hvalue ?_
    rw [hobject, encode, hpresent, Bool.and_false]
    rfl

end Decoding

end FieldPlan

/-! ## Records -/

theorem Datum.slot_cons_self (field : String) (content : Datum) (slots : List (String × Datum)) :
    slot ((field, content) :: slots) field = content := by
  simp [slot]

theorem Datum.slot_cons_of_ne {field other : String} (h : other ≠ field) (content : Datum)
    (slots : List (String × Datum)) :
    slot ((field, content) :: slots) other = slot slots other := by
  have hne : (other == field) = false := by simpa using h
  simp [slot, List.lookup_cons, hne]

namespace RecordPlan

variable (codecs : String → Codec) (slots : List (String × Datum))

theorem get?_insertField_of_ne {key : String} {field : FieldPlan} (h : key ≠ field.key)
    (object : Members) : (insertField codecs slots object field).get? key = object.get? key := by
  unfold insertField
  split
  · exact Members.get?_insert_of_ne h _ object
  · rfl

/-- Encoding a field puts its value under its key. -/
theorem get?_insertField_self {field : FieldPlan} {object : Members}
    (h : object.get? field.key = none) :
    (insertField codecs slots object field).get? field.key =
      field.encode codecs (Datum.slot slots field.field) := by
  unfold insertField
  split
  next value hvalue => rw [Members.get?_insert_self, hvalue]
  next hnone => rw [h, hnone]

/-- Encoding fields changes nothing under keys that are not theirs. -/
theorem get?_foldl_insertField_of_notMem {key : String} {fields : List FieldPlan}
    (h : key ∉ fields.map FieldPlan.key) (object : Members) :
    (fields.foldl (insertField codecs slots) object).get? key = object.get? key := by
  induction fields generalizing object with
  | nil => rfl
  | cons first rest ih =>
      rw [List.map_cons, List.mem_cons, not_or] at h
      rw [List.foldl_cons, ih h.2, get?_insertField_of_ne codecs slots h.1]

/-- Where keys are distinct, each field finds in the object what it was written as. -/
theorem get?_foldl_insertField {fields : List FieldPlan} (hkeys : (fields.map FieldPlan.key).Nodup)
    {object : Members} (hobject : ∀ field ∈ fields, object.get? field.key = none)
    {field : FieldPlan} (hfield : field ∈ fields) :
    (fields.foldl (insertField codecs slots) object).get? field.key =
      field.encode codecs (Datum.slot slots field.field) := by
  induction fields generalizing object with
  | nil => simp at hfield
  | cons first rest ih =>
      obtain ⟨hfirst, hrest⟩ := List.nodup_cons.mp hkeys
      rw [List.foldl_cons]
      rcases List.mem_cons.mp hfield with rfl | hfield
      · -- the fields that follow leave the key alone
        rw [get?_foldl_insertField_of_notMem codecs slots hfirst]
        exact get?_insertField_self codecs slots (hobject field List.mem_cons_self)
      · refine ih hrest ?_ hfield
        intro other hother
        have hne : other.key ≠ first.key := by
          intro heq
          exact hfirst (heq ▸ List.mem_map_of_mem hother)
        rw [get?_insertField_of_ne codecs slots hne]
        exact hobject other (List.mem_cons_of_mem _ hother)

/-- A record comes back just when each of its fields does. -/
theorem decodeFields_eq_ok_iff {fields : List FieldPlan} {slots : List (String × Datum)}
    (hnames : slots.map Prod.fst = fields.map FieldPlan.field)
    (hnodup : (fields.map FieldPlan.field).Nodup) (object : Members) :
    decodeFields codecs object fields = .ok slots ↔
      ∀ field ∈ fields, field.decode codecs object = .ok (Datum.slot slots field.field) := by
  induction fields generalizing slots with
  | nil =>
      rw [List.map_nil, List.map_eq_nil_iff] at hnames
      subst slots
      exact iff_of_true rfl (by simp)
  | cons first rest ih =>
      obtain ⟨⟨name, content⟩, slots, rfl, hname, htail⟩ := List.map_eq_cons_iff.mp hnames
      obtain ⟨hfirst, hrest⟩ := List.nodup_cons.mp hnodup
      obtain rfl : name = first.field := hname
      have hslot : ∀ field ∈ rest,
          Datum.slot ((first.field, content) :: slots) field.field =
            Datum.slot slots field.field := by
        intro field hfield
        apply Datum.slot_cons_of_ne
        intro heq
        exact hfirst (heq ▸ List.mem_map_of_mem hfield)
      have hforall : (∀ field ∈ rest, field.decode codecs object =
          .ok (Datum.slot ((first.field, content) :: slots) field.field)) ↔
          decodeFields codecs object rest = .ok slots := by
        rw [ih htail hrest]
        exact forall₂_congr fun field hfield => by rw [hslot field hfield]
      rw [List.forall_mem_cons, Datum.slot_cons_self, hforall, decodeFields]
      cases first.decode codecs object with
      | error e => simp [bind, Except.bind]
      | ok a =>
          cases decodeFields codecs object rest with
          | error e => simp [bind, Except.bind]
          | ok as => simp [bind, Except.bind]

/-- The slots of a value of a structure: one for each field, in order, with something the field can
hold. -/
structure Holds (entities : Entities) (plan : RecordPlan) (slots : List (String × Datum)) :
    Prop where
  names : slots.map Prod.fst = plan.fields.map FieldPlan.field
  contents : ∀ field ∈ plan.fields, field.Holds entities (Datum.slot slots field.field)

/-- A structure comes back just when its fields do. -/
theorem decode_encode_eq_ok_iff (plan : RecordPlan) :
    (plan.codec codecs).decode ((plan.codec codecs).encode (.record slots)) = .ok (.record slots) ↔
      decodeFields codecs (plan.fields.foldl (insertField codecs slots) []) plan.fields =
        .ok slots := by
  simp only [codec, Json.members?, orError, bind, Except.bind]
  cases decodeFields codecs (plan.fields.foldl (insertField codecs slots) []) plan.fields with
  | error e => simp
  | ok as => simp

/-- A value of a structure comes back just when every field does on its own. -/
theorem decode_encode_iff {entities : Entities} {plan : RecordPlan}
    {slots : List (String × Datum)} (hkeys : (plan.fields.map FieldPlan.key).Nodup)
    (hpass : ∀ field ∈ plan.fields, field.passthrough = true →
      field.optional = true ∧ field.shape = .json)
    (hfields : (plan.fields.map FieldPlan.field).Nodup) (hslots : plan.Holds entities slots) :
    (plan.codec entities.codec).decode ((plan.codec entities.codec).encode (.record slots)) =
        .ok (.record slots) ↔
      (∀ field ∈ plan.fields, field.shape.DecimalsFinite (Datum.slot slots field.field)) ∧
      ¬ ∃ field ∈ plan.fields, field.ReadsAbsent entities.codec (Datum.slot slots field.field) := by
  have hempty : ∀ field ∈ plan.fields, Members.get? field.key [] = none := fun _ _ => rfl
  have hfield : ∀ field ∈ plan.fields,
      (field.decode entities.codec (plan.fields.foldl (insertField entities.codec slots) []) =
          .ok (Datum.slot slots field.field) ↔
        field.shape.DecimalsFinite (Datum.slot slots field.field) ∧
          ¬ field.ReadsAbsent entities.codec (Datum.slot slots field.field)) := by
    intro field hfield
    have hobject := get?_foldl_insertField entities.codec slots hkeys hempty hfield
    exact FieldPlan.decode_eq_ok_iff (hpass field hfield) (hslots.contents field hfield) hobject
  rw [decode_encode_eq_ok_iff, decodeFields_eq_ok_iff _ hslots.names hfields,
    forall₂_congr hfield, not_exists]
  simp only [not_and]
  exact forall₂_and

end RecordPlan

namespace Context

/-- The plan of a structure with the properties it carries. -/
def carriedPlan (context : Context) (owner : String) (s : Structure) : RecordPlan :=
  context.planRecord owner s (context.catalog.flatten s)

variable (context : Context) (owner : String) (s : Structure)

/-- The keys of a structure are distinct. -/
theorem nodup_carriedPlan_keys :
    ((context.carriedPlan owner s).fields.map FieldPlan.key).Nodup := by
  have hnames : (context.carriedPlan owner s).fields.map FieldPlan.key =
      (context.catalog.flatten s).map Property.name := by
    rw [carriedPlan, planRecord, List.map_map]
    rfl
  rw [hnames]
  exact nodup_flatten _ s

theorem map_field_carriedPlan :
    (context.carriedPlan owner s).fields.map FieldPlan.field =
      ((context.catalog.flatten s).map Property.name).map Naming.fieldName := by
  rw [carriedPlan, planRecord, List.map_map, List.map_map]
  rfl

/-- A field that passes documents through is optional and of a type without counterpart. -/
theorem carriedPlan_passthrough {field : FieldPlan}
    (hfield : field ∈ (context.carriedPlan owner s).fields) (h : field.passthrough = true) :
    field.optional = true ∧ field.shape = .json := by
  obtain ⟨property, _, rfl⟩ := List.mem_map.mp hfield
  simp only [planField, Bool.and_eq_true, beq_iff_eq] at h
  exact ⟨h.1.1, h.1.2⟩

end Context

/-- Decoding undoes encoding for a value of a structure just when its decimals are finite and no
optional field, other than those that pass documents through, holds something that is written as
null. The fields have to have distinct identifiers; their keys are always distinct. -/
theorem record_decode_encode_iff (model : Model) (settings : Settings) (owner : String)
    (s : Structure) (entities : Entities)
    (hfields : (((Context.ofModel model settings).carriedPlan owner s).fields.map
      FieldPlan.field).Nodup) (slots : List (String × Datum))
    (hslots : ((Context.ofModel model settings).carriedPlan owner s).Holds entities slots) :
    (((Context.ofModel model settings).carriedPlan owner s).codec entities.codec).decode
        ((((Context.ofModel model settings).carriedPlan owner s).codec entities.codec).encode
          (.record slots)) = .ok (.record slots) ↔
      (∀ field ∈ ((Context.ofModel model settings).carriedPlan owner s).fields,
        field.shape.DecimalsFinite (Datum.slot slots field.field)) ∧
      ¬ ∃ field ∈ ((Context.ofModel model settings).carriedPlan owner s).fields,
        field.ReadsAbsent entities.codec (Datum.slot slots field.field) := by
  have hkeys := (Context.ofModel model settings).nodup_carriedPlan_keys owner s
  refine RecordPlan.decode_encode_iff hkeys ?_ hfields hslots
  intro field hfield hpassthrough
  exact Context.carriedPlan_passthrough _ owner s hfield hpassthrough

/-- Every named type holds any document. -/
def Entities.documents : Entities where
  codec _ := .json
  Holds _ datum := ∃ value, datum = .json value
  not_holds_absent _ := nofun
  decode_encode := by
    rintro name datum ⟨value, rfl⟩
    rfl

/-- A list of decimals, a field that passes documents through and a field that is null. -/
def measurement : Structure where
  name := "Measurement"
  properties :=
    [{ name := "weights", type := .array (.base "decimal") },
     { name := "extraData", type := .map (.base "string") (.base "null"), optional := true },
     { name := "nothing", type := .base "null", optional := true }]

theorem fields_measurement (context : Context) :
    ((context.carriedPlan "Measurement" measurement).fields.map fun field =>
      (field.field, field.shape, field.optional, field.passthrough)) =
      [("weights", .sequence (.base .decimal), false, false), ("extra_data", .json, true, true),
       ("nothing", .base .null, true, false)] := by
  have hflatten : context.catalog.flatten measurement = measurement.properties :=
    flatten_of_parents_eq_nil _ rfl
  rw [Context.carriedPlan, Context.planRecord, hflatten]
  simp only [measurement, List.map_cons, List.map_nil, Context.planField, Context.shape,
    Context.shapeWith]
  decide +kernel

theorem mem_fields_measurement {context : Context} {field : FieldPlan}
    (h : field ∈ (context.carriedPlan "Measurement" measurement).fields) :
    (field.field, field.shape, field.optional, field.passthrough) ∈
      [("weights", .sequence (.base .decimal), false, false), ("extra_data", .json, true, true),
       ("nothing", .base .null, true, false)] := by
  rw [← fields_measurement context]
  exact List.mem_map_of_mem h

/-- A null that is passed through comes back. -/
theorem record_decode_encode_measurement :
    (((Context.ofModel { version := "1" } .empty).carriedPlan "Measurement" measurement).codec
        Entities.documents.codec).decode
      ((((Context.ofModel { version := "1" } .empty).carriedPlan "Measurement" measurement).codec
        Entities.documents.codec).encode
          (.record [("weights", .list [.decimal (.finite .zero)]), ("extra_data", .json .null),
            ("nothing", .absent)])) =
      .ok (.record [("weights", .list [.decimal (.finite .zero)]), ("extra_data", .json .null),
        ("nothing", .absent)]) := by
  have hnames : ((Context.ofModel { version := "1" } .empty).carriedPlan "Measurement"
      measurement).fields.map FieldPlan.field = ["weights", "extra_data", "nothing"] := by
    simpa [Function.comp_def] using
      congrArg (List.map Prod.fst) (fields_measurement (Context.ofModel { version := "1" } .empty))
  refine (record_decode_encode_iff _ _ _ _ _ ?_ _ ⟨?_, ?_⟩).mpr ⟨?_, ?_⟩
  · rw [hnames]
    decide
  · rw [hnames]
    rfl
  · intro field hfield
    have hmem := mem_fields_measurement hfield
    simp only [List.mem_cons, Prod.mk.injEq, List.not_mem_nil, or_false] at hmem
    rcases hmem with ⟨hname, hshape, -⟩ | ⟨hname, hshape, -⟩ | ⟨hname, -, hoptional, -⟩
    · rw [hname, FieldPlan.Holds, hshape]
      simp [Datum.slot, Shape.Holds, BaseKind.Holds]
    · rw [hname, FieldPlan.Holds, hshape]
      exact Or.inr trivial
    · rw [hname]
      exact Or.inl ⟨hoptional, rfl⟩
  · intro field hfield
    have hmem := mem_fields_measurement hfield
    simp only [List.mem_cons, Prod.mk.injEq, List.not_mem_nil, or_false] at hmem
    rcases hmem with ⟨hname, hshape, -⟩ | ⟨hname, hshape, -⟩ | ⟨hname, hshape, -⟩
    · rw [hname, hshape]
      simp [Datum.slot, Shape.DecimalsFinite]
    · rw [hname, hshape]
      trivial
    · rw [hname, hshape]
      trivial
  · rintro ⟨field, hfield, hoptional, hpass, habsent, -⟩
    have hmem := mem_fields_measurement hfield
    simp only [hoptional, hpass, List.mem_cons, Prod.mk.injEq, List.not_mem_nil, or_false] at hmem
    rcases hmem with ⟨-, -, hfalse, -⟩ | ⟨-, -, -, hfalse⟩ | ⟨hname, -⟩
    · cases hfalse
    · cases hfalse
    · rw [hname] at habsent
      exact habsent rfl

end ProtocolCodec
