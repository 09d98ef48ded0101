import ProtocolCodec.Proofs.Binary64
import ProtocolCodec.Proofs.Codec.Library
import ProtocolCodec.Proofs.Codec.RoundTrip

/-!
# What has been decoded comes back

A decoder accepts documents that no encoder writes: arrays with malformed elements, numbers of the
wrong kind, members in excess, nulls. Whatever it makes of them is encoded without loss, so that
decoding and encoding once gives a normal form. The one exception is an optional field whose type is
null: anything but null makes it hold something, which is written as null and then reads as nothing.
-/

namespace ProtocolCodec

/-! ## Codecs that settle -/

/-- On documents below a height, what a codec has decoded comes back when it is encoded and decoded
again. It is something, and it is not written as null unless it was null. -/
structure Codec.SettlesBelow (height : Nat) (codec : Codec) : Prop where
  ne_absent : ∀ {value : Json}, value.height < height → codec.decode value ≠ .ok .absent
  encode_ne_null : ∀ {value : Json} {datum : Datum}, value.height < height →
    codec.decode value = .ok datum → value ≠ .null → codec.encode datum ≠ .null
  decode_encode : ∀ {value : Json} {datum : Datum}, value.height < height →
    codec.decode value = .ok datum → codec.decode (codec.encode datum) = .ok datum

namespace Codec

/-- Whatever a codec has decoded comes back. -/
def Settles (codec : Codec) : Prop :=
  ∀ height, codec.SettlesBelow height

theorem settles_json : json.Settles := by
  intro height
  constructor
  · exact nofun
  · rintro value _ _ ⟨⟩ hnull
    exact hnull
  · rintro value _ _ ⟨⟩
    rfl

end Codec

namespace EnumPlan

theorem exists_of_choose {plan : EnumPlan} {fits : EnumArm → Bool} {datum : Datum}
    (h : plan.choose fits = .ok datum) :
    ∃ arm, plan.arms.find? fits = some arm ∧ datum = .variant arm.variant := by
  unfold choose at h
  cases hfind : plan.arms.find? fits with
  | none =>
      rw [hfind] at h
      cases h
  | some arm =>
      rw [hfind] at h
      exact ⟨arm, rfl, (Except.ok.inj h).symm⟩

theorem choose_of_find? {plan : EnumPlan} {fits : EnumArm → Bool} {arm : EnumArm}
    (h : plan.arms.find? fits = some arm) : plan.choose fits = .ok (.variant arm.variant) := by
  rw [choose, h]
  rfl

theorem encode_variant {plan : EnumPlan} (hnodup : (plan.arms.map EnumArm.variant).Nodup)
    {arm : EnumArm} (harm : arm ∈ plan.arms) :
    plan.codec.encode (.variant arm.variant) = arm.encode plan.backing := by
  have hfind : (plan.arms.find? fun other => other.variant == arm.variant) = some arm :=
    findName?_of_mem hnodup harm
  simp only [codec, hfind]

/-- Whatever literals are compared by, the arm that was chosen is chosen for its own literal. -/
theorem exists_of_bind_choose {α : Type} [BEq α] [LawfulBEq α] {plan : EnumPlan}
    {literal : EnumArm → α} {error : DecodeError} {found : Option α} {datum : Datum}
    (h : (orError error found >>= fun a => plan.choose fun arm => literal arm == a) = .ok datum) :
    ∃ arm ∈ plan.arms, datum = .variant arm.variant ∧
      (plan.choose fun other => literal other == literal arm) = .ok (.variant arm.variant) := by
  cases found with
  | none => cases h
  | some a =>
      obtain ⟨arm, hfind, rfl⟩ := exists_of_choose h
      have hfits : literal arm = a := by simpa using List.find?_some hfind
      refine ⟨arm, List.mem_of_find?_eq_some hfind, rfl, ?_⟩
      rw [hfits]
      exact choose_of_find? hfind

/-- What an enumeration decodes is one of its variants, and comes back from the wire. -/
theorem exists_of_decode {plan : EnumPlan} {value : Json} {datum : Datum}
    (h : plan.codec.decode value = .ok datum) :
    ∃ arm ∈ plan.arms, datum = .variant arm.variant ∧
      plan.codec.decode (arm.encode plan.backing) = .ok (.variant arm.variant) := by
  cases hbacking : plan.backing with
  | text =>
      simp only [codec, hbacking] at h
      obtain ⟨arm, harm, rfl, hagain⟩ := exists_of_bind_choose h
      refine ⟨arm, harm, rfl, ?_⟩
      simp only [codec, hbacking, EnumArm.encode, Json.text?]
      exact hagain
  | integer =>
      simp only [codec, hbacking] at h
      obtain ⟨arm, harm, rfl, hagain⟩ := exists_of_bind_choose h
      refine ⟨arm, harm, rfl, ?_⟩
      simp only [codec, hbacking, EnumArm.encode, Json.integer?_ofInt64]
      exact hagain

/-- The codec of an enumeration settles when its variants have distinct names. -/
theorem settles_codec {plan : EnumPlan} (hnodup : (plan.arms.map EnumArm.variant).Nodup) :
    plan.codec.Settles := by
  intro height
  constructor
  · intro value _ h
    obtain ⟨arm, _, habsent, _⟩ := exists_of_decode h
    cases habsent
  · intro value datum _ h _
    obtain ⟨arm, harm, rfl, _⟩ := exists_of_decode h
    rw [encode_variant hnodup harm]
    cases plan.backing with
    | text => exact nofun
    | integer => exact nofun
  · intro value datum _ h
    obtain ⟨arm, harm, rfl, hagain⟩ := exists_of_decode h
    rw [encode_variant hnodup harm, hagain]

end EnumPlan

/-! ## What shapes decode -/

/-- The names of the types whose codecs a shape uses. -/
def Shape.entities : Shape → List String
  | .entity name => [name]
  | .sequence item => item.entities
  | _ => []

theorem exists_of_mem_of_mapM {ε α β : Type} {f : α → Except ε β} {items : List α}
    {results : List β} (h : items.mapM f = .ok results) :
    ∀ result ∈ results, ∃ item ∈ items, f item = .ok result := by
  induction items generalizing results with
  | nil =>
      rw [List.mapM_nil] at h
      cases h
      intro result hresult
      cases hresult
  | cons first rest ih =>
      rw [List.mapM_cons] at h
      cases hfirst : f first with
      | error e => simp [hfirst, bind, Except.bind] at h
      | ok value =>
          cases hrest : rest.mapM f with
          | error e => simp [hfirst, hrest, bind, Except.bind] at h
          | ok values =>
              obtain rfl : value :: values = results := by
                simpa [hfirst, hrest, bind, Except.bind, pure, Except.pure] using h
              intro result hresult
              rcases List.mem_cons.mp hresult with rfl | hmem
              · exact ⟨first, List.mem_cons_self, hfirst⟩
              · obtain ⟨item, hitem, hvalue⟩ := ih hrest result hmem
                exact ⟨item, List.mem_cons_of_mem _ hitem, hvalue⟩

/-- A decoded array has items that are less deep and were decoded one by one. -/
theorem exists_of_decodeArray {decode : Json → Decoded Datum} {value : Json} {datum : Datum}
    (h : (decodeArray decode value).map Datum.list = .ok datum) :
    ∃ elements, datum = .list elements ∧
      ∀ element ∈ elements, ∃ item : Json, item.height < value.height ∧
        decode item = .ok element := by
  cases hdecoded : decodeArray decode value with
  | error e =>
      rw [hdecoded] at h
      cases h
  | ok elements =>
      rw [hdecoded] at h
      refine ⟨elements, (Except.ok.inj h).symm, ?_⟩
      intro element helement
      cases value with
      | array items =>
          obtain ⟨item, hitem, hvalue⟩ := exists_of_mem_of_mapM hdecoded element helement
          refine ⟨item, ?_, hvalue⟩
          rw [Json.height]
          exact Nat.lt_succ_of_le (Json.height_le_of_mem hitem)
      | _ =>
          cases hdecoded
          cases helement

/-- The entities that have been decoded from documents below a height, with codecs that give them
back. -/
def Entities.decodedBelow (codecs : String → Codec) (known : String → Prop) (height : Nat)
    (h : ∀ name, known name → (codecs name).SettlesBelow height) : Entities where
  codec := codecs
  Holds name datum := known name ∧
    ∃ value : Json, value.height < height ∧ (codecs name).decode value = .ok datum
  not_holds_absent := by
    rintro name ⟨hname, value, hvalue, hdecode⟩
    exact (h name hname).ne_absent hvalue hdecode
  decode_encode := by
    rintro name datum ⟨hname, value, hvalue, hdecode⟩
    exact (h name hname).decode_encode hvalue hdecode

theorem Json.finite_of_decimal? {value : Json} {x : Binary64} (h : value.decimal? = some x) :
    ∃ number, x = .finite number := by
  cases value with
  | number n =>
      cases h
      exact n.finite_toBinary64
  | _ => cases h

namespace BaseKind

variable {kind : BaseKind} {value : Json} {datum : Datum}

theorem holds_decodeElement (kind : BaseKind) (value : Json) :
    kind.Holds (kind.decodeElement value) := by
  cases kind <;> trivial

theorem decimalsFinite_decodeElement (kind : BaseKind) (value : Json) :
    (Shape.base kind).DecimalsFinite (kind.decodeElement value) := by
  cases kind with
  | decimal =>
      rw [decodeElement]
      cases hvalue : value.decimal? with
      | none =>
          -- a malformed decimal becomes zero
          exact ⟨.zero, rfl⟩
      | some x => exact Json.finite_of_decimal? hvalue
  | _ => trivial

/-- Data of a base type other than null, with finite decimals, are never encoded as null. -/
theorem encode_ne_null (hkind : kind ≠ .null) (hholds : kind.Holds datum)
    (hfinite : (Shape.base kind).DecimalsFinite datum) : kind.encode datum ≠ .null := by
  cases kind <;> cases datum <;> try exact hholds.elim
  case string.text s => exact nofun
  case integer.integer n => exact nofun
  case decimal.decimal x =>
    obtain ⟨number, rfl⟩ := hfinite
    exact nofun
  case boolean.boolean b => exact nofun
  case null.unit => exact absurd rfl hkind

end BaseKind

namespace Shape

variable {codecs : String → Codec} {known : String → Prop} {height : Nat}
  (hcodecs : ∀ name, known name → (codecs name).SettlesBelow height)

include hcodecs

/-- What a shape decodes as an element it can hold, without infinite decimals. -/
theorem holds_of_decodeElement {shape : Shape} (hknown : ∀ name ∈ shape.entities, known name)
    {value : Json} (hheight : value.height < height) {datum : Datum}
    (h : shape.decodeElement codecs value = .ok datum) :
    shape.Holds (.decodedBelow codecs known height hcodecs) datum ∧
      shape.DecimalsFinite datum := by
  induction shape generalizing value datum with
  | base kind =>
      cases h
      exact ⟨kind.holds_decodeElement value, kind.decimalsFinite_decodeElement value⟩
  | entity name => exact ⟨⟨hknown name List.mem_cons_self, value, hheight, h⟩, trivial⟩
  | sequence item ih =>
      obtain ⟨elements, rfl, helements⟩ := exists_of_decodeArray h
      constructor
      · intro element helement
        obtain ⟨inner, hinner, hdecode⟩ := helements element helement
        exact (ih hknown (hinner.trans hheight) hdecode).1
      · intro element helement
        obtain ⟨inner, hinner, hdecode⟩ := helements element helement
        exact (ih hknown (hinner.trans hheight) hdecode).2
  | json =>
      cases h
      exact ⟨trivial, trivial⟩

/-- What a shape decodes it can hold, without infinite decimals. -/
theorem holds_of_decode {shape : Shape} (hknown : ∀ name ∈ shape.entities, known name)
    {value : Json} (hheight : value.height < height) {datum : Datum}
    (h : shape.decode codecs value = .ok datum) :
    shape.Holds (.decodedBelow codecs known height hcodecs) datum ∧
      shape.DecimalsFinite datum := by
  cases shape with
  | base kind =>
      rw [← BaseKind.decodeElement_of_decode h]
      exact ⟨kind.holds_decodeElement value, kind.decimalsFinite_decodeElement value⟩
  | entity name => exact holds_of_decodeElement hcodecs hknown hheight h
  | sequence item => exact holds_of_decodeElement hcodecs hknown hheight h
  | json => exact holds_of_decodeElement hcodecs hknown hheight h

/-- Only null and what has the type null is written as null. -/
theorem encode_ne_null_of_decode {shape : Shape} (hshape : shape ≠ .base .null)
    (hknown : ∀ name ∈ shape.entities, known name) {value : Json} (hheight : value.height < height)
    (hnull : value ≠ .null) {datum : Datum} (h : shape.decode codecs value = .ok datum) :
    shape.encode codecs datum ≠ .null := by
  cases shape with
  | base kind =>
      have hkind : kind ≠ .null := fun heq => hshape (heq ▸ rfl)
      rw [← BaseKind.decodeElement_of_decode h]
      exact BaseKind.encode_ne_null hkind (kind.holds_decodeElement value)
        (kind.decimalsFinite_decodeElement value)
  | entity name =>
      exact (hcodecs name (hknown name List.mem_cons_self)).encode_ne_null hheight h hnull
  | sequence item =>
      obtain ⟨elements, rfl, _⟩ := exists_of_decodeArray h
      exact nofun
  | json =>
      cases h
      exact hnull

end Shape

/-! ## Fields and records -/

namespace FieldPlan

/-- The field cannot hold on to what it holds: it is optional and all it can hold is null. -/
def forgets (plan : FieldPlan) : Bool :=
  plan.optional && plan.shape == .base .null

/-- The fields that forget are the optional ones of the null type. -/
theorem forgets_iff {plan : FieldPlan} :
    plan.forgets = true ↔ plan.optional = true ∧ plan.shape = .base .null := by
  simp [forgets]

variable {codecs : String → Codec} {known : String → Prop} {height : Nat} {plan : FieldPlan}
  {object : Members} {content : Datum}

/-- What a field holds once it is decoded: nothing, if it is optional, or what its shape makes of
the member; an optional field does not look at a null, unless it passes documents through. -/
theorem decode_cases (hpass : plan.passthrough = true → plan.optional = true ∧ plan.shape = .json)
    (h : plan.decode codecs object = .ok content) :
    plan.optional = true ∧ content = .absent ∨
      ∃ value, object.get? plan.key = some value ∧ plan.shape.decode codecs value = .ok content ∧
        (plan.optional = true → plan.passthrough = false → value ≠ .null) := by
  unfold decode at h
  split at h
  next hpassthrough =>
    obtain ⟨hoptional, hshape⟩ := hpass hpassthrough
    cases hget : object.get? plan.key with
    | none =>
        rw [hget] at h
        exact Or.inl ⟨hoptional, (Except.ok.inj h).symm⟩
    | some value =>
        rw [hget] at h
        exact Or.inr ⟨value, rfl, by rw [hshape]; exact h, by simp [hpassthrough]⟩
  next hpassthrough =>
    split at h
    next hoptional =>
      cases hmember : object.optional plan.key with
      | none =>
          rw [hmember] at h
          exact Or.inl ⟨hoptional, (Except.ok.inj h).symm⟩
      | some value =>
          rw [hmember] at h
          obtain ⟨hget, hnotNull⟩ := Option.filter_eq_some_iff.mp hmember
          refine Or.inr ⟨value, hget, h, fun _ _ hnull => ?_⟩
          rw [hnull] at hnotNull
          cases hnotNull
    next hoptional =>
      unfold Members.required at h
      cases hget : object.get? plan.key with
      | none =>
          rw [hget] at h
          cases h
      | some value =>
          rw [hget] at h
          exact Or.inr ⟨value, rfl, h, fun htrue => absurd htrue hoptional⟩

variable (hcodecs : ∀ name, known name → (codecs name).SettlesBelow height)

/-- A field that has been decoded holds what it can hold, with finite decimals, and reads as nothing
only if it forgets. -/
theorem holds_of_decode
    (hpass : plan.passthrough = true → plan.optional = true ∧ plan.shape = .json)
    (hknown : ∀ name ∈ plan.shape.entities, known name)
    (hheight : Json.heightMembers object < height) (h : plan.decode codecs object = .ok content) :
    plan.Holds (.decodedBelow codecs known height hcodecs) content ∧
      plan.shape.DecimalsFinite content ∧
      (plan.forgets = false → ¬ plan.ReadsAbsent codecs content) := by
  rcases decode_cases hpass h with ⟨hoptional, rfl⟩ | ⟨value, hget, hvalue, hnotNull⟩
  · exact ⟨Or.inl ⟨hoptional, rfl⟩, decimalsFinite_absent _, fun _ hreads => hreads.2.2.1 rfl⟩
  · have hinner := lt_of_le_of_lt (Json.height_le_of_get? hget) hheight
    obtain ⟨hholds, hfinite⟩ := Shape.holds_of_decode hcodecs hknown hinner hvalue
    refine ⟨Or.inr hholds, hfinite, ?_⟩
    rintro hforgets ⟨hoptional, hpassthrough, _, hnull⟩
    have hshape : plan.shape ≠ .base .null := by
      intro heq
      rw [forgets_iff.mpr ⟨hoptional, heq⟩] at hforgets
      cases hforgets
    exact Shape.encode_ne_null_of_decode hcodecs hshape hknown hinner
      (hnotNull hoptional hpassthrough) hvalue hnull

/-- All that a field which forgets takes from an object is whether it has a member. -/
theorem decode_of_forgets
    (hpass : plan.passthrough = true → plan.optional = true ∧ plan.shape = .json)
    (hforgets : plan.forgets = true) :
    plan.decode codecs object =
      .ok (if (object.optional plan.key).isSome then .unit else .absent) := by
  obtain ⟨hoptional, hshape⟩ := forgets_iff.mp hforgets
  have hpassthrough : plan.passthrough = false := by
    cases hpassthrough : plan.passthrough with
    | false => rfl
    | true =>
        rw [hshape] at hpass
        cases (hpass hpassthrough).2
  rw [decode, hpassthrough, hoptional, hshape]
  cases object.optional plan.key <;> rfl

/-- Whatever a field that forgets holds, it is written as null or not at all. -/
theorem optional_of_forgets (hforgets : plan.forgets = true)
    (hobject : object.get? plan.key = plan.encode codecs content) :
    object.optional plan.key = none := by
  obtain ⟨hoptional, hshape⟩ := forgets_iff.mp hforgets
  rw [Members.optional, hobject, encode, hoptional, hshape, Shape.encode]
  cases content <;> rfl

end FieldPlan

namespace RecordPlan

/-- The fields of a structure are told apart by their keys and by their identifiers, and only
optional fields of a type without counterpart pass documents through. -/
structure Regular (plan : RecordPlan) : Prop where
  nodup_keys : (plan.fields.map FieldPlan.key).Nodup
  nodup_fields : (plan.fields.map FieldPlan.field).Nodup
  passthrough : ∀ field ∈ plan.fields, field.passthrough = true →
    field.optional = true ∧ field.shape = .json

variable {codecs : String → Codec} {known : String → Prop} {height : Nat} {plan : RecordPlan}

theorem names_of_decodeFields {object : Members} {fields : List FieldPlan}
    {slots : List (String × Datum)} (h : decodeFields codecs object fields = .ok slots) :
    slots.map Prod.fst = fields.map FieldPlan.field := by
  induction fields generalizing slots with
  | nil =>
      cases h
      rfl
  | cons first rest ih =>
      rw [decodeFields] at h
      cases hfirst : first.decode codecs object with
      | error e => simp [hfirst, bind, Except.bind] at h
      | ok content =>
          cases hrest : decodeFields codecs object rest with
          | error e => simp [hfirst, hrest, bind, Except.bind] at h
          | ok others =>
              obtain rfl : (first.field, content) :: others = slots := by
                simpa [hfirst, hrest, bind, Except.bind] using h
              rw [List.map_cons, List.map_cons, ih hrest]

/-- What a structure decodes is a record with one slot for each field, decoded from the object. -/
theorem exists_of_decode (hregular : plan.Regular) {value : Json} {datum : Datum}
    (h : (plan.codec codecs).decode value = .ok datum) :
    ∃ object slots, value = .object object ∧ datum = .record slots ∧
      slots.map Prod.fst = plan.fields.map FieldPlan.field ∧
      ∀ field ∈ plan.fields, field.decode codecs object = .ok (Datum.slot slots field.field) := by
  cases value with
  | object object =>
      simp only [codec, Json.members?, orError, bind, Except.bind] at h
      cases hfields : decodeFields codecs object plan.fields with
      | error e =>
          rw [hfields] at h
          cases h
      | ok slots =>
          rw [hfields] at h
          have hnames := names_of_decodeFields hfields
          exact ⟨object, slots, rfl, (Except.ok.inj h).symm, hnames,
            (decodeFields_eq_ok_iff codecs hnames hregular.nodup_fields object).mp hfields⟩
  | _ => cases h

/-- An object is decoded when all its fields are. -/
theorem decode_object (hregular : plan.Regular) {object : Members} {slots : List (String × Datum)}
    (hnames : slots.map Prod.fst = plan.fields.map FieldPlan.field)
    (hdecoded : ∀ field ∈ plan.fields,
      field.decode codecs object = .ok (Datum.slot slots field.field)) :
    (plan.codec codecs).decode (.object object) = .ok (.record slots) := by
  have hfields := (decodeFields_eq_ok_iff codecs hnames hregular.nodup_fields object).mpr hdecoded
  simp only [codec, Json.members?, orError, bind, Except.bind, hfields]

/-- Encoding and decoding what has been decoded changes nothing but the fields that forget. -/
theorem decode_encode_of_decode (hregular : plan.Regular)
    (hcodecs : ∀ name, known name → (codecs name).SettlesBelow height)
    (hknown : ∀ field ∈ plan.fields, ∀ name ∈ field.shape.entities, known name)
    {object : Members} (hheight : Json.heightMembers object < height)
    {slots : List (String × Datum)}
    (hdecoded : ∀ field ∈ plan.fields,
      field.decode codecs object = .ok (Datum.slot slots field.field))
    {again : List (String × Datum)} (hnames : again.map Prod.fst = plan.fields.map FieldPlan.field)
    (hagain : ∀ field ∈ plan.fields, Datum.slot again field.field =
      if field.forgets then .absent else Datum.slot slots field.field) :
    (plan.codec codecs).decode ((plan.codec codecs).encode (.record slots)) =
      .ok (.record again) := by
  refine decode_object hregular hnames ?_
  intro field hfield
  rw [hagain field hfield]
  have hpass := hregular.passthrough field hfield
  have hempty : ∀ field ∈ plan.fields, Members.get? field.key [] = none := fun _ _ => rfl
  have hobject := get?_foldl_insertField codecs slots hregular.nodup_keys hempty hfield
  obtain ⟨hholds, hfinite, hreads⟩ := FieldPlan.holds_of_decode hcodecs hpass
    (hknown field hfield) hheight (hdecoded field hfield)
  cases hforgets : field.forgets with
  | false => exact (FieldPlan.decode_eq_ok_iff hpass hholds hobject).mpr ⟨hfinite, hreads hforgets⟩
  | true =>
      rw [FieldPlan.decode_of_forgets hpass hforgets,
        FieldPlan.optional_of_forgets hforgets hobject]
      rfl

/-- The codec of a structure settles one level above the codecs it uses. -/
theorem settlesBelow_succ (hregular : plan.Regular)
    (hcodecs : ∀ name, known name → (codecs name).SettlesBelow height)
    (hknown : ∀ field ∈ plan.fields, ∀ name ∈ field.shape.entities, known name)
    (hforgets : ∀ field ∈ plan.fields, field.forgets = false) :
    (plan.codec codecs).SettlesBelow (height + 1) := by
  constructor
  · intro value _ h
    obtain ⟨_, _, _, habsent, _⟩ := exists_of_decode hregular h
    cases habsent
  · intro value datum _ h _
    obtain ⟨_, _, _, rfl, _⟩ := exists_of_decode hregular h
    exact nofun
  · intro value datum hheight h
    obtain ⟨object, slots, rfl, rfl, hnames, hdecoded⟩ := exists_of_decode hregular h
    rw [Json.height] at hheight
    refine decode_encode_of_decode hregular hcodecs hknown (Nat.lt_of_succ_lt_succ hheight) hdecoded
      hnames ?_
    intro field hfield
    rw [hforgets field hfield]
    rfl

end RecordPlan

/-! ## Libraries -/

/-- What a definition of a library settles by, given that the known names settle. -/
def Definition.SettlesIn (known : String → Prop) : Definition → Prop
  | .planned (.enumeration plan) => (plan.arms.map EnumArm.variant).Nodup
  | .planned (.record plan) => plan.Regular ∧
      ∀ field ∈ plan.fields, field.forgets = false ∧ ∀ name ∈ field.shape.entities, known name
  | .planned (.synonym plan) => ∀ next, plan.target = .named next → known next
  | .written codec => codec.Settles

namespace Library

variable {library : Library} {known : String → Prop}

/-- What a library has under a known name settles, and is no alias. -/
theorem settlesIn_of_find? {name : String} {definition : Definition}
    (hlibrary : ∀ entry ∈ library, known entry.1 → entry.2.SettlesIn known) (hname : known name)
    (h : library.find? name = some definition) :
    definition.SettlesIn known ∧ ∀ plan, definition ≠ .planned (.synonym plan) := by
  fun_induction find? library name with
  | case1 library name hfind => cases h
  | case2 library name key plan hfind next htarget _ ih =>
      have hentry := hlibrary _ (mem_of_findName? hfind)
      have hkey : key = name := name_of_findName? hfind
      subst hkey
      -- what the synonym stands for is looked up among the other entries
      exact ih (fun entry hmem => hlibrary entry (mem_removeName.mp hmem).1)
        (hentry hname next htarget) h
  | case3 library name key plan hfind htarget =>
      cases h
      exact ⟨Codec.settles_json, nofun⟩
  | case4 library name key plan hfind _ _ => cases h
  | case5 library name key found hother hfind =>
      cases h
      have hentry := hlibrary _ (mem_of_findName? hfind)
      have hkey : key = name := name_of_findName? hfind
      subst hkey
      exact ⟨hentry hname, hother⟩

/-- If the structures among the known names have only fields that do not forget and refer to known
names, all known names settle. The induction is on the height of the document: what a structure
decodes lies deeper. -/
theorem settles_entity (known : String → Prop)
    (hlibrary : ∀ entry ∈ library, known entry.1 → entry.2.SettlesIn known) :
    ∀ name, known name → (library.entity name).Settles := by
  suffices hbelow : ∀ height name, known name → (library.entity name).SettlesBelow height from
    fun name hname height => hbelow height name hname
  intro height
  induction height with
  | zero =>
      intro name _
      exact ⟨fun hlt => absurd hlt (Nat.not_lt_zero _), fun hlt => absurd hlt (Nat.not_lt_zero _),
        fun hlt => absurd hlt (Nat.not_lt_zero _)⟩
  | succ height ih =>
      intro name hname
      cases hfind : library.find? name with
      | none =>
          rw [entity_of_none hfind]
          exact Codec.settles_json _
      | some definition =>
          obtain ⟨hsettles, hsynonym⟩ := settlesIn_of_find? hlibrary hname hfind
          cases definition with
          | written codec =>
              rw [entity_of_written hfind]
              exact hsettles _
          | planned plan =>
              cases plan with
              | enumeration plan =>
                  rw [entity_of_enumeration hfind]
                  exact EnumPlan.settles_codec hsettles _
              | record plan =>
                  rw [entity_of_record hfind]
                  obtain ⟨hregular, hfields⟩ := hsettles
                  exact RecordPlan.settlesBelow_succ hregular ih
                    (fun field hfield => (hfields field hfield).2)
                    (fun field hfield => (hfields field hfield).1)
              | synonym plan => exact absurd rfl (hsynonym plan)

end Library

end ProtocolCodec
