import ProtocolCodec.Proofs.Codec.Library

/-!
# Decoders look at the declared keys

The decoder of a structure looks up the keys it declares and nothing else, each value is decoded on
its own, and the first fault in the order of the fields is the one reported. So two objects are
decoded alike, faults included, when their values under the declared keys are; and those values may
again differ wherever a structure inside them does not look.
-/

namespace ProtocolCodec

/-! ## Look-ups in rearranged objects -/

namespace Members

theorem get?_cons_self (key : String) (value : Json) (object : Members) :
    get? key ((key, value) :: object) = some value := by
  rw [get?, List.lookup_cons, beq_self_eq_true]

theorem get?_cons_of_ne {key other : String} (h : key ≠ other) (value : Json) (object : Members) :
    get? key ((other, value) :: object) = get? key object := by
  rw [get?, List.lookup_cons, beq_false_of_ne h]
  rfl

/-- The order of members with distinct keys does not matter. -/
theorem get?_eq_of_perm {first second : Members} (h : first.Perm second)
    (hkeys : (first.map Prod.fst).Nodup) (key : String) : first.get? key = second.get? key := by
  induction h with
  | nil => rfl
  | cons member _ ih =>
      obtain ⟨other, value⟩ := member
      rw [List.map_cons, List.nodup_cons] at hkeys
      by_cases hkey : key = other
      · subst hkey
        rw [get?_cons_self, get?_cons_self]
      · rw [get?_cons_of_ne hkey, get?_cons_of_ne hkey, ih hkeys.2]
  | swap member next rest =>
      obtain ⟨other, value⟩ := member
      obtain ⟨another, content⟩ := next
      have hne : another ≠ other := by
        simp only [List.map_cons, List.nodup_cons, List.mem_cons, not_or] at hkeys
        exact hkeys.1.1
      by_cases hkey : key = another
      · subst hkey
        rw [get?_cons_self, get?_cons_of_ne hne, get?_cons_self]
      · rw [get?_cons_of_ne hkey]
        by_cases hother : key = other
        · subst hother
          rw [get?_cons_self, get?_cons_self]
        · rw [get?_cons_of_ne hother, get?_cons_of_ne hother, get?_cons_of_ne hkey]
  | trans hfirst _ ih ih' => exact (ih hkeys).trans (ih' ((hfirst.map Prod.fst).nodup hkeys))

/-- The members under some of the keys. -/
def under (keys : List String) (object : Members) : Members :=
  object.filter fun member => keys.contains member.1

theorem get?_under {keys : List String} {key : String} (hkey : key ∈ keys) (object : Members) :
    (object.under keys).get? key = object.get? key := by
  induction object with
  | nil => rfl
  | cons member object ih =>
      obtain ⟨other, value⟩ := member
      by_cases heq : key = other
      · subst heq
        rw [under, List.filter_cons_of_pos (by simpa using hkey), get?_cons_self, get?_cons_self]
      · rw [get?_cons_of_ne heq, ← ih, under, List.filter_cons]
        split
        · rw [get?_cons_of_ne heq]
          rfl
        · rfl

end Members

/-! ## The first fault -/

/-- What is wrong with a member: it is missing though it has to be there, or its value is rejected.
An optional member may be null. -/
def Members.fault? (object : Members) (key : String) (optional : Bool)
    (decode : Json → Decoded Datum) : Option DecodeError :=
  match object.get? key with
  | none => if optional then none else some (.missingField key)
  | some value =>
      if optional && value.isNull then none
      else
        match decode value with
        | .error error => some error
        | .ok _ => none

/-- A required field fails with the fault of its member and with no other error. -/
theorem Members.required_bind_eq_error_iff {object : Members} {key : String}
    {decode : Json → Decoded Datum} {error : DecodeError} :
    (object.required key >>= decode) = .error error ↔
      object.fault? key false decode = some error := by
  unfold required fault?
  cases object.get? key with
  | none => simp [bind, Except.bind]
  | some value => cases hvalue : decode value <;> simp [hvalue, bind, Except.bind]

section

variable {codecs : String → Codec}

namespace FieldPlan

variable {plan : FieldPlan}
  (hpass : plan.passthrough = true → plan.optional = true ∧ plan.shape = .json)

include hpass

/-- A field takes nothing from an object but the value under its key. -/
theorem decode_eq_elim (object : Members) :
    plan.decode codecs object =
      (object.get? plan.key).elim
        (if plan.optional then .ok .absent else .error (.missingField plan.key))
        fun value =>
          if plan.optional && !plan.passthrough && value.isNull then .ok .absent
          else plan.shape.decode codecs value := by
  unfold decode Members.optional Members.required
  cases hpassthrough : plan.passthrough with
  | true =>
      obtain ⟨hoptional, hshape⟩ := hpass hpassthrough
      rw [hoptional, hshape]
      cases object.get? plan.key <;> rfl
  | false =>
      cases object.get? plan.key with
      | none => cases plan.optional <;> rfl
      | some value =>
          cases plan.optional with
          | false => rfl
          | true => cases hnull : value.isNull <;> simp [Option.filter_some, hnull]

/-- A field fails for the fault of its member. -/
theorem decode_eq_error_iff {object : Members} {error : DecodeError} :
    plan.decode codecs object = .error error ↔
      object.fault? plan.key plan.optional (plan.shape.decode codecs) = some error := by
  rw [decode_eq_elim hpass, Members.fault?]
  cases object.get? plan.key with
  | none => cases plan.optional <;> simp
  | some value =>
      cases hpassthrough : plan.passthrough with
      | true =>
          obtain ⟨hoptional, hshape⟩ := hpass hpassthrough
          cases hnull : value.isNull <;>
            simp [hoptional, hshape, hnull, Shape.decode, Codec.json]
      | false =>
          cases hvalue : plan.shape.decode codecs value <;> cases plan.optional <;>
            cases hnull : value.isNull <;> simp [hvalue, hnull]

/-- A field is decoded alike from two objects in which its values are. -/
theorem decode_eq_decode {first second : Members}
    (hpresent : (first.get? plan.key).isSome = (second.get? plan.key).isSome)
    (hvalue : ∀ v w, first.get? plan.key = some v → second.get? plan.key = some w →
      v.isNull = w.isNull ∧ plan.shape.decode codecs v = plan.shape.decode codecs w) :
    plan.decode codecs first = plan.decode codecs second := by
  rw [decode_eq_elim hpass, decode_eq_elim hpass]
  cases hfirst : first.get? plan.key with
  | none =>
      have hsecond : second.get? plan.key = none := by
        simpa [hfirst] using hpresent.symm
      rw [hsecond]
  | some v =>
      rw [hfirst, Option.isSome_some] at hpresent
      obtain ⟨w, hsecond⟩ := Option.isSome_iff_exists.mp hpresent.symm
      obtain ⟨hnull, hdecode⟩ := hvalue v w hfirst hsecond
      rw [hsecond, Option.elim_some, Option.elim_some, hnull, hdecode]

end FieldPlan

namespace RecordPlan

/-- Decoding fails with the fault of the first field that has one. -/
theorem decodeFields_eq_error_iff {fields : List FieldPlan} {object : Members}
    (hpass : ∀ field ∈ fields, field.passthrough = true →
      field.optional = true ∧ field.shape = .json) {error : DecodeError} :
    decodeFields codecs object fields = .error error ↔
      fields.findSome? (fun field => object.fault? field.key field.optional
        (field.shape.decode codecs)) = some error := by
  induction fields with
  | nil => simp [decodeFields]
  | cons field fields ih =>
      obtain ⟨hfield, hfields⟩ := List.forall_mem_cons.mp hpass
      have hfault : ∀ error, field.decode codecs object = .error error ↔
          object.fault? field.key field.optional (field.shape.decode codecs) = some error :=
        fun _ => FieldPlan.decode_eq_error_iff hfield
      rw [decodeFields, List.findSome?_cons]
      cases hdecode : field.decode codecs object with
      | error first =>
          rw [(hfault first).mp hdecode]
          simp [bind, Except.bind]
      | ok content =>
          have hnone :
              object.fault? field.key field.optional (field.shape.decode codecs) = none := by
            rw [Option.eq_none_iff_forall_ne_some]
            intro first hfirst
            rw [(hfault first).mpr hfirst] at hdecode
            cases hdecode
          rw [hnone, ← ih hfields]
          cases decodeFields codecs object fields <;> simp [bind, Except.bind]

/-- A structure reports the first fault of its fields. -/
theorem decode_eq_error_iff {plan : RecordPlan} {object : Members}
    (hpass : ∀ field ∈ plan.fields, field.passthrough = true →
      field.optional = true ∧ field.shape = .json) {error : DecodeError} :
    (plan.codec codecs).decode (.object object) = .error error ↔
      plan.fields.findSome? (fun field => object.fault? field.key field.optional
        (field.shape.decode codecs)) = some error := by
  rw [← decodeFields_eq_error_iff hpass]
  simp only [codec, Json.members?, orError, bind, Except.bind]
  cases decodeFields codecs object plan.fields <;> simp

end RecordPlan

end

/-! ## Documents that are decoded alike -/

/-- The keys that structures declare, with the shapes of the values under them. -/
abbrev Declared := String → Option (List (String × Shape))

/-- Documents in which everything that is looked at is the same: they are equal, or arrays whose
items agree, or objects that agree under the keys which their structure declares. -/
inductive Shape.Alike (declared : Declared) : Shape → Json → Json → Prop
  | same (shape : Shape) (value : Json) : Alike declared shape value value
  | items {item : Shape} {first second : List Json} : first.length = second.length →
      (∀ v w, (v, w) ∈ first.zip second → Alike declared item v w) →
        Alike declared (.sequence item) (.array first) (.array second)
  | members {name : String} {fields : List (String × Shape)} {first second : Members} :
      declared name = some fields →
      (∀ field ∈ fields, (first.get? field.1).isSome = (second.get? field.1).isSome) →
      (∀ field ∈ fields, ∀ v w, first.get? field.1 = some v → second.get? field.1 = some w →
        Alike declared field.2 v w) →
        Alike declared (.entity name) (.object first) (.object second)

namespace Shape.Alike

variable {declared : Declared} {codecs : String → Codec} {shape : Shape} {first second : Json}

theorem isNull_eq (h : Alike declared shape first second) : first.isNull = second.isNull := by
  cases h <;> rfl

/-- Nothing inside a primitive value or a document that is kept goes unseen. -/
theorem eq_of_base {kind : BaseKind} (h : Alike declared (.base kind) first second) :
    first = second := by
  cases h
  rfl

end Shape.Alike

/-- The codec decodes two objects alike when under each declared key there is nothing, or there are
values which agree and are decoded alike. -/
def Codec.Heeds (declared : Declared) (codecs : String → Codec) (fields : List (String × Shape))
    (codec : Codec) : Prop :=
  ∀ first second : Members,
    (∀ field ∈ fields, (first.get? field.1).isSome = (second.get? field.1).isSome) →
    (∀ field ∈ fields, ∀ v w, first.get? field.1 = some v → second.get? field.1 = some w →
      field.2.Alike declared v w ∧ field.2.decode codecs v = field.2.decode codecs w) →
    codec.decode (.object first) = codec.decode (.object second)

section

variable {declared : Declared} {codecs : String → Codec}

theorem mapM_eq_of_zip {ε α β : Type} {f : α → Except ε β} {first second : List α}
    (hlength : first.length = second.length)
    (h : ∀ a b, (a, b) ∈ first.zip second → f a = f b) : first.mapM f = second.mapM f := by
  induction first generalizing second with
  | nil =>
      cases second with
      | nil => rfl
      | cons b second => cases hlength
  | cons a first ih =>
      cases second with
      | nil => cases hlength
      | cons b second =>
          have hrest := ih (Nat.succ.inj hlength) fun c d hcd => h c d (List.mem_cons_of_mem _ hcd)
          rw [List.mapM_cons, List.mapM_cons, h a b List.mem_cons_self, hrest]

/-- Where the structures heed what they declare, documents that agree are decoded alike, as values
and as elements of arrays. -/
theorem Shape.Alike.decode_eq
    (hheeds : ∀ name fields, declared name = some fields →
      (codecs name).Heeds declared codecs fields)
    {shape : Shape} {first second : Json} (h : Alike declared shape first second) :
    shape.decode codecs first = shape.decode codecs second ∧
      shape.decodeElement codecs first = shape.decodeElement codecs second := by
  induction h with
  | same shape value => exact ⟨rfl, rfl⟩
  | @items item first second hlength _ ih =>
      have hitems : first.mapM (item.decodeElement codecs) =
          second.mapM (item.decodeElement codecs) :=
        mapM_eq_of_zip hlength fun v w hvw => (ih v w hvw).2
      simp only [decode, decodeElement, decodeArray, hitems, and_self]
  | @members name fields first second hdeclared hpresent hvalues ih =>
      have hobject : (codecs name).decode (.object first) = (codecs name).decode (.object second) :=
        hheeds name fields hdeclared first second hpresent fun field hfield v w hv hw =>
          ⟨hvalues field hfield v w hv hw, (ih field hfield v w hv hw).1⟩
      exact ⟨hobject, hobject⟩

namespace RecordPlan

theorem decodeFields_eq_decodeFields {fields : List FieldPlan} {first second : Members}
    (hfields : ∀ field ∈ fields, field.decode codecs first = field.decode codecs second) :
    decodeFields codecs first fields = decodeFields codecs second fields := by
  induction fields with
  | nil => rfl
  | cons field fields ih =>
      obtain ⟨hfield, hothers⟩ := List.forall_mem_cons.mp hfields
      rw [decodeFields, decodeFields, hfield, ih hothers]

/-- The codec of a structure looks at the keys of its fields and at nothing else. -/
theorem heeds_codec {plan : RecordPlan}
    (hpass : ∀ field ∈ plan.fields, field.passthrough = true →
      field.optional = true ∧ field.shape = .json) :
    (plan.codec codecs).Heeds declared codecs
      (plan.fields.map fun field => (field.key, field.shape)) := by
  intro first second hpresent hvalues
  rw [List.forall_mem_map] at hpresent hvalues
  have hfields :
      decodeFields codecs first plan.fields = decodeFields codecs second plan.fields := by
    apply decodeFields_eq_decodeFields
    intro field hfield
    refine FieldPlan.decode_eq_decode (hpass field hfield) (hpresent field hfield) ?_
    intro v w hv hw
    obtain ⟨halike, hdecode⟩ := hvalues field hfield v w hv hw
    exact ⟨halike.isNull_eq, hdecode⟩
  simp only [codec, Json.members?, orError, bind, Except.bind, hfields]

end RecordPlan

end

end ProtocolCodec
