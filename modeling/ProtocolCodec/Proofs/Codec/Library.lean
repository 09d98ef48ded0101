import ProtocolCodec.Codec.Semantics
import ProtocolCodec.Proofs.FirstWins

/-!
# The codecs of a library tie the knot

A library unfolds the codec of a name as often as the value at hand is deep. More levels make no
difference, since a codec hands on only what lies inside the value it was given. So the codecs of a
library solve their own equations: the codec of a structure is that of its plan, relative to the
codecs of the library.
-/

namespace ProtocolCodec

/-! ## Heights -/

theorem Json.height_le_of_mem {item : Json} {items : List Json} (h : item ∈ items) :
    item.height ≤ heightItems items := by
  induction items with
  | nil => cases h
  | cons first rest ih =>
      rw [heightItems]
      rcases List.mem_cons.mp h with rfl | hrest
      · exact Nat.le_max_left _ _
      · exact (ih hrest).trans (Nat.le_max_right _ _)

theorem Json.height_le_of_get? {key : String} {value : Json} {members : Members}
    (h : members.get? key = some value) : value.height ≤ heightMembers members := by
  induction members with
  | nil => cases h
  | cons first rest ih =>
      obtain ⟨k, v⟩ := first
      rw [heightMembers]
      rw [Members.get?, List.lookup_cons] at h
      split at h
      · cases h
        exact Nat.le_max_left _ _
      · exact (ih h).trans (Nat.le_max_right _ _)

theorem Datum.height_le_of_mem {item : Datum} {items : List Datum} (h : item ∈ items) :
    item.height ≤ heightItems items := by
  induction items with
  | nil => cases h
  | cons first rest ih =>
      rw [heightItems]
      rcases List.mem_cons.mp h with rfl | hrest
      · exact Nat.le_max_left _ _
      · exact (ih hrest).trans (Nat.le_max_right _ _)

theorem Datum.height_slot_le (slots : List (String × Datum)) (field : String) :
    (slot slots field).height ≤ heightSlots slots := by
  induction slots with
  | nil => exact Nat.zero_le _
  | cons first rest ih =>
      obtain ⟨name, content⟩ := first
      rw [heightSlots, slot, List.lookup_cons]
      split
      · exact Nat.le_max_left _ _
      · exact ih.trans (Nat.le_max_right _ _)

/-! ## What a codec depends on -/

theorem mapM_congr_left {ε α β : Type} {f g : α → Except ε β} {items : List α}
    (h : ∀ item ∈ items, f item = g item) : items.mapM f = items.mapM g := by
  induction items with
  | nil => rfl
  | cons first rest ih =>
      obtain ⟨hfirst, hrest⟩ := List.forall_mem_cons.mp h
      rw [List.mapM_cons, List.mapM_cons, hfirst, ih hrest]

section

variable {first second : String → Codec}

namespace Shape

/-- Decoding depends on the named codecs only at documents that are no higher. -/
theorem decodeElement_congr (shape : Shape) {value : Json}
    (h : ∀ name (v : Json), v.height ≤ value.height →
      (first name).decode v = (second name).decode v) :
    shape.decodeElement first value = shape.decodeElement second value := by
  induction shape generalizing value with
  | base kind => rfl
  | entity name => exact h name value le_rfl
  | sequence item ih =>
      rw [decodeElement, decodeElement]
      congr 1
      cases value with
      | array items =>
          apply mapM_congr_left
          intro element helement
          apply ih
          intro name v hv
          refine h name v (hv.trans ?_)
          rw [Json.height]
          exact (Json.height_le_of_mem helement).trans (Nat.le_succ _)
      | _ => rfl
  | json => rfl

/-- Codecs that agree on all values no deeper than a value decode it alike. -/
theorem decode_congr {shape : Shape} {value : Json}
    (h : ∀ name (v : Json), v.height ≤ value.height →
      (first name).decode v = (second name).decode v) :
    shape.decode first value = shape.decode second value := by
  cases shape with
  | base kind => rfl
  | entity name => exact h name value le_rfl
  | sequence item => exact decodeElement_congr (.sequence item) h
  | json => rfl

/-- Codecs that agree on all data no deeper than a datum encode it alike. -/
theorem encode_congr {shape : Shape} {datum : Datum}
    (h : ∀ name (d : Datum), d.height ≤ datum.height →
      (first name).encode d = (second name).encode d) :
    shape.encode first datum = shape.encode second datum := by
  induction shape generalizing datum with
  | base kind => rfl
  | entity name => exact h name datum le_rfl
  | sequence item ih =>
      cases datum with
      | list items =>
          rw [encode, encode]
          congr 1
          apply List.map_congr_left
          intro element helement
          apply ih
          intro name d hd
          refine h name d (hd.trans ?_)
          rw [Datum.height]
          exact (Datum.height_le_of_mem helement).trans (Nat.le_succ _)
      | _ => rfl
  | json => rfl

end Shape

theorem FieldPlan.decode_congr {plan : FieldPlan} {object : Members}
    (h : ∀ name (v : Json), v.height ≤ Json.heightMembers object →
      (first name).decode v = (second name).decode v) :
    plan.decode first object = plan.decode second object := by
  have hvalue : ∀ value, object.get? plan.key = some value →
      plan.shape.decode first value = plan.shape.decode second value := by
    intro value hget
    apply Shape.decode_congr
    intro name v hv
    exact h name v (hv.trans (Json.height_le_of_get? hget))
  unfold decode Members.optional Members.required
  cases hget : object.get? plan.key with
  | none => rfl
  | some value =>
      simp only [Option.filter_some, bind, Except.bind]
      rw [hvalue value hget]
      cases value.isNull with
      | true => rfl
      | false => simp only [Bool.not_false, if_true, hvalue value hget]

namespace RecordPlan

variable {plan : RecordPlan}

/-- Codecs that agree on the values of an object decode its fields alike. -/
theorem decodeFields_congr {fields : List FieldPlan} {object : Members}
    (h : ∀ name (v : Json), v.height ≤ Json.heightMembers object →
      (first name).decode v = (second name).decode v) :
    decodeFields first object fields = decodeFields second object fields := by
  induction fields with
  | nil => rfl
  | cons field fields ih => rw [decodeFields, decodeFields, FieldPlan.decode_congr h, ih]

/-- The codec of a structure hands on only what lies inside. -/
theorem decode_congr {value : Json}
    (h : ∀ name (v : Json), v.height < value.height →
      (first name).decode v = (second name).decode v) :
    (plan.codec first).decode value = (plan.codec second).decode value := by
  cases value with
  | object members =>
      have hfields : decodeFields first members plan.fields =
          decodeFields second members plan.fields := by
        apply decodeFields_congr
        intro name v hv
        apply h
        rw [Json.height]
        exact Nat.lt_succ_of_le hv
      simp only [codec, Json.members?, orError, bind, Except.bind, hfields]
  | _ => rfl

theorem encode_congr {datum : Datum}
    (h : ∀ name (d : Datum), d.height < datum.height →
      (first name).encode d = (second name).encode d) :
    (plan.codec first).encode datum = (plan.codec second).encode datum := by
  cases datum with
  | record slots =>
      have hinsert : insertField first slots = insertField second slots := by
        funext object field
        have hshape : field.shape.encode first (Datum.slot slots field.field) =
            field.shape.encode second (Datum.slot slots field.field) := by
          apply Shape.encode_congr
          intro name d hd
          apply h
          rw [Datum.height]
          exact Nat.lt_succ_of_le (hd.trans (Datum.height_slot_le slots _))
        rw [insertField, insertField, FieldPlan.encode, FieldPlan.encode, hshape]
      simp only [codec, hinsert]
  | _ => rfl

end RecordPlan

end

/-! ## Enough levels -/

namespace Library

variable {library : Library} {name : String}

/-- The codec of a name, good for all values. -/
def entity (library : Library) (name : String) : Codec where
  encode := library.encode name
  decode := library.decode name

/-- More levels than a value is deep make no difference to decoding it. -/
theorem decode_codec_of_lt {levels : Nat} {value : Json} (h : value.height < levels) :
    (library.codec levels name).decode value = library.decode name value := by
  induction levels using Nat.strongRec generalizing name value with
  | ind levels ih =>
      obtain ⟨below, rfl⟩ : ∃ below, levels = below + 1 := ⟨levels - 1, by omega⟩
      rw [decode, codec, codec]
      split
      · rfl
      · -- both hand on what lies inside to fewer levels, which are enough for it
        apply RecordPlan.decode_congr
        intro other v hv
        rw [ih below (by omega) (by omega), ih value.height h hv]
      · rfl
      · rfl

/-- More levels than a datum is deep make no difference to encoding it. -/
theorem encode_codec_of_lt {levels : Nat} {datum : Datum} (h : datum.height < levels) :
    (library.codec levels name).encode datum = library.encode name datum := by
  induction levels using Nat.strongRec generalizing name datum with
  | ind levels ih =>
      obtain ⟨below, rfl⟩ : ∃ below, levels = below + 1 := ⟨levels - 1, by omega⟩
      rw [encode, codec, codec]
      split
      · rfl
      · apply RecordPlan.encode_congr
        intro other d hd
        rw [ih below (by omega) (by omega), ih datum.height h hd]
      · rfl
      · rfl

theorem find?_of_findName? {key : String} {definition : Definition}
    (h : findName? Prod.fst library name = some (key, definition))
    (hsynonym : ∀ plan, definition ≠ .planned (.synonym plan)) :
    library.find? name = some definition := by
  rw [find?]
  split
  next hnone =>
    rw [hnone] at h
    cases h
  next hfound =>
    rw [hfound] at h
    cases h
    exact absurd rfl (hsynonym _)
  next hfound =>
    rw [hfound] at h
    cases h
    rfl

/-- A structure of the library has the codec of its plan, over the library itself. -/
theorem entity_of_record {plan : RecordPlan}
    (h : library.find? name = some (.planned (.record plan))) :
    library.entity name = plan.codec library.entity := by
  have hencode : library.encode name = (plan.codec library.entity).encode := by
    funext datum
    rw [encode, codec, h]
    apply RecordPlan.encode_congr
    intro other d hd
    exact encode_codec_of_lt hd
  have hdecode : library.decode name = (plan.codec library.entity).decode := by
    funext value
    rw [decode, codec, h]
    apply RecordPlan.decode_congr
    intro other v hv
    exact decode_codec_of_lt hv
  rw [entity, hencode, hdecode]

/-- A codec that takes no notice of levels is good for all values. -/
theorem entity_of_codec {fixed : Codec} (h : ∀ levels, library.codec (levels + 1) name = fixed) :
    library.entity name = fixed := by
  have hencode : library.encode name = fixed.encode := by
    funext datum
    rw [encode, h]
  have hdecode : library.decode name = fixed.decode := by
    funext value
    rw [decode, h]
  rw [entity, hencode, hdecode]

theorem entity_of_enumeration {plan : EnumPlan}
    (h : library.find? name = some (.planned (.enumeration plan))) :
    library.entity name = plan.codec :=
  entity_of_codec fun levels => by rw [codec, h]

theorem entity_of_written {written : Codec} (h : library.find? name = some (.written written)) :
    library.entity name = written :=
  entity_of_codec fun levels => by rw [codec, h]

theorem entity_of_none (h : library.find? name = none) : library.entity name = .json :=
  entity_of_codec fun levels => by rw [codec, h]

end Library

end ProtocolCodec
