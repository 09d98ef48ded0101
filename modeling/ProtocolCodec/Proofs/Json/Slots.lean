import ProtocolCodec.Proofs.Json.Following

/-!
# Records read in two ways

A slot is a field of a record together with the reader and the decoder of its content, one of which
follows the other. A record whose fields are slots is then read as it is decoded, by position or by
key: members that no field has are passed over without being read, and left out of the decoding.
-/

namespace ProtocolCodec.Json

/-- A field that is read as it is decoded. -/
structure Slot (α : Type) where
  required : Bool
  key : String
  {Content : Type}
  {read : Reader Content}
  {decode : Nat → Decoder Content}
  follows : Follows read decode
  put : α → Content → α

namespace Slot

variable {α : Type}

/-- The slot as a field read from a text. -/
def text (slot : Slot α) : TextField α :=
  textField slot.required slot.key slot.read slot.put

/-- The slot as a field taken from a value. -/
def value (depth : Nat) (slot : Slot α) : ValueField α :=
  valueField slot.required slot.key (slot.decode depth) slot.put

/-- Storing what a text spells comes to storing the document, failures aside. -/
theorem toOption_store (slot : Slot α) {width : Nat} {text rest : List Char} {document : Json}
    (h : Spells width text document rest) (a : α) (depth : Nat) :
    (slot.text.store a width depth text).toOption =
      ((slot.value depth).store a document).toOption.map (·, rest) := by
  have hread := slot.follows width depth text document rest h
  change Except.toOption (slot.read width depth text >>= fun (b, rest) =>
      .ok (slot.put a b, rest)) =
    (Except.toOption (slot.decode depth document >>= fun b => .ok (slot.put a b))).map (·, rest)
  rw [toOption_bind, hread, toOption_bind]
  cases slot.decode depth document <;> rfl

theorem firstMissing?_value (slots : List (Slot α)) (depth : Nat) (seen : List String) :
    firstMissing? (slots.map (value depth)) seen = firstMissing? (slots.map text) seen := by
  simp only [firstMissing?, List.find?_map, Option.map_map]
  rfl

/-! ## By key -/

/-- Take one member, as decoding does. -/
def next (slots : List (Slot α)) (depth : Nat) (key : String) (state : List String × α)
    (document : Json) : Option (List String × α) :=
  match slots.find? (·.key == key) with
  | none => some state
  | some slot =>
      if state.1.contains key then none
      else ((slot.value depth).store state.2 document).toOption.map (key :: state.1, ·)

/-- The step over a member of a text comes to the step over the member, failures aside. -/
theorem toOption_readField (slots : List (Slot α)) {width : Nat} {depth : Nat} {key : String}
    {state : List String × α} {text content rest : List Char} {document : Json}
    (hcolon : readColon text = .ok content) (h : Spells width content document rest) :
    (readField (slots.map Slot.text) width depth key state text).toOption =
      (next slots depth key state document).map (·, rest) := by
  have hfind : (slots.map Slot.text).find? (·.key == key) =
      (slots.find? (·.key == key)).map Slot.text := List.find?_map ..
  rw [readField, hfind, next]
  cases slots.find? (·.key == key) with
  | none =>
      change Except.toOption (readMember key (fun text => skipValue width text >>= fun rest =>
        .ok ((), rest)) text >>= fun skipped => .ok (state, skipped.2)) = _
      rw [toOption_bind, toOption_readMember hcolon, h.skipValue]
      rfl
  | some slot =>
      dsimp only [Option.map_some]
      split
      · rfl
      · rw [toOption_bind, toOption_readMember hcolon, slot.toOption_store h]
        cases (slot.value depth).store state.2 document <;> rfl

/-- Taking that step for each member is decoding the members. -/
theorem foldlM_next (slots : List (Slot α)) (depth : Nat) (members : Members)
    (seen : List String) (a : α) :
    members.foldlM (fun state member => next slots depth member.1 state member.2) (seen, a) =
      (decodeMembers (slots.map (value depth)) seen a members).toOption := by
  induction members generalizing seen a with
  | nil => rfl
  | cons member members ih =>
      obtain ⟨key, document⟩ := member
      have hfind : (slots.map (value depth)).find? (·.key == key) =
          (slots.find? (·.key == key)).map (value depth) := List.find?_map ..
      rw [List.foldlM_cons, decodeMembers, hfind, next]
      cases slots.find? (·.key == key) with
      | none => exact ih seen a
      | some slot =>
          dsimp only [Option.map_some]
          split
          · rfl
          · cases (slot.value depth).store a document with
            | error cause => rfl
            | ok b => exact ih (key :: seen) b

/-- Reading a record from an object comes to decoding the object, failures aside. -/
theorem toOption_readFields (slots : List (Slot α)) (label : String) {width depth : Nat} {blank : α}
    {text tail : List Char} {members : Members}
    (hmembers : Entries (Spells width) true text members tail) (hlength : members.length < width) :
    (readFields (slots.map Slot.text) width depth blank text).toOption =
      (decodeRecord label (slots.map (value depth)) blank (.object members)).toOption.map
        (·, tail) := by
  have hstep : ∀ key state text content document rest, readColon text = .ok content →
      Spells width content document rest →
        (readField (slots.map Slot.text) width depth key state text).toOption =
          (next slots depth key state document).map (·, rest) :=
    fun _ _ _ _ _ _ hcolon hread => toOption_readField slots hcolon hread
  rw [readFields, decodeRecord, toOption_bind, toOption_bind,
    hmembers.toOption_foldMembers hstep hlength, foldlM_next]
  cases decodeMembers (slots.map (value depth)) [] blank members with
  | error cause => rfl
  | ok pair =>
      obtain ⟨seen, a⟩ := pair
      simp only [Except.toOption, Option.map_some, Option.bind_some, firstMissing?_value]
      cases firstMissing? (slots.map Slot.text) seen <;> rfl

/-! ## By position -/

/-- An array can be left exactly where it has no more items. -/
theorem toOption_closeList {Reads : List Char → Json → List Char → Prop} {first : Bool}
    {text tail rest : List Char} {items : List Json} (hitems : Items Reads first text items tail)
    (hclose : closeList tail = .ok rest) :
    (closeList text).toOption = if items.isEmpty then some rest else none := by
  cases hitems with
  | done hnext =>
      rcases nextItem_cases hnext with ⟨_, after, hspace, rfl⟩ | ⟨hmore, _⟩ | ⟨hmore, _⟩
      · have htext : closeList text = .ok rest := by
          rw [closeList_eq_ok_iff] at hclose ⊢
          rw [hspace]
          exact hclose
        rw [htext]
        rfl
      · cases hmore
      · cases hmore
  | next hnext _ _ =>
      cases htext : closeList text with
      | error f => rfl
      | ok after =>
          rw [closeList_eq_ok_iff] at htext
          rcases nextItem_cases hnext with ⟨hmore, _⟩ | ⟨_, _, c, _, hother, hspace, _⟩ |
            ⟨_, _, _, hspace, _⟩
          · cases hmore
          · rw [htext] at hspace
            exact absurd (List.cons.inj hspace).1.symm hother
          · rw [htext] at hspace
            cases (List.cons.inj hspace).1

/-- Reading fields from items in turn comes to decoding the items, failures aside. -/
theorem toOption_readPositions (slots : List (Slot α)) {label label' : String}
    {all : List (TextField α)} {all' : List (ValueField α)} {width depth index : Nat} {first : Bool}
    {text tail rest : List Char} {items : List Json}
    (hitems : Items (Spells width) first text items tail) (hclose : closeList tail = .ok rest)
    (hfirst : (index == 0) = first) (a : α) :
    ((readPositions label all width depth (slots.map Slot.text) index a text).toOption.bind
        fun (b, tail) => (closeList tail).toOption.map (b, ·)) =
      (decodePositions label' all' (slots.map (value depth)) index a items).toOption.bind
        fun (b, surplus) => if surplus.isEmpty then some (b, rest) else none := by
  induction slots generalizing index first text items a with
  | nil =>
      change (closeList text).toOption.map (a, ·) = if items.isEmpty then some (a, rest) else none
      rw [toOption_closeList hitems hclose]
      split <;> rfl
  | cons slot slots ih =>
      subst hfirst
      cases hitems with
      | done hnext =>
          rw [List.map_cons, List.map_cons, readPositions, decodePositions, hnext]
          dsimp only
          change (Except.toOption (if slot.required then _ else _)).bind _ =
            (Except.toOption (if slot.required then _ else _)).bind _
          split
          · rfl
          · -- A field that may be missing leaves the closing bracket to the next one.
            have hend : Items (Spells width) false tail [] tail := by
              rcases nextItem_cases hnext with ⟨_, after, _, rfl⟩ | ⟨hmore, _⟩ | ⟨hmore, _⟩
              · exact .done (nextItem_close false after)
              · cases hmore
              · cases hmore
            exact ih hend rfl a
      | @next _ _ body behind _ item items hnext hread hitems =>
          rw [List.map_cons, List.map_cons, readPositions, decodePositions, hnext]
          dsimp only
          have hstore : (inside (.index index) (slot.text.store a width depth body)).toOption =
              ((slot.value depth).store a item).toOption.map (·, behind) := by
            rw [toOption_inside, slot.toOption_store hread a depth]
          cases hvalue : (slot.value depth).store a item with
          | error cause =>
              rw [hvalue] at hstore
              cases htext : inside (.index index) (slot.text.store a width depth body) with
              | error f => rfl
              | ok pair =>
                  rw [htext] at hstore
                  cases hstore
          | ok b =>
              rw [hvalue] at hstore
              rw [toOption_eq_some_iff.mp hstore]
              exact ih hitems rfl b

/-- Reading a record from an array comes to decoding the array, failures aside. -/
theorem toOption_readPositions_inList (slots : List (Slot α)) (label label' : String)
    {width depth : Nat} {blank : α} {text tail rest : List Char} {items : List Json}
    (hitems : Items (Spells width) true text items tail) (hclose : closeList tail = .ok rest) :
    (inList text (readPositions label (slots.map Slot.text) width depth (slots.map Slot.text) 0
        blank)).toOption =
      (decodeRecord label' (slots.map (value depth)) blank (.array items)).toOption.map
        (·, rest) := by
  rw [toOption_inList, toOption_readPositions slots hitems hclose rfl blank, decodeRecord,
    decodeItems, toOption_bind]
  cases decodePositions label' (slots.map (value depth)) (slots.map (value depth)) 0 blank
    items with
  | error cause => rfl
  | ok pair =>
      obtain ⟨b, surplus⟩ := pair
      simp only [Except.toOption, Option.bind_some]
      split <;> rfl

end Slot

variable {α : Type}

theorem toOption_decodeRecord {label : String} {fields : List (ValueField α)} {blank : α}
    {document : Json} (harray : ∀ items, document ≠ .array items)
    (hobject : ∀ members, document ≠ .object members) :
    (decodeRecord label fields blank document).toOption = none := by
  unfold decodeRecord
  split
  · exact absurd rfl (harray _)
  · exact absurd rfl (hobject _)
  · rfl

/-- A record of slots is read as it is decoded. -/
theorem Follows.record (name label : String) (slots : List (Slot α)) (blank : α) :
    Follows (readRecord name (slots.map Slot.text) blank)
      (opened fun depth => decodeRecord label (slots.map (Slot.value depth)) blank) := by
  intro width depth text document rest hspells
  unfold readRecord
  cases hspells.level with
  | scalar hbracket hbrace hscalar =>
      obtain ⟨harray, hobject⟩ := scalar_of_readScalar hscalar
      rw [toOption_opened (fun _ => toOption_decodeRecord harray hobject)]
      split
      next => rfl
      next heq => exact absurd heq (hbracket _)
      next heq => exact absurd heq (hbrace _)
      next => rfl
  | array hbody _ hitems hclose =>
      rw [hbody]
      cases depth with
      | zero => rfl
      | succ depth =>
          exact Slot.toOption_readPositions_inList slots _ label hitems hclose
  | object hbody hlength hmembers hclose =>
      rw [hbody]
      cases depth with
      | zero => rfl
      | succ depth =>
          change Except.toOption (inObject _ (readFields _ width depth blank)) = _
          rw [toOption_inObject, Slot.toOption_readFields slots label hmembers hlength, opened]
          cases decodeRecord label (slots.map (Slot.value depth)) blank _ with
          | error cause => rfl
          | ok a => simp [Except.toOption, hclose]

end ProtocolCodec.Json
