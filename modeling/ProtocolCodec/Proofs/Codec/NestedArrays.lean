import Mathlib.Logic.Function.Iterate
import ProtocolCodec.Proofs.Codec.Library
import ProtocolCodec.Proofs.Codec.RoundTrip

/-!
# Arrays of arrays

Arrays are decoded leniently at every level: what is no array counts as the empty one, and an
element that is no primitive value becomes a default. Only a named type can refuse an element, and
then the first element that is refused, in the order of the document, decides the error. The lists
that come out have the lengths and the order of the arrays.
-/

namespace ProtocolCodec

/-! ## Levels of a document -/

namespace Json

/-- The items of an array; nothing else has any. -/
def items : Json → List Json
  | .array items => items
  | _ => []

/-- What stands below that many levels of arrays, in the order of the document. -/
def leaves : (depth : Nat) → Json → List Json
  | 0, value => [value]
  | depth + 1, value => value.items.flatMap (leaves depth)

/-- The lists that the first levels of a document make, with the leaves below them converted. -/
def nested (convert : Json → Datum) : (depth : Nat) → Json → Datum
  | 0, value => convert value
  | depth + 1, value => .list (value.items.map (nested convert depth))

/-- What stands at a place, given by an index for each level. -/
def at? : (place : List Nat) → Json → Option Json
  | [], value => some value
  | index :: place, value => value.items[index]?.bind (at? place)

end Json

namespace Datum

/-- The items of a list; nothing else has any. -/
def items : Datum → List Datum
  | .list items => items
  | _ => []

/-- What stands at a place, given by an index for each level. -/
def at? : (place : List Nat) → Datum → Option Datum
  | [], datum => some datum
  | index :: place, datum => datum.items[index]?.bind (at? place)

end Datum

/-- Conversion keeps every place: below a place stands what was there, converted. -/
theorem Json.at?_nested (convert : Json → Datum) {place : List Nat} {depth : Nat}
    (h : place.length ≤ depth) (value : Json) :
    (value.nested convert depth).at? place =
      (value.at? place).map (nested convert (depth - place.length)) := by
  induction place generalizing depth value with
  | nil => rfl
  | cons index place ih =>
      obtain ⟨depth, rfl⟩ : ∃ d, depth = d + 1 := ⟨depth - 1, by simp at h; omega⟩
      have hplace : place.length ≤ depth := by simpa using h
      simp only [Datum.at?, Json.at?, nested, Datum.items, List.getElem?_map, List.length_cons,
        Nat.add_sub_add_right]
      cases value.items[index]? with
      | none => rfl
      | some item => exact ih hplace item

/-! ## Elements that are refused -/

/-- The error of a decoder that refuses. -/
def Decoded.error? {α : Type} : Decoded α → Option DecodeError
  | .error error => some error
  | .ok _ => none

namespace Decoded

variable {α β : Type} {outcome : Decoded α}

theorem error?_eq_some_iff {error : DecodeError} :
    error? outcome = some error ↔ outcome = .error error := by
  cases outcome <;> simp [error?]

theorem error?_eq_none_iff : error? outcome = none ↔ ∃ a, outcome = .ok a := by
  cases outcome <;> simp [error?]

theorem error?_map (f : α → β) : error? (outcome.map f) = error? outcome := by
  cases outcome <;> rfl

/-- A list is refused for the first of its items that is. -/
theorem error?_mapM (decode : α → Decoded β) (items : List α) :
    error? (items.mapM decode) = items.findSome? fun item => error? (decode item) := by
  induction items with
  | nil => rfl
  | cons first rest ih =>
      rw [List.mapM_cons, List.findSome?_cons, ← ih]
      cases decode first with
      | error error => rfl
      | ok value =>
          cases rest.mapM decode with
          | error error => rfl
          | ok values => rfl

theorem mapM_eq_ok {decode : α → Decoded β} {convert : α → β} {items : List α}
    (h : ∀ item ∈ items, decode item = .ok (convert item)) :
    items.mapM decode = .ok (items.map convert) := by
  rw [mapM_congr_left h]
  exact List.mapM_pure

end Decoded

theorem findSome?_flatMap {α β γ : Type} (f : α → List β) (g : β → Option γ) (items : List α) :
    (items.flatMap f).findSome? g = items.findSome? fun item => (f item).findSome? g := by
  induction items with
  | nil => rfl
  | cons first rest ih =>
      rw [List.flatMap_cons, List.findSome?_append, List.findSome?_cons, ih]
      cases (f first).findSome? g <;> rfl

theorem decodeArray_eq_mapM {α : Type} (decode : Json → Decoded α) (value : Json) :
    decodeArray decode value = value.items.mapM decode := by
  cases value <;> rfl

/-! ## Shapes of nested arrays -/

namespace Shape

variable {entities : String → Codec} {shape : Shape}

/-- At the second level and below the elements are decoded as at the first. -/
theorem decode_iterate_sequence (depth : Nat) (value : Json) :
    (sequence^[depth + 1] shape).decode entities value =
      (sequence^[depth + 1] shape).decodeElement entities value := by
  rw [Function.iterate_succ_apply']
  rfl

/-- One more array around a shape decodes each item by the shape inside. -/
theorem decodeElement_iterate_succ (depth : Nat) (value : Json) :
    (sequence^[depth + 1] shape).decodeElement entities value =
      (value.items.mapM ((sequence^[depth] shape).decodeElement entities)).map .list := by
  rw [Function.iterate_succ_apply', decodeElement, decodeArray_eq_mapM]

/-- Where every leaf is accepted, the whole document is. -/
theorem decodeElement_iterate_eq_ok {convert : Json → Datum} {depth : Nat} {value : Json}
    (h : ∀ leaf ∈ value.leaves depth, shape.decodeElement entities leaf = .ok (convert leaf)) :
    (sequence^[depth] shape).decodeElement entities value = .ok (value.nested convert depth) := by
  induction depth generalizing value with
  | zero => exact h value List.mem_cons_self
  | succ depth ih =>
      have hitems : ∀ item ∈ value.items, (sequence^[depth] shape).decodeElement entities item =
          .ok (item.nested convert depth) := by
        intro item hitem
        apply ih
        intro leaf hleaf
        exact h leaf (List.mem_flatMap.mpr ⟨item, hitem, hleaf⟩)
      rw [decodeElement_iterate_succ, Decoded.mapM_eq_ok hitems]
      rfl

/-- A document is refused for the first of its leaves that is. -/
theorem error?_decodeElement_iterate (depth : Nat) (value : Json) :
    Decoded.error? ((sequence^[depth] shape).decodeElement entities value) =
      (value.leaves depth).findSome? fun leaf =>
        Decoded.error? (shape.decodeElement entities leaf) := by
  induction depth generalizing value with
  | zero => simp [Json.leaves]
  | succ depth ih =>
      rw [decodeElement_iterate_succ, Decoded.error?_map, Decoded.error?_mapM, Json.leaves,
        findSome?_flatMap]
      simp only [ih]

/-- Nested arrays fail just as the first of their leaves that fails. -/
theorem decodeElement_iterate_eq_error_iff {depth : Nat} {value : Json} {error : DecodeError} :
    (sequence^[depth] shape).decodeElement entities value = .error error ↔
      ∃ before leaf after, value.leaves depth = before ++ leaf :: after ∧
        (∀ earlier ∈ before, ∃ datum, shape.decodeElement entities earlier = .ok datum) ∧
        shape.decodeElement entities leaf = .error error := by
  rw [← Decoded.error?_eq_some_iff, error?_decodeElement_iterate, List.findSome?_eq_some_iff]
  simp only [Decoded.error?_eq_some_iff, Decoded.error?_eq_none_iff]
  constructor
  · rintro ⟨before, leaf, after, hleaves, herror, hbefore⟩
    exact ⟨before, leaf, after, hleaves, hbefore, herror⟩
  · rintro ⟨before, leaf, after, hleaves, hbefore, herror⟩
    exact ⟨before, leaf, after, hleaves, herror, hbefore⟩

/-- Nested arrays are decoded just when all their leaves are, and keep their places. -/
theorem decodeElement_iterate_eq_ok_iff {depth : Nat} {value : Json} {datum : Datum} :
    (sequence^[depth] shape).decodeElement entities value = .ok datum ↔
      ∃ convert, (∀ leaf ∈ value.leaves depth,
          shape.decodeElement entities leaf = .ok (convert leaf)) ∧
        datum = value.nested convert depth := by
  constructor
  · intro h
    have hnone : Decoded.error? ((sequence^[depth] shape).decodeElement entities value) = none :=
      Decoded.error?_eq_none_iff.mpr ⟨datum, h⟩
    rw [error?_decodeElement_iterate, List.findSome?_eq_none_iff] at hnone
    have haccepted : ∀ leaf, ∃ content, leaf ∈ value.leaves depth →
        shape.decodeElement entities leaf = .ok content := by
      intro leaf
      by_cases hleaf : leaf ∈ value.leaves depth
      · obtain ⟨content, hcontent⟩ := Decoded.error?_eq_none_iff.mp (hnone leaf hleaf)
        exact ⟨content, fun _ => hcontent⟩
      · exact ⟨.absent, fun hmem => absurd hmem hleaf⟩
    choose convert hconvert using haccepted
    refine ⟨convert, hconvert, ?_⟩
    rw [decodeElement_iterate_eq_ok hconvert] at h
    exact (Except.ok.inj h).symm
  · rintro ⟨convert, hconvert, rfl⟩
    exact decodeElement_iterate_eq_ok hconvert

end Shape

/-- What an array type makes of a document, at any number of levels and for any codecs of the named
types. Primitive values and documents that are kept as they are never fail: what is no array is an
empty list, a malformed leaf is a default. With a named type at the leaves the decoder accepts just
the documents whose leaves are all accepted, and reports the error of the first leaf that is not. At
every place the lists have the items of the arrays, in their order. -/
theorem decode_nestedArrays (entities : String → Codec) (depth : Nat) (value : Json) :
    (∀ kind, (Shape.sequence^[depth + 1] (.base kind)).decode entities value =
      .ok (value.nested kind.convert (depth + 1))) ∧
    (Shape.sequence^[depth + 1] .json).decode entities value =
      .ok (value.nested .json (depth + 1)) ∧
    (∀ name,
      (∀ datum, (Shape.sequence^[depth + 1] (.entity name)).decode entities value = .ok datum ↔
        ∃ convert, (∀ leaf ∈ value.leaves (depth + 1),
            (entities name).decode leaf = .ok (convert leaf)) ∧
          datum = value.nested convert (depth + 1)) ∧
      ∀ error, (Shape.sequence^[depth + 1] (.entity name)).decode entities value = .error error ↔
        ∃ before leaf after, value.leaves (depth + 1) = before ++ leaf :: after ∧
          (∀ earlier ∈ before, ∃ datum, (entities name).decode earlier = .ok datum) ∧
          (entities name).decode leaf = .error error) ∧
    ∀ (convert : Json → Datum) (place : List Nat),
      (place.length ≤ depth → (value.nested convert (depth + 1)).at? place =
        (value.at? place).map fun found =>
          .list (found.items.map (Json.nested convert (depth - place.length)))) ∧
      (place.length = depth + 1 → (value.nested convert (depth + 1)).at? place =
        (value.at? place).map convert) := by
  refine ⟨?_, ?_, ?_, ?_⟩
  · intro kind
    rw [Shape.decode_iterate_sequence]
    apply Shape.decodeElement_iterate_eq_ok
    intro leaf _
    rw [Shape.decodeElement, kind.decodeElement_eq_convert]
  · rw [Shape.decode_iterate_sequence]
    exact Shape.decodeElement_iterate_eq_ok fun leaf _ => rfl
  · intro name
    rw [Shape.decode_iterate_sequence]
    exact ⟨fun datum => Shape.decodeElement_iterate_eq_ok_iff,
      fun error => Shape.decodeElement_iterate_eq_error_iff⟩
  · intro convert place
    constructor
    · intro hplace
      rw [Json.at?_nested convert (Nat.le_succ_of_le hplace), Nat.succ_sub hplace]
      rfl
    · intro hplace
      rw [Json.at?_nested convert hplace.le, hplace, Nat.sub_self]
      rfl

/-- Two levels of booleans, with a malformed leaf and a string in the place of an array. -/
example :
    (Shape.sequence^[2] (.base .boolean)).decode (fun _ => .json)
        (.array [.array [.boolean true, .null], .string "no array"]) =
      .ok (.list [.list [.boolean true, .boolean false], .list []]) := by
  rfl

end ProtocolCodec
