import ProtocolCodec.Model.Reader
import ProtocolCodec.Proofs.Json.Records
import ProtocolCodec.Proofs.Json.Values

/-!
# Reading back the types of a metamodel

A type is read in two steps: the whole value is read into a document, with the outermost tag taken
out, and the document is then decoded. The first step is bounded by the nesting of the text; the
second recurses over the type, and whatever passed the first fits its own bound.
-/

namespace ProtocolCodec

open Json

/-! ## Tags and content -/

namespace TypeExpr

/-- The tag of a type. -/
def kind : TypeExpr → TypeKind
  | .base _ => .base
  | .reference _ => .reference
  | .array _ => .array
  | .map _ _ => .map
  | .union _ => .union
  | .intersection _ => .intersection
  | .literal _ => .literal
  | .stringLiteral _ => .stringLiteral
  | .integerLiteral _ => .integerLiteral
  | .booleanLiteral _ => .booleanLiteral
  | .tuple _ => .tuple

/-- The members that go with the tag. -/
def members : TypeExpr → Members
  | .base name => [("name", .string name)]
  | .reference name => [("name", .string name)]
  | .array element => [("element", element.toJson)]
  | .map key value => [("key", key.toJson), ("value", value.toJson)]
  | .union items => [("items", .array (listToJson items))]
  | .intersection items => [("items", .array (listToJson items))]
  | .literal properties =>
      [("value", .object [("properties", .array (LiteralProperty.listToJson properties))])]
  | .stringLiteral value => [("value", .string value)]
  | .integerLiteral value => [("value", .ofInt64 value)]
  | .booleanLiteral value => [("value", .boolean value)]
  | .tuple items => [("items", .array (listToJson items))]

theorem toJson_eq_ofKind (type : TypeExpr) : type.toJson = .ofKind type.kind.tag type.members := by
  cases type <;> rfl

theorem members_key_ne_kind (type : TypeExpr) : ∀ member ∈ type.members, member.1 ≠ "kind" := by
  cases type <;> simp [members]

theorem height_toJson (type : TypeExpr) : type.toJson.height = heightMembers type.members + 1 := by
  rw [toJson_eq_ofKind]
  simp only [ofKind, height, heightMembers, Nat.zero_max]

end TypeExpr

theorem TypeKind.ofTag_tag (kind : TypeKind) : TypeKind.ofTag kind.tag = .ok kind := by
  have hfind : all.find? (·.tag == kind.tag) = some kind := by
    cases kind <;> decide
  rw [ofTag, hfind]

/-! ## Decoding -/

section Decoding

variable {α : Type}

/-- A record of one field is decoded as the field is. -/
theorem decodeRecord_single (label : String) (required : Bool) (key : String) (decode : Decoder α)
    (blank : α) (value : Json) :
    decodeRecord label [valueField required key decode fun _ a => a] blank
      (.object [(key, value)]) = decode value := by
  cases hvalue : decode value <;>
    simp [decodeRecord, decodeMembers, valueField, firstMissing?, hvalue, bind, Except.bind]

/-- A record of two fields is decoded field by field. -/
theorem decodeRecord_pair (label : String) (decode : Decoder α) {first second : α}
    {firstValue secondValue : Json} (blank : α × α) (hfirst : decode firstValue = .ok first)
    (hsecond : decode secondValue = .ok second) :
    decodeRecord label
      [valueField true "key" decode fun p key => (key, p.2),
       valueField true "value" decode fun p val => (p.1, val)] blank
      (.object [("key", firstValue), ("value", secondValue)]) = .ok (first, second) := by
  simp [decodeRecord, decodeMembers, valueField, firstMissing?, hfirst, hsecond, bind, Except.bind]

end Decoding

namespace TypeExpr

theorem splitTag_some (kind : TypeKind) {members : Members}
    (hkeys : ∀ member ∈ members, member.1 ≠ "kind") :
    splitTag (some kind) members = .ok (some kind, members) := by
  induction members with
  | nil => rfl
  | cons member members ih =>
      rw [List.forall_mem_cons] at hkeys
      rw [splitTag, if_neg hkeys.1, ih hkeys.2]

/-- The document of a type is split into its kind and its members. -/
theorem split_toJson (type : TypeExpr) :
    split type.toJson = .ok (type.kind, .object type.members) := by
  have hrest := splitTag_some type.kind type.members_key_ne_kind
  rw [toJson_eq_ofKind, ofKind, split, splitTag, if_pos rfl]
  simp only [Option.isSome_none, Bool.false_eq_true, if_false, TypeKind.decode,
    TypeKind.ofTag_tag, hrest, bind, Except.bind]

/-- A type is decoded when its content is. -/
theorem decode_of_decodeContent {type : TypeExpr}
    (hcontent : ∀ depth, heightMembers type.members ≤ depth →
      decodeContent (decode depth) type.kind (.object type.members) = .ok type)
    {depth : Nat} (hdepth : type.toJson.height ≤ depth) : decode depth type.toJson = .ok type := by
  rw [height_toJson] at hdepth
  obtain ⟨depth, rfl⟩ := Nat.exists_eq_add_one.mpr (Nat.zero_lt_of_lt hdepth)
  rw [decode, split_toJson]
  exact hcontent depth (Nat.le_of_succ_le_succ hdepth)

theorem decodeLiteralProperty_toJson {decode : Decoder TypeExpr} {type : TypeExpr}
    (htype : decode type.toJson = .ok type) (name : String) (optional : Bool) :
    decodeLiteralProperty decode (LiteralProperty.mk name type optional).toJson =
      .ok (.mk name type optional) := by
  simp [decodeLiteralProperty, LiteralProperty.toJson, literalFields, decodeRecord, decodeMembers,
    valueField, firstMissing?, decodeText, decodeFlag, htype, bind, Except.bind]

theorem decodeInt64_ofInt64 (n : Int64) : decodeInt64 (.ofInt64 n) = .ok n := by
  simp only [decodeInt64, Json.ofInt64, toInt64?_ofInt64]

mutual

/-- The content of a type that fits is decoded to the type. -/
theorem decodeContent_members (type : TypeExpr) (depth : Nat)
    (hdepth : heightMembers type.members ≤ depth) :
    decodeContent (decode depth) type.kind (.object type.members) = .ok type := by
  cases type with
  | base _ | reference _ | stringLiteral _ | booleanLiteral _ =>
      simp only [kind, members, decodeContent, decodeField, decodeRecord_single]
      rfl
  | integerLiteral value =>
      simp only [kind, members, decodeContent, decodeField, decodeRecord_single,
        decodeInt64_ofInt64]
      rfl
  | array element =>
      simp only [members, heightMembers, Nat.max_zero] at hdepth
      have helement := decode_of_decodeContent (decodeContent_members element) hdepth
      simp only [kind, members, decodeContent, decodeField, decodeRecord_single, helement]
      rfl
  | map key value =>
      simp only [members, heightMembers, Nat.max_zero, Nat.max_le] at hdepth
      have hkey := decode_of_decodeContent (decodeContent_members key) hdepth.1
      have hvalue := decode_of_decodeContent (decodeContent_members value) hdepth.2
      simp only [kind, members, decodeContent, decodeRecord_pair _ _ _ hkey hvalue]
      rfl
  | union items | intersection items | tuple items =>
      simp only [members, heightMembers, height, Nat.max_zero] at hdepth
      have hitems := mapM_decode_listToJson items depth (Nat.le_of_succ_le hdepth)
      simp only [kind, members, decodeContent, decodeField, decodeRecord_single, decodeList, hitems]
      rfl
  | literal properties =>
      simp only [members, heightMembers, height, Nat.max_zero] at hdepth
      have hproperties := mapM_decodeLiteralProperty_listToJson properties depth (by omega)
      simp only [kind, members, decodeContent, decodeField, decodeLiteral, decodeRecord_single,
        decodeList, hproperties]
      rfl

/-- Types are decoded from the list of their documents, within the nesting limit. -/
theorem mapM_decode_listToJson (items : List TypeExpr) (depth : Nat)
    (hdepth : heightItems (listToJson items) ≤ depth) :
    (listToJson items).mapM (decode depth) = .ok items := by
  cases items with
  | nil => rfl
  | cons type items =>
      simp only [listToJson, heightItems, Nat.max_le] at hdepth
      have htype := decode_of_decodeContent (decodeContent_members type) hdepth.1
      have hitems := mapM_decode_listToJson items depth hdepth.2
      rw [listToJson, List.mapM_cons, htype, hitems]
      rfl

theorem mapM_decodeLiteralProperty_listToJson (properties : List LiteralProperty) (depth : Nat)
    (hdepth : heightItems (LiteralProperty.listToJson properties) ≤ depth) :
    (LiteralProperty.listToJson properties).mapM (decodeLiteralProperty (decode depth)) =
      .ok properties := by
  cases properties with
  | nil => rfl
  | cons property properties =>
      obtain ⟨name, type, optional⟩ := property
      simp only [LiteralProperty.listToJson, LiteralProperty.toJson, heightItems, height,
        heightMembers, Nat.max_le] at hdepth
      have hheight : type.toJson.height ≤ depth := by omega
      have htype := decode_of_decodeContent (decodeContent_members type) hheight
      have hproperties := mapM_decodeLiteralProperty_listToJson properties depth hdepth.2
      rw [LiteralProperty.listToJson, List.mapM_cons, decodeLiteralProperty_toJson htype,
        hproperties]
      rfl

end

/-! ## The documents of types have integers only -/

theorem integral_of_members {type : TypeExpr}
    (h : ∀ member ∈ type.members, member.2.Integral) : type.toJson.Integral := by
  rw [toJson_eq_ofKind]
  exact .object (List.forall_mem_cons.mpr ⟨.string _, h⟩)

mutual

/-- The documents of types hold no numbers but integers. -/
theorem integral_members (type : TypeExpr) :
    ∀ member ∈ type.members, member.2.Integral := by
  cases type with
  | base name => exact List.forall_mem_singleton.mpr (.string name)
  | reference name => exact List.forall_mem_singleton.mpr (.string name)
  | stringLiteral value => exact List.forall_mem_singleton.mpr (.string value)
  | integerLiteral value => exact List.forall_mem_singleton.mpr (.whole (.ofInt64 value))
  | booleanLiteral value => exact List.forall_mem_singleton.mpr (.boolean value)
  | array element =>
      exact List.forall_mem_singleton.mpr (integral_of_members element.integral_members)
  | map key value =>
      rw [members, List.forall_mem_cons, List.forall_mem_singleton]
      exact ⟨integral_of_members key.integral_members, integral_of_members value.integral_members⟩
  | union items | intersection items | tuple items =>
      exact List.forall_mem_singleton.mpr (.array (integral_listToJson items))
  | literal properties =>
      have hproperties := integral_propertiesToJson properties
      exact List.forall_mem_singleton.mpr
        (.object (List.forall_mem_singleton.mpr (.array hproperties)))

theorem integral_listToJson (items : List TypeExpr) :
    ∀ item ∈ listToJson items, item.Integral := by
  cases items with
  | nil => exact List.forall_mem_nil _
  | cons type items =>
      rw [listToJson, List.forall_mem_cons]
      exact ⟨integral_of_members type.integral_members, integral_listToJson items⟩

theorem integral_propertiesToJson (properties : List LiteralProperty) :
    ∀ property ∈ LiteralProperty.listToJson properties, property.Integral := by
  cases properties with
  | nil => exact List.forall_mem_nil _
  | cons property properties =>
      obtain ⟨name, type, optional⟩ := property
      have htype := integral_of_members type.integral_members
      rw [LiteralProperty.listToJson, List.forall_mem_cons]
      refine ⟨.object ?_, integral_propertiesToJson properties⟩
      rw [List.forall_mem_cons, List.forall_mem_cons, List.forall_mem_singleton]
      exact ⟨.string name, htype, .boolean optional⟩

end

/-! ## Reading from a text -/

theorem readsAs_tag (kind : TypeKind) : ReadsAs TypeKind.read (.string kind.tag) kind := by
  intro width depth rest _ _
  refine Answers.of_eq_ok ?_ (Nat.zero_le depth)
  rw [print, printString_append, TypeKind.read, skipSpace_cons (by decide)]
  simp only [readString_flatMap_escape, bind, Except.bind, String.ofList_toList,
    TypeKind.ofTag_tag]

/-- The members beside the tag are gathered in reverse. -/
theorem threads_readTagged (kind : TypeKind) {members : Members}
    (hkeys : ∀ member ∈ members, member.1 ≠ "kind")
    (hintegral : ∀ member ∈ members, member.2.Integral) (done : Members) :
    Threads readTagged members (some kind, done) (some kind, members.reverse ++ done) := by
  induction members generalizing done with
  | nil => exact .nil _
  | cons member members ih =>
      rw [List.forall_mem_cons] at hkeys hintegral
      rw [List.reverse_cons, List.append_assoc, List.singleton_append]
      refine .cons ?_ (ih hkeys.2 hintegral.2 (member :: done))
      intro width depth rest hwidth hrest
      rw [readTagged, if_neg hkeys.1]
      exact (hintegral.1.readsAs.answers_readMember hwidth depth hrest member.1).bind_ok rfl

/-- Reading the document of a type splits it into kind and members. -/
theorem readsAs_readSplit (type : TypeExpr) :
    ReadsAs readSplit type.toJson (type.kind, .object type.members) := by
  intro width depth rest hwidth _
  have htag : StepsAs readTagged ("kind", .string type.kind.tag) (none, [])
      (some type.kind, []) := by
    intro width depth rest hwidth hrest
    rw [readTagged, if_pos rfl]
    exact ((readsAs_tag type.kind).answers_readMember hwidth depth hrest "kind").bind_ok rfl
  -- the tag comes first, and no other member is taken for it
  have hthreads := Threads.cons htag
    (threads_readTagged type.kind type.members_key_ne_kind type.integral_members [])
  rw [toJson_eq_ofKind, ofKind] at hwidth ⊢
  rw [print, List.cons_append, List.append_assoc]
  refine answers_deeper (fun depth => ?_) depth
  apply Answers.inObject
  refine (hthreads.answers hwidth depth rest).bind_ok ?_
  simp only [List.append_nil, List.reverse_reverse]

/-- A printed type is read back. -/
theorem readsAs_read (type : TypeExpr) : ReadsAs read type.toJson type := by
  intro width depth rest hwidth hrest
  refine (type.readsAs_readSplit width depth rest hwidth hrest).bind_of_fits fun hdepth => ?_
  -- the decoder starts with the bound of the reader, one more than the content needs
  rw [height_toJson] at hdepth
  have hcontent := type.decodeContent_members depth (Nat.le_of_succ_le hdepth)
  simp only [hcontent]

theorem opens_print (type : TypeExpr) : Opens type.toJson.print :=
  (integral_of_members type.integral_members).opens_print

end TypeExpr

end ProtocolCodec
