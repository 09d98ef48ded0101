import Mathlib.Data.List.Forall2
import ProtocolCodec.Proofs.Json.Values
import ProtocolCodec.Proofs.Model.TagOrder

/-!
# Metamodels and the order of members

A text that is rearranged is read as the same metamodel: members may change places, the tags of
types among them, and members may be added that no field has.
-/

namespace ProtocolCodec

open Json

/-! ## Blind decoders of declarations -/

section Declarations

variable {α : Type} {depth : Nat} {form : Form}

theorem blind_opened {decode : Nat → Decoder α} (h : ∀ depth, Blind (depth + 1) form (decode depth))
    (depth : Nat) : Blind depth form (opened decode depth) := by
  cases depth with
  | zero =>
      intro before after a _ hdecode
      cases hdecode
  | succ depth => exact h depth

/-- A list is blind to order when its items are. -/
theorem blind_openedList {decode : Nat → Decoder α} (h : ∀ depth, Blind depth form (decode depth))
    (depth : Nat) :
    Blind depth (.list form) (opened (fun depth => decodeList (decode depth)) depth) := by
  refine blind_opened (fun depth => ?_) depth
  exact Blind.list (h depth)

theorem blind_decodeNullableText : Blind depth form (decodeNullable decodeText) :=
  blind_of_scalar nofun nofun

theorem EnumLiteral.blind_decode : Blind depth form (EnumLiteral.decode depth) := by
  refine blind_of_scalar ?_ ?_
  all_goals
    intro content a h
    obtain ⟨value, hbounded, h⟩ := exists_of_bind_eq_ok h
    obtain rfl := eq_of_decodeBounded hbounded
    cases h

/-- A slot whose content is decoded alike from rearranged values. -/
structure SlotBlind (slot : Slot α) (entry : String × Form) : Prop where
  key : slot.key = entry.1
  decode : ∀ depth, Blind depth entry.2 (slot.decode depth)

/-- A record of independent slots is blind to the order of its members. -/
theorem blind_slots {label : String} {slots : List (Slot α)} {blank : α}
    {forms : List (String × Form)} (hslots : List.Forall₂ SlotBlind slots forms)
    (hcommute : slots.Pairwise fun first second =>
      ∀ a b c, second.put (first.put a b) c = first.put (second.put a c) b) (depth : Nat) :
    Blind depth (.record forms)
      (opened (fun depth => decodeRecord label (slots.map (Slot.value depth)) blank) depth) := by
  refine blind_opened (fun depth => blind_decodeRecord ?_ ?_) depth
  · rw [List.forall₂_map_left_iff]
    exact hslots.imp fun slot entry hslot =>
      ⟨hslot.key, fun a => (hslot.decode depth).bind _⟩
  · rw [List.pairwise_map]
    exact hcommute.imp fun hput => commutes_valueField hput

theorem Message.blind_decode (depth : Nat) : Blind depth Form.message (Message.decode depth) := by
  refine blind_slots ?_ (by simp [slots]) depth
  refine .cons ⟨rfl, fun _ => blind_decodeText⟩ ?_
  refine .cons ⟨rfl, fun _ => blind_decodeNullableText⟩ ?_
  exact .cons ⟨rfl, fun _ => blind_decodeNullableText⟩ .nil

theorem Property.blind_decode (depth : Nat) :
    Blind depth Form.property (Property.decode depth) := by
  refine blind_slots ?_ (by simp [slots]) depth
  refine .cons ⟨rfl, fun _ => blind_decodeText⟩ ?_
  refine .cons ⟨rfl, TypeExpr.blind_decodeOutermost⟩ ?_
  refine .cons ⟨rfl, fun _ => blind_decodeFlag⟩ ?_
  exact .cons ⟨rfl, fun _ => blind_decodeNullableText⟩ .nil

theorem Structure.blind_decode (depth : Nat) :
    Blind depth Form.structureDeclaration (Structure.decode depth) := by
  refine blind_slots ?_ (by simp [slots]) depth
  refine .cons ⟨rfl, fun _ => blind_decodeText⟩ ?_
  refine .cons ⟨rfl, blind_openedList Property.blind_decode⟩ ?_
  refine .cons ⟨rfl, blind_openedList TypeExpr.blind_decodeOutermost⟩ ?_
  refine .cons ⟨rfl, blind_openedList TypeExpr.blind_decodeOutermost⟩ ?_
  exact .cons ⟨rfl, fun _ => blind_decodeNullableText⟩ .nil

theorem EnumMember.blind_decode (depth : Nat) :
    Blind depth Form.enumMember (EnumMember.decode depth) := by
  refine blind_slots ?_ (by simp [slots]) depth
  refine .cons ⟨rfl, fun _ => blind_decodeText⟩ ?_
  refine .cons ⟨rfl, fun _ => EnumLiteral.blind_decode⟩ ?_
  exact .cons ⟨rfl, fun _ => blind_decodeNullableText⟩ .nil

theorem Enumeration.blind_decode (depth : Nat) :
    Blind depth Form.enumeration (Enumeration.decode depth) := by
  refine blind_slots ?_ (by simp [slots]) depth
  refine .cons ⟨rfl, fun _ => blind_decodeText⟩ ?_
  refine .cons ⟨rfl, TypeExpr.blind_decodeOutermost⟩ ?_
  refine .cons ⟨rfl, blind_openedList EnumMember.blind_decode⟩ ?_
  refine .cons ⟨rfl, fun _ => blind_decodeFlag⟩ ?_
  exact .cons ⟨rfl, fun _ => blind_decodeNullableText⟩ .nil

theorem TypeAlias.blind_decode (depth : Nat) :
    Blind depth Form.typeAlias (TypeAlias.decode depth) := by
  refine blind_slots ?_ (by simp [slots]) depth
  refine .cons ⟨rfl, fun _ => blind_decodeText⟩ ?_
  refine .cons ⟨rfl, TypeExpr.blind_decodeOutermost⟩ ?_
  exact .cons ⟨rfl, fun _ => blind_decodeNullableText⟩ .nil

namespace Model

theorem blind_decodeMetaData (depth : Nat) :
    Blind depth (.record [("version", .plain)]) (decodeMetaData depth) := by
  refine blind_slots ?_ (by simp [metaDataSlots]) depth
  exact .cons ⟨rfl, fun _ => blind_decodeText⟩ .nil

/-- Decoding a metamodel is blind to the order of members and to foreign ones. -/
theorem blind_decode (depth : Nat) : Blind depth Form.model (decode depth) := by
  refine blind_slots ?_ (by simp [slots]) depth
  refine .cons ⟨rfl, blind_decodeMetaData⟩ ?_
  refine .cons ⟨rfl, blind_openedList Message.blind_decode⟩ ?_
  refine .cons ⟨rfl, blind_openedList Message.blind_decode⟩ ?_
  refine .cons ⟨rfl, blind_openedList Structure.blind_decode⟩ ?_
  refine .cons ⟨rfl, blind_openedList Enumeration.blind_decode⟩ ?_
  exact .cons ⟨rfl, blind_openedList TypeAlias.blind_decode⟩ .nil

end Model

end Declarations

/-! ## Rearranged texts -/

/-- The document that a text begins with, nested to whatever depth. -/
def Renders (text : String) (document : Json) : Prop :=
  ∃ limit rest, readValue (text.toList.length + 1) limit text.toList = .ok (document, rest)

theorem Json.integral_array_iff {items : List Json} :
    (Json.array items).Integral ↔ ∀ item ∈ items, item.Integral := by
  refine ⟨fun h => ?_, .array⟩
  cases h with
  | array hitems => exact hitems

theorem Json.integral_object_iff {members : Members} :
    (Json.object members).Integral ↔ ∀ member ∈ members, member.2.Integral := by
  refine ⟨fun h => ?_, .object⟩
  cases h with
  | object hmembers => exact hmembers

/-- The compact text of a document without fractions renders it. -/
theorem Json.Integral.renders {document : Json} (h : document.Integral) :
    Renders document.compact document := by
  have hchars : document.compact.toList = document.print := String.toList_ofList
  have hread := h.readsAs (document.print.length + 1) document.height [] (Nat.lt_succ_self _)
    (Or.inl rfl)
  rw [List.append_nil] at hread
  refine ⟨document.height, [], ?_⟩
  rw [hchars]
  exact hread.ok (Nat.le_refl _)

/-- A text that renders a document spells it. -/
theorem Renders.spells {text : String} {document : Json} (h : Renders text document) :
    ∃ rest, Spells (text.toList.length + 1) text.toList document rest := by
  obtain ⟨limit, rest, hread⟩ := h
  exact ⟨rest, Nat.lt_succ_self _, limit, hread⟩

/-- A metamodel is read from a text when it is decoded from the document the text renders. -/
theorem Model.ofText_eq_ok_iff {text : String} {document : Json} (h : Renders text document)
    (model : Model) :
    Model.ofText text = .ok model ↔ Model.decode nestingLimit document = .ok model := by
  obtain ⟨rest, hspells⟩ := h.spells
  have hread := Model.follows_read _ nestingLimit _ _ _ hspells
  rw [← toOption_eq_some_iff, ← toOption_eq_some_iff, Model.ofText, readWith, toOption_bind, hread]
  cases Model.decode nestingLimit document <;> simp [Except.toOption]

/-- A text whose document is rearranged is read as the same metamodel. Members may change places in
any object, the tags of types among them; and any record or type may get members that no field has,
as long as their values stay within the nesting limit. Neither layout nor the spelling of strings
need be the same. -/
theorem Model.ofText_rearranged {source changed : String} {before after : Json} {model : Model}
    (hsource : Renders source before) (hchanged : Renders changed after)
    (hchange : Rearranges nestingLimit Form.model before after)
    (hmodel : Model.ofText source = .ok model) : Model.ofText changed = .ok model := by
  rw [Model.ofText_eq_ok_iff hsource] at hmodel
  rw [Model.ofText_eq_ok_iff hchanged]
  exact Model.blind_decode nestingLimit before after model hchange hmodel

/-- The document of a metamodel with one alias, for arrays of strings. -/
def aliasDocument : Json :=
  .object
    [("metaData", .object [("version", .string "3")]),
     ("typeAliases", .array [.object
       [("name", .string "Names"),
        ("type", .object
          [("kind", .string "array"),
           ("element", .object [("kind", .string "base"), ("name", .string "string")])])]])]

/-- The metamodel it holds. -/
def aliasModel : Model where
  version := "3"
  aliases := [{ name := "Names", type := .array (.base "string") }]

/-- The same document with the first member of each object moved to its end, behind members
that are added to the metamodel and to the inner type. -/
def aliasRearranged : Json :=
  .object
    [("typeAliases", .array [.object
       [("type", .object
          [("element", .object
             [("name", .string "string"), ("since", .array [.null]), ("kind", .string "base")]),
           ("kind", .string "array")]),
        ("name", .string "Names")]]),
     ("schema", .object []),
     ("metaData", .object [("version", .string "3")])]

theorem rearranges_aliasDocument :
    Rearranges nestingLimit Form.model aliasDocument aliasRearranged := by
  refine .object [⟨"metaData", _, _⟩, ⟨"typeAliases", _, _⟩] [("schema", .object [])] ?_ ?_
    (List.perm_append_singleton _ _).symm
  · refine List.forall_mem_cons.mpr ⟨.same _ _ _, List.forall_mem_cons.mpr ⟨?_, nofun⟩⟩
    refine .array [(_, _)] fun index before after hindex => ?_
    cases index with
    | succ index => cases hindex
    | zero =>
      cases hindex
      refine .object [⟨"name", _, _⟩, ⟨"type", _, _⟩] [] ?_ nofun
        (List.perm_append_singleton _ _).symm
      refine List.forall_mem_cons.mpr ⟨.same _ _ _, List.forall_mem_cons.mpr ⟨?_, nofun⟩⟩
      refine .object [⟨"kind", _, _⟩, ⟨"element", _, _⟩] [] ?_ nofun
        (List.perm_append_singleton _ _).symm
      refine List.forall_mem_cons.mpr ⟨.same _ _ _, List.forall_mem_cons.mpr ⟨?_, nofun⟩⟩
      refine .object [⟨"kind", _, _⟩, ⟨"name", _, _⟩] [("since", .array [.null])] ?_ ?_
        (List.perm_append_singleton _ _).symm
      · exact List.forall_mem_cons.mpr ⟨.same _ _ _, List.forall_mem_cons.mpr ⟨.same _ _ _, nofun⟩⟩
      · exact List.forall_mem_cons.mpr
          ⟨⟨by decide, _, TypeExpr.fields?_type rfl, by decide⟩, nofun⟩
  · exact List.forall_mem_cons.mpr ⟨⟨by decide, _, rfl, by decide⟩, nofun⟩

/-- An alias is read as before when the tags of its types come last and others have added to it. -/
theorem Model.ofText_rearranged_alias :
    Renders aliasDocument.compact aliasDocument ∧
      Renders aliasRearranged.compact aliasRearranged ∧
      Rearranges nestingLimit Form.model aliasDocument aliasRearranged ∧
      Model.ofText aliasDocument.compact = .ok aliasModel ∧
      Model.ofText aliasRearranged.compact = .ok aliasModel := by
  have hsource : Renders aliasDocument.compact aliasDocument :=
    Integral.renders (by
      simp [aliasDocument, integral_object_iff, integral_array_iff, Integral.string])
  have hchanged : Renders aliasRearranged.compact aliasRearranged :=
    Integral.renders (by
      simp [aliasRearranged, integral_object_iff, integral_array_iff, Integral.string,
        Integral.null])
  have hmodel : Model.ofText aliasDocument.compact = .ok aliasModel :=
    (Model.ofText_eq_ok_iff hsource _).mpr rfl
  exact ⟨hsource, hchanged, rearranges_aliasDocument, hmodel,
    Model.ofText_rearranged hsource hchanged rearranges_aliasDocument hmodel⟩

end ProtocolCodec
