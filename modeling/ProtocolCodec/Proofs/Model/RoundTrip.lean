import ProtocolCodec.Proofs.Model.Types

/-!
# Reading back a metamodel

The text of a metamodel is read back to the metamodel, whatever its strings, integers and types,
unless it nests deeper than the limit. Then it is rejected for its nesting.
-/

namespace ProtocolCodec

open Json

/-! ## Declarations -/

theorem EnumLiteral.readsAs_read (literal : EnumLiteral) :
    ReadsAs EnumLiteral.read literal.toJson literal := by
  have hintegral : literal.toJson.Integral := by
    cases literal with
    | integer n => exact .whole (.ofInt64 n)
    | text s => exact .string s
  have hvalue : EnumLiteral.ofJson? literal.toJson = some literal := by
    cases literal with
    | integer n => simp only [toJson, Json.ofInt64, ofJson?, toInt64?_ofInt64, Option.map_some]
    | text s => rfl
  intro width depth rest hwidth hrest
  refine (hintegral.readsAs width depth rest hwidth hrest).bind_ok ?_
  simp only [hvalue]

theorem TypeExpr.readsAs_list (types : List TypeExpr) :
    ReadsAs (readList TypeExpr.read) (.array (types.map TypeExpr.toJson)) types :=
  ReadsAs.list (fun type _ => type.readsAs_read) fun type _ => type.opens_print

/-- A message is read back from its document. -/
theorem Message.readsAs_record (name : String) (message : Message) :
    ReadsAs (readRecord name Message.fields default) message.toJson message := by
  refine StoredBy.readsAs ?_ (by decide) name
  refine .cons (readsAs_text message.method).stored ?_
  refine .cons (readsAs_nullable message.direction).stored ?_
  refine .cons (readsAs_nullable message.documentation).stored ?_
  exact .nil message

theorem Property.readsAs_read (property : Property) :
    ReadsAs Property.read property.toJson property := by
  refine StoredBy.readsAs ?_ (by decide) "Property"
  refine .cons (readsAs_text property.name).stored ?_
  refine .cons property.type.readsAs_read.stored ?_
  refine .cons (readsAs_flag property.optional).stored ?_
  refine .cons (readsAs_nullable property.documentation).stored ?_
  exact .nil property

/-- A structure is read back from its document. -/
theorem Structure.readsAs_read (s : Structure) : ReadsAs Structure.read s.toJson s := by
  have hproperties : ReadsAs (readList Property.read) (.array (s.properties.map Property.toJson))
      s.properties :=
    ReadsAs.list (fun property _ => property.readsAs_read) fun _ _ => opens_object _
  refine StoredBy.readsAs ?_ (by decide) "Structure"
  refine .cons (readsAs_text s.name).stored ?_
  refine .cons hproperties.stored ?_
  refine .cons (TypeExpr.readsAs_list s.extended).stored ?_
  refine .cons (TypeExpr.readsAs_list s.mixins).stored ?_
  refine .cons (readsAs_nullable s.documentation).stored ?_
  exact .nil s

theorem EnumMember.readsAs_read (m : EnumMember) : ReadsAs EnumMember.read m.toJson m := by
  refine StoredBy.readsAs ?_ (by decide) "EnumValue"
  refine .cons (readsAs_text m.name).stored ?_
  refine .cons m.value.readsAs_read.stored ?_
  refine .cons (readsAs_nullable m.documentation).stored ?_
  exact .nil m

theorem Enumeration.readsAs_read (e : Enumeration) : ReadsAs Enumeration.read e.toJson e := by
  have hvalues : ReadsAs (readList EnumMember.read) (.array (e.values.map EnumMember.toJson))
      e.values :=
    ReadsAs.list (fun value _ => value.readsAs_read) fun _ _ => opens_object _
  refine StoredBy.readsAs ?_ (by decide) "Enumeration"
  refine .cons (readsAs_text e.name).stored ?_
  refine .cons e.type.readsAs_read.stored ?_
  refine .cons hvalues.stored ?_
  refine .cons (readsAs_flag e.supportsCustomValues).stored ?_
  refine .cons (readsAs_nullable e.documentation).stored ?_
  exact .nil e

theorem TypeAlias.readsAs_read (a : TypeAlias) : ReadsAs TypeAlias.read a.toJson a := by
  refine StoredBy.readsAs ?_ (by decide) "TypeAlias"
  refine .cons (readsAs_text a.name).stored ?_
  refine .cons a.type.readsAs_read.stored ?_
  refine .cons (readsAs_nullable a.documentation).stored ?_
  exact .nil a

/-! ## Metamodels -/

namespace Model

theorem readsAs_metaData (version : String) :
    ReadsAs (readRecord "MetaData" metaDataFields "") (.object [("version", .string version)])
      version := by
  refine StoredBy.readsAs ?_ (by decide) "MetaData"
  exact .cons (readsAs_text version).stored (.nil version)

theorem readsAs_messages (name : String) (messages : List Message) :
    ReadsAs (readList (readRecord name Message.fields default))
      (.array (messages.map Message.toJson)) messages :=
  ReadsAs.list (fun message _ => message.readsAs_record name) fun _ _ => opens_object _

/-- A metamodel is read back from its document. -/
theorem readsAs_read (model : Model) : ReadsAs read model.toJson model := by
  have hstructures : ReadsAs (readList Structure.read)
      (.array (model.structures.map Structure.toJson)) model.structures :=
    ReadsAs.list (fun s _ => s.readsAs_read) fun _ _ => opens_object _
  have henumerations : ReadsAs (readList Enumeration.read)
      (.array (model.enumerations.map Enumeration.toJson)) model.enumerations :=
    ReadsAs.list (fun e _ => e.readsAs_read) fun _ _ => opens_object _
  have haliases : ReadsAs (readList TypeAlias.read)
      (.array (model.aliases.map TypeAlias.toJson)) model.aliases :=
    ReadsAs.list (fun a _ => a.readsAs_read) fun _ _ => opens_object _
  refine StoredBy.readsAs ?_ (by decide) "MetaModel"
  refine .cons (readsAs_metaData model.version).stored ?_
  refine .cons (readsAs_messages "Request" model.requests).stored ?_
  refine .cons (readsAs_messages "Notification" model.notifications).stored ?_
  refine .cons hstructures.stored ?_
  refine .cons henumerations.stored ?_
  refine .cons haliases.stored ?_
  exact .nil model

/-- Reading undoes writing up to the nesting limit; beyond it, the limit is what is reported. -/
theorem ofText_toText (model : Model) :
    (model.toJson.height ≤ nestingLimit → ofText model.toText = .ok model) ∧
      (nestingLimit < model.toJson.height →
        ∃ failure, ofText model.toText = .error failure ∧
          failure.cause.message = "recursion limit exceeded") := by
  have hchars : model.toText.toList = model.toJson.print := String.toList_ofList
  have hread := model.readsAs_read (model.toJson.print.length + 1) nestingLimit []
    (Nat.lt_succ_self _) (Or.inl rfl)
  rw [List.append_nil] at hread
  have htext : Answers (model.toJson.height ≤ nestingLimit) (ofText model.toText) model := by
    rw [ofText, readWith, hchars]
    exact hread.bind_ok rfl
  refine ⟨htext.ok, fun hdeep => ?_⟩
  obtain ⟨failure, hfailure, hcause⟩ := htext.limit (Nat.not_le_of_lt hdeep)
  exact ⟨failure, hfailure, by rw [hcause]; rfl⟩

/-- A metamodel with an alias for arrays nested in one another. -/
def nestedArrays (count : Nat) : Model where
  version := "1"
  aliases := [{ name := "Nested", type := Nat.repeat .array count (.base "string") }]

theorem height_nestedArrays (count : Nat) : (nestedArrays count).toJson.height = count + 4 := by
  have htype : (Nat.repeat TypeExpr.array count (.base "string")).toJson.height = count + 1 := by
    induction count with
    | zero => rfl
    | succ count ih =>
        rw [Nat.repeat, TypeExpr.height_toJson, TypeExpr.members]
        simp only [heightMembers, ih, Nat.max_zero]
  simp only [nestedArrays, toJson, TypeAlias.toJson, ofString?, height, heightMembers, heightItems,
    List.map_cons, List.map_nil, htype]
  omega

/-- The limit is sharp: one array more, and the text is rejected. -/
theorem ofText_toText_nestedArrays :
    (nestedArrays 123).toJson.height ≤ nestingLimit ∧
      ofText (nestedArrays 123).toText = .ok (nestedArrays 123) ∧
      nestingLimit < (nestedArrays 124).toJson.height ∧
      ∃ failure, ofText (nestedArrays 124).toText = .error failure ∧
        failure.cause.message = "recursion limit exceeded" := by
  have hfits : (nestedArrays 123).toJson.height ≤ nestingLimit := by
    rw [height_nestedArrays]
    exact Nat.le_refl 127
  have hdeep : nestingLimit < (nestedArrays 124).toJson.height := by
    rw [height_nestedArrays]
    exact Nat.lt_succ_self 127
  exact ⟨hfits, (ofText_toText _).1 hfits, hdeep, (ofText_toText _).2 hdeep⟩

end Model

end ProtocolCodec
