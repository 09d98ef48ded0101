import ProtocolCodec.Codec.Source
import ProtocolCodec.Proofs.Codec.RoundTrip
import ProtocolCodec.Proofs.Text.Quoted

/-!
# String literals in generated code

Keys and the literals of enumerations over strings are the schema's own texts, whatever characters
they hold. The encoder and the decoder write each of them as the same quoted text, and reading that
gives the text of the schema back.
-/

namespace ProtocolCodec

namespace Source

open Text.Quoted

/-! ## Structures -/

/-- The expression that looks up the key of a field. -/
def lookup (plan : FieldPlan) : String :=
  (if plan.passthrough then "object.get("
    else if plan.optional then "optional_field(object, "
    else "required_field(object, ") ++ quote plan.key ++ ")"

/-- The expression that decodes a value has its input in it as it is. -/
theorem exists_decodeExpr_eq (shape : Shape) :
    ∃ before after, ∀ input, decodeExpr shape input = before ++ input ++ after := by
  cases shape with
  | base kind =>
      cases kind with
      | string =>
          exact ⟨"", ".as_str().ok_or(DecodeError::ExpectedString)?.to_string()",
            fun input => by rw [String.empty_append]; rfl⟩
      | integer => exact ⟨"integer_value(", ").ok_or(DecodeError::ExpectedNumber)?", fun _ => rfl⟩
      | decimal =>
          exact ⟨"", ".as_f64().ok_or(DecodeError::ExpectedNumber)?",
            fun input => by rw [String.empty_append]; rfl⟩
      | boolean =>
          exact ⟨"", ".as_bool().ok_or(DecodeError::ExpectedBoolean)?",
            fun input => by rw [String.empty_append]; rfl⟩
      | null =>
          exact ⟨"", ".as_null().unwrap_or_default()",
            fun input => by rw [String.empty_append]; rfl⟩
  | entity name => exact ⟨name ++ "::from_json(", ")?", fun _ => rfl⟩
  | sequence item =>
      exact ⟨"decode_array(", ", " ++ elementDecoder item ++ ")?",
        fun input => by rw [← String.append_assoc, ← String.append_assoc]; rfl⟩
  | json => exact ⟨"", ".clone()", fun input => by rw [String.empty_append]; rfl⟩

theorem exists_fieldExpr_eq (plan : FieldPlan) :
    ∃ before after, ∀ input, fieldExpr plan input = before ++ input ++ after := by
  obtain ⟨before, after, hexpr⟩ := exists_decodeExpr_eq plan.shape
  unfold fieldExpr
  cases plan.boxed with
  | true =>
      exact ⟨"Box::new(" ++ before, after ++ ")",
        fun input => by simp [hexpr, String.append_assoc]⟩
  | false => exact ⟨before, after, hexpr⟩

/-- The decoder of a field looks up the key of the field. -/
theorem exists_lookup_mem_fieldDecoder (plan : FieldPlan) :
    ∃ line ∈ fieldDecoder plan, ∃ before after, line.text = before ++ lookup plan ++ after := by
  unfold fieldDecoder lookup
  cases plan.passthrough with
  | true =>
      refine ⟨_, List.mem_cons_self, plan.field ++ ": ", ".cloned(),", ?_⟩
      have hget : ": object.get(" = ": " ++ "object.get(" := rfl
      have hcloned : ").cloned()," = ")" ++ ".cloned()," := rfl
      simp only [if_true, hget, hcloned, String.append_assoc]
  | false =>
      cases plan.optional with
      | true =>
          refine ⟨_, List.mem_cons_self, plan.field ++ ": match ", " \x7b", ?_⟩
          have hmatch : ": match optional_field(object, " =
              ": match " ++ "optional_field(object, " := rfl
          have hbrace : ") \x7b" = ")" ++ " \x7b" := rfl
          simp only [Bool.false_eq_true, if_false, if_true, hmatch, hbrace, String.append_assoc]
      | false =>
          obtain ⟨before, after, hexpr⟩ := exists_fieldExpr_eq plan
          refine ⟨_, List.mem_cons_self, plan.field ++ ": " ++ before, "?" ++ after ++ ",", ?_⟩
          have hquestion : ")?" = ")" ++ "?" := rfl
          simp only [Bool.false_eq_true, if_false, hexpr, hquestion, String.append_assoc]

/-- The encoder of a field inserts a value under the key of the field. -/
theorem exists_insert_mem_fieldEncoder (plan : FieldPlan) :
    ∃ line ∈ fieldEncoder plan, ∃ value, line.text = insertStatement plan value := by
  unfold fieldEncoder
  split_ifs
  · exact ⟨_, List.mem_cons_of_mem _ List.mem_cons_self, _, rfl⟩
  · exact ⟨_, List.mem_cons_of_mem _ List.mem_cons_self, _, rfl⟩
  · exact ⟨_, List.mem_cons_self, _, rfl⟩

section

variable {fields : List FieldPlan} {field : FieldPlan} {line : Line}

theorem mem_recordEncoder (hfield : field ∈ fields) (hline : line ∈ fieldEncoder field) :
    line ∈ recordEncoder fields := by
  have hempty : fields.isEmpty = false := by simp [List.ne_nil_of_mem hfield]
  have hmem : line ∈ fields.flatMap fieldEncoder := List.mem_flatMap.mpr ⟨field, hfield, hline⟩
  simp [recordEncoder, hempty, hmem]

theorem mem_recordDecoder (hfield : field ∈ fields) (hline : line ∈ fieldDecoder field) :
    line ∈ recordDecoder fields := by
  have hempty : fields.isEmpty = false := by simp [List.ne_nil_of_mem hfield]
  have hmem : line ∈ fields.flatMap fieldDecoder := List.mem_flatMap.mpr ⟨field, hfield, hline⟩
  simp [recordDecoder, hempty, hmem]

end

end Source

open Text.Quoted in
/-- Every key and every literal of an enumeration over strings survives into the generated code, a
literal that is a string as that very string. The encoder and the decoder write it as one and the
same quoted text: a quote, pieces that each stand for one character, and a quote, without any
control. Reading behind the first quote gives the text of the schema back and stops behind the last,
whatever follows there. So distinct texts are quoted apart. -/
theorem schemaTexts_survive (model : Model) (settings : Settings) :
    (∀ owner s, ∀ property ∈ (Catalog.ofModel model).flatten s,
      let context := Context.ofModel model settings
      let fields := (context.carriedPlan owner s).fields
      (∃ line ∈ Source.recordEncoder fields, ∃ value, line.text =
        "object.insert(" ++ quote property.name ++ ".to_string(), " ++ value ++ ");") ∧
      ∃ line ∈ Source.recordDecoder fields, ∃ before look after,
        look ∈ ["object.get(", "optional_field(object, ", "required_field(object, "] ∧
        line.text = before ++ (look ++ quote property.name ++ ")") ++ after) ∧
    (∀ name e, (Context.ofModel model settings).backing e = .text →
      let plan := (Context.ofModel model settings).planEnumeration name e
      ∀ arm ∈ plan.arms, ∃ member ∈ e.values, arm = .ofMember member ∧
        (∀ k, member.value = .text k → member.value.toText = k) ∧
        ⟨3, "Self::" ++ arm.variant ++ " => " ++
            ("Value::String(" ++ quote member.value.toText ++ ".to_string())") ++ ","⟩ ∈
          Source.enumerationEncoder plan ∧
        ⟨3, "Some(" ++ quote member.value.toText ++ ") => Ok(Self::" ++ arm.variant ++ "),"⟩ ∈
          Source.enumerationDecoder plan) ∧
    (∀ text, IsQuoted (quote text) text ∧ (∀ c ∈ (quote text).toList, ¬ IsControl c) ∧
      decode (quote text).toList = some text.toList ∧
      ∀ rest, readBody ((quote text).toList.tail ++ rest) = some (text.toList, rest)) ∧
    Function.Injective quote := by
  refine ⟨?_, ?_, ?_, quote_injective⟩
  · intro owner s property hproperty context fields
    have hfield : context.planField owner property ∈ fields := List.mem_map_of_mem hproperty
    constructor
    · obtain ⟨line, hline, value, htext⟩ :=
        Source.exists_insert_mem_fieldEncoder (context.planField owner property)
      exact ⟨line, Source.mem_recordEncoder hfield hline, value, htext⟩
    · obtain ⟨line, hline, before, after, htext⟩ :=
        Source.exists_lookup_mem_fieldDecoder (context.planField owner property)
      refine ⟨line, Source.mem_recordDecoder hfield hline, before, _, after, ?_, htext⟩
      split_ifs <;> simp
  · intro name e hbacking plan arm harm
    have hplan : plan.backing = .text := hbacking
    obtain ⟨member, hmember, rfl⟩ := List.mem_map.mp (mem_of_mem_keepFirst harm)
    refine ⟨member, hmember, rfl, fun k hk => by rw [hk, EnumLiteral.toText], ?_, ?_⟩
    · simp only [Source.enumerationEncoder, hplan, List.mem_append, List.mem_map]
      exact Or.inl (Or.inr ⟨_, harm, rfl⟩)
    · simp only [Source.enumerationDecoder, hplan, List.mem_append, List.mem_map]
      exact Or.inl (Or.inr ⟨_, harm, rfl⟩)
  · intro text
    have hquoted := isQuoted_quote text
    exact ⟨hquoted, hquoted.not_isControl, hquoted.decode_eq, hquoted.readBody_tail⟩

end ProtocolCodec
