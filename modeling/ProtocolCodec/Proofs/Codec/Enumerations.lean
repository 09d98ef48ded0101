import ProtocolCodec.Codec.Source
import ProtocolCodec.Proofs.Codec.Integers
import ProtocolCodec.Proofs.Codec.NormalForm

/-!
# Codecs of enumerations

Variants are told apart by name, on the wire they are told apart by literal, and neither decides the
other. A variant comes back from the wire as the first one of its literal, so it is lost just when
an earlier variant has its literal. Everything else that is read is refused: a value of the right
kind that is no literal as invalid, any other value for its kind.
-/

namespace ProtocolCodec

/-! ## Literals on the wire -/

/-- The literal an arm has on the wire. -/
def EnumArm.wire (backing : Backing) (arm : EnumArm) : EnumLiteral :=
  match backing with
  | .text => .text arm.text
  | .integer => .integer arm.integer

/-- The variants and their literals, in order. -/
def EnumPlan.pairs (plan : EnumPlan) : List (String × EnumLiteral) :=
  plan.arms.map fun arm => (arm.variant, arm.wire plan.backing)

/-- The literal a document stands for, when literals are on the wire in this way. -/
def Backing.read : Backing → Json → Decoded EnumLiteral
  | .text, value => (orError .expectedString value.text?).map .text
  | .integer, value => (orError .expectedNumber value.integer?).map .integer

namespace Source

/-- The expression for a literal. -/
def literalValue : EnumLiteral → String
  | .text s => "Value::String(" ++ Text.Quoted.quote s ++ ".to_string())"
  | .integer n => "Value::from(" ++ Text.decimalText n.toInt ++ "i64)"

/-- The pattern for a literal. -/
def literalPattern : EnumLiteral → String
  | .text s => Text.Quoted.quote s
  | .integer n => Text.decimalText n.toInt

/-- The arm of an encoder. -/
def encoderArm (pair : String × EnumLiteral) : Line :=
  ⟨3, "Self::" ++ pair.1 ++ " => " ++ literalValue pair.2 ++ ","⟩

/-- The arm of a decoder. -/
def decoderArm (pair : String × EnumLiteral) : Line :=
  ⟨3, "Some(" ++ literalPattern pair.2 ++ ") => Ok(Self::" ++ pair.1 ++ "),"⟩

/-- The encoder has an arm for each variant with its literal. -/
theorem enumerationEncoder_eq (plan : EnumPlan) :
    enumerationEncoder plan =
      [⟨1, "fn to_json(&self) -> Value \x7b"⟩, ⟨2, "match *self \x7b"⟩] ++
        plan.pairs.map encoderArm ++ [⟨2, "\x7d"⟩, ⟨1, "\x7d"⟩] := by
  rw [enumerationEncoder, EnumPlan.pairs, List.map_map]
  congr 2
  apply List.map_congr_left
  intro arm _
  cases plan.backing with
  | text => rfl
  | integer => rfl

/-- The decoder has an arm for each variant with its literal, and two more for what is refused. -/
theorem enumerationDecoder_eq (plan : EnumPlan) :
    enumerationDecoder plan =
      [⟨1, "fn from_json(value: &Value) -> Result<Self, DecodeError> \x7b"⟩,
       ⟨2, "match " ++ (scrutinee plan.backing).1 ++ " \x7b"⟩] ++
        plan.pairs.map decoderArm ++
        [⟨3, "Some(_) => Err(DecodeError::InvalidEnumValue),"⟩,
         ⟨3, "None => Err(DecodeError::" ++ (scrutinee plan.backing).2 ++ "),"⟩,
         ⟨2, "\x7d"⟩, ⟨1, "\x7d"⟩] := by
  rw [enumerationDecoder, EnumPlan.pairs, List.map_map]
  congr 2
  apply List.map_congr_left
  intro arm _
  cases plan.backing with
  | text => rfl
  | integer => rfl

end Source

theorem Backing.read_encode (backing : Backing) (arm : EnumArm) :
    backing.read (arm.encode backing) = .ok (arm.wire backing) := by
  cases backing with
  | text => rfl
  | integer =>
      rw [EnumArm.encode, Backing.read, Json.integer?_ofInt64]
      rfl

namespace EnumPlan

variable {plan : EnumPlan}

/-- Both kinds of decoders read a literal and take the first arm that has it. -/
theorem decode_eq (value : Json) :
    plan.codec.decode value =
      plan.backing.read value >>= fun literal =>
        plan.choose fun arm => arm.wire plan.backing == literal := by
  cases hbacking : plan.backing with
  | text =>
      simp only [codec, hbacking, Backing.read]
      cases value.text? with
      | none => rfl
      | some s =>
          change plan.choose _ = plan.choose _
          congr 1
          ext arm
          simp [EnumArm.wire]
  | integer =>
      simp only [codec, hbacking, Backing.read]
      cases value.integer? with
      | none => rfl
      | some n =>
          change plan.choose _ = plan.choose _
          congr 1
          ext arm
          simp [EnumArm.wire]

/-! ## Coming back from the wire -/

/-- A variant comes back as what is chosen by its literal. -/
theorem decode_encode_variant (hnodup : (plan.arms.map EnumArm.variant).Nodup) {arm : EnumArm}
    (harm : arm ∈ plan.arms) :
    plan.codec.decode (plan.codec.encode (.variant arm.variant)) =
      plan.choose fun other => other.wire plan.backing == arm.wire plan.backing := by
  rw [encode_variant hnodup harm, decode_eq, Backing.read_encode]
  rfl

/-- A variant comes back as the first one of its literal, which is itself just when no earlier one
has the literal. -/
theorem decode_encode_first (hnodup : (plan.arms.map EnumArm.variant).Nodup) {i : Nat}
    {arm : EnumArm} (harm : plan.arms[i]? = some arm) :
    ∃ first, (plan.arms.find? fun other => other.wire plan.backing == arm.wire plan.backing) =
        some first ∧
      plan.codec.decode (plan.codec.encode (.variant arm.variant)) =
        .ok (.variant first.variant) ∧
      (first.variant = arm.variant ↔
        ∀ earlier ∈ plan.arms.take i, earlier.wire plan.backing ≠ arm.wire plan.backing) := by
  have hsplit : plan.arms = plan.arms.take i ++ arm :: plan.arms.drop (i + 1) := by
    obtain ⟨hi, rfl⟩ := List.getElem?_eq_some_iff.mp harm
    rw [← List.drop_eq_getElem_cons hi, List.take_append_drop]
  have hfind : (plan.arms.find? fun other => other.wire plan.backing == arm.wire plan.backing) =
      ((plan.arms.take i).find? fun other =>
        other.wire plan.backing == arm.wire plan.backing).or (some arm) := by
    conv => lhs; rw [hsplit, List.find?_append, List.find?_cons_of_pos (by simp)]
  rw [decode_encode_variant hnodup (List.mem_of_getElem? harm), choose, hfind]
  cases hearlier : (plan.arms.take i).find? fun other =>
      other.wire plan.backing == arm.wire plan.backing with
  | none =>
      refine ⟨arm, rfl, rfl, ?_⟩
      simpa [List.find?_eq_none] using hearlier
  | some first =>
      have hmem := List.mem_of_find?_eq_some hearlier
      have hwire : first.wire plan.backing = arm.wire plan.backing := by
        simpa using List.find?_some hearlier
      -- the first of the literal stands before, so it is another variant
      have hne : first.variant ≠ arm.variant := by
        rw [hsplit, List.map_append, List.nodup_append] at hnodup
        exact hnodup.2.2 _ (List.mem_map_of_mem hmem) _ List.mem_cons_self
      refine ⟨first, rfl, rfl, ?_⟩
      simp only [hne, false_iff, not_forall, not_not]
      exact ⟨first, hmem, hwire⟩

/-! ## Being refused -/

theorem choose_eq_error_iff (fits : EnumArm → Bool) :
    plan.choose fits = .error .invalidEnumValue ↔ ∀ arm ∈ plan.arms, fits arm = false := by
  unfold choose
  cases hfind : plan.arms.find? fits with
  | none => simpa [orError] using hfind
  | some arm =>
      simp only [Option.map_some, orError, reduceCtorEq, false_iff, not_forall]
      exact ⟨arm, List.mem_of_find?_eq_some hfind, by simp [List.find?_some hfind]⟩

/-- What is read as a literal is invalid just when no arm has the literal. -/
theorem decode_of_read {value : Json} {literal : EnumLiteral}
    (h : plan.backing.read value = .ok literal) :
    plan.codec.decode value = .error .invalidEnumValue ↔
      ∀ arm ∈ plan.arms, arm.wire plan.backing ≠ literal := by
  rw [decode_eq, h]
  change plan.choose _ = _ ↔ _
  simp [choose_eq_error_iff]

theorem decode_of_read_error {value : Json} {error : DecodeError}
    (h : plan.backing.read value = .error error) : plan.codec.decode value = .error error := by
  rw [decode_eq, h]
  rfl

end EnumPlan

theorem Json.text?_eq_none {value : Json} (h : ∀ s, value ≠ .string s) : value.text? = none := by
  cases value with
  | string s => exact absurd rfl (h s)
  | _ => rfl

/-! ## Enumerations of a metamodel -/

/-- The arms are those of the members whose variant name is new. -/
theorem Enumeration.arms_eq (e : Enumeration) :
    e.arms =
      (firstOccurrences (fun m => Naming.variantName m.name) e.values).map EnumArm.ofMember := by
  rw [arms, keepFirst_map, keepFirst_eq_firstOccurrences]
  rfl

/-- Literals are integers on the wire just when the enumeration is of the integer type and every
member has an integer, be it kept or dropped. -/
theorem Context.backing_eq_integer_iff {context : Context} {e : Enumeration} :
    context.backing e = .integer ↔
      context.resolve e.type = .base .integer ∧
        ∀ member ∈ e.values, ∃ n, member.value.toInteger? = some n := by
  have hall : e.allIntegers = true ↔
      ∀ member ∈ e.values, ∃ n, member.value.toInteger? = some n := by
    rw [Enumeration.allIntegers, List.all_eq_true]
    apply forall₂_congr
    intro member _
    exact Option.isSome_iff_exists
  rw [backing, ← hall]
  split
  next hinteger => exact iff_of_true rfl hinteger
  next htext => exact iff_of_false nofun htext

/-- Where literals are integers on the wire, every arm has one. -/
theorem Context.toInteger?_of_backing {context : Context} {e : Enumeration}
    (h : context.backing e = .integer) {arm : EnumArm} (harm : arm ∈ e.arms) :
    arm.literal.toInteger? = some arm.integer := by
  obtain ⟨m, hm, rfl⟩ := List.mem_map.mp (mem_of_mem_keepFirst harm)
  obtain ⟨n, hn⟩ := (Context.backing_eq_integer_iff.mp h).2 m hm
  have hliteral : (EnumArm.ofMember m).literal.toInteger? = some n := hn
  rw [EnumArm.integer, hliteral, Option.getD_some]

/-- The codec of an enumeration, whatever it is called and wherever it stands. Kept are the members
that have none of their variant name before them. The arms of the encoder and of the decoder have
the same variants and literals in the same order. A variant comes back as the first one of its
literal, and so as itself just when no earlier one has it. A string, or a number as an integer, is
refused just when it is no literal that is kept, everything else for its kind. Literals are integers
just when the enumeration is of the integer type and all its members have integers, those that are
dropped included; every one kept then has an integer of its own. -/
theorem planEnumeration_codec (model : Model) (settings : Settings) (name : String)
    (e : Enumeration) :
    let plan := (Context.ofModel model settings).planEnumeration name e
    plan.arms =
        (firstOccurrences (fun m => Naming.variantName m.name) e.values).map EnumArm.ofMember ∧
    (plan.backing = .integer ↔
      (Context.ofModel model settings).resolve e.type = .base .integer ∧
        ∀ member ∈ e.values, ∃ n, member.value.toInteger? = some n) ∧
    (Source.enumerationEncoder plan =
        [⟨1, "fn to_json(&self) -> Value \x7b"⟩, ⟨2, "match *self \x7b"⟩] ++
          plan.pairs.map Source.encoderArm ++ [⟨2, "\x7d"⟩, ⟨1, "\x7d"⟩] ∧
      Source.enumerationDecoder plan =
        [⟨1, "fn from_json(value: &Value) -> Result<Self, DecodeError> \x7b"⟩,
         ⟨2, "match " ++ (Source.scrutinee plan.backing).1 ++ " \x7b"⟩] ++
          plan.pairs.map Source.decoderArm ++
          [⟨3, "Some(_) => Err(DecodeError::InvalidEnumValue),"⟩,
           ⟨3, "None => Err(DecodeError::" ++ (Source.scrutinee plan.backing).2 ++ "),"⟩,
           ⟨2, "\x7d"⟩, ⟨1, "\x7d"⟩]) ∧
    (∀ i arm, plan.arms[i]? = some arm → ∃ first,
      (plan.arms.find? fun other => other.wire plan.backing == arm.wire plan.backing) =
          some first ∧
        plan.codec.decode (plan.codec.encode (.variant arm.variant)) =
          .ok (.variant first.variant) ∧
        (plan.codec.decode (plan.codec.encode (.variant arm.variant)) =
            .ok (.variant arm.variant) ↔
          ∀ earlier ∈ plan.arms.take i, earlier.wire plan.backing ≠ arm.wire plan.backing)) ∧
    (plan.backing = .text →
      (∀ s, plan.codec.decode (.string s) = .error .invalidEnumValue ↔
        ∀ arm ∈ plan.arms, arm.literal.toText ≠ s) ∧
      ∀ value, (∀ s, value ≠ .string s) → plan.codec.decode value = .error .expectedString) ∧
    (plan.backing = .integer →
      (∀ n, ∃ k, (Json.number n).integer? = some k ∧
        (plan.codec.decode (.number n) = .error .invalidEnumValue ↔
          ∀ arm ∈ plan.arms, arm.literal.toInteger? ≠ some k)) ∧
      (∀ value, (∀ n, value ≠ .number n) → plan.codec.decode value = .error .expectedNumber) ∧
      ∀ arm ∈ plan.arms, arm.literal.toInteger? = some arm.integer) := by
  intro plan
  have hnodup : (plan.arms.map EnumArm.variant).Nodup := nodup_keepFirst _
  refine ⟨e.arms_eq, Context.backing_eq_integer_iff,
    ⟨Source.enumerationEncoder_eq plan, Source.enumerationDecoder_eq plan⟩, ?_, ?_, ?_⟩
  · intro i arm harm
    obtain ⟨first, hfind, hdecode, hfirst⟩ := EnumPlan.decode_encode_first hnodup harm
    refine ⟨first, hfind, hdecode, ?_⟩
    rw [hdecode, ← hfirst]
    simp
  · intro hbacking
    constructor
    · intro s
      have hread : plan.backing.read (.string s) = .ok (.text s) := by
        rw [hbacking]
        rfl
      rw [EnumPlan.decode_of_read hread]
      simp [EnumArm.wire, EnumArm.text, hbacking]
    · intro value hvalue
      apply EnumPlan.decode_of_read_error
      rw [hbacking, Backing.read, Json.text?_eq_none hvalue]
      rfl
  · intro hbacking
    have hinteger : ∀ arm ∈ plan.arms, arm.literal.toInteger? = some arm.integer :=
      fun arm harm => Context.toInteger?_of_backing hbacking harm
    refine ⟨?_, ?_, hinteger⟩
    · intro n
      obtain ⟨k, hk, -⟩ := Json.exists_integer?_number n
      have hread : plan.backing.read (.number n) = .ok (.integer k) := by
        rw [hbacking, Backing.read, hk]
        rfl
      refine ⟨k, hk, ?_⟩
      rw [EnumPlan.decode_of_read hread]
      apply forall₂_congr
      intro arm harm
      rw [hinteger arm harm]
      simp [EnumArm.wire, hbacking]
    · intro value hvalue
      apply EnumPlan.decode_of_read_error
      rw [hbacking, Backing.read, Json.integer?_eq_none hvalue]
      rfl

/-- Three variants of two numbers. -/
def numerals : EnumPlan where
  name := "Numeral"
  documentation := none
  backing := .integer
  arms := [⟨"One", .integer 1, none⟩, ⟨"Uno", .text "+1", none⟩, ⟨"Two", .text "02", none⟩]

example :
    numerals.codec.decode (numerals.codec.encode (.variant "Uno")) = .ok (.variant "One") := by
  cbv

end ProtocolCodec
