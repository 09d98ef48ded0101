import ProtocolCodec.Proofs.Codec.RoundTrip
import ProtocolCodec.Proofs.Text.Case

/-!
# Identifiers of fields

A structure carries each property name once, but the identifiers of its fields come from the names
by `Naming.fieldName`, and nothing drops a field whose identifier is taken. So the identifiers of a
structure are distinct just when the naming tells its property names apart. It does for names in
camel case: the separators that the naming puts in are then the only underscores, and what was
written can be read off the identifier.
-/

namespace ProtocolCodec

namespace Naming

/-- A name in camel case: no underscores, no capital at the front, and no capitals but those of
ASCII. All other characters are free. -/
structure IsCamelCase (name : String) : Prop where
  no_underscore : '_' ∉ name.toList
  head_small : ∀ c ∈ name.toList.head?, Text.isCapital c = false
  ascii_capitals : ∀ c ∈ name.toList, Text.isCapital c = true → c.toNat < 0x80

/-! ## Capitals of ASCII -/

theorem exists_letter_of_isCapital {c : Char} (hcapital : Text.isCapital c = true)
    (hascii : c.toNat < 0x80) : ∃ letter < 26, c = Char.ofNat (0x41 + letter) := by
  rw [Text.isCapital, if_pos hascii, Text.isUpper_iff] at hcapital
  obtain ⟨hlow, hhigh⟩ := hcapital
  refine ⟨c.toNat - 0x41, by omega, ?_⟩
  rw [Nat.add_sub_cancel' hlow, Char.ofNat_toNat]

theorem lower_letter : ∀ letter < 26,
    Text.lower (Char.ofNat (0x41 + letter)) = [Char.ofNat (0x61 + letter)] := by
  decide

theorem small_letter_ne_underscore : ∀ letter < 26, Char.ofNat (0x61 + letter) ≠ '_' := by
  decide

theorem small_letter_inj : ∀ first < 26, ∀ second < 26,
    Char.ofNat (0x61 + first) = Char.ofNat (0x61 + second) → first = second := by
  decide

/-! ## Reading the separators back -/

section

variable {first second : List Char}

/-- The characters of a name in camel case, wherever they stand. -/
def Plain (name : List Char) : Prop :=
  ∀ c ∈ name, c ≠ '_' ∧ (Text.isCapital c = true → c.toNat < 0x80)

/-- A character is kept, or it is a capital behind a separator. -/
theorem separate_cases {c : Char} (h : Text.isCapital c = true → c.toNat < 0x80) :
    separate c = [c] ∨ ∃ letter < 26, c = Char.ofNat (0x41 + letter) ∧
      separate c = ['_', Char.ofNat (0x61 + letter)] := by
  unfold separate
  split
  next hcapital =>
    obtain ⟨letter, hletter, rfl⟩ := exists_letter_of_isCapital hcapital (h hcapital)
    exact Or.inr ⟨letter, hletter, rfl, by rw [lower_letter letter hletter]⟩
  next => exact Or.inl rfl

/-- Separating the words of a plain name loses nothing. -/
theorem flatMap_separate_inj (hfirst : Plain first) (hsecond : Plain second)
    (h : first.flatMap separate = second.flatMap separate) : first = second := by
  induction first generalizing second with
  | nil =>
      cases second with
      | nil => rfl
      | cons d second =>
          rw [List.flatMap_cons] at h
          obtain ⟨⟨_, hascii⟩, _⟩ := List.forall_mem_cons.mp hsecond
          rcases separate_cases hascii with hd | ⟨_, _, _, hd⟩ <;> simp [hd] at h
  | cons c first ih =>
      obtain ⟨⟨hc, hcascii⟩, hrest⟩ := List.forall_mem_cons.mp hfirst
      cases second with
      | nil =>
          rw [List.flatMap_cons] at h
          rcases separate_cases hcascii with hsep | ⟨_, _, _, hsep⟩ <;> simp [hsep] at h
      | cons d second =>
          obtain ⟨⟨hd, hdascii⟩, hothers⟩ := List.forall_mem_cons.mp hsecond
          rw [List.flatMap_cons, List.flatMap_cons] at h
          -- a separator tells a capital from a character that is kept
          rcases separate_cases hcascii with hsep | ⟨m, hm, rfl, hsep⟩ <;>
            rcases separate_cases hdascii with hsep' | ⟨n, hn, rfl, hsep'⟩ <;>
            simp only [hsep, hsep', List.cons_append, List.nil_append, List.cons.injEq] at h
          · rw [h.1, ih hrest hothers h.2]
          · exact absurd h.1 hc
          · exact absurd h.1.symm hd
          · rw [small_letter_inj m hm n hn h.2.1, ih hrest hothers h.2.2]

/-- A name in camel case gets no underscore at its end. -/
theorem flatMap_separate_ne_append (hname : Plain first) (front : List Char) :
    first.flatMap separate ≠ front ++ ['_'] := by
  rcases List.eq_nil_or_concat' first with rfl | ⟨rest, c, rfl⟩
  · simp
  · obtain ⟨hc, hascii⟩ := hname c (by simp)
    intro h
    replace h := congrArg List.getLast? h
    rw [List.flatMap_append, List.flatMap_singleton] at h
    rcases separate_cases hascii with hsep | ⟨letter, hletter, _, hsep⟩
    · simp only [hsep, List.getLast?_concat, Option.some.injEq] at h
      exact hc h
    · simp only [hsep, List.getLast?_append, List.getLast?_cons_cons, List.getLast?_singleton,
        Option.some_or, Option.some.injEq] at h
      exact small_letter_ne_underscore letter hletter h

end

namespace IsCamelCase

variable {name first second : String}

theorem plain (h : IsCamelCase name) : Plain name.toList := by
  intro c hc
  refine ⟨?_, h.ascii_capitals c hc⟩
  rintro rfl
  exact h.no_underscore hc

/-- No separator is dropped from a name that does not begin with a capital. -/
theorem snakeChars_eq (h : IsCamelCase name) :
    snakeChars name.toList = name.toList.flatMap separate := by
  have hhead := h.head_small
  cases hchars : name.toList with
  | nil => rfl
  | cons c rest =>
      rw [hchars, List.head?_cons] at hhead
      have hsmall : Text.isCapital c = false := hhead c rfl
      simp only [snakeChars, List.flatMap_cons, separate, hsmall, Bool.false_eq_true, if_false]

/-- Names in camel case are told apart, those that are reserved words included. -/
theorem fieldName_inj (hfirst : IsCamelCase first) (hsecond : IsCamelCase second)
    (h : fieldName first = fieldName second) : first = second := by
  have hfields : fieldChars first.toList = fieldChars second.toList := by
    have hchars := congrArg String.toList h
    rwa [fieldName, fieldName, String.toList_ofList, String.toList_ofList] at hchars
  simp only [fieldChars, hfirst.snakeChars_eq, hsecond.snakeChars_eq] at hfields
  apply String.toList_injective
  apply flatMap_separate_inj hfirst.plain hsecond.plain
  split at hfields <;> split at hfields
  · exact List.append_cancel_right hfields
  · exact absurd hfields.symm (flatMap_separate_ne_append hsecond.plain _)
  · exact absurd hfields (flatMap_separate_ne_append hfirst.plain _)
  · exact hfields

end IsCamelCase

end Naming

/-! ## The fields of a structure -/

namespace Context

variable (context : Context) (owner : String) (s : Structure)

/-- The identifiers of a structure are distinct just when no two of its names share one. -/
theorem nodup_fields_carriedPlan_iff :
    ((context.carriedPlan owner s).fields.map FieldPlan.field).Nodup ↔
      Set.InjOn Naming.fieldName {name | name ∈ (context.catalog.flatten s).map Property.name} := by
  rw [map_field_carriedPlan, List.nodup_map_iff_inj_on (nodup_flatten _ s)]
  exact ⟨fun h first hfirst second hsecond => h first hfirst second hsecond,
    fun h first hfirst second hsecond => h hfirst hsecond⟩

end Context

/-- The fields of a structure have distinct identifiers just when the naming tells the names of the
properties it carries apart, as it does for names in camel case. -/
theorem nodup_identifiers (model : Model) (settings : Settings) (owner : String) (s : Structure) :
    ((((Context.ofModel model settings).carriedPlan owner s).fields.map FieldPlan.field).Nodup ↔
      Set.InjOn Naming.fieldName
        {name | name ∈ ((Catalog.ofModel model).flatten s).map Property.name}) ∧
    ((∀ property ∈ (Catalog.ofModel model).flatten s, Naming.IsCamelCase property.name) →
      (((Context.ofModel model settings).carriedPlan owner s).fields.map FieldPlan.field).Nodup) := by
  have hiff := (Context.ofModel model settings).nodup_fields_carriedPlan_iff owner s
  refine ⟨hiff, fun hcamel => hiff.mpr ?_⟩
  intro first hfirst second hsecond heq
  obtain ⟨property, hproperty, rfl⟩ := List.mem_map.mp hfirst
  obtain ⟨other, hother, rfl⟩ := List.mem_map.mp hsecond
  exact (hcamel property hproperty).fieldName_inj (hcamel other hother) heq

/-- A structure with names in camel case, one of them a reserved word. -/
def labelled : Structure where
  name := "Labelled"
  properties :=
    [{ name := "startLine", type := .base "uinteger" }, { name := "type", type := .base "string" },
     { name := "typeOf", type := .base "string" }]

theorem isCamelCase_labelled :
    ∀ property ∈ (Catalog.ofModel { version := "1" }).flatten labelled,
      Naming.IsCamelCase property.name := by
  have hchars : ∀ property ∈ keepFirst Property.name labelled.properties,
      '_' ∉ property.name.toList ∧
        (property.name.toList.head?.all fun c => !Text.isCapital c) ∧
        property.name.toList.all fun c => !Text.isCapital c || c.toNat < 0x80 := by
    decide +kernel
  rw [flatten_of_parents_eq_nil _ rfl]
  intro property hproperty
  obtain ⟨hunderscore, hhead, hcapitals⟩ := hchars property hproperty
  refine ⟨hunderscore, fun c hc => ?_, fun c hc hcapital => ?_⟩
  · rw [Option.mem_def.mp hc] at hhead
    simpa using hhead
  · simpa [hcapital] using List.all_eq_true.mp hcapitals c hc

theorem nodup_identifiers_labelled :
    (∀ property ∈ (Catalog.ofModel { version := "1" }).flatten labelled,
      Naming.IsCamelCase property.name) ∧
    (((Context.ofModel { version := "1" } .empty).carriedPlan "Labelled" labelled).fields.map
      FieldPlan.field).Nodup :=
  ⟨isCamelCase_labelled, (nodup_identifiers _ _ _ _).2 isCamelCase_labelled⟩

/-- A structure with one name in two spellings. -/
def respelled : Structure where
  name := "Respelled"
  properties :=
    [{ name := "fooBar", type := .base "string" }, { name := "foo_bar", type := .base "string" }]

/-- Both spellings are carried, and both fields get the same identifier. -/
theorem not_nodup_identifiers_respelled :
    ¬ (((Context.ofModel { version := "1", structures := [respelled] } .empty).carriedPlan
      "Respelled" respelled).fields.map FieldPlan.field).Nodup := by
  have hidentifiers : ((keepFirst Property.name respelled.properties).map Property.name).map
      Naming.fieldName = ["foo_bar", "foo_bar"] := by
    decide +kernel
  rw [Context.map_field_carriedPlan, flatten_of_parents_eq_nil _ rfl, hidentifiers]
  decide

end ProtocolCodec
