import Mathlib.Data.List.Basic
import ProtocolCodec.Naming
import ProtocolCodec.Proofs.Text.Case

/-!
# What names come out as

The name of a field is never a reserved word. Naming it once more changes nothing, unless a capital
without lower case stands behind its first character: such a capital gets one more separator every
time.

The name of a variant is an identifier of the target language as soon as the type name has
something to offer. Only a type name that is empty or a single symbol leaves nothing to write, or an
underscore alone.
-/

namespace ProtocolCodec.Naming

open Text

/-! ## Reserved words -/

/-- The words that no identifier of a variant may be. -/
def keywords : List String :=
  "Self" :: reservedWords

/-- No keyword ends in an underscore or begins like a variant that would be a numeral. -/
theorem ends_of_mem_keywords :
    ∀ word ∈ keywords, word.toList.getLast? ≠ some '_' ∧ word.toList.head? ≠ some 'V' := by
  decide +kernel

/-- No keyword ends with an underscore. -/
theorem concat_underscore_notMem_keywords (name : List Char) :
    String.ofList (name ++ ['_']) ∉ keywords := by
  intro hmem
  apply (ends_of_mem_keywords _ hmem).1
  rw [String.toList_ofList, List.getLast?_concat]

theorem isReserved_iff {name : List Char} :
    isReserved name = true ↔ String.ofList name ∈ reservedWords := by
  rw [isReserved, List.contains_iff_mem]

/-- An underscore at the end keeps a name apart from the reserved words. -/
theorem isReserved_concat_underscore (name : List Char) : isReserved (name ++ ['_']) = false := by
  rw [Bool.eq_false_iff, ne_eq, isReserved_iff]
  exact fun hmem => concat_underscore_notMem_keywords name (List.mem_cons_of_mem _ hmem)

/-! ## Separated names -/

theorem length_separate (c : Char) :
    1 + (if isCapital c then 1 else 0) ≤ (separate c).length := by
  unfold separate
  split
  next =>
    have hpositive : 0 < (lower c).length := List.length_pos_iff.mpr (lower_ne_nil c)
    rw [List.length_cons]
    omega
  next => exact le_refl 1

/-- Every capital adds at least one character. -/
theorem length_add_capitals_le (name : List Char) :
    name.length + name.countP isCapital ≤ (name.flatMap separate).length := by
  induction name with
  | nil => exact le_refl 0
  | cons c rest ih =>
      have hfirst := length_separate c
      rw [List.flatMap_cons, List.length_append, List.length_cons, List.countP_cons]
      omega

theorem flatMap_separate_of_small {name : List Char} (h : ∀ c ∈ name, isCapital c = false) :
    name.flatMap separate = name := by
  induction name with
  | nil => rfl
  | cons c rest ih =>
      obtain ⟨hc, hrest⟩ := List.forall_mem_cons.mp h
      rw [List.flatMap_cons, ih hrest, separate, hc]
      rfl

/-- A separated character holds a capital just when lower case does not take it away. -/
theorem exists_capital_separate_iff {c : Char} :
    (∃ d ∈ separate c, isCapital d = true) ↔ IsFixedCapital c := by
  unfold separate IsFixedCapital
  split
  next hcapital =>
    have hunderscore : isCapital '_' = false := by decide
    simp [hcapital, hunderscore]
  next hsmall => simp [hsmall]

/-- How a name begins: what becomes of the first character keeps a capital only at the front, and
only one that lower case leaves as it is. -/
theorem exists_snakeChars_eq (c : Char) (rest : List Char) :
    ∃ first image, snakeChars (c :: rest) = first :: (image ++ rest.flatMap separate) ∧
      (isCapital first = true → lower first = [first]) ∧ ∀ d ∈ image, isCapital d = false := by
  rw [snakeChars]
  split
  next hcapital =>
    rcases lower_cases c with hsame | ⟨hne, hsmall⟩
    · exact ⟨c, [], by rw [hsame]; rfl, fun _ => hsame, by simp⟩
    · obtain ⟨first, image, himage⟩ := List.exists_cons_of_ne_nil hne
      rw [himage, List.forall_mem_cons] at hsmall
      exact ⟨first, image, by rw [himage]; rfl, by simp [hsmall.1], hsmall.2⟩
  next hsmall => exact ⟨c, [], rfl, fun hcapital => absurd hcapital hsmall, by simp⟩

/-- Separating words makes no name shorter. -/
theorem length_le_snakeChars (name : List Char) : name.length ≤ (snakeChars name).length := by
  cases name with
  | nil => exact le_refl 0
  | cons c rest =>
      obtain ⟨first, image, hsnake, -, -⟩ := exists_snakeChars_eq c rest
      have hrest := length_add_capitals_le rest
      rw [hsnake, List.length_cons, List.length_cons, List.length_append]
      omega

/-- The names that stay as they are: no capital behind the first character, and at the front none
that lower case would change. -/
theorem snakeChars_eq_self_iff {c : Char} {rest : List Char} :
    snakeChars (c :: rest) = c :: rest ↔
      (isCapital c = true → lower c = [c]) ∧ ∀ d ∈ rest, isCapital d = false := by
  constructor
  · intro h
    obtain ⟨first, image, hsnake, hfirst, -⟩ := exists_snakeChars_eq c rest
    rw [hsnake, List.cons.injEq] at h
    obtain ⟨rfl, hrest⟩ := h
    refine ⟨hfirst, ?_⟩
    have hlength := congrArg List.length hrest
    have hcapitals := length_add_capitals_le rest
    rw [List.length_append] at hlength
    have hnone : rest.countP isCapital = 0 := by omega
    simpa using List.countP_eq_zero.mp hnone
  · rintro ⟨hfirst, hrest⟩
    rw [snakeChars, flatMap_separate_of_small hrest]
    split
    next hcapital => rw [hfirst hcapital]; rfl
    next => rfl

/-! ## Field names -/

/-- A field name is the separated name, marked by an underscore where it would be reserved. -/
theorem exists_mark (name : List Char) :
    ∃ mark, fieldChars name = snakeChars name ++ mark ∧ (∀ c ∈ mark, c = '_') ∧
      isReserved (snakeChars name ++ mark) = false := by
  cases hreserved : isReserved (snakeChars name) with
  | true =>
      refine ⟨['_'], ?_, by simp, isReserved_concat_underscore _⟩
      rw [fieldChars, hreserved, if_pos rfl]
  | false =>
      refine ⟨[], ?_, by simp, ?_⟩
      · rw [fieldChars, hreserved, List.append_nil]
        rfl
      · rwa [List.append_nil]

/-- Field names are never reserved. -/
theorem isReserved_fieldChars (name : List Char) : isReserved (fieldChars name) = false := by
  obtain ⟨mark, hfield, -, hfree⟩ := exists_mark name
  rw [hfield, hfree]

/-- A name that is not reserved stays as a field name just when it is in snake case. -/
theorem fieldChars_eq_self_iff {name : List Char} (hfree : isReserved name = false) :
    fieldChars name = name ↔ snakeChars name = name := by
  constructor
  · intro h
    obtain ⟨mark, hfield, -, -⟩ := exists_mark name
    rw [hfield] at h
    -- separating never shortens a name, so there is no room for a mark
    have hlength := congrArg List.length h
    have hsnake := length_le_snakeChars name
    rw [List.length_append] at hlength
    have hmark : mark = [] := List.length_eq_zero_iff.mp (by omega)
    rwa [hmark, List.append_nil] at h
  · intro h
    rw [fieldChars, h, hfree]
    rfl

/-- Naming a field name again changes it just when a capital without lower case stands behind the
first character. -/
theorem fieldChars_fieldChars_iff (name : List Char) :
    fieldChars (fieldChars name) = fieldChars name ↔ ∀ c ∈ name.tail, ¬ IsFixedCapital c := by
  rw [fieldChars_eq_self_iff (isReserved_fieldChars name)]
  cases name with
  | nil =>
      have hempty : snakeChars (fieldChars []) = fieldChars [] := by decide
      simp [hempty]
  | cons c rest =>
      obtain ⟨mark, hfield, hmark, -⟩ := exists_mark (c :: rest)
      obtain ⟨first, image, hsnake, hfirst, himage⟩ := exists_snakeChars_eq c rest
      have hmarkSmall : ∀ d ∈ mark, isCapital d = false := by
        intro d hd
        rw [hmark d hd]
        decide
      rw [hfield, hsnake, List.cons_append, snakeChars_eq_self_iff, List.tail_cons]
      constructor
      · rintro ⟨-, hsmall⟩ d hd hfixed
        obtain ⟨e, he, hcapital⟩ := exists_capital_separate_iff.mpr hfixed
        have hmem : e ∈ image ++ rest.flatMap separate ++ mark := by
          simp only [List.mem_append, List.mem_flatMap]
          exact Or.inl (Or.inr ⟨d, hd, he⟩)
        rw [hsmall e hmem] at hcapital
        cases hcapital
      · intro hnone
        refine ⟨hfirst, ?_⟩
        simp only [List.mem_append, List.mem_flatMap]
        rintro e ((he | ⟨d, hd, he⟩) | he)
        · exact himage e he
        · rw [Bool.eq_false_iff]
          exact fun hcapital => hnone d hd (exists_capital_separate_iff.mp ⟨e, he, hcapital⟩)
        · exact hmarkSmall e he

/-- A field name is never a reserved word. Naming it again gives it back just when no character
behind the first is a capital that lower case leaves a capital, so for every name in ASCII. -/
theorem fieldName_settles (name : String) :
    fieldName name ∉ reservedWords ∧
    (fieldName (fieldName name) = fieldName name ↔
      ∀ c ∈ name.toList.tail, ¬ (isCapital c = true ∧ ∃ d ∈ lower c, isCapital d = true)) ∧
    ((∀ c ∈ name.toList, c.toNat < 0x80) → fieldName (fieldName name) = fieldName name) := by
  have hagain : fieldName (fieldName name) = fieldName name ↔
      ∀ c ∈ name.toList.tail, ¬ IsFixedCapital c := by
    rw [← fieldChars_fieldChars_iff, fieldName, fieldName, String.toList_ofList]
    exact ⟨fun h => String.ofList_injective h, fun h => congrArg String.ofList h⟩
  refine ⟨?_, hagain, ?_⟩
  · intro hmem
    have hreserved := isReserved_iff.mpr hmem
    rw [isReserved_fieldChars] at hreserved
    cases hreserved
  · intro hascii
    rw [hagain]
    intro c hc
    exact not_isFixedCapital_of_ascii (hascii c (List.mem_of_mem_tail hc))

/-- A name in ASCII that becomes a reserved word without its capital, and a name with a capital that
has no lower case. -/
theorem fieldName_settles_typed :
    ((∀ c ∈ "Type".toList, c.toNat < 0x80) ∧
      fieldName (fieldName "Type") = fieldName "Type") ∧
    fieldName (fieldName "inℂ") ≠ fieldName "inℂ" := by
  have hascii : ∀ c ∈ "Type".toList, c.toNat < 0x80 := by simp
  have hcapital : isCapital 'ℂ' = true := by decide +kernel
  have hfixed : 'ℂ' ∈ lower 'ℂ' := by decide +kernel
  refine ⟨⟨hascii, (fieldName_settles "Type").2.2 hascii⟩, ?_⟩
  intro hagain
  exact (fieldName_settles "inℂ").2.1.mp hagain 'ℂ' (by decide)
    ⟨hcapital, 'ℂ', hfixed, hcapital⟩

/-! ## Variant names -/

/-- A text with everything foreign to identifiers replaced by an underscore. -/
def cleanChars (name : List Char) : List Char :=
  name.map fun c => if isIdentifierChar c then c else '_'

/-- A clean text kept apart from numerals and keywords. -/
def guardChars (clean : List Char) : List Char :=
  if (clean.head?.map Char.isDigit).getD false then 'V' :: clean
  else if clean == ['S', 'e', 'l', 'f'] || isReserved clean then clean ++ ['_']
  else clean

/-- A variant name is a type name, cleaned and then guarded. -/
theorem variantChars_eq (name : List Char) :
    variantChars name = guardChars (cleanChars (typeChars name)) :=
  rfl

/-- Only letters, digits and underscores are left by cleaning. -/
theorem mem_cleanChars {name : List Char} {c : Char} (h : c ∈ cleanChars name) :
    c.isAlphanum = true ∨ c = '_' := by
  obtain ⟨d, -, rfl⟩ := List.mem_map.mp h
  split
  next hd => simpa [isIdentifierChar] using hd
  next => exact Or.inr rfl

theorem cleanChars_eq_nil_iff {name : List Char} : cleanChars name = [] ↔ name = [] :=
  List.map_eq_nil_iff

theorem cleanChars_eq_underscore_iff {name : List Char} :
    cleanChars name = ['_'] ↔ ∃ c, name = [c] ∧ c.isAlphanum = false := by
  rw [cleanChars, List.map_eq_singleton_iff]
  apply exists_congr
  intro c
  apply and_congr_right
  intro _
  have hunderscore : '_'.isAlphanum = false := by decide
  split
  next hc =>
    -- of the characters of an identifier only the underscore is neither letter nor digit
    constructor
    · rintro rfl
      exact hunderscore
    · intro hsymbol
      simpa [isIdentifierChar, hsymbol] using hc
  next hc =>
    simp only [isIdentifierChar, Bool.or_eq_true, not_or, Bool.not_eq_true] at hc
    simp [hc.1]

theorem isKeyword_iff {clean : List Char} :
    (clean == ['S', 'e', 'l', 'f'] || isReserved clean) = true ↔
      String.ofList clean ∈ keywords := by
  have hself : clean = ['S', 'e', 'l', 'f'] ↔ String.ofList clean = "Self" :=
    ⟨congrArg String.ofList, fun h => String.ofList_injective h⟩
  rw [Bool.or_eq_true, isReserved_iff, beq_iff_eq, hself, keywords, List.mem_cons]

/-- A guarded text has a letter in front, or else begins with no digit; then it has an underscore
behind, or it is the text itself and no keyword. -/
theorem guardChars_cases (clean : List Char) :
    guardChars clean = 'V' :: clean ∨
    (∀ c ∈ clean.head?, c.isDigit = false) ∧
      (guardChars clean = clean ++ ['_'] ∨
        String.ofList clean ∉ keywords ∧ guardChars clean = clean) := by
  unfold guardChars
  split
  next => exact Or.inl rfl
  next hdigit =>
    refine Or.inr ⟨?_, ?_⟩
    · intro c hc
      simpa [Option.mem_def.mp hc] using hdigit
    · split
      next => exact Or.inl rfl
      next hkeyword => exact Or.inr ⟨fun hmem => hkeyword (isKeyword_iff.mpr hmem), rfl⟩

/-- Guarding adds no other characters. -/
theorem word_guardChars {clean : List Char} (hword : ∀ c ∈ clean, c.isAlphanum = true ∨ c = '_') :
    ∀ c ∈ guardChars clean, c.isAlphanum = true ∨ c = '_' := by
  rcases guardChars_cases clean with hguard | ⟨-, hguard | ⟨-, hguard⟩⟩
  · rw [hguard]
    exact List.forall_mem_cons.mpr ⟨Or.inl (by decide), hword⟩
  · rw [hguard]
    exact List.forall_mem_append.mpr ⟨hword, by simp⟩
  · rwa [hguard]

/-- A variant name is a word, whatever the schema calls the variant. -/
theorem word_variantName (name : String) :
    ∀ c ∈ (variantName name).toList, c.isAlphanum = true ∨ c = '_' := by
  rw [variantName, String.toList_ofList, variantChars_eq]
  exact word_guardChars fun c hc => mem_cleanChars hc

/-- What an identifier of a variant has to be: a word of letters, digits and underscores that does
not begin with a digit, more than an underscore, and no keyword. -/
structure IsVariantIdentifier (name : String) : Prop where
  ne_empty : name ≠ ""
  word : ∀ c ∈ name.toList, c.isAlphanum = true ∨ c = '_'
  head_no_digit : ∀ c ∈ name.toList.head?, c.isDigit = false
  ne_underscore : name ≠ "_"
  not_keyword : name ∉ reservedWords ∧ name ≠ "Self"

/-- What makes a word an identifier of a variant. -/
theorem IsVariantIdentifier.of_chars {chars : List Char}
    (hword : ∀ c ∈ chars, c.isAlphanum = true ∨ c = '_') (hne : chars ≠ [])
    (hhead : ∀ c ∈ chars.head?, c.isDigit = false) (hunderscore : chars ≠ ['_'])
    (hkeyword : String.ofList chars ∉ keywords) : IsVariantIdentifier (String.ofList chars) where
  ne_empty h := hne (String.ofList_injective h)
  word := by rwa [String.toList_ofList]
  head_no_digit := by rwa [String.toList_ofList]
  ne_underscore h := hunderscore (String.ofList_injective h)
  not_keyword := by
    rw [keywords, List.mem_cons, not_or] at hkeyword
    exact hkeyword.symm

/-- What is guarded is an identifier unless nothing or an underscore was left. -/
theorem isVariantIdentifier_guardChars_iff {clean : List Char}
    (hword : ∀ c ∈ clean, c.isAlphanum = true ∨ c = '_') :
    IsVariantIdentifier (String.ofList (guardChars clean)) ↔ clean ≠ [] ∧ clean ≠ ['_'] := by
  constructor
  · intro h
    constructor
    · rintro rfl
      exact h.ne_empty rfl
    · rintro rfl
      exact h.ne_underscore rfl
  · rintro ⟨hne, hunderscore⟩
    have hguarded := word_guardChars hword
    rcases guardChars_cases clean with hguard | ⟨hhead, hguard | ⟨hkeyword, hguard⟩⟩
    · rw [hguard] at hguarded ⊢
      apply IsVariantIdentifier.of_chars hguarded
      · exact List.cons_ne_nil _ _
      · simp
      · simp
      · intro hmem
        apply (ends_of_mem_keywords _ hmem).2
        rw [String.toList_ofList, List.head?_cons]
    · rw [hguard] at hguarded ⊢
      apply IsVariantIdentifier.of_chars hguarded
      · simp
      · rwa [List.head?_append_of_ne_nil _ hne]
      · simpa using hne
      · exact concat_underscore_notMem_keywords clean
    · rw [hguard] at hguarded ⊢
      exact .of_chars hguarded hne hhead hunderscore hkeyword

/-- A variant name is an identifier just when the type name is neither empty nor a single symbol. -/
theorem isVariantIdentifier_variantName_iff (name : String) :
    IsVariantIdentifier (variantName name) ↔
      typeName name ≠ "" ∧ ¬ ∃ c, typeName name = String.singleton c ∧ c.isAlphanum = false := by
  have hchars : (typeName name).toList = typeChars name.toList := String.toList_ofList
  have hempty : typeName name ≠ "" ↔ cleanChars (typeChars name.toList) ≠ [] := by
    rw [← hchars, ne_eq, ne_eq, cleanChars_eq_nil_iff, String.toList_eq_nil_iff]
  have hsymbol : (∃ c, typeName name = String.singleton c ∧ c.isAlphanum = false) ↔
      cleanChars (typeChars name.toList) = ['_'] := by
    rw [← hchars, cleanChars_eq_underscore_iff]
    simp only [← String.toList_inj, String.toList_singleton]
  rw [variantName, variantChars_eq,
    isVariantIdentifier_guardChars_iff fun c hc => mem_cleanChars hc, hempty, hsymbol]

end ProtocolCodec.Naming
