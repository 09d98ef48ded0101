import ProtocolCodec.Json.Reader

/-!
# Reading what was printed: strings and integers

The reader of strings undoes the escapes, for every text. The reader of numbers gives back every
integer that a document holds exactly, provided that what follows cannot go on with the number.
-/

namespace ProtocolCodec.Json

/-! ## Strings -/

theorem hexDigit?_digitChar : ∀ digit < 16, hexDigit? (Text.digitChar digit) = some digit := by
  decide

theorem readString_quote (rest : List Char) : readString ('"' :: rest) = .ok ([], rest) := by
  rw [readString]
  rfl

/-- A backslash and what follows it are read as one character. -/
theorem readString_backslash {text rest : List Char} {c : Char}
    (h : readEscape text = .ok (c, rest)) :
    readString ('\\' :: text) = (readString rest).map fun (body, tail) => (c :: body, tail) := by
  rw [readString, if_neg (by decide), if_pos rfl]
  split
  next f hf => simp [hf] at h
  next e rest' he =>
    obtain ⟨rfl, rfl⟩ : e = c ∧ rest' = rest := by simpa [he] using h
    rfl

theorem readString_plain {c : Char} (hquote : c ≠ '"') (hbackslash : c ≠ '\\')
    (hcontrol : ¬ c.toNat < 0x20) (rest : List Char) :
    readString (c :: rest) = (readString rest).map fun (body, tail) => (c :: body, tail) := by
  rw [readString, if_neg hquote, if_neg hbackslash, if_neg hcontrol]

/-- The escape of a control by its number stands for the control. -/
theorem readEscape_control {c : Char} (h : c.toNat < 0x20) (rest : List Char) :
    readEscape ('u' :: '0' :: '0' :: Text.digitChar (c.toNat / 16) ::
      Text.digitChar (c.toNat % 16) :: rest) = .ok (c, rest) := by
  have hhigh := hexDigit?_digitChar (c.toNat / 16) (by omega)
  have hlow := hexDigit?_digitChar (c.toNat % 16) (by omega)
  have hzero : hexDigit? '0' = some 0 := by decide
  have hvalue : (0 * 16 + 0) * 16 + c.toNat / 16 = c.toNat / 16 := by omega
  have hquad : hexQuad? '0' '0' (Text.digitChar (c.toNat / 16)) (Text.digitChar (c.toNat % 16)) =
      some c.toNat := by
    simp only [hexQuad?, hzero, hhigh, hlow, Option.bind_eq_bind, Option.bind_some, hvalue]
    rw [Nat.div_add_mod' c.toNat 16]
    rfl
  have hunit : isTrailing c.toNat = false ∧ isLeading c.toNat = false := by
    simp only [isTrailing, isLeading, Bool.and_eq_false_iff, decide_eq_false_iff_not]
    omega
  have hshort : shortEscape? 'u' = none := by decide
  simp only [readEscape, hshort, if_true, readQuad, hquad, bind, Except.bind, hunit.1, hunit.2,
    Bool.false_eq_true, if_false, Char.ofNat_toNat]

/-- A character is written by a letter, by its number, or as it is. -/
theorem escape_cases (c : Char) :
    (∃ letter, escape c = ['\\', letter] ∧ shortEscape? letter = some c) ∨
      (c.toNat < 0x20 ∧ escape c = ['\\', 'u', '0', '0', Text.digitChar (c.toNat / 16),
        Text.digitChar (c.toNat % 16)]) ∨
      (c ≠ '"' ∧ c ≠ '\\' ∧ ¬ c.toNat < 0x20 ∧ escape c = [c]) := by
  by_cases hshort : c ∈ ['"', '\\', '\x08', '\x0c', '\n', '\r', '\t']
  · simp only [List.mem_cons, List.not_mem_nil, or_false] at hshort
    rcases hshort with rfl | rfl | rfl | rfl | rfl | rfl | rfl <;>
      exact Or.inl ⟨_, rfl, by decide⟩
  · simp only [List.mem_cons, List.not_mem_nil, or_false, not_or] at hshort
    obtain ⟨hquote, hbackslash, hb, hf, hn, hr, ht⟩ := hshort
    by_cases hcontrol : c.toNat < 0x20
    · exact Or.inr (Or.inl ⟨hcontrol, by
        simp only [escape, hquote, hbackslash, hb, hf, hn, hr, ht, hcontrol, if_true, if_false]⟩)
    · exact Or.inr (Or.inr ⟨hquote, hbackslash, hcontrol, by
        simp only [escape, hquote, hbackslash, hb, hf, hn, hr, ht, hcontrol, if_false]⟩)

/-- However a character is written, it is what is read. -/
theorem readString_escape (c : Char) (rest : List Char) :
    readString (escape c ++ rest) =
      (readString rest).map fun (body, tail) => (c :: body, tail) := by
  rcases escape_cases c with
    ⟨letter, hescape, hshort⟩ | ⟨hcontrol, hescape⟩ | ⟨hquote, hbackslash, hcontrol, hescape⟩
  · have hread : readEscape (letter :: rest) = .ok (c, rest) := by
      simp only [readEscape, hshort]
    rw [hescape]
    exact readString_backslash hread
  · rw [hescape]
    exact readString_backslash (readEscape_control hcontrol rest)
  · rw [hescape]
    exact readString_plain hquote hbackslash hcontrol rest

/-- Reading undoes escaping, up to the closing quote. -/
theorem readString_flatMap_escape (text rest : List Char) :
    readString (text.flatMap escape ++ '"' :: rest) = .ok (text, rest) := by
  induction text with
  | nil => exact readString_quote rest
  | cons c text ih =>
      rw [List.flatMap_cons, List.append_assoc, readString_escape, ih]
      rfl

theorem printString_append (text rest : List Char) :
    printString text ++ rest = '"' :: (text.flatMap escape ++ '"' :: rest) := by
  rw [printString, List.cons_append, List.append_assoc, List.singleton_append]

/-- A printed string is read back, whatever follows. -/
theorem readScalar_string (s : String) (rest : List Char) :
    readScalar (printString s.toList ++ rest) = .ok (.string s, rest) := by
  rw [printString_append, readScalar, readString_flatMap_escape]
  simp only [bind, Except.bind, String.ofList_toList]

/-! ## Decimal numerals -/

theorem isDigit_digitChar : ∀ digit < 10, (Text.digitChar digit).isDigit = true := by
  decide

theorem digitValue_digitChar : ∀ digit < 10, Text.digitValue (Text.digitChar digit) = digit := by
  decide

theorem digitChar_eq_zero : ∀ digit < 10, Text.digitChar digit = '0' → digit = 0 := by
  decide

theorem isDigit_of_mem_decimalNat {n : Nat} {c : Char} (h : c ∈ Text.decimalNat n) :
    c.isDigit = true := by
  unfold Text.decimalNat at h
  fun_induction Text.numeral 8 n with
  | case1 n hsmall =>
      rw [List.mem_singleton.mp h]
      exact isDigit_digitChar n hsmall
  | case2 n hlarge ih =>
      rcases List.mem_append.mp h with h | h
      · exact ih h
      · rw [List.mem_singleton.mp h]
        exact isDigit_digitChar _ (Nat.mod_lt n (by decide))

theorem valueOfDigits_decimalNat (n : Nat) : Text.valueOfDigits (Text.decimalNat n) = n := by
  unfold Text.decimalNat
  fun_induction Text.numeral 8 n with
  | case1 n hsmall => simp [Text.valueOfDigits, digitValue_digitChar n hsmall]
  | case2 n hlarge ih =>
      unfold Text.valueOfDigits at ih ⊢
      rw [List.foldl_append, ih]
      simp only [List.foldl_cons, List.foldl_nil]
      rw [digitValue_digitChar _ (Nat.mod_lt n (by decide))]
      omega

/-- A numeral has a first digit, which is zero for zero only. -/
theorem decimalNat_eq_cons (n : Nat) :
    ∃ first rest, Text.decimalNat n = first :: rest ∧ (first = '0' → n = 0 ∧ rest = []) := by
  unfold Text.decimalNat
  fun_induction Text.numeral 8 n with
  | case1 n hsmall => exact ⟨_, [], rfl, fun hzero => ⟨digitChar_eq_zero n hsmall hzero, rfl⟩⟩
  | case2 n hlarge ih =>
      obtain ⟨first, rest, heq, hzero⟩ := ih
      refine ⟨first, _, by rw [heq, List.cons_append], ?_⟩
      intro hfirst
      have := (hzero hfirst).1
      omega

/-! ## Integers -/

theorem toInt64?_ofInt64 (n : Int64) : (Whole.ofInt64 n).toInt64? = some n := by
  have hle := n.le_toInt
  have hlt := n.toInt_lt
  change Text.int64? n.toInt = some n
  rw [Text.int64?, if_pos, Int64.ofInt_toInt]
  unfold Text.leastInt64 Text.greatestInt64
  constructor
  · simpa using hle
  · omega

/-- What may follow a value that has been printed: the end, a comma or a closing bracket. -/
def Delimited (rest : List Char) : Prop :=
  rest = [] ∨ ∃ c tail, rest = c :: tail ∧ (c = ',' ∨ c = ']' ∨ c = '\x7d')

theorem Delimited.isDigit_eq_false {c : Char} {tail : List Char} (h : Delimited (c :: tail)) :
    c.isDigit = false := by
  rcases h with h | ⟨d, _, heq, hd⟩
  · cases h
  · obtain ⟨rfl, rfl⟩ := List.cons.inj heq
    rcases hd with rfl | rfl | rfl <;> decide

/-- Digits are read up to where something else begins. -/
theorem spanDigits_append {digits rest : List Char} (hdigits : ∀ c ∈ digits, c.isDigit = true)
    (hrest : Delimited rest) : spanDigits (digits ++ rest) = (digits, rest) := by
  unfold spanDigits
  rw [List.takeWhile_append_of_pos hdigits, List.dropWhile_append_of_pos hdigits]
  cases rest with
  | nil => simp
  | cons c tail => simp [hrest.isDigit_eq_false]

theorem le_foldl_digits (digits : List Char) (start : Nat) :
    start ≤ digits.foldl (fun value c => 10 * value + Text.digitValue c) start := by
  induction digits generalizing start with
  | nil => exact Nat.le_refl start
  | cons c rest ih =>
      have := ih (10 * start + Text.digitValue c)
      rw [List.foldl_cons]
      omega

/-- Digits whose value fits are gathered without touching the exponent. -/
theorem integerDigits_of_lt {digits : List Char} {start : Nat} {exponent : Int}
    (h : digits.foldl (fun value c => 10 * value + Text.digitValue c) start < significandLimit) :
    Gathered.integerDigits ⟨start, exponent⟩ digits =
      ⟨digits.foldl (fun value c => 10 * value + Text.digitValue c) start, exponent⟩ := by
  induction digits generalizing start with
  | nil => rfl
  | cons c rest ih =>
      rw [List.foldl_cons] at h ⊢
      have hgrown := Nat.lt_of_le_of_lt (le_foldl_digits rest (10 * start + Text.digitValue c)) h
      rw [Gathered.integerDigits, if_pos hgrown]
      exact ih h

/-- A numeral is read to its value before anything else is looked at. -/
theorem readNumber_decimalNat {n : Nat} (hn : n < significandLimit) (negative : Bool)
    {rest : List Char} (hrest : Delimited rest) :
    readNumber negative (Text.decimalNat n ++ rest) = readTail negative ⟨n, 0⟩ rest := by
  obtain ⟨first, digits, heq, hzero⟩ := decimalNat_eq_cons n
  have hdigits : ∀ c ∈ first :: digits, c.isDigit = true :=
    fun c hc => isDigit_of_mem_decimalNat (heq ▸ hc)
  have hvalue := valueOfDigits_decimalNat n
  rw [heq] at hvalue ⊢
  by_cases hfirst : first = '0'
  · -- after a zero no further digit is read
    obtain ⟨rfl, rfl⟩ := hzero hfirst
    subst hfirst
    cases rest with
    | nil => rfl
    | cons c tail => simp [readNumber, hrest.isDigit_eq_false]
  · have hgather : Gathered.integerDigits ⟨0, 0⟩ (first :: digits) = ⟨n, 0⟩ := by
      rw [← hvalue] at hn
      rw [integerDigits_of_lt hn]
      exact congrArg (Gathered.mk · 0) hvalue
    unfold readNumber
    simp only [List.cons_append]
    rw [if_neg hfirst, if_pos (hdigits first List.mem_cons_self), ← List.cons_append,
      spanDigits_append hdigits hrest]
    exact congrArg (readTail negative · rest) hgather

/-- A numeral without a fraction or an exponent is a whole number. -/
theorem readTail_whole {negative : Bool} {significand : Nat} {n : Whole} {rest : List Char}
    (hrest : Delimited rest) (h : wholeOf? negative significand = some n) :
    readTail negative ⟨significand, 0⟩ rest = .ok (.whole n, rest) := by
  rcases hrest with rfl | ⟨c, tail, rfl, rfl | rfl | rfl⟩
  · simp only [readTail, h, if_true]
  all_goals
    simp only [readTail, h, if_true]
    rfl

theorem readScalar_of_isDigit {c : Char} (h : c.isDigit = true) (rest : List Char) :
    readScalar (c :: rest) =
      (readNumber false (c :: rest)).map fun (n, tail) => (.number n, tail) := by
  rw [readScalar, if_pos h]
  · cases readNumber false (c :: rest) <;> rfl
  -- no other token begins with a digit
  all_goals
    rintro rfl
    exact absurd h (by decide)

theorem readScalar_minus (text : List Char) :
    readScalar ('-' :: text) =
      (readNumber true text).map fun (n, tail) => (.number n, tail) := by
  rw [readScalar]
  cases readNumber true text <;> rfl

/-- An integer of a document comes back from its text. -/
theorem readScalar_whole (n : Whole) {rest : List Char} (hrest : Delimited rest) :
    readScalar (Text.decimalInt n.value ++ rest) = .ok (.number (.whole n), rest) := by
  obtain ⟨value, hle, hlt⟩ := n
  cases value with
  | ofNat n =>
      have hn : n < significandLimit := Int.ofNat_lt.mp hlt
      have hwhole : wholeOf? false n = some ⟨n, hle, hlt⟩ := by
        simp only [wholeOf?, Bool.false_eq_true, if_false, Whole.ofInt?]
        exact dif_pos ⟨hle, hlt⟩
      obtain ⟨first, digits, heq, _⟩ := decimalNat_eq_cons n
      have hfirst : first.isDigit = true :=
        isDigit_of_mem_decimalNat (heq ▸ List.mem_cons_self)
      have hread := readNumber_decimalNat hn false hrest
      rw [readTail_whole hrest hwhole] at hread
      simp only [Text.decimalInt]
      rw [heq, List.cons_append] at hread ⊢
      rw [readScalar_of_isDigit hfirst, hread]
      rfl
  | negSucc n =>
      have hn : n + 1 < significandLimit := by
        unfold significandLimit
        omega
      have hwhole : wholeOf? true (n + 1) = some ⟨Int.negSucc n, hle, hlt⟩ := by
        rw [wholeOf?, if_pos rfl, if_neg (Nat.add_one_ne_zero n)]
        exact dif_pos ⟨hle, hlt⟩
      have hread := readNumber_decimalNat hn true hrest
      rw [readTail_whole hrest hwhole] at hread
      rw [Text.decimalInt, List.cons_append, readScalar_minus, hread]
      rfl

end ProtocolCodec.Json
