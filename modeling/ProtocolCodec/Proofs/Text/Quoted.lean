import Mathlib.Algebra.GroupWithZero.Nat
import Mathlib.Data.List.Basic
import ProtocolCodec.Text.Quoted

/-!
# Reading quoted text

The form of a quoted text, said without saying how one is written: between two quotes stand pieces,
each for one character, which is written as it is, by a letter or by the digits of its code point.
A text of this form has one reading, whatever follows it, and quoting gives such a text for every
string. So no quote inside ends it early, no control gets in, and no two strings are quoted alike.
-/

namespace ProtocolCodec.Text.Quoted

/-! ## The form of a quoted text -/

/-- The controls: those of ASCII, delete, and those from `80` to `9f`. -/
def IsControl (c : Char) : Prop :=
  c.toNat < 0x20 ∨ 0x7F ≤ c.toNat ∧ c.toNat ≤ 0x9F

/-- The letters that stand for a character after a backslash. -/
def letters : List (Char × Char) :=
  [('0', '\x00'), ('t', '\t'), ('r', '\r'), ('n', '\n'), ('"', '"'), ('\\', '\\')]

/-- The number that hexadecimal digits stand for, behind digits already read. -/
def hexNumber (value : Nat) (digits : List Nat) : Nat :=
  digits.foldl (fun value digit => 16 * value + digit) value

/-- A piece of text that stands for one character between quotes. -/
inductive Piece : List Char → Char → Prop where
  | plain {c : Char} (hquote : c ≠ '"') (hbackslash : c ≠ '\\') (hcontrol : ¬ IsControl c) :
      Piece [c] c
  | letter {letter c : Char} (h : (letter, c) ∈ letters) : Piece ['\\', letter] c
  | code {digits : List Nat} {c : Char} (hdigits : ∀ digit ∈ digits, digit < 16)
      (hlength : 1 ≤ digits.length ∧ digits.length ≤ 6) (hvalue : hexNumber 0 digits = c.toNat) :
      Piece ('\\' :: 'u' :: '\x7b' :: (digits.map digitChar ++ ['\x7d'])) c

/-- Pieces one after the other stand for a text. -/
inductive Body : List Char → List Char → Prop where
  | nil : Body [] []
  | cons {piece body text : List Char} {c : Char} (hpiece : Piece piece c)
      (hbody : Body body text) : Body (piece ++ body) (c :: text)

/-- A quoted text that stands for a string: the pieces of the string between two quotes. -/
def IsQuoted (quoted text : String) : Prop :=
  ∃ body, quoted.toList = '"' :: (body ++ ['"']) ∧ Body body text.toList

theorem ascii_of_mem_letters :
    ∀ pair ∈ letters, 0x20 ≤ pair.1.toNat ∧ pair.1.toNat < 0x7F := by
  decide

theorem ascii_digitChar : ∀ digit < 16,
    0x20 ≤ (digitChar digit).toNat ∧ (digitChar digit).toNat < 0x7F := by
  decide

theorem not_isControl_of_ascii {c : Char} (h : 0x20 ≤ c.toNat ∧ c.toNat < 0x7F) :
    ¬ IsControl c := by
  unfold IsControl
  omega

/-- The pieces of a quoted text hold no control. -/
theorem Piece.not_isControl {piece : List Char} {c : Char} (h : Piece piece c) :
    ∀ d ∈ piece, ¬ IsControl d := by
  cases h with
  | plain hquote hbackslash hcontrol =>
      intro d hd
      rw [List.mem_singleton.mp hd]
      exact hcontrol
  | letter h =>
      intro d hd
      rcases List.mem_cons.mp hd with rfl | hd
      · exact not_isControl_of_ascii (by decide)
      · rw [List.mem_singleton.mp hd]
        exact not_isControl_of_ascii (ascii_of_mem_letters _ h)
  | @code digits c hdigits hlength hvalue =>
      intro d hd
      simp only [List.mem_cons, List.mem_append, List.mem_map, List.not_mem_nil, or_false] at hd
      rcases hd with rfl | rfl | rfl | ⟨digit, hdigit, rfl⟩ | rfl
      · exact not_isControl_of_ascii (by decide)
      · exact not_isControl_of_ascii (by decide)
      · exact not_isControl_of_ascii (by decide)
      · exact not_isControl_of_ascii (ascii_digitChar digit (hdigits digit hdigit))
      · exact not_isControl_of_ascii (by decide)

theorem Body.not_isControl {body text : List Char} (h : Body body text) :
    ∀ d ∈ body, ¬ IsControl d := by
  induction h with
  | nil => simp
  | cons hpiece _ ih =>
      intro d hd
      rcases List.mem_append.mp hd with hd | hd
      · exact hpiece.not_isControl d hd
      · exact ih d hd

/-! ## Reading -/

theorem hexValue?_digitChar : ∀ digit < 16,
    digitChar digit ≠ '\x7d' ∧ hexValue? (digitChar digit) = some digit := by
  decide

/-- Hexadecimal numerals are read up to the closing brace. -/
theorem readHex_digits {digits : List Nat} (hdigits : ∀ digit ∈ digits, digit < 16) (value : Nat)
    (rest : List Char) :
    readHex value (digits.map digitChar ++ '\x7d' :: rest) =
      some (hexNumber value digits, rest) := by
  induction digits generalizing value with
  | nil => simp [readHex, hexNumber]
  | cons digit digits ih =>
      obtain ⟨hdigit, hrest⟩ := List.forall_mem_cons.mp hdigits
      obtain ⟨hne, hvalue⟩ := hexValue?_digitChar digit hdigit
      rw [List.map_cons, List.cons_append, readHex, if_neg hne, hvalue]
      exact ih hrest _

theorem readEscape_letter {letter c : Char} (h : (letter, c) ∈ letters) (rest : List Char) :
    readEscape (letter :: rest) = some (c, rest) := by
  simp only [letters, List.mem_cons, Prod.mk.injEq, List.not_mem_nil, or_false] at h
  rcases h with ⟨rfl, rfl⟩ | ⟨rfl, rfl⟩ | ⟨rfl, rfl⟩ | ⟨rfl, rfl⟩ | ⟨rfl, rfl⟩ | ⟨rfl, rfl⟩ <;> rfl

/-- Behind a backslash an escape is read and then the rest. -/
theorem readBody_backslash {text rest : List Char} {c : Char}
    (h : readEscape text = some (c, rest)) :
    readBody ('\\' :: text) = (readBody rest).map fun (body, tail) => (c :: body, tail) := by
  rw [readBody, if_neg (by decide), if_pos rfl]
  split
  next hnone => simp [hnone] at h
  next e rest' he =>
    obtain ⟨rfl, rfl⟩ : e = c ∧ rest' = rest := by simpa [he] using h
    rfl

/-- A piece is read as the character it stands for. -/
theorem Piece.readBody_append {piece : List Char} {c : Char} (h : Piece piece c)
    (rest : List Char) :
    readBody (piece ++ rest) = (readBody rest).map fun (body, tail) => (c :: body, tail) := by
  cases h with
  | plain hquote hbackslash hcontrol =>
      rw [List.singleton_append, readBody, if_neg hquote, if_neg hbackslash]
  | letter h => exact readBody_backslash (readEscape_letter h rest)
  | @code digits c hdigits hlength hvalue =>
      have hread : readEscape ('u' :: '\x7b' :: (digits.map digitChar ++ '\x7d' :: rest)) =
          some (c, rest) := by
        simp only [readEscape, readHex_digits hdigits, hvalue, Option.map_some, Char.ofNat_toNat]
      rw [List.cons_append, List.cons_append, List.cons_append, List.append_assoc,
        List.singleton_append]
      exact readBody_backslash hread

/-- A body is read back up to the closing quote, whatever follows. -/
theorem Body.readBody_append {body text : List Char} (h : Body body text) (rest : List Char) :
    readBody (body ++ '"' :: rest) = some (text, rest) := by
  induction h with
  | nil => simp [readBody]
  | cons hpiece _ ih =>
      rw [List.append_assoc, hpiece.readBody_append, ih]
      rfl

namespace IsQuoted

variable {quoted text : String}

/-- Reading behind the opening quote comes to the closing one, whatever stands behind it. -/
theorem readBody_tail (h : IsQuoted quoted text) (rest : List Char) :
    readBody (quoted.toList.tail ++ rest) = some (text.toList, rest) := by
  obtain ⟨body, hquoted, hbody⟩ := h
  rw [hquoted, List.tail_cons, List.append_assoc, List.singleton_append]
  exact hbody.readBody_append rest

theorem decode_eq (h : IsQuoted quoted text) : decode quoted.toList = some text.toList := by
  obtain ⟨body, hquoted, hbody⟩ := h
  rw [hquoted, decode, hbody.readBody_append []]

theorem not_isControl (h : IsQuoted quoted text) : ∀ c ∈ quoted.toList, ¬ IsControl c := by
  obtain ⟨body, hquoted, hbody⟩ := h
  have hends : ¬ IsControl '"' := not_isControl_of_ascii (by decide)
  intro c hc
  rw [hquoted] at hc
  simp only [List.mem_cons, List.mem_append, List.not_mem_nil, or_false] at hc
  rcases hc with rfl | hc | rfl
  · exact hends
  · exact hbody.not_isControl c hc
  · exact hends

end IsQuoted

/-! ## Writing -/

theorem not_isControl_of_isPrintable {c : Char} (h : isPrintable c = true) : ¬ IsControl c := by
  unfold isPrintable at h
  split at h
  next hascii =>
    have hleast : 0x20 ≤ c.toNat := by simpa using h
    exact not_isControl_of_ascii ⟨hleast, hascii⟩
  next hascii =>
    rintro (hcontrol | ⟨hleast, hgreatest⟩)
    · omega
    · -- the first hidden span holds all controls beyond ASCII
      have hhidden : inSpans hiddenSpans c = true := by
        have hspan : (⟨0x7F, 0xA0⟩ : Span).holds c.toNat = true := by
          simp only [Span.holds, Bool.and_eq_true, decide_eq_true_eq]
          omega
        exact List.any_eq_true.mpr ⟨_, List.mem_cons_self, hspan⟩
      simp [hhidden] at h

/-- The numeral of a number below a power of sixteen has no more digits than the power says. -/
theorem exists_digits_hexadecimal (n : Nat) :
    ∃ digits : List Nat, hexadecimal n = digits.map digitChar ∧ (∀ digit ∈ digits, digit < 16) ∧
      1 ≤ digits.length ∧ (∀ k, 1 ≤ k → n < 16 ^ k → digits.length ≤ k) ∧
      hexNumber 0 digits = n := by
  unfold hexadecimal
  fun_induction numeral 14 n with
  | case1 n hsmall =>
      refine ⟨[n], rfl, by simpa using hsmall, Nat.le_refl 1, ?_, by simp [hexNumber]⟩
      intro k hk _
      exact hk
  | case2 n hlarge ih =>
      obtain ⟨digits, heq, hdigits, hsome, hfew, hvalue⟩ := ih
      refine ⟨digits ++ [n % 16], by rw [heq, List.map_append]; rfl, ?_, by simp, ?_, ?_⟩
      · rw [List.forall_mem_append]
        exact ⟨hdigits, by simpa using Nat.mod_lt n (by decide)⟩
      · intro k hk hn
        obtain ⟨k, rfl⟩ : ∃ j, k = j + 1 := ⟨k - 1, by omega⟩
        have hone : 1 ≤ k := by
          by_contra hzero
          obtain rfl : k = 0 := by omega
          omega
        have := hfew k hone (Nat.div_lt_of_lt_mul (by rw [Nat.pow_succ] at hn; omega))
        simpa using this
      · have hnumber : hexNumber 0 (digits ++ [n % 16]) = 16 * hexNumber 0 digits + n % 16 := by
          simp [hexNumber]
        rw [hnumber, hvalue]
        omega

/-- Escaping a character gives a piece for it. -/
theorem piece_escape (c : Char) : Piece (escape c) c := by
  unfold escape
  split_ifs with hnull htab hreturn hfeed hspecial hprintable
  · subst hnull
    exact .letter (by decide)
  · subst htab
    exact .letter (by decide)
  · subst hreturn
    exact .letter (by decide)
  · subst hfeed
    exact .letter (by decide)
  · rcases hspecial with rfl | rfl
    · exact .letter (by decide)
    · exact .letter (by decide)
  · obtain ⟨hquote, hbackslash⟩ := not_or.mp hspecial
    exact .plain hquote hbackslash (not_isControl_of_isPrintable hprintable)
  · obtain ⟨digits, heq, hdigits, hsome, hfew, hvalue⟩ := exists_digits_hexadecimal c.toNat
    have hpoint : c.toNat < 16 ^ 6 := by
      have hvalid : c.toNat.isValidChar := c.valid
      unfold Nat.isValidChar at hvalid
      omega
    rw [heq]
    exact .code hdigits ⟨hsome, hfew 6 (by decide) hpoint⟩ hvalue

/-- Escaping each character of a text gives a body for it. -/
theorem body_flatMap_escape (text : List Char) : Body (text.flatMap escape) text := by
  induction text with
  | nil => exact .nil
  | cons c text ih => exact .cons (piece_escape c) ih

/-- Quoting a text gives a quoted text of it. -/
theorem isQuoted_quote (text : String) : IsQuoted (quote text) text :=
  ⟨_, String.toList_ofList, body_flatMap_escape _⟩

/-- Distinct texts are quoted apart, as both can be read back. -/
theorem quote_injective : Function.Injective quote := by
  intro first second h
  have hread : some first.toList = some second.toList := by
    rw [← (isQuoted_quote first).decode_eq, h, (isQuoted_quote second).decode_eq]
  exact String.toList_injective (Option.some.inj hread)

end ProtocolCodec.Text.Quoted
