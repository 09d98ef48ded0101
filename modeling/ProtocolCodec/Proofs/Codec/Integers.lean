import Mathlib.Data.Rat.Floor
import Mathlib.Tactic.Positivity
import ProtocolCodec.Codec.Decoding
import ProtocolCodec.Proofs.Binary64

/-!
# Numbers as integers

A number of a document is a signed word, an unsigned word or a binary64 number, and each stands for
one rational number. As an integer it is that number rounded toward zero and clamped to the signed
words, however it is written: the way by binary64 numbers, which unsigned words beyond the signed
ones take, rounds none of them below the clamp.
-/

namespace ProtocolCodec

/-! ## Exact values -/

/-- The rational number that a finite binary64 number is. -/
def Finite.exact (x : Finite) : ℚ :=
  let magnitude : ℚ := x.mantissa * 2 ^ x.exponent / 2 ^ unitBits
  if x.negative then -magnitude else magnitude

/-- The rational number that a number of a document is. -/
def Number.exact : Number → ℚ
  | .whole n => n.value
  | .float x => x.exact

/-- A rational number rounded toward zero. -/
def integerPart (q : ℚ) : ℤ :=
  if q < 0 then ⌈q⌉ else ⌊q⌋

theorem integerPart_intCast (n : ℤ) : integerPart n = n := by
  unfold integerPart
  split
  · exact Int.ceil_intCast n
  · exact Int.floor_intCast n

theorem integerPart_mono {p q : ℚ} (hpq : p ≤ q) : integerPart p ≤ integerPart q := by
  unfold integerPart
  split <;> split
  next => exact Int.ceil_mono hpq
  next hp hq =>
    -- a negative number goes up to zero at most, any other down to zero at least
    have hbelow : ⌈p⌉ ≤ 0 := Int.ceil_le.mpr (by simpa using hp.le)
    have habove : 0 ≤ ⌊q⌋ := Int.floor_nonneg.mpr (not_lt.mp hq)
    exact hbelow.trans habove
  next hp hq => exact absurd (lt_of_le_of_lt hpq hq) hp
  next => exact Int.floor_mono hpq

theorem integerPart_neg {q : ℚ} (h : 0 ≤ q) : integerPart (-q) = -⌊q⌋ := by
  unfold integerPart
  split
  next => exact Int.ceil_neg
  next hneg =>
    obtain rfl : q = 0 := le_antisymm (by simpa using hneg) h
    simp

/-- Dropping the binary digits after the point rounds toward zero. -/
theorem Finite.truncate_eq (x : Finite) : x.truncate = integerPart x.exact := by
  have hfloor : ⌊(x.mantissa * 2 ^ x.exponent / 2 ^ unitBits : ℚ)⌋ =
      ((x.units >>> unitBits : Nat) : ℤ) := by
    have hcast : (x.mantissa * 2 ^ x.exponent / 2 ^ unitBits : ℚ) =
        ((x.units : Nat) : ℚ) / ((2 ^ unitBits : Nat) : ℚ) := by
      rw [units, Nat.shiftLeft_eq]
      push_cast
      rfl
    rw [hcast, Rat.floor_natCast_div_natCast, Nat.shiftRight_eq_div_pow]
    rfl
  have hnonneg : (0 : ℚ) ≤ x.mantissa * 2 ^ x.exponent / 2 ^ unitBits := by positivity
  unfold truncate exact
  cases x.negative with
  | true => simp only [if_true, integerPart_neg hnonneg, hfloor]
  | false =>
      simp only [Bool.false_eq_true, if_false, integerPart, if_neg (not_lt.mpr hnonneg), hfloor]

/-! ## Clamping -/

/-- Clamping goes to the nearest integer of 64 bits. -/
theorem toInt_clamp (n : ℤ) :
    (Binary64.clamp n).toInt = max (-2 ^ 63) (min (2 ^ 63 - 1) n) := by
  unfold Binary64.clamp Text.leastInt64 Text.greatestInt64
  rw [Int64.toInt_ofInt_of_le] <;> omega

/-- A whole number is an integer of 64 bits, the clamped one, unless it is too large. -/
theorem Whole.toInt64?_cases (n : Whole) :
    (n.value ≤ 2 ^ 63 - 1 ∧ n.toInt64? = some (Binary64.clamp n.value)) ∨
      2 ^ 63 ≤ n.value ∧ n.toInt64? = none := by
  unfold toInt64? Text.int64?
  by_cases hgreatest : n.value ≤ Text.greatestInt64
  · left
    refine ⟨hgreatest, ?_⟩
    have hleast : Text.leastInt64 ≤ n.value := n.least_le
    rw [if_pos ⟨hleast, hgreatest⟩, Binary64.clamp, min_eq_right hgreatest, max_eq_right hleast]
  · right
    rw [if_neg fun h => hgreatest h.2]
    unfold Text.greatestInt64 at hgreatest
    exact ⟨by omega, rfl⟩

/-- The binary64 number nearest to a large integer is not smaller than any signed word. -/
theorem le_truncate_of_ofInt {n : ℤ} {x : Finite} (hn : 2 ^ 63 ≤ n)
    (h : Binary64.ofInt n = .finite x) : 2 ^ 63 ≤ x.truncate := by
  unfold Binary64.ofInt at h
  have hsign : x.negative = false := by
    rw [(Binary64.eq_of_round h).1]
    exact decide_eq_false (by omega)
  have hunits : 2 ^ (63 + Finite.unitBits) ≤ x.units := by
    apply Binary64.two_pow_le_units_of_round h
    rw [Nat.div_one, Nat.shiftLeft_eq, Nat.pow_add]
    exact Nat.mul_le_mul_right _ (by omega)
  have hmagnitude : 2 ^ 63 ≤ x.units >>> Finite.unitBits := by
    rw [Nat.shiftRight_eq_div_pow, Nat.le_div_iff_mul_le (Nat.two_pow_pos _), ← Nat.pow_add]
    exact hunits
  rw [Finite.truncate, hsign]
  simp only [Bool.false_eq_true, if_false]
  exact_mod_cast hmagnitude

namespace Json

theorem integer?_eq_none {value : Json} (h : ∀ n, value ≠ .number n) : value.integer? = none := by
  cases value with
  | number n => exact absurd rfl (h n)
  | _ => rfl

/-- The integer of a number is its exact value, truncated and clamped. -/
theorem toInt_integer?_number (n : Number) :
    (number n).integer?.map Int64.toInt =
      some (max (-2 ^ 63) (min (2 ^ 63 - 1) (integerPart n.exact))) := by
  cases n with
  | float x =>
      change some (Binary64.clamp x.truncate).toInt = _
      rw [toInt_clamp, x.truncate_eq]
      rfl
  | whole n =>
      rw [Number.exact, integerPart_intCast, integer?, int64?]
      rcases n.toInt64?_cases with ⟨hsmall, hword⟩ | ⟨hlarge, hword⟩
      · rw [hword, ← toInt_clamp]
        rfl
      · obtain ⟨x, hx⟩ := Number.finite_toBinary64 (.whole n)
        have htruncate := le_truncate_of_ofInt hlarge hx
        rw [hword, decimal?, hx]
        change some (Binary64.clamp x.truncate).toInt = _
        rw [toInt_clamp, min_eq_left (by omega), min_eq_left (by omega)]

theorem exists_integer?_number (n : Number) : ∃ k, (number n).integer? = some k ∧
    k.toInt = max (-2 ^ 63) (min (2 ^ 63 - 1) (integerPart n.exact)) :=
  Option.map_eq_some_iff.mp (toInt_integer?_number n)

end Json

/-- A number of a document as an integer is its exact value rounded toward zero and clamped to the
signed words; nothing else is an integer. So every way to write an integer that is a signed word
gives this word, everything beyond the words gives the greatest one, and the order of exact values
is kept whichever way the numbers are written. -/
theorem integer_clamps_exact :
    (∀ n : Number, (Json.number n).integer?.map Int64.toInt =
      some (max (-2 ^ 63) (min (2 ^ 63 - 1) (integerPart n.exact)))) ∧
    (∀ value : Json, (∀ n, value ≠ .number n) → value.integer? = none) ∧
    (∀ (n : Number) (k : Int64), n.exact = k.toInt → (Json.number n).integer? = some k) ∧
    (∀ n : Number, 2 ^ 63 - 1 < n.exact → (Json.number n).integer? = some Int64.maxValue) ∧
    ∀ (first second : Number) (i j : Int64), first.exact ≤ second.exact →
      (Json.number first).integer? = some i → (Json.number second).integer? = some j → i ≤ j := by
  refine ⟨Json.toInt_integer?_number, fun value => Json.integer?_eq_none, ?_, ?_, ?_⟩
  · intro n k hexact
    obtain ⟨word, hword, hvalue⟩ := Json.exists_integer?_number n
    have hle := k.le_toInt
    have hlt := k.toInt_lt
    rw [hexact, integerPart_intCast, min_eq_right (by omega), max_eq_right hle] at hvalue
    rw [hword, Int64.toInt_inj.mp hvalue]
  · intro n hlarge
    obtain ⟨word, hword, hvalue⟩ := Json.exists_integer?_number n
    have hpart : 2 ^ 63 - 1 ≤ integerPart n.exact := by
      have hcast : ((2 ^ 63 - 1 : ℤ) : ℚ) ≤ n.exact := by
        rw [Int.cast_sub, Int.cast_pow, Int.cast_ofNat, Int.cast_one]
        exact hlarge.le
      have hmono := integerPart_mono hcast
      rwa [integerPart_intCast] at hmono
    rw [min_eq_left hpart, max_eq_right (by decide)] at hvalue
    rw [hword, Int64.toInt_inj.mp (hvalue.trans Int64.toInt_maxValue.symm)]
  · intro first second i j hle hfirst hsecond
    obtain ⟨word, hword, hvalue⟩ := Json.exists_integer?_number first
    obtain ⟨other, hother, hlarger⟩ := Json.exists_integer?_number second
    obtain rfl : i = word := Option.some.inj (hfirst.symm.trans hword)
    obtain rfl : j = other := Option.some.inj (hsecond.symm.trans hother)
    rw [Int64.le_iff_toInt_le, hvalue, hlarger]
    exact max_le_max_left _ (min_le_min_left _ (integerPart_mono hle))

end ProtocolCodec
