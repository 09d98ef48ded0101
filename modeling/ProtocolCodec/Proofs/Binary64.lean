import Mathlib.Algebra.GroupWithZero.Nat
import Mathlib.Data.Nat.Log
import Mathlib.Tactic.Set
import ProtocolCodec.Json.Basic

/-!
# Rounding stays finite

A quotient that is not too large has a nearest binary64 number that is finite. In particular every
integer of a document has one. Rounding keeps the sign, and what is not below a power of two is not
rounded below it.
-/

namespace ProtocolCodec

namespace Binary64

theorem div_le_divideToEven (num den : Nat) : num / den ≤ divideToEven num den := by
  simp only [divideToEven]
  split
  · exact le_rfl
  · exact Nat.le_succ _

theorem divideToEven_le (num den : Nat) : divideToEven num den ≤ num / den + 1 := by
  simp only [divideToEven]
  split
  · exact Nat.le_succ _
  · exact le_rfl

/-- Parts within the bounds of the format are those of a finite number. -/
theorem finite_ofParts {mantissa exponent : Nat} (negative : Bool)
    (hmantissa : mantissa < 0x20000000000000)
    (hnormal : exponent = 0 ∨ 0x10000000000000 ≤ mantissa) (hexponent : exponent ≤ 2045) :
    ∃ x, ofParts negative mantissa exponent = .finite x :=
  ⟨_, dif_pos ⟨hmantissa, hnormal, hexponent⟩⟩

/-- Cut down to 53 binary digits, a number that has more keeps its first one. -/
theorem two_pow_le_div_log2 (n : Nat) : n.log2 - 52 = 0 ∨ 2 ^ 52 ≤ n / 2 ^ (n.log2 - 52) := by
  by_cases hexponent : n.log2 - 52 = 0
  · exact Or.inl hexponent
  · right
    rw [Nat.le_div_iff_mul_le (Nat.two_pow_pos _), ← Nat.pow_add]
    have hzero : n ≠ 0 := by
      rintro rfl
      exact hexponent rfl
    refine le_trans (Nat.pow_le_pow_right (by decide) ?_) (Nat.log2_self_le hzero)
    omega

/-- A quotient below `2 ^ 2096` units rounds to a finite number. -/
theorem finite_round {num den : Nat} (bits : Nat) (negative : Bool)
    (hsmall : (num <<< Finite.unitBits) / den < 2 ^ bits) (hbits : bits ≤ 2096) :
    ∃ x, round negative num den = .finite x := by
  set scaled := num <<< Finite.unitBits with hscaled
  set exponent := (scaled / den).log2 - 52 with hexponent
  have hquotient : scaled / (den <<< exponent) = scaled / den / 2 ^ exponent := by
    rw [Nat.shiftLeft_eq, Nat.div_div_eq_div_mul]
  have hlog : (scaled / den).log2 < 2096 := by
    by_cases hzero : scaled / den = 0
    · rw [hzero]
      decide
    · exact lt_of_lt_of_le ((Nat.log2_lt hzero).mpr hsmall) hbits
  -- the exponent leaves 53 binary digits of the quotient
  have hupper : scaled / den / 2 ^ exponent < 2 ^ 53 := by
    rw [Nat.div_lt_iff_lt_mul (Nat.two_pow_pos _), ← Nat.pow_add]
    refine lt_of_lt_of_le Nat.lt_log2_self (Nat.pow_le_pow_right (by decide) ?_)
    omega
  have hlower : exponent = 0 ∨ 2 ^ 52 ≤ scaled / den / 2 ^ exponent :=
    two_pow_le_div_log2 (scaled / den)
  have hle := divideToEven_le scaled (den <<< exponent)
  have hge := div_le_divideToEven scaled (den <<< exponent)
  rw [hquotient] at hle hge
  change ∃ x, (if divideToEven scaled (den <<< exponent) = 0x20000000000000 then
      ofParts negative 0x10000000000000 (exponent + 1)
    else ofParts negative (divideToEven scaled (den <<< exponent)) exponent) = .finite x
  split
  next => exact finite_ofParts negative (by decide) (Or.inr le_rfl) (by omega)
  next hne =>
    refine finite_ofParts negative ?_ ?_ (by omega)
    · omega
    · exact hlower.imp_right fun hbig => le_trans hbig hge

/-! ## Sign and magnitude -/

/-- A finite number has the sign and the value of the parts it is made of. -/
theorem eq_of_ofParts {negative : Bool} {mantissa exponent : Nat} {x : Finite}
    (h : ofParts negative mantissa exponent = .finite x) :
    x.negative = negative ∧ x.units = mantissa * 2 ^ exponent := by
  unfold ofParts at h
  split at h
  next =>
    obtain rfl := Binary64.finite.inj h
    exact ⟨rfl, Nat.shiftLeft_eq _ _⟩
  next => cases h

/-- A mantissa that is rounded up to one digit more is the same number with another exponent. -/
theorem eq_of_round {negative : Bool} {num den : Nat} {x : Finite}
    (h : round negative num den = .finite x) :
    x.negative = negative ∧
      x.units =
        divideToEven (num <<< Finite.unitBits)
            (den <<< (((num <<< Finite.unitBits) / den).log2 - 52)) *
          2 ^ (((num <<< Finite.unitBits) / den).log2 - 52) := by
  simp only [round] at h
  split at h
  next hcarry =>
    obtain ⟨hnegative, hunits⟩ := eq_of_ofParts h
    refine ⟨hnegative, ?_⟩
    rw [hunits, hcarry, Nat.pow_succ]
    omega
  next => exact eq_of_ofParts h

theorem two_pow_le_units_of_round {negative : Bool} {num den k : Nat} {x : Finite}
    (h : round negative num den = .finite x) (hk : 2 ^ k ≤ (num <<< Finite.unitBits) / den) :
    2 ^ k ≤ x.units := by
  rw [(eq_of_round h).2]
  set quotient := (num <<< Finite.unitBits) / den with hquotient
  have hzero : quotient ≠ 0 := by
    have := Nat.two_pow_pos k
    omega
  have hle := div_le_divideToEven (num <<< Finite.unitBits) (den <<< (quotient.log2 - 52))
  rw [Nat.shiftLeft_eq den, ← Nat.div_div_eq_div_mul, ← hquotient, ← Nat.shiftLeft_eq den] at hle
  refine le_trans ?_ (Nat.mul_le_mul_right _ hle)
  rcases two_pow_le_div_log2 quotient with hexponent | hdigits
  · -- all digits of the quotient are kept
    simpa [hexponent] using hk
  · have hlog : k ≤ quotient.log2 := (Nat.le_log2 hzero).mpr hk
    calc 2 ^ k ≤ 2 ^ (52 + (quotient.log2 - 52)) := Nat.pow_le_pow_right (by decide) (by omega)
      _ = 2 ^ 52 * 2 ^ (quotient.log2 - 52) := Nat.pow_add 2 52 _
      _ ≤ quotient / 2 ^ (quotient.log2 - 52) * 2 ^ (quotient.log2 - 52) :=
          Nat.mul_le_mul_right _ hdigits

end Binary64

/-- The number nearest to an integer of a document is finite. -/
theorem Number.finite_toBinary64 (n : Number) : ∃ x, n.toBinary64 = .finite x := by
  cases n with
  | float x => exact ⟨x, rfl⟩
  | whole n =>
      have hbound : n.value.natAbs < 2 ^ 65 := by
        have := n.least_le
        have := n.lt_limit
        omega
      refine Binary64.finite_round (65 + Finite.unitBits) _ ?_ (by decide)
      rw [Nat.div_one, Nat.shiftLeft_eq, Nat.pow_add]
      exact Nat.mul_lt_mul_of_pos_right hbound (Nat.two_pow_pos _)

end ProtocolCodec
