import Mathlib.Data.Nat.ModEq
import ProtocolCodec.Text.Case

/-!
# What lower case leaves of a capital

Lower case need not take a capital away: some capitals have no lower-case image and stay as they
are. But there is nothing in between. The lower-case image of a character is the character itself,
or it holds no capital at all. Beyond ASCII this is a fact about the tables, checked run against
run.
-/

namespace ProtocolCodec.Text

/-! ## The tables -/

namespace Run

/-- A test that no image of a run belongs to another run: the two lie apart, or the steps of the
other run pass the images by. -/
def imagesApart (run other : Run) : Bool :=
  (run.image + (run.last - run.first)).blt other.first || other.last.blt run.image ||
    (run.first == run.last || run.step % other.step == 0) &&
      run.image % other.step != other.first % other.step

variable {run other : Run} {point : Nat}

/-- A run holds the points between its ends at its steps. -/
theorem holds_iff :
    run.holds point = true ↔
      run.first ≤ point ∧ point ≤ run.last ∧ run.step ∣ point - run.first := by
  simp [holds, and_assoc, Nat.dvd_iff_mod_eq_zero]

/-- The images of a run leave one remainder, if the run is single or its steps are multiples. -/
theorem send_modEq {modulus : Nat} (hpoint : run.holds point = true)
    (hstep : run.first = run.last ∨ modulus ∣ run.step) :
    run.send point ≡ run.image [MOD modulus] := by
  obtain ⟨hfirst, hlast, hdvd⟩ := holds_iff.mp hpoint
  have hdistance : modulus ∣ point - run.first := by
    rcases hstep with hsingle | hstep
    · have hzero : point - run.first = 0 := by omega
      rw [hzero]
      exact dvd_zero modulus
    · exact hstep.trans hdvd
  calc run.send point
      ≡ run.image + 0 [MOD modulus] := (Nat.modEq_zero_iff_dvd.mpr hdistance).add_left _
    _ = run.image := Nat.add_zero _

/-- A run whose images are apart from another run sends no point into that one. -/
theorem holds_send_of_imagesApart (hapart : run.imagesApart other = true)
    (hpoint : run.holds point = true) : other.holds (run.send point) = false := by
  rw [Bool.eq_false_iff]
  intro himage
  obtain ⟨hfirst, hlast, -⟩ := holds_iff.mp hpoint
  obtain ⟨hleast, hgreatest, hdvd⟩ := holds_iff.mp himage
  simp only [imagesApart, Bool.or_eq_true, Bool.and_eq_true, Nat.blt_eq, beq_iff_eq, bne_iff_ne,
    ne_eq, ← Nat.dvd_iff_mod_eq_zero] at hapart
  rcases hapart with (hbelow | habove) | ⟨hstep, hremainder⟩
  · simp only [send] at hleast
    omega
  · simp only [send] at hgreatest
    omega
  · have hother : other.first ≡ run.send point [MOD other.step] :=
      (Nat.modEq_iff_dvd' hleast).mpr hdvd
    exact hremainder ((send_modEq hpoint hstep).symm.trans hother.symm)

end Run

/-- No image of a capital is a capital. -/
theorem imagesApart_capitalRuns :
    (lowerRuns.all fun run => capitalRuns.all run.imagesApart) = true := by
  decide +kernel

/-- No image reaches down to the capitals of ASCII. -/
theorem image_of_mem_lowerRuns : ∀ run ∈ lowerRuns, 0x5B ≤ run.image := by
  decide +kernel

/-! ## Characters -/

theorem isCapital_toLower_of_ascii :
    ∀ point < 0x80, isCapital (Char.ofNat point).toLower = false := by
  decide

theorem isUpper_iff {c : Char} : c.isUpper = true ↔ 0x41 ≤ c.toNat ∧ c.toNat ≤ 0x5A :=
  decide_eq_true_iff.trans (and_congr UInt32.le_iff_toNat_le UInt32.le_iff_toNat_le)

/-- The image of a code point in a run of the lower-case table is no capital. -/
theorem isCapital_send {run : Run} (hrun : run ∈ lowerRuns) {point : Nat}
    (hpoint : run.holds point = true) : isCapital (Char.ofNat (run.send point)) = false := by
  have hleast : 0x5B ≤ run.send point :=
    (image_of_mem_lowerRuns run hrun).trans (Nat.le_add_right _ _)
  have hruns : capitalRuns.any (·.holds (run.send point)) = false := by
    rw [List.any_eq_false]
    intro other hother
    have hapart := List.all_eq_true.mp imagesApart_capitalRuns run hrun
    rw [Bool.not_eq_true]
    exact Run.holds_send_of_imagesApart (List.all_eq_true.mp hapart other hother) hpoint
  -- a code point that is no character would stand for the zero character
  have hnat : (Char.ofNat (run.send point)).toNat = run.send point ∨
      (Char.ofNat (run.send point)).toNat = 0 := by
    unfold Char.ofNat
    by_cases hvalid : (run.send point).isValidChar
    · rw [dif_pos hvalid]
      exact Or.inl rfl
    · rw [dif_neg hvalid]
      exact Or.inr rfl
  unfold isCapital
  split
  next =>
    rw [Bool.eq_false_iff, ne_eq, isUpper_iff]
    omega
  next hascii =>
    rcases hnat with hnat | hnat
    · rw [hnat, hruns]
    · omega

theorem not_isCapital_of_mem_lowerExpansions :
    ∀ pair ∈ lowerExpansions, pair.2 ≠ [] ∧ ∀ point ∈ pair.2,
      isCapital (Char.ofNat point) = false := by
  decide +kernel

/-- The lower-case image of a character is the character itself, or it holds no capital. -/
theorem lower_cases (c : Char) :
    lower c = [c] ∨ lower c ≠ [] ∧ ∀ d ∈ lower c, isCapital d = false := by
  unfold lower
  split
  next hascii =>
    right
    refine ⟨List.cons_ne_nil _ _, ?_⟩
    rw [List.forall_mem_singleton, ← Char.ofNat_toNat c]
    exact isCapital_toLower_of_ascii c.toNat hascii
  next =>
    unfold caseImage
    split
    next image himage =>
      right
      obtain ⟨before, after, htable, -⟩ := List.lookup_eq_some_iff.mp himage
      have hmem : (c.toNat, image) ∈ lowerExpansions := by simp [htable]
      obtain ⟨hne, hsmall⟩ := not_isCapital_of_mem_lowerExpansions _ hmem
      exact ⟨by simpa using hne, List.forall_mem_map.mpr hsmall⟩
    next =>
      split
      next run hrun =>
        right
        have hholds : run.holds c.toNat = true :=
          List.find?_some (p := fun other : Run => other.holds c.toNat) hrun
        refine ⟨List.cons_ne_nil _ _, ?_⟩
        rw [List.forall_mem_singleton]
        exact isCapital_send (List.mem_of_find?_eq_some hrun) hholds
      next => exact Or.inl rfl

theorem lower_ne_nil (c : Char) : lower c ≠ [] := by
  rcases lower_cases c with hsame | ⟨hne, -⟩
  · rw [hsame]
    exact List.cons_ne_nil _ _
  · exact hne

/-- A capital that stays a capital in lower case. -/
def IsFixedCapital (c : Char) : Prop :=
  isCapital c = true ∧ ∃ d ∈ lower c, isCapital d = true

theorem not_isFixedCapital_of_ascii {c : Char} (hascii : c.toNat < 0x80) : ¬ IsFixedCapital c := by
  rintro ⟨-, d, hd, hcapital⟩
  rw [lower, if_pos hascii, List.mem_singleton] at hd
  have hsmall := isCapital_toLower_of_ascii c.toNat hascii
  rw [Char.ofNat_toNat, ← hd, hcapital] at hsmall
  cases hsmall

end ProtocolCodec.Text
