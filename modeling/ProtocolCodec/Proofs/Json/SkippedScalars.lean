import ProtocolCodec.Proofs.Json.Values
import ProtocolCodec.Proofs.Outcome

/-!
# Scalars that are passed over

A value that no one asks for is passed over without being read. A scalar that can be read can also
be passed over, with the same text left; and what is passed over is not empty.
-/

namespace ProtocolCodec.Json

/-! ## Strings -/

theorem skipString_backslash {text rest : List Char} (h : skipEscape text = .ok rest) :
    skipString ('\\' :: text) = skipString rest := by
  rw [skipString, if_neg (by decide), if_pos rfl]
  split
  next hf =>
    rw [hf] at h
    cases h
  next hrest =>
    rw [hrest] at h
    cases h
    rfl

theorem skipEscape_unit {text rest : List Char} {unit : Nat}
    (h : readQuad text = .ok (unit, rest)) : skipEscape ('u' :: text) = .ok rest := by
  have hshort : shortEscape? 'u' = none := by decide
  simp only [skipEscape, hshort, Option.isSome_none, Bool.false_eq_true, if_false, if_true, h, bind,
    Except.bind]

/-- The second half of a pair is an escape of its own. -/
theorem skipString_of_readTrailing {leading : Nat} {text rest : List Char} {c : Char}
    (h : readTrailing leading text = .ok (c, rest)) : skipString text = skipString rest := by
  unfold readTrailing at h
  split at h
  case h_3 body =>
    obtain ⟨⟨unit, after⟩, hquad, h⟩ := exists_of_bind_eq_ok h
    simp only at h
    split at h
    · simp only [Except.ok.injEq, Prod.mk.injEq] at h
      rw [← h.2]
      exact skipString_backslash (skipEscape_unit hquad)
    · cases h
  all_goals cases h

theorem skipString_of_readEscape {text rest : List Char} {c : Char}
    (h : readEscape text = .ok (c, rest)) : skipString ('\\' :: text) = skipString rest := by
  cases text with
  | nil => cases h
  | cons d body =>
      cases hshort : shortEscape? d with
      | some e =>
          simp only [readEscape, hshort] at h
          cases h
          apply skipString_backslash
          simp only [skipEscape, hshort, Option.isSome_some, if_true]
      | none =>
          simp only [readEscape, hshort] at h
          split at h
          next hletter =>
            subst hletter
            obtain ⟨⟨unit, after⟩, hquad, h⟩ := exists_of_bind_eq_ok h
            rw [skipString_backslash (skipEscape_unit hquad)]
            simp only at h
            split at h
            · cases h
            · split at h
              · exact skipString_of_readTrailing h
              · cases h
                rfl
          next => cases h

/-- A string that can be read can be skipped, to the same place. -/
theorem skipString_of_readString {text body rest : List Char}
    (h : readString text = .ok (body, rest)) : skipString text = .ok rest := by
  fun_induction readString text generalizing body with
  | case1 => cases h
  | case2 after =>
      cases h
      rw [skipString]
      rfl
  | case3 => cases h
  | case4 text e after hescape _ _ ih =>
      obtain ⟨⟨body, tail⟩, hread, hpair⟩ := exists_of_map_eq_ok h
      cases hpair
      rw [skipString_of_readEscape hescape, ih hread]
  | case5 => cases h
  | case6 c after hquote hbackslash hcontrol ih =>
      obtain ⟨⟨body, tail⟩, hread, hpair⟩ := exists_of_map_eq_ok h
      cases hpair
      rw [skipString, if_neg hquote, if_neg hbackslash, if_neg hcontrol, ih hread]

/-! ## Numbers -/

section Numbers

variable {negative : Bool} {g : Gathered} {text rest : List Char} {n : Number}

theorem rest_of_finishFloat (h : finishFloat negative g text = .ok (n, rest)) : rest = text := by
  unfold finishFloat at h
  split at h <;> cases h
  rfl

theorem skipExponent_of_readExponent (h : readExponent negative g text = .ok (n, rest)) :
    skipExponent text = .ok rest := by
  unfold readExponent at h
  split at h
  next down digits hsign =>
    split at h
    · cases h
    next c tail =>
      split at h
      · cases h
      next hdigit =>
        replace hdigit : c.isDigit = true := by simpa using hdigit
        have hrest : rest = (c :: tail).dropWhile Char.isDigit := by
          split at h
          · exact rest_of_finishFloat h
          · split at h
            · cases h
            · exact rest_of_finishFloat h
        unfold skipExponent
        split at hsign
        all_goals
          cases hsign
          simp only [hdigit, if_true, hrest]

theorem skipScale_of_readScale (h : readScale negative g text = .ok (n, rest)) :
    skipScale text = .ok rest := by
  unfold readScale at h
  unfold skipScale
  split at h
  · exact skipExponent_of_readExponent h
  · exact skipExponent_of_readExponent h
  · rw [rest_of_finishFloat h]

theorem skipTail_of_readTail (h : readTail negative g text = .ok (n, rest)) :
    skipTail text = .ok rest := by
  unfold readTail at h
  split at h
  next after =>
    rw [skipTail]
    unfold readFraction at h
    simp only at h ⊢
    split at h
    · cases h
    next hdigits =>
      rw [if_neg hdigits]
      exact skipScale_of_readScale h
  next => exact skipScale_of_readScale h
  next => exact skipScale_of_readScale h
  next hpoint hsmall hcapital =>
    have hrest : rest = text := by
      split at h
      · split at h
        · cases h
          rfl
        · exact rest_of_finishFloat h
      · exact rest_of_finishFloat h
    subst hrest
    unfold skipTail
    split
    · exact absurd rfl (hpoint _)
    · unfold skipScale
      split
      · exact absurd rfl (hsmall _)
      · exact absurd rfl (hcapital _)
      · rfl

/-- A number that can be read can be skipped, to the same place. -/
theorem skipNumber_of_readNumber (h : readNumber negative text = .ok (n, rest)) :
    skipNumber text = .ok rest := by
  unfold readNumber at h
  unfold skipNumber
  split at h
  · cases h
  next c after =>
    split at h
    next hzero =>
      rw [if_pos hzero]
      split at h
      next d tail =>
        split at h
        · cases h
        next hdigit =>
          simp only [hdigit]
          exact skipTail_of_readTail h
      next => exact skipTail_of_readTail h
    next hzero =>
      rw [if_neg hzero]
      split at h
      next hdigit =>
        rw [if_pos hdigit]
        rw [← List.dropWhile_cons_of_pos hdigit]
        exact skipTail_of_readTail h
      next => cases h

end Numbers

/-! ## Scalars -/

/-- A scalar that can be read can be skipped, to the same place. -/
theorem skipScalar_of_readScalar {text rest : List Char} {document : Json}
    (h : readScalar text = .ok (document, rest)) : skipScalar text = .ok rest := by
  unfold readScalar at h
  split at h
  · cases h
  · obtain ⟨after, hword, h⟩ := exists_of_bind_eq_ok h
    cases h
    exact hword
  · obtain ⟨after, hword, h⟩ := exists_of_bind_eq_ok h
    cases h
    exact hword
  · obtain ⟨after, hword, h⟩ := exists_of_bind_eq_ok h
    cases h
    exact hword
  · obtain ⟨⟨body, after⟩, hstring, h⟩ := exists_of_bind_eq_ok h
    cases h
    exact skipString_of_readString hstring
  · obtain ⟨⟨number, after⟩, hnumber, h⟩ := exists_of_bind_eq_ok h
    cases h
    exact skipNumber_of_readNumber hnumber
  next c tail _ _ _ _ _ =>
    split at h
    next hdigit =>
      obtain ⟨⟨number, after⟩, hnumber, h⟩ := exists_of_bind_eq_ok h
      cases h
      unfold skipScalar
      simp only [hdigit, if_true]
      exact skipNumber_of_readNumber hnumber
    next => cases h

section Lengths

variable {text rest : List Char}

theorem length_of_readWord {letters : List Char} (h : readWord letters text = .ok rest) :
    rest.length ≤ text.length := by
  induction letters generalizing text with
  | nil =>
      cases h
      exact Nat.le_refl _
  | cons letter letters ih =>
      cases text with
      | nil => cases h
      | cons c text =>
          rw [readWord] at h
          split at h
          · exact Nat.le_succ_of_le (ih h)
          · cases h

theorem length_of_skipString (h : skipString text = .ok rest) : rest.length < text.length := by
  fun_induction skipString text with
  | case1 => cases h
  | case2 after =>
      cases h
      exact Nat.lt_succ_self _
  | case3 => cases h
  | case4 text _ after hescape hshorter ih =>
      have := ih h
      rw [List.length_cons]
      omega
  | case5 => cases h
  | case6 c after _ _ _ ih => exact Nat.lt_succ_of_lt (ih h)

theorem length_dropWhile_le (p : Char → Bool) (text : List Char) :
    (text.dropWhile p).length ≤ text.length :=
  (List.dropWhile_sublist p).length_le

theorem length_of_skipExponent (h : skipExponent text = .ok rest) : rest.length ≤ text.length := by
  unfold skipExponent at h
  simp only at h
  split at h
  · cases h
  next c tail hsign =>
    have hlength : (c :: tail).length ≤ text.length := by
      rw [← hsign]
      split <;> simp
    split at h
    · cases h
      rw [hsign]
      exact Nat.le_trans (length_dropWhile_le _ _) hlength
    · cases h

theorem length_of_skipScale (h : skipScale text = .ok rest) : rest.length ≤ text.length := by
  unfold skipScale at h
  split at h
  · exact Nat.le_succ_of_le (length_of_skipExponent h)
  · exact Nat.le_succ_of_le (length_of_skipExponent h)
  · cases h
    exact Nat.le_refl _

theorem length_of_skipTail (h : skipTail text = .ok rest) : rest.length ≤ text.length := by
  unfold skipTail at h
  split at h
  next after =>
    simp only at h
    split at h
    · cases h
    · exact Nat.le_succ_of_le (Nat.le_trans (length_of_skipScale h) (length_dropWhile_le _ _))
  · exact length_of_skipScale h

theorem length_of_skipNumber (h : skipNumber text = .ok rest) : rest.length < text.length := by
  unfold skipNumber at h
  split at h
  · cases h
  next c after =>
    rw [List.length_cons, Nat.lt_succ_iff]
    split at h
    · split at h
      · split at h
        · cases h
        · exact length_of_skipTail h
      · cases h
        exact Nat.le_refl _
    · split at h
      · exact Nat.le_trans (length_of_skipTail h) (length_dropWhile_le _ _)
      · cases h

theorem length_of_skipScalar (h : skipScalar text = .ok rest) : rest.length < text.length := by
  unfold skipScalar at h
  split at h
  · cases h
  · exact Nat.lt_succ_of_le (length_of_readWord h)
  · exact Nat.lt_succ_of_le (length_of_readWord h)
  · exact Nat.lt_succ_of_le (length_of_readWord h)
  · exact Nat.lt_succ_of_lt (length_of_skipString h)
  · exact Nat.lt_succ_of_lt (length_of_skipNumber h)
  · split at h
    · exact length_of_skipNumber h
    · cases h

end Lengths

end ProtocolCodec.Json
