import Mathlib.Data.List.DropRight
import ProtocolCodec.Text.Blank

/-!
# Lines and trimmed text

Lines are cut at line feeds, so none is left in them, and they keep every character of the text that
is not blank. A carriage return stays in its line unless the line feed follows. Trimming leaves a
text without blanks at either end; blanks inside, line ends among them, are no concern of it.
-/

namespace ProtocolCodec.Text

/-! ## Trimming -/

section

variable {text : List Char} {c : Char}

theorem trimEnd_eq_nil_iff : trimEnd text = [] ↔ ∀ c ∈ text, isBlank c = true :=
  List.rdropWhile_eq_nil_iff

/-- Only blanks are dropped at the end. -/
theorem exists_eq_trimEnd_append (text : List Char) :
    ∃ blanks, text = trimEnd text ++ blanks ∧ ∀ c ∈ blanks, isBlank c = true := by
  refine ⟨(text.reverse.takeWhile isBlank).reverse, ?_, ?_⟩
  · rw [trimEnd, ← List.reverse_append, List.takeWhile_append_dropWhile, List.reverse_reverse]
  · intro c hc
    exact List.mem_takeWhile_imp (List.mem_reverse.mp hc)

theorem isBlank_of_mem_drop_trimEnd (h : c ∈ text.drop (trimEnd text).length) :
    isBlank c = true := by
  obtain ⟨blanks, htext, hblanks⟩ := exists_eq_trimEnd_append text
  generalize trimEnd text = front at h htext
  rw [htext, List.drop_left] at h
  exact hblanks c h

/-- What is left at the end is not blank. -/
theorem isBlank_getLast?_trimEnd (h : c ∈ (trimEnd text).getLast?) : isBlank c = false := by
  have hne : trimEnd text ≠ [] := by
    rintro hnil
    rw [hnil] at h
    cases h
  rw [List.getLast?_eq_some_getLast hne, Option.mem_some_iff] at h
  rw [← h, Bool.eq_false_iff]
  exact List.rdropWhile_last_not isBlank text hne

theorem isBlank_head?_trimStart (h : c ∈ (trimStart text).head?) : isBlank c = false := by
  have hhead := List.head?_dropWhile_not isBlank text
  rw [trimStart, Option.mem_def] at h
  rwa [h] at hhead

/-- What stands before a text that is not blank is kept. -/
theorem trimEnd_append {front back : List Char} (h : ∃ c ∈ back, isBlank c = false) :
    trimEnd (front ++ back) = front ++ trimEnd back := by
  have hne : (back.reverse.dropWhile isBlank).isEmpty = false := by
    obtain ⟨c, hc, hblank⟩ := h
    rw [List.isEmpty_eq_false_iff, ne_eq, List.dropWhile_eq_nil_iff]
    intro hall
    rw [hall c (List.mem_reverse.mpr hc)] at hblank
    cases hblank
  rw [trimEnd, List.reverse_append, List.dropWhile_append, hne, if_neg Bool.false_ne_true,
    List.reverse_append, List.reverse_reverse]
  rfl

/-- A blank survives at the end just when something that is not blank follows it. -/
theorem mem_trimEnd_iff (hc : isBlank c = true) :
    c ∈ trimEnd text ↔
      ∃ before after, text = before ++ c :: after ∧ ∃ d ∈ after, isBlank d = false := by
  constructor
  · intro hmem
    obtain ⟨blanks, htext, -⟩ := exists_eq_trimEnd_append text
    obtain ⟨before, after, hsplit⟩ := List.append_of_mem hmem
    have hlast : ∀ d ∈ (trimEnd text).getLast?, isBlank d = false :=
      fun d hd => isBlank_getLast?_trimEnd hd
    rw [hsplit] at htext hlast
    refine ⟨before, after ++ blanks, by rw [htext]; simp, ?_⟩
    rcases List.eq_nil_or_concat' after with rfl | ⟨inner, d, rfl⟩
    · rw [hlast c (by simp)] at hc
      cases hc
    · refine ⟨d, by simp, hlast d ?_⟩
      rw [← List.cons_append, ← List.append_assoc, List.getLast?_concat]
      exact rfl
  · rintro ⟨before, after, rfl, hafter⟩
    rw [List.append_cons, trimEnd_append hafter]
    simp

theorem head?_trimEnd (h : trimEnd text ≠ []) : (trimEnd text).head? = text.head? := by
  obtain ⟨blanks, htext, -⟩ := exists_eq_trimEnd_append text
  rw [← List.head?_append_of_ne_nil (trimEnd text) h, ← htext]

theorem trimEnd_ne_nil (hhead : c ∈ text.head?) (hc : isBlank c = false) : trimEnd text ≠ [] := by
  intro hnil
  have hblank := trimEnd_eq_nil_iff.mp hnil c (List.mem_of_mem_head? hhead)
  rw [hc] at hblank
  cases hblank

theorem mem_of_mem_trim (h : c ∈ trim text) : c ∈ text := by
  obtain ⟨blanks, hstart, -⟩ := exists_eq_trimEnd_append (trimStart text)
  have hmem : c ∈ trimStart text := by
    rw [hstart]
    exact List.mem_append_left _ h
  exact (List.dropWhile_sublist isBlank).mem hmem

theorem isBlank_head?_trim (h : c ∈ (trim text).head?) : isBlank c = false := by
  have hne : trim text ≠ [] := by
    intro hnil
    rw [hnil] at h
    cases h
  rw [trim, head?_trimEnd hne] at h
  exact isBlank_head?_trimStart h

/-- Nothing is left of a text just when it is blank. -/
theorem trim_eq_nil_iff : trim text = [] ↔ ∀ c ∈ text, isBlank c = true := by
  rw [trim, trimEnd_eq_nil_iff]
  constructor
  · intro h
    rw [← List.dropWhile_eq_nil_iff]
    cases hstart : trimStart text with
    | nil => exact hstart
    | cons c rest =>
        have hfirst : isBlank c = false := isBlank_head?_trimStart (by rw [hstart]; rfl)
        rw [h c (by rw [hstart]; exact List.mem_cons_self)] at hfirst
        cases hfirst
  · intro h c hc
    exact h c ((List.dropWhile_sublist isBlank).mem hc)

end

/-! ## Lines -/

section

variable {text piece line : List Char} {c : Char}

theorem segments_ne_nil (text : List Char) : segments text ≠ [] := by
  cases text with
  | nil => exact List.cons_ne_nil _ _
  | cons c rest =>
      rw [segments]
      split
      · exact List.cons_ne_nil _ _
      · split <;> exact List.cons_ne_nil _ _

/-- Splitting at line feeds, one character at a time. -/
theorem segments_cons (c : Char) (rest : List Char) :
    ∃ first others, segments rest = first :: others ∧
      segments (c :: rest) =
        if c = '\n' then [] :: first :: others else (c :: first) :: others := by
  obtain ⟨first, others, hrest⟩ := List.exists_cons_of_ne_nil (segments_ne_nil rest)
  exact ⟨first, others, hrest, by rw [segments, hrest]⟩

/-- No segment holds a line feed. -/
theorem notMem_of_mem_segments (h : piece ∈ segments text) : '\n' ∉ piece := by
  induction text generalizing piece with
  | nil =>
      rw [segments, List.mem_singleton] at h
      rw [h]
      exact List.not_mem_nil
  | cons c rest ih =>
      obtain ⟨first, others, hrest, hsegments⟩ := segments_cons c rest
      rw [hrest] at ih
      rw [hsegments] at h
      split at h
      next =>
        rcases List.mem_cons.mp h with rfl | h
        · exact List.not_mem_nil
        · exact ih h
      next hc =>
        rcases List.mem_cons.mp h with rfl | h
        · rw [List.mem_cons, not_or]
          exact ⟨Ne.symm hc, ih List.mem_cons_self⟩
        · exact ih (List.mem_cons_of_mem _ h)

/-- The pieces hold the characters of the text, line feeds apart. -/
theorem mem_flatten_segments_iff (text : List Char) (hc : c ≠ '\n') :
    c ∈ (segments text).flatten ↔ c ∈ text := by
  induction text with
  | nil => simp [segments]
  | cons d rest ih =>
      obtain ⟨first, others, hrest, hsegments⟩ := segments_cons d rest
      rw [hrest] at ih
      rw [hsegments, List.mem_cons, ← ih]
      split
      next hd => simp [hd, hc]
      next => simp

theorem mem_dropReturn_iff (hc : c ≠ '\r') : c ∈ dropReturn line ↔ c ∈ line := by
  unfold dropReturn
  split
  next hlast =>
    obtain ⟨front, rfl⟩ := List.getLast?_eq_some_iff.mp hlast
    simp [hc]
  next => exact Iff.rfl

/-- The lines are the pieces between line feeds: all but the last without a carriage return at their
end, the last as it is unless it is empty. -/
theorem exists_lines_eq (text : List Char) :
    ∃ front final, segments text = front ++ [final] ∧
      lines text = front.map dropReturn ++ (if final.isEmpty then [] else [final]) := by
  rcases List.eq_nil_or_concat' (segments text) with hnil | ⟨front, final, hsegments⟩
  · exact absurd hnil (segments_ne_nil text)
  · refine ⟨front, final, hsegments, ?_⟩
    rw [lines, hsegments, List.dropLast_concat, List.getLast?_concat, Option.getD_some]

/-- No line holds a line feed. -/
theorem notMem_of_mem_lines (h : line ∈ lines text) : '\n' ∉ line := by
  obtain ⟨front, final, hsegments, hlines⟩ := exists_lines_eq text
  rw [hlines, List.mem_append, List.mem_map] at h
  rcases h with ⟨piece, hpiece, rfl⟩ | h
  · have hmem : piece ∈ segments text := by
      rw [hsegments]
      exact List.mem_append_left _ hpiece
    rw [mem_dropReturn_iff (by decide)]
    exact notMem_of_mem_segments hmem
  · split at h
    next => cases h
    next =>
      have hmem : line ∈ segments text := by
        rw [hsegments]
        exact List.mem_append_right _ h
      exact notMem_of_mem_segments hmem

/-- Lines hold every character of the text that is not blank, and those of line ends are blank. -/
theorem mem_flatten_lines_iff (hc : isBlank c = false) :
    c ∈ (lines text).flatten ↔ c ∈ text := by
  have hfeed : c ≠ '\n' := by
    rintro rfl
    exact absurd hc (by decide)
  have hreturn : c ≠ '\r' := by
    rintro rfl
    exact absurd hc (by decide)
  obtain ⟨front, final, hsegments, hlines⟩ := exists_lines_eq text
  have hfinal : (if final.isEmpty then [] else [final]).flatten = final := by
    cases final <;> simp
  rw [← mem_flatten_segments_iff text hfeed, hsegments, hlines, List.flatten_append,
    List.flatten_append, hfinal, List.flatten_singleton, List.mem_append, List.mem_append]
  simp [mem_dropReturn_iff hreturn]

/-- A text is blank just when all its lines are. -/
theorem forall_trim_lines_eq_nil_iff :
    (∀ line ∈ lines text, trim line = []) ↔ ∀ c ∈ text, isBlank c = true := by
  calc (∀ line ∈ lines text, trim line = [])
      ↔ ∀ c ∈ (lines text).flatten, isBlank c = true := by
        simp only [trim_eq_nil_iff, List.forall_mem_flatten]
    _ ↔ ∀ c ∈ text, isBlank c = true := by
        apply forall_congr'
        intro c
        cases hc : isBlank c with
        | false => rw [mem_flatten_lines_iff hc]
        | true => simp

end

end ProtocolCodec.Text
