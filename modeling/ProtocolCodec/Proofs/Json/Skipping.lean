import ProtocolCodec.Proofs.Json.Spelling

/-!
# Passing over what can be read

Passing over a value takes less than reading it. So wherever a value can be read, passing over it
ends at the same place, and two steps for each character are enough.
-/

namespace ProtocolCodec.Json

variable {width : Nat} {first : Bool} {text rest : List Char} {document : Json}

/-- The machine gets from one place to another, in no more than two steps for each character between
them, less some to spare. -/
def Passes (spare : Nat) (expecting : Expecting) (frames : List Frame) (text rest : List Char) :
    Prop :=
  ∃ steps, 0 < steps ∧ steps + spare + 2 * rest.length ≤ 2 * text.length ∧
    ∀ fuel stack, skipFrom (steps + fuel) expecting (frames ++ stack) text =
      skipFrom fuel .separator stack rest

/-- A walk that passes with less to spare passes with more. -/
theorem Passes.spend {spare less : Nat} {expecting : Expecting} {frames : List Frame}
    (h : Passes spare expecting frames text rest) (hless : less ≤ spare) :
    Passes less expecting frames text rest := by
  obtain ⟨steps, hpositive, hsteps, hskip⟩ := h
  exact ⟨steps, hpositive, by omega, hskip⟩

/-- A walk that expects a value passes over a scalar. -/
theorem passes_scalar (hbracket : ∀ tail, skipSpace text ≠ '[' :: tail)
    (hbrace : ∀ tail, skipSpace text ≠ '\x7b' :: tail)
    (hscalar : readScalar (skipSpace text) = .ok (document, rest)) :
    Passes 0 .value [] text rest := by
  have hskip := skipScalar_of_readScalar hscalar
  have hlength := length_of_skipScalar hskip
  have hspace := length_skipSpace_le text
  refine ⟨1, Nat.one_pos, by omega, ?_⟩
  intro fuel stack
  rw [Nat.add_comm, skipFrom]
  split
  next heq => exact absurd heq (hbracket _)
  next heq => exact absurd heq (hbrace _)
  next => rw [hskip, List.nil_append]

/-- What the machine expects inside a frame: at first an entry, then a separator. -/
def expectingNext (first : Bool) : Expecting :=
  if first then .entry else .separator

/-- The end of an array or object. -/
theorem passes_close {frame : Frame} (hspace : skipSpace text = frame.closing :: rest)
    (first : Bool) : Passes 1 (expectingNext first) [frame] text rest := by
  have hlength := length_skipSpace_le text
  rw [hspace, List.length_cons] at hlength
  refine ⟨1, Nat.one_pos, by omega, ?_⟩
  intro fuel stack
  have hcomma : frame.closing ≠ ',' := by cases frame <;> decide
  rw [Nat.add_comm]
  cases first with
  | true => simp only [expectingNext, if_true, List.singleton_append, skipFrom, hspace]
  | false =>
      simp only [expectingNext, Bool.false_eq_true, if_false, List.singleton_append, skipFrom,
        hspace, hcomma, if_true]

/-- An entry that comes first, and what follows it. -/
theorem passes_first {frame : Frame} {c : Char} {after tail : List Char}
    (hspace : skipSpace text = c :: after) (hclose : c ≠ frame.closing)
    (hentry : Passes 0 frame.begins [] (c :: after) tail)
    (hothers : Passes 1 .separator [frame] tail rest) : Passes 0 .entry [frame] text rest := by
  obtain ⟨entry, _, hentrySteps, hskipEntry⟩ := hentry
  obtain ⟨others, _, hothersSteps, hskipOthers⟩ := hothers
  have hlength := length_skipSpace_le text
  rw [hspace] at hlength
  refine ⟨entry + others + 1, by omega, by omega, ?_⟩
  intro fuel stack
  have hsteps : entry + others + 1 + fuel = entry + (others + fuel) + 1 := by omega
  rw [hsteps, List.singleton_append, skipFrom]
  simp only [hspace, hclose, if_false]
  exact (hskipEntry _ _).trans (hskipOthers _ _)

/-- An entry behind a comma, and what follows it. -/
theorem passes_comma {frame : Frame} {after tail : List Char}
    (hspace : skipSpace text = ',' :: after) (hentry : Passes 0 frame.begins [] after tail)
    (hothers : Passes 1 .separator [frame] tail rest) : Passes 1 .separator [frame] text rest := by
  obtain ⟨entry, _, hentrySteps, hskipEntry⟩ := hentry
  obtain ⟨others, _, hothersSteps, hskipOthers⟩ := hothers
  have hlength := length_skipSpace_le text
  rw [hspace, List.length_cons] at hlength
  refine ⟨entry + others + 1, by omega, by omega, ?_⟩
  intro fuel stack
  have hsteps : entry + others + 1 + fuel = entry + (others + fuel) + 1 := by omega
  rw [hsteps, List.singleton_append, skipFrom]
  simp only [hspace, if_true]
  exact (hskipEntry _ _).trans (hskipOthers _ _)

theorem passes_value_of_skipSpace (h : Passes 0 .value [] (skipSpace text) rest) :
    Passes 0 .value [] text rest := by
  obtain ⟨steps, hpositive, hsteps, hskip⟩ := h
  have hlength := length_skipSpace_le text
  refine ⟨steps, hpositive, by omega, ?_⟩
  intro fuel stack
  rw [← hskip]
  obtain ⟨fewer, rfl⟩ := Nat.exists_eq_add_one.mpr hpositive
  rw [Nat.add_right_comm, skipFrom, skipFrom, skipSpace_skipSpace]

/-- A key, its colon and its value. -/
theorem passes_key {body after content tail chars : List Char}
    (hspace : skipSpace text = '"' :: body) (hstring : readString body = .ok (chars, after))
    (hcolon : readColon after = .ok content) (hvalue : Passes 0 .value [] content tail) :
    Passes 0 .key [] text tail := by
  have hkey : skipKey text = .ok content := by
    rw [skipKey, hspace]
    simp only [if_true, skipString_of_readString hstring, bind, Except.bind, hcolon]
  have hlength := length_skipSpace_le text
  have hbody := length_of_skipString (skipString_of_readString hstring)
  have hafter := length_of_readColon hcolon
  rw [hspace, List.length_cons] at hlength
  obtain ⟨steps, _, hsteps, hskip⟩ := hvalue
  refine ⟨steps + 1, Nat.succ_pos _, by omega, ?_⟩
  intro fuel stack
  rw [Nat.add_right_comm, skipFrom, hkey]
  exact hskip _ _

/-- A walk passes over the items of an array and out of it. -/
theorem Items.passes {items : List Json} {tail : List Char}
    (h : Items (fun text _ rest => Passes 0 .value [] text rest) first text items tail)
    (hclose : closeList tail = .ok rest) :
    Passes (if first then 0 else 1) (expectingNext first) [.list] text rest := by
  induction h with
  | @done first text tail hnext =>
      rcases nextItem_cases hnext with ⟨_, after, hspace, rfl⟩ | ⟨hmore, _⟩ | ⟨hmore, _⟩
      · rw [closeList_eq_ok_iff, skipSpace_cons (by decide), List.cons.injEq] at hclose
        rw [hclose.2] at hspace
        exact (passes_close hspace first).spend (by split <;> decide)
      · cases hmore
      · cases hmore
  | @next first text body tail _ _ _ hnext hvalue _ ih =>
      rcases nextItem_cases hnext with ⟨hmore, _⟩ | ⟨_, rfl, c, after, hbracket, hspace, rfl⟩ |
        ⟨_, rfl, after, hspace, rfl⟩
      · cases hmore
      · exact passes_first hspace hbracket hvalue (ih hclose)
      · exact passes_comma hspace (passes_value_of_skipSpace hvalue) (ih hclose)

/-- A walk passes over the members of an object and out of it. -/
theorem Entries.passes {members : Members} {tail : List Char}
    (h : Entries (fun text _ rest => Passes 0 .value [] text rest) first text members tail)
    (hclose : closeObject tail = .ok rest) :
    Passes (if first then 0 else 1) (expectingNext first) [.object] text rest := by
  induction h with
  | @done first text tail hkey =>
      obtain ⟨after, hspace, rfl⟩ := readKey_eq_none hkey
      have hrest := closeObject_eq_ok hclose
      rw [skipSpace_cons (by decide), List.cons.injEq] at hrest
      rw [hrest.2] at hspace
      exact (passes_close hspace first).spend (by split <;> decide)
  | next hkey hcolon hvalue _ ih =>
      obtain ⟨body, chars, hstring, ⟨rfl, hspace⟩ | ⟨rfl, after, hspace, hquote⟩⟩ :=
        readKey_eq_some hkey
      · have hself : skipSpace ('"' :: body) = '"' :: body := skipSpace_cons (by decide) body
        exact passes_first hspace (by decide) (passes_key hself hstring hcolon hvalue) (ih hclose)
      · exact passes_comma hspace (passes_key hquote hstring hcolon hvalue) (ih hclose)

/-- The opening of an array or object, and what is inside it. -/
theorem passes_open {frame : Frame} {c : Char} {body : List Char}
    (hopen : frame = .list ∧ c = '[' ∨ frame = .object ∧ c = '\x7b')
    (hspace : skipSpace text = c :: body) (hinside : Passes 0 .entry [frame] body rest) :
    Passes 0 .value [] text rest := by
  obtain ⟨steps, _, hsteps, hskip⟩ := hinside
  have hlength := length_skipSpace_le text
  rw [hspace, List.length_cons] at hlength
  refine ⟨steps + 1, Nat.succ_pos _, by omega, ?_⟩
  intro fuel stack
  rw [Nat.add_right_comm, ← hskip]
  rcases hopen with ⟨rfl, rfl⟩ | ⟨rfl, rfl⟩
  all_goals
    rw [skipFrom, hspace]
    rfl

/-- A value that can be read is passed over. -/
theorem Spells.passes (h : Spells width text document rest) : Passes 0 .value [] text rest := by
  refine Spells.induction (P := fun text _ rest => Passes 0 .value [] text rest) ?_ h
  intro text document rest hlevel
  cases hlevel with
  | scalar hbracket hbrace hscalar => exact passes_scalar hbracket hbrace hscalar
  | array hbody _ hitems hclose =>
      exact passes_open (.inl ⟨rfl, rfl⟩) hbody
        ((hitems.mono fun _ _ _ hitem => hitem.2).passes hclose)
  | object hbody _ hmembers hclose =>
      exact passes_open (.inr ⟨rfl, rfl⟩) hbody
        ((hmembers.mono fun _ _ _ hmember => hmember.2).passes hclose)

/-- Whatever a text spells can be skipped. -/
theorem Spells.skipValue (h : Spells width text document rest) :
    skipValue width text = .ok rest := by
  obtain ⟨steps, _, hsteps, hskip⟩ := h.passes
  have hfits := h.fits
  obtain ⟨fuel, hfuel⟩ : ∃ fuel, 2 * width + 2 = steps + (fuel + 1) :=
    ⟨2 * width + 1 - steps, by omega⟩
  rw [Json.skipValue, hfuel]
  exact hskip (fuel + 1) []

end ProtocolCodec.Json
