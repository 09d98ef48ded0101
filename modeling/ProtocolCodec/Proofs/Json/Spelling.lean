import Mathlib.Data.List.DropRight
import ProtocolCodec.Proofs.Json.SkippedScalars

/-!
# What a text spells

A text spells a document when the reader of values reads it, at whatever depth. The text is then
made up level by level: a scalar, or a bracket and what is read between brackets. Other readers walk
over the same levels, so what they do is compared with the document that is spelled.
-/

namespace ProtocolCodec.Json

/-! ## What is read from an array or an object -/

section Walks

variable {Reads : List Char → Json → List Char → Prop} {first : Bool} {text rest : List Char}
  {items : List Json} {members : Members}

/-- The items of an array as they are read one after the other, up to its closing bracket. -/
inductive Items (Reads : List Char → Json → List Char → Prop) :
    Bool → List Char → List Json → List Char → Prop
  | done {first : Bool} {text rest : List Char} :
      nextItem first text = .ok (false, rest) → Items Reads first text [] rest
  | next {first : Bool} {text body tail rest : List Char} {item : Json} {items : List Json} :
      nextItem first text = .ok (true, body) → Reads body item tail →
        Items Reads false tail items rest → Items Reads first text (item :: items) rest

/-- The members of an object as they are read one after the other, up to its closing brace. -/
inductive Entries (Reads : List Char → Json → List Char → Prop) :
    Bool → List Char → Members → List Char → Prop
  | done {first : Bool} {text rest : List Char} :
      readKey first text = .ok (none, rest) → Entries Reads first text [] rest
  | next {first : Bool} {text body content tail rest : List Char} {key : String} {value : Json}
      {members : Members} :
      readKey first text = .ok (some key, body) → readColon body = .ok content →
        Reads content value tail → Entries Reads false tail members rest →
          Entries Reads first text ((key, value) :: members) rest

theorem skipSpace_skipSpace (text : List Char) : skipSpace (skipSpace text) = skipSpace text :=
  List.dropWhile_idempotent _ _

theorem length_skipSpace_le (text : List Char) : (skipSpace text).length ≤ text.length :=
  length_dropWhile_le _ _

/-- What is found on the way to the next item: the closing bracket, an item that comes first, or a
comma and an item. -/
theorem nextItem_cases {more : Bool} (h : nextItem first text = .ok (more, rest)) :
    (more = false ∧ ∃ after, skipSpace text = ']' :: after ∧ rest = ']' :: after) ∨
      (more = true ∧ first = true ∧
        ∃ c after, c ≠ ']' ∧ skipSpace text = c :: after ∧ rest = c :: after) ∨
      (more = true ∧ first = false ∧
        ∃ after, skipSpace text = ',' :: after ∧ rest = skipSpace after) := by
  unfold nextItem at h
  split at h
  · cases h
  next c after hspace =>
    split at h
    next hclose =>
      cases h
      subst hclose
      exact .inl ⟨rfl, after, hspace, rfl⟩
    next hclose =>
      split at h
      next hfirst =>
        cases h
        exact .inr (.inl ⟨rfl, hfirst, c, after, hclose, hspace, rfl⟩)
      next hfirst =>
        split at h
        next hcomma =>
          subst hcomma
          split at h
          · cases h
          next d tail hnext =>
            split at h
            · cases h
            · cases h
              exact .inr (.inr ⟨rfl, by simpa using hfirst, after, hspace, hnext.symm⟩)
        next => cases h

/-- There is no next member at the closing brace; otherwise its key begins with a quote, behind a
comma unless it is the first. -/
theorem nextMember_cases {more : Bool} (h : nextMember first text = .ok (more, rest)) :
    (more = false ∧ ∃ after, skipSpace text = '\x7d' :: after ∧ rest = '\x7d' :: after) ∨
      (more = true ∧ ∃ body, rest = '"' :: body ∧
        (first = true ∧ skipSpace text = '"' :: body ∨
          first = false ∧ ∃ after, skipSpace text = ',' :: after ∧
            skipSpace after = '"' :: body)) := by
  unfold nextMember at h
  split at h
  · cases h
  next c after hspace =>
    split at h
    next hclose =>
      cases h
      subst hclose
      exact .inl ⟨rfl, after, hspace, rfl⟩
    next hclose =>
      split at h
      next hfirst =>
        split at h
        next hquote =>
          cases h
          subst hquote
          exact .inr ⟨rfl, after, rfl, .inl ⟨hfirst, hspace⟩⟩
        next => cases h
      next hfirst =>
        split at h
        next hcomma =>
          subst hcomma
          split at h
          · cases h
          next d tail hnext =>
            split at h
            next hquote =>
              cases h
              subst hquote
              exact .inr ⟨rfl, tail, rfl, .inr ⟨by simpa using hfirst, after, hspace, hnext⟩⟩
            next => split at h <;> cases h
        next => cases h

theorem readKey_eq_none (h : readKey first text = .ok (none, rest)) :
    ∃ after, skipSpace text = '\x7d' :: after ∧ rest = '\x7d' :: after := by
  obtain ⟨⟨more, behind⟩, hnext, h⟩ := exists_of_bind_eq_ok h
  simp only at h
  split at h
  · obtain ⟨⟨chars, tail⟩, _, h⟩ := exists_of_bind_eq_ok h
    cases h
  · cases h
    rcases nextMember_cases hnext with ⟨_, hafter⟩ | ⟨hmore, _⟩
    · exact hafter
    · exact absurd hmore (by assumption)

/-- A key that is read stands in quotes, behind a comma unless it is the first. -/
theorem readKey_eq_some {key : String} (h : readKey first text = .ok (some key, rest)) :
    ∃ body chars, readString body = .ok (chars, rest) ∧
      (first = true ∧ skipSpace text = '"' :: body ∨
        first = false ∧ ∃ after, skipSpace text = ',' :: after ∧ skipSpace after = '"' :: body) := by
  obtain ⟨⟨more, behind⟩, hnext, h⟩ := exists_of_bind_eq_ok h
  simp only at h
  split at h
  next hmore =>
    obtain ⟨⟨chars, tail⟩, hstring, h⟩ := exists_of_bind_eq_ok h
    cases h
    rcases nextMember_cases hnext with ⟨hnone, _⟩ | ⟨_, body, hbehind, hplace⟩
    · rw [hnone] at hmore
      cases hmore
    · subst hbehind
      exact ⟨body, chars, hstring, hplace⟩
  next => cases h

theorem readColon_eq_ok (h : readColon text = .ok rest) : skipSpace text = ':' :: rest := by
  unfold readColon at h
  split at h
  · cases h
  next hspace =>
    split at h
    next hcolon =>
      cases h
      rw [hspace, hcolon]
    next => cases h

theorem closeList_eq_ok_iff : closeList text = .ok rest ↔ skipSpace text = ']' :: rest := by
  unfold closeList
  constructor
  · intro h
    split at h
    · cases h
    next hspace =>
      split at h
      next hclose =>
        cases h
        rw [hspace, hclose]
      next =>
        split at h
        · split at h <;> cases h
        · cases h
  · intro h
    simp only [h, if_true]

theorem closeObject_eq_ok (h : closeObject text = .ok rest) : skipSpace text = '\x7d' :: rest := by
  unfold closeObject at h
  split at h
  · cases h
  next hspace =>
    split at h
    next hclose =>
      cases h
      rw [hspace, hclose]
    next => split at h <;> cases h

theorem length_of_nextItem {more : Bool} (h : nextItem first text = .ok (more, rest)) :
    rest.length ≤ text.length := by
  have hspace := length_skipSpace_le text
  rcases nextItem_cases h with ⟨_, after, heq, rfl⟩ | ⟨_, _, c, after, _, heq, rfl⟩ |
    ⟨_, _, after, heq, rfl⟩
  · rwa [heq] at hspace
  · rwa [heq] at hspace
  · have := length_skipSpace_le after
    rw [heq, List.length_cons] at hspace
    omega

theorem length_of_readKey {key? : Option String} (h : readKey first text = .ok (key?, rest)) :
    rest.length ≤ text.length := by
  have hspace := length_skipSpace_le text
  cases key? with
  | none =>
      obtain ⟨after, heq, rfl⟩ := readKey_eq_none h
      rwa [heq] at hspace
  | some key =>
      obtain ⟨body, chars, hstring, ⟨_, heq⟩ | ⟨_, after, heq, hquote⟩⟩ := readKey_eq_some h
      all_goals
        have hshort := length_of_skipString (skipString_of_readString hstring)
        rw [heq, List.length_cons] at hspace
      · omega
      · have := length_skipSpace_le after
        rw [hquote, List.length_cons] at this
        omega

theorem length_of_readColon (h : readColon text = .ok rest) : rest.length < text.length := by
  have hspace := length_skipSpace_le text
  rw [readColon_eq_ok h, List.length_cons] at hspace
  omega

theorem length_of_closeList (h : closeList text = .ok rest) : rest.length < text.length := by
  have hspace := length_skipSpace_le text
  rw [closeList_eq_ok_iff.mp h, List.length_cons] at hspace
  omega

theorem length_of_closeObject (h : closeObject text = .ok rest) : rest.length < text.length := by
  have hspace := length_skipSpace_le text
  rw [closeObject_eq_ok h, List.length_cons] at hspace
  omega

section Monotone

variable {Others : List Char → Json → List Char → Prop}

/-- What is spelled item by item depends on the items only through how they are read. -/
theorem Items.mono (h : Items Reads first text items rest)
    (himp : ∀ text item rest, Reads text item rest → Others text item rest) :
    Items Others first text items rest := by
  induction h with
  | done hnext => exact .done hnext
  | next hnext hread _ ih => exact .next hnext (himp _ _ _ hread) ih

theorem Entries.mono (h : Entries Reads first text members rest)
    (himp : ∀ text value rest, Reads text value rest → Others text value rest) :
    Entries Others first text members rest := by
  induction h with
  | done hkey => exact .done hkey
  | next hkey hcolon hread _ ih => exact .next hkey hcolon (himp _ _ _ hread) ih

end Monotone

section Shortening

variable (hreads : ∀ text document rest, Reads text document rest → rest.length < text.length)

include hreads

theorem Items.length_le (h : Items Reads first text items rest) : rest.length ≤ text.length := by
  induction h with
  | done hnext => exact length_of_nextItem hnext
  | next hnext hread _ ih =>
      have := length_of_nextItem hnext
      have := hreads _ _ _ hread
      omega

theorem Entries.length_le (h : Entries Reads first text members rest) :
    rest.length ≤ text.length := by
  induction h with
  | done hkey => exact length_of_readKey hkey
  | next hkey hcolon hread _ ih =>
      have := length_of_readKey hkey
      have := length_of_readColon hcolon
      have := hreads _ _ _ hread
      omega

/-- The items are no longer than the text that they are read from. -/
theorem Items.within {width : Nat} (h : Items Reads first text items rest)
    (hfits : text.length < width) :
    Items (fun text item rest => text.length < width ∧ Reads text item rest) first text items
      rest := by
  induction h with
  | done hnext => exact .done hnext
  | next hnext hread _ ih =>
      have := length_of_nextItem hnext
      have := hreads _ _ _ hread
      exact .next hnext ⟨by omega, hread⟩ (ih (by omega))

/-- Where a text fits the width, so does the text of each of its members. -/
theorem Entries.within {width : Nat} (h : Entries Reads first text members rest)
    (hfits : text.length < width) :
    Entries (fun text value rest => text.length < width ∧ Reads text value rest) first text members
      rest := by
  induction h with
  | done hkey => exact .done hkey
  | next hkey hcolon hread _ ih =>
      have := length_of_readKey hkey
      have := length_of_readColon hcolon
      have := hreads _ _ _ hread
      exact .next hkey hcolon ⟨by omega, hread⟩ (ih (by omega))

end Shortening

theorem inside_eq_ok_iff {α : Type} {segment : Segment} {outcome : Outcome α} {a : α} :
    inside segment outcome = .ok a ↔ outcome = .ok a := by
  cases outcome <;> simp [inside, Except.mapError]

/-- What the walk over an array has collected are its items. -/
theorem items_of_foldItems {width below count index : Nat} {done final : List Json}
    (h : foldItems (collectItem readValue width below) count index done text = .ok (final, rest)) :
    ∃ items, final = items.reverse ++ done ∧ items.length < count ∧
      Items (fun text item rest => readValue width below text = .ok (item, rest)) (index == 0) text
        items rest := by
  induction count generalizing index done text with
  | zero => cases h
  | succ count ih =>
      cases hnext : nextItem (index == 0) text with
      | error f =>
          rw [foldItems, hnext] at h
          cases h
      | ok pair =>
          obtain ⟨more, body⟩ := pair
          cases more with
          | false =>
              rw [foldItems, hnext] at h
              cases h
              exact ⟨[], rfl, Nat.succ_pos _, .done hnext⟩
          | true =>
              rw [foldItems_next hnext] at h
              obtain ⟨⟨state, tail⟩, hitem, hothers⟩ := exists_of_bind_eq_ok h
              obtain ⟨⟨item, tail⟩, hread, hpair⟩ :=
                exists_of_bind_eq_ok (inside_eq_ok_iff.mp hitem)
              cases hpair
              obtain ⟨items, rfl, hlength, hitems⟩ := ih hothers
              refine ⟨item :: items, ?_, Nat.succ_lt_succ hlength, .next hnext hread hitems⟩
              rw [List.reverse_cons, List.append_assoc, List.singleton_append]

/-- What the walk over an object has collected are its members. -/
theorem entries_of_foldMembers {width below count : Nat} {done final : Members}
    (h : foldMembers (collectMember width below) count first done text = .ok (final, rest)) :
    ∃ members, final = members.reverse ++ done ∧ members.length < count ∧
      Entries (fun text value rest => readValue width below text = .ok (value, rest)) first text
        members rest := by
  induction count generalizing first done text with
  | zero => cases h
  | succ count ih =>
      cases hkey : readKey first text with
      | error f =>
          rw [foldMembers, hkey] at h
          cases h
      | ok pair =>
          obtain ⟨key?, body⟩ := pair
          cases key? with
          | none =>
              rw [foldMembers, hkey] at h
              cases h
              exact ⟨[], rfl, Nat.succ_pos _, .done hkey⟩
          | some key =>
              rw [foldMembers_next hkey] at h
              obtain ⟨⟨state, tail⟩, hmember, hothers⟩ := exists_of_bind_eq_ok h
              obtain ⟨⟨value, tail⟩, hread, hpair⟩ := exists_of_bind_eq_ok hmember
              cases hpair
              unfold readMember at hread
              split at hread
              · cases hread
              next content hcolon =>
                obtain ⟨members, rfl, hlength, hmembers⟩ := ih hothers
                refine ⟨(key, value) :: members, ?_, Nat.succ_lt_succ hlength,
                  .next hkey hcolon (inside_eq_ok_iff.mp hread) hmembers⟩
                rw [List.reverse_cons, List.append_assoc, List.singleton_append]

/-- What is read from an array is read inside it, up to the closing bracket. -/
theorem inList_eq_ok {α : Type} {body : List Char → Outcome (α × List Char)} {a : α}
    (h : inList text body = .ok (a, rest)) :
    ∃ tail, body text = .ok (a, tail) ∧ closeList tail = .ok rest := by
  unfold inList at h
  split at h
  · cases h
  next hbody =>
    split at h
    · cases h
    next hclose =>
      cases h
      exact ⟨_, hbody, hclose⟩

/-- What is read from an object is read inside it, up to the closing brace. -/
theorem inObject_eq_ok {α : Type} {body : List Char → Outcome (α × List Char)} {a : α}
    (h : inObject text body = .ok (a, rest)) :
    ∃ tail, body text = .ok (a, tail) ∧ closeObject tail = .ok rest := by
  unfold inObject at h
  split at h
  · cases h
  next hbody =>
    split at h
    · cases h
    next hclose =>
      cases h
      exact ⟨_, hbody, hclose⟩

end Walks

/-! ## What is read as a value -/

section Values

variable {width limit : Nat} {text rest : List Char} {document : Json}

theorem readValue_skipSpace (width depth : Nat) (text : List Char) :
    readValue width depth (skipSpace text) = readValue width depth text := by
  cases depth <;> rw [readValue, readValue, skipSpace_skipSpace]

/-- The outermost level of a text that is read as a document: a scalar, or a bracket with what is
read from inside it. -/
inductive Level (width : Nat) (Reads : List Char → Json → List Char → Prop) :
    List Char → Json → List Char → Prop
  | scalar {text rest : List Char} {document : Json} :
      (∀ tail, skipSpace text ≠ '[' :: tail) → (∀ tail, skipSpace text ≠ '\x7b' :: tail) →
        readScalar (skipSpace text) = .ok (document, rest) → Level width Reads text document rest
  | array {text body tail rest : List Char} {items : List Json} :
      skipSpace text = '[' :: body → items.length < width → Items Reads true body items tail →
        closeList tail = .ok rest → Level width Reads text (.array items) rest
  | object {text body tail rest : List Char} {members : Members} :
      skipSpace text = '\x7b' :: body → members.length < width →
        Entries Reads true body members tail → closeObject tail = .ok rest →
          Level width Reads text (.object members) rest

/-- One level of what is read: the items or members are read at a lower limit. -/
theorem level_of_readValue (h : readValue width limit text = .ok (document, rest)) :
    Level width (fun text document rest => ∃ below < limit,
      readValue width below text = .ok (document, rest)) text document rest := by
  by_cases hbracket : ∃ body, skipSpace text = '[' :: body
  · obtain ⟨body, hspace⟩ := hbracket
    rw [← readValue_skipSpace, hspace, readValue_bracket] at h
    cases limit with
    | zero => cases h
    | succ below =>
        obtain ⟨⟨final, after⟩, hlist, hpair⟩ := exists_of_bind_eq_ok h
        cases hpair
        obtain ⟨tail, hfold, hclose⟩ := inList_eq_ok hlist
        obtain ⟨items, rfl, hlength, hitems⟩ := items_of_foldItems hfold
        rw [List.append_nil, List.reverse_reverse]
        exact .array hspace hlength
          (hitems.mono fun _ _ _ hread => ⟨below, Nat.lt_succ_self below, hread⟩) hclose
  · by_cases hbrace : ∃ body, skipSpace text = '\x7b' :: body
    · obtain ⟨body, hspace⟩ := hbrace
      rw [← readValue_skipSpace, hspace, readValue_brace] at h
      cases limit with
      | zero => cases h
      | succ below =>
          obtain ⟨⟨final, after⟩, hobject, hpair⟩ := exists_of_bind_eq_ok h
          cases hpair
          obtain ⟨tail, hfold, hclose⟩ := inObject_eq_ok hobject
          obtain ⟨members, rfl, hlength, hmembers⟩ := entries_of_foldMembers hfold
          rw [List.append_nil, List.reverse_reverse]
          exact .object hspace hlength
            (hmembers.mono fun _ _ _ hread => ⟨below, Nat.lt_succ_self below, hread⟩) hclose
    · refine .scalar (not_exists.mp hbracket) (not_exists.mp hbrace) ?_
      cases limit
      all_goals
        rw [readValue] at h
        split at h
        next hspace => exact absurd ⟨_, hspace⟩ hbracket
        next hspace => exact absurd ⟨_, hspace⟩ hbrace
        next => exact h

theorem length_of_readValue (h : readValue width limit text = .ok (document, rest)) :
    rest.length < text.length := by
  induction limit using Nat.strongRec generalizing text document rest with
  | ind limit ih =>
      have hspace := length_skipSpace_le text
      have hreads : ∀ text item rest, (∃ below < limit,
          readValue width below text = .ok (item, rest)) → rest.length < text.length := by
        rintro text item rest ⟨below, hbelow, hread⟩
        exact ih below hbelow hread
      cases level_of_readValue h with
      | scalar _ _ hscalar =>
          have := length_of_skipScalar (skipScalar_of_readScalar hscalar)
          omega
      | array hbody _ hitems hclose =>
          have := hitems.length_le hreads
          have := length_of_closeList hclose
          rw [hbody, List.length_cons] at hspace
          omega
      | object hbody _ hmembers hclose =>
          have := hmembers.length_le hreads
          have := length_of_closeObject hclose
          rw [hbody, List.length_cons] at hspace
          omega

/-- The text spells the document, up to the rest; the width is enough to read it. -/
structure Spells (width : Nat) (text : List Char) (document : Json) (rest : List Char) : Prop where
  fits : text.length < width
  read : ∃ limit, readValue width limit text = .ok (document, rest)

/-- What is true of every text that spells a document is proved level by level. -/
theorem Spells.induction {P : List Char → Json → List Char → Prop}
    (hlevel : ∀ text document rest, Level width (fun text document rest =>
      Spells width text document rest ∧ P text document rest) text document rest →
        P text document rest)
    (h : Spells width text document rest) : P text document rest := by
  obtain ⟨hfits, limit, hread⟩ := h
  induction limit using Nat.strongRec generalizing text document rest with
  | ind limit ih =>
      apply hlevel
      have hreads : ∀ text item rest, (∃ below < limit,
          readValue width below text = .ok (item, rest)) → rest.length < text.length := by
        rintro text item rest ⟨below, _, hread⟩
        exact length_of_readValue hread
      have hspace := length_skipSpace_le text
      cases level_of_readValue hread with
      | scalar hbracket hbrace hscalar => exact .scalar hbracket hbrace hscalar
      | @array body _ _ _ hbody hlength hitems hclose =>
          rw [hbody, List.length_cons] at hspace
          have hinside : body.length < width := by omega
          refine .array hbody hlength ((hitems.within hreads hinside).mono ?_) hclose
          rintro text item rest ⟨hfits, below, hbelow, hread⟩
          exact ⟨⟨hfits, below, hread⟩, ih below hbelow hfits hread⟩
      | @object body _ _ _ hbody hlength hmembers hclose =>
          rw [hbody, List.length_cons] at hspace
          have hinside : body.length < width := by omega
          refine .object hbody hlength ((hmembers.within hreads hinside).mono ?_) hclose
          rintro text item rest ⟨hfits, below, hbelow, hread⟩
          exact ⟨⟨hfits, below, hread⟩, ih below hbelow hfits hread⟩

end Values

end ProtocolCodec.Json
