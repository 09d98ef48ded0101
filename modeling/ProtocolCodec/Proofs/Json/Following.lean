import ProtocolCodec.Proofs.Json.Skipping

/-!
# Readers that follow decoders

A document of a known form can be read from a text in one pass, or first read as a value and then
decoded. A reader follows a decoder when both ways have the same results: what is read from a text
is what is decoded from the document that the text spells. Failures may differ, since the two ways
look at things in different orders.
-/

namespace ProtocolCodec.Json

variable {α β : Type}

/-- What is read from a text is what is decoded from the document it spells. -/
def Follows (read : Reader α) (decode : Nat → Decoder α) : Prop :=
  ∀ width depth text document rest, Spells width text document rest →
    (read width depth text).toOption = (decode depth document).toOption.map (·, rest)

section Texts

variable {width : Nat} {text rest : List Char} {document : Json}

theorem Level.mono {Reads Others : List Char → Json → List Char → Prop}
    (h : Level width Reads text document rest)
    (himp : ∀ text item rest, Reads text item rest → Others text item rest) :
    Level width Others text document rest := by
  cases h with
  | scalar hbracket hbrace hscalar => exact .scalar hbracket hbrace hscalar
  | array hbody hlength hitems hclose => exact .array hbody hlength (hitems.mono himp) hclose
  | object hbody hlength hmembers hclose => exact .object hbody hlength (hmembers.mono himp) hclose

theorem Spells.level (h : Spells width text document rest) :
    Level width (Spells width) text document rest :=
  Spells.induction (P := fun text document rest => Level width (Spells width) text document rest)
    (fun _ _ _ hlevel => hlevel.mono fun _ _ _ hspells => hspells.1) h

/-- Leading blanks are not part of what a text spells. -/
theorem Spells.skipSpace (h : Spells width text document rest) :
    Spells width (skipSpace text) document rest := by
  obtain ⟨hfits, limit, hread⟩ := h
  exact ⟨Nat.lt_of_le_of_lt (length_skipSpace_le text) hfits, limit,
    by rw [readValue_skipSpace, hread]⟩

/-! ## Scalars -/

/-- What a scalar is, by its first character. -/
theorem readScalar_cases (h : readScalar text = .ok (document, rest)) :
    (∃ tail, text = 'n' :: tail ∧ document = .null ∧
        readWord ['u', 'l', 'l'] tail = .ok rest) ∨
      (∃ tail, text = 't' :: tail ∧ document = .boolean true ∧
        readWord ['r', 'u', 'e'] tail = .ok rest) ∨
      (∃ tail, text = 'f' :: tail ∧ document = .boolean false ∧
        readWord ['a', 'l', 's', 'e'] tail = .ok rest) ∨
      (∃ tail chars, text = '"' :: tail ∧ document = .string (String.ofList chars) ∧
        readString tail = .ok (chars, rest)) ∨
      (∃ c tail n, text = c :: tail ∧ document = .number n ∧
        c ≠ 'n' ∧ c ≠ 't' ∧ c ≠ 'f' ∧ c ≠ '"') := by
  unfold readScalar at h
  split at h
  · cases h
  · obtain ⟨after, hword, h⟩ := exists_of_bind_eq_ok h
    cases h
    exact .inl ⟨_, rfl, rfl, hword⟩
  · obtain ⟨after, hword, h⟩ := exists_of_bind_eq_ok h
    cases h
    exact .inr (.inl ⟨_, rfl, rfl, hword⟩)
  · obtain ⟨after, hword, h⟩ := exists_of_bind_eq_ok h
    cases h
    exact .inr (.inr (.inl ⟨_, rfl, rfl, hword⟩))
  · obtain ⟨⟨chars, after⟩, hstring, h⟩ := exists_of_bind_eq_ok h
    cases h
    exact .inr (.inr (.inr (.inl ⟨_, _, rfl, rfl, hstring⟩)))
  · obtain ⟨⟨number, after⟩, hnumber, h⟩ := exists_of_bind_eq_ok h
    cases h
    exact .inr (.inr (.inr (.inr ⟨_, _, number, rfl, rfl, by decide⟩)))
  next c tail hn ht hf hquote _ =>
    split at h
    · obtain ⟨⟨number, after⟩, hnumber, h⟩ := exists_of_bind_eq_ok h
      cases h
      exact .inr (.inr (.inr (.inr ⟨c, tail, number, rfl, rfl, hn, ht, hf, hquote⟩)))
    · cases h

/-- A text that begins with a quote spells a string, any other text does not. -/
theorem Spells.string_cases (h : Spells width text document rest) :
    (∃ tail chars, Json.skipSpace text = '"' :: tail ∧ readString tail = .ok (chars, rest) ∧
        document = .string (String.ofList chars)) ∨
      ((∃ c tail, Json.skipSpace text = c :: tail ∧ c ≠ '"') ∧ ∀ s, document ≠ .string s) := by
  cases h.level with
  | scalar _ _ hscalar =>
      rcases readScalar_cases hscalar with ⟨tail, htext, rfl, _⟩ | ⟨tail, htext, rfl, _⟩ |
        ⟨tail, htext, rfl, _⟩ | ⟨tail, chars, htext, rfl, hstring⟩ |
        ⟨c, tail, n, htext, rfl, _, _, _, hquote⟩
      · exact .inr ⟨⟨_, tail, htext, by decide⟩, nofun⟩
      · exact .inr ⟨⟨_, tail, htext, by decide⟩, nofun⟩
      · exact .inr ⟨⟨_, tail, htext, by decide⟩, nofun⟩
      · exact .inl ⟨tail, chars, htext, hstring, rfl⟩
      · exact .inr ⟨⟨c, tail, htext, hquote⟩, nofun⟩
  | array hbody _ _ _ => exact .inr ⟨⟨_, _, hbody, by decide⟩, nofun⟩
  | object hbody _ _ _ => exact .inr ⟨⟨_, _, hbody, by decide⟩, nofun⟩

/-- A text that begins with a `t` or an `f` spells a truth value, any other text does not. -/
theorem Spells.boolean_cases (h : Spells width text document rest) :
    (∃ tail, Json.skipSpace text = 't' :: tail ∧ readWord ['r', 'u', 'e'] tail = .ok rest ∧
        document = .boolean true) ∨
      (∃ tail, Json.skipSpace text = 'f' :: tail ∧ readWord ['a', 'l', 's', 'e'] tail = .ok rest ∧
        document = .boolean false) ∨
      ((∃ c tail, Json.skipSpace text = c :: tail ∧ c ≠ 't' ∧ c ≠ 'f') ∧
        ∀ b, document ≠ .boolean b) := by
  cases h.level with
  | scalar _ _ hscalar =>
      rcases readScalar_cases hscalar with ⟨tail, htext, rfl, _⟩ | ⟨tail, htext, rfl, hword⟩ |
        ⟨tail, htext, rfl, hword⟩ | ⟨tail, chars, htext, rfl, _⟩ |
        ⟨c, tail, n, htext, rfl, _, ht, hf, _⟩
      · exact .inr (.inr ⟨⟨_, tail, htext, by decide⟩, nofun⟩)
      · exact .inl ⟨tail, htext, hword, rfl⟩
      · exact .inr (.inl ⟨tail, htext, hword, rfl⟩)
      · exact .inr (.inr ⟨⟨_, tail, htext, by decide⟩, nofun⟩)
      · exact .inr (.inr ⟨⟨c, tail, htext, ht, hf⟩, nofun⟩)
  | array hbody _ _ _ => exact .inr (.inr ⟨⟨_, _, hbody, by decide⟩, nofun⟩)
  | object hbody _ _ _ => exact .inr (.inr ⟨⟨_, _, hbody, by decide⟩, nofun⟩)

/-- A text that begins with an `n` spells null, any other text does not. -/
theorem Spells.null_cases (h : Spells width text document rest) :
    (∃ tail, Json.skipSpace text = 'n' :: tail ∧ readWord ['u', 'l', 'l'] tail = .ok rest ∧
        document = .null) ∨
      ((∃ c tail, Json.skipSpace text = c :: tail ∧ c ≠ 'n') ∧ document ≠ .null) := by
  cases h.level with
  | scalar _ _ hscalar =>
      rcases readScalar_cases hscalar with ⟨tail, htext, rfl, hword⟩ | ⟨tail, htext, rfl, _⟩ |
        ⟨tail, htext, rfl, _⟩ | ⟨tail, chars, htext, rfl, _⟩ | ⟨c, tail, n, htext, rfl, hn, _⟩
      · exact .inl ⟨tail, htext, hword, rfl⟩
      · exact .inr ⟨⟨_, tail, htext, by decide⟩, nofun⟩
      · exact .inr ⟨⟨_, tail, htext, by decide⟩, nofun⟩
      · exact .inr ⟨⟨_, tail, htext, by decide⟩, nofun⟩
      · exact .inr ⟨⟨c, tail, htext, hn⟩, nofun⟩
  | array hbody _ _ _ => exact .inr ⟨⟨_, _, hbody, by decide⟩, nofun⟩
  | object hbody _ _ _ => exact .inr ⟨⟨_, _, hbody, by decide⟩, nofun⟩

end Texts

theorem follows_readText : Follows readText fun _ => decodeText := by
  intro width depth text document rest h
  unfold readText
  rcases h.string_cases with ⟨tail, chars, htext, hstring, rfl⟩ | ⟨⟨c, tail, htext, hquote⟩, hother⟩
  · simp only [htext, hstring, bind, Except.bind]
    rfl
  · have hdecode : (decodeText document).toOption = none := by
      unfold decodeText
      split
      · exact absurd rfl (hother _)
      · rfl
    rw [hdecode, htext]
    split
    next heq => cases heq
    next heq => exact absurd (List.cons.inj heq).1 hquote
    next => rfl

theorem follows_readFlag : Follows readFlag fun _ => decodeFlag := by
  intro width depth text document rest h
  unfold readFlag
  rcases h.boolean_cases with ⟨tail, htext, hword, rfl⟩ | ⟨tail, htext, hword, rfl⟩ |
    ⟨⟨c, tail, htext, ht, hf⟩, hother⟩
  · simp only [htext, hword, bind, Except.bind]
    rfl
  · simp only [htext, hword, bind, Except.bind]
    rfl
  · have hdecode : (decodeFlag document).toOption = none := by
      unfold decodeFlag
      split
      · exact absurd rfl (hother _)
      · rfl
    rw [hdecode, htext]
    split
    next heq => cases heq
    next heq => exact absurd (List.cons.inj heq).1 ht
    next heq => exact absurd (List.cons.inj heq).1 hf
    next => rfl

/-- Null, or something else. -/
def decodeNullable (decode : Decoder α) : Decoder (Option α)
  | .null => .ok none
  | value => (decode value).map some

/-- Readers that follow a decoder do so where null is allowed too. -/
theorem Follows.nullable {read : Reader α} {decode : Nat → Decoder α} (h : Follows read decode) :
    Follows (readNullable read) fun depth => decodeNullable (decode depth) := by
  intro width depth text document rest hspells
  have hread := h width depth _ document rest hspells.skipSpace
  unfold readNullable
  rcases hspells.null_cases with ⟨tail, htext, hword, rfl⟩ | ⟨⟨c, tail, htext, hn⟩, hother⟩
  · simp only [htext, hword, bind, Except.bind]
    rfl
  · have hdecode : decodeNullable (decode depth) document = (decode depth document).map some := by
      unfold decodeNullable
      split
      · exact absurd rfl hother
      · rfl
    simp only [hdecode]
    rw [htext] at hread ⊢
    split
    next heq => exact absurd (List.cons.inj heq).1 hn
    next =>
      rw [toOption_bind, hread]
      cases decode depth document <;> rfl

/-! ## Walks -/

section Walks

variable {σ : Type} {Reads : List Char → Json → List Char → Prop} {first : Bool}
  {text rest : List Char}

theorem toOption_inside {segment : Segment} {outcome : Outcome α} :
    (inside segment outcome).toOption = outcome.toOption := by
  cases outcome <;> rfl

theorem toOption_inList {body : List Char → Outcome (α × List Char)} :
    (inList text body).toOption = (body text).toOption.bind fun (a, tail) =>
      (closeList tail).toOption.map (a, ·) := by
  unfold inList
  cases body text with
  | error f => rfl
  | ok pair =>
      obtain ⟨a, tail⟩ := pair
      simp only [Except.toOption, Option.bind_some]
      cases closeList tail <;> rfl

theorem toOption_inObject {body : List Char → Outcome (α × List Char)} :
    (inObject text body).toOption = (body text).toOption.bind fun (a, tail) =>
      (closeObject tail).toOption.map (a, ·) := by
  unfold inObject
  cases body text with
  | error f => rfl
  | ok pair =>
      obtain ⟨a, tail⟩ := pair
      simp only [Except.toOption, Option.bind_some]
      cases closeObject tail <;> rfl

/-- A walk over an array whose steps go by the items goes by all of them. -/
theorem Items.toOption_foldItems {items : List Json} {next : σ → Json → Option σ}
    {step : σ → List Char → Outcome (σ × List Char)}
    (hstep : ∀ state text item rest, Reads text item rest →
      (step state text).toOption = (next state item).map (·, rest))
    (h : Items Reads first text items rest) {count index : Nat} (hcount : items.length < count)
    (hfirst : (index == 0) = first) (state : σ) :
    (foldItems step count index state text).toOption = (items.foldlM next state).map (·, rest) := by
  induction h generalizing count index state with
  | done hnext =>
      subst hfirst
      obtain ⟨count, rfl⟩ := Nat.exists_eq_add_one.mpr hcount
      rw [foldItems, hnext]
      rfl
  | @next first text body tail rest item items hnext hread _ ih =>
      subst hfirst
      obtain ⟨count, rfl⟩ := Nat.exists_eq_add_one.mpr (Nat.zero_lt_of_lt hcount)
      rw [foldItems_next hnext, toOption_bind, toOption_inside, hstep _ _ _ _ hread,
        List.foldlM_cons]
      cases next state item with
      | none => rfl
      | some state => exact ih (Nat.lt_of_succ_lt_succ hcount) rfl state

/-- A walk over an object whose steps go by the members goes by all of them. -/
theorem Entries.toOption_foldMembers {members : Members} {next : String → σ → Json → Option σ}
    {step : String → σ → List Char → Outcome (σ × List Char)}
    (hstep : ∀ key state text content value rest, readColon text = .ok content →
      Reads content value rest → (step key state text).toOption =
        (next key state value).map (·, rest))
    (h : Entries Reads first text members rest) {count : Nat} (hcount : members.length < count)
    (state : σ) :
    (foldMembers step count first state text).toOption =
      (members.foldlM (fun state member => next member.1 state member.2) state).map (·, rest) := by
  induction h generalizing count state with
  | done hkey =>
      obtain ⟨count, rfl⟩ := Nat.exists_eq_add_one.mpr hcount
      rw [foldMembers, hkey]
      rfl
  | @next first text body content tail rest key value members hkey hcolon hread _ ih =>
      obtain ⟨count, rfl⟩ := Nat.exists_eq_add_one.mpr (Nat.zero_lt_of_lt hcount)
      rw [foldMembers_next hkey, toOption_bind, hstep _ _ _ _ _ _ hcolon hread, List.foldlM_cons]
      dsimp only
      cases next key state value with
      | none => rfl
      | some state => exact ih (Nat.lt_of_succ_lt_succ hcount) state

theorem toOption_readMember {key : String} {read : List Char → Outcome (α × List Char)}
    {content : List Char} (hcolon : readColon text = .ok content) :
    (readMember key read text).toOption = (read content).toOption := by
  rw [readMember, hcolon]
  exact toOption_inside

/-- Decoded items, gathered in reverse. -/
theorem foldlM_decode (decode : Decoder α) (items : List Json) (done : List α) :
    items.foldlM (fun done item => (decode item).toOption.map (· :: done)) done =
      (items.mapM decode).toOption.map (·.reverse ++ done) := by
  induction items generalizing done with
  | nil => rfl
  | cons item items ih =>
      rw [List.foldlM_cons, List.mapM_cons, toOption_bind]
      cases decode item with
      | error cause => rfl
      | ok a =>
          change List.foldlM _ (a :: done) items = _
          rw [ih]
          change _ = Option.map _ (Except.toOption (items.mapM decode >>= fun rest =>
            pure (a :: rest)))
          cases items.mapM decode with
          | error cause => rfl
          | ok rest => simp [Except.toOption, bind, Except.bind, pure, Except.pure]

end Walks

/-! ## Arrays and values -/

/-- Decode something inside an array or object, where the depth allows to open it. -/
def opened (decode : Nat → Decoder α) : Nat → Decoder α
  | 0 => fun _ => .error .nestingLimit
  | depth + 1 => decode depth

theorem toOption_opened {decode : Nat → Decoder α} {document : Json}
    (h : ∀ depth, (decode depth document).toOption = none) (depth : Nat) :
    (opened decode depth document).toOption = none := by
  cases depth with
  | zero => rfl
  | succ depth => exact h depth

theorem scalar_of_readScalar {text rest : List Char} {document : Json}
    (h : readScalar text = .ok (document, rest)) :
    (∀ items, document ≠ .array items) ∧ ∀ members, document ≠ .object members := by
  rcases readScalar_cases h with ⟨_, _, rfl, _⟩ | ⟨_, _, rfl, _⟩ | ⟨_, _, rfl, _⟩ |
    ⟨_, _, _, rfl, _⟩ | ⟨_, _, _, _, rfl, _⟩ <;> exact ⟨nofun, nofun⟩

theorem toOption_decodeList {decode : Decoder α} {document : Json}
    (h : ∀ items, document ≠ .array items) : (decodeList decode document).toOption = none := by
  unfold decodeList
  split
  · exact absurd rfl (h _)
  · rfl

/-- The items of an array are read as they are decoded, and gathered in reverse. -/
theorem Items.toOption_gather {Reads : List Char → Json → List Char → Prop} {read : Reader α}
    {decode : Decoder α} {width depth : Nat}
    (hread : ∀ text item rest, Reads text item rest →
      (read width depth text).toOption = (decode item).toOption.map (·, rest))
    {first : Bool} {index : Nat} {text tail : List Char} {items : List Json}
    (hitems : Items Reads first text items tail) (hlength : items.length < width)
    (hfirst : (index == 0) = first) :
    (foldItems (collectItem read width depth) width index [] text).toOption =
      (items.mapM decode).toOption.map fun decoded => (decoded.reverse, tail) := by
  have hstep : ∀ done text item rest, Reads text item rest →
      (collectItem read width depth done text).toOption =
        ((decode item).toOption.map (· :: done)).map (·, rest) := by
    intro done text item rest hreads
    rw [collectItem, toOption_bind, hread text item rest hreads]
    cases decode item <;> rfl
  rw [hitems.toOption_foldItems hstep hlength hfirst, foldlM_decode]
  cases items.mapM decode <;> simp [Except.toOption]

/-- Collecting items comes to decoding them in turn, failures aside. -/
theorem Items.toOption_collect {Reads : List Char → Json → List Char → Prop} {read : Reader α}
    {decode : Decoder α} {width depth : Nat}
    (hread : ∀ text item rest, Reads text item rest →
      (read width depth text).toOption = (decode item).toOption.map (·, rest))
    {text tail rest : List Char} {items : List Json} (hitems : Items Reads true text items tail)
    (hlength : items.length < width) (hclose : closeList tail = .ok rest) :
    (inList text (foldItems (collectItem read width depth) width 0 [])).toOption =
      (items.mapM decode).toOption.map fun decoded => (decoded.reverse, rest) := by
  rw [toOption_inList, hitems.toOption_gather hread hlength rfl]
  cases items.mapM decode with
  | error cause => rfl
  | ok decoded => simp [Except.toOption, hclose]

/-- Readers that follow a decoder do so for lists too. -/
theorem Follows.list {read : Reader α} {decode : Nat → Decoder α} (h : Follows read decode) :
    Follows (readList read) (opened fun depth => decodeList (decode depth)) := by
  intro width depth text document rest hspells
  unfold readList
  cases hspells.level with
  | scalar hbracket _ hscalar =>
      obtain ⟨harray, _⟩ := scalar_of_readScalar hscalar
      rw [toOption_opened (fun _ => toOption_decodeList harray)]
      split
      next => rfl
      next heq => exact absurd heq (hbracket _)
      next => rfl
  | object hbody _ _ _ =>
      have harray : ∀ members : Members, ∀ items, Json.object members ≠ .array items :=
        fun _ _ => nofun
      rw [hbody, toOption_opened (fun _ => toOption_decodeList (harray _))]
      rfl
  | array hbody hlength hitems hclose =>
      rw [hbody]
      cases depth with
      | zero => rfl
      | succ depth =>
          change Except.toOption (inList _ (foldItems (collectItem read width depth) width 0 []) >>=
            fun found => .ok (found.1.reverse, found.2)) = _
          rw [toOption_bind, hitems.toOption_collect (h width depth) hlength hclose]
          change _ = Option.map _ (Except.toOption (List.mapM (decode depth) _))
          cases List.mapM (decode depth) _ with
          | error cause => rfl
          | ok decoded => simp [Except.toOption]

/-- A value that is no deeper than the depth. -/
def decodeBounded (depth : Nat) : Decoder Json := fun value =>
  if value.height ≤ depth then .ok value else .error .nestingLimit

theorem eq_of_decodeBounded {depth : Nat} {value bounded : Json}
    (h : decodeBounded depth value = .ok bounded) : bounded = value := by
  unfold decodeBounded at h
  split at h
  · exact (Except.ok.inj h).symm
  · cases h

theorem mapM_decodeBounded (depth : Nat) (items : List Json) :
    (items.mapM (decodeBounded depth)).toOption =
      if heightItems items ≤ depth then some items else none := by
  induction items with
  | nil => simp [heightItems, Except.toOption, pure, Except.pure]
  | cons item items ih =>
      rw [List.mapM_cons, toOption_bind, heightItems]
      simp only [Nat.max_le]
      by_cases hitem : item.height ≤ depth
      · simp only [decodeBounded, hitem, if_true, true_and]
        change Except.toOption (items.mapM (decodeBounded depth) >>= fun rest =>
          pure (item :: rest)) = _
        rw [toOption_bind, ih]
        split <;> rfl
      · simp only [decodeBounded, hitem, if_false, false_and]
        rfl

theorem foldlM_decodeBounded (depth : Nat) (members done : Members) :
    members.foldlM (fun (done : Members) member =>
      (decodeBounded depth member.2).toOption.map fun value => (member.1, value) :: done) done =
      if heightMembers members ≤ depth then some (members.reverse ++ done) else none := by
  induction members generalizing done with
  | nil => simp [heightMembers]
  | cons member members ih =>
      obtain ⟨key, value⟩ := member
      rw [List.foldlM_cons, heightMembers]
      simp only [Nat.max_le]
      by_cases hvalue : value.height ≤ depth
      · have hbounded : decodeBounded depth value = .ok value := if_pos hvalue
        rw [hbounded]
        change List.foldlM _ ((key, value) :: done) members = _
        simp only [hvalue, true_and]
        rw [ih, List.reverse_cons, List.append_assoc, List.singleton_append]
      · have hbounded : decodeBounded depth value = .error .nestingLimit := if_neg hvalue
        rw [hbounded]
        simp only [hvalue, false_and, if_false]
        rfl

/-- The members of an object are read up to the depth. -/
theorem Entries.toOption_collect {Reads : List Char → Json → List Char → Prop} {width depth : Nat}
    (hread : ∀ text value rest, Reads text value rest →
      (readValue width depth text).toOption = (decodeBounded depth value).toOption.map (·, rest))
    {text tail rest : List Char} {members : Members}
    (hmembers : Entries Reads true text members tail) (hlength : members.length < width)
    (hclose : closeObject tail = .ok rest) :
    (inObject text (foldMembers (collectMember width depth) width true [])).toOption =
      if heightMembers members ≤ depth then some (members.reverse, rest) else none := by
  have hstep : ∀ key done text content value rest, readColon text = .ok content →
      Reads content value rest → (collectMember width depth key done text).toOption =
        ((decodeBounded depth value).toOption.map fun value => (key, value) :: done).map
          (·, rest) := by
    intro key done text content value rest hcolon hreads
    rw [collectMember, toOption_bind, toOption_readMember hcolon, hread content value rest hreads]
    cases decodeBounded depth value <;> rfl
  rw [toOption_inObject, hmembers.toOption_foldMembers hstep hlength, foldlM_decodeBounded]
  split
  · simp [Except.toOption, hclose]
  · rfl

/-- Reading a document comes to the document, up to the nesting limit. -/
theorem follows_readValue : Follows readValue decodeBounded := by
  intro width depth text document rest hspells
  -- Every level has one depth less to go, so the induction is for all depths.
  refine Spells.induction (P := fun text document rest => ∀ depth,
    (readValue width depth text).toOption =
      (decodeBounded depth document).toOption.map (·, rest)) ?_ hspells depth
  intro text document rest hlevel depth
  rw [← readValue_skipSpace]
  cases hlevel with
  | scalar hbracket hbrace hscalar =>
      have hread : readValue width depth (Json.skipSpace text) = .ok (document, rest) := by
        rw [readValue_skipSpace, ← hscalar]
        unfold readValue
        split
        all_goals
          split
          next heq => exact absurd heq (hbracket _)
          next heq => exact absurd heq (hbrace _)
          next => rfl
      have hheight : document.height = 0 := by
        rcases readScalar_cases hscalar with ⟨_, _, rfl, _⟩ | ⟨_, _, rfl, _⟩ | ⟨_, _, rfl, _⟩ |
          ⟨_, _, _, rfl, _⟩ | ⟨_, _, _, _, rfl, _⟩ <;> rfl
      rw [hread, decodeBounded, hheight, if_pos (Nat.zero_le depth)]
      rfl
  | @array body _ _ items hbody hlength hitems hclose =>
      rw [hbody, readValue_bracket]
      cases depth with
      | zero => simp [decodeBounded, height, deeper, Except.toOption]
      | succ depth =>
          have hinside := hitems.toOption_collect (fun _ _ _ hitem => hitem.2 depth) hlength hclose
          rw [mapM_decodeBounded] at hinside
          rw [deeper, toOption_bind, hinside]
          simp only [decodeBounded, height, Nat.add_le_add_iff_right]
          split <;> simp [Except.toOption]
  | @object body _ _ members hbody hlength hmembers hclose =>
      rw [hbody, readValue_brace]
      cases depth with
      | zero => simp [decodeBounded, height, deeper, Except.toOption]
      | succ depth =>
          have hinside :=
            hmembers.toOption_collect (fun _ _ _ hmember => hmember.2 depth) hlength hclose
          rw [deeper, toOption_bind, hinside]
          simp only [decodeBounded, height, Nat.add_le_add_iff_right]
          split <;> simp [Except.toOption]

end ProtocolCodec.Json
