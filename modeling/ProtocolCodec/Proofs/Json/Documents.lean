import ProtocolCodec.Json.Record
import ProtocolCodec.Proofs.Json.Scalars

/-!
# Reading what was printed: arrays and objects

A reader is right about a document when it undoes the text of the document wherever the nesting
limit allows, and otherwise fails for the nesting. Readers of arrays are right when the readers of
their items are. Objects are walked in different ways; what they share is a state that each member
takes one step further.
-/

namespace ProtocolCodec.Json

/-! ## Outcomes under a nesting limit -/

/-- The outcome is the result where the nesting fits, and a failure of nesting otherwise. -/
structure Answers {α : Type} (fits : Prop) (outcome : Outcome α) (result : α) : Prop where
  ok : fits → outcome = .ok result
  limit : ¬ fits → ∃ f : Failure, outcome = .error f ∧ f.cause = .nestingLimit

namespace Answers

variable {α β : Type} {p q : Prop} {outcome : Outcome α} {result : α}

theorem of_eq_ok (h : outcome = .ok result) (hp : p) : Answers p outcome result :=
  ⟨fun _ => h, fun hnot => absurd hp hnot⟩

theorem congr (h : Answers p outcome result) (hpq : p ↔ q) : Answers q outcome result :=
  ⟨fun hq => h.ok (hpq.mpr hq), fun hnot => h.limit fun hp => hnot (hpq.mp hp)⟩

/-- Two readings in a row, where both must fit. -/
theorem bind {next : α → Outcome β} {last : β} (h : Answers p outcome result)
    (hnext : Answers q (next result) last) : Answers (p ∧ q) (outcome >>= next) last := by
  constructor
  · rintro ⟨hp, hq⟩
    rw [h.ok hp]
    exact hnext.ok hq
  · intro hnot
    by_cases hp : p
    · rw [h.ok hp]
      exact hnext.limit fun hq => hnot ⟨hp, hq⟩
    · obtain ⟨f, hf, hcause⟩ := h.limit hp
      exact ⟨f, by rw [hf]; rfl, hcause⟩

/-- What comes after a reading may rely on the nesting having fitted. -/
theorem bind_of_fits {next : α → Outcome β} {last : β} (h : Answers p outcome result)
    (hnext : p → next result = .ok last) : Answers p (outcome >>= next) last := by
  constructor
  · intro hp
    rw [h.ok hp]
    exact hnext hp
  · intro hnot
    obtain ⟨f, hf, hcause⟩ := h.limit hnot
    exact ⟨f, by rw [hf]; rfl, hcause⟩

/-- What answers can be handed on to a step that succeeds. -/
theorem bind_ok {next : α → Outcome β} {last : β} (h : Answers p outcome result)
    (hnext : next result = .ok last) : Answers p (outcome >>= next) last :=
  h.bind_of_fits fun _ => hnext

theorem inside (h : Answers p outcome result) (segment : Segment) :
    Answers p (Json.inside segment outcome) result := by
  constructor
  · intro hp
    rw [h.ok hp]
    rfl
  · intro hnot
    obtain ⟨f, hf, hcause⟩ := h.limit hnot
    exact ⟨f.under segment, by rw [hf]; rfl, hcause⟩

end Answers

theorem Failure.cause_settle (f : Failure) (skip : List Char → List Char) :
    (f.settle skip).cause = f.cause := by
  unfold settle
  split <;> rfl

section Brackets

variable {α : Type} {p : Prop} {result : α} {text rest : List Char}
  {body : List Char → Outcome (α × List Char)}

/-- What answers inside an array answers once the array is closed. -/
theorem Answers.inList (h : Answers p (body text) (result, ']' :: rest)) :
    Answers p (Json.inList text body) (result, rest) := by
  constructor
  · intro hp
    rw [Json.inList, h.ok hp]
    rfl
  · intro hnot
    obtain ⟨f, hf, hcause⟩ := h.limit hnot
    exact ⟨f.settle afterList, by rw [Json.inList, hf], by rw [f.cause_settle, hcause]⟩

/-- What answers inside an object answers once the object is closed. -/
theorem Answers.inObject (h : Answers p (body text) (result, '\x7d' :: rest)) :
    Answers p (Json.inObject text body) (result, rest) := by
  constructor
  · intro hp
    rw [Json.inObject, h.ok hp]
    rfl
  · intro hnot
    obtain ⟨f, hf, hcause⟩ := h.limit hnot
    exact ⟨f.settle afterObject, by rw [Json.inObject, hf], by rw [f.cause_settle, hcause]⟩

/-- Opening an array or object takes one from the depth. -/
theorem answers_deeper {height : Nat} {within : Nat → Outcome (α × List Char)}
    (h : ∀ depth, Answers (height ≤ depth) (within depth) (result, rest)) (depth : Nat) :
    Answers (height + 1 ≤ depth) (deeper depth text within) (result, rest) := by
  cases depth with
  | zero => exact ⟨fun hle => absurd hle (Nat.not_succ_le_zero height), fun _ => ⟨_, rfl, rfl⟩⟩
  | succ depth => exact (h depth).congr Nat.succ_le_succ_iff.symm

end Brackets

/-! ## Readers and documents -/

/-- The reader undoes the text of the document, at every depth that it fits in and in front of
whatever may follow it. -/
def ReadsAs {α : Type} (read : Reader α) (document : Json) (a : α) : Prop :=
  ∀ width depth rest, document.print.length < width → Delimited rest →
    Answers (document.height ≤ depth) (read width depth (document.print ++ rest)) (a, rest)

/-- A text that starts with a token other than the end of an array. -/
def Opens (text : List Char) : Prop :=
  ∃ c tail, text = c :: tail ∧ isSpace c = false ∧ c ≠ ']'

theorem skipSpace_cons {c : Char} (h : isSpace c = false) (rest : List Char) :
    skipSpace (c :: rest) = c :: rest :=
  List.dropWhile_cons_of_neg (by simp [h])

theorem opens_object (members : Members) : Opens (print (.object members)) :=
  ⟨'\x7b', _, rfl, by decide, by decide⟩

/-! ## Entries between commas -/

section Entries

variable {ε : Type} (text : ε → List Char)

/-- Texts each behind a comma. -/
def behindCommas (entries : List ε) : List Char :=
  entries.flatMap fun entry => ',' :: text entry

theorem behindCommas_cons (entry : ε) (entries : List ε) (rest : List Char) :
    behindCommas text (entry :: entries) ++ rest =
      ',' :: (text entry ++ (behindCommas text entries ++ rest)) := by
  rw [behindCommas, List.flatMap_cons, List.append_assoc, List.cons_append]
  rfl

/-- What follows an entry: a comma before the next one, or the closing bracket. -/
theorem delimited_behindCommas (entries : List ε) {c : Char} (hc : c = ']' ∨ c = '\x7d')
    (rest : List Char) : Delimited (behindCommas text entries ++ c :: rest) := by
  cases entries with
  | nil => exact Or.inr ⟨c, rest, rfl, Or.inr hc⟩
  | cons entry entries => exact Or.inr ⟨',', _, rfl, Or.inl rfl⟩

/-- The text bounds the number of the entries and the length of each. -/
theorem length_behindCommas (entries : List ε) :
    entries.length ≤ (behindCommas text entries).length ∧
      ∀ entry ∈ entries, (text entry).length ≤ (behindCommas text entries).length := by
  induction entries with
  | nil => exact ⟨Nat.zero_le _, by simp⟩
  | cons first entries ih =>
      have hlength : (behindCommas text (first :: entries)).length =
          (text first).length + 1 + (behindCommas text entries).length := by
        simp only [behindCommas, List.flatMap_cons, List.length_append, List.length_cons]
      rw [hlength, List.length_cons, List.forall_mem_cons]
      refine ⟨by omega, by omega, ?_⟩
      intro entry hentry
      have := ih.2 entry hentry
      omega

end Entries

/-! ## Arrays -/

theorem printItems_cons (item : Json) (items : List Json) :
    printItems (item :: items) = item.print ++ behindCommas print items := by
  induction items generalizing item with
  | nil => rw [printItems, behindCommas, List.flatMap_nil, List.append_nil]
  | cons next items ih =>
      rw [printItems, ih next]
      rfl

/-- The text of items is long enough to bound their number and the length of each. -/
theorem length_printItems (items : List Json) :
    items.length ≤ (printItems items).length + 1 ∧
      ∀ item ∈ items, item.print.length ≤ (printItems items).length := by
  cases items with
  | nil => exact ⟨Nat.zero_le _, by simp⟩
  | cons first items =>
      obtain ⟨hcount, hlength⟩ := length_behindCommas print items
      rw [printItems_cons, List.length_append, List.length_cons, List.forall_mem_cons]
      refine ⟨by omega, by omega, ?_⟩
      intro item hitem
      have := hlength item hitem
      omega

theorem nextItem_close (first : Bool) (rest : List Char) :
    nextItem first (']' :: rest) = .ok (false, ']' :: rest) := by
  rw [nextItem, skipSpace_cons (by decide)]
  rfl

theorem nextItem_first {text : List Char} (h : Opens text) (rest : List Char) :
    nextItem true (text ++ rest) = .ok (true, text ++ rest) := by
  obtain ⟨c, tail, rfl, hspace, hbracket⟩ := h
  rw [nextItem, List.cons_append, skipSpace_cons hspace]
  simp only [hbracket, if_false, if_true]

theorem nextItem_comma {text : List Char} (h : Opens text) (rest : List Char) :
    nextItem false (',' :: (text ++ rest)) = .ok (true, text ++ rest) := by
  obtain ⟨c, tail, rfl, hspace, hbracket⟩ := h
  rw [nextItem, skipSpace_cons (by decide), List.cons_append]
  simp [skipSpace_cons hspace, hbracket]

theorem foldItems_close {σ : Type} {step : σ → List Char → Outcome (σ × List Char)} {count : Nat}
    (hcount : 0 < count) (index : Nat) (state : σ) (rest : List Char) :
    foldItems step count index state (']' :: rest) = .ok (state, ']' :: rest) := by
  obtain ⟨count, rfl⟩ := Nat.exists_eq_add_one.mpr hcount
  rw [foldItems, nextItem_close]

/-- The walk over items goes on with what the step leaves. -/
theorem foldItems_next {σ : Type} {step : σ → List Char → Outcome (σ × List Char)} {index : Nat}
    {text rest : List Char} (h : nextItem (index == 0) text = .ok (true, rest)) (count : Nat)
    (state : σ) :
    foldItems step (count + 1) index state text =
      inside (.index index) (step state rest) >>= fun (state, rest) =>
        foldItems step count (index + 1) state rest := by
  simp only [foldItems, h]
  cases inside (.index index) (step state rest) <;> rfl

section Lists

variable {α : Type} {read : Reader α} {document : α → Json} {width : Nat}

/-- Read one more item of an array. -/
def collectItem (read : Reader α) (width depth : Nat) (items : List α) (text : List Char) :
    Outcome (List α × List Char) := do
  let (a, rest) ← read width depth text
  .ok (a :: items, rest)

/-- One item is read, and then the others. -/
theorem answers_foldItems_next {a : α} {text rest : List Char} {index : Nat}
    (hnext : nextItem (index == 0) text = .ok (true, (document a).print ++ rest))
    (hread : ReadsAs read (document a) a) (hwidth : (document a).print.length < width)
    (hrest : Delimited rest) {depth count : Nat} {done : List α} {fits : Prop}
    {result : List α × List Char}
    (hothers : Answers fits
      (foldItems (collectItem read width depth) count (index + 1) (a :: done) rest) result) :
    Answers ((document a).height ≤ depth ∧ fits)
      (foldItems (collectItem read width depth) (count + 1) index done text) result := by
  rw [foldItems_next hnext]
  have hitem : Answers ((document a).height ≤ depth)
      (collectItem read width depth done ((document a).print ++ rest)) (a :: done, rest) :=
    (hread width depth rest hwidth hrest).bind_ok rfl
  exact (hitem.inside (.index index)).bind hothers

/-- The items after the first, each behind a comma. -/
theorem answers_foldItems_comma {items : List α}
    (hread : ∀ a ∈ items, ReadsAs read (document a) a)
    (hopens : ∀ a ∈ items, Opens (document a).print)
    (hwidth : ∀ a ∈ items, (document a).print.length < width) {count : Nat}
    (hcount : items.length < count) (depth index : Nat) (done : List α) (rest : List Char) :
    Answers (heightItems (items.map document) ≤ depth)
      (foldItems (collectItem read width depth) count (index + 1) done
        (behindCommas print (items.map document) ++ ']' :: rest))
      (items.reverse ++ done, ']' :: rest) := by
  induction items generalizing count index done with
  | nil => exact Answers.of_eq_ok (foldItems_close hcount _ _ _) (Nat.zero_le depth)
  | cons a items ih =>
      obtain ⟨count, rfl⟩ := Nat.exists_eq_add_one.mpr (Nat.zero_lt_of_lt hcount)
      simp only [List.forall_mem_cons] at hread hopens hwidth
      have hothers := ih hread.2 hopens.2 hwidth.2 (Nat.lt_of_succ_lt_succ hcount) (index + 1)
        (a :: done)
      rw [List.reverse_cons, List.append_assoc, List.singleton_append]
      rw [List.map_cons, behindCommas_cons]
      have hrest := delimited_behindCommas print (items.map document) (Or.inl rfl) rest
      refine Answers.congr (answers_foldItems_next ?_ hread.1 hwidth.1 hrest hothers)
        Nat.max_le.symm
      exact nextItem_comma hopens.1 _

/-- A printed array is read item by item. -/
theorem answers_foldItems {items : List α}
    (hread : ∀ a ∈ items, ReadsAs read (document a) a)
    (hopens : ∀ a ∈ items, Opens (document a).print)
    (hwidth : ∀ a ∈ items, (document a).print.length < width) {count : Nat}
    (hcount : items.length < count) (depth : Nat) (rest : List Char) :
    Answers (heightItems (items.map document) ≤ depth)
      (foldItems (collectItem read width depth) count 0 []
        (printItems (items.map document) ++ ']' :: rest))
      (items.reverse, ']' :: rest) := by
  cases items with
  | nil => exact Answers.of_eq_ok (foldItems_close hcount _ _ _) (Nat.zero_le depth)
  | cons a items =>
      obtain ⟨count, rfl⟩ := Nat.exists_eq_add_one.mpr (Nat.zero_lt_of_lt hcount)
      simp only [List.forall_mem_cons] at hread hopens hwidth
      have hothers := answers_foldItems_comma hread.2 hopens.2 hwidth.2
        (Nat.lt_of_succ_lt_succ hcount) depth 0 [a] rest
      rw [List.reverse_cons, List.map_cons, printItems_cons, List.append_assoc]
      have hrest := delimited_behindCommas print (items.map document) (Or.inl rfl) rest
      refine Answers.congr (answers_foldItems_next ?_ hread.1 hwidth.1 hrest hothers)
        Nat.max_le.symm
      exact nextItem_first hopens.1 _

/-- Items whose reader undoes their printing are read back in turn, up to the nesting limit. -/
theorem answers_inList {items : List α} (hread : ∀ a ∈ items, ReadsAs read (document a) a)
    (hopens : ∀ a ∈ items, Opens (document a).print)
    (hwidth : (print (.array (items.map document))).length < width) (depth : Nat)
    (rest : List Char) :
    Answers (heightItems (items.map document) ≤ depth)
      (inList (printItems (items.map document) ++ ']' :: rest)
        (foldItems (collectItem read width depth) width 0 []))
      (items.reverse, rest) := by
  simp only [print, List.length_cons, List.length_append, List.length_nil] at hwidth
  obtain ⟨hcount, hlength⟩ := length_printItems (items.map document)
  rw [List.length_map] at hcount
  rw [List.forall_mem_map] at hlength
  have hitems : ∀ a ∈ items, (document a).print.length < width := by
    intro a ha
    have := hlength a ha
    omega
  exact (answers_foldItems hread hopens hitems (by omega) depth rest).inList

/-- A list is read when its items are. -/
theorem ReadsAs.list {items : List α} (hread : ∀ a ∈ items, ReadsAs read (document a) a)
    (hopens : ∀ a ∈ items, Opens (document a).print) :
    ReadsAs (readList read) (.array (items.map document)) items := by
  intro width depth rest hwidth _
  rw [print, List.cons_append, List.append_assoc]
  refine answers_deeper (fun depth => ?_) depth
  refine (answers_inList hread hopens hwidth depth rest).bind_ok ?_
  simp only [List.reverse_reverse]

end Lists

/-! ## Objects -/

/-- The text of a member. -/
def memberText (member : String × Json) : List Char :=
  printString member.1.toList ++ ':' :: member.2.print

theorem memberText_append (member : String × Json) (rest : List Char) :
    memberText member ++ rest =
      printString member.1.toList ++ ':' :: (member.2.print ++ rest) := by
  rw [memberText, List.append_assoc, List.cons_append]

theorem printMembers_cons (member : String × Json) (members : Members) :
    printMembers (member :: members) = memberText member ++ behindCommas memberText members := by
  induction members generalizing member with
  | nil => rw [printMembers, behindCommas, List.flatMap_nil, List.append_nil, memberText]
  | cons next members ih =>
      rw [printMembers, ih next, memberText_append member]
      rfl

theorem length_printMembers (members : Members) :
    members.length ≤ (printMembers members).length + 1 ∧
      ∀ member ∈ members, member.2.print.length ≤ (printMembers members).length := by
  have hvalue : ∀ member : String × Json, member.2.print.length ≤ (memberText member).length := by
    intro member
    simp only [memberText, List.length_append, List.length_cons]
    omega
  cases members with
  | nil => exact ⟨Nat.zero_le _, by simp⟩
  | cons first members =>
      obtain ⟨hcount, hlength⟩ := length_behindCommas memberText members
      have hfirst := hvalue first
      rw [printMembers_cons, List.length_append, List.length_cons, List.forall_mem_cons]
      refine ⟨by omega, by omega, ?_⟩
      intro member hmember
      have := hlength member hmember
      have := hvalue member
      omega

theorem readKey_close (first : Bool) (rest : List Char) :
    readKey first ('\x7d' :: rest) = .ok (none, '\x7d' :: rest) := by
  rw [readKey, nextMember, skipSpace_cons (by decide)]
  rfl

/-- A key is read from its opening quote on. -/
theorem readKey_of_nextMember {first : Bool} {text : List Char} {key : String} {rest : List Char}
    (h : nextMember first text = .ok (true, printString key.toList ++ rest)) :
    readKey first text = .ok (some key, rest) := by
  have hkey : readString (printString key.toList ++ rest).tail = .ok (key.toList, rest) := by
    rw [printString_append, List.tail_cons, readString_flatMap_escape]
  rw [readKey, h]
  simp only [bind, Except.bind, if_true, hkey, String.ofList_toList]

/-- The first key is read back. -/
theorem readKey_first (key : String) (rest : List Char) :
    readKey true (printString key.toList ++ rest) = .ok (some key, rest) := by
  apply readKey_of_nextMember
  rw [nextMember, printString_append, skipSpace_cons (by decide)]
  rfl

theorem readKey_comma (key : String) (rest : List Char) :
    readKey false (',' :: (printString key.toList ++ rest)) = .ok (some key, rest) := by
  apply readKey_of_nextMember
  rw [nextMember, printString_append, skipSpace_cons (by decide)]
  rfl

section Members

variable {σ : Type}

/-- A step over the members of an object, with the bounds it works under. -/
abbrev MemberStep (σ : Type) :=
  (width depth : Nat) → String → σ → List Char → Outcome (σ × List Char)

/-- The step takes the member from one state to the next. -/
def StepsAs (step : MemberStep σ) (member : String × Json) (before after : σ) : Prop :=
  ∀ width depth rest, member.2.print.length < width → Delimited rest →
    Answers (member.2.height ≤ depth)
      (step width depth member.1 before (':' :: (member.2.print ++ rest))) (after, rest)

/-- The step takes the members, one after the other, from a first state to a last. -/
inductive Threads (step : MemberStep σ) : Members → σ → σ → Prop
  | nil (state : σ) : Threads step [] state state
  | cons {member : String × Json} {members : Members} {before between after : σ} :
      StepsAs step member before between → Threads step members between after →
        Threads step (member :: members) before after

variable {step : String → σ → List Char → Outcome (σ × List Char)}

theorem foldMembers_close {count : Nat} (hcount : 0 < count) (first : Bool) (state : σ)
    (rest : List Char) :
    foldMembers step count first state ('\x7d' :: rest) = .ok (state, '\x7d' :: rest) := by
  obtain ⟨count, rfl⟩ := Nat.exists_eq_add_one.mpr hcount
  rw [foldMembers, readKey_close]
  rfl

/-- The walk over members goes on with what the step leaves. -/
theorem foldMembers_next {first : Bool} {text rest : List Char} {key : String}
    (h : readKey first text = .ok (some key, rest)) (count : Nat) (state : σ) :
    foldMembers step (count + 1) first state text =
      step key state rest >>= fun (state, rest) => foldMembers step count false state rest := by
  have hkey : inside .unknown (readKey first text) = .ok (some key, rest) := by
    rw [h]
    rfl
  simp only [foldMembers, hkey]
  cases step key state rest <;> rfl

/-- One member is read, and then the others. -/
theorem answers_foldMembers_next {step : MemberStep σ} {member : String × Json}
    {before between : σ} {first : Bool} {text rest : List Char}
    (hkey : readKey first text = .ok (some member.1, ':' :: (member.2.print ++ rest)))
    (hstep : StepsAs step member before between) {width : Nat}
    (hwidth : member.2.print.length < width) (hrest : Delimited rest) {depth count : Nat}
    {fits : Prop} {result : σ × List Char}
    (hothers : Answers fits (foldMembers (step width depth) count false between rest) result) :
    Answers (member.2.height ≤ depth ∧ fits)
      (foldMembers (step width depth) (count + 1) first before text) result := by
  rw [foldMembers_next hkey]
  exact (hstep width depth rest hwidth hrest).bind hothers

/-- The members after the first, each behind a comma. -/
theorem Threads.answers_comma {step : MemberStep σ} {members : Members} {before after : σ}
    (hthreads : Threads step members before after) {width : Nat}
    (hwidth : ∀ member ∈ members, member.2.print.length < width) {count : Nat}
    (hcount : members.length < count) (depth : Nat) (rest : List Char) :
    Answers (heightMembers members ≤ depth)
      (foldMembers (step width depth) count false before
        (behindCommas memberText members ++ '\x7d' :: rest))
      (after, '\x7d' :: rest) := by
  induction hthreads generalizing count with
  | nil state =>
      exact Answers.of_eq_ok (foldMembers_close hcount false state rest) (Nat.zero_le depth)
  | @cons member members before between after hstep hthreads ih =>
      obtain ⟨count, rfl⟩ := Nat.exists_eq_add_one.mpr (Nat.zero_lt_of_lt hcount)
      rw [List.forall_mem_cons] at hwidth
      have hothers := ih hwidth.2 (Nat.lt_of_succ_lt_succ hcount)
      have hrest := delimited_behindCommas memberText members (Or.inr rfl) rest
      rw [behindCommas_cons, memberText_append]
      exact (answers_foldMembers_next (readKey_comma member.1 _) hstep hwidth.1 hrest hothers).congr
        Nat.max_le.symm

/-- A printed object is read member by member. -/
theorem Threads.answers {step : MemberStep σ} {members : Members} {before after : σ}
    (hthreads : Threads step members before after) {width : Nat}
    (hwidth : (print (.object members)).length < width) (depth : Nat) (rest : List Char) :
    Answers (heightMembers members ≤ depth)
      (foldMembers (step width depth) width true before (printMembers members ++ '\x7d' :: rest))
      (after, '\x7d' :: rest) := by
  -- the text is longer than any member, and than the members are many
  obtain ⟨hcount, hlength⟩ := length_printMembers members
  simp only [print, List.length_cons, List.length_append, List.length_nil] at hwidth
  replace hcount : members.length < width := by omega
  replace hlength : ∀ member ∈ members, member.2.print.length < width := by
    intro member hmember
    have := hlength member hmember
    omega
  cases hthreads with
  | nil =>
      exact Answers.of_eq_ok (foldMembers_close (by omega) true before rest) (Nat.zero_le depth)
  | @cons member members _ between _ hstep hthreads =>
      rw [List.forall_mem_cons] at hlength
      obtain ⟨count, hcountEq⟩ := Nat.exists_eq_add_one.mpr (Nat.zero_lt_of_lt hcount)
      have hothers := hthreads.answers_comma hlength.2 (Nat.lt_of_succ_lt_succ (hcountEq ▸ hcount))
        depth rest
      have hrest := delimited_behindCommas memberText members (Or.inr rfl) rest
      rw [printMembers_cons, List.append_assoc, memberText_append]
      rw [hcountEq] at hothers hlength ⊢
      refine Answers.congr ?_ Nat.max_le.symm
      exact answers_foldMembers_next (readKey_first member.1 _) hstep hlength.1 hrest hothers

/-- The colon and the value after a key. -/
theorem ReadsAs.answers_readMember {α : Type} {read : Reader α} {document : Json} {a : α}
    (h : ReadsAs read document a) {width : Nat} (hwidth : document.print.length < width)
    (depth : Nat) {rest : List Char} (hrest : Delimited rest) (key : String) :
    Answers (document.height ≤ depth)
      (readMember key (read width depth) (':' :: (document.print ++ rest))) (a, rest) := by
  have hcolon : readColon (':' :: (document.print ++ rest)) = .ok (document.print ++ rest) := by
    rw [readColon, skipSpace_cons (by decide)]
    rfl
  rw [readMember, hcolon]
  exact (h width depth rest hwidth hrest).inside (.key key)

end Members

end ProtocolCodec.Json
