import ProtocolCodec.Proofs.Json.Documents

/-!
# Reading what was printed: values

The reader of values gives back every document without floating point numbers. The documents of
metamodels are of this kind, so nothing has to be known about the digits of binary64 numbers.
-/

namespace ProtocolCodec.Json

/-- A document all of whose numbers are integers. -/
inductive Integral : Json → Prop
  | null : Integral .null
  | boolean (b : Bool) : Integral (.boolean b)
  | whole (n : Whole) : Integral (.number (.whole n))
  | string (s : String) : Integral (.string s)
  | array {items : List Json} : (∀ item ∈ items, Integral item) → Integral (.array items)
  | object {members : Members} :
      (∀ member ∈ members, Integral member.2) → Integral (.object members)

/-- A text that starts with a token other than an opening or closing bracket. -/
def OpensScalar (text : List Char) : Prop :=
  ∃ c tail, text = c :: tail ∧ isSpace c = false ∧ c ≠ ']' ∧ c ≠ '[' ∧ c ≠ '\x7b'

theorem OpensScalar.opens {text : List Char} (h : OpensScalar text) : Opens text := by
  obtain ⟨c, tail, heq, hspace, hclose, _⟩ := h
  exact ⟨c, tail, heq, hspace, hclose⟩

theorem isSpace_of_isDigit {c : Char} (h : c.isDigit = true) : isSpace c = false := by
  cases hspace : isSpace c with
  | false => rfl
  | true =>
      simp only [isSpace, Bool.or_eq_true, beq_iff_eq] at hspace
      rcases hspace with ((rfl | rfl) | rfl) | rfl <;> exact absurd h (by decide)

theorem opensScalar_decimalInt (n : Int) : OpensScalar (Text.decimalInt n) := by
  cases n with
  | ofNat n =>
      obtain ⟨first, digits, heq, _⟩ := decimalNat_eq_cons n
      have hdigit : first.isDigit = true := isDigit_of_mem_decimalNat (heq ▸ List.mem_cons_self)
      refine ⟨first, digits, heq, isSpace_of_isDigit hdigit, ?_, ?_, ?_⟩
      all_goals
        rintro rfl
        exact absurd hdigit (by decide)
  | negSucc n => exact ⟨'-', _, rfl, by decide, by decide, by decide, by decide⟩

/-- A printed document starts with a token that does not end an array. -/
theorem Integral.opens_print {document : Json} (h : document.Integral) : Opens document.print := by
  cases h with
  | null => exact ⟨'n', _, rfl, by decide, by decide⟩
  | boolean b => cases b <;> exact ⟨_, _, rfl, by decide, by decide⟩
  | whole n => exact (opensScalar_decimalInt n.value).opens
  | string s => exact ⟨'"', _, rfl, by decide, by decide⟩
  | array _ => exact ⟨'[', _, rfl, by decide, by decide⟩
  | object _ => exact opens_object _

theorem readValue_scalar {text : List Char} (h : OpensScalar text) (width depth : Nat)
    (rest : List Char) : readValue width depth (text ++ rest) = readScalar (text ++ rest) := by
  obtain ⟨c, tail, rfl, hspace, _, hbracket, hbrace⟩ := h
  cases depth
  all_goals
    rw [readValue, List.cons_append, skipSpace_cons hspace]
    split
    next heq => exact absurd (List.cons.inj heq).1 hbracket
    next heq => exact absurd (List.cons.inj heq).1 hbrace
    next => rfl

/-- Read one more member of an object. -/
def collectMember : MemberStep Members := fun width depth key members text => do
  let (value, rest) ← readMember key (readValue width depth) text
  .ok ((key, value) :: members, rest)

/-- Behind a bracket the items of an array are read, one level deeper. -/
theorem readValue_bracket (width depth : Nat) (text : List Char) :
    readValue width depth ('[' :: text) =
      deeper depth ('[' :: text) fun depth =>
        inList text (foldItems (collectItem readValue width depth) width 0 []) >>=
          fun (items, rest) => .ok (.array items.reverse, rest) := by
  cases depth <;> rfl

/-- Behind a brace the members of an object are read, one level deeper. -/
theorem readValue_brace (width depth : Nat) (text : List Char) :
    readValue width depth ('\x7b' :: text) =
      deeper depth ('\x7b' :: text) fun depth =>
        inObject text (foldMembers (collectMember width depth) width true []) >>=
          fun (members, rest) => .ok (.object members.reverse, rest) := by
  cases depth <;> rfl

/-- Members are gathered in reverse. -/
theorem threads_collectMember {members : Members}
    (hread : ∀ member ∈ members, ReadsAs readValue member.2 member.2) (done : Members) :
    Threads collectMember members done (members.reverse ++ done) := by
  induction members generalizing done with
  | nil => exact .nil done
  | cons member members ih =>
      rw [List.forall_mem_cons] at hread
      rw [List.reverse_cons, List.append_assoc, List.singleton_append]
      refine .cons ?_ (ih hread.2 (member :: done))
      intro width depth rest hwidth hrest
      exact (hread.1.answers_readMember hwidth depth hrest member.1).bind_ok rfl

/-- A scalar that is read back by itself is read back as a document. -/
theorem readsAs_scalar {document : Json} (hopens : OpensScalar document.print)
    (hheight : document.height = 0)
    (hread : ∀ rest, Delimited rest → readScalar (document.print ++ rest) = .ok (document, rest)) :
    ReadsAs readValue document document := by
  intro width depth rest _ hrest
  refine Answers.of_eq_ok ?_ (by rw [hheight]; exact Nat.zero_le depth)
  rw [readValue_scalar hopens, hread rest hrest]

/-- The reader of values undoes printing. -/
theorem Integral.readsAs {document : Json} (h : document.Integral) :
    ReadsAs readValue document document := by
  induction h with
  | null =>
      exact readsAs_scalar ⟨'n', _, rfl, by decide, by decide, by decide, by decide⟩ rfl
        fun rest _ => rfl
  | boolean b =>
      cases b <;>
        exact readsAs_scalar ⟨_, _, rfl, by decide, by decide, by decide, by decide⟩ rfl
          fun rest _ => rfl
  | whole n =>
      exact readsAs_scalar (opensScalar_decimalInt n.value) rfl fun rest hrest =>
        readScalar_whole n hrest
  | string s =>
      exact readsAs_scalar ⟨'"', _, rfl, by decide, by decide, by decide, by decide⟩ rfl
        fun rest _ => readScalar_string s rest
  | @array items hitems ih =>
      intro width depth rest hwidth _
      have hopens : ∀ item ∈ items, Opens item.print :=
        fun item hitem => (hitems item hitem).opens_print
      have hbody := fun depth => answers_inList ih hopens (by rwa [List.map_id']) depth rest
      rw [List.map_id'] at hbody
      rw [print, List.cons_append, List.append_assoc, readValue_bracket]
      refine answers_deeper (fun depth => ?_) depth
      refine (hbody depth).bind_ok ?_
      simp only [List.reverse_reverse]
  | @object members hmembers ih =>
      intro width depth rest hwidth _
      have hthreads := threads_collectMember ih []
      rw [print, List.cons_append, List.append_assoc, readValue_brace]
      refine answers_deeper (fun depth => ?_) depth
      refine (hthreads.answers hwidth depth rest).inObject.bind_ok ?_
      simp only [List.append_nil, List.reverse_reverse]

end ProtocolCodec.Json
