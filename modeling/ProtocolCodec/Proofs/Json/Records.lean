import ProtocolCodec.Proofs.Json.Documents

/-!
# Reading what was printed: records

A record that is written with all its fields, in their order, is read back when each field is: the
walk over the members finds the field of every key, no key comes twice, and none is missing at the
end.
-/

namespace ProtocolCodec.Json

/-! ## Leaves -/

theorem readsAs_text (s : String) : ReadsAs readText (.string s) s := by
  intro width depth rest _ _
  refine Answers.of_eq_ok ?_ (Nat.zero_le depth)
  rw [print, printString_append, readText, skipSpace_cons (by decide)]
  simp only [readString_flatMap_escape, bind, Except.bind, String.ofList_toList]

theorem readsAs_flag (b : Bool) : ReadsAs readFlag (.boolean b) b := by
  intro width depth rest _ _
  refine Answers.of_eq_ok ?_ (Nat.zero_le depth)
  cases b <;> rfl

/-- A string or null, each read as it was written. -/
theorem readsAs_nullable (s : Option String) :
    ReadsAs (readNullable readText) (ofString? s) s := by
  intro width depth rest hwidth hrest
  cases s with
  | none => exact Answers.of_eq_ok rfl (Nat.zero_le depth)
  | some s => exact (readsAs_text s width depth rest hwidth hrest).bind_ok rfl

section Records

variable {α β : Type}

/-- A field is stored as the value that its document is read as. -/
theorem ReadsAs.stored {read : Reader β} {document : Json} {b : β} (h : ReadsAs read document b)
    {required : Bool} {key : String} {put : α → β → α} {a : α} :
    ReadsAs ((textField required key read put).store a) document (put a b) := by
  intro width depth rest hwidth hrest
  exact (h width depth rest hwidth hrest).bind_ok rfl

/-! ## Members of a record -/

/-- The fields read the members, each its own, into the record. -/
inductive StoredBy : List (TextField α) → Members → α → α → Prop
  | nil (a : α) : StoredBy [] [] a a
  | cons {field : TextField α} {fields : List (TextField α)} {document : Json} {members : Members}
      {a b c : α} :
      ReadsAs (field.store a) document b → StoredBy fields members b c →
        StoredBy (field :: fields) ((field.key, document) :: members) a c

theorem find?_key {field : TextField α} {before after : List (TextField α)}
    (hkeys : ((before ++ field :: after).map Field.key).Nodup) :
    (before ++ field :: after).find? (·.key == field.key) = some field := by
  rw [List.map_append, List.map_cons, List.nodup_append] at hkeys
  have hbefore : before.find? (·.key == field.key) = none := by
    apply List.find?_eq_none.mpr
    intro other hother heq
    exact hkeys.2.2 other.key (List.mem_map_of_mem hother) field.key List.mem_cons_self
      (beq_iff_eq.mp heq)
  rw [List.find?_append, hbefore, Option.none_or]
  exact List.find?_cons_of_pos (beq_self_eq_true field.key)

/-- A member whose key is new is read into its field. -/
theorem stepsAs_readField {fields : List (TextField α)} {field : TextField α}
    (hfind : fields.find? (·.key == field.key) = some field) {seen : List String}
    (hseen : field.key ∉ seen) {document : Json} {a b : α}
    (hread : ReadsAs (field.store a) document b) :
    StepsAs (readField fields) (field.key, document) (seen, a) (field.key :: seen, b) := by
  intro width depth rest hwidth hrest
  have hnew : seen.contains field.key = false := by simpa using hseen
  simp only [readField, hfind, hnew, Bool.false_eq_true, if_false]
  exact (hread.answers_readMember hwidth depth hrest field.key).bind_ok rfl

/-- The walk over the members, with the keys of the fields that were read before. -/
theorem StoredBy.threads {fields : List (TextField α)} {members : Members} {a b : α}
    (h : StoredBy fields members a b) {all before : List (TextField α)}
    (hall : all = before ++ fields) (hkeys : (all.map Field.key).Nodup) :
    Threads (readField all) members ((before.map Field.key).reverse, a)
      ((all.map Field.key).reverse, b) := by
  induction h generalizing before with
  | nil a =>
      rw [hall, List.append_nil]
      exact .nil _
  | @cons field fields document members a b c hread hstored ih =>
      subst hall
      -- the keys seen are those of the fields before, which the next key is not among
      have hseen : field.key ∉ (before.map Field.key).reverse := by
        rw [List.map_append, List.map_cons, List.nodup_append] at hkeys
        intro hmem
        exact hkeys.2.2 field.key (List.mem_reverse.mp hmem) field.key List.mem_cons_self rfl
      have hothers := ih (List.append_cons before field fields)
      rw [List.map_append, List.reverse_append] at hothers
      exact .cons (stepsAs_readField (find?_key hkeys) hseen hread) hothers

/-- No field is missing when all keys have been seen. -/
theorem firstMissing?_of_all (fields : List (TextField α)) :
    firstMissing? fields (fields.map Field.key).reverse = none := by
  unfold firstMissing?
  rw [Option.map_eq_none_iff, List.find?_eq_none]
  intro field hfield
  simp [List.mem_map_of_mem hfield]

/-- A record is read when its fields are. -/
theorem StoredBy.readsAs {fields : List (TextField α)} {members : Members} {blank result : α}
    (h : StoredBy fields members blank result) (hkeys : (fields.map Field.key).Nodup)
    (name : String) : ReadsAs (readRecord name fields blank) (.object members) result := by
  intro width depth rest hwidth _
  have hthreads := h.threads (List.nil_append fields).symm hkeys
  rw [print, List.cons_append, List.append_assoc]
  refine answers_deeper (fun depth => ?_) depth
  apply Answers.inObject
  refine (hthreads.answers hwidth depth rest).bind_ok ?_
  simp only [firstMissing?_of_all]

end Records

end ProtocolCodec.Json
