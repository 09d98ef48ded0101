import Mathlib.Data.List.Pairwise
import ProtocolCodec.Json.Record
import ProtocolCodec.Proofs.Outcome

/-!
# The order of members

Where the fields of a record are stored independently of one another, the order in which the
members of an object are decoded does not matter, nor do members that no field has.
-/

namespace ProtocolCodec.Json

variable {α β γ : Type}

/-- Storing into one field and then into another is storing in the other order. -/
def Commutes (first second : ValueField α) : Prop :=
  ∀ a v w, (first.store a v >>= (second.store · w)).toOption =
    (second.store a w >>= (first.store · v)).toOption

instance : Std.Symm (Commutes (α := α)) where
  symm _ _ h a v w := (h a w v).symm

/-- Fields commute when what they put into the record does. -/
theorem commutes_valueField {required required' : Bool} {key key' : String} {decode : Decoder β}
    {decode' : Decoder γ} {put : α → β → α} {put' : α → γ → α}
    (h : ∀ a b c, put' (put a b) c = put (put' a c) b) :
    Commutes (valueField required key decode put) (valueField required' key' decode' put') := by
  intro a v w
  simp only [valueField]
  cases decode v with
  | error cause => cases decode' w <;> rfl
  | ok b =>
      cases decode' w with
      | error cause => rfl
      | ok c => exact congrArg some (h a b c)

section Members

variable {fields : List (ValueField α)} {seen seen' last : List String} {a b : α} {key : String}
  {value : Json} {members others : Members}

/-- A member of no field is passed over. -/
theorem decodeMembers_pass (hnone : fields.find? (·.key == key) = none) :
    decodeMembers fields seen a ((key, value) :: members) =
      decodeMembers fields seen a members := by
  rw [decodeMembers, hnone]

/-- A member of a field is stored when its key is new. -/
theorem decodeMembers_store {field : ValueField α}
    (hsome : fields.find? (·.key == key) = some field) (hkey : key ∉ seen)
    (hstore : field.store a value = .ok b) :
    decodeMembers fields seen a ((key, value) :: members) =
      decodeMembers fields (key :: seen) b members := by
  have hcontains : seen.contains key = false := by simpa using hkey
  rw [decodeMembers, hsome]
  simp only [hcontains, hstore]
  rfl

/-- What the decoding of a first member can do: pass over it, or store it. -/
theorem decodeMembers_cases
    (h : decodeMembers fields seen a ((key, value) :: members) = .ok (last, b)) :
    (fields.find? (·.key == key) = none ∧ decodeMembers fields seen a members = .ok (last, b)) ∨
      ∃ field c, fields.find? (·.key == key) = some field ∧ key ∉ seen ∧
        field.store a value = .ok c ∧
        decodeMembers fields (key :: seen) c members = .ok (last, b) := by
  rw [decodeMembers] at h
  split at h
  next hnone => exact .inl ⟨hnone, h⟩
  next field hsome =>
    split at h
    · cases h
    next hseen =>
      split at h
      · cases h
      next c hstore => exact .inr ⟨field, c, hsome, by simpa using hseen, hstore, h⟩

/-- Only which keys have been seen matters, not in which order. -/
theorem decodeMembers_seen (hseen : seen.Perm seen')
    (h : decodeMembers fields seen a members = .ok (last, b)) :
    ∃ last', last.Perm last' ∧ decodeMembers fields seen' a members = .ok (last', b) := by
  induction members generalizing seen seen' a with
  | nil =>
      cases h
      exact ⟨seen', hseen, rfl⟩
  | cons member members ih =>
      obtain ⟨key, value⟩ := member
      rcases decodeMembers_cases h with ⟨hnone, h⟩ | ⟨field, c, hsome, hkey, hstore, h⟩
      · rw [decodeMembers_pass hnone]
        exact ih hseen h
      · rw [decodeMembers_store hsome (fun hmem => hkey (hseen.mem_iff.mpr hmem)) hstore]
        exact ih (hseen.cons key) h

/-- Stores under two keys change places. -/
theorem exists_store_of_commutes {first second : ValueField α} (h : Commutes first second)
    {v w : Json} {c : α} (hfirst : first.store a v = .ok b) (hsecond : second.store b w = .ok c) :
    ∃ d, second.store a w = .ok d ∧ first.store d v = .ok c := by
  have hboth : second.store a w >>= (first.store · v) = .ok c := by
    have hcommute := h a v w
    rw [hfirst] at hcommute
    exact toOption_eq_some_iff.mp (hcommute.symm.trans (toOption_eq_some_iff.mpr hsecond))
  exact exists_of_bind_eq_ok hboth

/-- Two members next to each other may change places. -/
theorem decodeMembers_swap (hcommute : fields.Pairwise Commutes) {first second : String × Json}
    (h : decodeMembers fields seen a (first :: second :: members) = .ok (last, b)) :
    ∃ last', last.Perm last' ∧
      decodeMembers fields seen a (second :: first :: members) = .ok (last', b) := by
  obtain ⟨key, v⟩ := first
  obtain ⟨key', w⟩ := second
  rcases decodeMembers_cases h with ⟨hnone, h⟩ | ⟨field, c, hsome, hkey, hstore, h⟩ <;>
    rcases decodeMembers_cases h with ⟨hnone', h⟩ | ⟨field', c', hsome', hkey', hstore', h⟩
  · rw [decodeMembers_pass hnone', decodeMembers_pass hnone]
    exact ⟨last, .refl last, h⟩
  · rw [decodeMembers_store hsome' hkey' hstore', decodeMembers_pass hnone]
    exact ⟨last, .refl last, h⟩
  · rw [decodeMembers_pass hnone', decodeMembers_store hsome hkey hstore]
    exact ⟨last, .refl last, h⟩
  · -- Both are stored, under two keys and so into two fields.
    obtain ⟨hdistinct, hkey'⟩ := not_or.mp (List.mem_cons.not.mp hkey')
    have hfields : field ≠ field' := by
      rintro rfl
      have hfound := List.find?_some hsome
      have hfound' := List.find?_some hsome'
      exact hdistinct ((beq_iff_eq.mp hfound').symm.trans (beq_iff_eq.mp hfound))
    have hpair : Commutes field field' :=
      hcommute.forall (List.mem_of_find?_eq_some hsome) (List.mem_of_find?_eq_some hsome') hfields
    obtain ⟨d, hstore', hstore⟩ := exists_store_of_commutes hpair hstore hstore'
    have hkey : key ∉ key' :: seen := fun hmem =>
      (List.mem_cons.mp hmem).elim (fun heq => hdistinct heq.symm) hkey
    rw [decodeMembers_store hsome' hkey' hstore', decodeMembers_store hsome hkey hstore]
    exact decodeMembers_seen (.swap key key' seen) h

/-- The order of the members does not matter. -/
theorem decodeMembers_perm (hcommute : fields.Pairwise Commutes) (hperm : members.Perm others)
    (h : decodeMembers fields seen a members = .ok (last, b)) :
    ∃ last', last.Perm last' ∧ decodeMembers fields seen a others = .ok (last', b) := by
  induction hperm generalizing seen a last with
  | nil => exact ⟨last, .refl last, h⟩
  | cons member _ ih =>
      obtain ⟨key, value⟩ := member
      rcases decodeMembers_cases h with ⟨hnone, h⟩ | ⟨field, c, hsome, hkey, hstore, h⟩
      · rw [decodeMembers_pass hnone]
        exact ih h
      · rw [decodeMembers_store hsome hkey hstore]
        exact ih h
  | swap first second members => exact decodeMembers_swap hcommute h
  | trans _ _ ih ih' =>
      obtain ⟨middle, hmiddle, h⟩ := ih h
      obtain ⟨last', hlast, h⟩ := ih' h
      exact ⟨last', hmiddle.trans hlast, h⟩

/-- Members that no field has do not matter. -/
theorem decodeMembers_append_unknown {added : Members}
    (hadded : ∀ member ∈ added, fields.find? (·.key == member.1) = none) :
    decodeMembers fields seen a (members ++ added) = decodeMembers fields seen a members := by
  induction members generalizing seen a with
  | nil =>
      induction added with
      | nil => rfl
      | cons member added ih =>
          obtain ⟨hmember, hadded⟩ := List.forall_mem_cons.mp hadded
          exact (decodeMembers_pass hmember).trans (ih hadded)
  | cons member members ih =>
      obtain ⟨key, value⟩ := member
      rw [List.cons_append, decodeMembers, decodeMembers]
      simp only [ih]

/-- Which field is missing does not depend on the order of the keys seen. -/
theorem firstMissing?_perm {σ : Type} (fields : List (Field σ)) (hseen : seen.Perm seen') :
    firstMissing? fields seen = firstMissing? fields seen' := by
  have hcontains : ∀ key, seen.contains key = seen'.contains key := fun key =>
    Bool.eq_iff_iff.mpr (by simpa using hseen.mem_iff)
  simp only [firstMissing?, hcontains]

/-- A record stays the same when members change places and others are added that no field has. -/
theorem decodeRecord_object_perm {label : String} {blank : α} {added : Members}
    (hcommute : fields.Pairwise Commutes)
    (hadded : ∀ member ∈ added, fields.find? (·.key == member.1) = none)
    (hperm : (members ++ added).Perm others)
    (h : decodeRecord label fields blank (.object members) = .ok b) :
    decodeRecord label fields blank (.object others) = .ok b := by
  rw [decodeRecord] at h ⊢
  obtain ⟨⟨seen, c⟩, hmembers, h⟩ := exists_of_bind_eq_ok h
  rw [← decodeMembers_append_unknown hadded] at hmembers
  obtain ⟨seen', hseen, hothers⟩ := decodeMembers_perm hcommute hperm hmembers
  simp only [hothers, bind, Except.bind, ← firstMissing?_perm fields hseen]
  exact h

end Members

end ProtocolCodec.Json
