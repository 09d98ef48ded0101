import Mathlib.Logic.Basic

/-!
# Outcomes of computations that can fail

Where only the results of a computation matter and not its failures, it is looked at as an option.
-/

namespace ProtocolCodec

section

variable {ε α β : Type} {first : Except ε α} {rest : α → Except ε β} {a : α} {b : β}

/-- A sequence succeeds when its first part does and then the rest. -/
theorem exists_of_bind_eq_ok (h : first >>= rest = .ok b) :
    ∃ a, first = .ok a ∧ rest a = .ok b := by
  cases first with
  | error error => cases h
  | ok a => exact ⟨a, rfl, h⟩

theorem exists_of_map_eq_ok {f : α → β} (h : first.map f = .ok b) :
    ∃ a, first = .ok a ∧ f a = b := by
  cases first with
  | error error => cases h
  | ok a => exact ⟨a, rfl, Except.ok.inj h⟩

theorem toOption_bind :
    (first >>= rest).toOption = first.toOption.bind fun a => (rest a).toOption := by
  cases first <;> rfl

theorem toOption_eq_some_iff : first.toOption = some a ↔ first = .ok a := by
  cases first <;> simp [Except.toOption]

end

end ProtocolCodec
