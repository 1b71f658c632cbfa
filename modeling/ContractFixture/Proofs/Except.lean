/-! # Success of a computation that can fail -/

namespace ContractFixture

theorem map_eq_ok {ε α β : Type} {o : Except ε α} {f : α → β} {b : β} (h : o.map f = .ok b) :
    ∃ a, o = .ok a ∧ b = f a := by
  cases o with
  | error e => cases h
  | ok a =>
    cases h
    exact ⟨a, rfl, rfl⟩

theorem bind_eq_ok {ε α β : Type} {o : Except ε α} {next : α → Except ε β} {b : β}
    (h : o.bind next = .ok b) : ∃ a, o = .ok a ∧ next a = .ok b := by
  cases o with
  | error e => cases h
  | ok a => exact ⟨a, rfl, h⟩

theorem eq_ok_of_isSome {ε α : Type} {o : Except ε α} (h : o.toOption.isSome = true) :
    ∃ a, o = .ok a := by
  cases o with
  | error e => cases h
  | ok a => exact ⟨a, rfl⟩

end ContractFixture
