import Mathlib

/-!
# Outcomes of steps that may fail

What follows from the success of a step that was put together from others: each of them succeeded.
-/

namespace DomainColoring.Outcome

variable {Failure Failure' Value Value' : Type} {first : Except Failure Value} {value : Value}

theorem bind_eq_ok_iff {next : Value → Except Failure Value'} {result : Value'} :
    first >>= next = .ok result ↔ ∃ value, first = .ok value ∧ next value = .ok result := by
  cases first <;> simp [bind, Except.bind]

theorem bind_pure_eq_ok_iff {change : Value → Value'} {result : Value'} :
    (first >>= fun value => pure (change value)) = .ok result ↔
      ∃ value, first = .ok value ∧ change value = result := by
  cases first <;> simp [bind, Except.bind, pure, Except.pure]

/-- A check that passed has nothing to hand on. -/
theorem check_bind_eq_ok_iff {check : Except Failure Unit} {next : Unit → Except Failure Value}
    {result : Value} : check >>= next = .ok result ↔ check = .ok () ∧ next () = .ok result := by
  cases check <;> simp [bind, Except.bind]

theorem bind_eq_error_iff {next : Value → Except Failure Value'} {failure : Failure} :
    first >>= next = .error failure ↔
      first = .error failure ∨ ∃ value, first = .ok value ∧ next value = .error failure := by
  cases first <;> simp [bind, Except.bind]

theorem map_eq_ok_iff {change : Value → Value'} {result : Value'} :
    first.map change = .ok result ↔ ∃ value, first = .ok value ∧ change value = result := by
  cases first <;> simp [Except.map]

theorem mapError_eq_ok_iff {change : Failure → Failure'} :
    first.mapError change = .ok value ↔ first = .ok value := by
  cases first <;> simp [Except.mapError]

theorem mapError_eq_error_iff {change : Failure → Failure'} {failure : Failure'} :
    first.mapError change = .error failure ↔
      ∃ before, first = .error before ∧ change before = failure := by
  cases first <;> simp [Except.mapError]

theorem throw_ne_ok {failure : Failure} : (throw failure : Except Failure Value) ≠ .ok value :=
  nofun

theorem map_throw {change : Value → Value'} {failure : Failure} :
    change <$> (throw failure : Except Failure Value) = throw failure :=
  rfl

theorem pure_eq_ok_iff {result : Value} :
    (pure value : Except Failure Value) = .ok result ↔ result = value :=
  ⟨fun same => (Except.ok.inj same).symm, fun same => congrArg _ same.symm⟩

theorem pure_ne_error {failure : Failure} :
    (pure value : Except Failure Value) ≠ .error failure :=
  nofun

theorem isOk_iff : first.isOk = true ↔ ∃ value, first = .ok value := by
  cases first <;> simp [Except.isOk, Except.toBool]

end DomainColoring.Outcome
