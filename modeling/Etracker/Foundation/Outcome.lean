import Mathlib.Tactic.Common

namespace Foundation.Outcome

variable {Error Result Next : Type}

@[simp] theorem ok_bind (value : Result) (next : Result → Except Error Next) :
    (Except.ok value >>= next) = next value := rfl

@[simp] theorem error_bind (error : Error) (next : Result → Except Error Next) :
    (Except.error error >>= next) = Except.error error := rfl

@[simp] theorem pure_eq_ok (value : Result) : (pure value : Except Error Result) = .ok value := rfl

@[simp] theorem throw_eq_error (error : Error) :
    (throw error : Except Error Result) = .error error := rfl

theorem bind_eq_ok {first : Except Error Result} {next : Result → Except Error Next} {final : Next}
    (completed : (first >>= next) = .ok final) :
    ∃ middle, first = .ok middle ∧ next middle = .ok final := by
  cases first with
  | error error => cases completed
  | ok middle => exact ⟨middle, rfl, completed⟩

end Foundation.Outcome
