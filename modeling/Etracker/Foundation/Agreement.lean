import Etracker.Foundation.Traversal

namespace Foundation.Outcome

open Foundation.Traversal

variable {Error First Second Later Later' : Type}

/-- Both fail in the same way, or both are done and their results are related. -/
inductive Agree (related : First → Second → Prop) :
    Except Error First → Except Error Second → Prop
  | failed (error : Error) : Agree related (.error error) (.error error)
  | done {first : First} {second : Second} (holds : related first second) :
      Agree related (.ok first) (.ok second)

namespace Agree

variable {related : First → Second → Prop} {related' : Later → Later' → Prop}
  {first : Except Error First} {second : Except Error Second}

theorem bind {next : First → Except Error Later} {next' : Second → Except Error Later'}
    (agree : Agree related first second)
    (follows : ∀ value value', related value value' → Agree related' (next value) (next' value')) :
    Agree related' (first >>= next) (second >>= next') := by
  cases agree with
  | failed error => exact .failed error
  | done holds => exact follows _ _ holds

theorem bind_same {Shared : Type} (shared : Except Error Shared)
    {next : Shared → Except Error Later} {next' : Shared → Except Error Later'}
    (follows : ∀ value, shared = .ok value → Agree related' (next value) (next' value)) :
    Agree related' (shared >>= next) (shared >>= next') := by
  cases shared with
  | error error => exact .failed error
  | ok value => exact follows value rfl

theorem mapError {Error' : Type} (agree : Agree related first second)
    (change : Error → Error') : Agree related (first.mapError change) (second.mapError change) := by
  cases agree with
  | failed error => exact .failed _
  | done holds => exact .done holds

theorem of_ok {value' : Second} (agree : Agree related first (.ok value')) :
    ∃ value, first = .ok value ∧ related value value' := by
  cases agree with
  | done holds => exact ⟨_, rfl, holds⟩

end Agree

section Visits

variable {Element Freed State State' : Type}

structure AlikeVisits (related : State → State' → Prop) (visit : Visit Element Freed State)
    (visit' : Visit Element Freed State') : Prop where
  stop : visit.stop = visit'.stop
  kept : visit.kept = visit'.kept
  freed : visit.freed = visit'.freed
  state : related visit.state visit'.state

variable {related : State → State' → Prop}
  {step : Element → State → Except Error (Visit Element Freed State)}
  {step' : Element → State' → Except Error (Visit Element Freed State')}

theorem traverse_agree {elements : List Element}
    (agrees : ∀ element ∈ elements, ∀ state state', related state state' →
      Agree (AlikeVisits related) (step element state) (step' element state'))
    {state : State} {state' : State'} (first : related state state') :
    Agree (AlikeVisits related) (traverse step elements state)
      (traverse step' elements state') := by
  induction elements generalizing state state' with
  | nil => exact .done ⟨rfl, rfl, rfl, first⟩
  | cons element rest ih =>
      have later := fun other member => agrees other (List.mem_cons_of_mem _ member)
      apply (agrees element List.mem_cons_self state state' first).bind
      intro visit visit' alike
      cases stops : visit.stop with
      | true =>
          rw [andThen_stop stops, andThen_stop (alike.stop.symm.trans stops)]
          apply Agree.done
          exact ⟨alike.stop, congrArg (· ++ rest) alike.kept, alike.freed, alike.state⟩
      | false =>
          rw [andThen_continue stops, andThen_continue (alike.stop.symm.trans stops)]
          apply (ih later alike.state).bind
          intro second second' alike'
          apply Agree.done
          exact ⟨alike'.stop, congrArg₂ (· ++ ·) alike.kept alike'.kept,
            congrArg₂ (· ++ ·) alike.freed alike'.freed, alike'.state⟩

end Visits

end Foundation.Outcome
