import Mathlib.Tactic.Common

namespace Foundation.Runs

variable {State Abstract Label : Type} {step : Label → State → State → Prop}
  {meets : Label → State → Prop} {start : State}

/-- The states reached from `start` by steps that meet the condition in the state
they start from. -/
inductive Reached (step : Label → State → State → Prop) (meets : Label → State → Prop)
    (start : State) : State → Prop
  | start : Reached step meets start start
  | next {label : Label} {before after : State} : Reached step meets start before →
      meets label before → step label before after → Reached step meets start after

/-- What holds in the first state and is preserved by the steps of a run holds in every
state of it. -/
theorem Reached.invariant (holds : State → Prop) (first : holds start)
    (preserved : ∀ label before after, holds before → meets label before →
      step label before after → holds after) {state : State}
    (reached : Reached step meets start state) : holds state := by
  induction reached with
  | start => exact first
  | next _ condition taken ih => exact preserved _ _ _ ih condition taken

theorem Reached.mono {weaker : Label → State → Prop}
    (weakens : ∀ label state, meets label state → weaker label state) {state : State}
    (reached : Reached step meets start state) : Reached step weaker start state := by
  induction reached with
  | start => exact .start
  | next _ condition taken ih => exact .next ih (weakens _ _ condition) taken

/-- The runs with the labels of their steps. -/
inductive Traced (step : Label → State → State → Prop) (start : State) : List Label → State → Prop
  | start : Traced step start [] start
  | next {labels : List Label} {label : Label} {before after : State} :
      Traced step start labels before → step label before after →
      Traced step start (labels ++ [label]) after

theorem Traced.reached {labels : List Label} {state : State}
    (traced : Traced step start labels state) : Reached step (fun _ _ => True) start state := by
  induction traced with
  | start => exact .start
  | next _ taken ih => exact .next ih trivial taken

/-- What every step makes of an abstraction, the run makes of it one step after the other. -/
theorem Traced.folds (abstraction : State → Abstract) (abstractStep : Abstract → Label → Abstract)
    (steps : ∀ label before after, Reached step (fun _ _ => True) start before →
      step label before after → abstraction after = abstractStep (abstraction before) label)
    {labels : List Label} {state : State} (traced : Traced step start labels state) :
    abstraction state = labels.foldl abstractStep (abstraction start) := by
  induction traced with
  | start => rfl
  | next before taken ih =>
      rw [List.foldl_append, ← ih]
      exact steps _ _ _ before.reached taken

/-- A system and a machine that follows its labels take their steps together. -/
def follows (step : Label → State → State → Prop) (abstractStep : Label → Abstract → Abstract) :
    Label → State × Abstract → State × Abstract → Prop :=
  fun label before after => step label before.1 after.1 ∧ after.2 = abstractStep label before.2

theorem Reached.of_follows {abstractStep : Label → Abstract → Abstract} {first : Abstract}
    {both : State × Abstract} (reached : Reached (follows step abstractStep)
      (fun label state => meets label state.1) (start, first) both) :
    Reached step meets start both.1 := by
  induction reached with
  | start => exact .start
  | next _ condition taken ih => exact ih.next condition taken.1

end Foundation.Runs
