import Etracker.Foundation.Runs
import Etracker.Interval.Bounds

namespace Etracker

open Foundation.CString Foundation.Outcome Foundation.Runs

inductive IntervalTurn (Load : Type)
  | update (load : Option (Load × Load × Load)) (maxAllow : Load)
  | force (value : UInt32)
  | step

section Turns

variable {Load : Type} [LT Load] [DecidableLT Load]

inductive IntervalStep : IntervalTurn Load → Interval → Interval → Prop
  | update {interval : Interval} {load : Option (Load × Load × Load)} {maxAllow : Load} :
      IntervalStep (.update load maxAllow) interval (updateInterval interval load maxAllow)
  | force {interval : Interval} {value : UInt32} :
      IntervalStep (.force value) interval (forceUpdateInterval interval value)
  | step {interval : Interval} : IntervalStep .step interval (stepInterval interval).1

/-- The intervals that a command line can lead to. -/
def ReachedInterval (arguments : Arguments Load) : Interval → Prop :=
  Reached (@IntervalStep Load _ _) (fun _ _ => True) (Interval.start arguments)

end Turns

section Law

variable {Load : Type} [LT Load]

def LowLoad (load : Load × Load × Load) (maxAllow : Load) : Prop :=
  load.1 < maxAllow ∧ load.2.1 < maxAllow ∧ load.2.2 < maxAllow

def HighLoad (load : Load × Load × Load) (maxAllow : Load) : Prop :=
  maxAllow < load.1 ∧ maxAllow < load.2.1 ∧ maxAllow < load.2.2

def Interval.clamped (interval : Interval) (value : Int) : Int :=
  min interval.maxInterval.toNat (max interval.minInterval.toNat value)

variable [DecidableLT Load]

/-- The required interval moves by one step against the load. -/
structure MovesRight (interval : Interval) (load : Load × Load × Load) (maxAllow : Load) :
    Prop where
  low : LowLoad load maxAllow →
    (updateInterval interval (some load) maxAllow).requireInterval.toNat =
      interval.clamped (interval.requireInterval.toNat - 60)
  high : ¬LowLoad load maxAllow → HighLoad load maxAllow →
    (updateInterval interval (some load) maxAllow).requireInterval.toNat =
      interval.clamped (interval.requireInterval.toNat + 60)
  other : ¬LowLoad load maxAllow → ¬HighLoad load maxAllow →
    (updateInterval interval (some load) maxAllow).requireInterval.toNat =
      interval.clamped interval.requireInterval.toNat
  least : LowLoad load maxAllow → interval.requireInterval ≤ interval.minInterval →
    (updateInterval interval (some load) maxAllow).requireInterval = interval.minInterval

/-- The step leads out of the numbers of 32 bits, and the limits leave a choice. -/
def StepWraps (interval : Interval) (load : Load × Load × Load) (maxAllow : Load) : Prop :=
  interval.minInterval ≠ interval.maxInterval ∧
    (LowLoad load maxAllow ∧ interval.requireInterval < 60 ∨
      ¬LowLoad load maxAllow ∧ HighLoad load maxAllow ∧
        2 ^ 32 - 60 ≤ interval.requireInterval.toNat)

end Law

structure Interval.Limited (interval : Interval) : Prop where
  least : argumentMinIntervalDefault.toNat ≤ interval.minInterval.toNat
  ordered : interval.minInterval.toNat ≤ interval.maxInterval.toNat
  most : interval.maxInterval.toNat ≤ argumentMaxIntervalDefault.toNat

theorem niceInterval_toNat (interval : Interval) (value : UInt32) :
    ((niceInterval interval value).toNat : Int) = interval.clamped value.toNat := by
  rw [niceInterval, minOf_toNat, maxOf_toNat, Interval.clamped]
  omega

namespace Interval.Limited

variable {interval : Interval}

theorem clamped_sub_iff (limited : interval.Limited) (value : UInt32) :
    ((niceInterval interval (value - intervalStep)).toNat : Int) =
        interval.clamped (value.toNat - 60) ↔
      ¬(interval.minInterval ≠ interval.maxInterval ∧ value < 60) := by
  obtain ⟨least, ordered, most⟩ := limited
  have isLeast : argumentMinIntervalDefault.toNat = 239 := rfl
  have isMost : argumentMaxIntervalDefault.toNat = 1799 := rfl
  have step : intervalStep.toNat = 60 := rfl
  have bound := value.toNat_lt
  rw [niceInterval_toNat, Interval.clamped, Interval.clamped, UInt32.toNat_sub, step, Ne,
    ← UInt32.toNat_inj, UInt32.lt_iff_toNat_lt]
  show _ ↔ ¬(_ ∧ value.toNat < 60)
  omega

theorem clamped_add_iff (limited : interval.Limited) (value : UInt32) :
    ((niceInterval interval (value + intervalStep)).toNat : Int) =
        interval.clamped (value.toNat + 60) ↔
      ¬(interval.minInterval ≠ interval.maxInterval ∧ 2 ^ 32 - 60 ≤ value.toNat) := by
  obtain ⟨least, ordered, most⟩ := limited
  have isLeast : argumentMinIntervalDefault.toNat = 239 := rfl
  have isMost : argumentMaxIntervalDefault.toNat = 1799 := rfl
  have step : intervalStep.toNat = 60 := rfl
  have bound := value.toNat_lt
  rw [niceInterval_toNat, Interval.clamped, Interval.clamped, UInt32.toNat_add, step, Ne,
    ← UInt32.toNat_inj]
  omega

end Interval.Limited

section Law

variable {Load : Type} [LT Load] [DecidableLT Load] {interval : Interval}
  {load : Load × Load × Load} {maxAllow : Load}

theorem updateInterval_low (low : LowLoad load maxAllow) :
    (updateInterval interval (some load) maxAllow).requireInterval =
      niceInterval interval (interval.requireInterval - intervalStep) :=
  congrArg (niceInterval interval) (if_pos low)

theorem updateInterval_high (notLow : ¬LowLoad load maxAllow) (high : HighLoad load maxAllow) :
    (updateInterval interval (some load) maxAllow).requireInterval =
      niceInterval interval (interval.requireInterval + intervalStep) :=
  congrArg (niceInterval interval) ((if_neg notLow).trans (if_pos high))

theorem updateInterval_other (notLow : ¬LowLoad load maxAllow)
    (notHigh : ¬HighLoad load maxAllow) :
    (updateInterval interval (some load) maxAllow).requireInterval =
      niceInterval interval interval.requireInterval :=
  congrArg (niceInterval interval) ((if_neg notLow).trans (if_neg notHigh))

/-- An interval within its limits moves the right way exactly if the step does not wrap. -/
theorem Interval.Limited.movesRight_iff (limited : interval.Limited) :
    MovesRight interval load maxAllow ↔ ¬StepWraps interval load maxAllow := by
  by_cases low : LowLoad load maxAllow
  · have exact := limited.clamped_sub_iff interval.requireInterval
    rw [← updateInterval_low low] at exact
    constructor
    · intro moves wraps
      obtain ⟨differ, below⟩ := wraps
      rcases below with ⟨_, below⟩ | ⟨notLow, _⟩
      · exact exact.mp (moves.low low) ⟨differ, below⟩
      · exact notLow low
    · intro fits
      have law := exact.mpr fun wraps => fits ⟨wraps.1, .inl ⟨low, wraps.2⟩⟩
      refine ⟨fun _ => law, fun notLow => absurd low notLow, fun notLow => absurd low notLow, ?_⟩
      intro _ short
      obtain ⟨_, ordered, _⟩ := limited
      rw [UInt32.le_iff_toNat_le] at short
      rw [Interval.clamped] at law
      rw [← UInt32.toNat_inj]
      omega
  · by_cases high : HighLoad load maxAllow
    · have exact := limited.clamped_add_iff interval.requireInterval
      rw [← updateInterval_high low high] at exact
      constructor
      · intro moves wraps
        obtain ⟨differ, above⟩ := wraps
        rcases above with ⟨isLow, _⟩ | ⟨_, _, above⟩
        · exact low isLow
        · exact exact.mp (moves.high low high) ⟨differ, above⟩
      · intro fits
        have law := exact.mpr fun wraps => fits ⟨wraps.1, .inr ⟨low, high, wraps.2⟩⟩
        exact ⟨fun isLow => absurd isLow low, fun _ _ => law,
          fun _ notHigh => absurd high notHigh, fun isLow => absurd isLow low⟩
    · have law := niceInterval_toNat interval interval.requireInterval
      rw [← updateInterval_other low high] at law
      refine iff_of_true ?_ ?_
      · exact ⟨fun isLow => absurd isLow low, fun _ isHigh => absurd isHigh high,
          fun _ _ => law, fun isLow => absurd isLow low⟩
      · intro wraps
        rcases wraps.2 with ⟨isLow, _⟩ | ⟨_, isHigh, _⟩
        · exact low isLow
        · exact high isHigh

end Law

theorem parseArguments_limited {Load : Type} [Zero Load] {strtod : Text → Load}
    {processors : Int} {argv : List Text} {arguments : Arguments Load}
    (accepted : parseArguments strtod processors argv = .ok arguments) :
    (Interval.start arguments).Limited := by
  unfold parseArguments at accepted
  split_ifs at accepted with number
  · cases accepted
  · obtain ⟨parsed, _, checked⟩ := bind_eq_ok accepted
    dsimp only at checked
    split_ifs at checked with refused
    · cases checked
    · cases checked
      have isLeast : argumentMinIntervalDefault.toNat = 239 := rfl
      have isMost : argumentMaxIntervalDefault.toNat = 1799 := rfl
      refine ⟨?_, ?_, ?_⟩ <;>
        simp only [Interval.start, clampIntervals, minOf_toNat, maxOf_toNat] <;> omega

section Run

variable {Load : Type} [LT Load] [DecidableLT Load]

theorem IntervalStep.limits {turn : IntervalTurn Load} {before after : Interval}
    (taken : IntervalStep turn before after) :
    after.minInterval = before.minInterval ∧ after.maxInterval = before.maxInterval := by
  cases taken with
  | update =>
      rename_i load maxAllow
      cases load <;> exact ⟨rfl, rfl⟩
  | force => exact ⟨rfl, rfl⟩
  | step => exact ⟨rfl, rfl⟩

theorem Interval.Limited.step {turn : IntervalTurn Load} {before after : Interval}
    (limited : before.Limited) (taken : IntervalStep turn before after) : after.Limited := by
  obtain ⟨least, ordered, most⟩ := limited
  obtain ⟨sameLeast, sameMost⟩ := taken.limits
  rw [← sameLeast] at least ordered
  rw [← sameMost] at ordered most
  exact ⟨least, ordered, most⟩

theorem IntervalStep.required {turn : IntervalTurn Load} {before after : Interval}
    (limited : before.Limited) (taken : IntervalStep turn before after) :
    after.requireInterval = before.requireInterval ∨
      60 ≤ after.requireInterval.toNat ∧ after.requireInterval.toNat < 2 ^ 32 - 60 := by
  obtain ⟨least, ordered, most⟩ := limited
  have isLeast : argumentMinIntervalDefault.toNat = 239 := rfl
  have isMost : argumentMaxIntervalDefault.toNat = 1799 := rfl
  have nice : ∀ value, 60 ≤ (niceInterval before value).toNat ∧
      (niceInterval before value).toNat < 2 ^ 32 - 60 := by
    intro value
    have clamped := niceInterval_toNat before value
    rw [Interval.clamped] at clamped
    omega
  cases taken with
  | update =>
      rename_i load maxAllow
      cases load with
      | none => exact .inl rfl
      | some loads => exact .inr (nice _)
  | force => exact .inr (nice _)
  | step => exact .inl rfl

end Run

section MovesRight

variable {Load : Type} [Zero Load] [LT Load] [DecidableLT Load] {strtod : Text → Load}
  {processors : Int} {argv : List Text} {arguments : Arguments Load}

/-- In every interval that an accepted command line leads to, load control moves the required
interval the right way exactly if the step does not wrap. No step of a run wraps if the interval
of the command line can be lowered and raised by a step, or if the limits leave no choice. -/
theorem updateInterval_right_iff
    (accepted : parseArguments strtod processors argv = .ok arguments) :
    (∀ interval, ReachedInterval arguments interval →
      ∀ (load : Load × Load × Load) (maxAllow : Load),
        (MovesRight interval load maxAllow ↔ ¬StepWraps interval load maxAllow)) ∧
    ((60 ≤ arguments.interval.toNat ∧ arguments.interval.toNat < 2 ^ 32 - 60 ∨
        arguments.minInterval = arguments.maxInterval) →
      ∀ interval, ReachedInterval arguments interval →
        ∀ (load : Load × Load × Load) (maxAllow : Load), MovesRight interval load maxAllow) := by
  have limitedStart := parseArguments_limited accepted
  have limited : ∀ interval, ReachedInterval arguments interval → interval.Limited := by
    intro interval reached
    apply reached.invariant Interval.Limited limitedStart
    intro turn before after limited _ taken
    exact limited.step taken
  constructor
  · intro interval reached load maxAllow
    exact (limited interval reached).movesRight_iff
  · intro roomy interval reached load maxAllow
    apply (limited interval reached).movesRight_iff.mpr
    have stays : interval.Limited ∧ (60 ≤ interval.requireInterval.toNat ∧
        interval.requireInterval.toNat < 2 ^ 32 - 60 ∨
        interval.minInterval = interval.maxInterval) := by
      apply reached.invariant fun interval => interval.Limited ∧
        (60 ≤ interval.requireInterval.toNat ∧ interval.requireInterval.toNat < 2 ^ 32 - 60 ∨
          interval.minInterval = interval.maxInterval)
      · exact ⟨limitedStart, roomy⟩
      · intro turn before after sound _ taken
        obtain ⟨limited, room⟩ := sound
        obtain ⟨sameLeast, sameMost⟩ := taken.limits
        refine ⟨limited.step taken, ?_⟩
        rw [sameLeast, sameMost]
        rcases taken.required limited with same | between
        · rw [same]
          exact room
        · exact .inl between
    intro wraps
    obtain ⟨differ, beyond⟩ := wraps
    rcases stays.2 with ⟨below, above⟩ | same
    · rcases beyond with ⟨_, short⟩ | ⟨_, _, long⟩
      · rw [UInt32.lt_iff_toNat_lt] at short
        have sixty : (60 : UInt32).toNat = 60 := rfl
        omega
      · omega
    · exact differ same

end MovesRight

/-- The default interval is lowered by a step. -/
theorem updateInterval_right_default :
    ∃ arguments, parseArguments (fun _ => (0 : Nat)) 1 [] = .ok arguments ∧
      MovesRight (Interval.start arguments) (0, 0, 0) 1 := by
  have accepted : parseArguments (fun _ => (0 : Nat)) 1 [] = .ok (defaultArguments 1) := rfl
  refine ⟨_, accepted, (updateInterval_right_iff accepted).2 (.inl ?_) _ .start _ _⟩
  decide

/-- An interval of 30 seconds is raised to the maximum under low load. -/
theorem updateInterval_raises :
    ¬∀ (strtod : Text → Nat) (processors : Int) (argv : List Text) (arguments : Arguments Nat),
      parseArguments strtod processors argv = .ok arguments →
      ∀ interval, ReachedInterval arguments interval →
        ∀ (load : Nat × Nat × Nat) (maxAllow : Nat), MovesRight interval load maxAllow := by
  intro right
  let argv := [ascii "-i", ascii "30"]
  have accepted : parseArguments (fun _ => (0 : Nat)) 1 argv =
      .ok { defaultArguments 1 with interval := 30 } := rfl
  have moves := right _ _ _ _ accepted _ .start (0, 0, 0) 1
  have raised : (updateInterval (Interval.start ({ defaultArguments 1 with interval := 30 } :
      Arguments Nat)) (some ((0 : Nat), 0, 0)) 1).requireInterval = 1799 := by decide
  have least := moves.least (by unfold LowLoad; decide) (by decide)
  rw [raised] at least
  exact absurd least (by decide)

end Etracker
