import Etracker.Interval.Update

namespace Etracker

def stepsInterval : Nat → Interval → Interval × Nat
  | 0, interval => (interval, 0)
  | calls + 1, interval =>
      let (moved, seconds) := stepInterval interval
      let (last, more) := stepsInterval calls moved
      (last, seconds + more)

def Interval.distance (interval : Interval) : Nat :=
  (interval.interval.toNat - interval.requireInterval.toNat) +
    (interval.requireInterval.toNat - interval.interval.toNat)

/-- What `stepInterval` sleeps after each of its calls, until the next update. -/
def Interval.pause (interval : Interval) : Nat :=
  max (roundDiv interval.previousInterval.toNat intervalStep.toNat) 1

/-- The interval has arrived, and lies between the limits. -/
structure Interval.Settled (interval : Interval) : Prop extends interval.Limited where
  arrived : interval.interval = interval.requireInterval
  above : interval.minInterval.toNat ≤ interval.requireInterval.toNat
  below : interval.requireInterval.toNat ≤ interval.maxInterval.toNat

/-- The interval moves towards the required one by a second a call and stays there, and the
calls until then sleep no longer than the longer of the two intervals. -/
structure SettlesInTime (interval : Interval) : Prop where
  grows : interval.interval ≤ interval.requireInterval → ∀ calls ≤ interval.distance,
    (stepsInterval calls interval).1.interval.toNat = interval.interval.toNat + calls
  shrinks : interval.requireInterval ≤ interval.interval → ∀ calls ≤ interval.distance,
    (stepsInterval calls interval).1.interval.toNat = interval.interval.toNat - calls
  stays : ∀ calls, interval.distance ≤ calls →
    (stepsInterval calls interval).1.interval = interval.requireInterval
  inTime : (stepsInterval interval.distance interval).2 ≤
    max interval.previousInterval.toNat interval.requireInterval.toNat

theorem stepInterval_distance (interval : Interval) :
    (stepInterval interval).1.distance = interval.distance - 1 ∧
    (stepInterval interval).1.requireInterval = interval.requireInterval ∧
    (stepInterval interval).1.pause = interval.pause ∧ (stepInterval interval).2 = interval.pause := by
  refine ⟨?_, rfl, rfl, rfl⟩
  have bound := interval.interval.toNat_lt
  have bound' := interval.requireInterval.toNat_lt
  have one : (1 : UInt32).toNat = 1 := rfl
  simp only [stepInterval, Interval.distance]
  split_ifs with grows shrinks
  · rw [UInt32.lt_iff_toNat_lt] at grows
    rw [UInt32.toNat_add, one]
    omega
  · rw [UInt32.lt_iff_toNat_lt] at shrinks
    rw [UInt32.toNat_sub, one]
    omega
  · rw [UInt32.lt_iff_toNat_lt] at grows shrinks
    omega

theorem stepsInterval_distance (calls : Nat) (interval : Interval) :
    (stepsInterval calls interval).1.distance = interval.distance - calls ∧
    (stepsInterval calls interval).1.requireInterval = interval.requireInterval ∧
    (stepsInterval calls interval).2 = calls * interval.pause := by
  induction calls generalizing interval with
  | zero => exact ⟨rfl, rfl, (Nat.zero_mul _).symm⟩
  | succ calls ih =>
      obtain ⟨closer, required, pause, sleeps⟩ := stepInterval_distance interval
      obtain ⟨closer', required', sleeps'⟩ := ih (stepInterval interval).1
      refine ⟨?_, required'.trans required, ?_⟩
      · calc
          (stepsInterval calls (stepInterval interval).1).1.distance
              = interval.distance - 1 - calls := by rw [closer', closer]
          _ = interval.distance - (calls + 1) := by omega
      · calc
          (stepInterval interval).2 + (stepsInterval calls (stepInterval interval).1).2
              = interval.pause + calls * interval.pause := by rw [sleeps', sleeps, pause]
          _ = (calls + 1) * interval.pause := by rw [Nat.succ_mul, Nat.add_comm]

theorem stepInterval_side (interval : Interval) :
    (interval.interval ≤ interval.requireInterval →
      (stepInterval interval).1.interval ≤ interval.requireInterval) ∧
    (interval.requireInterval ≤ interval.interval →
      interval.requireInterval ≤ (stepInterval interval).1.interval) := by
  have bound := interval.interval.toNat_lt
  have bound' := interval.requireInterval.toNat_lt
  have one : (1 : UInt32).toNat = 1 := rfl
  simp only [stepInterval]
  split_ifs with grows shrinks
  · rw [UInt32.lt_iff_toNat_lt] at grows
    rw [UInt32.le_iff_toNat_le, UInt32.le_iff_toNat_le, UInt32.le_iff_toNat_le,
      UInt32.le_iff_toNat_le, UInt32.toNat_add, one]
    omega
  · rw [UInt32.lt_iff_toNat_lt] at shrinks
    rw [UInt32.le_iff_toNat_le, UInt32.le_iff_toNat_le, UInt32.le_iff_toNat_le,
      UInt32.le_iff_toNat_le, UInt32.toNat_sub, one]
    omega
  · exact ⟨id, id⟩

theorem stepsInterval_side (calls : Nat) (interval : Interval) :
    (interval.interval ≤ interval.requireInterval →
      (stepsInterval calls interval).1.interval ≤ interval.requireInterval) ∧
    (interval.requireInterval ≤ interval.interval →
      interval.requireInterval ≤ (stepsInterval calls interval).1.interval) := by
  induction calls generalizing interval with
  | zero => exact ⟨id, id⟩
  | succ calls ih =>
      obtain ⟨below, above⟩ := stepInterval_side interval
      obtain ⟨below', above'⟩ := ih (stepInterval interval).1
      exact ⟨fun grows => below' (below grows), fun shrinks => above' (above shrinks)⟩

theorem settlesInTime_iff (interval : Interval) :
    SettlesInTime interval ↔ interval.distance * interval.pause ≤
      max interval.previousInterval.toNat interval.requireInterval.toNat := by
  have sleeps := (stepsInterval_distance interval.distance interval).2.2
  constructor
  · intro settles
    rw [← sleeps]
    exact settles.inTime
  · intro short
    refine ⟨?_, ?_, ?_, by rw [sleeps]; exact short⟩
    · intro grows calls few
      obtain ⟨closer, required, _⟩ := stepsInterval_distance calls interval
      have side := (stepsInterval_side calls interval).1 grows
      rw [UInt32.le_iff_toNat_le] at grows side
      simp only [Interval.distance, required] at closer few
      omega
    · intro shrinks calls few
      obtain ⟨closer, required, _⟩ := stepsInterval_distance calls interval
      have side := (stepsInterval_side calls interval).2 shrinks
      rw [UInt32.le_iff_toNat_le] at shrinks side
      simp only [Interval.distance, required] at closer few
      omega
    · intro calls many
      obtain ⟨closer, required, _⟩ := stepsInterval_distance calls interval
      simp only [Interval.distance, required] at closer many
      apply UInt32.toNat_inj.mp
      omega

section Update

variable {Load : Type} [LT Load]

def Interval.descent (interval : Interval) : Nat :=
  min 60 (interval.requireInterval.toNat - interval.minInterval.toNat)

/-- The required interval goes down, the quotient of the previous one is rounded up, and the
descent leaves too little of the previous interval for what is rounded. -/
def SettlesLate (interval : Interval) (load : Option (Load × Load × Load)) (maxAllow : Load) :
    Prop :=
  (∃ loads, load = some loads ∧ LowLoad loads maxAllow) ∧
    30 ≤ interval.requireInterval.toNat % 60 ∧
    (60 - interval.descent) * (interval.requireInterval.toNat / 60) +
      interval.requireInterval.toNat % 60 < interval.descent

/-- So many pauses of a rounded quotient fit into a value, or the quotient was rounded up. -/
theorem roundDiv_fits_iff {count value : Nat} (few : count ≤ 60) :
    count * roundDiv value 60 ≤ value ↔
      ¬(30 ≤ value % 60 ∧ (60 - count) * (value / 60) + value % 60 < count) := by
  have whole := Nat.div_add_mod value 60
  have part := Nat.mod_lt value (show 60 > 0 by decide)
  generalize value / 60 = quotient at *
  generalize value % 60 = rest at *
  -- What `count` pauses leave of the value is what the other ones would take, and the rest.
  have room : count * quotient + (60 - count) * quotient = 60 * quotient := by
    rw [← Nat.add_mul]
    congr 1
    omega
  by_cases up : 30 ≤ rest
  · have rounded : roundDiv value 60 = quotient + 1 := by
      rw [roundDiv, ← whole]
      omega
    rw [rounded, Nat.mul_succ]
    omega
  · have rounded : roundDiv value 60 = quotient := by
      rw [roundDiv, ← whole]
      omega
    rw [rounded]
    omega

theorem roundDiv_fits {count value : Nat} (few : count ≤ 60) :
    count * roundDiv value 60 ≤ value + count := by
  have whole := Nat.div_add_mod value 60
  have part := Nat.mod_lt value (show 60 > 0 by decide)
  have bound : roundDiv value 60 ≤ value / 60 + 1 := by
    rw [roundDiv]
    omega
  have room : count * (value / 60) ≤ 60 * (value / 60) := Nat.mul_le_mul_right _ few
  calc
    count * roundDiv value 60 ≤ count * (value / 60 + 1) := Nat.mul_le_mul_left _ bound
    _ = count * (value / 60) + count := Nat.mul_succ _ _
    _ ≤ value + count := by omega

variable [DecidableLT Load]

theorem updateInterval_descends {interval : Interval} (settled : interval.Settled)
    {loads : Load × Load × Load} {maxAllow : Load} (low : LowLoad loads maxAllow) :
    (updateInterval interval (some loads) maxAllow).requireInterval.toNat =
      interval.requireInterval.toNat - interval.descent := by
  obtain ⟨⟨least, ordered, most⟩, _, above, below⟩ := settled
  have isLeast : argumentMinIntervalDefault.toNat = 239 := rfl
  have isMost : argumentMaxIntervalDefault.toNat = 1799 := rfl
  have step : intervalStep.toNat = 60 := rfl
  have nice := niceInterval_toNat interval (interval.requireInterval - intervalStep)
  rw [Interval.clamped, UInt32.toNat_sub, step] at nice
  rw [updateInterval_low low, Interval.descent]
  omega

theorem updateInterval_rises {interval : Interval} (settled : interval.Settled)
    {loads : Load × Load × Load} {maxAllow : Load} (low : ¬LowLoad loads maxAllow) :
    interval.requireInterval.toNat ≤
        (updateInterval interval (some loads) maxAllow).requireInterval.toNat ∧
      (updateInterval interval (some loads) maxAllow).requireInterval.toNat ≤
        interval.requireInterval.toNat + 60 := by
  obtain ⟨⟨least, ordered, most⟩, _, above, below⟩ := settled
  have isMost : argumentMaxIntervalDefault.toNat = 1799 := rfl
  have step : intervalStep.toNat = 60 := rfl
  by_cases high : HighLoad loads maxAllow
  · have nice := niceInterval_toNat interval (interval.requireInterval + intervalStep)
    rw [Interval.clamped, UInt32.toNat_add, step] at nice
    rw [updateInterval_high low high]
    omega
  · have nice := niceInterval_toNat interval interval.requireInterval
    rw [Interval.clamped] at nice
    rw [updateInterval_other low high]
    omega

/-- What an update of a settled interval with a load leaves to be slept. -/
theorem settlesInTime_loads_iff {interval : Interval} (settled : interval.Settled)
    (loads : Load × Load × Load) (maxAllow : Load) {required : Nat}
    (isRequired :
      (updateInterval interval (some loads) maxAllow).requireInterval.toNat = required) :
    SettlesInTime (updateInterval interval (some loads) maxAllow) ↔
      (interval.requireInterval.toNat - required + (required - interval.requireInterval.toNat)) *
        roundDiv interval.requireInterval.toNat 60 ≤ max interval.requireInterval.toNat required := by
  obtain ⟨⟨least, ordered, most⟩, arrived, above, below⟩ := settled
  have isLeast : argumentMinIntervalDefault.toNat = 239 := rfl
  have pause : (updateInterval interval (some loads) maxAllow).pause =
      roundDiv interval.requireInterval.toNat 60 := by
    show max (roundDiv interval.requireInterval.toNat 60) 1 = _
    rw [roundDiv]
    omega
  have previous : (updateInterval interval (some loads) maxAllow).previousInterval =
      interval.requireInterval := rfl
  have current : (updateInterval interval (some loads) maxAllow).interval =
      interval.requireInterval := arrived
  rw [settlesInTime_iff, pause, previous, Interval.distance, current, isRequired]

/-- After an update, the interval arrives in time except for a descent that settles late. -/
theorem settlesInTime_update_iff {interval : Interval} (settled : interval.Settled)
    (load : Option (Load × Load × Load)) (maxAllow : Load) :
    SettlesInTime (updateInterval interval load maxAllow) ↔
      ¬SettlesLate interval load maxAllow := by
  cases load with
  | none =>
      have near : (updateInterval interval (none : Option (Load × Load × Load)) maxAllow).distance =
          0 := by
        simp only [updateInterval, Interval.distance, settled.arrived]
        omega
      rw [settlesInTime_iff, near, Nat.zero_mul]
      refine iff_of_true (Nat.zero_le _) ?_
      intro late
      obtain ⟨_, missing, _⟩ := late.1
      cases missing
  | some loads =>
      by_cases low : LowLoad loads maxAllow
      · have down : interval.descent ≤ interval.requireInterval.toNat := by
          rw [Interval.descent]
          omega
        have distance : interval.requireInterval.toNat -
            (interval.requireInterval.toNat - interval.descent) +
            (interval.requireInterval.toNat - interval.descent -
              interval.requireInterval.toNat) = interval.descent := by omega
        have few : interval.descent ≤ 60 := Nat.min_le_left _ _
        rw [settlesInTime_loads_iff settled loads maxAllow (updateInterval_descends settled low),
          distance, max_eq_left (Nat.sub_le _ _), roundDiv_fits_iff few, SettlesLate]
        exact not_congr (and_iff_right ⟨loads, rfl, low⟩).symm
      · obtain ⟨up, few⟩ := updateInterval_rises settled low
        rw [settlesInTime_loads_iff settled loads maxAllow rfl]
        generalize (updateInterval interval (some loads) maxAllow).requireInterval.toNat =
          required at up few ⊢
        have distance : interval.requireInterval.toNat - required +
            (required - interval.requireInterval.toNat) =
              required - interval.requireInterval.toNat := by omega
        have fits := @roundDiv_fits (required - interval.requireInterval.toNat)
          interval.requireInterval.toNat (by omega)
        rw [distance, max_eq_right up]
        refine iff_of_true (by omega) ?_
        intro late
        obtain ⟨loads', same, low'⟩ := late.1
        cases same
        exact low low'

end Update

def startedInterval (interval : UInt32) : Interval :=
  Interval.start ({ defaultArguments 1 with interval := interval } : Arguments Nat)

/-- Under low load 1740 seconds go down to 1680 in pauses of 29 seconds, and under high load 300
go up to 360 in pauses of 5. -/
theorem settlesInTime_update_moves :
    (updateInterval (startedInterval 1740) (some ((0 : Nat), 0, 0)) 1).requireInterval = 1680 ∧
      (stepsInterval 60 (updateInterval (startedInterval 1740) (some ((0 : Nat), 0, 0)) 1)).2 =
        1740 ∧
      SettlesInTime (updateInterval (startedInterval 1740) (some ((0 : Nat), 0, 0)) 1) ∧
    (updateInterval (startedInterval 300) (some ((2 : Nat), 2, 2)) 1).requireInterval = 360 ∧
      (stepsInterval 60 (updateInterval (startedInterval 300) (some ((2 : Nat), 2, 2)) 1)).2 =
        300 ∧
      SettlesInTime (updateInterval (startedInterval 300) (some ((2 : Nat), 2, 2)) 1) := by
  have high : (startedInterval 1740).Settled :=
    ⟨⟨by decide, by decide, by decide⟩, rfl, by decide, by decide⟩
  have low : (startedInterval 300).Settled :=
    ⟨⟨by decide, by decide, by decide⟩, rfl, by decide, by decide⟩
  refine ⟨rfl, by decide, ?_, rfl, by decide, ?_⟩
  · apply (settlesInTime_update_iff high _ _).mpr
    intro late
    exact absurd late.2.1 (by decide)
  · apply (settlesInTime_update_iff low _ _).mpr
    intro late
    obtain ⟨loads, same, low⟩ := late.1
    cases same
    exact absurd low.1 (by decide)

/-- Under low load it takes pauses of 6 seconds to go down by 60, and 59 of them already take
longer than 330 seconds. -/
theorem settlesInTime_update_late :
    (startedInterval 330).Settled ∧
      354 = (stepsInterval 59 (updateInterval (startedInterval 330) (some ((0 : Nat), 0, 0)) 1)).2 ∧
      ¬∀ interval : Interval, interval.Settled →
        ∀ (load : Option (Nat × Nat × Nat)) (maxAllow : Nat),
          SettlesInTime (updateInterval interval load maxAllow) := by
  have settled : (startedInterval 330).Settled :=
    ⟨⟨by decide, by decide, by decide⟩, rfl, by decide, by decide⟩
  refine ⟨settled, by decide, ?_⟩
  intro inTime
  have settles := inTime (startedInterval 330) settled (some (0, 0, 0)) 1
  exact absurd ((settlesInTime_iff _).mp settles) (by decide)

end Etracker
