import Etracker.Foundation.Outcome
import Etracker.Interval.Model

namespace Etracker

open Foundation.Outcome

theorem minOf_le_left (left right : UInt32) : minOf left right ≤ left := by
  unfold minOf
  split_ifs <;> grind

theorem niceInterval_le (interval : Interval) (value : UInt32) :
    niceInterval interval value ≤ interval.maxInterval :=
  minOf_le_left _ _

structure Interval.Below (limit : UInt32) (interval : Interval) : Prop where
  current : interval.interval ≤ limit
  required : interval.requireInterval ≤ limit
  most : interval.maxInterval ≤ limit

namespace Interval.Below

variable {limit : UInt32} {interval : Interval}

theorem update {Load : Type} [LT Load] [DecidableLT Load] (below : interval.Below limit)
    (load : Option (Load × Load × Load)) (maxAllow : Load) :
    (updateInterval interval load maxAllow).Below limit := by
  cases load with
  | none => exact below
  | some loads =>
      refine ⟨below.current, ?_, below.most⟩
      exact UInt32.le_trans (niceInterval_le interval _) below.most

theorem force (below : interval.Below limit) (value : UInt32) :
    (forceUpdateInterval interval value).Below limit := by
  have nice := UInt32.le_trans (niceInterval_le interval value) below.most
  exact ⟨nice, nice, below.most⟩

theorem step (below : interval.Below limit) : (stepInterval interval).1.Below limit := by
  refine ⟨?_, below.required, below.most⟩
  have required := below.required
  have current := below.current
  simp only [stepInterval]
  split_ifs with grows shrinks
  · rw [UInt32.le_iff_toNat_le] at required ⊢
    rw [UInt32.lt_iff_toNat_lt] at grows
    rw [UInt32.toNat_add, UInt32.toNat_one]
    omega
  · rw [UInt32.le_iff_toNat_le] at current ⊢
    rw [UInt32.lt_iff_toNat_lt] at shrinks
    have one : (1 : UInt32) ≤ interval.interval := by
      rw [UInt32.le_iff_toNat_le, UInt32.toNat_one]
      omega
    rw [UInt32.toNat_sub_of_le _ _ one]
    omega
  · exact current

end Interval.Below

theorem parseArguments_maxInterval {Load : Type} [Zero Load] {strtod : Text → Load}
    {processors : Int} {argv : List Text} {arguments : Arguments Load}
    (accepted : parseArguments strtod processors argv = .ok arguments) :
    arguments.maxInterval ≤ argumentMaxIntervalDefault := by
  unfold parseArguments at accepted
  split_ifs at accepted with number
  · cases accepted
  · obtain ⟨parsed, _, checked⟩ := bind_eq_ok accepted
    dsimp only at checked
    split_ifs at checked with refused
    · cases checked
    · cases checked
      exact minOf_le_left _ _

end Etracker
