import Etracker.Argument.Model

/-! The interval of `interval.c` and the threads of `thread_garbage.c` that move it. -/

namespace Etracker

def intervalStep : UInt32 := 60

/-- `struct interval`. -/
structure Interval where
  interval : UInt32
  requireInterval : UInt32
  previousInterval : UInt32
  maxInterval : UInt32
  minInterval : UInt32
  deriving DecidableEq, Repr

def Interval.start {Load : Type} (arguments : Arguments Load) : Interval where
  interval := arguments.interval
  requireInterval := arguments.interval
  previousInterval := arguments.interval
  maxInterval := arguments.maxInterval
  minInterval := arguments.minInterval

def niceInterval (interval : Interval) (value : UInt32) : UInt32 :=
  minOf interval.maxInterval (maxOf interval.minInterval value)

section Load

variable {Load : Type} [Zero Load] [DecidableEq Load] [LT Load] [DecidableLT Load]

/-- `processors` is the number of processors less one half. -/
def maxAllowLoadAverage (maxLoadAvg processors : Load) : Load :=
  if maxLoadAvg = 0 then processors else maxLoadAvg

/-- `load` is what `getloadavg` stores; it is missing when the call fails. -/
def updateInterval (interval : Interval) (load : Option (Load × Load × Load))
    (maxAllow : Load) : Interval :=
  match load with
  | none => interval
  | some (first, second, third) =>
      let localInterval :=
        if first < maxAllow ∧ second < maxAllow ∧ third < maxAllow then
          interval.requireInterval - intervalStep
        else if maxAllow < first ∧ maxAllow < second ∧ maxAllow < third then
          interval.requireInterval + intervalStep
        else interval.requireInterval
      { interval with
        previousInterval := interval.requireInterval
        requireInterval := niceInterval interval localInterval }

end Load

def forceUpdateInterval (interval : Interval) (value : UInt32) : Interval :=
  let value := niceInterval interval value
  { interval with interval := value, requireInterval := value, previousInterval := value }

/-- `round` of the quotient: halves are rounded up. -/
def roundDiv (value step : Nat) : Nat := (value + step / 2) / step

def stepInterval (interval : Interval) : Interval × Nat :=
  let moved :=
    if interval.interval < interval.requireInterval then interval.interval + 1
    else if interval.requireInterval < interval.interval then interval.interval - 1
    else interval.interval
  ({ interval with interval := moved },
    max (roundDiv interval.previousInterval.toNat intervalStep.toNat) 1)

end Etracker
