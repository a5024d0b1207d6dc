import Etracker.HashList.Model

/-! The command line of `argument.c`.

Numbers of type `double` are values of a type parameter: nothing but `strtod` makes
them and nothing but a comparison reads them. -/

namespace Etracker

open Foundation.CString

def exitCodeArgumentUnknown : Nat := 224
def exitSuccess : Nat := 0

inductive ArgumentName
  | unknown
  | port
  | interval
  | workers
  | maxPeersPerResponse
  | socketTimeout
  | keepAlive
  | help
  | charset
  | minInterval
  | maxInterval
  | noTcp
  | noUdp
  | locale
  | nofile
  | core
  | failed
  | noLocations
  | xForwardedFor
  | maxLoadAvg
  deriving DecidableEq, Repr

/-- A string of the command line, without the zero byte at its end. -/
abbrev Text := List UInt8

def getName (name : Text) : ArgumentName :=
  if name = ascii "-p" ∨ name = ascii "--port" then .port
  else if name = ascii "-i" ∨ name = ascii "--interval" then .interval
  else if name = ascii "-w" ∨ name = ascii "--workers" then .workers
  else if name = ascii "-e" ∨ name = ascii "--peers" then .maxPeersPerResponse
  else if name = ascii "-t" ∨ name = ascii "--timeout" then .socketTimeout
  else if name = ascii "-k" ∨ name = ascii "--keep" then .keepAlive
  else if name = ascii "-h" ∨ name = ascii "--help" then .help
  else if name = ascii "--charset" then .charset
  else if name = ascii "--min-interval" then .minInterval
  else if name = ascii "--max-interval" then .maxInterval
  else if name = ascii "--no-tcp" then .noTcp
  else if name = ascii "--no-udp" then .noUdp
  else if name = ascii "--locale" then .locale
  else if name = ascii "--nofile" then .nofile
  else if name = ascii "--core" then .core
  else if name = ascii "-f" then .failed
  else if name = ascii "--no-locations" then .noLocations
  else if name = ascii "-x" then .xForwardedFor
  else if name = ascii "-a" then .maxLoadAvg
  else .unknown

/-- `struct arguments`. A null pointer to a string is `none`. -/
structure Arguments (Load : Type) where
  port : UInt16
  interval : UInt32
  workers : Int
  maxPeersPerResponse : UInt32
  socketTimeout : UInt16
  keepAlive : Bool
  charset : Option Text
  minInterval : UInt32
  maxInterval : UInt32
  noTcp : Bool
  noUdp : Bool
  locale : Option Text
  nofile : UInt64
  core : Int
  failed : Int
  noLocations : Bool
  xForwardedFor : Option Text
  maxLoadAvg : Load

def argumentIntervalDefault : UInt32 := 1799
def argumentMinIntervalDefault : UInt32 := 239
def argumentMaxIntervalDefault : UInt32 := 1799

/-- The macros of `math.h` for unsigned integers. -/
def maxOf (left right : UInt32) : UInt32 := if left > right then left else right

def minOf (left right : UInt32) : UInt32 := if left < right then left else right

theorem maxOf_toNat (left right : UInt32) :
    (maxOf left right).toNat = max left.toNat right.toNat := by
  unfold maxOf
  split_ifs with greater
  · rw [gt_iff_lt, UInt32.lt_iff_toNat_lt] at greater
    omega
  · rw [gt_iff_lt, UInt32.lt_iff_toNat_lt] at greater
    omega

theorem minOf_toNat (left right : UInt32) :
    (minOf left right).toNat = min left.toNat right.toNat := by
  unfold minOf
  split_ifs with less
  · rw [UInt32.lt_iff_toNat_lt] at less
    omega
  · rw [UInt32.lt_iff_toNat_lt] at less
    omega

section Parse

variable {Load : Type} [Zero Load]

def defaultArguments (processors : Int) : Arguments Load where
  port := 3000
  interval := argumentIntervalDefault
  workers := processors
  maxPeersPerResponse := 60
  socketTimeout := 3
  keepAlive := false
  charset := none
  minInterval := argumentMinIntervalDefault
  maxInterval := argumentMaxIntervalDefault
  noTcp := false
  noUdp := false
  locale := none
  nofile := 0
  core := 0
  failed := 0
  noLocations := false
  xForwardedFor := none
  maxLoadAvg := 0

variable (strtod : Text → Load)

def setArgument (arguments : Arguments Load) (argumentName : Text) (next : Option Text) :
    Except Fault (Arguments Load × Bool) :=
  let argumentValue := (next.map atoi).getD 0
  match getName argumentName with
  | .port => pure ({ arguments with port := UInt16.ofInt argumentValue }, true)
  | .interval => pure ({ arguments with interval := UInt32.ofInt argumentValue }, true)
  | .workers => pure ({ arguments with workers := argumentValue }, true)
  | .maxPeersPerResponse =>
      pure ({ arguments with maxPeersPerResponse := UInt32.ofInt argumentValue }, true)
  | .socketTimeout => pure ({ arguments with socketTimeout := UInt16.ofInt argumentValue }, true)
  | .keepAlive => pure ({ arguments with keepAlive := true }, false)
  | .help => throw (.exit exitSuccess)
  | .charset => pure ({ arguments with charset := next }, true)
  | .minInterval => pure ({ arguments with minInterval := UInt32.ofInt argumentValue }, true)
  | .maxInterval => pure ({ arguments with maxInterval := UInt32.ofInt argumentValue }, true)
  | .noTcp => pure ({ arguments with noTcp := true }, false)
  | .noUdp => pure ({ arguments with noUdp := true }, false)
  | .locale => pure ({ arguments with locale := next }, true)
  | .nofile => pure ({ arguments with nofile := UInt64.ofInt argumentValue }, true)
  | .core => pure ({ arguments with core := argumentValue }, true)
  | .failed => pure ({ arguments with failed := argumentValue }, true)
  | .noLocations => pure ({ arguments with noLocations := true }, false)
  | .xForwardedFor => pure ({ arguments with xForwardedFor := next }, true)
  | .maxLoadAvg => pure ({ arguments with maxLoadAvg := (next.map strtod).getD 0 }, true)
  | .unknown => throw (.exit exitCodeArgumentUnknown)

def parseFrom (arguments : Arguments Load) : List Text → Except Fault (Arguments Load)
  | [] => pure arguments
  | [argumentName] => do
      let (arguments, _) ← setArgument strtod arguments argumentName none
      pure arguments
  | argumentName :: next :: rest => do
      let (arguments, takesNext) ← setArgument strtod arguments argumentName (some next)
      if takesNext then parseFrom arguments rest else parseFrom arguments (next :: rest)

def clampIntervals (arguments : Arguments Load) : Arguments Load :=
  let minInterval :=
    minOf argumentMaxIntervalDefault (maxOf argumentMinIntervalDefault arguments.minInterval)
  { arguments with
    minInterval := minInterval
    maxInterval := minOf argumentMaxIntervalDefault (maxOf minInterval arguments.maxInterval) }

def parseArguments (processors : Int) (argv : List Text) : Except Fault (Arguments Load) := do
  -- A number in front belongs to an older format.
  if (argv.head?.map atoi).getD 0 ≠ 0 then throw (.exit exitSuccess)
  let arguments ← parseFrom strtod (defaultArguments processors) argv
  let arguments := clampIntervals arguments
  if arguments.port = 0 ∨ arguments.interval = 0 ∨ arguments.workers = 0 ∨
      arguments.maxPeersPerResponse = 0 ∨ arguments.socketTimeout = 0 ∨
      arguments.minInterval = 0 ∨ arguments.maxInterval = 0 ∨
      arguments.noTcp = true ∧ arguments.noUdp = true then
    throw (.exit exitSuccess)
  pure arguments

end Parse

end Etracker
