import Mathlib.Data.List.Basic
import Mathlib.Logic.Function.Basic
import Mathlib.Tactic.Common

namespace Etracker.Http

def statsErrnoMaxIndex : Nat := 256

def eagain : Nat := 11

def errorLimitCount : Nat := 1000000

structure SendStats where
  sendErrno : Fin (statsErrnoMaxIndex + 1) → UInt64
  sendFailed : UInt64
  sendSkips : UInt64
  sendPass : UInt64
  sentBytes : UInt64

def incErrno (statErrno : Fin (statsErrnoMaxIndex + 1) → UInt64) (errno : Nat) :
    Fin (statsErrnoMaxIndex + 1) → UInt64 :=
  let index : Fin (statsErrnoMaxIndex + 1) :=
    ⟨min errno statsErrnoMaxIndex, Nat.lt_succ_of_le (Nat.min_le_right _ _)⟩
  Function.update statErrno index (statErrno index + 1)

inductive SendOutcome
  /-- It accepts one byte and this many more, or all of the data if that is less. -/
  | accepts (more : Nat)
  | fails (errno : Nat)

/-- What the calls of `send` do, one after the other. -/
abbrev SendOutcomes := Nat → SendOutcome

def SendOutcomes.later (outcomes : SendOutcomes) : SendOutcomes := fun call => outcomes (call + 1)

structure Sent where
  /-- The bytes that the socket has accepted. -/
  accepted : List UInt8
  result : Int
  stats : SendStats

def SendStats.pass (stats : SendStats) (result : Nat) : SendStats :=
  { stats with sendPass := stats.sendPass + 1, sentBytes := stats.sentBytes + .ofNat result }

def SendStats.fail (stats : SendStats) (errno : Nat) : SendStats :=
  { stats with sendErrno := incErrno stats.sendErrno errno, sendFailed := stats.sendFailed + 1 }

def SendStats.skip (stats : SendStats) : SendStats :=
  { stats with sendSkips := stats.sendSkips + 1 }

def sendFrom (sentOnce : Bool) (outcomes : SendOutcomes) (message : List UInt8) (limit : Nat)
    (stats : SendStats) : Sent :=
  match outcomes 0 with
  | .accepts more =>
      let part := message.take (more + 1)
      let stats := stats.pass part.length
      if message.length ≤ more + 1 then ⟨part, part.length, stats⟩
      else
        let sent := sendFrom sentOnce outcomes.later (message.drop (more + 1)) limit stats
        { sent with accepted := part ++ sent.accepted }
  | .fails errno =>
      let stats := stats.fail errno
      if errno ≠ eagain ∨ sentOnce = true then ⟨[], -1, stats⟩
      else if limit ≤ 1 then ⟨[], -1, stats.skip⟩
      else if message = [] then ⟨[], -1, stats⟩
      else sendFrom sentOnce outcomes.later message (limit - 1) stats
termination_by message.length + limit
decreasing_by
  · simp only [List.length_drop]
    omega
  · omega

def send_ (message : List UInt8) (stats : SendStats) (sentOnce : Bool)
    (outcomes : SendOutcomes) : Sent :=
  sendFrom sentOnce outcomes message errorLimitCount stats

def SendOutcome.size : SendOutcome → Nat
  | .accepts more => more + 1
  | .fails _ => 0

def SendOutcome.failures : SendOutcome → Nat
  | .accepts _ => 0
  | .fails _ => 1

def SendOutcomes.size (outcomes : SendOutcomes) : Nat → Nat
  | 0 => 0
  | calls + 1 => (outcomes 0).size + outcomes.later.size calls

def SendOutcomes.failures (outcomes : SendOutcomes) : Nat → Nat
  | 0 => 0
  | calls + 1 => (outcomes 0).failures + outcomes.later.failures calls

def GivesUp (sentOnce : Bool) (outcomes : SendOutcomes) (size limit : Nat) : Prop :=
  ∃ call errno, outcomes call = .fails errno ∧ outcomes.size call < size ∧
    (errno ≠ eagain ∨ sentOnce = true ∨ limit ≤ outcomes.failures call + 1)

theorem givesUp_iff (sentOnce : Bool) (outcomes : SendOutcomes) (size limit : Nat) :
    GivesUp sentOnce outcomes size limit ↔
      (∃ errno, outcomes 0 = .fails errno ∧ 0 < size ∧
        (errno ≠ eagain ∨ sentOnce = true ∨ limit ≤ 1)) ∨
      GivesUp sentOnce outcomes.later (size - (outcomes 0).size)
        (limit - (outcomes 0).failures) := by
  constructor
  · rintro ⟨call, errno, fails, short, final⟩
    cases call with
    | zero => exact .inl ⟨errno, fails, short, final⟩
    | succ call =>
        simp only [SendOutcomes.size, SendOutcomes.failures] at short final
        refine .inr ⟨call, errno, fails, by omega, ?_⟩
        rcases final with fatal | once | often
        · exact .inl fatal
        · exact .inr (.inl once)
        · exact .inr (.inr (by omega))
  · rintro (⟨errno, fails, short, final⟩ | ⟨call, errno, fails, short, final⟩)
    · exact ⟨0, errno, fails, short, final⟩
    · refine ⟨call + 1, errno, fails, ?_, ?_⟩
      · simp only [SendOutcomes.size]
        omega
      · rcases final with fatal | once | often
        · exact .inl fatal
        · exact .inr (.inl once)
        · simp only [SendOutcomes.failures]
          exact .inr (.inr (by omega))

theorem sendFrom_accepted_prefix (sentOnce : Bool) (outcomes : SendOutcomes)
    (message : List UInt8) (limit : Nat) (stats : SendStats) :
    (sendFrom sentOnce outcomes message limit stats).accepted <+: message := by
  fun_induction sendFrom sentOnce outcomes message limit stats with
  | case1 outcomes message limit stats more accepts part stats' whole =>
      exact List.take_prefix _ _
  | case2 outcomes message limit stats more accepts part stats' short sent ih =>
      have split : part ++ message.drop (more + 1) = message := List.take_append_drop _ _
      calc
        part ++ sent.accepted <+: part ++ message.drop (more + 1) :=
          (List.prefix_append_right_inj part).mpr ih
        _ = message := split
  | case3 | case4 | case5 => exact List.nil_prefix
  | case6 outcomes message limit stats errno fails stats' fatal often more ih => exact ih

theorem not_givesUp_zero (sentOnce : Bool) (outcomes : SendOutcomes) (limit : Nat) :
    ¬GivesUp sentOnce outcomes 0 limit := by
  rintro ⟨_, _, _, short, _⟩
  exact Nat.not_lt_zero _ short

theorem accepted_nil_iff {sentOnce : Bool} {outcomes : SendOutcomes} {message : List UInt8}
    {limit errno : Nat} (fails : outcomes 0 = .fails errno)
    (final : errno ≠ eagain ∨ sentOnce = true ∨ limit ≤ 1) :
    [] = message ↔ ¬GivesUp sentOnce outcomes message.length limit := by
  constructor
  · rintro rfl
    exact not_givesUp_zero _ _ _
  · intro goesOn
    by_contra some
    have long : 0 < message.length := List.length_pos_iff.mpr (Ne.symm some)
    exact goesOn ((givesUp_iff _ _ _ _).mpr (.inl ⟨errno, fails, long, final⟩))

theorem sendFrom_accepted_iff (sentOnce : Bool) (outcomes : SendOutcomes)
    (message : List UInt8) (limit : Nat) (stats : SendStats) :
    (sendFrom sentOnce outcomes message limit stats).accepted = message ↔
      ¬GivesUp sentOnce outcomes message.length limit := by
  fun_induction sendFrom sentOnce outcomes message limit stats with
  | case1 outcomes message limit stats more accepts part stats' whole =>
      have nothing : message.length - (more + 1) = 0 := by omega
      rw [givesUp_iff]
      simp only [accepts, SendOutcome.size, SendOutcome.failures, nothing, not_givesUp_zero,
        reduceCtorEq, false_and, exists_false, or_false, not_false_eq_true, iff_true]
      exact List.take_of_length_le whole
  | case2 outcomes message limit stats more accepts part stats' short sent ih =>
      have split : part ++ message.drop (more + 1) = message := List.take_append_drop _ _
      rw [givesUp_iff]
      simp only [accepts, SendOutcome.size, SendOutcome.failures, reduceCtorEq, false_and,
        exists_false, false_or, Nat.sub_zero]
      rw [List.length_drop] at ih
      rw [← ih]
      calc
        part ++ sent.accepted = message ↔ part ++ sent.accepted = part ++ message.drop (more + 1) :=
          by rw [split]
        _ ↔ sent.accepted = message.drop (more + 1) := List.append_right_inj part
  | case3 outcomes message limit stats errno fails stats' fatal =>
      exact accepted_nil_iff fails (by grind)
  | case4 outcomes message limit stats errno fails stats' fatal last =>
      exact accepted_nil_iff fails (by grind)
  | case5 =>
      exact ⟨fun _ => not_givesUp_zero _ _ _, fun _ => rfl⟩
  | case6 outcomes message limit stats errno fails stats' fatal often more ih =>
      rw [ih, givesUp_iff _ outcomes]
      simp only [fails, SendOutcome.size, SendOutcome.failures, Nat.sub_zero]
      grind

theorem send_accepted_prefix (message : List UInt8) (stats : SendStats) (sentOnce : Bool)
    (outcomes : SendOutcomes) : (send_ message stats sentOnce outcomes).accepted <+: message :=
  sendFrom_accepted_prefix sentOnce outcomes message errorLimitCount stats

theorem send_accepted_iff (message : List UInt8) (stats : SendStats) (sentOnce : Bool)
    (outcomes : SendOutcomes) :
    (send_ message stats sentOnce outcomes).accepted = message ↔
      ¬GivesUp sentOnce outcomes message.length errorLimitCount :=
  sendFrom_accepted_iff sentOnce outcomes message errorLimitCount stats

theorem sendFrom_exact (sentOnce : Bool) (outcomes : SendOutcomes) (message : List UInt8)
    (occupied : message ≠ []) (limit : Nat) (stats : SendStats) :
    ((sendFrom sentOnce outcomes message limit stats).accepted = message ↔
      (sendFrom sentOnce outcomes message limit stats).result ≠ -1) ∧
    (sendFrom sentOnce outcomes message limit stats).stats.sentBytes =
      stats.sentBytes +
        UInt64.ofNat (sendFrom sentOnce outcomes message limit stats).accepted.length := by
  fun_induction sendFrom sentOnce outcomes message limit stats with
  | case1 outcomes message limit stats more accepts part stats' whole =>
      have all : part = message := List.take_of_length_le whole
      refine ⟨iff_of_true all ?_, rfl⟩
      show (part.length : Int) ≠ -1
      omega
  | case2 outcomes message limit stats more accepts part stats' short sent ih =>
      have split : part ++ message.drop (more + 1) = message := List.take_append_drop _ _
      have behind : message.drop (more + 1) ≠ [] := by
        intro nothing
        have length := congrArg List.length nothing
        rw [List.length_drop, List.length_nil] at length
        omega
      obtain ⟨told, counted⟩ := ih behind
      constructor
      · calc
          part ++ sent.accepted = message ↔
              part ++ sent.accepted = part ++ message.drop (more + 1) := by rw [split]
          _ ↔ sent.accepted = message.drop (more + 1) := List.append_right_inj part
          _ ↔ sent.result ≠ -1 := told
      · show sent.stats.sentBytes = stats.sentBytes + UInt64.ofNat (part ++ sent.accepted).length
        rw [counted, List.length_append, UInt64.ofNat_add, ← UInt64.add_assoc]
        rfl
  -- The call fails for good, or once too often.
  | case3 | case4 =>
      refine ⟨iff_of_false (Ne.symm occupied) ?_, ?_⟩
      · exact not_not_intro rfl
      · exact (UInt64.add_zero _).symm
  | case5 => exact absurd rfl occupied
  | case6 outcomes message limit stats errno fails stats' fatal often more ih => exact ih occupied

/-- Each call of `send` shortens what is left of the message or of the attempts, so that later
calls do not matter. -/
theorem sendFrom_congr (sentOnce : Bool) (outcomes : SendOutcomes) (message : List UInt8)
    (limit : Nat) (stats : SendStats) (outcomes' : SendOutcomes)
    (same : ∀ call ≤ message.length + limit, outcomes' call = outcomes call) :
    sendFrom sentOnce outcomes' message limit stats =
      sendFrom sentOnce outcomes message limit stats := by
  fun_induction sendFrom sentOnce outcomes message limit stats generalizing outcomes' with
  | case1 outcomes message limit stats more accepts part stats' whole =>
      have first := (same 0 (Nat.zero_le _)).trans accepts
      rw [sendFrom, first]
      exact if_pos whole
  | case2 outcomes message limit stats more accepts part stats' short sent ih =>
      have first := (same 0 (Nat.zero_le _)).trans accepts
      have later := ih outcomes'.later (by
        intro call early
        rw [List.length_drop] at early
        exact same (call + 1) (by omega))
      rw [sendFrom, first]
      refine (if_neg short).trans ?_
      rw [later]
  | case3 outcomes message limit stats errno fails stats' fatal =>
      have first := (same 0 (Nat.zero_le _)).trans fails
      rw [sendFrom, first]
      exact if_pos fatal
  | case4 outcomes message limit stats errno fails stats' fatal last =>
      have first := (same 0 (Nat.zero_le _)).trans fails
      rw [sendFrom, first]
      exact (if_neg fatal).trans (if_pos last)
  | case5 outcomes limit stats errno fails stats' fatal often =>
      have first := (same 0 (Nat.zero_le _)).trans fails
      rw [sendFrom, first]
      exact (if_neg fatal).trans ((if_neg often).trans (if_pos rfl))
  | case6 outcomes message limit stats errno fails stats' fatal often more ih =>
      have first := (same 0 (Nat.zero_le _)).trans fails
      have later := ih outcomes'.later (by
        intro call early
        exact same (call + 1) (by omega))
      rw [sendFrom, first]
      exact (if_neg fatal).trans ((if_neg often).trans ((if_neg more).trans later))

/-- `send_` ends after as many calls of `send` as the message has bytes and the attempts allow;
the socket has accepted a part of the message from its beginning, all of it exactly if the result
is not -1, and `sent_bytes` has grown by as much. -/
theorem send_exact (message : List UInt8) (occupied : message ≠ []) (stats : SendStats)
    (sentOnce : Bool) (outcomes : SendOutcomes) :
    (∀ outcomes' : SendOutcomes,
      (∀ call ≤ message.length + errorLimitCount, outcomes' call = outcomes call) →
      send_ message stats sentOnce outcomes' = send_ message stats sentOnce outcomes) ∧
    (send_ message stats sentOnce outcomes).accepted <+: message ∧
    ((send_ message stats sentOnce outcomes).accepted = message ↔
      (send_ message stats sentOnce outcomes).result ≠ -1) ∧
    (send_ message stats sentOnce outcomes).stats.sentBytes =
      stats.sentBytes + UInt64.ofNat (send_ message stats sentOnce outcomes).accepted.length := by
  obtain ⟨told, counted⟩ :=
    sendFrom_exact sentOnce outcomes message occupied errorLimitCount stats
  refine ⟨?_, sendFrom_accepted_prefix _ _ _ _ _, told, counted⟩
  intro outcomes' same
  exact sendFrom_congr _ _ _ _ _ _ same

def noStats : SendStats := ⟨fun _ => 0, 0, 0, 0, 0⟩

def resetOutcomes : SendOutcomes
  | 0 | 2 => .accepts 0
  | 1 => .fails eagain
  | _ => .fails 104

theorem send_exact_reset :
    (send_ [71, 69, 84] noStats false resetOutcomes).accepted = [71, 69] ∧
    (send_ [71, 69, 84] noStats false resetOutcomes).result = -1 ∧
    (send_ [71, 69, 84] noStats false resetOutcomes).stats.sentBytes = 2 ∧
    (send_ [71, 69, 84] noStats false resetOutcomes).stats.sendFailed = 2 ∧
    ∀ outcomes' : SendOutcomes, (∀ call ≤ 1000003, outcomes' call = resetOutcomes call) →
      send_ [71, 69, 84] noStats false outcomes' =
        send_ [71, 69, 84] noStats false resetOutcomes := by
  obtain ⟨enough, _, told, counted⟩ :=
    send_exact [71, 69, 84] (by decide) noStats false resetOutcomes
  have sent : (send_ [71, 69, 84] noStats false resetOutcomes).accepted = [71, 69] ∧
      (send_ [71, 69, 84] noStats false resetOutcomes).stats.sendFailed = 2 := by
    constructor <;>
      simp [send_, sendFrom, resetOutcomes, SendOutcomes.later, eagain, errorLimitCount,
        SendStats.fail, SendStats.pass, noStats]
  refine ⟨sent.1, ?_, ?_, sent.2, enough⟩
  · by_contra other
    have whole := told.mpr other
    rw [sent.1] at whole
    cases whole
  · rw [counted, sent.1]
    rfl

end Etracker.Http
