import Etracker.Uri.Forwarded
import Etracker.Uri.Separate

namespace Etracker

open Foundation Foundation.CString

def hashesOfCalls (calls : List (List UInt8 × ParamValue)) : List (List UInt8) :=
  (calls.filter fun call => call.1 = ascii "info_hash").map fun call => call.2.list

theorem hashesOfCalls_cons (param : List UInt8) (value : ParamValue)
    (calls : List (List UInt8 × ParamValue)) :
    hashesOfCalls ((param, value) :: calls) =
      if param = ascii "info_hash" then value.list :: hashesOfCalls calls
      else hashesOfCalls calls := by
  unfold hashesOfCalls
  split_ifs with named
  · rw [List.filter_cons_of_pos (by simp [named]), List.map_cons]
  · rw [List.filter_cons_of_neg (by simp [named])]

theorem foldl_addHash (calls : List (List UInt8 × ParamValue)) (block : List UInt8) :
    calls.foldl (fun hashes call => addHash hashes call.1 call.2) (some block) =
      some (block ++ (hashesOfCalls calls).flatten) := by
  induction calls generalizing block with
  | nil => simp [hashesOfCalls]
  | cons call rest ih =>
      rw [List.foldl_cons, hashesOfCalls_cons, addHash]
      split_ifs with named
      · rw [Option.map_some, ih, List.flatten_cons, List.append_assoc]
      · exact ih block

theorem hashesOfCalls_sized {calls : List (List UInt8 × ParamValue)} {hash : List UInt8}
    (member : hash ∈ hashesOfCalls calls) : hash.length = uriParamValueLength := by
  obtain ⟨call, _, rfl⟩ := List.mem_map.mp member
  exact call.2.length_eq

namespace UriState

theorem step_param (state : UriState) (current : UInt8) :
    if current = 38 ∧ state.status ≠ .path then (state.step current).param = []
    else (state.step current).param.length ≤ state.param.length + 1 := by
  cases status : state.status with
  | path =>
      simp only [step, status, putPath, ne_eq, not_true_eq_false, and_false, if_false]
      split_ifs <;> exact Nat.le_succ _
  | param =>
      by_cases ampersand : current = 38
      · simp [step, status, ampersand]
      · simp only [step, status, ampersand, putParam, if_false, false_and, if_true]
        split_ifs
        · exact Nat.le_succ _
        · rw [List.length_append, List.length_singleton]
        · exact Nat.le_succ _
  | value =>
      by_cases ampersand : current = 38
      · simp [step, status, ampersand]
      · simp only [step, status, ampersand, putValue, writeValue, if_false, false_and, reduceCtorEq]
        split_ifs <;> exact Nat.le_succ _

theorem calls_hashes (state : UriState) (text : List UInt8) :
    10 * (hashesOfCalls (state.calls text)).length ≤ text.length + state.param.length := by
  have handed : ∀ (state : UriState) (later : List (List UInt8 × ParamValue)) (letters : Nat),
      10 * (hashesOfCalls later).length ≤ letters →
      10 * (hashesOfCalls ((state.param, state.value) :: later)).length ≤
        letters + 1 + state.param.length := by
    intro state later letters bounded
    rw [hashesOfCalls_cons]
    split_ifs with named
    · have length : (ascii "info_hash").length = 9 := by decide
      rw [List.length_cons, named, length]
      omega
    · omega
  induction text generalizing state with
  | nil => simp [calls, hashesOfCalls]
  | cons current rest ih =>
      have later := ih (state.step current)
      have param := state.step_param current
      rw [calls, List.length_cons]
      by_cases isBlank : current = 32
      · rw [if_pos isBlank]
        exact handed state [] _ (Nat.zero_le _)
      · rw [if_neg isBlank]
        by_cases hands : current = 38 ∧ state.status ≠ .path
        · rw [if_pos hands] at param ⊢
          rw [param, List.length_nil, Nat.add_zero] at later
          exact handed state _ _ later
        · rw [if_neg hands] at param ⊢
          omega

end UriState

def requestedHashes (message : List UInt8) : List (List UInt8) :=
  hashesOfCalls ((UriState.start Query.empty (some [])).calls ((cString message).drop 4))

theorem requestedHashes_sized {message hash : List UInt8} (member : hash ∈ requestedHashes message) :
    hash.length = uriParamValueLength :=
  hashesOfCalls_sized member

theorem requestedHashes_length (message : List UInt8) :
    10 * (requestedHashes message).length ≤ message.length := by
  have bounded := (UriState.start Query.empty (some [])).calls_hashes ((cString message).drop 4)
  have shorter : (cString message).length ≤ message.length := (List.takeWhile_prefix _).length_le
  rw [List.length_drop] at bounded
  have fresh : (UriState.start Query.empty (some [])).param.length = 0 := rfl
  rw [requestedHashes]
  omega

theorem parseUri_hashes (inetPton : InetPton) (message : List UInt8) :
    (parseUri inetPton Query.empty (some []) false message).2 =
      some (requestedHashes message).flatten := by
  have collected :=
    ((UriState.start Query.empty (some [])).run_calls ((cString message).drop 4)).2
  rw [parseUri]
  exact collected.trans (foldl_addHash _ [])

theorem parseUri_tcp (inetPton : InetPton) (message : List UInt8) :
    (parseUri inetPton Query.empty (some []) false message).1.protocol = .tcp := by
  rw [parseUri, parseXForwardedFor, if_pos rfl]
  exact UriState.run_kept (fun query param value => (getParam_connection query param value).2.2.1)
    (fun _ _ => rfl) _ _

end Etracker
