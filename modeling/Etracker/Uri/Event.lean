import Etracker.Data.Announce
import Etracker.Uri.Fields

namespace Etracker

open Foundation Foundation.CString

def ParsedEvent (event : UInt8) : Prop :=
  event = uriEventIdCompleted ∨ event = uriEventIdStarted ∨ event = uriEventIdStopped ∨
    event = uriEventIdPaused ∨ event = uriEventIdContinue

theorem eventOfString_parsed (value : List UInt8) : ParsedEvent (eventOfString value) := by
  unfold eventOfString
  split_ifs <;> simp [ParsedEvent]

theorem ParsedEvent.ne_none {event : UInt8} (parsed : ParsedEvent event) :
    event ≠ uriEventIdNone := by
  rcases parsed with rfl | rfl | rfl | rfl | rfl <;> decide

namespace UriState

def params (state : UriState) : List UInt8 → List (List UInt8)
  | [] => []
  | current :: rest =>
      if current = 32 then [state.param]
      else if current = 38 ∧ state.status ≠ .path then
        state.param :: (state.step current).params rest
      else (state.step current).params rest

theorem step_event (state : UriState) (current : UInt8) :
    (state.step current).query.event =
      if current = 38 ∧ state.status ≠ .path then state.callGetParam.query.event
      else state.query.event := by
  cases status : state.status with
  | path =>
      simp only [step, status, putPath, ne_eq, not_true_eq_false, and_false, if_false]
      split_ifs <;> rfl
  | param =>
      by_cases ampersand : current = 38
      · simp [step, status, ampersand]
      · simp only [step, status, ampersand, putParam, if_false, false_and, if_true]
        split_ifs <;> rfl
  | value =>
      by_cases ampersand : current = 38
      · simp [step, status, ampersand]
      · simp only [step, status, ampersand, putValue, writeValue, if_false, false_and, reduceCtorEq]
        split_ifs <;> rfl

theorem run_event {holds : UInt8 → Prop} (parsed : ∀ value, holds (eventOfString value))
    (state : UriState) (text : List UInt8) (start : holds state.query.event) :
    holds (state.run text).query.event := by
  have stores : ∀ state : UriState, holds state.query.event →
      holds state.callGetParam.query.event := by
    intro state before
    rw [callGetParam, getParam_event]
    split_ifs
    · exact parsed _
    · exact before
  induction text generalizing state with
  | nil => exact start
  | cons current rest ih =>
      rw [run]
      split_ifs with blank
      · exact stores state start
      · apply ih
        rw [step_event]
        split_ifs
        · exact stores state start
        · exact start

theorem run_event_unnamed (state : UriState) (text : List UInt8)
    (unnamed : ascii "event" ∉ state.params text) :
    (state.run text).query.event = state.query.event := by
  have keeps : ∀ state : UriState, state.param ≠ ascii "event" →
      state.callGetParam.query.event = state.query.event := by
    intro state other
    rw [callGetParam, getParam_event, if_neg other]
  induction text generalizing state with
  | nil => rfl
  | cons current rest ih =>
      rw [params] at unnamed
      rw [run]
      split_ifs at unnamed ⊢ with blank stores
      · exact keeps state fun same => unnamed (by simp [same])
      · rw [List.mem_cons, not_or] at unnamed
        rw [ih _ unnamed.2, step_event, if_pos stores]
        exact keeps state fun same => unnamed.1 same.symm
      · rw [ih _ unnamed, step_event, if_neg stores]

end UriState

theorem parseXForwardedFor_event (inetPton : InetPton) (query : Query) (message : List UInt8)
    (hasForwardedForBlock : Bool) :
    (parseXForwardedFor inetPton query message hasForwardedForBlock).event = query.event := by
  obtain ⟨ip, ipVersion, same⟩ :=
    parseXForwardedFor_fields inetPton query message hasForwardedForBlock
  rw [same]

def announceParams (settings : Settings) (clientAddr : In6Addr) (readBuffer : List UInt8) :
    List (List UInt8) :=
  (UriState.start (httpDefaults settings clientAddr) none).params ((cString readBuffer).drop 4)

theorem httpQuery_parsed (host : Host) (settings : Settings) (clientAddr : In6Addr)
    (readBuffer : List UInt8) :
    ParsedEvent (httpQuery host settings clientAddr readBuffer).event := by
  have start : ParsedEvent (httpDefaults settings clientAddr).event := Or.inr (Or.inl rfl)
  rw [httpQuery, Query.limitNumwant_event, parseUri, parseXForwardedFor_event]
  exact UriState.run_event eventOfString_parsed _ _ start

theorem httpQuery_unnamed (host : Host) {settings : Settings} {clientAddr : In6Addr}
    {readBuffer : List UInt8}
    (unnamed : ascii "event" ∉ announceParams settings clientAddr readBuffer) :
    (httpQuery host settings clientAddr readBuffer).event = uriEventIdStarted := by
  rw [httpQuery, Query.limitNumwant_event, parseUri, parseXForwardedFor_event]
  exact UriState.run_event_unnamed _ _ unnamed

end Etracker
