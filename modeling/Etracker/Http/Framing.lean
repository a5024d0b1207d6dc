import Etracker.Http.Model

/-! What the client receives on one connection. A response that is cut short on a
connection that stays open is followed by others. -/

namespace Etracker.Http

open Foundation.CString Foundation.Runs

def received (answers : List Answer) : List UInt8 := answers.flatMap Answer.accepted

/-- Complete responses first, then one that may be cut short, and nothing of any other. -/
def Framed (answers : List Answer) : Prop :=
  ∃ whole rest, answers = whole ++ rest ∧ (∀ answer ∈ whole, answer.accepted = answer.response) ∧
    ∀ later ∈ rest.tail, later.accepted = []

theorem received_whole {answers : List Answer}
    (whole : ∀ answer ∈ answers, answer.accepted = answer.response) :
    received answers = answers.flatMap Answer.response :=
  List.flatMap_congr whole

theorem received_nil {answers : List Answer} (nothing : ∀ answer ∈ answers, answer.accepted = []) :
    received answers = [] :=
  List.flatMap_eq_nil_iff.mpr nothing

theorem Framed.received {answers : List Answer} (framed : Framed answers) :
    ∃ whole rest, answers = whole ++ rest ∧
      ((rest = [] ∧ received answers = whole.flatMap Answer.response) ∨
        ∃ cut later, rest = cut :: later ∧ cut.accepted <+: cut.response ∧
          received answers = whole.flatMap Answer.response ++ cut.accepted) := by
  obtain ⟨whole, rest, split, complete, nothing⟩ := framed
  refine ⟨whole, rest, split, ?_⟩
  cases rest with
  | nil =>
      left
      rw [split, List.append_nil]
      exact ⟨rfl, received_whole complete⟩
  | cons cut later =>
      right
      refine ⟨cut, later, rfl, cut.part, ?_⟩
      have nothing' : ∀ answer ∈ later, answer.accepted = [] := nothing
      calc
        Http.received answers = Http.received whole ++ (cut.accepted ++ Http.received later) := by
          rw [split, Http.received, List.flatMap_append, List.flatMap_cons]
          rfl
        _ = whole.flatMap Answer.response ++ cut.accepted := by
          rw [received_whole complete, received_nil nothing', List.append_nil]

theorem framed_whole {answers : List Answer}
    (whole : ∀ answer ∈ answers, answer.accepted = answer.response) : Framed answers :=
  ⟨answers, [], (List.append_nil _).symm, whole, nofun⟩

theorem framed_concat {answers : List Answer}
    (whole : ∀ answer ∈ answers, answer.accepted = answer.response) (last : Answer) :
    Framed (answers ++ [last]) :=
  ⟨answers, [last], rfl, whole, nofun⟩

theorem not_framed {answers : List Answer} {cut : Answer} {later : List Answer}
    (short : cut.accepted ≠ cut.response) (more : ∃ answer ∈ later, answer.accepted ≠ []) :
    ¬Framed (answers ++ cut :: later) := by
  rintro ⟨whole, rest, split, complete, nothing⟩
  obtain ⟨answer, member, some⟩ := more
  rcases List.append_eq_append_iff.mp split with ⟨between, rfl, behind⟩ | ⟨between, rfl, behind⟩
  · cases between with
    | nil =>
        rw [List.nil_append] at behind
        subst behind
        exact some (nothing answer member)
    | cons first between =>
        rw [List.cons_append, List.cons.injEq] at behind
        obtain ⟨rfl, -⟩ := behind
        exact short (complete cut (List.mem_append_right _ List.mem_cons_self))
  · cases between with
    | nil =>
        rw [List.nil_append] at behind
        subst behind
        exact some (nothing answer member)
    | cons first between =>
        subst behind
        rw [List.cons_append, List.tail_cons] at nothing
        exact some (nothing answer
          (List.mem_append_right _ (List.mem_cons_of_mem _ member)))

/-- If the connection stays open after the response, `send_` does not give up on it. -/
def SendsWhole : Event → Connection → Prop
  | .wakes turn, connection => ∀ readBuffer, connection.request = some readBuffer →
      (canKeepAlive turn.keepAlive readBuffer = true ∨ isWebsocket readBuffer = true) →
      ¬GivesUp false turn.outcomes turn.response.length errorLimitCount
  | .arrives _, _ | .expires _, _ => True

namespace Connection

/-- As long as the connection is open, no response was cut short. -/
structure Whole (connection : Connection) : Prop where
  complete : connection.closed = false →
    ∀ answer ∈ connection.answers, answer.accepted = answer.response
  framed : Framed connection.answers

variable {connection : Connection}

theorem Whole.same {other : Connection} (whole : connection.Whole)
    (opened : connection.closed = false) (same : other.answers = connection.answers) :
    other.Whole := by
  refine ⟨fun _ => ?_, ?_⟩
  · rw [same]
    exact whole.complete opened
  · rw [same]
    exact whole.framed

theorem Whole.last (whole : connection.Whole) (opened : connection.closed = false)
    (request : Option (List UInt8)) (turn : Turn) (sentOnce : Bool) :
    (connection.answer request turn sentOnce).close.Whole :=
  ⟨nofun, framed_concat (whole.complete opened) (turn.send request sentOnce)⟩

theorem Whole.next (whole : connection.Whole) (opened : connection.closed = false)
    (request : Option (List UInt8)) {turn : Turn} {sentOnce : Bool}
    (sends : ¬GivesUp sentOnce turn.outcomes turn.response.length errorLimitCount) :
    (connection.answer request turn sentOnce).Whole := by
  have complete : ∀ answer ∈ (connection.answer request turn sentOnce).answers,
      answer.accepted = answer.response := by
    intro answer member
    rcases List.mem_append.mp member with old | new
    · exact whole.complete opened answer old
    · rw [List.mem_singleton.mp new]
      exact (turn.send_whole request sentOnce).mpr sends
  exact ⟨fun _ => complete, framed_whole complete⟩

theorem Whole.processRead (whole : connection.Whole) (opened : connection.closed = false)
    {turn : Turn} (sends : SendsWhole (.wakes turn) connection) :
    (connection.processRead turn).Whole := by
  cases complete : connection.request with
  | none =>
      rcases connection.processRead_none turn complete with same | closes
      · exact whole.same opened same
      · rw [closes]
        exact whole.last opened none turn false
  | some readBuffer =>
      rw [connection.processRead_request turn complete]
      have taken : Connection.Whole
          { connection with unread := [], websocket := isWebsocket readBuffer } :=
        whole.same opened rfl
      dsimp only
      split_ifs with keeps
      · exact taken.next opened _ (sends readBuffer complete keeps)
      · exact taken.last opened _ turn false

theorem Whole.step (whole : connection.Whole) {event : Event}
    (sends : SendsWhole event connection) : (connection.step event).Whole := by
  unfold Connection.step
  split_ifs with closed
  · exact whole
  · have opened : connection.closed = false := by simpa using closed
    cases event with
    | arrives segment => exact whole.same opened rfl
    | wakes turn => exact whole.processRead opened sends
    | expires turn => exact whole.last opened none turn true

end Connection

/-- In every run in which `send_` gives up only on the last response of a connection. -/
theorem framed_of_sendsWhole {connection : Connection}
    (reached : Reached Connection.Step SendsWhole .accept connection) : Framed connection.answers := by
  have whole : connection.Whole := by
    apply reached.invariant Connection.Whole
    · exact ⟨fun _ => nofun, framed_whole nofun⟩
    · rintro event before after whole sends rfl
      exact whole.step sends
  exact whole.framed

theorem rootTurn_whole (request : Option (List UInt8)) :
    ((rootTurn fun _ => .accepts 1000).send request false).accepted = rootResponse :=
  ((rootTurn fun _ => .accepts 1000).send_whole request false).mpr nofun

def cutOutcomes : SendOutcomes := fun call => if call = 0 then .accepts 99 else .fails 105

def pausedOutcomes : SendOutcomes := fun call => if call = 1 then .fails eagain else .accepts 99

theorem pausedOutcomes_sends (size : Nat) :
    ¬GivesUp false pausedOutcomes size errorLimitCount := by
  rintro ⟨call, errno, fails, _, final⟩
  unfold pausedOutcomes at fails
  split_ifs at fails with second
  cases fails
  subst second
  revert final
  decide

def framedEvents : List Event :=
  [.arrives rootRequest, .wakes (rootTurn fun _ => .accepts 1000), .arrives rootRequest,
    .wakes (rootTurn pausedOutcomes), .expires (rootTurn cutOutcomes)]

theorem reached_step {connection : Connection}
    (reached : Reached Connection.Step SendsWhole .accept connection) {event : Event}
    (sends : SendsWhole event connection) :
    Reached Connection.Step SendsWhole .accept (connection.step event) :=
  reached.next sends rfl

theorem framed_of_sendsWhole_expired :
    (Connection.accept.run framedEvents).answers.map Answer.request =
        [some rootRequest, some rootRequest, none] ∧
      Framed (Connection.accept.run framedEvents).answers := by
  constructor
  · calc (Connection.accept.run framedEvents).answers.map Answer.request
        = (((Connection.accept.run [.arrives rootRequest,
            .wakes (rootTurn fun _ => .accepts 1000)]).run [.arrives rootRequest,
            .wakes (rootTurn pausedOutcomes)]).step
              (.expires (rootTurn cutOutcomes))).answers.map Answer.request := rfl
      _ = _ := by
        rw [Connection.accept, root_step, root_step]
        rfl
  · have first : SendsWhole (.wakes (rootTurn fun _ => .accepts 1000))
        (Connection.accept.step (.arrives rootRequest)) := fun _ _ _ => nofun
    have second : SendsWhole (.wakes (rootTurn pausedOutcomes))
        (((Connection.accept.step (.arrives rootRequest)).step
          (.wakes (rootTurn fun _ => .accepts 1000))).step (.arrives rootRequest)) :=
      fun _ _ _ => pausedOutcomes_sends _
    have arrives := @reached_step _ .start (.arrives rootRequest) trivial
    have arrives' := @reached_step _ (reached_step arrives first) (.arrives rootRequest) trivial
    have answered := reached_step arrives' second
    exact framed_of_sendsWhole (@reached_step _ answered (.expires (rootTurn cutOutcomes)) trivial)

/-- Where `send_` gives up and the connection stays open, the collector is enough to break
the frame, as soon as the socket accepts a byte again. -/
theorem unframed_of_givesUp {connection : Connection} {turn turn' : Turn} {readBuffer : List UInt8}
    (opened : connection.closed = false) (complete : connection.request = some readBuffer)
    (keeps : canKeepAlive turn.keepAlive readBuffer = true ∨ isWebsocket readBuffer = true)
    (givesUp : GivesUp false turn.outcomes turn.response.length errorLimitCount)
    (accepts : (turn'.send none true).accepted ≠ []) :
    ¬Framed (connection.run [.wakes turn, .expires turn']).answers := by
  have read := connection.processRead_request turn complete
  dsimp only at read
  rw [if_pos keeps] at read
  have cut : (turn.send (some readBuffer) false).accepted ≠ turn.response :=
    fun whole => (turn.send_whole (some readBuffer) false).mp whole givesUp
  have kept : (connection.processRead turn).closed = false := by
    rw [read]
    exact opened
  have after : connection.run [.wakes turn, .expires turn'] =
      (connection.processRead turn).garbageSocketTimeoutCallback turn' := by
    simp only [Connection.run, List.foldl_cons, List.foldl_nil, Connection.step, opened, kept,
      Bool.false_eq_true, if_false]
  rw [after, read]
  simp only [Connection.garbageSocketTimeoutCallback, Connection.answer, Connection.close,
    List.append_assoc, List.singleton_append]
  exact not_framed cut ⟨_, List.mem_singleton_self _, accepts⟩

theorem response_after_cut :
    ¬Framed (Connection.accept.run
      [.arrives rootRequest, .wakes (rootTurn cutOutcomes),
        .arrives rootRequest, .wakes (rootTurn fun _ => .accepts 1000)]).answers := by
  have short : ((rootTurn cutOutcomes).send (some rootRequest) false).accepted ≠ rootResponse := by
    intro whole
    apply ((rootTurn cutOutcomes).send_whole (some rootRequest) false).mp whole
    exact ⟨1, 105, rfl, by decide +kernel, .inl (by decide)⟩
  have more : ((rootTurn fun _ => .accepts 1000).send (some rootRequest) false).accepted ≠ [] := by
    rw [rootTurn_whole]
    decide
  have both : Connection.accept.run
      [.arrives rootRequest, .wakes (rootTurn cutOutcomes),
        .arrives rootRequest, .wakes (rootTurn fun _ => .accepts 1000)] = _ :=
    calc
      _ = (Connection.accept.run [.arrives rootRequest, .wakes (rootTurn cutOutcomes)]).run
          [.arrives rootRequest, .wakes (rootTurn fun _ => .accepts 1000)] := rfl
      _ = _ := by rw [Connection.accept, root_step, root_step]
  rw [both]
  exact @not_framed [] _ _ short ⟨_, List.mem_singleton_self _, more⟩

end Etracker.Http
