import Etracker.Data.Announce
import Etracker.Foundation.Runs
import Etracker.Http.Send

/-! One connection, from `accept` to `close`: what arrives on it, what `processRead` takes
from it and answers, and what the socket accepts of the answers. -/

namespace Etracker.Http

open Foundation.CString Foundation.Runs

def websocketHeaderKey : List UInt8 := ascii "Sec-WebSocket-Key: "
def websocketReturnCode : UInt8 := 13
def websocketSpaceCode : UInt8 := 32

/-- The key that `websocketKey2Accept` hashes, or nothing where it returns `NULL`. -/
def websocketKey (data : List UInt8) (size : Nat) : Option (List UInt8) :=
  match strstr (cString data) websocketHeaderKey with
  | none => none
  | some headerKey =>
      let behind := (data.take (size - 1)).drop (headerKey + websocketHeaderKey.length)
      let key := behind.takeWhile fun current =>
        current ≠ websocketReturnCode ∧ current ≠ websocketSpaceCode
      if key = [] then none else some key

def isHttp (readBuffer : List UInt8) : Bool := startsWith (ascii "GET ") (cString readBuffer)

def canKeepAlive (keepAlive : Bool) (readBuffer : List UInt8) : Bool :=
  let text := cString readBuffer
  isHttp readBuffer ∧ keepAlive ∧
    (strstr text (ascii "HTTP/1.1") ≠ none ∧ strstr text (ascii "Connection: Close") = none ∨
      strstr text (ascii "Connection: Keep-Alive") ≠ none)

/-- The branches for `GET /announce` and `GET /api/set` come first and exclude this one. -/
def isWebsocket (readBuffer : List UInt8) : Bool :=
  startsWith (ascii "GET /api/websocket") (cString readBuffer) ∧
    (websocketKey readBuffer readBuffer.length).isSome

def blankLine : List UInt8 := ascii "\r\n\r\n"

/-- A response, and what has come of it. -/
structure Answer where
  /-- The request in `readBuffer`, unless the response is a 413 or a 408. -/
  request : Option (List UInt8)
  response : List UInt8
  sent : Sent
  part : sent.accepted <+: response

def Answer.accepted (answer : Answer) : List UInt8 := answer.sent.accepted

structure Connection where
  /-- What has arrived and was not taken. -/
  unread : List UInt8
  /-- On `websockets`. -/
  websocket : Bool
  closed : Bool
  /-- The oldest first. -/
  answers : List Answer

def Connection.accept : Connection := ⟨[], false, false, []⟩

/-- The setting, the counters, the response that is rendered, and what `send` does with it. -/
structure Turn where
  keepAlive : Bool
  stats : SendStats
  response : List UInt8
  outcomes : SendOutcomes

/-- The response is sent with `send_`, and no more is made of what comes of it. -/
def Turn.send (turn : Turn) (request : Option (List UInt8)) (sentOnce : Bool) : Answer where
  request := request
  response := turn.response
  sent := send_ turn.response turn.stats sentOnce turn.outcomes
  part := send_accepted_prefix turn.response turn.stats sentOnce turn.outcomes

theorem Turn.send_sent (turn : Turn) (request : Option (List UInt8)) (sentOnce : Bool) :
    (turn.send request sentOnce).sent =
      send_ turn.response turn.stats sentOnce turn.outcomes := rfl

theorem Turn.send_whole (turn : Turn) (request : Option (List UInt8)) (sentOnce : Bool) :
    (turn.send request sentOnce).accepted = turn.response ↔
      ¬GivesUp sentOnce turn.outcomes turn.response.length errorLimitCount := by
  rw [Answer.accepted, Turn.send_sent]
  exact send_accepted_iff turn.response turn.stats sentOnce turn.outcomes

namespace Connection

def answer (connection : Connection) (request : Option (List UInt8)) (turn : Turn)
    (sentOnce : Bool) : Connection :=
  { connection with answers := connection.answers ++ [turn.send request sentOnce] }

def close (connection : Connection) : Connection := { connection with closed := true }

/-- The second `recv` returns as much as the first has seen. -/
def processRead (connection : Connection) (turn : Turn) : Connection :=
  let readBuffer := connection.unread.take threadClientTcpReceivedMessageLength
  if readBuffer.length ≥ threadClientTcpReceivedMessageLength then
    (connection.answer none turn false).close
  else if readBuffer.length = 0 then connection.close
  else if strstr (cString readBuffer) blankLine = none ∧ connection.websocket = false then
    connection
  else
    let rest := connection.unread.drop readBuffer.length
    if connection.websocket = true then { connection with unread := rest }
    else
      let answered := Connection.answer
        { connection with unread := rest, websocket := isWebsocket readBuffer }
        (some readBuffer) turn false
      if canKeepAlive turn.keepAlive readBuffer = true ∨ isWebsocket readBuffer = true then answered
      else answered.close

def garbageSocketTimeoutCallback (connection : Connection) (turn : Turn) : Connection :=
  (connection.answer none turn true).close

end Connection

inductive Event
  | arrives (segment : List UInt8)
  | wakes (turn : Turn)
  | expires (turn : Turn)

def Connection.step (connection : Connection) (event : Event) : Connection :=
  if connection.closed = true then connection
  else
    match event with
    | .arrives segment => { connection with unread := connection.unread ++ segment }
    | .wakes turn => connection.processRead turn
    | .expires turn => connection.garbageSocketTimeoutCallback turn

abbrev Connection.Step (event : Event) (before after : Connection) : Prop :=
  after = before.step event

def Connection.run (connection : Connection) (events : List Event) : Connection :=
  events.foldl Connection.step connection

namespace Connection

/-- The request that `processRead` finds complete and answers. -/
def request (connection : Connection) : Option (List UInt8) :=
  if connection.unread.length < threadClientTcpReceivedMessageLength ∧
      connection.websocket = false ∧ strstr (cString connection.unread) blankLine ≠ none then
    some connection.unread
  else none

variable (connection : Connection) (turn : Turn)

theorem processRead_request {readBuffer : List UInt8}
    (complete : connection.request = some readBuffer) :
    connection.processRead turn =
      let answered := Connection.answer
        { connection with unread := [], websocket := isWebsocket readBuffer }
        (some readBuffer) turn false
      if canKeepAlive turn.keepAlive readBuffer = true ∨ isWebsocket readBuffer = true then answered
      else answered.close := by
  unfold request at complete
  split_ifs at complete with found
  obtain ⟨short, http, ends⟩ := found
  cases complete
  have whole : connection.unread.take threadClientTcpReceivedMessageLength = connection.unread :=
    List.take_of_length_le (Nat.le_of_lt short)
  have some : connection.unread.length ≠ 0 := by
    intro none
    rw [List.length_eq_zero_iff.mp none] at ends
    exact ends rfl
  unfold processRead
  simp only [whole, if_neg (Nat.not_le_of_lt short), if_neg some, ends, http, false_and, if_false,
    Bool.false_eq_true, List.drop_length]

theorem processRead_none (none : connection.request = none) :
    (connection.processRead turn).answers = connection.answers ∨
      connection.processRead turn = (connection.answer .none turn false).close := by
  unfold request at none
  split_ifs at none with missing
  unfold processRead
  dsimp only
  split_ifs with long empty partly websocket keeps
  · exact .inr rfl
  · exact .inl rfl
  · exact .inl rfl
  · exact .inl rfl
  all_goals
    rw [List.length_take] at long
    have short : connection.unread.length < threadClientTcpReceivedMessageLength := by omega
    rw [List.take_of_length_le (Nat.le_of_lt short)] at partly
    have http : connection.websocket = false := by simpa using websocket
    exact absurd ⟨short, http, fun absent => partly ⟨absent, http⟩⟩ missing

theorem processRead_incomplete (http : connection.websocket = false)
    (short : connection.unread.length < threadClientTcpReceivedMessageLength)
    (some : connection.unread ≠ []) (missing : strstr (cString connection.unread) blankLine = none) :
    connection.processRead turn = connection := by
  have whole : connection.unread.take threadClientTcpReceivedMessageLength = connection.unread :=
    List.take_of_length_le (Nat.le_of_lt short)
  unfold processRead
  simp only [whole, if_neg (Nat.not_le_of_lt short), List.length_eq_zero_iff, some, missing, http,
    and_self, if_true, if_false]

theorem processRead_websocket (websocket : connection.websocket = true)
    (short : connection.unread.length < threadClientTcpReceivedMessageLength)
    (some : connection.unread ≠ []) :
    connection.processRead turn = { connection with unread := [] } := by
  have whole : connection.unread.take threadClientTcpReceivedMessageLength = connection.unread :=
    List.take_of_length_le (Nat.le_of_lt short)
  unfold processRead
  simp only [whole, if_neg (Nat.not_le_of_lt short), List.length_eq_zero_iff, some, websocket,
    Bool.true_eq_false, and_false, if_true, if_false, List.drop_length]

theorem answers_prefix_step (event : Event) :
    connection.answers <+: (connection.step event).answers := by
  unfold step
  split_ifs with closed
  · exact List.prefix_rfl
  · cases event with
    | arrives segment => exact List.prefix_rfl
    | wakes turn =>
        unfold processRead
        dsimp only
        split_ifs
        all_goals first
          | exact List.prefix_rfl
          | exact List.prefix_append _ _
    | expires turn => exact List.prefix_append _ _

end Connection

def rootResponse : List UInt8 :=
  ascii "HTTP/1.1 200 OK\r\nConnection: Keep-Alive\r\nKeep-Alive: timeout=65, max=1000\r\n" ++
  ascii "Content-Type: text/plain\r\nContent-Length: 63\r\n" ++
  ascii "Server: github.com/truekenny/etracker\r\n\r\n" ++
  ascii "github.com/truekenny/etracker - open-source BitTorrent tracker\n"

def rootRequest : List UInt8 := ascii "GET / HTTP/1.1\r\n\r\n"

def rootTurn (outcomes : SendOutcomes) : Turn :=
  ⟨true, ⟨fun _ => 0, 0, 0, 0, 0⟩, rootResponse, outcomes⟩

theorem root_step (answers : List Answer) (outcomes : SendOutcomes) :
    (Connection.mk [] false false answers).run
        [.arrives rootRequest, .wakes (rootTurn outcomes)] =
      ⟨[], false, false, answers ++ [(rootTurn outcomes).send (some rootRequest) false]⟩ := by
  have short : rootRequest.length < threadClientTcpReceivedMessageLength := by decide
  have ends : strstr (cString rootRequest) blankLine ≠ none := by decide
  have complete : (Connection.mk rootRequest false false answers).request = some rootRequest :=
    if_pos ⟨short, rfl, ends⟩
  have keeps : canKeepAlive true rootRequest = true ∨ isWebsocket rootRequest = true := by decide
  have http : isWebsocket rootRequest = false := by decide
  have read := Connection.processRead_request _ (rootTurn outcomes) complete
  dsimp only at read
  rw [show (rootTurn outcomes).keepAlive = true from rfl, if_pos keeps, http] at read
  exact read

end Etracker.Http
