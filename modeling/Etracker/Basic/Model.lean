import Etracker.Basic.Base64
import Etracker.Data.Announce
import Etracker.Foundation.Runs
import Etracker.Interval.Model

/-! The requests for `/api/set`, served by any number of workers: the header block that
`getAuthorizationHeader` fills for all of them, and the settings that they change. -/

namespace Etracker.Basic

open Foundation Foundation.CString Foundation.Runs

def basicPasswordLength : Nat := 20

def hasBasic (buffer search : List UInt8) : Bool := (strstr (cString buffer) (cString search)).isSome

def sourceString : List UInt8 :=
  ascii "ABCDEFGHIJKLMNOPQRSTUVWXYZabcdefghijklmnopqrstuvwxyz0123456789"

/-- From what `getRandom` has stored, the last byte first. -/
def randomString (randomBytes : Bytes basicPasswordLength) : List UInt8 :=
  randomBytes.list.reverse.map fun byte =>
    sourceString.getD (byte.toNat % sourceString.length) 0

def credentials (password : List UInt8) : List UInt8 :=
  base64_encode (ascii "etracker:" ++ password)

def authorizationName : List UInt8 := ascii "Authorization: Basic "

/-- The settings that a request can change. -/
structure ServerSettings where
  interval : Interval
  maxPeersPerResponse : UInt32
  socketTimeout : UInt16
  keepAlive : Bool
  deriving DecidableEq

def settingsBody (settings : ServerSettings) : List UInt8 :=
  ascii "\x7b\"keep_alive\":" ++ decimal settings.keepAlive.toNat ++
    ascii ",\"interval\":" ++ decimal settings.interval.interval.toNat ++
    ascii ",\"max_peers_response\":" ++ decimal settings.maxPeersPerResponse.toNat ++
    ascii ",\"socket_timeout\":" ++ decimal settings.socketTimeout.toNat ++ ascii "\x7d"

inductive SetReply
  | rejected (code : Nat) (message : List UInt8) (size : Nat)
  | done (body : List UInt8)

section Settings

variable (inetPton : InetPton)

def changeSettings (settings : ServerSettings) (readBuffer : List UInt8) : ServerSettings :=
  let query := (parseUri inetPton Query.empty none false readBuffer).1
  { interval :=
      if query.interval ≠ 0 then forceUpdateInterval settings.interval query.interval
      else settings.interval
    maxPeersPerResponse :=
      if query.maxPeersPerResponse ≠ 0 then query.maxPeersPerResponse
      else settings.maxPeersPerResponse
    socketTimeout :=
      if query.socketTimeout ≠ 0 then query.socketTimeout else settings.socketTimeout
    keepAlive := if query.keepAlive ≠ 0 then query.keepAlive = 1 else settings.keepAlive }

def authorized (authorizationHeader readBuffer : List UInt8) : Bool :=
  (strstr (cString readBuffer) (ascii "\r\nX-Requested-With: XMLHttpRequest\r\n")).isSome ∧
    hasBasic readBuffer authorizationHeader

def apiSet (authorizationHeader : List UInt8) (settings : ServerSettings)
    (readBuffer : List UInt8) : ServerSettings × SetReply :=
  if strstr (cString readBuffer) (ascii "\r\nX-Requested-With: XMLHttpRequest\r\n") = none then
    (settings, .rejected 400 (ascii "Request should be ajax") 22)
  else if hasBasic readBuffer authorizationHeader = true then
    let settings := changeSettings inetPton settings readBuffer
    (settings, .done (settingsBody settings))
  else (settings, .rejected 401 (ascii "Authorization Failure") 21)

theorem apiSet_settings (authorizationHeader : List UInt8) (settings : ServerSettings)
    (readBuffer : List UInt8) :
    (apiSet inetPton authorizationHeader settings readBuffer).1 =
      if authorized authorizationHeader readBuffer = true then
        changeSettings inetPton settings readBuffer
      else settings := by
  unfold apiSet authorized
  split_ifs with missing basic both both <;> simp_all

end Settings

inductive Appended
  | nothing
  | name
  | credentials

def Appended.next (encoded : List UInt8) : Appended → List UInt8
  | nothing => authorizationName
  | name => encoded
  | credentials => [13, 0]

inductive WorkerAt
  | idle
  | generates (readBuffer encoded : List UInt8) (appended : Appended)
  | checks (readBuffer : List UInt8)

structure Authorization (workers : Nat) where
  /-- What all the workers have appended to the header block. -/
  authorizationHeader : List UInt8
  settings : ServerSettings
  place : Fin workers → WorkerAt
  passwords : List (List UInt8)
  changed : List (List UInt8)

def Authorization.start (workers : Nat) (settings : ServerSettings) : Authorization workers :=
  ⟨[], settings, fun _ => .idle, [], []⟩

inductive SetTurn (workers : Nat)
  /-- The size test; if it fails, a password is generated from the bytes. -/
  | tests (worker : Fin workers) (readBuffer : List UInt8) (randomBytes : Bytes basicPasswordLength)
  /-- One call of `addStringBlock`. -/
  | appends (worker : Fin workers)
  | checks (worker : Fin workers)

namespace Authorization

variable {workers : Nat} (state : Authorization workers)

def tests (worker : Fin workers) (readBuffer : List UInt8)
    (randomBytes : Bytes basicPasswordLength) : Authorization workers :=
  if state.authorizationHeader.length = 0 then
    let password := randomString randomBytes
    { state with
      passwords := password :: state.passwords
      place := Function.update state.place worker
        (.generates readBuffer (credentials password) .nothing) }
  else { state with place := Function.update state.place worker (.checks readBuffer) }

def appends (worker : Fin workers) (readBuffer encoded : List UInt8) (appended : Appended) :
    Authorization workers :=
  { state with
    authorizationHeader := state.authorizationHeader ++ appended.next encoded
    place := Function.update state.place worker
      (match appended with
      | .nothing => .generates readBuffer encoded .name
      | .name => .generates readBuffer encoded .credentials
      | .credentials => .checks readBuffer) }

def checks (inetPton : InetPton) (worker : Fin workers) (readBuffer : List UInt8) :
    Authorization workers :=
  { state with
    settings := (apiSet inetPton state.authorizationHeader state.settings readBuffer).1
    place := Function.update state.place worker .idle
    changed :=
      if authorized state.authorizationHeader readBuffer = true then readBuffer :: state.changed
      else state.changed }

end Authorization

/-- The atomic steps of the workers. -/
inductive SetStep {workers : Nat} (inetPton : InetPton) :
    SetTurn workers → Authorization workers → Authorization workers → Prop
  | tests {state : Authorization workers} {worker : Fin workers} {readBuffer : List UInt8}
      {randomBytes : Bytes basicPasswordLength} :
      state.place worker = .idle →
      startsWith (ascii "GET /api/set") (cString readBuffer) = true →
      SetStep inetPton (.tests worker readBuffer randomBytes) state
        (state.tests worker readBuffer randomBytes)
  | appends {state : Authorization workers} {worker : Fin workers}
      {readBuffer encoded : List UInt8} {appended : Appended} :
      state.place worker = .generates readBuffer encoded appended →
      SetStep inetPton (.appends worker) state (state.appends worker readBuffer encoded appended)
  | checks {state : Authorization workers} {worker : Fin workers} {readBuffer : List UInt8} :
      state.place worker = .checks readBuffer →
      SetStep inetPton (.checks worker) state (state.checks inetPton worker readBuffer)

end Etracker.Basic
