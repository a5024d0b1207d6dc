import Etracker.Foundation.Bytes
import Etracker.Foundation.CString

/-! The request line parser of `uri.c`.

Two bytes of `peer_id` or `info_hash` are never randomised: both of the
`URI_RANDOM_DATA` switches are off in the source. -/

namespace Etracker

open Foundation Foundation.CString

def uriEventIdNone : UInt8 := 0
def uriEventIdCompleted : UInt8 := 1
def uriEventIdStarted : UInt8 := 2
def uriEventIdStopped : UInt8 := 3
def uriEventIdPaused : UInt8 := 4
def uriEventIdContinue : UInt8 := 5

def uriParamValueLength : Nat := 20
def uriDefaultNumWant : UInt32 := 50
def uriPathLength : Nat := 200

inductive Protocol
  | tcp
  | udp
  deriving DecidableEq, Repr

abbrev In6Addr := Bytes 16
abbrev ParamValue := Bytes uriParamValueLength

def socketVersionIpv4Bit : UInt8 := 1
def socketVersionIpv6Bit : UInt8 := 2

def v4MappedPrefix : List UInt8 := [0, 0, 0, 0, 0, 0, 0, 0, 0, 0, 255, 255]

def getIpVersion (in6Addr : In6Addr) : UInt8 :=
  if in6Addr.list.take 12 = v4MappedPrefix then socketVersionIpv4Bit else socketVersionIpv6Bit

def htons (value : UInt16) : UInt16 := value <<< 8 ||| value >>> 8

/-- `struct query`; `xForwardedFor` is `none` when the pointer is null. -/
structure Query where
  path : List UInt8
  hasInfoHash : Bool
  infoHash : ParamValue
  event : UInt8
  port : UInt16
  ip : In6Addr
  peerId : ParamValue
  protocol : Protocol
  compact : Bool
  noPeerId : Bool
  numwant : UInt32
  transactionId : UInt32
  interval : UInt32
  maxPeersPerResponse : UInt32
  socketTimeout : UInt16
  keepAlive : UInt8
  ipVersion : UInt8
  xForwardedFor : Option (List UInt8)
  deriving DecidableEq

def Query.empty : Query where
  path := []
  hasInfoHash := false
  infoHash := Bytes.zero _
  event := 0
  port := 0
  ip := Bytes.zero _
  peerId := Bytes.zero _
  protocol := .tcp
  compact := false
  noPeerId := false
  numwant := 0
  transactionId := 0
  interval := 0
  maxPeersPerResponse := 0
  socketTimeout := 0
  keepAlive := 0
  ipVersion := 0
  xForwardedFor := none

def eventOfString (value : List UInt8) : UInt8 :=
  if value = ascii "completed" then uriEventIdCompleted
  else if value = ascii "started" then uriEventIdStarted
  else if value = ascii "stopped" then uriEventIdStopped
  else if value = ascii "paused" then uriEventIdPaused
  else uriEventIdContinue

/-- `value` is the whole buffer: `memcpy` copies all of it, `strcmp` and `atoi`
read it up to its first zero byte. -/
def getParam (query : Query) (param : List UInt8) (value : ParamValue) : Query :=
  let text := cString value.list
  if param = ascii "info_hash" then { query with infoHash := value, hasInfoHash := true }
  else if param = ascii "event" then { query with event := eventOfString text }
  else if param = ascii "port" then { query with port := htons (UInt16.ofInt (atoi text)) }
  else if param = ascii "peer_id" then { query with peerId := value }
  else if param = ascii "compact" then { query with compact := atoi text ≠ 0 }
  else if param = ascii "no_peer_id" then { query with noPeerId := true }
  else if param = ascii "numwant" then { query with numwant := UInt32.ofInt (atoi text) }
  else if param = ascii "interval" then { query with interval := UInt32.ofInt (atoi text) }
  else if param = ascii "max_peers_response" then
    { query with maxPeersPerResponse := UInt32.ofInt (atoi text) }
  else if param = ascii "socket_timeout" then
    { query with socketTimeout := UInt16.ofInt (atoi text) }
  else if param = ascii "keep_alive" then { query with keepAlive := UInt8.ofInt (atoi text) }
  else query

def addHash (hashesBlock : Option (List UInt8)) (param : List UInt8) (value : ParamValue) :
    Option (List UInt8) :=
  if param = ascii "info_hash" then hashesBlock.map (· ++ value.list) else hashesBlock

inductive UriStatus
  | path
  | param
  | value
  deriving DecidableEq, Repr

/-- The local variables of `parseUri`. The string in `param` has no zero byte, so
it is given by its bytes; `value` is a buffer. -/
structure UriState where
  query : Query
  hashesBlock : Option (List UInt8)
  param : List UInt8
  value : ParamValue
  status : UriStatus
  len : Nat
  percent : Nat
  percentChars : UInt8 × UInt8

namespace UriState

def callGetParam (state : UriState) : UriState :=
  { state with
    query := getParam state.query state.param state.value
    hashesBlock := addHash state.hashesBlock state.param state.value }

def putPath (state : UriState) (current : UInt8) : UriState :=
  let len := state.query.path.length
  if len < uriPathLength ∧ (len ≠ 0 ∨ current ≠ 47) then
    { state with len := len, query := { state.query with path := state.query.path ++ [current] } }
  else { state with len := len }

def putParam (state : UriState) (current : UInt8) : UriState :=
  let len := state.param.length
  if len < uriParamValueLength then
    { state with len := len, param := state.param ++ [current] }
  else { state with len := len }

def writeValue (state : UriState) (current : UInt8) : UriState :=
  { state with value := state.value.set state.len current, len := state.len + 1 }

def putValue (state : UriState) (current : UInt8) : UriState :=
  if state.len < uriParamValueLength then
    if current = 37 then { state with percent := 1 }
    else if state.percent = 1 then
      { state with percentChars := (current, state.percentChars.2), percent := 2 }
    else if state.percent = 2 then
      let percentChars := (state.percentChars.1, current)
      let decoded := UInt8.ofInt (strtol [percentChars.1, percentChars.2] 16)
      { state with percent := 0, percentChars := percentChars }.writeValue decoded
    else state.writeValue current
  else state

def step (state : UriState) (current : UInt8) : UriState :=
  match state.status with
  | .path => if current = 63 then { state with status := .param } else state.putPath current
  | .param | .value =>
      if current = 61 then
        { state with value := Bytes.zero _, status := .value, len := 0 }
      else if current = 38 then
        { state.callGetParam with param := [], status := .param }
      else if state.status = .param then state.putParam current
      else state.putValue current

def run (state : UriState) : List UInt8 → UriState
  | [] => state
  | current :: rest => if current = 32 then state.callGetParam else (state.step current).run rest

end UriState

inductive AddressFamily
  | inet
  | inet6
  deriving DecidableEq, Repr

/-- `inet_pton`: the value it returns and the buffer it leaves behind. -/
abbrev InetPton := AddressFamily → List UInt8 → Bytes 17 → Int × Bytes 17

def lastToken : List UInt8 → Bool → List UInt8 → List UInt8
  | [], _, token => token
  | currentChar :: rest, reset, token =>
      if currentChar = 32 ∨ currentChar = 44 then lastToken rest true token
      else lastToken rest false ((if reset then [] else token) ++ [currentChar])

def setForwardedIp (inetPton : InetPton) (query : Query) (token : List UInt8) : Query :=
  if strstr token (ascii ":") = none then
    let (returned, ip) := inetPton .inet token (Bytes.zero _)
    if returned < 0 then query
    else if ip.list.take 4 = [0, 0, 0, 0] then query
    else
      { query with
        ip := Bytes.ofList 16 (v4MappedPrefix ++ ip.list.take 4)
        ipVersion := socketVersionIpv4Bit }
  else
    let (returned, ip) := inetPton .inet6 token (Bytes.zero _)
    if returned < 0 then query
    else { query with ip := Bytes.ofList 16 ip.list, ipVersion := socketVersionIpv6Bit }

/-- Pointers into the message are offsets. A null `endOfHeaders` sorts before
every header. -/
def parseXForwardedFor (inetPton : InetPton) (query : Query) (message : List UInt8)
    (hasForwardedForBlock : Bool) : Query :=
  if hasForwardedForBlock = false then query
  else match query.xForwardedFor with
  | none => query
  | some header =>
      match strstr message (ascii "\r\n"), strstr message header,
          strstr message (ascii "\r\n\r\n") with
      | some endOfFirstLine, some xForwardedFor, some endOfHeaders =>
          if xForwardedFor < endOfFirstLine then query
          else if endOfHeaders < xForwardedFor then query
          else
            let line := message.drop xForwardedFor
            match strstr line (ascii ":"), strstr line (ascii "\r\n") with
            | some endName, some endValue =>
                if endValue < endName + 1 then query
                else
                  setForwardedIp inetPton query
                    (lastToken ((line.take endValue).drop (endName + 1)) true [])
            | _, _ => query
      | _, _, _ => query

/-- `len` has no value before the first parameter; it is not read there. -/
def UriState.start (query : Query) (hashesBlock : Option (List UInt8)) : UriState where
  query := query
  hashesBlock := hashesBlock
  param := []
  value := Bytes.zero _
  status := .path
  len := 0
  percent := 0
  percentChars := (0, 0)

def parseUri (inetPton : InetPton) (query : Query) (hashesBlock : Option (List UInt8))
    (hasForwardedForBlock : Bool) (message : List UInt8) : Query × Option (List UInt8) :=
  let text := cString message
  let state := (UriState.start query hashesBlock).run (text.drop 4)
  (parseXForwardedFor inetPton state.query text hasForwardedForBlock, state.hashesBlock)

end Etracker
