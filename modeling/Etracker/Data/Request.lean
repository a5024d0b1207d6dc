import Etracker.Data.Packet
import Etracker.Uri.Decode

namespace Etracker

open Foundation Foundation.CString

inductive AnnounceEvent
  | completed
  | started
  | stopped
  deriving DecidableEq, Repr

namespace AnnounceEvent

def text : AnnounceEvent → List UInt8
  | completed => ascii "completed"
  | started => ascii "started"
  | stopped => ascii "stopped"

def code : AnnounceEvent → UInt8
  | completed => uriEventIdCompleted
  | started => uriEventIdStarted
  | stopped => uriEventIdStopped

theorem eventOfString_text (event : AnnounceEvent) : eventOfString event.text = event.code := by
  cases event <;> decide

theorem cString_text (event : AnnounceEvent) :
    cString (Bytes.ofList uriParamValueLength event.text).list = event.text := by
  cases event <;> decide

theorem code_toUInt32 (event : AnnounceEvent) : event.code.toUInt32.toUInt8 = event.code := by
  cases event <;> decide

end AnnounceEvent

/-- What a client announces. -/
structure AnnounceValues where
  infoHash : ParamValue
  peerId : ParamValue
  port : UInt16
  numwant : UInt32
  event : AnnounceEvent
  port_ne_zero : port ≠ 0
  numwant_lt : numwant < 2 ^ 31

/-- A number that `getParam` receives in full. -/
def WritesNumber (number : Nat) (text : List UInt8) : Prop :=
  IsDecimal text number ∧ text.length ≤ uriParamValueLength

/-- A complete HTTP request that carries the values and asks for a compact reply; `rest`
is what stands behind the request target. -/
structure HttpRequest (values : AnnounceValues) where
  parameters : List Parameter
  rest : List UInt8
  infoHash : Carries parameters (ascii "info_hash") (· = values.infoHash.list)
  peerId : Carries parameters (ascii "peer_id") (· = values.peerId.list)
  port : Carries parameters (ascii "port") (WritesNumber values.port.toNat)
  numwant : Carries parameters (ascii "numwant") (WritesNumber values.numwant.toNat)
  event : Carries parameters (ascii "event") (· = values.event.text)
  compact : ∀ parameter ∈ parameters, parameter.name = ascii "compact" →
    parameter.value = ascii "1"
  short : (requestText (ascii "/announce") parameters rest).length < threadClientTcpReceivedMessageLength
  complete : strstr (cString (requestText (ascii "/announce") parameters rest)) (ascii "\r\n\r\n") ≠ none

def HttpRequest.bytes {values : AnnounceValues} (request : HttpRequest values) : List UInt8 :=
  requestText (ascii "/announce") request.parameters request.rest

/-- A UDP packet that carries the values. -/
structure AnnouncePacket.CarriesValues (packet : AnnouncePacket) (values : AnnounceValues) :
    Prop where
  infoHash : packet.infoHash = values.infoHash
  peerId : packet.peerId = values.peerId
  port : packet.port = values.port
  numwant : packet.numwant = values.numwant
  event : packet.event = values.event.code.toUInt32

structure Query.Announces (query : Query) (values : AnnounceValues) (settings : Settings)
    (clientAddr : In6Addr) : Prop where
  infoHash : query.infoHash = values.infoHash
  peerId : query.peerId = values.peerId
  port : query.port = htons values.port
  event : query.event = values.event.code
  ip : query.ip = clientAddr
  ipVersion : query.ipVersion = getIpVersion clientAddr
  numwant : query.numwant = if values.numwant > settings.maxPeersPerResponse then
    settings.maxPeersPerResponse else values.numwant
  compact : query.compact = true ∨ query.protocol = .udp

theorem Query.limitNumwant_eq (query : Query) (maxPeersPerResponse : UInt32) :
    query.limitNumwant maxPeersPerResponse =
      { query with numwant := if query.numwant > maxPeersPerResponse then maxPeersPerResponse
                              else query.numwant } := by
  unfold Query.limitNumwant
  split_ifs <;> rfl

theorem cString_ofList {text : List UInt8} (fits : text.length ≤ uriParamValueLength)
    (noZero : ∀ letter ∈ text, letter ≠ 0) :
    cString (Bytes.ofList uriParamValueLength text).list = text := by
  rw [cString_ofList_eq, valueText, List.take_of_length_le fits]
  exact cString_of_not_mem fun member => noZero 0 member rfl

theorem atoi_number {number : Nat} {text : List UInt8} (writes : WritesNumber number text)
    (fits : number < 2 ^ 31) :
    atoi (cString (Bytes.ofList uriParamValueLength text).list) = number := by
  have noZero : ∀ letter ∈ text, letter ≠ 0 := by
    rintro letter member rfl
    exact absurd (writes.1.1 0 member).1 (by decide)
  rw [cString_ofList writes.2 noZero]
  exact atoi_decimal writes.1 fits

theorem ofList_list_self (value : ParamValue) :
    Bytes.ofList uriParamValueLength value.list = value := by
  have whole := AnnouncePacket.ofList_append value []
  rwa [List.append_nil] at whole

theorem AnnouncePacket.CarriesValues.query {packet : AnnouncePacket} {values : AnnounceValues}
    (carries : packet.CarriesValues values) (settings : Settings) (clientAddr : In6Addr) :
    (udpQuery settings clientAddr packet.bytes).Announces values settings clientAddr := by
  rw [packet.udpQuery_bytes, Query.limitNumwant_eq]
  refine ⟨carries.infoHash, carries.peerId, ?_, ?_, rfl, rfl, ?_, Or.inr rfl⟩
  · rw [← carries.port]
  · rw [← values.event.code_toUInt32, ← carries.event]
  · rw [← carries.numwant]

theorem htons_eq_zero_iff (value : UInt16) : htons value = 0 ↔ value = 0 := by
  constructor
  · intro zero
    have low := congrArg UInt16.toNat zero
    have bound := value.toNat_lt
    simp only [htons, UInt16.toNat_or, UInt16.toNat_shiftLeft, UInt16.toNat_shiftRight,
      UInt16.reduceToNat, Nat.reduceMod, Nat.or_eq_zero_iff, Nat.shiftLeft_eq,
      Nat.shiftRight_eq_div_pow, Nat.reducePow] at low
    apply UInt16.toNat_inj.mp
    simp only [UInt16.reduceToNat]
    omega
  · rintro rfl
    rfl

namespace HttpRequest

variable {values : AnnounceValues} (request : HttpRequest values)

theorem parsed (host : Host) {query : Query} (noForwarded : query.xForwardedFor = none) :
    ∃ path, (parseUri host.inetPton query none true request.bytes).1 =
      request.parameters.foldl Parameter.store { query with path := path } := by
  have letters : ∀ letter ∈ ascii "/announce", letter ≠ 0 ∧ letter ≠ 32 ∧ letter ≠ 63 := by
    decide +kernel
  obtain ⟨path, parses⟩ := parseUri_requestText host.inetPton query none true letters
    request.parameters request.rest
  have header : (request.parameters.foldl Parameter.store
      { query with path := path }).xForwardedFor = none :=
    (foldl_store_kept (fun query param value => (getParam_connection query param value).2.2.2)
      request.parameters _).trans noForwarded
  refine ⟨path, ?_⟩
  rw [bytes, parses, parseXForwardedFor, header]
  rfl

theorem query (host : Host) {settings : Settings} (noForwarded : settings.xForwardedFor = none)
    (clientAddr : In6Addr) :
    (httpQuery host settings clientAddr request.bytes).Announces values settings clientAddr ∧
      (httpQuery host settings clientAddr request.bytes).hasInfoHash = true ∧
      (httpQuery host settings clientAddr request.bytes).compact = true ∧
      (httpQuery host settings clientAddr request.bytes).protocol = .tcp := by
  have noHeader : (httpDefaults settings clientAddr).xForwardedFor = none := noForwarded
  obtain ⟨path, parsed⟩ := request.parsed host noHeader
  rw [httpQuery, Query.limitNumwant_eq, parsed]
  generalize defaults : ({ httpDefaults settings clientAddr with path := path } : Query) = start
  have kept := fun query param value => getParam_connection query param value
  have infoHash : (request.parameters.foldl Parameter.store start).infoHash = values.infoHash := by
    apply foldl_store_set getParam_infoHash (by decide) ?_ (Or.inl request.infoHash.present)
    intro parameter member named
    rw [request.infoHash.every parameter member named, ofList_list_self]
  have peerId : (request.parameters.foldl Parameter.store start).peerId = values.peerId := by
    apply foldl_store_set getParam_peerId (by decide) ?_ (Or.inl request.peerId.present)
    intro parameter member named
    rw [request.peerId.every parameter member named, ofList_list_self]
  have port : (request.parameters.foldl Parameter.store start).port = htons values.port := by
    apply foldl_store_set getParam_port (by decide) ?_ (Or.inl request.port.present)
    intro parameter member named
    have bound := values.port.toNat_lt
    have small : values.port.toNat < 2 ^ 31 := by omega
    rw [atoi_number (request.port.every parameter member named) small, uint16OfInt_toNat]
  have numwant : (request.parameters.foldl Parameter.store start).numwant = values.numwant := by
    apply foldl_store_set getParam_numwant (by decide) ?_ (Or.inl request.numwant.present)
    intro parameter member named
    have small : values.numwant.toNat < 2 ^ 31 := UInt32.lt_iff_toNat_lt.mp values.numwant_lt
    rw [atoi_number (request.numwant.every parameter member named) small, uint32OfInt_toNat]
  have event : (request.parameters.foldl Parameter.store start).event = values.event.code := by
    apply foldl_store_set getParam_event (by decide) ?_ (Or.inl request.event.present)
    intro parameter member named
    rw [request.event.every parameter member named, values.event.cString_text,
      AnnounceEvent.eventOfString_text]
  have compact : (request.parameters.foldl Parameter.store start).compact = true := by
    apply foldl_store_set getParam_compact (by decide) ?_ (Or.inr ?_)
    · intro parameter member named
      rw [request.compact parameter member named]
      decide
    · rw [← defaults]
      rfl
  have hasInfoHash : (request.parameters.foldl Parameter.store start).hasInfoHash = true :=
    foldl_store_set getParam_hasInfoHash (by decide) (fun _ _ _ => rfl)
      (Or.inl request.infoHash.present)
  have ip : (request.parameters.foldl Parameter.store start).ip = clientAddr := by
    rw [foldl_store_kept fun query param value => (kept query param value).1, ← defaults]
    rfl
  have ipVersion : (request.parameters.foldl Parameter.store start).ipVersion =
      getIpVersion clientAddr := by
    rw [foldl_store_kept fun query param value => (kept query param value).2.1, ← defaults]
    rfl
  have protocol : (request.parameters.foldl Parameter.store start).protocol = .tcp := by
    rw [foldl_store_kept fun query param value => (kept query param value).2.2.1, ← defaults]
    rfl
  refine ⟨⟨infoHash, peerId, port, event, ip, ipVersion, ?_, Or.inl compact⟩, hasInfoHash, compact,
    protocol⟩
  rw [numwant]

def encodeParameters (values : AnnounceValues) : List Parameter :=
  [.encode (ascii "info_hash") values.infoHash.list infoHash_named,
    .encode (ascii "peer_id") values.peerId.list (by decide +kernel),
    .encode (ascii "port") (decimalDigits 5 values.port.toNat) port_named,
    .encode (ascii "numwant") (decimalDigits 10 values.numwant.toNat) (by decide +kernel),
    .encode (ascii "event") values.event.text (by decide +kernel)]

theorem encodeParameters_nodup (values : AnnounceValues) :
    ((encodeParameters values).map Parameter.name).Nodup := by
  show [ascii "info_hash", ascii "peer_id", ascii "port", ascii "numwant", ascii "event"].Nodup
  decide

theorem encodeParameters_short (values : AnnounceValues) (rest : List UInt8)
    (short : rest.length < 1000) :
    (requestText (ascii "/announce") (encodeParameters values) rest).length <
      threadClientTcpReceivedMessageLength := by
  have event : values.event.text.length ≤ 9 := by cases values.event <;> decide
  have names : (ascii "GET ").length = 4 ∧ (ascii "/announce").length = 9 ∧
      (ascii "info_hash").length = 9 ∧ (ascii "peer_id").length = 7 ∧
      (ascii "port").length = 4 ∧ (ascii "numwant").length = 7 ∧ (ascii "event").length = 5 := by
    decide
  simp only [requestText, encodeParameters, Parameter.line, Parameter.bytes, Parameter.encode,
    List.length_append, List.length_cons, percentEncode_length, decimalDigits_length,
    Bytes.length_eq, uriParamValueLength, threadClientTcpReceivedMessageLength]
  omega

theorem requestText_complete {path : List UInt8} (noZero : ∀ letter ∈ path, letter ≠ 0)
    (parameters : List Parameter) :
    strstr (cString (requestText path parameters (ascii "HTTP/1.1\r\n\r\n")))
      (ascii "\r\n\r\n") ≠ none := by
  have version : cString (ascii "HTTP/1.1\r\n\r\n") = ascii "HTTP/1.1" ++ (ascii "\r\n\r\n" ++ []) := by
    decide
  have whole : requestText path parameters (ascii "HTTP/1.1" ++ (ascii "\r\n\r\n" ++ [])) =
      requestText path parameters (ascii "HTTP/1.1") ++ (ascii "\r\n\r\n" ++ []) := by
    simp only [requestText, List.append_assoc, List.cons_append]
  rw [cString_requestText noZero, version, whole]
  exact strstr_append_ne_none _ _ _

theorem encodeParameters_carries (values : AnnounceValues) (place : Fin 5)
    {holds : List UInt8 → Prop} (right : holds ((encodeParameters values).get place).value) :
    Carries (encodeParameters values) ((encodeParameters values).get place).name holds :=
  .of_nodup (encodeParameters_nodup values) (List.get_mem _ _) right

def encode (values : AnnounceValues) : HttpRequest values where
  parameters := encodeParameters values
  rest := ascii "HTTP/1.1\r\n\r\n"
  infoHash := encodeParameters_carries values 0 rfl
  peerId := encodeParameters_carries values 1 rfl
  port := by
    have bound := values.port.toNat_lt
    have writes := decimalDigits_isDecimal (show values.port.toNat < 10 ^ 5 by omega)
    have fits : (decimalDigits 5 values.port.toNat).length ≤ uriParamValueLength := by
      rw [decimalDigits_length]
      decide
    exact encodeParameters_carries values 2 ⟨writes, fits⟩
  numwant := by
    have bound := values.numwant.toNat_lt
    have writes := decimalDigits_isDecimal (show values.numwant.toNat < 10 ^ 10 by omega)
    have fits : (decimalDigits 10 values.numwant.toNat).length ≤ uriParamValueLength := by
      rw [decimalDigits_length]
      decide
    exact encodeParameters_carries values 3 ⟨writes, fits⟩
  event := encodeParameters_carries values 4 rfl
  compact := by
    have other : ∀ name ∈ (encodeParameters values).map Parameter.name, name ≠ ascii "compact" := by
      show ∀ name ∈ [ascii "info_hash", ascii "peer_id", ascii "port", ascii "numwant",
        ascii "event"], name ≠ ascii "compact"
      decide
    intro parameter member named
    exact absurd named (other _ (List.mem_map_of_mem member))
  short := encodeParameters_short values _ (by decide)
  complete := requestText_complete (by decide +kernel) _

end HttpRequest

end Etracker
