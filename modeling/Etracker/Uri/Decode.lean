import Etracker.Uri.Fields

namespace Etracker

open Foundation Foundation.CString

def paddedValue (value : List UInt8) : List UInt8 :=
  value.take uriParamValueLength ++ List.replicate (uriParamValueLength - value.length) 0

def valueText (value : List UInt8) : List UInt8 := cString (value.take uriParamValueLength)

theorem cString_ofList_eq (value : List UInt8) :
    cString (Bytes.ofList uriParamValueLength value).list = valueText value := by
  rw [Bytes.ofList_list, cString_append_zeros, valueText]

def readLast {β : Type} (parameters : List Parameter) (name : String) (read : List UInt8 → β)
    (default : β) : β :=
  ((lastValue parameters (ascii name)).map read).getD default

/-- The fields of a query after the parameters of a request line were stored in it. -/
structure Decodes (query parsed : Query) (parameters : List Parameter) : Prop where
  infoHash : parsed.infoHash.list = readLast parameters "info_hash" paddedValue query.infoHash.list
  hasInfoHash : parsed.hasInfoHash =
    readLast parameters "info_hash" (fun _ => true) query.hasInfoHash
  peerId : parsed.peerId.list = readLast parameters "peer_id" paddedValue query.peerId.list
  event : parsed.event =
    readLast parameters "event" (fun value => eventOfString (valueText value)) query.event
  port : parsed.port = readLast parameters "port"
    (fun value => htons (UInt16.ofInt (atoi (valueText value)))) query.port
  compact : parsed.compact = readLast parameters "compact"
    (fun value => decide (atoi (valueText value) ≠ 0)) query.compact
  noPeerId : parsed.noPeerId = readLast parameters "no_peer_id" (fun _ => true) query.noPeerId
  numwant : parsed.numwant = readLast parameters "numwant"
    (fun value => UInt32.ofInt (atoi (valueText value))) query.numwant
  interval : parsed.interval = readLast parameters "interval"
    (fun value => UInt32.ofInt (atoi (valueText value))) query.interval
  maxPeersPerResponse : parsed.maxPeersPerResponse = readLast parameters "max_peers_response"
    (fun value => UInt32.ofInt (atoi (valueText value))) query.maxPeersPerResponse
  socketTimeout : parsed.socketTimeout = readLast parameters "socket_timeout"
    (fun value => UInt16.ofInt (atoi (valueText value))) query.socketTimeout
  keepAlive : parsed.keepAlive = readLast parameters "keep_alive"
    (fun value => UInt8.ofInt (atoi (valueText value))) query.keepAlive

theorem foldl_store_text {β : Type} {field : Query → β} {name : String} (read : List UInt8 → β)
    (sets : ∀ query param value, field (getParam query param value) =
      if param = ascii name then read (cString value.list) else field query)
    (short : (ascii name).length < uriParamValueLength) (parameters : List Parameter)
    (query : Query) :
    field (parameters.foldl Parameter.store query) =
      readLast parameters name (fun value => read (valueText value)) (field query) := by
  rw [foldl_store_last sets short, readLast]
  congr 2
  funext value
  rw [cString_ofList_eq]

theorem foldl_store_bytes {field : Query → ParamValue} {name : String}
    (sets : ∀ query param value, field (getParam query param value) =
      if param = ascii name then value else field query)
    (short : (ascii name).length < uriParamValueLength) (parameters : List Parameter)
    (query : Query) :
    (field (parameters.foldl Parameter.store query)).list =
      readLast parameters name paddedValue (field query).list := by
  rw [foldl_store_last sets short, readLast]
  cases lastValue parameters (ascii name) with
  | none => rfl
  | some value => exact Bytes.ofList_list value

theorem foldl_store_decodes (parameters : List Parameter) (query : Query) :
    Decodes query (parameters.foldl Parameter.store query) parameters where
  infoHash := foldl_store_bytes getParam_infoHash (by decide) parameters query
  hasInfoHash := foldl_store_last getParam_hasInfoHash (by decide) parameters query
  peerId := foldl_store_bytes getParam_peerId (by decide) parameters query
  event := foldl_store_text eventOfString getParam_event (by decide) parameters query
  port := foldl_store_text (fun text => htons (UInt16.ofInt (atoi text))) getParam_port
    (by decide) parameters query
  compact := foldl_store_text (fun text => decide (atoi text ≠ 0)) getParam_compact
    (by decide) parameters query
  noPeerId := foldl_store_last getParam_noPeerId (by decide) parameters query
  numwant := foldl_store_text (fun text => UInt32.ofInt (atoi text)) getParam_numwant
    (by decide) parameters query
  interval := foldl_store_text (fun text => UInt32.ofInt (atoi text)) getParam_interval
    (by decide) parameters query
  maxPeersPerResponse := foldl_store_text (fun text => UInt32.ofInt (atoi text))
    getParam_maxPeersPerResponse (by decide) parameters query
  socketTimeout := foldl_store_text (fun text => UInt16.ofInt (atoi text))
    getParam_socketTimeout (by decide) parameters query
  keepAlive := foldl_store_text (fun text => UInt8.ofInt (atoi text)) getParam_keepAlive
    (by decide) parameters query

/-- A request line is decoded as it was encoded: the last value of every known name
counts, and all hashes are collected. -/
theorem parseUri_decodes (inetPton : InetPton) (query : Query) (hashesBlock : Option (List UInt8))
    (hasForwardedForBlock : Bool) {path : List UInt8}
    (letters : ∀ letter ∈ path, letter ≠ 0 ∧ letter ≠ 32 ∧ letter ≠ 63)
    (parameters : List Parameter) (rest : List UInt8) :
    let parsed := parseUri inetPton query hashesBlock hasForwardedForBlock
      (requestText path parameters rest)
    Decodes query parsed.1 parameters ∧
      parsed.2 = hashesBlock.map (· ++
        (parameters.filter fun parameter => parameter.name = ascii "info_hash").flatMap
          fun parameter => paddedValue parameter.value) := by
  intro parsed
  obtain ⟨path', parses⟩ := parseUri_requestText inetPton query hashesBlock hasForwardedForBlock
    letters parameters rest
  obtain ⟨ip, ipVersion, forwarded⟩ := parseXForwardedFor_fields inetPton
    (parameters.foldl Parameter.store { query with path := path' })
    (requestText path parameters (cString rest)) hasForwardedForBlock
  have decodes := foldl_store_decodes parameters { query with path := path' }
  have isParsed : parsed = _ := parses
  rw [isParsed, forwarded, foldl_storeHash]
  constructor
  · exact ⟨decodes.infoHash, decodes.hasInfoHash, decodes.peerId, decodes.event, decodes.port,
      decodes.compact, decodes.noPeerId, decodes.numwant, decodes.interval,
      decodes.maxPeersPerResponse, decodes.socketTimeout, decodes.keepAlive⟩
  · simp only [Bytes.ofList_list]
    rfl

def hexDigit (digit : Nat) : UInt8 := UInt8.ofNat (if digit < 10 then 48 + digit else 55 + digit)

theorem digitValue_hexDigit : ∀ digit < 16, digitValue 16 (hexDigit digit) = some digit := by
  decide

def percentEncode (bytes : List UInt8) : List UInt8 :=
  bytes.flatMap fun byte => [37, hexDigit (byte.toNat / 16), hexDigit (byte.toNat % 16)]

@[simp] theorem percentEncode_length (bytes : List UInt8) :
    (percentEncode bytes).length = 3 * bytes.length := by
  induction bytes with
  | nil => rfl
  | cons byte rest ih =>
      simp only [percentEncode, List.flatMap_cons, List.length_append, List.length_cons,
        List.length_nil] at ih ⊢
      omega

theorem percentEncode_encodes (bytes : List UInt8) : Encodes (percentEncode bytes) bytes := by
  induction bytes with
  | nil => exact .nil
  | cons byte rest ih =>
      have bound := byte.toNat_lt
      have high := digitValue_hexDigit (byte.toNat / 16) (by omega)
      have low := digitValue_hexDigit (byte.toNat % 16) (by omega)
      have whole : UInt8.ofNat (byte.toNat / 16 * 16 + byte.toNat % 16) = byte := by
        rw [Nat.div_add_mod', UInt8.ofNat_toNat]
      have encodes := Encodes.escaped high low ih
      rw [whole] at encodes
      exact encodes

instance (letter : UInt8) : Decidable (NameLetter letter) :=
  decidable_of_iff (letter ≠ 0 ∧ letter ≠ 32 ∧ letter ≠ 38 ∧ letter ≠ 61)
    ⟨fun ⟨first, second, third, fourth⟩ => ⟨first, second, third, fourth⟩,
      fun ⟨first, second, third, fourth⟩ => ⟨first, second, third, fourth⟩⟩

def Parameter.encode (name value : List UInt8) (named : ∀ letter ∈ name, NameLetter letter) :
    Parameter :=
  ⟨name, percentEncode value, value, named, percentEncode_encodes value⟩

theorem infoHash_named : ∀ letter ∈ ascii "info_hash", NameLetter letter := by decide +kernel

theorem port_named : ∀ letter ∈ ascii "port", NameLetter letter := by decide +kernel

def sampleParameters : List Parameter :=
  [.encode (ascii "info_hash") [65, 0, 66] infoHash_named,
    .encode (ascii "port") (ascii "6881") port_named]

theorem parseUri_decodes_sample :
    let parsed := parseUri (fun _ _ buffer => (0, buffer)) Query.empty (some []) false
      (requestText (ascii "/announce") sampleParameters (ascii "HTTP/1.1\r\n\r\n"))
    Decodes Query.empty parsed.1 sampleParameters ∧
      parsed.2 = some (65 :: 0 :: 66 :: List.replicate 17 0) :=
  parseUri_decodes _ Query.empty (some []) false (by decide +kernel) sampleParameters _

end Etracker
