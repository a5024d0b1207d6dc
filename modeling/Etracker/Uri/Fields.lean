import Etracker.Uri.Parameters
import Mathlib.Data.List.Nodup

namespace Etracker

open Foundation Foundation.CString

section Fields

variable (query : Query) (param : List UInt8) (value : ParamValue)

theorem getParam_infoHash : (getParam query param value).infoHash =
    if param = ascii "info_hash" then value else query.infoHash := by
  simp only [getParam, apply_ite Query.infoHash, ite_self]

theorem getParam_hasInfoHash : (getParam query param value).hasInfoHash =
    if param = ascii "info_hash" then true else query.hasInfoHash := by
  simp only [getParam, apply_ite Query.hasInfoHash, ite_self]

theorem getParam_event : (getParam query param value).event = if param = ascii "event" then
      eventOfString (cString value.list) else query.event := by
  have apart : ascii "event" ≠ ascii "info_hash" := by decide
  simp only [getParam, apply_ite Query.event, ite_self]
  by_cases named : param = ascii "event"
  · rw [named, if_neg apart]
  · rw [if_neg named, ite_self]

theorem getParam_port : (getParam query param value).port =
    if param = ascii "port" then htons (UInt16.ofInt (atoi (cString value.list)))
    else query.port := by
  have apart : ascii "port" ≠ ascii "info_hash" ∧ ascii "port" ≠ ascii "event" := by decide
  simp only [getParam, apply_ite Query.port, ite_self]
  by_cases named : param = ascii "port"
  · rw [named, if_neg apart.1, if_neg apart.2]
  · rw [if_neg named, ite_self, ite_self]

theorem getParam_peerId : (getParam query param value).peerId =
    if param = ascii "peer_id" then value else query.peerId := by
  have apart : ascii "peer_id" ≠ ascii "info_hash" ∧ ascii "peer_id" ≠ ascii "event" ∧
      ascii "peer_id" ≠ ascii "port" := by decide
  simp only [getParam, apply_ite Query.peerId, ite_self]
  by_cases named : param = ascii "peer_id"
  · rw [named, if_neg apart.1, if_neg apart.2.1, if_neg apart.2.2]
  · rw [if_neg named, ite_self, ite_self, ite_self]

theorem getParam_compact : (getParam query param value).compact =
    if param = ascii "compact" then decide (atoi (cString value.list) ≠ 0)
    else query.compact := by
  have apart : ascii "compact" ≠ ascii "info_hash" ∧ ascii "compact" ≠ ascii "event" ∧
      ascii "compact" ≠ ascii "port" ∧ ascii "compact" ≠ ascii "peer_id" := by decide
  simp only [getParam, apply_ite Query.compact, ite_self]
  by_cases named : param = ascii "compact"
  · rw [named, if_neg apart.1, if_neg apart.2.1, if_neg apart.2.2.1, if_neg apart.2.2.2]
  · rw [if_neg named, ite_self, ite_self, ite_self, ite_self]

theorem getParam_numwant : (getParam query param value).numwant =
    if param = ascii "numwant" then UInt32.ofInt (atoi (cString value.list))
    else query.numwant := by
  have apart : ascii "numwant" ≠ ascii "info_hash" ∧ ascii "numwant" ≠ ascii "event" ∧
      ascii "numwant" ≠ ascii "port" ∧ ascii "numwant" ≠ ascii "peer_id" ∧
      ascii "numwant" ≠ ascii "compact" ∧ ascii "numwant" ≠ ascii "no_peer_id" := by decide
  simp only [getParam, apply_ite Query.numwant, ite_self]
  by_cases named : param = ascii "numwant"
  · rw [named, if_neg apart.1, if_neg apart.2.1, if_neg apart.2.2.1, if_neg apart.2.2.2.1,
      if_neg apart.2.2.2.2.1, if_neg apart.2.2.2.2.2]
  · rw [if_neg named, ite_self, ite_self, ite_self, ite_self, ite_self, ite_self]

theorem getParam_noPeerId : (getParam query param value).noPeerId =
    if param = ascii "no_peer_id" then true else query.noPeerId := by
  have apart : ascii "no_peer_id" ≠ ascii "info_hash" ∧ ascii "no_peer_id" ≠ ascii "event" ∧
      ascii "no_peer_id" ≠ ascii "port" ∧ ascii "no_peer_id" ≠ ascii "peer_id" ∧
      ascii "no_peer_id" ≠ ascii "compact" := by decide
  simp only [getParam, apply_ite Query.noPeerId, ite_self]
  by_cases named : param = ascii "no_peer_id"
  · rw [named, if_neg apart.1, if_neg apart.2.1, if_neg apart.2.2.1, if_neg apart.2.2.2.1,
      if_neg apart.2.2.2.2]
  · rw [if_neg named, ite_self, ite_self, ite_self, ite_self, ite_self]

def announceNames : List (List UInt8) :=
  [ascii "info_hash", ascii "event", ascii "port", ascii "peer_id", ascii "compact",
    ascii "no_peer_id", ascii "numwant"]

theorem getParam_setting (other : param ∉ announceNames) :
    getParam query param value =
      if param = ascii "interval" then
        { query with interval := UInt32.ofInt (atoi (cString value.list)) }
      else if param = ascii "max_peers_response" then
        { query with maxPeersPerResponse := UInt32.ofInt (atoi (cString value.list)) }
      else if param = ascii "socket_timeout" then
        { query with socketTimeout := UInt16.ofInt (atoi (cString value.list)) }
      else if param = ascii "keep_alive" then
        { query with keepAlive := UInt8.ofInt (atoi (cString value.list)) }
      else query := by
  simp only [announceNames, List.mem_cons, List.not_mem_nil, or_false, not_or] at other
  obtain ⟨h1, h2, h3, h4, h5, h6, h7⟩ := other
  rw [getParam, if_neg h1, if_neg h2, if_neg h3, if_neg h4, if_neg h5, if_neg h6, if_neg h7]

theorem getParam_announce (named : param ∈ announceNames) :
    (getParam query param value).interval = query.interval ∧
      (getParam query param value).maxPeersPerResponse = query.maxPeersPerResponse ∧
      (getParam query param value).socketTimeout = query.socketTimeout ∧
      (getParam query param value).keepAlive = query.keepAlive := by
  simp only [announceNames, List.mem_cons, List.not_mem_nil, or_false] at named
  rcases named with rfl | rfl | rfl | rfl | rfl | rfl | rfl <;> exact ⟨rfl, rfl, rfl, rfl⟩

theorem getParam_interval : (getParam query param value).interval =
    if param = ascii "interval" then UInt32.ofInt (atoi (cString value.list))
    else query.interval := by
  by_cases named : param ∈ announceNames
  · rw [(getParam_announce query param value named).1, if_neg]
    rintro rfl
    exact absurd named (by decide)
  · simp only [getParam_setting query param value named, apply_ite Query.interval, ite_self]

theorem getParam_maxPeersPerResponse : (getParam query param value).maxPeersPerResponse =
    if param = ascii "max_peers_response" then UInt32.ofInt (atoi (cString value.list))
    else query.maxPeersPerResponse := by
  by_cases named : param ∈ announceNames
  · rw [(getParam_announce query param value named).2.1, if_neg]
    rintro rfl
    exact absurd named (by decide)
  · have apart : ascii "max_peers_response" ≠ ascii "interval" := by decide
    simp only [getParam_setting query param value named, apply_ite Query.maxPeersPerResponse,
      ite_self]
    by_cases here : param = ascii "max_peers_response"
    · rw [here, if_neg apart]
    · rw [if_neg here, ite_self]

theorem getParam_socketTimeout : (getParam query param value).socketTimeout =
    if param = ascii "socket_timeout" then UInt16.ofInt (atoi (cString value.list))
    else query.socketTimeout := by
  by_cases named : param ∈ announceNames
  · rw [(getParam_announce query param value named).2.2.1, if_neg]
    rintro rfl
    exact absurd named (by decide)
  · have apart : ascii "socket_timeout" ≠ ascii "interval" ∧
        ascii "socket_timeout" ≠ ascii "max_peers_response" := by decide
    simp only [getParam_setting query param value named, apply_ite Query.socketTimeout, ite_self]
    by_cases here : param = ascii "socket_timeout"
    · rw [here, if_neg apart.1, if_neg apart.2]
    · rw [if_neg here, ite_self, ite_self]

theorem getParam_keepAlive : (getParam query param value).keepAlive =
    if param = ascii "keep_alive" then UInt8.ofInt (atoi (cString value.list))
    else query.keepAlive := by
  by_cases named : param ∈ announceNames
  · rw [(getParam_announce query param value named).2.2.2, if_neg]
    rintro rfl
    exact absurd named (by decide)
  · have apart : ascii "keep_alive" ≠ ascii "interval" ∧
        ascii "keep_alive" ≠ ascii "max_peers_response" ∧
        ascii "keep_alive" ≠ ascii "socket_timeout" := by decide
    simp only [getParam_setting query param value named, apply_ite Query.keepAlive]
    by_cases here : param = ascii "keep_alive"
    · rw [here, if_neg apart.1, if_neg apart.2.1, if_neg apart.2.2]
    · rw [if_neg here, ite_self, ite_self, ite_self]

theorem getParam_connection : (getParam query param value).ip = query.ip ∧
    (getParam query param value).ipVersion = query.ipVersion ∧
    (getParam query param value).protocol = query.protocol ∧
    (getParam query param value).xForwardedFor = query.xForwardedFor := by
  simp only [getParam, apply_ite Query.ip, apply_ite Query.ipVersion, apply_ite Query.protocol,
    apply_ite Query.xForwardedFor, ite_self, and_self]

end Fields

def lastValue (parameters : List Parameter) (name : List UInt8) : Option (List UInt8) :=
  (parameters.reverse.find? fun parameter => parameter.name = name).map Parameter.value

theorem lastValue_cons (parameter : Parameter) (rest : List Parameter) (name : List UInt8) :
    lastValue (parameter :: rest) name = (lastValue rest name).or
      (if parameter.name = name then some parameter.value else none) := by
  rw [lastValue, lastValue, List.reverse_cons, List.find?_append]
  cases rest.reverse.find? fun parameter => parameter.name = name with
  | some found => rfl
  | none => by_cases named : parameter.name = name <;> simp [named]

theorem lastValue_mem {parameters : List Parameter} {name value : List UInt8}
    (last : lastValue parameters name = some value) :
    ∃ parameter ∈ parameters, parameter.name = name ∧ parameter.value = value := by
  obtain ⟨parameter, found, valueIs⟩ := Option.map_eq_some_iff.mp last
  have member := List.mem_of_find?_eq_some found
  have named := List.find?_some found
  exact ⟨parameter, List.mem_reverse.mp member, by simpa using named, valueIs⟩

theorem lastValue_none {parameters : List Parameter} {name : List UInt8}
    (absent : lastValue parameters name = none) :
    ∀ parameter ∈ parameters, parameter.name ≠ name := by
  intro parameter member
  have differs := List.find?_eq_none.mp (Option.map_eq_none_iff.mp absent) parameter
    (List.mem_reverse.mpr member)
  simpa using differs

theorem take_eq_short {name short : List UInt8} (fits : short.length < uriParamValueLength) :
    name.take uriParamValueLength = short ↔ name = short := by
  constructor
  · intro same
    have lengths := congrArg List.length same
    rw [List.length_take] at lengths
    rw [← same, List.take_of_length_le (by omega)]
  · rintro rfl
    exact List.take_of_length_le (by omega)

section Fold

variable {β : Type} {field : Query → β}

theorem foldl_store_kept (kept : ∀ query param value, field (getParam query param value) = field query)
    (parameters : List Parameter) (query : Query) :
    field (parameters.foldl Parameter.store query) = field query := by
  induction parameters generalizing query with
  | nil => rfl
  | cons parameter rest ih => rw [List.foldl_cons, ih, Parameter.store, kept]

theorem foldl_store_last {name : List UInt8} {read : ParamValue → β}
    (sets : ∀ query param value, field (getParam query param value) =
      if param = name then read value else field query)
    (short : name.length < uriParamValueLength) (parameters : List Parameter) (query : Query) :
    field (parameters.foldl Parameter.store query) =
      ((lastValue parameters name).map fun value =>
        read (Bytes.ofList uriParamValueLength value)).getD (field query) := by
  induction parameters generalizing query with
  | nil => rfl
  | cons parameter rest ih =>
      rw [List.foldl_cons, ih, lastValue_cons, Parameter.store, sets]
      cases lastValue rest name with
      | some value => rfl
      | none =>
          by_cases named : parameter.name = name
          · simp [named, (take_eq_short short).mpr rfl]
          · simp [named, take_eq_short short]

structure Carries (parameters : List Parameter) (name : List UInt8) (holds : List UInt8 → Prop) :
    Prop where
  present : ∃ parameter ∈ parameters, parameter.name = name
  every : ∀ parameter ∈ parameters, parameter.name = name → holds parameter.value

theorem Carries.of_nodup {parameters : List Parameter}
    (distinct : (parameters.map Parameter.name).Nodup) {parameter : Parameter}
    (member : parameter ∈ parameters) {holds : List UInt8 → Prop} (right : holds parameter.value) :
    Carries parameters parameter.name holds := by
  refine ⟨⟨parameter, member, rfl⟩, ?_⟩
  intro other inside same
  rw [List.inj_on_of_nodup_map distinct inside member same]
  exact right

theorem foldl_store_set {name : List UInt8} {read : ParamValue → β}
    (sets : ∀ query param value, field (getParam query param value) =
      if param = name then read value else field query)
    (short : name.length < uriParamValueLength) {result : β} {parameters : List Parameter}
    (reads : ∀ parameter ∈ parameters, parameter.name = name →
      read (Bytes.ofList uriParamValueLength parameter.value) = result)
    {query : Query} (start : (∃ parameter ∈ parameters, parameter.name = name) ∨
      field query = result) : field (parameters.foldl Parameter.store query) = result := by
  rw [foldl_store_last sets short]
  cases last : lastValue parameters name with
  | some value =>
      obtain ⟨parameter, member, named, rfl⟩ := lastValue_mem last
      exact reads parameter member named
  | none =>
      rcases start with ⟨parameter, member, named⟩ | set
      · exact absurd named (lastValue_none last parameter member)
      · exact set

end Fold

theorem foldl_storeHash (parameters : List Parameter) (hashesBlock : Option (List UInt8)) :
    parameters.foldl Parameter.storeHash hashesBlock = hashesBlock.map (· ++
      (parameters.filter fun parameter => parameter.name = ascii "info_hash").flatMap
        fun parameter => (Bytes.ofList uriParamValueLength parameter.value).list) := by
  have short : (ascii "info_hash").length < uriParamValueLength := by decide
  induction parameters generalizing hashesBlock with
  | nil => cases hashesBlock <;> simp
  | cons parameter rest ih =>
      rw [List.foldl_cons, ih, Parameter.storeHash, addHash]
      by_cases named : parameter.name = ascii "info_hash"
      · rw [if_pos ((take_eq_short short).mpr named), List.filter_cons_of_pos (by simp [named]),
          List.flatMap_cons]
        cases hashesBlock <;> simp
      · rw [if_neg fun same => named ((take_eq_short short).mp same),
          List.filter_cons_of_neg (by simp [named])]

theorem setForwardedIp_fields (inetPton : InetPton) (query : Query) (token : List UInt8) :
    ∃ ip ipVersion, setForwardedIp inetPton query token =
      { query with ip := ip, ipVersion := ipVersion } := by
  unfold setForwardedIp
  dsimp only
  split_ifs <;> exact ⟨_, _, rfl⟩

theorem parseXForwardedFor_fields (inetPton : InetPton) (query : Query) (message : List UInt8)
    (hasForwardedForBlock : Bool) :
    ∃ ip ipVersion, parseXForwardedFor inetPton query message hasForwardedForBlock =
      { query with ip := ip, ipVersion := ipVersion } := by
  unfold parseXForwardedFor
  split
  · exact ⟨_, _, rfl⟩
  · split
    · exact ⟨_, _, rfl⟩
    · split
      · split_ifs
        · exact ⟨_, _, rfl⟩
        · exact ⟨_, _, rfl⟩
        · dsimp only
          split
          · split_ifs
            · exact ⟨_, _, rfl⟩
            · exact setForwardedIp_fields inetPton query _
          · exact ⟨_, _, rfl⟩
      · exact ⟨_, _, rfl⟩

end Etracker
