import Etracker.Tracker.Rolls
import Etracker.Uri.Event
import Etracker.Uri.Forwarded

namespace Etracker

open Foundation Foundation.CString Foundation.Outcome Foundation.Runs

/-- A peer that a list of the table holds. -/
def HoldsPeer (torrentList : TorrentList) (peer : PeerData) : Prop :=
  ∃ torrent ∈ torrentList.pairs, ∃ entry ∈ torrent.2.peerList.pairs, entry.2 = peer

theorem holdsPeer_iff {torrentList : TorrentList} (table : TableInv torrentList)
    (peer : PeerData) :
    HoldsPeer torrentList peer ↔
      ∃ infoHash peerId, Step.peerAt torrentList infoHash peerId = some peer := by
  constructor
  · intro holds
    obtain ⟨⟨infoHash, torrent⟩, isTorrent, ⟨peerId, stored⟩, isPeer, same⟩ := holds
    have found := (value_eq_some_iff table.inv.linked).mpr isTorrent
    have peers := table.table.torrents _ isTorrent
    refine ⟨infoHash, peerId, ?_⟩
    rw [Step.peerAt, found, ← same]
    exact (value_eq_some_iff peers.inv.linked).mpr isPeer
  · intro holds
    obtain ⟨infoHash, peerId, found⟩ := holds
    obtain ⟨torrent, isTorrent, isPeer⟩ := Option.bind_eq_some_iff.mp found
    have member := (value_eq_some_iff table.inv.linked).mp isTorrent
    have peers := table.table.torrents _ member
    exact ⟨(infoHash, torrent), member, (peerId, peer),
      (value_eq_some_iff peers.inv.linked).mp isPeer, rfl⟩

/-- A step in which a worker stores the peer of an announce. -/
structure Step.Stores (host : Host) (step : Step) (request : Request) (query : Query) : Prop where
  isRequest : step.action = .serve request
  announces : step.query host = some query
  goesOn : query.event ≠ uriEventIdStopped

section Reached

variable {host : Host} {meets : Step → TorrentList → Prop} {torrentList : TorrentList}

/-- What every store keeps, and has from a new peer, holds of the peers of every run. -/
theorem stored_of_reached {holds : PeerData → Prop}
    (keeps : ∀ step torrentList request query peer, meets step torrentList →
      step.Stores host request query → peer = PeerData.empty ∨ holds peer →
      holds (peer.update query request.protocol step.now))
    (reached : Reached (Step.Takes host) meets emptyTorrentList torrentList) {peer : PeerData}
    (stored : HoldsPeer torrentList peer) : holds peer := by
  let AllHold : TorrentList → Prop := fun torrentList =>
    ∀ infoHash peerId peer, Step.peerAt torrentList infoHash peerId = some peer → holds peer
  have invariant : TableInv torrentList ∧ AllHold torrentList := by
    refine reached.invariant (fun torrentList => TableInv torrentList ∧ AllHold torrentList) ?_ ?_
    · refine ⟨emptyTorrentList_inv, ?_⟩
      intro infoHash peerId peer found
      have nothing : emptyTorrentList.value infoHash = none := by simp [emptyTorrentList]
      rw [Step.peerAt, nothing] at found
      cases found
    · intro step before after sound condition taken
      obtain ⟨table, all⟩ := sound
      refine ⟨(Step.run_effect table taken).1, ?_⟩
      intro infoHash peerId peer found
      rw [Step.peerAt_run table taken] at found
      cases isAction : step.action with
      | collect =>
          rw [isAction] at found
          exact all infoHash peerId peer (Option.filter_eq_some_iff.mp found).1
      | serve request =>
          cases announces : step.query host with
          | none =>
              rw [isAction, announces] at found
              exact all infoHash peerId peer found
          | some query =>
              rw [isAction, announces] at found
              dsimp only at found
              split_ifs at found with here stops
              · cases found
                apply keeps step before request query _ condition ⟨isAction, announces, stops⟩
                cases old : Step.peerAt before infoHash peerId with
                | none => exact Or.inl rfl
                | some peer => exact Or.inr (all infoHash peerId peer old)
              · exact all infoHash peerId peer found
  obtain ⟨infoHash, peerId, found⟩ := (holdsPeer_iff invariant.1 peer).mp stored
  exact invariant.2 infoHash peerId peer found

theorem Step.Stores.stored {step : Step} {request : Request} {query : Query}
    (stores : step.Stores host request query) {torrentList' : TorrentList}
    (table : TableInv torrentList) (taken : Step.Takes host step torrentList torrentList') :
    ∃ peer, (peer = PeerData.empty ∨ HoldsPeer torrentList peer) ∧
      HoldsPeer torrentList' (peer.update query request.protocol step.now) := by
  refine ⟨(Step.peerAt torrentList query.infoHash.list query.peerId.list).getD PeerData.empty,
    ?_, ?_⟩
  · cases old : Step.peerAt torrentList query.infoHash.list query.peerId.list with
    | none => exact Or.inl rfl
    | some peer => exact Or.inr ((holdsPeer_iff table peer).mpr ⟨_, _, old⟩)
  apply (holdsPeer_iff (Step.run_effect table taken).1 _).mpr
  refine ⟨query.infoHash.list, query.peerId.list, ?_⟩
  rw [Step.peerAt_run table taken, stores.isRequest, stores.announces]
  dsimp only
  rw [if_pos ⟨rfl, rfl⟩, if_neg stores.goesOn]

end Reached

section Families

/-- The addresses of a peer are of the kinds that its bits tell. -/
structure FamilyMatches (peer : PeerData) : Prop where
  anyBit : peer.ipVersion &&& (socketVersionIpv4Bit ||| socketVersionIpv6Bit) ≠ 0
  ip4 : peer.ipVersion &&& socketVersionIpv4Bit ≠ 0 → getIpVersion peer.ip4 = socketVersionIpv4Bit
  ip6 : peer.ipVersion &&& socketVersionIpv6Bit ≠ 0 → getIpVersion peer.ip6 ≠ socketVersionIpv4Bit

theorem getIpVersion_eq (in6Addr : In6Addr) : getIpVersion in6Addr = socketVersionIpv4Bit ∨
    getIpVersion in6Addr = socketVersionIpv6Bit := by
  unfold getIpVersion
  split_ifs
  · exact Or.inl rfl
  · exact Or.inr rfl

theorem or_mask_ne_zero_iff (bits bit mask : UInt8) :
    (bits ||| bit) &&& mask ≠ 0 ↔ bits &&& mask ≠ 0 ∨ bit &&& mask ≠ 0 := by
  have apart : (bits ||| bit) &&& mask = (bits &&& mask) ||| (bit &&& mask) := by
    rw [← UInt8.toBitVec_inj]
    simp only [UInt8.toBitVec_and, UInt8.toBitVec_or]
    ext index
    simp only [BitVec.getElem_and, BitVec.getElem_or]
    exact Bool.and_or_distrib_right _ _ _
  rw [apart, ne_eq, UInt8.or_eq_zero_iff, not_and_or]

/-- The query of a client has exactly one of the bits. -/
def OneFamily (query : Query) : Prop :=
  query.ipVersion = socketVersionIpv4Bit ∨ query.ipVersion = socketVersionIpv6Bit

theorem FamilyMatches.addressOf {peer : PeerData} (familyMatches : FamilyMatches peer)
    {query : Query} (family : OneFamily query) (common : query.ipVersion &&& peer.ipVersion ≠ 0) :
    getIpVersion (addressOf query peer) = query.ipVersion := by
  rw [UInt8.and_comm] at common
  rcases family with isVersion | isVersion
  · rw [isVersion] at common ⊢
    rw [Etracker.addressOf, isVersion, if_pos (by decide)]
    exact familyMatches.ip4 common
  · rw [isVersion] at common ⊢
    rw [Etracker.addressOf, isVersion, if_neg (by decide)]
    exact (getIpVersion_eq peer.ip6).resolve_left (familyMatches.ip6 common)

def PeerData.addressAt (peer : PeerData) (bit : UInt8) : In6Addr :=
  if bit = socketVersionIpv4Bit then peer.ip4 else peer.ip6

theorem familyMatches_iff {peer : PeerData} : FamilyMatches peer ↔
    peer.ipVersion &&& (socketVersionIpv4Bit ||| socketVersionIpv6Bit) ≠ 0 ∧
      ∀ bit, bit = socketVersionIpv4Bit ∨ bit = socketVersionIpv6Bit →
        peer.ipVersion &&& bit ≠ 0 → getIpVersion (peer.addressAt bit) = bit := by
  constructor
  · intro familyMatches
    refine ⟨familyMatches.anyBit, ?_⟩
    intro bit kind given
    rcases kind with rfl | rfl
    · exact familyMatches.ip4 given
    · exact (getIpVersion_eq _).resolve_left (familyMatches.ip6 given)
  · intro given
    obtain ⟨anyBit, kinds⟩ := given
    refine ⟨anyBit, fun bit => kinds _ (Or.inl rfl) bit, ?_⟩
    intro bit mapped
    have isIp6 : getIpVersion peer.ip6 = socketVersionIpv6Bit := kinds _ (Or.inr rfl) bit
    exact absurd (mapped.symm.trans isIp6) (by decide)

theorem addressAt_update {peer : PeerData} {query : Query} (family : OneFamily query)
    (protocol : UInt8) (now : Int) {bit : UInt8}
    (kind : bit = socketVersionIpv4Bit ∨ bit = socketVersionIpv6Bit) :
    (peer.update query protocol now).addressAt bit =
      if query.ipVersion = bit then query.ip else peer.addressAt bit := by
  have apart : (2 : UInt8) &&& 1 = 0 := by decide
  rcases family with isVersion | isVersion <;> rcases kind with rfl | rfl <;>
    simp [PeerData.addressAt, PeerData.update, isVersion, socketVersionIpv4Bit,
      socketVersionIpv6Bit, apart]

theorem familyMatches_update_iff {peer : PeerData} (before : peer = PeerData.empty ∨ FamilyMatches peer)
    {query : Query} (family : OneFamily query) (protocol : UInt8) (now : Int) :
    FamilyMatches (peer.update query protocol now) ↔ query.ipVersion = getIpVersion query.ip := by
  have bits : (peer.update query protocol now).ipVersion = peer.ipVersion ||| query.ipVersion := rfl
  have own : ∀ bit, bit = socketVersionIpv4Bit ∨ bit = socketVersionIpv6Bit →
      (query.ipVersion &&& bit ≠ 0 ↔ query.ipVersion = bit) := by
    intro bit kind
    rcases family with isVersion | isVersion <;> rcases kind with rfl | rfl <;> rw [isVersion] <;>
      decide
  have old : ∀ bit, bit = socketVersionIpv4Bit ∨ bit = socketVersionIpv6Bit →
      peer.ipVersion &&& bit ≠ 0 → getIpVersion (peer.addressAt bit) = bit := by
    intro bit kind given
    rcases before with rfl | familyMatches
    · exact absurd (UInt8.zero_and) given
    · exact (familyMatches_iff.mp familyMatches).2 bit kind given
  rw [familyMatches_iff, bits]
  constructor
  · intro after
    have given : (peer.ipVersion ||| query.ipVersion) &&& query.ipVersion ≠ 0 := by
      rw [or_mask_ne_zero_iff, own _ family]
      exact Or.inr rfl
    have matched := after.2 query.ipVersion family given
    rw [addressAt_update family protocol now family, if_pos rfl] at matched
    exact matched.symm
  · intro right
    constructor
    · rw [or_mask_ne_zero_iff]
      refine Or.inr ?_
      rcases family with isVersion | isVersion <;> rw [isVersion] <;> decide
    · intro bit kind given
      rw [or_mask_ne_zero_iff, own bit kind] at given
      rw [addressAt_update family protocol now kind]
      split_ifs with same
      · exact right.symm.trans same
      · exact old bit kind (given.resolve_right same)

def ForwardsMapped (inetPton : InetPton) (xForwardedFor : Option (List UInt8))
    (readBuffer : List UInt8) : Prop :=
  ∃ token, forwardedToken xForwardedFor (cString readBuffer) true = some token ∧ 58 ∈ token ∧
    0 ≤ (inetPton .inet6 token (Bytes.zero _)).1 ∧
    getIpVersion (Bytes.ofList 16 (inetPton .inet6 token (Bytes.zero _)).2.list) =
      socketVersionIpv4Bit

theorem getIpVersion_mapped {ip : List UInt8} (length : ip.length = 4) :
    getIpVersion (Bytes.ofList 16 (v4MappedPrefix ++ ip)) = socketVersionIpv4Bit := by
  have whole : (v4MappedPrefix ++ ip).length = 16 := by
    rw [List.length_append, length]
    rfl
  apply if_pos
  rw [Bytes.ofList_list, List.take_append_of_le_length (by rw [List.length_take, whole]; decide),
    List.take_take, List.take_append_of_le_length (by decide)]
  rfl

theorem setForwardedIp_family (inetPton : InetPton) {query : Query}
    (right : query.ipVersion = getIpVersion query.ip) (token : List UInt8) :
    OneFamily (setForwardedIp inetPton query token) ∧
    ((setForwardedIp inetPton query token).ipVersion =
        getIpVersion (setForwardedIp inetPton query token).ip ↔
      ¬(58 ∈ token ∧ 0 ≤ (inetPton .inet6 token (Bytes.zero _)).1 ∧
        getIpVersion (Bytes.ofList 16 (inetPton .inet6 token (Bytes.zero _)).2.list) =
          socketVersionIpv4Bit)) := by
  have family : OneFamily query := by
    rw [OneFamily, right]
    exact getIpVersion_eq query.ip
  have colon : ascii ":" = [58] := by decide
  unfold setForwardedIp
  rw [colon]
  by_cases member : 58 ∈ token
  · rw [if_neg (mt strstr_letter_eq_none_iff.mp (not_not_intro member))]
    by_cases failed : (inetPton .inet6 token (Bytes.zero _)).1 < 0
    · simp only [failed, if_true]
      refine ⟨family, iff_of_true right ?_⟩
      intro ⟨_, succeeded, _⟩
      omega
    · simp only [failed, if_false]
      refine ⟨Or.inr rfl, ?_⟩
      have succeeded : 0 ≤ (inetPton .inet6 token (Bytes.zero _)).1 := by omega
      constructor
      · intro isVersion ⟨_, _, mapped⟩
        exact absurd (isVersion.trans mapped) (by decide)
      · intro notMapped
        exact ((getIpVersion_eq _).resolve_left fun mapped =>
          notMapped ⟨member, succeeded, mapped⟩).symm
  · rw [if_pos (strstr_letter_eq_none_iff.mpr member)]
    by_cases failed : (inetPton .inet token (Bytes.zero _)).1 < 0
    · simp only [failed, if_true]
      exact ⟨family, iff_of_true right fun both => member both.1⟩
    · simp only [failed, if_false]
      by_cases nothing : (inetPton .inet token (Bytes.zero _)).2.list.take 4 = [0, 0, 0, 0]
      · rw [if_pos nothing]
        exact ⟨family, iff_of_true right fun both => member both.1⟩
      · rw [if_neg nothing]
        have length : ((inetPton .inet token (Bytes.zero _)).2.list.take 4).length = 4 := by
          rw [List.length_take, (inetPton .inet token (Bytes.zero _)).2.length_eq]
          rfl
        exact ⟨Or.inl rfl,
          iff_of_true (getIpVersion_mapped length).symm fun both => member both.1⟩

/-- The address of a query is of the kind of its version, unless a header forwards a mapped one. -/
theorem httpQuery_family (host : Host) (settings : Settings) (clientAddr : In6Addr)
    (readBuffer : List UInt8) :
    OneFamily (httpQuery host settings clientAddr readBuffer) ∧
    ((httpQuery host settings clientAddr readBuffer).ipVersion =
        getIpVersion (httpQuery host settings clientAddr readBuffer).ip ↔
      ¬ForwardsMapped host.inetPton settings.xForwardedFor readBuffer) := by
  obtain ⟨ip, ipVersion, configured⟩ := UriState.run_connection (httpDefaults settings clientAddr)
    none ((cString readBuffer).drop 4)
  have right : _ = getIpVersion _ := ipVersion.trans (congrArg getIpVersion ip.symm)
  rw [OneFamily, httpQuery, Query.limitNumwant_ipVersion, Query.limitNumwant_ip, parseUri]
  dsimp only
  rw [parseXForwardedFor_eq, configured, ForwardsMapped]
  have configuredIs : (httpDefaults settings clientAddr).xForwardedFor = settings.xForwardedFor := rfl
  rw [configuredIs]
  cases forwarded : forwardedToken settings.xForwardedFor (cString readBuffer) true with
  | none =>
      dsimp only
      refine ⟨?_, iff_of_true right ?_⟩
      · rw [right]
        exact getIpVersion_eq _
      · intro forwards
        obtain ⟨token, found, _⟩ := forwards
        cases found
  | some token =>
      obtain ⟨family, keeps⟩ := setForwardedIp_family host.inetPton right token
      refine ⟨family, keeps.trans ?_⟩
      simp

theorem udpQuery_family (settings : Settings) (clientAddr : In6Addr) (datagram : List UInt8) :
    OneFamily (udpQuery settings clientAddr datagram) ∧
    (udpQuery settings clientAddr datagram).ipVersion =
      getIpVersion (udpQuery settings clientAddr datagram).ip := by
  rw [OneFamily, udpQuery, Query.limitNumwant_ipVersion, Query.limitNumwant_ip]
  exact ⟨getIpVersion_eq clientAddr, rfl⟩

/-- A step stores the peer of an HTTP announce whose header forwards a mapped address. -/
def Step.StoresMapped (host : Host) (step : Step) : Prop :=
  ∃ clientAddr readBuffer query, step.Stores host (.http clientAddr readBuffer) query ∧
    ForwardsMapped host.inetPton step.settings.xForwardedFor readBuffer

theorem httpAnnounce_some {host : Host} {settings : Settings} {clientAddr : In6Addr}
    {readBuffer : List UInt8} {query : Query}
    (accepted : httpAnnounce host settings clientAddr readBuffer = some query) :
    query = httpQuery host settings clientAddr readBuffer ∧ query.port ≠ 0 := by
  unfold httpAnnounce at accepted
  dsimp only at accepted
  split_ifs at accepted with guards
  cases accepted
  exact ⟨rfl, guards.2.2.2.2.2⟩

theorem Step.Stores.family {host : Host} {step : Step} {request : Request} {query : Query}
    (stores : step.Stores host request query) :
    OneFamily query ∧ (query.ipVersion = getIpVersion query.ip ↔ ¬step.StoresMapped host) := by
  obtain ⟨now, settings, action⟩ := step
  have isRequest : action = .serve request := stores.isRequest
  subst isRequest
  cases request with
  | http clientAddr readBuffer =>
      have accepted : httpAnnounce host settings clientAddr readBuffer = some query :=
        stores.announces
      obtain ⟨family, keeps⟩ := httpQuery_family host settings clientAddr readBuffer
      rw [← (httpAnnounce_some accepted).1] at family keeps
      refine ⟨family, keeps.trans (not_congr ?_)⟩
      constructor
      · intro forwards
        exact ⟨clientAddr, readBuffer, query, stores, forwards⟩
      · intro ⟨clientAddr', readBuffer', query', stores', forwards⟩
        cases stores'.isRequest
        exact forwards
  | udp clientAddr datagram =>
      have announces : (if isUdpAnnounce datagram = true then
          some (udpQuery settings clientAddr datagram) else none) = some query := stores.announces
      split_ifs at announces
      cases announces
      obtain ⟨family, right⟩ := udpQuery_family settings clientAddr datagram
      refine ⟨family, iff_of_true right ?_⟩
      intro ⟨_, _, _, stores', _⟩
      cases stores'.isRequest

/-- Where no mapped address is forwarded, the addresses of all peers are of the kinds that their
bits tell; a step that stores such an address leaves a peer for which they are not. -/
theorem families_match {host : Host} {torrentList : TorrentList}
    (reached : Reached (Step.Takes host) (fun step _ => ¬step.StoresMapped host) emptyTorrentList
      torrentList) :
    (∀ peer, HoldsPeer torrentList peer → FamilyMatches peer ∧
      ∀ query, OneFamily query → query.ipVersion &&& peer.ipVersion ≠ 0 →
        getIpVersion (addressOf query peer) = query.ipVersion) ∧
    ∀ step torrentList', step.StoresMapped host → Step.Takes host step torrentList torrentList' →
      ∃ peer, HoldsPeer torrentList' peer ∧ ¬FamilyMatches peer := by
  have keeps : ∀ peer, HoldsPeer torrentList peer → FamilyMatches peer := by
    intro peer stored
    refine stored_of_reached ?_ reached stored
    intro step _ request query peer unmapped stores before
    exact (familyMatches_update_iff before stores.family.1 _ _).mpr (stores.family.2.mpr unmapped)
  constructor
  · intro peer stored
    exact ⟨keeps peer stored, fun query family common => (keeps peer stored).addressOf family common⟩
  · intro step torrentList' mapped taken
    obtain ⟨clientAddr, readBuffer, query, stores, forwards⟩ := mapped
    obtain ⟨peer, before, stored⟩ := stores.stored (reached_inv reached) taken
    refine ⟨_, stored, ?_⟩
    intro familyMatches
    have right := (familyMatches_update_iff (before.imp_right (keeps peer)) stores.family.1 _ _).mp
      familyMatches
    exact stores.family.2.mp right ⟨clientAddr, readBuffer, query, stores, forwards⟩

theorem Rolls.Of.holdsPeer {rolls : Rolls} {torrentList : TorrentList}
    (rolled : rolls.Of torrentList) (table : TableInv torrentList) {infoHash peerId : Hash}
    {peer : PeerData}
    (there : (rolls.find infoHash).bind (fun roll => roll.peer peerId) = some peer) :
    HoldsPeer torrentList peer := by
  obtain ⟨roll, isRoll, isPeer⟩ := Option.bind_eq_some_iff.mp there
  obtain ⟨torrent, found, one⟩ := rolled.value isRoll
  have sound := table.table.torrents _ ((value_eq_some_iff table.inv.linked).mp found)
  apply (holdsPeer_iff table peer).mpr
  refine ⟨infoHash, peerId, ?_⟩
  rw [Step.peerAt, found]
  exact (one.peer sound peerId).symm.trans isPeer

def proxyHost : Host where
  inetPton family text buffer :=
    if family = .inet ∧ text = ascii "1.2.3.4" then (1, Bytes.ofList 17 [1, 2, 3, 4])
    else if family = .inet6 ∧ text = ascii "fe80::1" then
      (1, Bytes.ofList 17 [254, 128, 0, 0, 0, 0, 0, 0, 0, 0, 0, 0, 0, 0, 0, 1])
    else (0, buffer)
  inetNtop _ _ := ascii "1.2.3.4"

def forwardedStep (ip : String) (now : Int) : Step :=
  ⟨now, ⟨200, 150, some (ascii "X-Forwarded-For")⟩, .serve (.http (Bytes.zero _)
    (ascii "GET /announce?info_hash=7&peer_id=1&port=6881 HTTP/1.1\r\nX-Forwarded-For: " ++
      ascii ip ++ ascii "\r\n\r\n"))⟩

/-- A peer announces itself over both versions, and others without a proxy. -/
def proxySteps : List Step :=
  [sampleIpv4 55 2 2 1000, forwardedStep "1.2.3.4" 1100, sampleUdp 55 3 2 1200,
    forwardedStep "fe80::1" 1300]

theorem families_match_proxy : ∃ torrentList peer,
    Traced (Step.Takes proxyHost) emptyTorrentList proxySteps torrentList ∧
    HoldsPeer torrentList peer ∧
    (peer.ipVersion = socketVersionIpv4Bit ||| socketVersionIpv6Bit ∧
      peer.ip4.list = v4MappedPrefix ++ [1, 2, 3, 4] ∧ peer.ip6.list.take 2 = [254, 128]) ∧
    ∀ peer, HoldsPeer torrentList peer → FamilyMatches peer := by
  have few : proxySteps.length < 2 ^ 32 := by decide
  have fit : Rolls.FitAll proxyHost (fun _ step => ∀ query ∈ step.query proxyHost,
      query.ipVersion = getIpVersion query.ip) [] proxySteps := by
    decide +kernel
  have allows : ∀ rolls torrentList (step : Step), Rolls.Of rolls torrentList →
      TableInv torrentList → (∀ query ∈ step.query proxyHost,
        query.ipVersion = getIpVersion query.ip) → ¬step.StoresMapped proxyHost := by
    intro _ _ step _ _ right ⟨clientAddr, readBuffer, query, stores, forwards⟩
    exact stores.family.2.mp (right query stores.announces)
      ⟨clientAddr, readBuffer, query, stores, forwards⟩
  obtain ⟨torrentList, traced, reached, rolled⟩ := Rolls.exists_run allows few fit
  have fields : (((Rolls.after proxyHost proxySteps).find
      (Bytes.ofList uriParamValueLength [55]).list).bind (fun roll => roll.peer
        (Bytes.ofList uriParamValueLength [49]).list)).map (fun peer =>
          (peer.ipVersion, peer.ip4.list, peer.ip6.list.take 2)) =
      some (socketVersionIpv4Bit ||| socketVersionIpv6Bit, v4MappedPrefix ++ [1, 2, 3, 4],
        [254, 128]) := by
    decide +kernel
  obtain ⟨peer, there, values⟩ := Option.map_eq_some_iff.mp fields
  simp only [Prod.mk.injEq] at values
  exact ⟨torrentList, peer, traced, rolled.holdsPeer (reached_inv reached) there, values,
    fun peer stored => ((families_match reached).1 peer stored).1⟩

def mappedHost : Host where
  inetPton family text buffer :=
    if family = .inet6 ∧ text = ascii "::ffff:1.2.3.4" then
      (1, Bytes.ofList 17 (v4MappedPrefix ++ [1, 2, 3, 4]))
    else (0, buffer)
  inetNtop _ _ := ascii "::ffff:1.2.3.4"

def mappedText : List UInt8 :=
  ascii "GET /announce?info_hash=" ++ (List.replicate uriParamValueLength (ascii "%00")).flatten ++
    ascii "&port=6881 HTTP/1.1\r\nX-Forwarded-For: ::ffff:1.2.3.4\r\n\r\n"

def mappedStep : Step :=
  ⟨1000, ⟨200, 150, some (ascii "X-Forwarded-For")⟩, .serve (.http (Bytes.zero _) mappedText)⟩

set_option maxRecDepth 10000 in
theorem mappedStep_stores :
    ∃ query, mappedStep.Stores mappedHost (.http (Bytes.zero _) mappedText) query ∧
      query.ipVersion ≠ getIpVersion query.ip := by
  have parses : (httpAnnounce mappedHost mappedStep.settings (Bytes.zero _) mappedText).map
      (fun query => (query.event, query.ipVersion, getIpVersion query.ip)) =
        some (uriEventIdStarted, socketVersionIpv6Bit, socketVersionIpv4Bit) := by
    decide +kernel
  obtain ⟨query, announces, fields⟩ := Option.map_eq_some_iff.mp parses
  simp only [Prod.mk.injEq] at fields
  obtain ⟨isEvent, isVersion, isMapped⟩ := fields
  refine ⟨query, ⟨rfl, announces, ?_⟩, ?_⟩
  · rw [isEvent]
    decide
  · rw [isVersion, isMapped]
    decide

/-- A forwarded `::ffff:1.2.3.4` is stored as an address of IPv6. -/
theorem families_mapped :
    ¬∀ (host : Host) (torrentList : TorrentList), Reachable host torrentList →
      ∀ peer, HoldsPeer torrentList peer → FamilyMatches peer := by
  intro matches'
  obtain ⟨query, stores, wrong⟩ := mappedStep_stores
  have serves : mappedStep.action ≠ .collect := by simp [mappedStep]
  obtain ⟨torrentList, run⟩ := @Step.run_serves mappedHost _ _ emptyTorrentList_inv serves
  obtain ⟨peer, before, stored⟩ := stores.stored emptyTorrentList_inv run
  have after := matches' mappedHost torrentList (.next .start trivial run) _ stored
  have sound : peer = PeerData.empty ∨ FamilyMatches peer :=
    before.imp_right (matches' mappedHost emptyTorrentList .start peer)
  exact wrong ((familyMatches_update_iff sound stores.family.1 _ _).mp after)

end Families

section Ports

/-- A step stores the peer of a UDP announce whose packet has no port. -/
def Step.StoresPortless (host : Host) (step : Step) : Prop :=
  ∃ clientAddr datagram query, step.Stores host (.udp clientAddr datagram) query ∧
    readShort datagram 96 = 0

theorem Step.Stores.port {host : Host} {step : Step} {request : Request} {query : Query}
    (stores : step.Stores host request query) : query.port = 0 ↔ step.StoresPortless host := by
  obtain ⟨now, settings, action⟩ := step
  have isRequest : action = .serve request := stores.isRequest
  subst isRequest
  cases request with
  | http clientAddr readBuffer =>
      have accepted : httpAnnounce host settings clientAddr readBuffer = some query :=
        stores.announces
      refine iff_of_false (httpAnnounce_some accepted).2 ?_
      intro ⟨_, _, _, stores', _⟩
      cases stores'.isRequest
  | udp clientAddr datagram =>
      have announces : (if isUdpAnnounce datagram = true then
          some (udpQuery settings clientAddr datagram) else none) = some query := stores.announces
      split_ifs at announces
      cases announces
      have isPort : (udpQuery settings clientAddr datagram).port = readShort datagram 96 :=
        Query.limitNumwant_port _ _
      rw [isPort]
      constructor
      · intro noPort
        exact ⟨clientAddr, datagram, _, stores, noPort⟩
      · intro ⟨_, _, _, stores', noPort⟩
        cases stores'.isRequest
        exact noPort

/-- Where no packet without a port is stored, every peer has a port; a step that stores such a
packet leaves a peer that has none. -/
theorem ports_filled {host : Host} {torrentList : TorrentList}
    (reached : Reached (Step.Takes host) (fun step _ => ¬step.StoresPortless host)
      emptyTorrentList torrentList) :
    (∀ peer, HoldsPeer torrentList peer → peer.port ≠ 0) ∧
    ∀ step torrentList', step.StoresPortless host →
      Step.Takes host step torrentList torrentList' →
      ∃ peer, HoldsPeer torrentList' peer ∧ peer.port = 0 := by
  constructor
  · intro peer stored
    refine @stored_of_reached _ _ _ (fun peer => peer.port ≠ 0) ?_ reached peer stored
    intro step _ request query peer hasPort stores _
    exact fun noPort => hasPort (stores.port.mp noPort)
  · intro step torrentList' portless taken
    obtain ⟨clientAddr, datagram, query, stores, noPort⟩ := portless
    obtain ⟨peer, _, stored⟩ := stores.stored (reached_inv reached) taken
    exact ⟨_, stored, stores.port.mpr ⟨clientAddr, datagram, query, stores, noPort⟩⟩

/-- Peers announce themselves over both protocols, and one of them stops. -/
def portSteps : List Step :=
  [sampleUdp 55 1 2 1000, sampleHttp "7" "2" "" 1100, sampleUdp 55 1 1 1200, sampleUdp 55 3 2 1300,
    sampleUdp 55 3 3 1400]

theorem ports_filled_udp : ∃ torrentList rolls,
    Traced (Step.Takes plainHost) emptyTorrentList portSteps torrentList ∧
    (Rolls.Of rolls torrentList ∧
      rolls.sample = [(some 55, ⟨1, 1, 1⟩, [(some 1, 1200), (some 50, 1100)])]) ∧
    ∀ peer, HoldsPeer torrentList peer → peer.port ≠ 0 := by
  have few : portSteps.length < 2 ^ 32 := by decide
  have fit : Rolls.FitAll plainHost (fun _ step => ∀ query ∈ step.query plainHost,
      query.port ≠ 0) [] portSteps := by
    decide +kernel
  have allows : ∀ rolls torrentList (step : Step), Rolls.Of rolls torrentList →
      TableInv torrentList → (∀ query ∈ step.query plainHost, query.port ≠ 0) →
        ¬step.StoresPortless plainHost := by
    intro _ _ step _ _ hasPort ⟨clientAddr, datagram, query, stores, noPort⟩
    exact hasPort query stores.announces
      (stores.port.mpr ⟨clientAddr, datagram, query, stores, noPort⟩)
  obtain ⟨torrentList, traced, reached, rolled⟩ := Rolls.exists_run allows few fit
  exact ⟨torrentList, _, traced, ⟨rolled, by decide +kernel⟩, (ports_filled reached).1⟩

def portlessPacket : AnnouncePacket := { plainPacket 2 with port := 0 }

/-- A packet without a port is stored. -/
theorem ports_missing :
    ¬∀ (host : Host) (torrentList : TorrentList), Reachable host torrentList →
      ∀ peer, HoldsPeer torrentList peer → peer.port ≠ 0 := by
  intro filled
  let step : Step := ⟨1000, plainSettings, .serve (.udp (Bytes.zero _) portlessPacket.bytes)⟩
  have stores : step.Stores plainHost (.udp (Bytes.zero _) portlessPacket.bytes)
      (udpQuery plainSettings (Bytes.zero _) portlessPacket.bytes) := by
    have announces : (if isUdpAnnounce portlessPacket.bytes = true then
        some (udpQuery plainSettings (Bytes.zero _) portlessPacket.bytes) else none) =
        some (udpQuery plainSettings (Bytes.zero _) portlessPacket.bytes) :=
      if_pos portlessPacket.isUdpAnnounce_bytes
    refine ⟨rfl, announces, ?_⟩
    rw [portlessPacket.udpQuery_bytes, Query.limitNumwant_event]
    decide
  have noPort : (udpQuery plainSettings (Bytes.zero _) portlessPacket.bytes).port = 0 := by
    rw [portlessPacket.udpQuery_bytes, Query.limitNumwant_port]
    decide
  have serves : step.action ≠ .collect := by simp [step]
  obtain ⟨torrentList, run⟩ := @Step.run_serves plainHost _ _ emptyTorrentList_inv serves
  obtain ⟨peer, _, stored⟩ := stores.stored emptyTorrentList_inv run
  exact filled plainHost torrentList (.next .start trivial run) _ stored noPort

end Ports

end Etracker
