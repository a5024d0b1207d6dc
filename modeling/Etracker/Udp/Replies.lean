import Etracker.Udp.Handler
import Etracker.Udp.Layout

/-! What the worker answers to a datagram, for every torrent table and every packet that the
listener can receive. -/

namespace Etracker.Udp

open Foundation Foundation.Outcome Foundation.Records

/-- `0x41727101980` in network byte order. -/
def protocolMagic : List UInt8 := [0, 0, 4, 0x17, 0x27, 0x10, 0x19, 0x80]

def IsConnect (block : List UInt8) : Prop :=
  block.length = 16 ∧ block.take 8 = protocolMagic ∧ readBigEndian block 8 = 0

def IsAnnounce (block : List UInt8) : Prop := 98 ≤ block.length ∧ readBigEndian block 8 = 1

def IsScrape (block : List UInt8) : Prop := 16 < block.length ∧ readBigEndian block 8 = 2

def infoHashOf (block : List UInt8) : ParamValue := Bytes.ofList uriParamValueLength (block.drop 16)

/-- The packet counts the peers of the torrent and names some of those that can be reached
over the protocol version of the client. -/
def AnswersAnnounce (settings : Settings) (udpRequest : UdpRequest) (torrentList : TorrentList)
    (packet : List UInt8) : Prop :=
  let ipVersion := getIpVersion udpRequest.clientAddr
  let torrent := torrentOf torrentList (infoHashOf udpRequest.block)
  ∃ peers : List (Hash × PeerData), peers.Sublist torrent.peerList.pairs ∧
    (∀ peer ∈ peers, ipVersion &&& peer.2.ipVersion ≠ 0) ∧
    packet.length = 20 + AnnouncePeerResponse.size ipVersion * peers.length ∧
    AnnounceResponse.decode (AnnouncePeerResponse.size ipVersion) packet =
      { action := 1
        transactionId := readBigEndian udpRequest.block 12
        interval := settings.interval
        leechers := torrent.incomplete
        seeders := torrent.complete
        peers := peers.map fun peer => AnnouncePeerResponse.ofPeer ipVersion peer.2 }

def connectResponseOf (udpRequest : UdpRequest) : ConnectResponse where
  action := 0
  transactionId := readBigEndian udpRequest.block 12
  connectionId := longBytes udpRequest.receiveCount

def scrapeResponseOf (torrentList : TorrentList) (block : List UInt8) : ScrapeResponse where
  action := 2
  transactionId := readBigEndian block 12
  torrents := (records 20 ((block.length - 16) / 20) (block.drop 16)).map fun hash =>
    .ofCounters (countersAt torrentList hash)

/-- What is owed to a datagram, given the table before and after it. -/
structure Answers (settings : Settings) (udpRequest : UdpRequest)
    (torrentList torrentList' : TorrentList) (reply : Option (List UInt8)) : Prop where
  replied : reply.isSome = true ↔
    IsConnect udpRequest.block ∨ IsAnnounce udpRequest.block ∨ IsScrape udpRequest.block
  unchanged : ¬IsAnnounce udpRequest.block → torrentList' = torrentList
  echoed : ∀ packet ∈ reply, (packet.drop 4).take 4 = (udpRequest.block.drop 12).take 4
  bounded : ∀ packet ∈ reply, packet.length ≤ 65507
  connect : IsConnect udpRequest.block → ∀ packet ∈ reply,
    packet.length = 16 ∧ ConnectResponse.decode packet = connectResponseOf udpRequest
  announce : IsAnnounce udpRequest.block → ∀ packet ∈ reply,
    AnswersAnnounce settings udpRequest torrentList' packet
  scrape : IsScrape udpRequest.block → ∀ packet ∈ reply,
    packet.length = 8 + 12 * ((udpRequest.block.length - 16) / 20) ∧
      ScrapeResponse.decode packet = scrapeResponseOf torrentList udpRequest.block

section Decidable

variable (block : List UInt8)

instance : Decidable (IsConnect block) := inferInstanceAs (Decidable (_ ∧ _))

instance : Decidable (IsAnnounce block) := inferInstanceAs (Decidable (_ ∧ _))

instance : Decidable (IsScrape block) := inferInstanceAs (Decidable (_ ∧ _))

end Decidable

section Fields

theorem echoes {block rest : List UInt8} (received : 16 ≤ block.length) (action : UInt32) :
    ((bigEndianBytes action ++ (bigEndianBytes (readBigEndian block 12) ++ rest)).drop 4).take 4 =
      (block.drop 12).take 4 := by
  rw [List.drop_left' (bigEndianBytes_length action), List.take_left' (bigEndianBytes_length _),
    bigEndianBytes_read received]

theorem bigEndianBytes_inj {left right : UInt32} (same : bigEndianBytes left = bigEndianBytes right) :
    left = right := by
  have bytes := congrArg (· ++ []) same
  have read := congrArg (readBigEndian · 0) bytes
  simpa only [readBigEndian_bytes] using read

theorem littleEndianBytes_inj {left right : UInt32}
    (same : littleEndianBytes left = littleEndianBytes right) : left = right :=
  bigEndianBytes_inj (congrArg List.reverse same)

theorem readLittleEndian_eq_zero_iff (buffer : List UInt8) (offset : Nat) :
    readLittleEndian buffer offset = 0 ↔ readBigEndian buffer offset = 0 := by
  have zeros : littleEndianBytes 0 = bigEndianBytes 0 := by decide
  have bytes := littleEndianBytes_read buffer offset
  constructor
  · intro zero
    rw [zero, zeros] at bytes
    exact (bigEndianBytes_inj bytes).symm
  · intro zero
    rw [zero, ← zeros] at bytes
    exact littleEndianBytes_inj bytes

theorem protocolId_iff {bytes : List UInt8} (length : bytes.length = 8) :
    Nat.ofDigits 256 (bytes.map UInt8.toNat) = socketUdpStructureProtocolId ↔
      bytes = protocolMagic := by
  have magic : Nat.ofDigits 256 (protocolMagic.map UInt8.toNat) = socketUdpStructureProtocolId := by
    decide
  have small (other : List UInt8) : ∀ digit ∈ other.map UInt8.toNat, digit < 256 := by
    intro digit member
    obtain ⟨byte, _, rfl⟩ := List.mem_map.mp member
    exact byte.toNat_lt
  constructor
  · intro same
    have lengths : (bytes.map UInt8.toNat).length = (protocolMagic.map UInt8.toNat).length := by
      rw [List.length_map, length]
      rfl
    have digits := Nat.ofDigits_inj_of_len_eq (by decide) lengths (small bytes)
      (small protocolMagic) (same.trans magic.symm)
    exact List.map_injective_iff.mpr (fun _ _ => UInt8.toNat_inj.mp) digits
  · rintro rfl
    exact magic

end Fields

theorem connectReply_eq {udpRequest : UdpRequest} (size : udpRequest.block.length = 16) :
    connectReply udpRequest.block udpRequest.receiveCount =
      .ok (if IsConnect udpRequest.block then some (connectResponseOf udpRequest).bytes
        else none) := by
  obtain ⟨block, clientAddr, receiveCount⟩ := udpRequest
  dsimp only at size ⊢
  have first : ((block.drop 0).take 8).length = 8 := by
    rw [List.drop_zero, List.length_take, size]
    rfl
  rw [connectReply, hostLong_eq (by omega), ok_bind]
  by_cases magic : block.take 8 = protocolMagic
  · have same := (protocolId_iff first).mpr magic
    rw [if_pos same, hostInt_eq (by omega), ok_bind]
    by_cases zero : readBigEndian block 8 = 0
    · have action : readLittleEndian block 8 = socketUdpStructureActionConnect :=
        (readLittleEndian_eq_zero_iff block 8).mpr zero
      have head : littleEndianBytes socketUdpStructureActionConnect = bigEndianBytes 0 := by decide
      rw [if_pos action, hostInt_eq (by omega), ok_bind, if_pos ⟨size, magic, zero⟩, head,
        littleEndianBytes_read, List.append_assoc]
      rfl
    · have action : ¬readLittleEndian block 8 = socketUdpStructureActionConnect :=
        fun zero' => zero ((readLittleEndian_eq_zero_iff block 8).mp zero')
      have other : ¬IsConnect block := fun connects => zero connects.2.2
      rw [if_neg action, if_neg other]
      rfl
  · have differs : ¬Nat.ofDigits 256 (((block.drop 0).take 8).map UInt8.toNat) =
        socketUdpStructureProtocolId :=
      fun same => magic ((protocolId_iff first).mp same)
    have other : ¬IsConnect block := fun connects => magic connects.2.1
    rw [if_neg differs, if_neg other]
    rfl

theorem announceHead_udp {query : Query} (udp : query.protocol = .udp) {transactionId : UInt32}
    (copied : littleEndianBytes query.transactionId = bigEndianBytes transactionId)
    (torrent : TorrentCounters) (interval : UInt32) (announceBlockSize : Nat) :
    announceHead torrent query interval announceBlockSize =
      bigEndianBytes 1 ++ (bigEndianBytes transactionId ++ (bigEndianBytes interval ++
        (bigEndianBytes torrent.incomplete ++ bigEndianBytes torrent.complete))) := by
  rw [announceHead, if_pos udp, copied]
  simp only [List.append_assoc]
  rfl

theorem announceReply_udp (inetNtop : InetNtop) {query : Query} (udp : query.protocol = .udp)
    (interval : UInt32) (after : Option TorrentData) :
    announceReply inetNtop query interval after =
      announceHead (after.getD TorrentData.empty).toTorrentCounters query interval 0 ++
        renderPairs inetNtop query (after.getD TorrentData.empty).peerList.pairs []
          query.numwant := by
  cases after with
  | none =>
      have nobody : TorrentData.empty.peerList.pairs = [] := by simp [TorrentData.empty]
      rw [Option.getD_none, nobody]
      simp [announceReply, announceTail, udp, renderPairs, TorrentData.empty]
  | some torrent => simp [announceReply, announceHead, announceTail, udp]

theorem announceReply_bytes (inetNtop : InetNtop) {query : Query} (udp : query.protocol = .udp)
    {transactionId : UInt32}
    (copied : littleEndianBytes query.transactionId = bigEndianBytes transactionId)
    (interval : UInt32) (after : Option TorrentData) :
    ∃ peers : List (Hash × PeerData),
      peers.Sublist (after.getD TorrentData.empty).peerList.pairs ∧
      (∀ peer ∈ peers, query.ipVersion &&& peer.2.ipVersion ≠ 0) ∧
      announceReply inetNtop query interval after = AnnounceResponse.bytes
        { action := 1
          transactionId := transactionId
          interval := interval
          leechers := (after.getD TorrentData.empty).incomplete
          seeders := (after.getD TorrentData.empty).complete
          peers := peers.map fun peer => .ofPeer query.ipVersion peer.2 } ∧
      (announceReply inetNtop query interval after).length ≤ 65507 := by
  obtain ⟨peers, sublist, versions, result, _⟩ := renderPairs_spec inetNtop query
    (after.getD TorrentData.empty).peerList.pairs [] query.numwant
  have head := announceHead_udp udp copied (after.getD TorrentData.empty).toTorrentCounters interval 0
  refine ⟨peers, sublist, ?_, ?_, ?_⟩
  · intro peer member
    simpa [matchesVersion] using versions peer member
  · rw [announceReply_udp inetNtop udp, head, result, AnnounceResponse.bytes,
      AnnounceResponse.head, List.nil_append, List.flatMap_def, List.map_map]
    simp only [AnnouncePeerResponse.renderPeer_udp inetNtop udp]
    rfl
  · have sized : ∀ peer ∈ (after.getD TorrentData.empty).peerList.pairs,
        (renderPeer inetNtop query peer.1 peer.2).length ≤ 18 := by
      intro peer _
      rw [AnnouncePeerResponse.renderPeer_udp inetNtop udp, AnnouncePeerResponse.bytes_length,
        AnnouncePeerResponse.ofPeer_size, AnnouncePeerResponse.size]
      split_ifs <;> decide
    have short := renderPairs_length_lt inetNtop query sized [] query.numwant (by decide)
    have limit : dataMaxPacketSize = 64000 := rfl
    rw [announceReply_udp inetNtop udp, head]
    simp only [List.length_append, bigEndianBytes_length]
    omega

def scrapeQueryOf (block : List UInt8) : Query :=
  { Query.empty with
    protocol := .udp
    transactionId := readLittleEndian block 12 }

def hashesOf (block : List UInt8) : List UInt8 :=
  (block.drop 16).take ((block.length - 16) / 20 * 20)

/-- Every field that the handler reads was received: what is left of it is a choice between
the three requests. -/
theorem clientUdpHandler_eq (host : Host) (settings : Settings) (torrentList : TorrentList)
    (udpRequest : UdpRequest) (now : Int) :
    clientUdpHandler host settings torrentList udpRequest now =
      if udpRequest.block.length = 16 then
        .ok (torrentList, if IsConnect udpRequest.block then
          some (connectResponseOf udpRequest).bytes else none)
      else if IsAnnounce udpRequest.block then
        ofTable (announce host.inetNtop torrentList
          (udpQuery settings udpRequest.clientAddr udpRequest.block)
          dataStructurePeerProtocolUdpBit settings.interval now) >>=
            fun result => .ok (result.1, some result.2)
      else if IsScrape udpRequest.block then
        ofTable (renderScrapeTorrentsPublic torrentList (hashesOf udpRequest.block)
          (scrapeQueryOf udpRequest.block)) >>= fun result => .ok (result.1, some result.2)
      else .ok (torrentList, none) := by
  have announceRead : isAction udpRequest.block socketUdpStructureActionAnnounce
      (udpRequest.block.length ≥ announceRequestSize) = .ok (IsAnnounce udpRequest.block) :=
    isAction_eq fun long => le_trans (by decide) long
  have scrapeRead : isAction udpRequest.block socketUdpStructureActionScrape
      (udpRequest.block.length > scrapeRequestSize) = .ok (IsScrape udpRequest.block) :=
    isAction_eq fun long => le_trans (by decide) (Nat.le_of_lt long)
  rw [clientUdpHandler]
  dsimp only
  by_cases size : udpRequest.block.length = 16
  · have connects : udpRequest.block.length = connectRequestSize := size
    rw [if_pos connects, if_pos size, connectReply_eq size]
    rfl
  have noConnect : ¬udpRequest.block.length = connectRequestSize := size
  rw [if_neg noConnect, if_neg size, announceRead, ok_bind]
  by_cases announces : IsAnnounce udpRequest.block
  · rw [if_pos (decide_eq_true announces), if_pos announces,
      announceRequestQuery_eq settings udpRequest.clientAddr announces.1]
    rfl
  rw [if_neg (by simpa using announces), if_neg announces, scrapeRead, ok_bind]
  by_cases scrapes : IsScrape udpRequest.block
  · have long : 16 < udpRequest.block.length := scrapes.1
    have hashCount := Nat.div_mul_le_self (udpRequest.block.length - 16) 20
    obtain ⟨hashes, received, content⟩ :=
      field_eq (show 16 + (udpRequest.block.length - 16) / 20 * 20 ≤ udpRequest.block.length by omega)
    have hashesRead : scrapeHashes udpRequest.block = .ok (hashesOf udpRequest.block) := by
      rw [hashesOf, ← content]
      exact congrArg (· >>= fun hashes => .ok hashes.list) received
    rw [if_pos (decide_eq_true scrapes), if_pos scrapes, hashesRead, ok_bind, scrapeRequestQuery,
      hostInt_eq (by omega)]
    rfl
  · rw [if_neg (by simpa using scrapes), if_neg scrapes]
    rfl

section Answers

variable {settings : Settings} {udpRequest : UdpRequest} {torrentList torrentList' : TorrentList}

theorem Answers.silent (noConnect : ¬IsConnect udpRequest.block)
    (noAnnounce : ¬IsAnnounce udpRequest.block) (noScrape : ¬IsScrape udpRequest.block) :
    Answers settings udpRequest torrentList torrentList none where
  replied := by simp [noConnect, noAnnounce, noScrape]
  unchanged := fun _ => rfl
  echoed := fun _ sent => nomatch sent
  bounded := fun _ sent => nomatch sent
  connect := fun connects => absurd connects noConnect
  announce := fun announces => absurd announces noAnnounce
  scrape := fun scrapes => absurd scrapes noScrape

theorem Answers.of_size (size : udpRequest.block.length = 16) :
    Answers settings udpRequest torrentList torrentList
      (if IsConnect udpRequest.block then some (connectResponseOf udpRequest).bytes
        else none) := by
  have noAnnounce : ¬IsAnnounce udpRequest.block := fun announces => absurd announces.1 (by omega)
  have noScrape : ¬IsScrape udpRequest.block := fun scrapes => absurd scrapes.1 (by omega)
  have whole : (connectResponseOf udpRequest).connectionId.length = 8 := rfl
  by_cases connects : IsConnect udpRequest.block
  · rw [if_pos connects]
    constructor
    case replied => simp [connects]
    case unchanged => exact fun _ => rfl
    case echoed =>
      rintro packet ⟨rfl⟩
      exact echoes size.ge 0
    case bounded =>
      rintro packet ⟨rfl⟩
      rw [ConnectResponse.bytes_length whole]
      decide
    case connect =>
      rintro _ packet ⟨rfl⟩
      exact ⟨ConnectResponse.bytes_length whole, ConnectResponse.decode_bytes whole⟩
    case announce => exact fun announces => absurd announces noAnnounce
    case scrape => exact fun scrapes => absurd scrapes noScrape
  · rw [if_neg connects]
    exact .silent connects noAnnounce noScrape

theorem Answers.of_announce (inetNtop : InetNtop) (announces : IsAnnounce udpRequest.block)
    {after : Option TorrentData}
    (stored : torrentList'.value (infoHashOf udpRequest.block).list = after) :
    Answers settings udpRequest torrentList torrentList' (some (announceReply inetNtop
      (udpQuery settings udpRequest.clientAddr udpRequest.block) settings.interval after)) := by
  have long := announces.1
  have noConnect : ¬IsConnect udpRequest.block := fun connects => absurd connects.1 (by omega)
  have noScrape : ¬IsScrape udpRequest.block :=
    fun scrapes => absurd (announces.2.symm.trans scrapes.2) (by decide)
  have udp : (udpQuery settings udpRequest.clientAddr udpRequest.block).protocol = .udp := by
    rw [udpQuery, Query.limitNumwant_protocol]
  have ipVersion : (udpQuery settings udpRequest.clientAddr udpRequest.block).ipVersion =
      getIpVersion udpRequest.clientAddr := by
    rw [udpQuery, Query.limitNumwant_ipVersion]
  have copied : littleEndianBytes
      (udpQuery settings udpRequest.clientAddr udpRequest.block).transactionId =
        bigEndianBytes (readBigEndian udpRequest.block 12) := by
    rw [udpQuery, Query.limitNumwant_transactionId, littleEndianBytes_read]
  obtain ⟨peers, sublist, versions, packet, bounded⟩ :=
    announceReply_bytes inetNtop udp copied settings.interval after
  rw [ipVersion] at versions packet
  rw [packet] at bounded ⊢
  have sized : ∀ peer ∈ peers.map fun peer =>
      AnnouncePeerResponse.ofPeer (getIpVersion udpRequest.clientAddr) peer.2,
      peer.ip.length + 2 = AnnouncePeerResponse.size (getIpVersion udpRequest.clientAddr) := by
    intro peer member
    obtain ⟨pair, _, rfl⟩ := List.mem_map.mp member
    exact AnnouncePeerResponse.ofPeer_size _ _
  constructor
  case replied => simp [announces]
  case unchanged => exact fun other => absurd announces other
  case echoed =>
    rintro packet ⟨rfl⟩
    rw [AnnounceResponse.bytes, AnnounceResponse.head, List.append_assoc, List.append_assoc]
    exact echoes (le_trans (by decide) long) 1
  case bounded =>
    rintro packet ⟨rfl⟩
    exact bounded
  case connect => exact fun connects => absurd connects noConnect
  case announce =>
    rintro _ packet ⟨rfl⟩
    refine ⟨peers, ?_, versions, ?_, ?_⟩
    · rw [torrentOf, stored]
      exact sublist
    · rw [AnnounceResponse.bytes_length sized, List.length_map]
    · rw [AnnounceResponse.decode_bytes (AnnouncePeerResponse.size_pos _) sized, torrentOf, stored]
  case scrape => exact fun scrapes => absurd scrapes noScrape

theorem Answers.of_scrape (scrapes : IsScrape udpRequest.block)
    (short : udpRequest.block.length ≤ socketUdpReceivedUdpMessageLength) :
    Answers settings udpRequest torrentList torrentList
      (some (scrapeResponseOf torrentList udpRequest.block).bytes) := by
  have long := scrapes.1
  have limit : socketUdpReceivedUdpMessageLength = 1496 := rfl
  have noConnect : ¬IsConnect udpRequest.block := fun connects => absurd connects.1 (by omega)
  have noAnnounce : ¬IsAnnounce udpRequest.block :=
    fun announces => absurd (announces.2.symm.trans scrapes.2) (by decide)
  have length : (scrapeResponseOf torrentList udpRequest.block).bytes.length =
      8 + 12 * ((udpRequest.block.length - 16) / 20) := by
    rw [ScrapeResponse.bytes_length, scrapeResponseOf, List.length_map, records_length]
  constructor
  case replied => simp [scrapes]
  case unchanged => exact fun _ => rfl
  case echoed =>
    rintro packet ⟨rfl⟩
    exact echoes (Nat.le_of_lt long) 2
  case bounded =>
    rintro packet ⟨rfl⟩
    rw [length]
    omega
  case connect => exact fun connects => absurd connects noConnect
  case announce => exact fun announces => absurd announces noAnnounce
  case scrape =>
    rintro _ packet ⟨rfl⟩
    exact ⟨length, ScrapeResponse.decode_bytes _⟩

end Answers

theorem records_hashesOf (block : List UInt8) :
    (hashesOf block).length / 20 = (block.length - 16) / 20 ∧
      records 20 ((block.length - 16) / 20) (hashesOf block) =
        records 20 ((block.length - 16) / 20) (block.drop 16) := by
  have whole := Nat.div_mul_le_self (block.length - 16) 20
  have length : (hashesOf block).length = (block.length - 16) / 20 * 20 := by
    rw [hashesOf, List.length_take, List.length_drop]
    omega
  refine ⟨by omega, ?_⟩
  rw [hashesOf, records_eq_map, records_eq_map]
  apply List.map_congr_left
  intro index member
  have inside := List.mem_range.mp member
  rw [List.drop_take, List.take_take, min_eq_left]
  omega

theorem renderScrapeTorrentsPublic_bytes {torrentList : TorrentList} (table : TableInv torrentList)
    {block : List UInt8} (short : block.length ≤ socketUdpReceivedUdpMessageLength) :
    renderScrapeTorrentsPublic torrentList (hashesOf block) (scrapeQueryOf block) =
      .ok (torrentList, (scrapeResponseOf torrentList block).bytes) := by
  obtain ⟨count, hashes⟩ := records_hashesOf block
  have width : uriParamValueLength = 20 := rfl
  have limit : socketUdpReceivedUdpMessageLength = 1496 := rfl
  have room : 12 * ((hashesOf block).length / uriParamValueLength) < dataMaxPacketSize := by
    rw [width, count, dataMaxPacketSize]
    omega
  have udp : (scrapeQueryOf block).protocol = .udp := rfl
  have copied : littleEndianBytes (scrapeQueryOf block).transactionId =
      bigEndianBytes (readBigEndian block 12) := littleEndianBytes_read block 12
  rw [renderScrapeTorrentsPublic_udp table (hashesOf block) udp room, width, count, hashes, copied,
    ScrapeResponse.bytes, scrapeResponseOf, List.map_map, List.append_assoc]
  rfl

theorem clientUdpHandler_announce (host : Host) (settings : Settings) {torrentList : TorrentList}
    {udpRequest : UdpRequest} (announces : IsAnnounce udpRequest.block) (now : Int) :
    clientUdpHandler host settings torrentList udpRequest now =
      ofTable (announce host.inetNtop torrentList
        (udpQuery settings udpRequest.clientAddr udpRequest.block)
        dataStructurePeerProtocolUdpBit settings.interval now) >>=
          fun result => .ok (result.1, some result.2) := by
  have size : ¬udpRequest.block.length = 16 := fun size => absurd announces.1 (by omega)
  rw [clientUdpHandler_eq, if_neg size, if_pos announces]

theorem clientUdpHandler_other (host : Host) (settings : Settings) {torrentList : TorrentList}
    (table : TableInv torrentList) {udpRequest : UdpRequest}
    (received : udpRequest.block.length ≤ socketUdpReceivedUdpMessageLength)
    (other : ¬IsAnnounce udpRequest.block) (now : Int) :
    ∃ reply, clientUdpHandler host settings torrentList udpRequest now =
        .ok (torrentList, reply) ∧
      Answers settings udpRequest torrentList torrentList reply := by
  rw [clientUdpHandler_eq]
  by_cases size : udpRequest.block.length = 16
  · rw [if_pos size]
    exact ⟨_, rfl, .of_size size⟩
  rw [if_neg size, if_neg other]
  by_cases scrapes : IsScrape udpRequest.block
  · rw [if_pos scrapes, renderScrapeTorrentsPublic_bytes table received]
    exact ⟨_, rfl, .of_scrape scrapes received⟩
  · rw [if_neg scrapes]
    exact ⟨_, rfl, .silent (fun connects => size connects.1) other scrapes⟩

/-- Every datagram is handled: no field outside the received bytes is read, the table keeps
its invariant, and the client is answered in the layouts of the protocol. -/
theorem clientUdpHandler_answers (host : Host) (settings : Settings) {torrentList : TorrentList}
    (table : TableInv torrentList) (udpRequest : UdpRequest)
    (received : udpRequest.block.length ≤ socketUdpReceivedUdpMessageLength) (now : Int) :
    ∃ torrentList' reply, clientUdpHandler host settings torrentList udpRequest now =
        .ok (torrentList', reply) ∧ TableInv torrentList' ∧
      Answers settings udpRequest torrentList torrentList' reply := by
  by_cases announces : IsAnnounce udpRequest.block
  · obtain ⟨torrentList', after, completed, table', _, update, _⟩ := announce_spec host.inetNtop
      table (udpQuery settings udpRequest.clientAddr udpRequest.block)
      dataStructurePeerProtocolUdpBit settings.interval now
    have infoHash : (udpQuery settings udpRequest.clientAddr udpRequest.block).infoHash =
        infoHashOf udpRequest.block := Query.limitNumwant_infoHash _ _
    have stored : torrentList'.value (infoHashOf udpRequest.block).list = after := by
      rw [update.value_eq table.table.linked table'.table.linked, infoHash, Function.update_self]
    rw [clientUdpHandler_announce host settings announces, completed]
    exact ⟨torrentList', _, rfl, table', .of_announce host.inetNtop announces stored⟩
  · obtain ⟨reply, completed, answers⟩ :=
      clientUdpHandler_other host settings table received announces now
    exact ⟨torrentList, reply, completed, table, answers⟩

theorem clientUdpHandler_answers_started :
    ∃ torrentList' packet, clientUdpHandler plainHost plainSettings emptyTorrentList
        ⟨(plainPacket 2).bytes, Bytes.zero _, 1⟩ 1000 = .ok (torrentList', some packet) ∧
      AnswersAnnounce plainSettings ⟨(plainPacket 2).bytes, Bytes.zero _, 1⟩ torrentList'
        packet := by
  obtain ⟨torrentList', reply, completed, _, answers⟩ :=
    clientUdpHandler_answers plainHost plainSettings emptyTorrentList_inv
      ⟨(plainPacket 2).bytes, Bytes.zero _, 1⟩ (by decide) 1000
  have announces : IsAnnounce (plainPacket 2).bytes := by decide
  obtain ⟨packet, rfl⟩ := Option.isSome_iff_exists.mp
    (answers.replied.mpr (Or.inr (Or.inl announces)))
  exact ⟨torrentList', packet, completed, answers.announce announces packet rfl⟩

/-- What the runs of the tracker make of a datagram is what this handler makes of it. -/
theorem clientUdpHandler_refines (host : Host) (settings : Settings) {torrentList : TorrentList}
    (table : TableInv torrentList) (udpRequest : UdpRequest)
    (received : udpRequest.block.length ≤ socketUdpReceivedUdpMessageLength) (now : Int) :
    ∃ torrentList' reply packet, clientUdpHandler host settings torrentList udpRequest now =
        .ok (torrentList', reply) ∧
      Etracker.clientUdpHandler host settings torrentList udpRequest.clientAddr udpRequest.block
        now = .ok (torrentList', packet) ∧
      ∀ sent, packet = .announced sent → reply = some sent := by
  have same : isUdpAnnounce udpRequest.block = true ↔ IsAnnounce udpRequest.block := by
    have sizes : connectRequestSize = 16 ∧ announceRequestSize = 98 := ⟨rfl, rfl⟩
    have action : socketUdpStructureActionAnnounce = 1 := rfl
    simp only [isUdpAnnounce, IsAnnounce, sizes, action, decide_eq_true_eq]
    exact ⟨fun checks => checks.2, fun checks => ⟨by omega, checks⟩⟩
  by_cases announces : IsAnnounce udpRequest.block
  · obtain ⟨torrentList', after, completed, _⟩ := announce_spec host.inetNtop table
      (udpQuery settings udpRequest.clientAddr udpRequest.block) dataStructurePeerProtocolUdpBit
      settings.interval now
    generalize announceReply host.inetNtop _ settings.interval after = packet at completed
    refine ⟨torrentList', some packet, .announced packet, ?_, ?_,
      fun sent said => congrArg some (UdpReply.announced.inj said)⟩
    · rw [clientUdpHandler_announce host settings announces, completed]
      rfl
    · rw [Etracker.clientUdpHandler, if_pos (same.mpr announces), completed]
      rfl
  · obtain ⟨reply, completed, _⟩ :=
      clientUdpHandler_other host settings table received announces now
    refine ⟨torrentList, reply, .other, completed, ?_, ?_⟩
    · rw [Etracker.clientUdpHandler, if_neg (fun isAnnounce => announces (same.mp isAnnounce))]
      rfl
    · intro sent said
      cases said

end Etracker.Udp
