import Etracker.Data.Masked
import Etracker.Data.Request
import Etracker.Tracker.Step

namespace Etracker

open Foundation Foundation.CString Foundation.Outcome

def announceCounters (after : Option TorrentData) : TorrentCounters :=
  (after.map TorrentData.toTorrentCounters).getD ⟨0, 0, 0⟩

def announceBlock (inetNtop : InetNtop) (query : Query) (after : Option TorrentData) :
    List UInt8 :=
  (after.map fun torrent =>
    renderPairs inetNtop query torrent.peerList.pairs [] query.numwant).getD []

theorem announceReply_eq (inetNtop : InetNtop) (query : Query) (interval : UInt32)
    (after : Option TorrentData) :
    announceReply inetNtop query interval after =
      announceHead (announceCounters after) query interval
        (announceBlock inetNtop query after).length ++ announceBlock inetNtop query after ++
        announceTail query := by
  cases after with
  | none => simp [announceReply, announceCounters, announceBlock]
  | some torrent => rfl

variable {query query' : Query}

theorem Announced.masked {leftProtocol rightProtocol : UInt8} {now : Int}
    {before left right : Option TorrentData}
    (peers : PeersInv (before.getD TorrentData.empty).peerList) (same : query.SameUpdate query')
    (first : Announced query leftProtocol now before left)
    (second : Announced query' rightProtocol now before right) :
    left.map (TorrentData.maskProtocol · query.peerId.list) =
      right.map (TorrentData.maskProtocol · query.peerId.list) := by
  cases first with
  | unknown stops =>
      cases second with
      | unknown _ => rfl
      | stored goesOn _ => exact absurd (same.event.trans stops) goesOn
  | stopped stops removed =>
      cases second with
      | stopped _ removed' =>
          rw [deletePeer, same.peerId, ← deletePeer, removed] at removed'
          cases removed'
          rfl
      | stored goesOn _ => exact absurd (same.event.trans stops) goesOn
  | stored goesOn changed =>
      cases second with
      | unknown stops => exact absurd (same.event.symm.trans stops) goesOn
      | stopped stops _ => exact absurd (same.event.symm.trans stops) goesOn
      | stored _ changed' => exact congrArg some (setPeer_masked peers same changed changed')

theorem announceCounters_masked {left right : Option TorrentData} {peerId : Hash}
    (same : left.map (TorrentData.maskProtocol · peerId) =
      right.map (TorrentData.maskProtocol · peerId)) :
    announceCounters left = announceCounters right := by
  have counters := congrArg (Option.map TorrentData.toTorrentCounters) same
  simp only [Option.map_map] at counters
  exact congrArg (Option.getD · ⟨0, 0, 0⟩) counters

theorem announceBlock_masked (inetNtop : InetNtop) (sameUpdate : query.SameUpdate query')
    (sameNumwant : query'.numwant = query.numwant)
    (compact : query.compact = true ∨ query.protocol = .udp)
    (compact' : query'.compact = true ∨ query'.protocol = .udp)
    {left right : Option TorrentData} {peerId : Hash}
    (same : left.map (TorrentData.maskProtocol · peerId) =
      right.map (TorrentData.maskProtocol · peerId)) :
    announceBlock inetNtop query left = announceBlock inetNtop query' right := by
  cases left with
  | none =>
      cases right with
      | none => rfl
      | some torrent' => simp at same
  | some torrent =>
      cases right with
      | none => simp at same
      | some torrent' =>
          simp only [Option.map_some, Option.some.injEq] at same
          have lists := congrArg (fun torrent => torrent.peerList.pairs) same
          simp only [TorrentData.maskProtocol, mapData_pairs] at lists
          simp only [announceBlock, Option.map_some, Option.getD_some, sameNumwant]
          exact renderPairs_masked inetNtop sameUpdate compact compact' peerId lists [] _

/-- Announces that tell the same leave the same table but for the protocols of their
peer, and tell the client the same counters and peers. -/
theorem announce_masked (inetNtop : InetNtop) {torrentList : TorrentList}
    (table : TableInv torrentList) (same : query.SameUpdate query')
    (sameNumwant : query'.numwant = query.numwant)
    (compact : query.compact = true ∨ query.protocol = .udp)
    (compact' : query'.compact = true ∨ query'.protocol = .udp)
    (protocol protocol' : UInt8) (interval : UInt32) (now : Int) :
    ∃ left right counters block,
      announce inetNtop torrentList query protocol interval now =
        .ok (left, announceHead counters query interval block.length ++ block ++
          announceTail query) ∧
      announce inetNtop torrentList query' protocol' interval now =
        .ok (right, announceHead counters query' interval block.length ++ block ++
          announceTail query') ∧
      maskProtocol left query.infoHash.list query.peerId.list =
        maskProtocol right query.infoHash.list query.peerId.list := by
  obtain ⟨semaphore, performs⟩ := announce_updates inetNtop table query.infoHash
  obtain ⟨left, torrent, after, updated, completed, _, _, _, announced⟩ :=
    performs query protocol interval now rfl
  obtain ⟨right, torrent', after', updated', completed', _, _, _, announced'⟩ :=
    performs query' protocol' interval now same.infoHash
  have torrents := announced.masked (torrentOf_inv table.table query.infoHash) same announced'
  have counters := announceCounters_masked torrents
  have blocks := announceBlock_masked inetNtop same sameNumwant compact compact' torrents
  obtain ⟨_, tables⟩ :=
    updatePeers_masked (table.table.withSemaphore semaphore) same updated updated'
  rw [announceReply_eq] at completed completed'
  rw [← counters, ← blocks] at completed'
  refine ⟨_, _, _, _, completed, completed', ?_⟩
  have semaphores := congrArg
    (fun list : TorrentList => { list with semaphore := torrentList.semaphore }) tables
  exact semaphores

theorem Query.Announces.sameUpdate {values : AnnounceValues} {settings : Settings}
    {clientAddr : In6Addr} (left : query.Announces values settings clientAddr)
    (right : query'.Announces values settings clientAddr) : query.SameUpdate query' where
  infoHash := right.infoHash.trans left.infoHash.symm
  peerId := right.peerId.trans left.peerId.symm
  port := right.port.trans left.port.symm
  event := right.event.trans left.event.symm
  ip := right.ip.trans left.ip.symm
  ipVersion := right.ipVersion.trans left.ipVersion.symm

theorem HttpRequest.accepted {values : AnnounceValues} (request : HttpRequest values) (host : Host)
    {settings : Settings} (noForwarded : settings.xForwardedFor = none) (clientAddr : In6Addr) :
    httpAnnounce host settings clientAddr request.bytes =
      some (httpQuery host settings clientAddr request.bytes) := by
  obtain ⟨announces, hasInfoHash, _⟩ := request.query host noForwarded clientAddr
  have noZero : ∀ letter ∈ ascii "/announce", letter ≠ 0 := by decide +kernel
  have text : ascii "GET /announce" = ascii "GET " ++ ascii "/announce" := by decide
  apply if_pos
  refine ⟨request.short, ?_, request.complete, ?_, hasInfoHash, ?_⟩
  · rw [HttpRequest.bytes, requestText, List.length_append]
    have method : (ascii "GET ").length = 4 := by decide
    omega
  · rw [HttpRequest.bytes, cString_requestText noZero, startsWith, text, requestText,
      ← List.append_assoc, List.isPrefixOf_iff_prefix]
    exact List.prefix_append _ _
  · rw [announces.port, Ne, htons_eq_zero_iff]
    exact values.port_ne_zero

/-- The same announce sent over HTTP and over UDP changes the table in the same way, but
for the protocols of its peer, and is answered with the same counters and peers. -/
theorem protocols_agree (host : Host) {settings : Settings}
    (noForwarded : settings.xForwardedFor = none) {torrentList : TorrentList}
    (table : TableInv torrentList) (clientAddr : In6Addr) (now : Int) {values : AnnounceValues}
    (request : HttpRequest values) {packet : AnnouncePacket}
    (carries : packet.CarriesValues values) :
    ∃ httpList udpList counters block,
      processRead host settings torrentList clientAddr request.bytes now =
        .ok (httpList, .announced (announceHead counters
          (httpQuery host settings clientAddr request.bytes) settings.interval block.length ++
          block ++ ascii "e")) ∧
      clientUdpHandler host settings torrentList clientAddr packet.bytes now =
        .ok (udpList, .announced (announceHead counters
          (udpQuery settings clientAddr packet.bytes) settings.interval block.length ++ block)) ∧
      maskProtocol httpList values.infoHash.list values.peerId.list =
        maskProtocol udpList values.infoHash.list values.peerId.list := by
  obtain ⟨overHttp, _, compact, isTcp⟩ := request.query host noForwarded clientAddr
  have overUdp := carries.query settings clientAddr
  have isUdp : (udpQuery settings clientAddr packet.bytes).protocol = .udp := by
    rw [packet.udpQuery_bytes, Query.limitNumwant_eq]
  obtain ⟨httpList, udpList, counters, block, overHttpDone, overUdpDone, tables⟩ :=
    announce_masked host.inetNtop table (overHttp.sameUpdate overUdp)
      (overUdp.numwant.trans overHttp.numwant.symm) overHttp.compact overUdp.compact
      dataStructurePeerProtocolTcpBit dataStructurePeerProtocolUdpBit settings.interval now
  have httpTail : announceTail (httpQuery host settings clientAddr request.bytes) = ascii "e" := by
    simp [announceTail, isTcp, compact]
  have udpTail : announceTail (udpQuery settings clientAddr packet.bytes) = [] := by
    simp [announceTail, isUdp]
  rw [httpTail] at overHttpDone
  rw [udpTail, List.append_nil] at overUdpDone
  rw [overHttp.infoHash, overHttp.peerId] at tables
  refine ⟨httpList, udpList, counters, block, ?_, ?_, tables⟩
  · rw [processRead_announce (request.accepted host noForwarded clientAddr), overHttpDone]
    rfl
  · rw [clientUdpHandler, if_pos packet.isUdpAnnounce_bytes, overUdpDone]
    rfl

def plainValues : AnnounceValues where
  infoHash := Bytes.zero _
  peerId := Bytes.zero _
  port := 6881
  numwant := 50
  event := .started
  port_ne_zero := by decide
  numwant_lt := by decide

theorem protocols_agree_started :
    ∃ httpList udpList counters block,
      processRead plainHost plainSettings emptyTorrentList (Bytes.zero _)
          (HttpRequest.encode plainValues).bytes 1000 =
        .ok (httpList, .announced (announceHead counters
          (httpQuery plainHost plainSettings (Bytes.zero _)
            (HttpRequest.encode plainValues).bytes) plainSettings.interval block.length ++
          block ++ ascii "e")) ∧
      clientUdpHandler plainHost plainSettings emptyTorrentList (Bytes.zero _)
          (plainPacket 2).bytes 1000 =
        .ok (udpList, .announced (announceHead counters
          (udpQuery plainSettings (Bytes.zero _) (plainPacket 2).bytes) plainSettings.interval
          block.length ++ block)) ∧
      maskProtocol httpList plainValues.infoHash.list plainValues.peerId.list =
        maskProtocol udpList plainValues.infoHash.list plainValues.peerId.list :=
  protocols_agree plainHost rfl emptyTorrentList_inv (Bytes.zero _) 1000
    (HttpRequest.encode plainValues) ⟨rfl, rfl, rfl, rfl, rfl⟩

end Etracker
