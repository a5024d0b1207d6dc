import Etracker.Data.Render
import Etracker.HashList.MapData

namespace Etracker

open Foundation Foundation.Outcome

structure Query.SameUpdate (query query' : Query) : Prop where
  infoHash : query'.infoHash = query.infoHash
  peerId : query'.peerId = query.peerId
  port : query'.port = query.port
  event : query'.event = query.event
  ip : query'.ip = query.ip
  ipVersion : query'.ipVersion = query.ipVersion

def maskPeer (peerId hash : Hash) (peerData : PeerData) : PeerData :=
  if hash = peerId then { peerData with protocol := 0 } else peerData

def TorrentData.maskProtocol (torrent : TorrentData) (peerId : Hash) : TorrentData :=
  { torrent with peerList := torrent.peerList.mapData (maskPeer peerId) }

def maskTorrent (infoHash peerId hash : Hash) (torrent : TorrentData) : TorrentData :=
  if hash = infoHash then torrent.maskProtocol peerId else torrent

def maskProtocol (torrentList : TorrentList) (infoHash peerId : Hash) : TorrentList :=
  torrentList.mapData (maskTorrent infoHash peerId)

variable {query query' : Query}

theorem setPeer_finds {torrentDataL : TorrentData} (peers : PeersInv torrentDataL.peerList)
    (peerId : ParamValue) :
    ∃ (peerList : HashList PeerData) (peer : Address) (stored : Item PeerData),
      peerList.deref peer = .ok stored ∧ stored.hash = peerId.list ∧
      ∀ (query : Query) (protocol : UInt8) (now : Int), query.peerId = peerId →
        setPeer torrentDataL query protocol now =
          (peerList.setData peer
              (some ((stored.data.getD PeerData.empty).update query protocol now)) >>=
            fun peerList => .ok (⟨changeTorrentStatsL torrentDataL.toTorrentCounters
              (oldEventOf stored.data) query.event, peerList⟩,
              (stored.data.getD PeerData.empty).delay now)) := by
  obtain ⟨expanded, expansion, expandedInv, _⟩ := expandPeerList_spec peers
  have length : peerId.list.length = expanded.hashLength := by
    rw [expandedInv.hashLength, peerId.length_eq]
  obtain ⟨list, entry, inserted, linked, _, member, hashIs, _⟩ :=
    setHash_entry expandedInv.inv.linked expandedInv.filled length
  obtain ⟨item, deref, itemHash, _⟩ := deref_eq linked member
  refine ⟨list, entry.1, item, deref, itemHash.trans hashIs, ?_⟩
  rintro query protocol now rfl
  simp only [setPeer, expansion, ok_bind, inserted, deref]
  cases item.data <;> rfl

theorem setPeer_masked {torrentDataL left right : TorrentData} {leftProtocol rightProtocol : UInt8}
    {leftDelay rightDelay : UInt32} {now : Int} (peers : PeersInv torrentDataL.peerList)
    (same : query.SameUpdate query')
    (first : setPeer torrentDataL query leftProtocol now = .ok (left, leftDelay))
    (second : setPeer torrentDataL query' rightProtocol now = .ok (right, rightDelay)) :
    left.maskProtocol query.peerId.list = right.maskProtocol query.peerId.list := by
  obtain ⟨peerList, peer, stored, deref, hashIs, performs⟩ := setPeer_finds peers query.peerId
  rw [performs query leftProtocol now rfl] at first
  rw [performs query' rightProtocol now same.peerId] at second
  obtain ⟨leftList, leftStored, leftIs⟩ := bind_eq_ok first
  obtain ⟨rightList, rightStored, rightIs⟩ := bind_eq_ok second
  cases leftIs
  cases rightIs
  have lists : leftList.mapData (maskPeer query.peerId.list) =
      rightList.mapData (maskPeer query.peerId.list) := by
    apply setData_mapData _ deref _ leftStored rightStored
    simp [maskPeer, hashIs, PeerData.update, same.port, same.event, same.ip, same.ipVersion]
  rw [TorrentData.maskProtocol, TorrentData.maskProtocol, lists, same.event]

theorem deletePeerPublic_congr (same : query.SameUpdate query') (torrentList : TorrentList) :
    deletePeerPublic torrentList query' = deletePeerPublic torrentList query := by
  simp only [deletePeerPublic, deletePeer, same.infoHash, same.peerId]

theorem setPeerPublic_masked {torrentList left right : TorrentList}
    {leftProtocol rightProtocol : UInt8} {leftTorrent rightTorrent : Address}
    {leftDelay rightDelay : UInt32} {now : Int} (table : TableLinked torrentList)
    (same : query.SameUpdate query')
    (first : setPeerPublic torrentList query leftProtocol now =
      .ok (left, leftTorrent, leftDelay))
    (second : setPeerPublic torrentList query' rightProtocol now =
      .ok (right, rightTorrent, rightDelay)) :
    rightTorrent = leftTorrent ∧ maskProtocol left query.infoHash.list query.peerId.list =
      maskProtocol right query.infoHash.list query.peerId.list := by
  obtain ⟨list, entry, found, table', _, member, hashIs, dataIs, _⟩ :=
    setTorrentL_spec table query.infoHash
  obtain ⟨stored, deref, itemHash, _⟩ := deref_eq table'.linked member
  have data : list.dataOf entry.1 = .ok (torrentOf torrentList query.infoHash) :=
    dataOf_eq table'.linked member dataIs
  simp only [setPeerPublic, same.infoHash, found, ok_bind, data] at first second
  obtain ⟨⟨leftData, _⟩, leftSet, leftRest⟩ := bind_eq_ok first
  obtain ⟨⟨rightData, _⟩, rightSet, rightRest⟩ := bind_eq_ok second
  obtain ⟨leftList, leftStored, leftIs⟩ := bind_eq_ok leftRest
  obtain ⟨rightList, rightStored, rightIs⟩ := bind_eq_ok rightRest
  cases leftIs
  cases rightIs
  have torrents := setPeer_masked (torrentOf_inv table query.infoHash) same leftSet rightSet
  refine ⟨rfl, ?_⟩
  apply setData_mapData _ deref _ leftStored rightStored
  rw [maskTorrent, maskTorrent, if_pos (itemHash.trans hashIs), if_pos (itemHash.trans hashIs),
    torrents]

/-- The updates of both handlers find the same torrent and leave the same table. -/
theorem updatePeers_masked {torrentList left right : TorrentList}
    {leftProtocol rightProtocol : UInt8} {leftTorrent rightTorrent : Option Address} {now : Int}
    (table : TableLinked torrentList) (same : query.SameUpdate query')
    (first : updatePeers torrentList query leftProtocol now = .ok (left, leftTorrent))
    (second : updatePeers torrentList query' rightProtocol now = .ok (right, rightTorrent)) :
    rightTorrent = leftTorrent ∧ maskProtocol left query.infoHash.list query.peerId.list =
      maskProtocol right query.infoHash.list query.peerId.list := by
  rw [updatePeers] at first second
  rw [same.event] at second
  by_cases stops : query.event = uriEventIdStopped
  · rw [if_pos stops] at first second
    rw [deletePeerPublic_congr same, first] at second
    cases second
    exact ⟨rfl, rfl⟩
  · rw [if_neg stops] at first second
    obtain ⟨⟨_, _, _⟩, leftSet, leftIs⟩ := bind_eq_ok first
    obtain ⟨⟨_, _, _⟩, rightSet, rightIs⟩ := bind_eq_ok second
    cases leftIs
    cases rightIs
    obtain ⟨sameTorrent, tables⟩ := setPeerPublic_masked table same leftSet rightSet
    exact ⟨congrArg some sameTorrent, tables⟩

section Render

variable (inetNtop : InetNtop)

theorem renderPairs_map (query query' : Query) (change : Hash × PeerData → Hash × PeerData)
    (versions : ∀ peer, matchesVersion query' (change peer) = matchesVersion query peer)
    (rendered : ∀ peer, renderPeer inetNtop query' (change peer).1 (change peer).2 =
      renderPeer inetNtop query peer.1 peer.2)
    (peers : List (Hash × PeerData)) (block : List UInt8) (leftPeers : UInt32) :
    renderPairs inetNtop query' (peers.map change) block leftPeers =
      renderPairs inetNtop query peers block leftPeers := by
  induction peers generalizing block leftPeers with
  | nil => rfl
  | cons peer rest ih => simp only [List.map_cons, renderPairs, versions, rendered, ih]

theorem renderPairs_masked (same : query.SameUpdate query')
    (compact : query.compact = true ∨ query.protocol = .udp)
    (compact' : query'.compact = true ∨ query'.protocol = .udp) (peerId : Hash)
    {peers peers' : List (Hash × PeerData)}
    (samePeers : peers.map (fun peer => (peer.1, maskPeer peerId peer.1 peer.2)) =
      peers'.map fun peer => (peer.1, maskPeer peerId peer.1 peer.2))
    (block : List UInt8) (leftPeers : UInt32) :
    renderPairs inetNtop query peers block leftPeers =
      renderPairs inetNtop query' peers' block leftPeers := by
  have masked : ∀ peer : Hash × PeerData,
      (maskPeer peerId peer.1 peer.2).ipVersion = peer.2.ipVersion ∧
        (maskPeer peerId peer.1 peer.2).ip4 = peer.2.ip4 ∧
        (maskPeer peerId peer.1 peer.2).ip6 = peer.2.ip6 ∧
        (maskPeer peerId peer.1 peer.2).port = peer.2.port := by
    intro peer
    unfold maskPeer
    split_ifs <;> exact ⟨rfl, rfl, rfl, rfl⟩
  have left := renderPairs_map inetNtop query query'
    (fun peer => (peer.1, maskPeer peerId peer.1 peer.2))
    (by simp [matchesVersion, masked, same.ipVersion])
    (by simp [renderPeer, compact, compact', masked, same.ipVersion]) peers block leftPeers
  have right := renderPairs_map inetNtop query' query'
    (fun peer => (peer.1, maskPeer peerId peer.1 peer.2))
    (by simp [matchesVersion, masked])
    (by simp [renderPeer, compact', masked]) peers' block leftPeers
  rw [← left, samePeers, right]

end Render

end Etracker
