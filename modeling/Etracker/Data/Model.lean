import Etracker.HashList.Model
import Etracker.Uri.Model

/-! The torrent table of `data_structure.h` and its updates in `data.c`. -/

namespace Etracker

open Foundation

def dataStructurePeersForLevel0Limit : UInt32 := 256
def dataStructurePeerProtocolTcpBit : UInt8 := 1
def dataStructurePeerProtocolUdpBit : UInt8 := 2

structure PeerData where
  updateTime : Int
  ip6 : In6Addr
  ip4 : In6Addr
  port : UInt16
  event : UInt8
  protocol : UInt8
  ipVersion : UInt8
  deriving DecidableEq

def PeerData.empty : PeerData where
  updateTime := 0
  ip6 := Bytes.zero _
  ip4 := Bytes.zero _
  port := 0
  event := 0
  protocol := 0
  ipVersion := 0

structure TorrentCounters where
  complete : UInt32
  incomplete : UInt32
  downloaded : UInt32
  deriving DecidableEq, Repr

theorem toNat_sub_ofNat {counter : UInt32} {count : Nat} (enough : count ≤ counter.toNat) :
    (counter - UInt32.ofNat count).toNat = counter.toNat - count := by
  have below := counter.toNat_lt
  have small : (UInt32.ofNat count).toNat = count := by
    rw [UInt32.toNat_ofNat']
    exact Nat.mod_eq_of_lt (by omega)
  have le : UInt32.ofNat count ≤ counter := by
    rw [UInt32.le_iff_toNat_le, small]
    exact enough
  rw [UInt32.toNat_sub_of_le _ _ le, small]

theorem toNat_sub_one {counter : UInt32} (positive : 0 < counter.toNat) :
    (counter - 1).toNat = counter.toNat - 1 :=
  toNat_sub_ofNat positive

structure TorrentData extends TorrentCounters where
  peerList : HashList PeerData

abbrev TorrentList := HashList TorrentData

def emptyTorrentList : TorrentList :=
  ListHeader.newList ⟨.littleEndian, uriParamValueLength, 2, listSemaphoreEnableLeaf⟩

def TorrentData.empty : TorrentData where
  complete := 0
  incomplete := 0
  downloaded := 0
  peerList := ListHeader.newList ⟨.bigEndian, uriParamValueLength, 0, listSemaphoreDisable⟩

def changeTorrentStatsL (torrent : TorrentCounters) (oldEvent newEvent : UInt8) :
    TorrentCounters :=
  if oldEvent = uriEventIdNone then
    if newEvent = uriEventIdCompleted then
      { torrent with
        downloaded := torrent.downloaded + 1
        complete := torrent.complete + 1 }
    else { torrent with incomplete := torrent.incomplete + 1 }
  else if newEvent = uriEventIdNone then
    if oldEvent = uriEventIdCompleted then { torrent with complete := torrent.complete - 1 }
    else { torrent with incomplete := torrent.incomplete - 1 }
  else if oldEvent ≠ newEvent ∧ newEvent ≠ uriEventIdContinue then
    if oldEvent = uriEventIdCompleted then
      { torrent with
        complete := torrent.complete - 1
        incomplete := torrent.incomplete + 1 }
    else if newEvent = uriEventIdCompleted then
      { complete := torrent.complete + 1
        incomplete := torrent.incomplete - 1
        downloaded := torrent.downloaded + 1 }
    else torrent
  else torrent

def setTorrentL (torrentList : TorrentList) (hash : ParamValue) :
    Except Fault (TorrentList × Address) := do
  let (torrentList, torrent) ← setHash torrentList hash.list
  let stored ← torrentList.deref torrent
  match stored.data with
  | some _ => pure (torrentList, torrent)
  | none =>
      let peerList ← initList 0 uriParamValueLength listSemaphoreDisable .bigEndian
      let torrentList ← torrentList.setData torrent (some ⟨⟨0, 0, 0⟩, peerList⟩)
      pure (torrentList, torrent)

/-- The part of `deletePeerPublic` that works on the data of the torrent. -/
def deletePeer (torrentDataL : TorrentData) (query : Query) : Except Fault TorrentData := do
  match ← getHash torrentDataL.peerList query.peerId.list with
  | none => pure torrentDataL
  | some peer =>
      let peerDataL ← torrentDataL.peerList.dataOf peer
      let counters := changeTorrentStatsL torrentDataL.toTorrentCounters peerDataL.event
        uriEventIdNone
      let peerList ← deleteItem torrentDataL.peerList peer
      pure ⟨counters, peerList⟩

def deletePeerPublic (torrentList : TorrentList) (query : Query) :
    Except Fault (TorrentList × Option Address) := do
  match ← getHash torrentList query.infoHash.list with
  | none => pure (torrentList, none)
  | some torrent =>
      let torrentDataL ← torrentList.dataOf torrent
      let torrentDataL ← deletePeer torrentDataL query
      let torrentList ← torrentList.setData torrent (some torrentDataL)
      pure (torrentList, some torrent)

def PeerData.update (peerData : PeerData) (query : Query) (protocol : UInt8) (now : Int) :
    PeerData where
  updateTime := now
  ip6 := if query.ipVersion &&& socketVersionIpv4Bit ≠ 0 then peerData.ip6 else query.ip
  ip4 := if query.ipVersion &&& socketVersionIpv4Bit ≠ 0 then query.ip else peerData.ip4
  port := query.port
  event := query.event
  protocol := peerData.protocol ||| protocol
  ipVersion := peerData.ipVersion ||| query.ipVersion

/-- What `updatePeerStat` is told: the time since the last announce of the peer. -/
def PeerData.delay (peerData : PeerData) (now : Int) : UInt32 :=
  if peerData.updateTime ≠ 0 then UInt32.ofInt (now - peerData.updateTime) else 0

/-- The list of peers `setPeerPublic` works on: a list of level 0 whose torrent counts
too many peers is expanded first. -/
def expandPeerList (torrentDataL : TorrentData) : Except Fault (HashList PeerData) :=
  if torrentDataL.complete + torrentDataL.incomplete > dataStructurePeersForLevel0Limit ∧
      torrentDataL.peerList.level = 0 then reInitList torrentDataL.peerList 1
  else pure torrentDataL.peerList

def setPeer (torrentDataL : TorrentData) (query : Query) (protocol : UInt8) (now : Int) :
    Except Fault (TorrentData × UInt32) := do
  let peerList ← expandPeerList torrentDataL
  let (peerList, peer) ← setHash peerList query.peerId.list
  let stored ← peerList.deref peer
  let oldEvent := match stored.data with
    | none => uriEventIdNone
    | some peerData => peerData.event
  let counters := changeTorrentStatsL torrentDataL.toTorrentCounters oldEvent query.event
  let peerData := stored.data.getD PeerData.empty
  let peerList ← peerList.setData peer (some (peerData.update query protocol now))
  pure (⟨counters, peerList⟩, peerData.delay now)

def setPeerPublic (torrentList : TorrentList) (query : Query) (protocol : UInt8) (now : Int) :
    Except Fault (TorrentList × Address × UInt32) := do
  let (torrentList, torrent) ← setTorrentL torrentList query.infoHash
  let torrentDataL ← torrentList.dataOf torrent
  let (torrentDataL, delay) ← setPeer torrentDataL query protocol now
  let torrentList ← torrentList.setData torrent (some torrentDataL)
  pure (torrentList, torrent, delay)

end Etracker
