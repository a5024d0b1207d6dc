import Etracker.Data.Model

/-! The collector of `data_garbage.c`. -/

namespace Etracker

def dataGarbageMaxAliveTime : Int := 1800
def intervalStepS : Int := 60

/-- A leaf of a peer list is named by the torrent that owns the list and its path. -/
structure GarbageStats where
  totalPeers : UInt32
  totalTorrents : UInt32
  totalTorrentsWithChangeLimit : UInt32
  maxPeersInOneTorrent : UInt32
  maxPeersInLeaf : UInt32
  maxTorrentsInOneLeaf : UInt32
  currentPeersInTorrent : UInt32
  currentPeersInLeaf : UInt32
  currentTorrentsInLeaf : UInt32
  removedPeers : UInt32
  removedTorrents : UInt32
  lastTorrentLeaf : Option Path
  lastPeerLeaf : Option (Option Address × Path)
  limitTime : Int
  currentTorrent : Option Address
  deriving DecidableEq, Repr

def GarbageStats.start (limitTime : Int) : GarbageStats where
  totalPeers := 0
  totalTorrents := 0
  totalTorrentsWithChangeLimit := 0
  maxPeersInOneTorrent := 0
  maxPeersInLeaf := 0
  maxTorrentsInOneLeaf := 0
  currentPeersInTorrent := 0
  currentPeersInLeaf := 0
  currentTorrentsInLeaf := 0
  removedPeers := 0
  removedTorrents := 0
  lastTorrentLeaf := none
  lastPeerLeaf := none
  limitTime := limitTime
  currentTorrent := none

namespace GarbageStats

def seePeerLeaf (stats : GarbageStats) (leaf : Path) : GarbageStats :=
  let list := some (stats.currentTorrent, leaf)
  let current := (if stats.lastPeerLeaf ≠ list then 0 else stats.currentPeersInLeaf) + 1
  { stats with
    currentPeersInLeaf := current
    lastPeerLeaf := list
    maxPeersInLeaf := if current > stats.maxPeersInLeaf then current else stats.maxPeersInLeaf }

def removePeer (stats : GarbageStats) : GarbageStats :=
  { stats with removedPeers := stats.removedPeers + 1 }

def keepPeer (stats : GarbageStats) : GarbageStats :=
  { stats with
    totalPeers := stats.totalPeers + 1
    currentPeersInTorrent := stats.currentPeersInTorrent + 1 }

def seeTorrent (stats : GarbageStats) (leaf : Path) (torrent : Address) : GarbageStats :=
  let list := some leaf
  let current := (if stats.lastTorrentLeaf ≠ list then 0 else stats.currentTorrentsInLeaf) + 1
  { stats with
    currentTorrentsInLeaf := current
    lastTorrentLeaf := list
    maxTorrentsInOneLeaf :=
      if current > stats.maxTorrentsInOneLeaf then current else stats.maxTorrentsInOneLeaf
    currentPeersInTorrent := 0
    currentTorrent := some torrent }

def removeTorrent (stats : GarbageStats) : GarbageStats :=
  { stats with removedTorrents := stats.removedTorrents + 1 }

def keepTorrent (stats : GarbageStats) : GarbageStats :=
  let current := stats.currentPeersInTorrent
  { stats with
    totalTorrents := stats.totalTorrents + 1
    maxPeersInOneTorrent :=
      if current > stats.maxPeersInOneTorrent then current else stats.maxPeersInOneTorrent
    totalTorrentsWithChangeLimit :=
      if current > dataStructurePeersForLevel0Limit then stats.totalTorrentsWithChangeLimit + 1
      else stats.totalTorrentsWithChangeLimit }

end GarbageStats

def removeFromCounters (torrent : TorrentCounters) (event : UInt8) : TorrentCounters :=
  if event = uriEventIdCompleted then { torrent with complete := torrent.complete - 1 }
  else { torrent with incomplete := torrent.incomplete - 1 }

/-- `args` is the record of the pass and the counters of the current torrent. -/
def runGarbageCollectorCallbackCallback : Callback PeerData (GarbageStats × TorrentCounters)
  | leaf, peer, (list, stats, counters) => do
      let stats := stats.seePeerLeaf leaf
      let peerDataL ← list.dataOf peer
      if peerDataL.updateTime < stats.limitTime then
        let counters := removeFromCounters counters peerDataL.event
        let list ← deleteItem list peer
        pure (.listContinue, list, stats.removePeer, counters)
      else pure (.listContinue, list, stats.keepPeer, counters)

def runGarbageCollectorCallback : Callback TorrentData GarbageStats
  | leaf, torrent, (list, stats) => do
      let torrentDataL ← list.dataOf torrent
      let stats := stats.seeTorrent leaf torrent
      let (_, peerList, stats, counters) ← mapList torrentDataL.peerList
        (stats, torrentDataL.toTorrentCounters) runGarbageCollectorCallbackCallback
      let list ← list.setData torrent (some ⟨counters, peerList⟩)
      if stats.currentPeersInTorrent = 0 then
        freeList peerList
        let list ← deleteItem list torrent
        pure (.listContinue, list, stats.removeTorrent)
      else pure (.listContinue, list, stats.keepTorrent)

def limitTimeOf (now : Int) : Int := now - dataGarbageMaxAliveTime - intervalStepS

def runGarbageCollectorL (torrentList : TorrentList) (now : Int) :
    Except Fault (TorrentList × GarbageStats) := do
  let (_, torrentList, stats) ←
    mapList torrentList (GarbageStats.start (limitTimeOf now)) runGarbageCollectorCallback
  pure (torrentList, stats)

end Etracker
