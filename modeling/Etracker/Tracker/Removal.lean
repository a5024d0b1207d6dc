import Etracker.Tracker.Step

namespace Etracker

open Foundation Foundation.Outcome Foundation.Runs

/-- The collector and `changeTorrentStatsL` part exactly at a peer that never sent an
event. -/
theorem changeTorrentStatsL_eq_removeFromCounters_iff (counters : TorrentCounters)
    (event : UInt8) :
    changeTorrentStatsL counters event uriEventIdNone = removeFromCounters counters event ↔
      event ≠ uriEventIdNone := by
  have differ : ∀ counter : UInt32, counter + 1 ≠ counter - 1 := by
    intro counter same
    have two : (2 : UInt32) = 0 := by grind
    exact absurd two (by decide)
  constructor
  · rintro agree rfl
    have grown : counters.incomplete + 1 = counters.incomplete - 1 :=
      congrArg TorrentCounters.incomplete agree
    exact differ _ grown
  · intro known
    rw [changeTorrentStatsL, if_neg known, if_pos rfl, removeFromCounters]

theorem lookup_of_value {α : Type} {list : HashList α} {hash : Hash} {data : α}
    (found : list.value hash = some data) :
    ∃ entry, list.lookup hash = some entry ∧ entry.2.data = some data :=
  Option.bind_eq_some_iff.mp found

theorem removals_spec {torrentList : TorrentList} (table : TableInv torrentList) {query : Query}
    {torrentDataL : TorrentData} (found : torrentList.value query.infoHash.list = some torrentDataL)
    {entry : Entry PeerData} {peer : PeerData}
    (present : torrentDataL.peerList.lookup query.peerId.list = some entry)
    (stored : entry.2.data = some peer) (leaf : Path) (stats : GarbageStats)
    (expired : peer.updateTime < stats.limitTime) :
    ∃ torrentList' torrent stopped stats',
      deletePeerPublic torrentList query = .ok (torrentList', some torrent) ∧
      torrentList'.value query.infoHash.list = some stopped ∧
      stopped.toTorrentCounters =
        changeTorrentStatsL torrentDataL.toTorrentCounters peer.event uriEventIdNone ∧
      runGarbageCollectorCallbackCallback leaf entry.1
          (torrentDataL.peerList, stats, torrentDataL.toTorrentCounters) =
        .ok (.listContinue, stopped.peerList, stats',
          removeFromCounters torrentDataL.toTorrentCounters peer.event) := by
  have peers : PeersInv torrentDataL.peerList :=
    table.table.torrents _ ((value_eq_some_iff table.inv.linked).mp found)
  have linked := peers.inv.linked
  have length : query.peerId.list.length = torrentDataL.peerList.hashLength := by
    rw [peers.hashLength, query.peerId.length_eq]
  have data := dataOf_eq linked (lookup_mem present).1 stored
  obtain ⟨peerList, deleted, _⟩ := deleteItem_update linked peers.filled present
  have announced : deletePeer torrentDataL query = .ok
      ⟨changeTorrentStatsL torrentDataL.toTorrentCounters peer.event uriEventIdNone, peerList⟩ := by
    simp [deletePeer, getHash_eq linked length, present, data, deleted]
  have limit : peer.updateTime < (stats.seePeerLeaf leaf).limitTime := expired
  obtain ⟨torrentList', torrent, stopped, completed, table', _, removed, update, _⟩ :=
    deletePeerPublic_some table.table query found
  rw [announced] at removed
  cases removed
  refine ⟨torrentList', torrent, ⟨changeTorrentStatsL torrentDataL.toTorrentCounters peer.event
    uriEventIdNone, peerList⟩, (stats.seePeerLeaf leaf).removePeer, completed, ?_, rfl, ?_⟩
  · rw [update.value_eq table.inv.linked table'.linked, Function.update_self]
  · simp [runGarbageCollectorCallbackCallback, data, if_pos limit, deleted]

/-- In every reachable table a stopped announce and the collector leave the same peers
and the same counters behind exactly if the peer has sent an event. -/
theorem removals_agree {host : Host} {torrentList : TorrentList}
    (reachable : Reachable host torrentList) {query : Query} {torrentDataL : TorrentData}
    (found : torrentList.value query.infoHash.list = some torrentDataL) {entry : Entry PeerData}
    {peer : PeerData} (present : torrentDataL.peerList.lookup query.peerId.list = some entry)
    (stored : entry.2.data = some peer) (leaf : Path) (stats : GarbageStats)
    (expired : peer.updateTime < stats.limitTime) :
    ∃ torrentList' torrent stopped peerList stats' counters,
      deletePeerPublic torrentList query = .ok (torrentList', some torrent) ∧
      torrentList'.value query.infoHash.list = some stopped ∧
      runGarbageCollectorCallbackCallback leaf entry.1
          (torrentDataL.peerList, stats, torrentDataL.toTorrentCounters) =
        .ok (.listContinue, peerList, stats', counters) ∧
      (stopped.peerList.pairs = peerList.pairs ∧ stopped.toTorrentCounters = counters ↔
        peer.event ≠ uriEventIdNone) := by
  obtain ⟨torrentList', torrent, stopped, stats', deleted, left, counters, expiry⟩ :=
    removals_spec (reached_inv reachable) found present stored leaf stats expired
  refine ⟨torrentList', torrent, stopped, stopped.peerList, stats', _, deleted, left, expiry, ?_⟩
  rw [counters, ← changeTorrentStatsL_eq_removeFromCounters_iff torrentDataL.toTorrentCounters]
  exact and_iff_right rfl

def plainStop : Query := { Query.empty with event := uriEventIdStopped }

theorem removals_agree_started :
    ∃ torrentList torrentDataL entry,
      (plainUdp 2 1000).run plainHost emptyTorrentList = .ok torrentList ∧
      torrentList.value plainStop.infoHash.list = some torrentDataL ∧
      torrentDataL.peerList.lookup plainStop.peerId.list = some entry ∧
      ∃ torrentList' torrent stopped peerList stats' counters,
        deletePeerPublic torrentList plainStop = .ok (torrentList', some torrent) ∧
        torrentList'.value plainStop.infoHash.list = some stopped ∧
        runGarbageCollectorCallbackCallback [] entry.1
            (torrentDataL.peerList, GarbageStats.start 2000, torrentDataL.toTorrentCounters) =
          .ok (.listContinue, peerList, stats', counters) ∧
        stopped.peerList.pairs = peerList.pairs ∧ stopped.toTorrentCounters = counters := by
  obtain ⟨torrentList, torrentDataL, peer, completed, plain, eventIs, timeIs, _⟩ :=
    (plainUdp_plain 2 1000).first (by decide)
  obtain ⟨entry, present, stored⟩ := lookup_of_value plain.stored
  have expired : peer.updateTime < (GarbageStats.start 2000).limitTime := by
    rw [timeIs]
    decide
  have known : peer.event ≠ uriEventIdNone := by
    rw [eventIs]
    decide
  obtain ⟨torrentList', torrent, stopped, peerList, stats', counters, deleted, left, expiry,
    agree⟩ := @removals_agree _ _ plain.reachable plainStop _ plain.found _ _ present stored []
      (GarbageStats.start 2000) expired
  exact ⟨torrentList, torrentDataL, entry, completed, plain.found, present, torrentList', torrent,
    stopped, peerList, stats', counters, deleted, left, expiry, agree.mpr known⟩

/-- A peer whose only announce had no event: stopping counts it a second time, expiry
takes it out of the counters. -/
theorem removals_disagree :
    ∃ torrentList torrentDataL entry torrentList' torrent stopped peerList stats',
      (plainUdp 0 1000).run plainHost emptyTorrentList = .ok torrentList ∧
      Reachable plainHost torrentList ∧
      torrentList.value plainStop.infoHash.list = some torrentDataL ∧
      torrentDataL.peerList.lookup plainStop.peerId.list = some entry ∧
      deletePeerPublic torrentList plainStop = .ok (torrentList', some torrent) ∧
      torrentList'.value plainStop.infoHash.list = some stopped ∧
      stopped.toTorrentCounters = ⟨0, 2, 0⟩ ∧
      runGarbageCollectorCallbackCallback [] entry.1
          (torrentDataL.peerList, GarbageStats.start 2000, torrentDataL.toTorrentCounters) =
        .ok (.listContinue, peerList, stats', ⟨0, 0, 0⟩) := by
  obtain ⟨torrentList, torrentDataL, peer, completed, plain, eventIs, timeIs, first⟩ :=
    (plainUdp_plain 0 1000).first (by decide)
  obtain ⟨entry, present, stored⟩ := lookup_of_value plain.stored
  have expired : peer.updateTime < (GarbageStats.start 2000).limitTime := by
    rw [timeIs]
    decide
  obtain ⟨torrentList', torrent, stopped, stats', deleted, left, counters, expiry⟩ :=
    @removals_spec _ (reached_inv plain.reachable) plainStop _ plain.found _ _ present stored []
      (GarbageStats.start 2000) expired
  have twice : changeTorrentStatsL torrentDataL.toTorrentCounters peer.event uriEventIdNone =
      ⟨0, 2, 0⟩ := by
    rw [first, eventIs]
    decide
  have gone : removeFromCounters torrentDataL.toTorrentCounters peer.event = ⟨0, 0, 0⟩ := by
    rw [first, eventIs]
    decide
  rw [twice] at counters
  rw [gone] at expiry
  exact ⟨torrentList, torrentDataL, entry, torrentList', torrent, stopped, stopped.peerList, stats',
    completed, plain.reachable, plain.found, present, deleted, left, counters, expiry⟩

end Etracker
