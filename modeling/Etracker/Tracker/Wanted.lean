import Etracker.Tracker.Rolls

namespace Etracker

open Foundation Foundation.CString Foundation.Outcome Foundation.Runs

/-- Of how many peers, and of which, the reply to an announce tells. -/
theorem renderAnnouncePublic_peers (inetNtop : InetNtop) {torrentList : TorrentList} {torrent : Address}
    {torrentDataL : TorrentData} (stored : torrentList.dataOf torrent = .ok torrentDataL)
    (peers : PeersInv torrentDataL.peerList) (query : Query)
    (maxPeersPerResponse interval : UInt32) :
    let query := query.limitNumwant maxPeersPerResponse
    ∃ block, renderAnnouncePublic inetNtop torrentList (some torrent) query interval =
        .ok (announceHead torrentDataL.toTorrentCounters query interval block.length ++ block ++
          announceTail query) ∧
      (AnnouncesPeers inetNtop query torrentDataL.peerList.pairs block ↔
        query.numwant ≠ 0 ∨
          ∀ peer ∈ torrentDataL.peerList.pairs, matchesVersion query peer = false) := by
  intro query
  refine ⟨_, ?_, renderPairs_announces inetNtop query (pairs_nodup peers.inv.linked)⟩
  simp only [renderAnnouncePublic, stored, ok_bind, renderAnnouncePeersL_eq inetNtop peers,
    pure_eq_ok]

/-- Three peers start over IPv4, and one over IPv6. -/
def wantedSteps : List Step :=
  [sampleIpv4 7 1 2 1000, sampleUdp 7 2 2 1100, sampleIpv4 7 3 2 1200, sampleIpv4 7 4 2 1300]

/-- A client over IPv4 that wants two peers is told of two of the three. -/
theorem renderAnnouncePublic_peers_wanted :
    ∃ torrentList torrent torrentDataL block,
      Traced (Step.Takes plainHost) emptyTorrentList wantedSteps torrentList ∧
      torrentList.dataOf torrent = .ok torrentDataL ∧
      (torrentDataL.peerList.pairs.length = 4 ∧ torrentDataL.peerList.pairs.countP
        (matchesVersion (announceQuery uriEventIdStarted 2)) = 3) ∧
      renderAnnouncePublic plainHost.inetNtop torrentList (some torrent)
        (announceQuery uriEventIdStarted 2) 1799 =
          .ok (announceHead torrentDataL.toTorrentCounters (announceQuery uriEventIdStarted 2) 1799
            block.length ++ block ++ announceTail (announceQuery uriEventIdStarted 2)) ∧
      AnnouncesPeers plainHost.inetNtop (announceQuery uriEventIdStarted 2)
        torrentDataL.peerList.pairs block := by
  have few : wantedSteps.length < 2 ^ 32 := by decide
  obtain ⟨torrentList, traced, rolled⟩ := Rolls.exists_traced plainHost few
  have table := reached_inv traced.reached
  have started : ((Rolls.after plainHost wantedSteps).find
      (Bytes.ofList uriParamValueLength [7]).list).map (fun roll => (roll.peers.length,
        roll.peers.countP (matchesVersion (announceQuery uriEventIdStarted 2)))) = some (4, 3) := by
    decide +kernel
  obtain ⟨roll, isRoll, counts⟩ := Option.map_eq_some_iff.mp started
  rw [Prod.mk.injEq] at counts
  obtain ⟨torrentDataL, present, one⟩ := rolled.value isRoll
  have pair := (value_eq_some_iff table.inv.linked).mp present
  obtain ⟨entry, member, isPair⟩ := List.mem_filterMap.mp pair
  have stored := dataOf_eq table.inv.linked member (entryPair_eq_some_iff.mp isPair).2
  obtain ⟨block, rendered, exactly⟩ := renderAnnouncePublic_peers plainHost.inetNtop stored
    (table.table.torrents _ pair) (announceQuery uriEventIdStarted 2) 60 1799
  have unlimited : (announceQuery uriEventIdStarted 2).limitNumwant 60 =
      announceQuery uriEventIdStarted 2 := by decide
  rw [unlimited] at rendered exactly
  refine ⟨torrentList, entry.1, torrentDataL, block, traced, stored, ⟨?_, ?_⟩, rendered,
    exactly.mpr (Or.inl (by decide))⟩
  · rw [one.peers.length_eq, counts.1]
  · rw [one.peers.countP_eq, counts.2]

/-- A client that wants no peers is told of one. -/
theorem renderAnnouncePublic_unwanted :
    ∃ torrentList torrent, setPeerPublic emptyTorrentList (announceQuery uriEventIdStarted 0)
        dataStructurePeerProtocolTcpBit 1000 = .ok (torrentList, torrent, 0) ∧
      ∃ torrentDataL block, torrentList.dataOf torrent = .ok torrentDataL ∧
        renderAnnouncePeersL (fun _ _ => ascii "10.0.0.1") torrentDataL.peerList
          (announceQuery uriEventIdStarted 0) = .ok block ∧
        ¬ AnnouncesPeers (fun _ _ => ascii "10.0.0.1") (announceQuery uriEventIdStarted 0)
          torrentDataL.peerList.pairs block := by
  obtain ⟨torrentList, torrent, torrentDataL, completed, _, reached, _, sound, peers, _⟩ :=
    setPeerPublic_first (announceQuery uriEventIdStarted 0) dataStructurePeerProtocolTcpBit 1000
  refine ⟨torrentList, torrent, completed, torrentDataL, _, reached,
    renderAnnouncePeersL_eq _ sound _, ?_⟩
  rw [renderPairs_announces _ _ (pairs_nodup sound.inv.linked), peers]
  simp [announceQuery, matchesVersion, PeerData.update, PeerData.empty, socketVersionIpv4Bit]

end Etracker
