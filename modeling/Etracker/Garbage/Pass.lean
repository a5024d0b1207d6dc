import Etracker.Tracker.Rolls

namespace Etracker

open Foundation Foundation.Outcome Foundation.Runs

/-- A pass is exact unless some torrent keeps a positive multiple of `2 ^ 32` peers. -/
theorem runGarbageCollectorL_exact {torrentList : TorrentList} (table : TableInv torrentList)
    (now : Int) :
    (∃ torrentList' stats, runGarbageCollectorL torrentList now = .ok (torrentList', stats) ∧
      CollectedTable (limitTimeOf now) torrentList torrentList') ↔
      ∀ pair ∈ torrentList.pairs, Countable (limitTimeOf now) pair.2 := by
  constructor
  · rintro ⟨torrentList', stats, completed, _⟩
    by_contra crowd
    push Not at crowd
    rw [runGarbageCollectorL_crowd table now crowd] at completed
    cases completed
  · intro countable
    obtain ⟨torrentList', stats, completed, collected, _⟩ :=
      runGarbageCollectorL_spec table now countable
    exact ⟨torrentList', stats, completed, collected⟩

/-- Two torrents of which one has a peer that expires, and a third with nobody else. -/
def expiringSteps : List Step :=
  [sampleUdp 1 1 2 1000, sampleUdp 1 2 2 4000, sampleUdp 2 1 2 1000, sampleUdp 3 1 2 4500]

/-- A pass takes one peer of the first torrent and the whole of the second. -/
theorem runGarbageCollectorL_exact_expiring :
    ∃ torrentList before torrentList' stats after,
      Traced (Step.Takes plainHost) emptyTorrentList expiringSteps torrentList ∧
      (Rolls.Of before torrentList ∧ before.sample = [(some 3, ⟨0, 1, 0⟩, [(some 1, 4500)]),
        (some 2, ⟨0, 1, 0⟩, [(some 1, 1000)]),
        (some 1, ⟨0, 2, 0⟩, [(some 2, 4000), (some 1, 1000)])]) ∧
      runGarbageCollectorL torrentList 5000 = .ok (torrentList', stats) ∧
      CollectedTable (limitTimeOf 5000) torrentList torrentList' ∧
      Rolls.Of after torrentList' ∧ after.sample = [(some 3, ⟨0, 1, 0⟩, [(some 1, 4500)]),
        (some 1, ⟨0, 1, 0⟩, [(some 2, 4000)])] := by
  have few : expiringSteps.length < 2 ^ 32 := by decide
  obtain ⟨torrentList, traced, rolled⟩ := Rolls.exists_traced plainHost few
  have table := reached_inv traced.reached
  have within : (Rolls.after plainHost expiringSteps).Within 2 := by
    unfold Rolls.Within
    decide +kernel
  have countable := rolled.countable table within (by decide) (limitTimeOf 5000)
  obtain ⟨torrentList', stats, completed, collected⟩ :=
    (runGarbageCollectorL_exact table 5000).mpr countable
  refine ⟨torrentList, _, torrentList', stats, _, traced, ⟨rolled, ?_⟩, completed, collected,
    rolled.collect collected, ?_⟩
  · decide +kernel
  · decide +kernel

section Crowd

def crowdId (number : Nat) : ParamValue :=
  ⟨(List.range uriParamValueLength).map fun place => UInt8.ofNat (number / 256 ^ place), by simp⟩

theorem crowdId_injective {left right : Nat} (leftBound : left < 2 ^ 32)
    (rightBound : right < 2 ^ 32) (same : crowdId left = crowdId right) : left = right := by
  have digits : ∀ place, place < 20 → left / 256 ^ place % 256 = right / 256 ^ place % 256 := by
    intro place below
    have lists := congrArg Bytes.list same
    have heads := congrArg (fun list => (list.getD place 0).toNat) lists
    simpa [crowdId, uriParamValueLength, below] using heads
  have first := digits 0 (by decide)
  have second := digits 1 (by decide)
  have third := digits 2 (by decide)
  have fourth := digits 3 (by decide)
  omega

def crowdQuery (number : Nat) : Query := { Query.empty with peerId := crowdId number }

theorem crowd_exists (number : Nat) (bound : number ≤ 2 ^ 32) :
    ∃ peerList, PeersInv peerList ∧ peerList.pairs.length = number ∧
      (∀ peer ∈ peerList.pairs, peer.2.updateTime = 0) ∧
      ∀ other, number ≤ other → other < 2 ^ 32 → peerList.value (crowdId other).list = none := by
  induction number with
  | zero =>
      refine ⟨TorrentData.empty.peerList, emptyPeers_inv, ?_, ?_, ?_⟩
      · simp [TorrentData.empty]
      · simp [TorrentData.empty]
      · simp [TorrentData.empty]
  | succ number ih =>
      obtain ⟨peerList, peers, length, times, absent⟩ := ih (by omega)
      have next : peerList.value (crowdQuery number).peerId.list = none :=
        absent number (le_refl _) (by omega)
      obtain ⟨torrent, _, sound, _, _, update⟩ :=
        @setPeer_spec ⟨⟨0, 0, 0⟩, peerList⟩ peers (crowdQuery number) 1 0
      have values := update.value_eq peers.inv.linked sound.inv.linked
      obtain ⟨rest, old, new⟩ := update.split
      rw [next] at old new
      have oldRest : peerList.pairs.Perm rest := old
      refine ⟨torrent.peerList, sound, ?_, ?_, ?_⟩
      · have count := oldRest.length_eq
        rw [new.length_eq]
        simp only [Option.toList_some, List.map_cons, List.map_nil, List.cons_append,
          List.nil_append, List.length_cons]
        omega
      · intro peer member
        rcases List.mem_append.mp (new.mem_iff.mp member) with added | kept
        · simp only [Option.toList_some, List.map_cons, List.map_nil,
            List.mem_singleton] at added
          rw [added]
          rfl
        · exact times peer (oldRest.mem_iff.mpr kept)
      · intro other above below
        have differs : (crowdId other).list ≠ (crowdQuery number).peerId.list := by
          intro same
          have equal := crowdId_injective below (by omega) (Bytes.ext same)
          omega
        rw [values, Function.update_of_ne differs]
        exact absent other (by omega) below

/-- With `2 ^ 32` live peers in one torrent the pass ends the process. -/
theorem runGarbageCollectorL_leaves :
    ∃ torrentList torrentDataL, TableInv torrentList ∧
      torrentList.value Query.empty.infoHash.list = some torrentDataL ∧
      (survivors (limitTimeOf 0) torrentDataL).length = 2 ^ 32 ∧
      runGarbageCollectorL torrentList 0 = .error (.exit exitCodeListNotEmpty) := by
  have start := emptyTorrentList_inv
  obtain ⟨peerList, peers, length, times, _⟩ := crowd_exists (2 ^ 32) (le_refl _)
  obtain ⟨first, entry, _, table, frame, member, hashIs, _⟩ :=
    setTorrentL_spec start.table Query.empty.infoHash
  obtain ⟨second, _, table', frame', update, _⟩ :=
    @storeTorrent_spec first table entry member ⟨⟨0, 0, 0⟩, peerList⟩ peers
  have stored : second.value Query.empty.infoHash.list = some ⟨⟨0, 0, 0⟩, peerList⟩ := by
    rw [update.value_eq table.linked table'.linked, hashIs, Function.update_self]
  have inv : TableInv second :=
    ⟨start.inv.of_frame (frame.trans frame') table'.linked, table'⟩
  have everybody : survivors (limitTimeOf 0) ⟨⟨0, 0, 0⟩, peerList⟩ = peerList.pairs := by
    rw [survivors, List.filter_eq_self]
    intro peer inside
    simp [Alive, times peer inside, limitTimeOf, dataGarbageMaxAliveTime, intervalStepS]
  refine ⟨second, _, inv, stored, ?_, ?_⟩
  · rw [everybody, length]
  · apply runGarbageCollectorL_crowd inv
    refine ⟨_, (value_eq_some_iff table'.linked).mp stored, ?_⟩
    intro countable
    have nobody := countable (by rw [everybody, length, Nat.mod_self])
    rw [everybody] at nobody
    rw [nobody] at length
    cases length

end Crowd

end Etracker
