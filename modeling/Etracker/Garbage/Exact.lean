import Etracker.Data.Torrents
import Etracker.Garbage.Model

namespace Etracker

open Foundation Foundation.Outcome Foundation.Traversal

def Alive (limitTime : Int) (peer : Hash × PeerData) : Bool := limitTime ≤ peer.2.updateTime

def completedPeer (peer : Hash × PeerData) : Bool := peer.2.event = uriEventIdCompleted

def aliveEntry (limitTime : Int) (entry : Entry PeerData) : Bool :=
  match entryPair entry with
  | none => true
  | some peer => Alive limitTime peer

/-- One visit of `runGarbageCollectorCallbackCallback`, said of the entry. -/
def garbagePeerStep : EntryStep PeerData (GarbageStats × TorrentCounters)
  | entry, (stats, counters) =>
      match entry.2.data with
      | none => .error .dangling
      | some peerDataL =>
          if peerDataL.updateTime < stats.limitTime then
            .ok ⟨false, [], [peerDataL], (stats.seePeerLeaf entry.2.leaf).removePeer,
              removeFromCounters counters peerDataL.event⟩
          else .ok ⟨false, [entry], [], (stats.seePeerLeaf entry.2.leaf).keepPeer, counters⟩

theorem runGarbageCollectorCallbackCallback_implements :
    Implements runGarbageCollectorCallbackCallback garbagePeerStep := by
  rintro list leaf front back entry ⟨stats, counters⟩ linked split
  have member : entry ∈ list.leafEntries leaf := by simp [split]
  obtain ⟨stored, present, _, leafIs, dataIs⟩ := Represents.stored linked member
  have routed := (linked.routed leaf entry member).2.1
  simp only [runGarbageCollectorCallbackCallback, garbagePeerStep, HashList.dataOf, HashList.deref,
    present, pure_eq_ok, ok_bind, dataIs, routed]
  cases content : entry.2.data with
  | none => rfl
  | some peerDataL =>
      have limit : (stats.seePeerLeaf leaf).limitTime = stats.limitTime := rfl
      simp only [ok_bind, limit]
      by_cases old : peerDataL.updateTime < stats.limitTime
      · obtain ⟨list', deleted, rewritten, freed⟩ := deleteItem_eq linked split
        simp only [if_pos old, deleted, ok_bind]
        refine ⟨list', rfl, ?_, by simpa using rewritten⟩
        rw [freed, content]
        rfl
      · simp only [if_neg old]
        have unchanged := Rewritten.refl linked leaf
        rw [split] at unchanged
        exact ⟨list, rfl, by simp, by simpa using unchanged⟩

def countOf (test : Hash × PeerData → Bool) (peers : List (Hash × PeerData)) : UInt32 :=
  UInt32.ofNat (peers.countP test)

def collectCounters (limitTime : Int) (counters : TorrentCounters)
    (peers : List (Hash × PeerData)) : TorrentCounters where
  complete := counters.complete -
    countOf (fun peer => !Alive limitTime peer && completedPeer peer) peers
  incomplete := counters.incomplete -
    countOf (fun peer => !Alive limitTime peer && !completedPeer peer) peers
  downloaded := counters.downloaded

theorem ofNat_succ (count : Nat) : UInt32.ofNat (count + 1) = UInt32.ofNat count + 1 := by
  apply UInt32.toNat_inj.mp
  simp [UInt32.toNat_add]

theorem collectCounters_cons (limitTime : Int) (counters : TorrentCounters)
    (peer : Hash × PeerData) (rest : List (Hash × PeerData)) :
    collectCounters limitTime counters (peer :: rest) =
      collectCounters limitTime (if Alive limitTime peer = true then counters
        else removeFromCounters counters peer.2.event) rest := by
  have moved : ∀ counter count : UInt32, counter - (count + 1) = counter - 1 - count := by
    intro counter count
    grind
  cases alive : Alive limitTime peer with
  | true => simp [collectCounters, countOf, alive]
  | false =>
      by_cases completed : peer.2.event = uriEventIdCompleted
      · simp [collectCounters, countOf, alive, removeFromCounters, completedPeer, completed,
          ofNat_succ, moved]
      · simp [collectCounters, countOf, alive, removeFromCounters, completedPeer, completed,
          ofNat_succ, moved]

structure GarbageFigures where
  totalPeers : UInt32
  totalTorrents : UInt32
  totalTorrentsWithChangeLimit : UInt32
  maxPeersInOneTorrent : UInt32
  removedPeers : UInt32
  removedTorrents : UInt32

def GarbageStats.figures (stats : GarbageStats) : GarbageFigures where
  totalPeers := stats.totalPeers
  totalTorrents := stats.totalTorrents
  totalTorrentsWithChangeLimit := stats.totalTorrentsWithChangeLimit
  maxPeersInOneTorrent := stats.maxPeersInOneTorrent
  removedPeers := stats.removedPeers
  removedTorrents := stats.removedTorrents

namespace GarbageFigures

def countPeers (limitTime : Int) (figures : GarbageFigures) (peers : List (Hash × PeerData)) :
    GarbageFigures :=
  { figures with
    totalPeers := figures.totalPeers + countOf (Alive limitTime) peers
    removedPeers := figures.removedPeers + countOf (fun peer => !Alive limitTime peer) peers }

theorem countPeers_nil (limitTime : Int) (figures : GarbageFigures) :
    figures.countPeers limitTime [] = figures := by
  simp [countPeers, countOf]

theorem add_one_add (total count : UInt32) : total + 1 + count = total + (count + 1) := by grind

theorem countPeers_alive {limitTime : Int} {peer : Hash × PeerData}
    (alive : Alive limitTime peer = true) (figures : GarbageFigures)
    (rest : List (Hash × PeerData)) :
    figures.countPeers limitTime (peer :: rest) =
      countPeers limitTime { figures with totalPeers := figures.totalPeers + 1 } rest := by
  rw [countPeers, countPeers, countOf, countOf, List.countP_cons_of_pos alive,
    List.countP_cons_of_neg (by simp [alive]), ofNat_succ, ← add_one_add]
  rfl

theorem countPeers_dead {limitTime : Int} {peer : Hash × PeerData}
    (dead : Alive limitTime peer = false) (figures : GarbageFigures)
    (rest : List (Hash × PeerData)) :
    figures.countPeers limitTime (peer :: rest) =
      countPeers limitTime { figures with removedPeers := figures.removedPeers + 1 } rest := by
  rw [countPeers, countPeers, countOf, countOf, List.countP_cons_of_neg (by simp [dead]),
    List.countP_cons_of_pos (by simp [dead]), ofNat_succ, ← add_one_add]
  rfl

end GarbageFigures

theorem garbagePeerStep_traverse {entries : List (Entry PeerData)}
    (filled : ∀ entry ∈ entries, ∃ data, entry.2.data = some data) (stats : GarbageStats)
    (counters : TorrentCounters) :
    ∃ freed stats', traverse garbagePeerStep entries (stats, counters) =
        .ok ⟨false, entries.filter (aliveEntry stats.limitTime), freed, stats',
          collectCounters stats.limitTime counters (entries.filterMap entryPair)⟩ ∧
      stats'.limitTime = stats.limitTime ∧
      stats'.currentPeersInTorrent = stats.currentPeersInTorrent +
        countOf (Alive stats.limitTime) (entries.filterMap entryPair) ∧
      stats'.figures = stats.figures.countPeers stats.limitTime (entries.filterMap entryPair) := by
  induction entries generalizing stats counters with
  | nil =>
      refine ⟨[], stats, ?_, rfl, ?_, (GarbageFigures.countPeers_nil _ _).symm⟩
      · simp [Traversal.traverse, collectCounters, countOf]
      · simp [countOf]
  | cons entry rest ih =>
      obtain ⟨peerDataL, stored⟩ := filled entry (by simp)
      have pair : entryPair entry = some (entry.2.hash, peerDataL) := by simp [entryPair, stored]
      have kept : aliveEntry stats.limitTime entry =
          Alive stats.limitTime (entry.2.hash, peerDataL) := by simp [aliveEntry, pair]
      rw [Traversal.traverse, List.filterMap_cons_some pair, collectCounters_cons]
      -- The rest is visited with the figures and the counters that this visit leaves.
      by_cases old : peerDataL.updateTime < stats.limitTime
      · have dead : Alive stats.limitTime (entry.2.hash, peerDataL) = false := by
          simp only [Alive, decide_eq_false_iff_not]
          omega
        obtain ⟨freed, stats', run, limit, count, figures⟩ :=
          ih (fun other member => filled other (by simp [member]))
            (stats.seePeerLeaf entry.2.leaf).removePeer
            (removeFromCounters counters peerDataL.event)
        refine ⟨[peerDataL] ++ freed, stats', ?_, limit, ?_, ?_⟩
        · simp only [garbagePeerStep, stored, if_pos old, ok_bind]
          rw [andThen_continue rfl, run, List.filter_cons_of_neg (by simp [kept, dead])]
          simp only [dead, Bool.false_eq_true, if_false]
          rfl
        · rw [count, countOf, countOf, List.countP_cons_of_neg (by simp [dead])]
          rfl
        · rw [figures, GarbageFigures.countPeers_dead dead]
          rfl
      · have alive : Alive stats.limitTime (entry.2.hash, peerDataL) = true := by
          simp only [Alive, decide_eq_true_eq]
          omega
        obtain ⟨freed, stats', run, limit, count, figures⟩ :=
          ih (fun other member => filled other (by simp [member]))
            (stats.seePeerLeaf entry.2.leaf).keepPeer counters
        refine ⟨freed, stats', ?_, limit, ?_, ?_⟩
        · simp only [garbagePeerStep, stored, if_neg old, ok_bind]
          rw [andThen_continue rfl, run, List.filter_cons_of_pos (by simp [kept, alive])]
          simp only [alive, if_true]
          rfl
        · rw [count, countOf, countOf, List.countP_cons_of_pos alive, ofNat_succ]
          exact GarbageFigures.add_one_add _ _
        · rw [figures, GarbageFigures.countPeers_alive alive]
          rfl

structure Collected (limitTime : Int) (before after : TorrentData) : Prop where
  peers : PeersInv after.peerList
  header : after.peerList.toListHeader = before.peerList.toListHeader
  pairs : after.peerList.pairs = before.peerList.pairs.filter (Alive limitTime)
  counters : after.toTorrentCounters =
    collectCounters limitTime before.toTorrentCounters before.peerList.pairs

theorem Collected.value {limitTime : Int} {torrent torrent' : TorrentData}
    (peers : PeersInv torrent.peerList) (collected : Collected limitTime torrent torrent')
    (hash : Hash) :
    torrent'.peerList.value hash =
      (torrent.peerList.value hash).filter fun peer => limitTime ≤ peer.updateTime := by
  apply Option.ext
  intro peer
  rw [value_eq_some_iff collected.peers.inv.linked, collected.pairs, List.mem_filter,
    Option.filter_eq_some_iff, value_eq_some_iff peers.inv.linked]
  rfl

theorem filter_pairs (limitTime : Int) (entries : List (Entry PeerData)) :
    (entries.filter (aliveEntry limitTime)).filterMap entryPair =
      (entries.filterMap entryPair).filter (Alive limitTime) := by
  induction entries with
  | nil => rfl
  | cons entry rest ih =>
      cases pair : entryPair entry with
      | none =>
          have kept : aliveEntry limitTime entry = true := by simp [aliveEntry, pair]
          rw [List.filter_cons_of_pos kept, List.filterMap_cons_none pair,
            List.filterMap_cons_none pair, ih]
      | some peer =>
          have same : aliveEntry limitTime entry = Alive limitTime peer := by
            simp [aliveEntry, pair]
          rw [List.filterMap_cons_some pair]
          cases alive : Alive limitTime peer with
          | true =>
              rw [List.filter_cons_of_pos (by rw [same, alive]), List.filter_cons_of_pos alive,
                List.filterMap_cons_some pair, ih]
          | false =>
              rw [List.filter_cons_of_neg (by simp [same, alive]),
                List.filter_cons_of_neg (by simp [alive]), ih]

theorem collectPeers_spec {torrentDataL : TorrentData} (peers : PeersInv torrentDataL.peerList)
    (stats : GarbageStats) :
    ∃ peerList stats' counters, mapList torrentDataL.peerList
        (stats, torrentDataL.toTorrentCounters) runGarbageCollectorCallbackCallback =
        .ok (.listContinue, peerList, stats', counters) ∧
      Collected stats.limitTime torrentDataL ⟨counters, peerList⟩ ∧
      stats'.limitTime = stats.limitTime ∧
      stats'.currentPeersInTorrent = stats.currentPeersInTorrent +
        countOf (Alive stats.limitTime) torrentDataL.peerList.pairs ∧
      stats'.figures =
        stats.figures.countPeers stats.limitTime torrentDataL.peerList.pairs := by
  obtain ⟨freed, stats', run, limit, count, figures⟩ :=
    garbagePeerStep_traverse peers.filled stats torrentDataL.toTorrentCounters
  have simulated := mapList_simulates runGarbageCollectorCallbackCallback_implements peers.inv
    (stats, torrentDataL.toTorrentCounters)
  rw [run] at simulated
  obtain ⟨peerList, mapped, _, inv, frame, kept⟩ := simulated
  refine ⟨peerList, stats', _, mapped, ⟨⟨inv, ?_, ?_⟩, frame.header, ?_, rfl⟩, limit, count,
    figures⟩
  · rw [frame.header]
    exact peers.hashLength
  · intro entry member
    rw [kept] at member
    exact peers.filled entry (List.mem_filter.mp member).1
  · simp only [HashList.pairs, kept]
    exact filter_pairs stats.limitTime torrentDataL.peerList.entries

def garbageTorrentStep : EntryStep TorrentData GarbageStats := fun entry stats =>
  match entry.2.data with
  | none => .error .dangling
  | some torrentDataL => do
      let (_, peerList, stats, counters) ← mapList torrentDataL.peerList
        (stats.seeTorrent entry.2.leaf entry.1, torrentDataL.toTorrentCounters)
        runGarbageCollectorCallbackCallback
      if stats.currentPeersInTorrent = 0 then
        freeList peerList
        pure ⟨false, [], [⟨counters, peerList⟩], stats.removeTorrent⟩
      else
        pure ⟨false, [(entry.1, { entry.2 with data := some ⟨counters, peerList⟩ })], [],
          stats.keepTorrent⟩

theorem runGarbageCollectorCallback_implements :
    Implements runGarbageCollectorCallback garbageTorrentStep := by
  intro list leaf front back entry stats linked split
  have member : entry ∈ list.leafEntries leaf := by simp [split]
  obtain ⟨stored, present, _, leafIs, dataIs⟩ := Represents.stored linked member
  have routed := (linked.routed leaf entry member).2.1
  simp only [runGarbageCollectorCallback, garbageTorrentStep, HashList.dataOf, HashList.deref,
    present, pure_eq_ok, ok_bind, dataIs, routed]
  cases content : entry.2.data with
  | none => rfl
  | some torrentDataL =>
      simp only [ok_bind]
      cases mapped : mapList torrentDataL.peerList
          (stats.seeTorrent leaf entry.1, torrentDataL.toTorrentCounters)
          runGarbageCollectorCallbackCallback with
      | error fault => rfl
      | ok result =>
          obtain ⟨test, peerList, stats', counters⟩ := result
          obtain ⟨list', changed, rewritten, freed⟩ :=
            setData_eq linked split (some ⟨counters, peerList⟩)
          simp only [ok_bind, changed]
          by_cases nobody : stats'.currentPeersInTorrent = 0
          · simp only [if_pos nobody]
            cases emptied : freeList peerList with
            | error fault => rfl
            | ok done =>
                have split' : list'.leafEntries leaf =
                    front ++ (entry.1, { entry.2 with data := some ⟨counters, peerList⟩ }) :: back := by
                  rw [rewritten.leafEntries, Function.update_self]
                obtain ⟨list'', deleted, rewritten', freed'⟩ :=
                  deleteItem_eq rewritten.linked split'
                simp only [ok_bind, deleted]
                refine ⟨list'', rfl, ?_, by simpa using rewritten.trans rewritten'⟩
                simp [freed', freed]
          · simp only [if_neg nobody]
            exact ⟨list', rfl, by simp [freed], by simpa [routed] using rewritten⟩

def survivors (limitTime : Int) (torrentDataL : TorrentData) : List (Hash × PeerData) :=
  torrentDataL.peerList.pairs.filter (Alive limitTime)

/-- The 32-bit counter of the pass does not take a crowd for nobody. -/
def Countable (limitTime : Int) (torrentDataL : TorrentData) : Prop :=
  (survivors limitTime torrentDataL).length % 2 ^ 32 = 0 → survivors limitTime torrentDataL = []

theorem countable_of_short (limitTime : Int) {torrentDataL : TorrentData}
    (short : torrentDataL.peerList.pairs.length < 2 ^ 32) : Countable limitTime torrentDataL := by
  intro few
  have bounded := List.length_filter_le (Alive limitTime) torrentDataL.peerList.pairs
  rw [survivors, Nat.mod_eq_of_lt (by omega)] at few
  exact List.length_eq_zero_iff.mp few

inductive CollectedEntries (limitTime : Int) :
    List (Entry TorrentData) → List (Entry TorrentData) → Prop
  | nil : CollectedEntries limitTime [] []
  | drop {entry : Entry TorrentData} {torrentDataL : TorrentData}
      {rest kept : List (Entry TorrentData)} :
      entry.2.data = some torrentDataL → survivors limitTime torrentDataL = [] →
      CollectedEntries limitTime rest kept → CollectedEntries limitTime (entry :: rest) kept
  | keep {entry : Entry TorrentData} {before after : TorrentData}
      {rest kept : List (Entry TorrentData)} :
      entry.2.data = some before → survivors limitTime before ≠ [] →
      Collected limitTime before after → CollectedEntries limitTime rest kept →
      CollectedEntries limitTime (entry :: rest)
        ((entry.1, { entry.2 with data := some after }) :: kept)

theorem countOf_alive (limitTime : Int) (torrentDataL : TorrentData) :
    countOf (Alive limitTime) torrentDataL.peerList.pairs =
      UInt32.ofNat (survivors limitTime torrentDataL).length := by
  rw [countOf, survivors, List.countP_eq_length_filter]

/-- The counter of the pass is zero exactly for a multiple of `2 ^ 32` survivors. -/
theorem countOf_alive_eq_zero_iff (limitTime : Int) (torrentDataL : TorrentData) :
    countOf (Alive limitTime) torrentDataL.peerList.pairs = 0 ↔
      (survivors limitTime torrentDataL).length % 2 ^ 32 = 0 := by
  rw [countOf_alive, ← UInt32.toNat_inj]
  simp

def GarbageFigures.countTorrent (limitTime : Int) (figures : GarbageFigures)
    (torrentDataL : TorrentData) : GarbageFigures :=
  let figures := figures.countPeers limitTime torrentDataL.peerList.pairs
  let current := UInt32.ofNat (survivors limitTime torrentDataL).length
  if current = 0 then { figures with removedTorrents := figures.removedTorrents + 1 }
  else
    { figures with
      totalTorrents := figures.totalTorrents + 1
      maxPeersInOneTorrent :=
        if current > figures.maxPeersInOneTorrent then current else figures.maxPeersInOneTorrent
      totalTorrentsWithChangeLimit :=
        if current > dataStructurePeersForLevel0Limit then figures.totalTorrentsWithChangeLimit + 1
        else figures.totalTorrentsWithChangeLimit }

theorem countTorrent_removeTorrent {limitTime : Int} {torrentDataL : TorrentData}
    {stats : GarbageStats} {figures : GarbageFigures}
    (counted : stats.figures = figures.countPeers limitTime torrentDataL.peerList.pairs)
    (current : UInt32.ofNat (survivors limitTime torrentDataL).length = 0) :
    stats.removeTorrent.figures = figures.countTorrent limitTime torrentDataL := by
  simp only [GarbageFigures.countTorrent, if_pos current, ← counted]
  rfl

theorem countTorrent_keepTorrent {limitTime : Int} {torrentDataL : TorrentData}
    {stats : GarbageStats} {figures : GarbageFigures}
    (counted : stats.figures = figures.countPeers limitTime torrentDataL.peerList.pairs)
    (current : stats.currentPeersInTorrent =
      UInt32.ofNat (survivors limitTime torrentDataL).length)
    (somebody : stats.currentPeersInTorrent ≠ 0) :
    stats.keepTorrent.figures = figures.countTorrent limitTime torrentDataL := by
  simp only [GarbageFigures.countTorrent, ← current, if_neg somebody, ← counted]
  rfl

theorem garbageTorrentStep_spec {limitTime : Int} {entry : Entry TorrentData}
    {torrentDataL : TorrentData} (stored : entry.2.data = some torrentDataL)
    (peers : PeersInv torrentDataL.peerList) (countable : Countable limitTime torrentDataL)
    (stats : GarbageStats) (limit : stats.limitTime = limitTime) :
    ∃ visit, garbageTorrentStep entry stats = .ok visit ∧ visit.stop = false ∧
      visit.state.limitTime = limitTime ∧
      visit.state.figures = stats.figures.countTorrent limitTime torrentDataL ∧
      (survivors limitTime torrentDataL = [] ∧ visit.kept = [] ∨
        survivors limitTime torrentDataL ≠ [] ∧ ∃ after, Collected limitTime torrentDataL after ∧
          visit.kept = [(entry.1, { entry.2 with data := some after })]) := by
  obtain ⟨peerList, stats', counters, mapped, collected, limit', count, figures⟩ :=
    collectPeers_spec peers (stats.seeTorrent entry.2.leaf entry.1)
  have seen : (stats.seeTorrent entry.2.leaf entry.1).limitTime = limitTime := limit
  have zero : (stats.seeTorrent entry.2.leaf entry.1).currentPeersInTorrent = 0 := rfl
  rw [seen] at collected limit' count figures
  rw [zero, UInt32.zero_add, countOf_alive] at count
  simp only [garbageTorrentStep, stored, mapped, ok_bind]
  by_cases nobody : stats'.currentPeersInTorrent = 0
  · have none : survivors limitTime torrentDataL = [] := by
      rw [count, ← countOf_alive, countOf_alive_eq_zero_iff] at nobody
      exact countable nobody
    have empty : peerList.entries = [] := by
      have length := pairs_length collected.peers.filled
      have noPairs : peerList.pairs = [] := collected.pairs.trans none
      rw [noPairs] at length
      exact List.length_eq_zero_iff.mp length.symm
    have freed : freeList peerList = .ok () := by
      rw [freeList_eq collected.peers.inv]
      exact if_pos empty
    simp only [if_pos nobody, freed, ok_bind, pure_eq_ok]
    exact ⟨_, rfl, rfl, limit', countTorrent_removeTorrent figures (count ▸ nobody),
      Or.inl ⟨none, rfl⟩⟩
  · have somebody : survivors limitTime torrentDataL ≠ [] := by
      intro none
      apply nobody
      rw [count, none]
      rfl
    simp only [if_neg nobody, pure_eq_ok]
    exact ⟨_, rfl, rfl, limit', countTorrent_keepTorrent figures count nobody,
      Or.inr ⟨somebody, _, collected, rfl⟩⟩

theorem garbageTorrentStep_traverse {limitTime : Int} {entries : List (Entry TorrentData)}
    (sound : ∀ entry ∈ entries, ∃ torrentDataL, entry.2.data = some torrentDataL ∧
      PeersInv torrentDataL.peerList ∧ Countable limitTime torrentDataL)
    (stats : GarbageStats) (limit : stats.limitTime = limitTime) :
    ∃ visit, traverse garbageTorrentStep entries stats = .ok visit ∧ visit.stop = false ∧
      visit.state.figures = ((entries.filterMap entryPair).map Prod.snd).foldl
        (GarbageFigures.countTorrent limitTime) stats.figures ∧
      CollectedEntries limitTime entries visit.kept := by
  induction entries generalizing stats with
  | nil => exact ⟨_, rfl, rfl, rfl, CollectedEntries.nil⟩
  | cons entry rest ih =>
      obtain ⟨torrentDataL, stored, peers, countable⟩ := sound entry (by simp)
      obtain ⟨first, step, continued, limit', figures, result⟩ :=
        garbageTorrentStep_spec stored peers countable stats limit
      obtain ⟨second, run, stop, total, collected⟩ :=
        ih (fun other member => sound other (by simp [member])) first.state limit'
      have pair : entryPair entry = some (entry.2.hash, torrentDataL) := by
        simp [entryPair, stored]
      rw [Traversal.traverse, step, ok_bind, andThen_continue continued, run,
        List.filterMap_cons_some pair, List.map_cons, List.foldl_cons, ← figures]
      refine ⟨_, rfl, stop, total, ?_⟩
      rcases result with ⟨nobody, kept⟩ | ⟨somebody, after, changed, kept⟩
      · show CollectedEntries limitTime (entry :: rest) (first.kept ++ second.kept)
        rw [kept]
        exact CollectedEntries.drop stored nobody collected
      · show CollectedEntries limitTime (entry :: rest) (first.kept ++ second.kept)
        rw [kept]
        exact CollectedEntries.keep stored somebody changed collected

namespace CollectedEntries

variable {limitTime : Int} {entries kept : List (Entry TorrentData)}

theorem filled (collected : CollectedEntries limitTime entries kept) :
    ∀ entry ∈ kept, ∃ data, entry.2.data = some data := by
  induction collected with
  | nil => simp
  | drop _ _ _ ih => exact ih
  | keep _ _ _ _ ih =>
      intro entry member
      rcases List.mem_cons.mp member with rfl | later
      · exact ⟨_, rfl⟩
      · exact ih entry later

theorem of_mem_kept (collected : CollectedEntries limitTime entries kept) {hash : Hash}
    {after : TorrentData} (member : (hash, after) ∈ kept.filterMap entryPair) :
    ∃ before, (hash, before) ∈ entries.filterMap entryPair ∧
      survivors limitTime before ≠ [] ∧ Collected limitTime before after := by
  induction collected with
  | nil => simp at member
  | drop stored _ _ ih =>
      obtain ⟨before, inside, facts⟩ := ih member
      rw [List.filterMap_cons_some (by simp [entryPair, stored]; rfl)]
      exact ⟨before, List.mem_cons_of_mem _ inside, facts⟩
  | keep stored somebody changed _ ih =>
      rw [List.filterMap_cons_some (by simp [entryPair, stored]; rfl)]
      rw [List.filterMap_cons_some (by simp [entryPair]; rfl)] at member
      rcases List.mem_cons.mp member with same | later
      · cases same
        exact ⟨_, List.mem_cons_self, somebody, changed⟩
      · obtain ⟨before, inside, facts⟩ := ih later
        exact ⟨before, List.mem_cons_of_mem _ inside, facts⟩

theorem mem_kept (collected : CollectedEntries limitTime entries kept) {hash : Hash}
    {before : TorrentData} (member : (hash, before) ∈ entries.filterMap entryPair)
    (somebody : survivors limitTime before ≠ []) :
    ∃ after, (hash, after) ∈ kept.filterMap entryPair ∧ Collected limitTime before after := by
  induction collected with
  | nil => simp at member
  | drop stored nobody _ ih =>
      rw [List.filterMap_cons_some (by simp [entryPair, stored]; rfl)] at member
      rcases List.mem_cons.mp member with same | later
      · cases same
        exact absurd nobody somebody
      · exact ih later
  | keep stored _ changed _ ih =>
      rw [List.filterMap_cons_some (by simp [entryPair, stored]; rfl)] at member
      rw [List.filterMap_cons_some (by simp [entryPair]; rfl)]
      rcases List.mem_cons.mp member with same | later
      · cases same
        exact ⟨_, List.mem_cons_self, changed⟩
      · obtain ⟨after, inside, facts⟩ := ih later
        exact ⟨after, List.mem_cons_of_mem _ inside, facts⟩

end CollectedEntries

/-- The table after a pass: exactly the torrents with survivors, each with exactly its
survivors and with counters reduced by the peers that went. -/
structure CollectedTable (limitTime : Int) (before after : TorrentList) : Prop where
  table : TableInv after
  header : after.toListHeader = before.toListHeader
  absent : ∀ hash, before.value hash = none → after.value hash = none
  dropped : ∀ hash torrent, before.value hash = some torrent →
    survivors limitTime torrent = [] → after.value hash = none
  kept : ∀ hash torrent, before.value hash = some torrent →
    survivors limitTime torrent ≠ [] →
      ∃ torrent', after.value hash = some torrent' ∧ Collected limitTime torrent torrent'

theorem runGarbageCollectorL_spec {torrentList : TorrentList} (table : TableInv torrentList)
    (now : Int) (countable : ∀ pair ∈ torrentList.pairs, Countable (limitTimeOf now) pair.2) :
    ∃ torrentList' stats, runGarbageCollectorL torrentList now = .ok (torrentList', stats) ∧
      CollectedTable (limitTimeOf now) torrentList torrentList' ∧
      CollectedEntries (limitTimeOf now) torrentList.entries torrentList'.entries ∧
      stats.figures = (torrentList.pairs.map Prod.snd).foldl
        (GarbageFigures.countTorrent (limitTimeOf now)) ⟨0, 0, 0, 0, 0, 0⟩ := by
  have linked := table.inv.linked
  have sound : ∀ entry ∈ torrentList.entries, ∃ torrentDataL,
      entry.2.data = some torrentDataL ∧ PeersInv torrentDataL.peerList ∧
        Countable (limitTimeOf now) torrentDataL := by
    intro entry member
    obtain ⟨torrentDataL, stored⟩ := table.table.filled entry member
    have inside : (entry.2.hash, torrentDataL) ∈ torrentList.pairs :=
      List.mem_filterMap.mpr ⟨entry, member, by simp [entryPair, stored]⟩
    exact ⟨torrentDataL, stored, table.table.torrents _ inside, countable _ inside⟩
  obtain ⟨visit, run, continued, figures, collected⟩ :=
    garbageTorrentStep_traverse sound (GarbageStats.start (limitTimeOf now)) rfl
  have simulated := mapList_simulates runGarbageCollectorCallback_implements table.inv
    (GarbageStats.start (limitTimeOf now))
  rw [run] at simulated
  obtain ⟨torrentList', mapped, _, inv, frame, kept⟩ := simulated
  rw [← kept] at collected
  have origin : ∀ hash after, torrentList'.value hash = some after →
      ∃ before, torrentList.value hash = some before ∧
        survivors (limitTimeOf now) before ≠ [] ∧ Collected (limitTimeOf now) before after := by
    intro hash after present
    obtain ⟨before, inside, facts⟩ :=
      collected.of_mem_kept ((value_eq_some_iff inv.linked).mp present)
    exact ⟨before, (value_eq_some_iff linked).mpr inside, facts⟩
  refine ⟨torrentList', visit.state, ?_, ⟨⟨inv, inv.linked, ?_, collected.filled, ?_⟩,
    frame.header, ?_, ?_, ?_⟩, collected, figures⟩
  · simp [runGarbageCollectorL, mapped]
  · rw [frame.header]
    exact table.table.hashLength
  · rintro ⟨hash, after⟩ member
    obtain ⟨before, _, _, changed⟩ := collected.of_mem_kept member
    exact changed.peers
  · intro hash missing
    cases present : torrentList'.value hash with
    | none => rfl
    | some after =>
        obtain ⟨before, found, _⟩ := origin hash after present
        rw [missing] at found
        cases found
  · intro hash torrent found nobody
    cases present : torrentList'.value hash with
    | none => rfl
    | some after =>
        obtain ⟨before, found', somebody, _⟩ := origin hash after present
        rw [found] at found'
        cases found'
        exact absurd nobody somebody
  · intro hash torrent found somebody
    obtain ⟨after, inside, changed⟩ :=
      collected.mem_kept ((value_eq_some_iff linked).mp found) somebody
    exact ⟨after, (value_eq_some_iff inv.linked).mpr inside, changed⟩

/-- A crowd that the 32-bit counter takes for nobody makes `freeList` leave the process. -/
theorem garbageTorrentStep_crowd {limitTime : Int} {entry : Entry TorrentData}
    {torrentDataL : TorrentData} (stored : entry.2.data = some torrentDataL)
    (peers : PeersInv torrentDataL.peerList) (crowd : ¬ Countable limitTime torrentDataL)
    (stats : GarbageStats) (limit : stats.limitTime = limitTime) :
    garbageTorrentStep entry stats = .error (.exit exitCodeListNotEmpty) := by
  obtain ⟨peerList, stats', counters, mapped, collected, _, count, _⟩ :=
    collectPeers_spec peers (stats.seeTorrent entry.2.leaf entry.1)
  have seen : (stats.seeTorrent entry.2.leaf entry.1).limitTime = limitTime := limit
  have zero : (stats.seeTorrent entry.2.leaf entry.1).currentPeersInTorrent = 0 := rfl
  rw [seen] at collected count
  rw [zero, UInt32.zero_add] at count
  unfold Countable at crowd
  push Not at crowd
  obtain ⟨wrapped, somebody⟩ := crowd
  have nobody : stats'.currentPeersInTorrent = 0 := by
    rw [count, countOf_alive_eq_zero_iff]
    exact wrapped
  have occupied : peerList.entries ≠ [] := by
    intro empty
    apply somebody
    rw [survivors, ← collected.pairs, HashList.pairs]
    exact congrArg (List.filterMap entryPair) empty
  have failed : freeList peerList = .error (.exit exitCodeListNotEmpty) := by
    rw [freeList_eq collected.peers.inv]
    exact if_neg occupied
  simp only [garbageTorrentStep, stored, mapped, ok_bind, if_pos nobody, failed]
  rfl

theorem garbageTorrentStep_traverse_crowd {limitTime : Int} {entries : List (Entry TorrentData)}
    (sound : ∀ entry ∈ entries, ∃ torrentDataL, entry.2.data = some torrentDataL ∧
      PeersInv torrentDataL.peerList)
    (crowd : ∃ entry ∈ entries, ∃ torrentDataL, entry.2.data = some torrentDataL ∧
      ¬ Countable limitTime torrentDataL)
    (stats : GarbageStats) (limit : stats.limitTime = limitTime) :
    traverse garbageTorrentStep entries stats = .error (.exit exitCodeListNotEmpty) := by
  induction entries generalizing stats with
  | nil =>
      obtain ⟨entry, member, _⟩ := crowd
      cases member
  | cons entry rest ih =>
      obtain ⟨torrentDataL, stored, peers⟩ := sound entry (by simp)
      rw [Traversal.traverse]
      by_cases countable : Countable limitTime torrentDataL
      · obtain ⟨first, step, continued, limit', _⟩ :=
          garbageTorrentStep_spec stored peers countable stats limit
        have later : ∃ other ∈ rest, ∃ torrentDataL, other.2.data = some torrentDataL ∧
            ¬ Countable limitTime torrentDataL := by
          obtain ⟨other, member, torrentDataL', stored', crowded⟩ := crowd
          rcases List.mem_cons.mp member with rfl | later
          · rw [stored] at stored'
            cases stored'
            exact absurd countable crowded
          · exact ⟨other, later, torrentDataL', stored', crowded⟩
        rw [step, ok_bind, andThen_continue continued,
          ih (fun other member => sound other (by simp [member])) later first.state limit']
        rfl
      · rw [garbageTorrentStep_crowd stored peers countable stats limit]
        rfl

/-- The pass returns exactly if it can count the survivors of every torrent. -/
theorem runGarbageCollectorL_crowd {torrentList : TorrentList} (table : TableInv torrentList)
    (now : Int) (crowd : ∃ pair ∈ torrentList.pairs, ¬ Countable (limitTimeOf now) pair.2) :
    runGarbageCollectorL torrentList now = .error (.exit exitCodeListNotEmpty) := by
  have sound : ∀ entry ∈ torrentList.entries, ∃ torrentDataL,
      entry.2.data = some torrentDataL ∧ PeersInv torrentDataL.peerList := by
    intro entry member
    obtain ⟨torrentDataL, stored⟩ := table.table.filled entry member
    have inside : (entry.2.hash, torrentDataL) ∈ torrentList.pairs :=
      List.mem_filterMap.mpr ⟨entry, member, by simp [entryPair, stored]⟩
    exact ⟨torrentDataL, stored, table.table.torrents _ inside⟩
  obtain ⟨⟨hash, torrentDataL⟩, inside, crowded⟩ := crowd
  obtain ⟨entry, member, pair⟩ := List.mem_filterMap.mp inside
  have failed := garbageTorrentStep_traverse_crowd sound
    ⟨entry, member, torrentDataL, (entryPair_eq_some_iff.mp pair).2, crowded⟩
    (GarbageStats.start (limitTimeOf now)) rfl
  have simulated := mapList_simulates runGarbageCollectorCallback_implements table.inv
    (GarbageStats.start (limitTimeOf now))
  rw [failed] at simulated
  have mapped : mapList torrentList (GarbageStats.start (limitTimeOf now))
      runGarbageCollectorCallback = .error (.exit exitCodeListNotEmpty) := simulated
  simp only [runGarbageCollectorL, mapped]
  rfl

theorem runGarbageCollectorL_ok {torrentList torrentList' : TorrentList} {stats : GarbageStats}
    (table : TableInv torrentList) {now : Int}
    (completed : runGarbageCollectorL torrentList now = .ok (torrentList', stats)) :
    CollectedTable (limitTimeOf now) torrentList torrentList' := by
  by_cases countable : ∀ pair ∈ torrentList.pairs, Countable (limitTimeOf now) pair.2
  · obtain ⟨reached, stats', completed', collected, _⟩ :=
      runGarbageCollectorL_spec table now countable
    rw [completed] at completed'
    cases completed'
    exact collected
  · push Not at countable
    rw [runGarbageCollectorL_crowd table now countable] at completed
    cases completed

end Etracker
