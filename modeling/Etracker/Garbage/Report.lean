import Etracker.Foundation.Tally
import Etracker.Tracker.Levels
import Etracker.Tracker.Rolls

namespace Etracker

open Foundation Foundation.Tally Foundation.Runs

def peersIn (torrentList : TorrentList) : Nat :=
  (torrentList.pairs.map fun pair => pair.2.peerList.pairs.length).sum

/-- The figures mean what the legend says. -/
structure Truthful (before after : TorrentList) (stats : GarbageStats) : Prop where
  totalPeers : stats.totalPeers.toNat = peersIn after
  totalTorrents : stats.totalTorrents.toNat = after.pairs.length
  totalTorrentsWithChangeLimit : stats.totalTorrentsWithChangeLimit.toNat =
    after.pairs.countP fun pair => 0 < pair.2.peerList.level
  maxPeersInOneTorrent : stats.maxPeersInOneTorrent.toNat =
    largest (after.pairs.map fun pair => pair.2.peerList.pairs.length)
  removedPeers : stats.removedPeers.toNat + peersIn after = peersIn before
  removedTorrents : stats.removedTorrents.toNat + after.pairs.length = before.pairs.length

def expired (limitTime : Int) (torrentDataL : TorrentData) : Nat :=
  torrentDataL.peerList.pairs.countP fun peer => !Alive limitTime peer

def overfull (limitTime : Int) (torrentDataL : TorrentData) : Bool :=
  dataStructurePeersForLevel0Limit.toNat < (survivors limitTime torrentDataL).length ∧
    torrentDataL.peerList.level = 0

def shrunken (limitTime : Int) (torrentDataL : TorrentData) : Bool :=
  (survivors limitTime torrentDataL).length ≠ 0 ∧
    (survivors limitTime torrentDataL).length ≤ dataStructurePeersForLevel0Limit.toNat ∧
    0 < torrentDataL.peerList.level

/-- The counters of the pass do not wrap, and as many torrents are overfull as shrunken. -/
structure Reportable (limitTime : Int) (torrents : List TorrentData) : Prop where
  peersLeft : (torrents.map fun torrent => (survivors limitTime torrent).length).sum < 2 ^ 32
  peersRemoved : (torrents.map (expired limitTime)).sum < 2 ^ 32
  torrentsRemoved :
    (torrents.countP fun torrent => (survivors limitTime torrent).length = 0) < 2 ^ 32
  expanded : torrents.countP (overfull limitTime) = torrents.countP (shrunken limitTime)

/-- What the visit to a torrent with `left` survivors and `gone` other peers does to the figures. -/
structure Visited (left gone : Nat) (before after : GarbageFigures) : Prop where
  removedPeers : after.removedPeers = before.removedPeers + UInt32.ofNat gone
  removedTorrents : after.removedTorrents =
    before.removedTorrents + UInt32.ofNat (if left = 0 then 1 else 0)
  totalTorrents : after.totalTorrents =
    before.totalTorrents + UInt32.ofNat (if left ≠ 0 then 1 else 0)
  maxPeersInOneTorrent :
    after.maxPeersInOneTorrent.toNat = max before.maxPeersInOneTorrent.toNat left
  totalTorrentsWithChangeLimit : after.totalTorrentsWithChangeLimit =
    before.totalTorrentsWithChangeLimit +
      UInt32.ofNat (if dataStructurePeersForLevel0Limit.toNat < left then 1 else 0)

theorem countTorrent_totalPeers (limitTime : Int) (figures : GarbageFigures)
    (torrent : TorrentData) : (figures.countTorrent limitTime torrent).totalPeers =
      figures.totalPeers + UInt32.ofNat (survivors limitTime torrent).length := by
  rw [← countOf_alive]
  unfold GarbageFigures.countTorrent
  by_cases nobody : UInt32.ofNat (survivors limitTime torrent).length = 0
  · simp only [if_pos nobody]
    rfl
  · simp only [if_neg nobody]
    rfl

theorem countTorrent_visited {limitTime : Int} {torrent : TorrentData}
    (small : (survivors limitTime torrent).length < 2 ^ 32) (figures : GarbageFigures) :
    Visited (survivors limitTime torrent).length (expired limitTime torrent) figures
      (figures.countTorrent limitTime torrent) := by
  have exact' := (toNat_ofNat_eq_iff _).mpr small
  unfold GarbageFigures.countTorrent
  generalize (survivors limitTime torrent).length = left at exact'
  by_cases nobody : left = 0
  · subst nobody
    exact ⟨rfl, rfl, (UInt32.add_zero _).symm, (Nat.max_zero _).symm, (UInt32.add_zero _).symm⟩
  · have somebody : UInt32.ofNat left ≠ 0 := by
      intro zero
      rw [zero] at exact'
      exact nobody exact'.symm
    simp only [if_neg somebody]
    constructor
    · rfl
    · rw [if_neg nobody]
      exact (UInt32.add_zero _).symm
    · rw [if_pos nobody]
      rfl
    · show UInt32.toNat (if UInt32.ofNat left > figures.maxPeersInOneTorrent then _ else _) = _
      have compared : UInt32.ofNat left > figures.maxPeersInOneTorrent ↔
          figures.maxPeersInOneTorrent.toNat < left := by
        rw [gt_iff_lt, UInt32.lt_iff_toNat_lt, exact']
      by_cases more : figures.maxPeersInOneTorrent.toNat < left
      · rw [if_pos (compared.mpr more), exact', Nat.max_eq_right (Nat.le_of_lt more)]
      · rw [if_neg (mt compared.mp more), Nat.max_eq_left (Nat.le_of_not_lt more)]
        rfl
    · have compared : UInt32.ofNat left > dataStructurePeersForLevel0Limit ↔
          dataStructurePeersForLevel0Limit.toNat < left := by
        rw [gt_iff_lt, UInt32.lt_iff_toNat_lt, exact']
      simp only [compared]
      split_ifs
      · rfl
      · exact (UInt32.add_zero _).symm

def counted (limitTime : Int) (torrents : List TorrentData) : GarbageFigures :=
  torrents.foldl (GarbageFigures.countTorrent limitTime) ⟨0, 0, 0, 0, 0, 0⟩

theorem counted_totalPeers (limitTime : Int) (torrents : List TorrentData) :
    (counted limitTime torrents).totalPeers =
      UInt32.ofNat (torrents.map fun torrent => (survivors limitTime torrent).length).sum := by
  rw [counted, foldl_add GarbageFigures.totalPeers _
    fun figures torrent _ => countTorrent_totalPeers limitTime figures torrent]
  exact UInt32.zero_add _

structure Told (limitTime : Int) (torrents : List TorrentData) (figures : GarbageFigures) : Prop where
  removedPeers : figures.removedPeers = UInt32.ofNat (torrents.map (expired limitTime)).sum
  removedTorrents : figures.removedTorrents =
    UInt32.ofNat (torrents.countP fun torrent => (survivors limitTime torrent).length = 0)
  totalTorrents : figures.totalTorrents =
    UInt32.ofNat (torrents.countP fun torrent => (survivors limitTime torrent).length ≠ 0)
  maxPeersInOneTorrent : figures.maxPeersInOneTorrent.toNat =
    largest (torrents.map fun torrent => (survivors limitTime torrent).length)
  totalTorrentsWithChangeLimit : figures.totalTorrentsWithChangeLimit =
    UInt32.ofNat (torrents.countP fun torrent =>
      dataStructurePeersForLevel0Limit.toNat < (survivors limitTime torrent).length)

theorem counted_told {limitTime : Int} {torrents : List TorrentData}
    (small : (torrents.map fun torrent => (survivors limitTime torrent).length).sum < 2 ^ 32) :
    Told limitTime torrents (counted limitTime torrents) := by
  have visited : ∀ figures : GarbageFigures, ∀ torrent ∈ torrents,
      Visited (survivors limitTime torrent).length (expired limitTime torrent) figures
        (figures.countTorrent limitTime torrent) := by
    intro figures torrent member
    have most := @le_sum_of_mem _ (fun torrent => (survivors limitTime torrent).length) _ _ member
    exact countTorrent_visited (Nat.lt_of_le_of_lt most small) figures
  constructor
  case removedPeers =>
    rw [counted, foldl_add GarbageFigures.removedPeers _
      fun figures torrent member => (visited figures torrent member).removedPeers]
    exact UInt32.zero_add _
  case removedTorrents =>
    rw [counted, foldl_add GarbageFigures.removedTorrents _
      fun figures torrent member => (visited figures torrent member).removedTorrents,
      ← sum_indicator]
    simp
  case totalTorrents =>
    rw [counted, foldl_add GarbageFigures.totalTorrents _
      fun figures torrent member => (visited figures torrent member).totalTorrents,
      ← sum_indicator]
    simp
  case maxPeersInOneTorrent =>
    rw [counted, foldl_largest GarbageFigures.maxPeersInOneTorrent _
      fun figures torrent member => (visited figures torrent member).maxPeersInOneTorrent]
    exact Nat.zero_max _
  case totalTorrentsWithChangeLimit =>
    rw [counted, foldl_add GarbageFigures.totalTorrentsWithChangeLimit _
      fun figures torrent member => (visited figures torrent member).totalTorrentsWithChangeLimit,
      ← sum_indicator]
    simp

def torrentsOf (torrentList : TorrentList) : List TorrentData := torrentList.pairs.map Prod.snd

def remaining (limitTime : Int) (torrents : List TorrentData) : List TorrentData :=
  torrents.filter fun torrent => (survivors limitTime torrent).length ≠ 0

theorem CollectedEntries.remaining {limitTime : Int} {entries kept : List (Entry TorrentData)}
    (collected : CollectedEntries limitTime entries kept) :
    ((kept.filterMap entryPair).map Prod.snd).map
        (fun torrent => (torrent.peerList.pairs.length, torrent.peerList.level)) =
      (Etracker.remaining limitTime ((entries.filterMap entryPair).map Prod.snd)).map
        fun torrent => ((survivors limitTime torrent).length, torrent.peerList.level) := by
  induction collected with
  | nil => rfl
  | drop stored nobody _ ih =>
      rw [List.filterMap_cons_some (by simp [entryPair, stored]; rfl), List.map_cons,
        Etracker.remaining, List.filter_cons_of_neg (by simp [nobody]), ih]
      rfl
  | keep stored somebody changed _ ih =>
      rw [List.filterMap_cons_some (by simp [entryPair]; rfl),
        List.filterMap_cons_some (by simp [entryPair, stored]; rfl), List.map_cons, List.map_cons,
        List.map_cons, Etracker.remaining, List.filter_cons_of_pos (by simpa using somebody),
        List.map_cons, ih, changed.pairs, congrArg ListHeader.level changed.header]
      rfl

section Left

variable {limitTime : Int} {before after : TorrentList}
  (same : (torrentsOf after).map
      (fun torrent => (torrent.peerList.pairs.length, torrent.peerList.level)) =
    (remaining limitTime (torrentsOf before)).map
      fun torrent => ((survivors limitTime torrent).length, torrent.peerList.level))

theorem pairs_map_snd {Result : Type} (torrentList : TorrentList) (field : TorrentData → Result) :
    (torrentList.pairs.map fun pair => field pair.2) = (torrentsOf torrentList).map field := by
  rw [torrentsOf, List.map_map]
  rfl

include same

theorem lengths_left : (torrentsOf after).map (fun torrent => torrent.peerList.pairs.length) =
    (remaining limitTime (torrentsOf before)).map
      fun torrent => (survivors limitTime torrent).length := by
  have firsts := congrArg (List.map Prod.fst) same
  rw [List.map_map, List.map_map] at firsts
  exact firsts

theorem peersIn_left : peersIn after =
    ((torrentsOf before).map fun torrent => (survivors limitTime torrent).length).sum := by
  rw [peersIn, pairs_map_snd after fun torrent => torrent.peerList.pairs.length, lengths_left same,
    remaining, sum_filter]
  intro torrent _ nobody
  simpa using nobody

theorem largest_left : largest (after.pairs.map fun pair => pair.2.peerList.pairs.length) =
    largest ((torrentsOf before).map fun torrent => (survivors limitTime torrent).length) := by
  rw [pairs_map_snd after fun torrent => torrent.peerList.pairs.length, lengths_left same,
    remaining, largest_filter]
  intro torrent _ nobody
  simpa using nobody

theorem length_left : after.pairs.length =
    (torrentsOf before).countP fun torrent => (survivors limitTime torrent).length ≠ 0 := by
  have lengths := congrArg List.length same
  rw [List.length_map, List.length_map, torrentsOf, List.length_map, remaining,
    ← List.countP_eq_length_filter] at lengths
  exact lengths

theorem expanded_left : (after.pairs.countP fun pair => 0 < pair.2.peerList.level) =
    (torrentsOf before).countP fun torrent =>
      (survivors limitTime torrent).length ≠ 0 ∧ 0 < torrent.peerList.level := by
  have levels := congrArg (List.countP fun figures : Nat × Nat => 0 < figures.2) same
  rw [List.countP_map, List.countP_map, torrentsOf, List.countP_map, remaining,
    List.countP_filter] at levels
  refine Eq.trans levels (List.countP_congr ?_)
  intro torrent _
  simp [and_comm]

end Left

theorem peersIn_eq (limitTime : Int) (torrentList : TorrentList) : peersIn torrentList =
    ((torrentsOf torrentList).map fun torrent => (survivors limitTime torrent).length).sum +
      ((torrentsOf torrentList).map (expired limitTime)).sum := by
  rw [peersIn, pairs_map_snd torrentList fun torrent => torrent.peerList.pairs.length,
    ← List.sum_map_add]
  refine congrArg List.sum (List.map_congr_left ?_)
  intro torrent _
  rw [survivors, expired, ← List.countP_eq_length_filter]
  have split := @List.length_eq_countP_add_countP _ (Alive limitTime) torrent.peerList.pairs
  simpa using split

theorem length_eq (limitTime : Int) (torrentList : TorrentList) : torrentList.pairs.length =
    ((torrentsOf torrentList).countP fun torrent => (survivors limitTime torrent).length = 0) +
      (torrentsOf torrentList).countP fun torrent =>
        (survivors limitTime torrent).length ≠ 0 := by
  have length : torrentList.pairs.length = (torrentsOf torrentList).length :=
    (List.length_map _).symm
  rw [length,
    List.length_eq_countP_add_countP fun torrent => (survivors limitTime torrent).length = 0]
  simp

/-- The crowds of a pass are as many as its expanded lists exactly if as many torrents are
overfull as shrunken. -/
theorem crowds_eq_expanded_iff (limitTime : Int) (torrents : List TorrentData) :
    (torrents.countP fun torrent =>
        dataStructurePeersForLevel0Limit.toNat < (survivors limitTime torrent).length) =
      (torrents.countP fun torrent =>
        (survivors limitTime torrent).length ≠ 0 ∧ 0 < torrent.peerList.level) ↔
      torrents.countP (overfull limitTime) = torrents.countP (shrunken limitTime) := by
  rw [countP_split _ fun torrent => torrent.peerList.level = 0,
    countP_split (fun torrent => (survivors limitTime torrent).length ≠ 0 ∧
      0 < torrent.peerList.level) fun torrent =>
        (survivors limitTime torrent).length ≤ dataStructurePeersForLevel0Limit.toNat]
  have left : ∀ torrent ∈ torrents,
      (decide (dataStructurePeersForLevel0Limit.toNat < (survivors limitTime torrent).length) &&
        decide (torrent.peerList.level = 0)) = true ↔ overfull limitTime torrent = true := by
    intro torrent _
    simp [overfull]
  have both : ∀ torrent ∈ torrents,
      (decide (dataStructurePeersForLevel0Limit.toNat < (survivors limitTime torrent).length) &&
        !decide (torrent.peerList.level = 0)) = true ↔
      (decide ((survivors limitTime torrent).length ≠ 0 ∧ 0 < torrent.peerList.level) &&
        !decide ((survivors limitTime torrent).length ≤
          dataStructurePeersForLevel0Limit.toNat)) = true := by
    intro torrent _
    have limit : dataStructurePeersForLevel0Limit.toNat = 256 := rfl
    simp only [Bool.and_eq_true, decide_eq_true_eq, Bool.not_eq_true', decide_eq_false_iff_not,
      limit]
    omega
  have right : ∀ torrent ∈ torrents,
      (decide ((survivors limitTime torrent).length ≠ 0 ∧ 0 < torrent.peerList.level) &&
        decide ((survivors limitTime torrent).length ≤
          dataStructurePeersForLevel0Limit.toNat)) = true ↔
      shrunken limitTime torrent = true := by
    intro torrent _
    simp only [shrunken, Bool.and_eq_true, decide_eq_true_eq]
    omega
  rw [List.countP_congr left, List.countP_congr both, List.countP_congr right]
  omega

theorem crowds_le (limitTime : Int) (torrents : List TorrentData) :
    (torrents.countP fun torrent =>
        dataStructurePeersForLevel0Limit.toNat < (survivors limitTime torrent).length) ≤
      torrents.countP fun torrent => (survivors limitTime torrent).length ≠ 0 := by
  apply List.countP_mono_left
  intro torrent _ crowd
  simp only [decide_eq_true_eq] at crowd ⊢
  omega

section Legend

variable {limitTime : Int} {before after : TorrentList} {stats : GarbageStats}
  (same : (torrentsOf after).map
      (fun torrent => (torrent.peerList.pairs.length, torrent.peerList.level)) =
    (remaining limitTime (torrentsOf before)).map
      fun torrent => ((survivors limitTime torrent).length, torrent.peerList.level))
  (figures : stats.figures = counted limitTime (torrentsOf before))

include same figures

theorem totalPeers_iff : stats.totalPeers.toNat = peersIn after ↔
    ((torrentsOf before).map fun torrent => (survivors limitTime torrent).length).sum < 2 ^ 32 := by
  have peers : stats.totalPeers = _ :=
    (congrArg GarbageFigures.totalPeers figures).trans (counted_totalPeers _ _)
  rw [peers, peersIn_left same, toNat_ofNat_eq_iff]

theorem Truthful.reportable (truthful : Truthful before after stats) :
    Reportable limitTime (torrentsOf before) := by
  -- `totalPeers` is right only if nothing has wrapped, and then the other figures can be read off.
  have small := (totalPeers_iff same figures).mp truthful.totalPeers
  have told := counted_told small
  rw [← figures] at told
  have few := countP_le_sum (fun torrent => (survivors limitTime torrent).length)
    (torrentsOf before)
  have crowds := crowds_le limitTime (torrentsOf before)
  have peers := peersIn_eq limitTime before
  have length := length_eq limitTime before
  have removedPeers := truthful.removedPeers
  have removedTorrents := truthful.removedTorrents
  have expanded := truthful.totalTorrentsWithChangeLimit
  rw [show stats.removedPeers = _ from told.removedPeers, peersIn_left same, peers] at removedPeers
  rw [show stats.removedTorrents = _ from told.removedTorrents, length_left same, length]
    at removedTorrents
  rw [show stats.totalTorrentsWithChangeLimit = _ from told.totalTorrentsWithChangeLimit,
    expanded_left same, (toNat_ofNat_eq_iff _).mpr (by omega)] at expanded
  constructor
  case peersLeft => exact small
  case peersRemoved =>
    apply (toNat_ofNat_eq_iff _).mp
    omega
  case torrentsRemoved =>
    apply (toNat_ofNat_eq_iff _).mp
    omega
  case expanded => exact (crowds_eq_expanded_iff limitTime _).mp expanded

theorem Reportable.truthful (reportable : Reportable limitTime (torrentsOf before)) :
    Truthful before after stats := by
  have small := reportable.peersLeft
  have told := counted_told small
  rw [← figures] at told
  have few := countP_le_sum (fun torrent => (survivors limitTime torrent).length)
    (torrentsOf before)
  have crowds := crowds_le limitTime (torrentsOf before)
  constructor
  case totalPeers => exact (totalPeers_iff same figures).mpr small
  case totalTorrents =>
    rw [show stats.totalTorrents = _ from told.totalTorrents, length_left same]
    exact (toNat_ofNat_eq_iff _).mpr (by omega)
  case totalTorrentsWithChangeLimit =>
    rw [show stats.totalTorrentsWithChangeLimit = _ from told.totalTorrentsWithChangeLimit,
      expanded_left same, ← (crowds_eq_expanded_iff limitTime _).mpr reportable.expanded]
    exact (toNat_ofNat_eq_iff _).mpr (by omega)
  case maxPeersInOneTorrent =>
    rw [largest_left same]
    exact told.maxPeersInOneTorrent
  case removedPeers =>
    rw [show stats.removedPeers = _ from told.removedPeers, peersIn_left same,
      peersIn_eq limitTime before, (toNat_ofNat_eq_iff _).mpr reportable.peersRemoved]
    exact Nat.add_comm _ _
  case removedTorrents =>
    rw [show stats.removedTorrents = _ from told.removedTorrents, length_left same,
      length_eq limitTime before, (toNat_ofNat_eq_iff _).mpr reportable.torrentsRemoved]

theorem truthful_iff_reportable :
    Truthful before after stats ↔ Reportable limitTime (torrentsOf before) :=
  ⟨Truthful.reportable same figures, Reportable.truthful same figures⟩

end Legend

theorem Reportable.countable {limitTime : Int} {torrentList : TorrentList}
    (reportable : Reportable limitTime (torrentsOf torrentList)) :
    ∀ pair ∈ torrentList.pairs, Countable limitTime pair.2 := by
  intro pair member few
  have most := @le_sum_of_mem _ (fun torrent => (survivors limitTime torrent).length)
    (torrentsOf torrentList) pair.2 (List.mem_map_of_mem member)
  have small := reportable.peersLeft
  rw [Nat.mod_eq_of_lt (by omega)] at few
  exact List.length_eq_zero_iff.mp few

theorem truthful_of_table {torrentList : TorrentList} (table : TableInv torrentList) (now : Int) :
    (∃ torrentList' stats, runGarbageCollectorL torrentList now = .ok (torrentList', stats) ∧
      Truthful torrentList torrentList' stats) ↔
      Reportable (limitTimeOf now) (torrentsOf torrentList) := by
  have told : (∀ pair ∈ torrentList.pairs, Countable (limitTimeOf now) pair.2) →
      ∃ torrentList' stats, runGarbageCollectorL torrentList now = .ok (torrentList', stats) ∧
        (Truthful torrentList torrentList' stats ↔
          Reportable (limitTimeOf now) (torrentsOf torrentList)) := by
    intro countable
    obtain ⟨torrentList', stats, completed, _, collected, figures⟩ :=
      runGarbageCollectorL_spec table now countable
    exact ⟨torrentList', stats, completed, truthful_iff_reportable collected.remaining figures⟩
  constructor
  · rintro ⟨torrentList', stats, completed, truthful⟩
    by_cases countable : ∀ pair ∈ torrentList.pairs, Countable (limitTimeOf now) pair.2
    · obtain ⟨_, _, completed', agree⟩ := told countable
      have same := completed.symm.trans completed'
      cases same
      exact agree.mp truthful
    · push Not at countable
      rw [runGarbageCollectorL_crowd table now countable] at completed
      cases completed
  · intro reportable
    obtain ⟨torrentList', stats, completed, agree⟩ := told reportable.countable
    exact ⟨torrentList', stats, completed, agree.mpr reportable⟩

/-- In every reachable table and at every time, the figures of a pass mean what the legend says
exactly if its counters do not wrap and as many torrents are overfull as shrunken. -/
theorem runGarbageCollectorL_truthful {host : Host} {torrentList : TorrentList}
    (reached : Reached (Step.Takes host) (fun step _ => step.OverHttp) emptyTorrentList
      torrentList) (now : Int) :
    (∃ torrentList' stats, runGarbageCollectorL torrentList now = .ok (torrentList', stats) ∧
      Truthful torrentList torrentList' stats) ↔
      Reportable (limitTimeOf now) (torrentsOf torrentList) :=
  truthful_of_table (reached_inv reached) now

section Rolls

variable {rolls : Rolls} {torrentList : TorrentList}

theorem Rolls.Of.sum {ofTorrent : TorrentData → Nat} {ofRoll : Roll → Nat}
    (rolled : rolls.Of torrentList) (table : TableInv torrentList)
    (same : ∀ roll torrent, roll.Of torrent → ofTorrent torrent = ofRoll roll) :
    ((torrentsOf torrentList).map ofTorrent).sum =
      (rolls.map fun entry => ofRoll entry.2).sum := by
  rw [← pairs_map_snd]
  exact (rolled.map_perm same table).sum_eq

theorem Rolls.Of.countP {ofTorrent : TorrentData → Bool} {ofRoll : Roll → Bool}
    (rolled : rolls.Of torrentList) (table : TableInv torrentList)
    (same : ∀ roll torrent, roll.Of torrent → ofTorrent torrent = ofRoll roll) :
    (torrentsOf torrentList).countP ofTorrent = rolls.countP fun entry => ofRoll entry.2 := by
  have counts := (rolled.map_perm same table).countP_eq id
  rw [pairs_map_snd, List.countP_map, List.countP_map] at counts
  exact counts

theorem Rolls.Of.peersIn (rolled : rolls.Of torrentList) (table : TableInv torrentList) :
    peersIn torrentList = (rolls.map fun entry => entry.2.peers.length).sum := by
  rw [Etracker.peersIn, pairs_map_snd torrentList fun torrent => torrent.peerList.pairs.length]
  exact rolled.sum table fun _ _ one => one.peers.length_eq

theorem Rolls.Of.length (rolled : rolls.Of torrentList) (table : TableInv torrentList) :
    torrentList.pairs.length = rolls.length := by
  have same : ∀ roll torrent, Roll.Of roll torrent → () = () := fun _ _ _ => rfl
  have lengths := (rolled.map_perm same table).length_eq
  rwa [List.length_map, List.length_map] at lengths

theorem Rolls.Of.reportable (rolled : rolls.Of torrentList) (table : TableInv torrentList)
    (limitTime : Int)
    (peersLeft :
      (rolls.map fun entry => (entry.2.collect limitTime).peers.length).sum < 2 ^ 32)
    (peersRemoved : (rolls.map fun entry =>
      entry.2.peers.countP fun peer => !Alive limitTime peer).sum < 2 ^ 32)
    (torrentsRemoved : (rolls.countP fun entry =>
      (entry.2.collect limitTime).peers.length = 0) < 2 ^ 32)
    (expanded : ∀ entry ∈ rolls, entry.2.level = 0 ∧
      entry.2.peers.length ≤ dataStructurePeersForLevel0Limit.toNat) :
    Reportable limitTime (torrentsOf torrentList) := by
  constructor
  case peersLeft =>
    rw [rolled.sum table fun _ _ one => (one.survivors limitTime).length_eq]
    exact peersLeft
  case peersRemoved =>
    have same : ∀ roll torrent, Roll.Of roll torrent → expired limitTime torrent =
        roll.peers.countP fun peer => !Alive limitTime peer :=
      fun _ _ one => one.peers.countP_eq _
    rw [rolled.sum table same]
    exact peersRemoved
  case torrentsRemoved =>
    rw [rolled.countP table fun _ _ one => by rw [(one.survivors limitTime).length_eq]]
    exact torrentsRemoved
  case expanded =>
    have plain : ∀ torrent ∈ torrentsOf torrentList, torrent.peerList.level = 0 ∧
        (survivors limitTime torrent).length ≤ dataStructurePeersForLevel0Limit.toNat := by
      rintro torrent inside
      obtain ⟨⟨infoHash, _⟩, member, rfl⟩ := List.mem_map.mp inside
      obtain ⟨roll, isRoll, one⟩ :=
        rolled.found _ _ ((value_eq_some_iff table.inv.linked).mpr member)
      obtain ⟨level, few⟩ :=
        expanded _ ((Rolls.find_eq_some_iff rolled.distinct).mp isRoll)
      rw [one.level, (one.survivors limitTime).length_eq]
      exact ⟨level, (List.length_filter_le _ _).trans few⟩
    have none : (torrentsOf torrentList).countP (overfull limitTime) = 0 := by
      rw [List.countP_eq_zero]
      intro torrent inside
      simp [overfull, (plain torrent inside).2]
    rw [none, eq_comm, List.countP_eq_zero]
    intro torrent inside
    simp [shrunken, (plain torrent inside).1]

end Rolls

/-- Two torrents of which one has a peer that expires, and a third with nobody else. -/
def leavingSteps : List Step :=
  [sampleHttp "1" "1" "" 1000, sampleHttp "1" "2" "" 4000, sampleHttp "2" "1" "" 1000,
    sampleHttp "3" "1" "" 4500]

theorem runGarbageCollectorL_truthful_leaving :
    ∃ torrentList torrentList' stats,
      Traced (Step.Takes plainHost) emptyTorrentList leavingSteps torrentList ∧
      runGarbageCollectorL torrentList 5000 = .ok (torrentList', stats) ∧
      Truthful torrentList torrentList' stats ∧
      stats.removedPeers.toNat = 2 ∧ stats.removedTorrents.toNat = 1 := by
  have allows : ∀ rolls torrentList (step : Step), Rolls.Of rolls torrentList →
      TableInv torrentList → step.overHttp = true → step.OverHttp :=
    fun _ _ _ _ _ http => .of_overHttp http
  have fit : Rolls.FitAll plainHost (fun _ step => step.overHttp = true) [] leavingSteps := by
    decide +kernel
  obtain ⟨torrentList, traced, reached, rolled⟩ := Rolls.exists_run allows (by decide) fit
  have table := reached_inv reached
  have reportable := rolled.reportable table (limitTimeOf 5000)
    (by decide +kernel) (by decide +kernel) (by decide +kernel) (by decide +kernel)
  obtain ⟨torrentList', stats, completed, truthful⟩ :=
    (runGarbageCollectorL_truthful reached 5000).mpr reportable
  have collected := runGarbageCollectorL_ok table completed
  have step : (samplePass 5000).run plainHost torrentList = .ok torrentList' := by
    have isPass : (samplePass 5000).action = .collect := rfl
    rw [Step.run, isPass]
    change (runGarbageCollectorL torrentList 5000 >>= _) = _
    rw [completed]
    rfl
  have table' := ((samplePass 5000).run_effect table step).1
  have peers : peersIn torrentList = 4 := rolled.peersIn table
  have torrents : torrentList.pairs.length = 3 := rolled.length table
  have peers' : peersIn torrentList' = 2 := (rolled.collect collected).peersIn table'
  have torrents' : torrentList'.pairs.length = 2 := (rolled.collect collected).length table'
  have removedPeers := truthful.removedPeers
  have removedTorrents := truthful.removedTorrents
  refine ⟨torrentList, torrentList', stats, traced, completed, truthful, ?_, ?_⟩
  · omega
  · omega

theorem crowd_torrents {count : Nat} (someone : 0 < count) (few : count ≤ 257) :
    ∃ torrentList torrentDataL,
      Reached (Step.Takes plainHost) (fun step _ => step.OverHttp) emptyTorrentList torrentList ∧
      torrentsOf torrentList = [torrentDataL] ∧ torrentDataL.peerList.level = 0 ∧
      (survivors (limitTimeOf 1000) torrentDataL).length = count ∧
      expired (limitTimeOf 1000) torrentDataL = 0 := by
  obtain ⟨torrentList, crowd, alone, times⟩ := crowd_reached few
  have table := reached_inv crowd.reached
  have linked := table.inv.linked
  have length := crowd.length
  have level := crowd.level
  cases found : torrentList.value (Bytes.zero uriParamValueLength).list with
  | none =>
      rw [torrentOf, found] at length
      simp [TorrentData.empty] at length
      omega
  | some torrentDataL =>
      rw [torrentOf_some found] at length level times
      have member := (value_eq_some_iff linked).mp found
      have only : ∀ pair ∈ torrentList.pairs,
          pair = ((Bytes.zero uriParamValueLength).list, torrentDataL) := by
        rintro ⟨hash, torrent⟩ inside
        have present := (value_eq_some_iff linked).mpr inside
        by_cases same : hash = (Bytes.zero uriParamValueLength).list
        · rw [same, found] at present
          rw [same, Option.some.inj present]
        · rw [alone hash same] at present
          cases present
      have pairs : torrentList.pairs =
          [((Bytes.zero uriParamValueLength).list, torrentDataL)] := by
        have copies := List.eq_replicate_of_mem only
        have once := List.Nodup.of_map _ (pairs_nodup linked)
        rw [copies, List.nodup_replicate] at once
        have occupied := List.length_pos_of_mem member
        rw [copies, show torrentList.pairs.length = 1 by omega]
        rfl
      have peers : PeersInv torrentDataL.peerList := table.table.torrents _ member
      have everybody : ∀ peer ∈ torrentDataL.peerList.pairs,
          Alive (limitTimeOf 1000) peer = true := by
        intro peer inside
        rw [Alive, times peer inside]
        decide
      refine ⟨torrentList, torrentDataL, crowd.overHttp, by rw [torrentsOf, pairs]; rfl, level, ?_,
        ?_⟩
      · rw [survivors, List.filter_eq_self.mpr everybody, pairs_length peers.filled, length]
      · rw [expired, List.countP_eq_zero]
        intro peer inside
        simp [everybody peer inside]

/-- A list of level 0 with 257 peers is reported as expanded. -/
theorem runGarbageCollectorL_untruthful :
    ¬∀ (host : Host) (torrentList : TorrentList),
      Reached (Step.Takes host) (fun step _ => step.OverHttp) emptyTorrentList torrentList →
      ∀ now, ∃ torrentList' stats, runGarbageCollectorL torrentList now =
        .ok (torrentList', stats) ∧ Truthful torrentList torrentList' stats := by
  intro all
  obtain ⟨torrentList, torrentDataL, reached, torrents, level, length, _⟩ :=
    @crowd_torrents 257 (by decide) (by decide)
  have reportable := (truthful_of_table (reached_inv reached) 1000).mp
    (all plainHost torrentList reached 1000)
  have expanded := reportable.expanded
  rw [torrents] at expanded
  simp [overfull, shrunken, length, level, dataStructurePeersForLevel0Limit] at expanded

end Etracker
