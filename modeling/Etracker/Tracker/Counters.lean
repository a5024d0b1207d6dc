import Etracker.Tracker.Rolls

/-! Runs of the tracker after which the counters of every torrent tell how many peers
it has. -/

namespace Etracker

open Foundation Foundation.Outcome Foundation.Runs

structure CountersExact (torrent : TorrentData) : Prop where
  complete : torrent.complete.toNat = torrent.peerList.pairs.countP completedPeer
  incomplete : torrent.incomplete.toNat =
    torrent.peerList.pairs.countP fun peer => !completedPeer peer

theorem CountersExact.total {torrent : TorrentData} (peers : PeersInv torrent.peerList)
    (exactly : CountersExact torrent) :
    torrent.complete.toNat + torrent.incomplete.toNat = torrent.peerList.entries.length := by
  rw [exactly.complete, exactly.incomplete, ← pairs_length peers.filled]
  exact (List.length_eq_countP_add_countP completedPeer).symm ▸ by simp

/-- A counter that can be incremented without wrapping around. -/
def Room (counter : UInt32) : Prop := counter.toNat + 1 < 2 ^ 32

theorem toNat_add_one {counter : UInt32} (room : Room counter) :
    (counter + 1).toNat = counter.toNat + 1 := by
  unfold Room at room
  rw [UInt32.toNat_add]
  exact Nat.mod_eq_of_lt room

def completedCount (event : UInt8) : Nat := if event = uriEventIdCompleted then 1 else 0

theorem changeTorrentStatsL_new {counters : TorrentCounters} {event : UInt8}
    (room : if event = uriEventIdCompleted then Room counters.complete
      else Room counters.incomplete) :
    (changeTorrentStatsL counters uriEventIdNone event).complete.toNat =
        counters.complete.toNat + completedCount event ∧
      (changeTorrentStatsL counters uriEventIdNone event).incomplete.toNat =
        counters.incomplete.toNat + (1 - completedCount event) := by
  by_cases completed : event = uriEventIdCompleted
  · rw [if_pos completed] at room
    simp [changeTorrentStatsL, completedCount, completed, toNat_add_one room]
  · rw [if_neg completed] at room
    simp [changeTorrentStatsL, completedCount, completed, toNat_add_one room]

theorem changeTorrentStatsL_removed {counters : TorrentCounters} {event : UInt8}
    (known : event ≠ uriEventIdNone)
    (complete : completedCount event ≤ counters.complete.toNat)
    (incomplete : 1 - completedCount event ≤ counters.incomplete.toNat) :
    (changeTorrentStatsL counters event uriEventIdNone).complete.toNat =
        counters.complete.toNat - completedCount event ∧
      (changeTorrentStatsL counters event uriEventIdNone).incomplete.toNat =
        counters.incomplete.toNat - (1 - completedCount event) := by
  rw [changeTorrentStatsL, if_neg known, if_pos rfl]
  by_cases completed : event = uriEventIdCompleted
  · simp only [completedCount, if_pos completed] at complete incomplete ⊢
    exact ⟨toNat_sub_one complete, rfl⟩
  · simp only [completedCount, if_neg completed] at complete incomplete ⊢
    exact ⟨rfl, toNat_sub_one incomplete⟩

theorem changeTorrentStatsL_changed {counters : TorrentCounters} {oldEvent newEvent : UInt8}
    (known : oldEvent ≠ uriEventIdNone) (announced : newEvent ≠ uriEventIdNone)
    (keepsRole : ¬(oldEvent = uriEventIdCompleted ∧ newEvent = uriEventIdContinue))
    (roomIncomplete : oldEvent = uriEventIdCompleted → newEvent ≠ uriEventIdCompleted →
      Room counters.incomplete)
    (roomComplete : oldEvent ≠ uriEventIdCompleted → newEvent = uriEventIdCompleted →
      Room counters.complete)
    (complete : completedCount oldEvent ≤ counters.complete.toNat)
    (incomplete : 1 - completedCount oldEvent ≤ counters.incomplete.toNat) :
    (changeTorrentStatsL counters oldEvent newEvent).complete.toNat =
        counters.complete.toNat - completedCount oldEvent + completedCount newEvent ∧
      (changeTorrentStatsL counters oldEvent newEvent).incomplete.toNat =
        counters.incomplete.toNat - (1 - completedCount oldEvent) +
          (1 - completedCount newEvent) := by
  by_cases wasCompleted : oldEvent = uriEventIdCompleted
  · by_cases isCompleted : newEvent = uriEventIdCompleted
    · simp only [completedCount, if_pos wasCompleted, if_pos isCompleted] at complete incomplete ⊢
      rw [changeTorrentStatsL, if_neg known, if_neg announced, if_neg]
      · omega
      · simp [wasCompleted, isCompleted]
    · have differs : newEvent ≠ uriEventIdContinue := fun same => keepsRole ⟨wasCompleted, same⟩
      have changes : oldEvent ≠ newEvent := fun same => isCompleted (same ▸ wasCompleted)
      simp only [completedCount, if_pos wasCompleted, if_neg isCompleted] at complete incomplete ⊢
      rw [changeTorrentStatsL, if_neg known, if_neg announced, if_pos ⟨changes, differs⟩,
        if_pos wasCompleted]
      simp [toNat_sub_one complete, toNat_add_one (roomIncomplete wasCompleted isCompleted)]
  · by_cases isCompleted : newEvent = uriEventIdCompleted
    · have differs : newEvent ≠ uriEventIdContinue := by
        rw [isCompleted]
        decide
      have changes : oldEvent ≠ newEvent := fun same => wasCompleted (same.trans isCompleted)
      simp only [completedCount, if_neg wasCompleted, if_pos isCompleted] at complete incomplete ⊢
      rw [changeTorrentStatsL, if_neg known, if_neg announced, if_pos ⟨changes, differs⟩,
        if_neg wasCompleted, if_pos isCompleted]
      simp [toNat_sub_one incomplete, toNat_add_one (roomComplete wasCompleted isCompleted)]
    · simp only [completedCount, if_neg wasCompleted, if_neg isCompleted] at complete incomplete ⊢
      rw [changeTorrentStatsL, if_neg known, if_neg announced]
      split_ifs
      · omega
      · omega

/-- The announces after which the counters still fit the stored events: no event is
missing from a stored peer or from its announce, a completed peer does not go on
with an unknown event, and the counter that grows has room. -/
structure FitsCounters (query : Query) (torrent : TorrentData) : Prop where
  known : ∀ peer, torrent.peerList.value query.peerId.list = some peer →
    peer.event ≠ uriEventIdNone
  announced : ∀ peer, torrent.peerList.value query.peerId.list = some peer →
    query.event ≠ uriEventIdNone
  keepsRole : ∀ peer, torrent.peerList.value query.peerId.list = some peer →
    ¬(peer.event = uriEventIdCompleted ∧ query.event = uriEventIdContinue)
  roomComplete : query.event = uriEventIdCompleted →
    oldEventOf (torrent.peerList.value query.peerId.list) ≠ uriEventIdCompleted →
      Room torrent.complete
  roomIncomplete : query.event ≠ uriEventIdStopped → query.event ≠ uriEventIdCompleted →
    torrent.peerList.value query.peerId.list = none ∨
      oldEventOf (torrent.peerList.value query.peerId.list) = uriEventIdCompleted →
        Room torrent.incomplete

theorem countP_completed (hash : Hash) (peer : Option PeerData) :
    (peer.toList.map (hash, ·)).countP completedPeer =
        (peer.map fun peer => completedCount peer.event).getD 0 ∧
      ((peer.toList.map (hash, ·)).countP fun peer => !completedPeer peer) =
        (peer.map fun peer => 1 - completedCount peer.event).getD 0 := by
  cases peer with
  | none => exact ⟨rfl, rfl⟩
  | some peer =>
      by_cases completed : peer.event = uriEventIdCompleted
      · simp [completedPeer, completedCount, completed]
      · simp [completedPeer, completedCount, completed]

theorem CountersExact.covers {torrent : TorrentData} (exactly : CountersExact torrent) {hash : Hash}
    {peer : PeerData} (member : (hash, peer) ∈ torrent.peerList.pairs) :
    completedCount peer.event ≤ torrent.complete.toNat ∧
      1 - completedCount peer.event ≤ torrent.incomplete.toNat := by
  rw [exactly.complete, exactly.incomplete]
  by_cases completed : peer.event = uriEventIdCompleted
  · have counted : 0 < torrent.peerList.pairs.countP completedPeer := by
      rw [List.countP_pos_iff]
      exact ⟨_, member, by simp [completedPeer, completed]⟩
    simp only [completedCount, if_pos completed]
    omega
  · have counted : 0 < torrent.peerList.pairs.countP fun peer => !completedPeer peer := by
      rw [List.countP_pos_iff]
      exact ⟨_, member, by simp [completedPeer, completed]⟩
    simp only [completedCount, if_neg completed]
    omega

theorem setPeer_counters {torrent torrent' : TorrentData} {query : Query} {protocol : UInt8}
    {now : Int} {delay : UInt32} (peers : PeersInv torrent.peerList)
    (exactly : CountersExact torrent) (goesOn : query.event ≠ uriEventIdStopped)
    (fits : FitsCounters query torrent)
    (changed : setPeer torrent query protocol now = .ok (torrent', delay)) :
    CountersExact torrent' := by
  obtain ⟨_, _, counters, update⟩ := setPeer_of_ok peers changed
  have complete := update.countP_eq completedPeer
  have incomplete := update.countP_eq fun peer => !completedPeer peer
  rw [(countP_completed _ _).1, (countP_completed _ _).1, ← exactly.complete] at complete
  rw [(countP_completed _ _).2, (countP_completed _ _).2, ← exactly.incomplete] at incomplete
  cases stored : torrent.peerList.value query.peerId.list with
  | none =>
      rw [stored] at counters complete incomplete
      have room : if query.event = uriEventIdCompleted then Room torrent.complete
          else Room torrent.incomplete := by
        split_ifs with completes
        · apply fits.roomComplete completes
          rw [stored]
          decide
        · exact fits.roomIncomplete goesOn completes (Or.inl stored)
      obtain ⟨newComplete, newIncomplete⟩ := changeTorrentStatsL_new room
      simp only [Option.map_none, Option.getD_none, Option.map_some, Option.getD_some,
        PeerData.update] at complete incomplete
      constructor
      · rw [counters]
        exact newComplete.trans (by omega)
      · rw [counters]
        exact newIncomplete.trans (by omega)
  | some peer =>
      rw [stored] at counters complete incomplete
      simp only [Option.map_some, Option.getD_some, PeerData.update] at complete incomplete
      have member : (query.peerId.list, peer) ∈ torrent.peerList.pairs :=
        (value_eq_some_iff peers.inv.linked).mp stored
      have oldEvent : oldEventOf (torrent.peerList.value query.peerId.list) = peer.event := by
        rw [stored]
        rfl
      have roomIncomplete : peer.event = uriEventIdCompleted →
          query.event ≠ uriEventIdCompleted → Room torrent.incomplete := fun was is =>
        fits.roomIncomplete goesOn is (Or.inr (oldEvent.trans was))
      have roomComplete : peer.event ≠ uriEventIdCompleted →
          query.event = uriEventIdCompleted → Room torrent.complete := fun was is =>
        fits.roomComplete is (by rwa [oldEvent])
      obtain ⟨inComplete, inIncomplete⟩ := exactly.covers member
      obtain ⟨newComplete, newIncomplete⟩ := changeTorrentStatsL_changed (fits.known peer stored)
        (fits.announced peer stored) (fits.keepsRole peer stored) roomIncomplete roomComplete
        inComplete inIncomplete
      constructor
      · rw [counters]
        exact newComplete.trans (by omega)
      · rw [counters]
        exact newIncomplete.trans (by omega)

theorem deletePeer_counters {torrent torrent' : TorrentData} {query : Query}
    (peers : PeersInv torrent.peerList) (exactly : CountersExact torrent)
    (fits : FitsCounters query torrent) (removed : deletePeer torrent query = .ok torrent') :
    CountersExact torrent' := by
  obtain ⟨_, _, counters, update⟩ := deletePeer_of_ok peers removed
  have complete := update.countP_eq completedPeer
  have incomplete := update.countP_eq fun peer => !completedPeer peer
  rw [(countP_completed _ _).1, (countP_completed _ _).1, ← exactly.complete] at complete
  rw [(countP_completed _ _).2, (countP_completed _ _).2, ← exactly.incomplete] at incomplete
  cases stored : torrent.peerList.value query.peerId.list with
  | none =>
      rw [stored] at counters complete incomplete
      constructor
      · rw [counters]
        exact complete.symm
      · rw [counters]
        exact incomplete.symm
  | some peer =>
      rw [stored] at counters complete incomplete
      simp only [Option.map_some, Option.getD_some, Option.map_none, Option.getD_none]
        at complete incomplete
      have member : (query.peerId.list, peer) ∈ torrent.peerList.pairs :=
        (value_eq_some_iff peers.inv.linked).mp stored
      obtain ⟨inComplete, inIncomplete⟩ := exactly.covers member
      obtain ⟨newComplete, newIncomplete⟩ :=
        changeTorrentStatsL_removed (fits.known peer stored) inComplete inIncomplete
      constructor
      · rw [counters]
        exact newComplete.trans (by omega)
      · rw [counters]
        exact newIncomplete.trans (by omega)

/-- A counter and the peers it counts lose the same ones to the collector. -/
theorem toNat_collected {counter : UInt32} {peers : List (Hash × PeerData)} (limitTime : Int)
    (test : Hash × PeerData → Bool) (exactly : counter.toNat = peers.countP test) :
    (counter - countOf (fun peer => !Alive limitTime peer && test peer) peers).toNat =
      (peers.filter (Alive limitTime)).countP test := by
  have split := List.countP_eq_countP_filter_add peers test (Alive limitTime)
  have gone : (peers.filter fun peer => !Alive limitTime peer).countP test =
      peers.countP fun peer => !Alive limitTime peer && test peer := by
    rw [List.countP_filter]
    congr 1
    funext peer
    cases Alive limitTime peer <;> simp
  rw [gone] at split
  rw [countOf, toNat_sub_ofNat (by omega)]
  omega

theorem Collected.counters_exact {limitTime : Int} {torrent torrent' : TorrentData}
    (collected : Collected limitTime torrent torrent') (exactly : CountersExact torrent) :
    CountersExact torrent' := by
  constructor
  · rw [collected.counters, collected.pairs]
    exact toNat_collected limitTime completedPeer exactly.complete
  · rw [collected.counters, collected.pairs]
    exact toNat_collected limitTime (fun peer => !completedPeer peer) exactly.incomplete

def TableExact (torrentList : TorrentList) : Prop :=
  ∀ hash torrent, torrentList.value hash = some torrent → CountersExact torrent

/-- The announce of a step, if it is one, fits the counters. -/
def Step.FitsCounters (host : Host) (step : Step) (torrentList : TorrentList) : Prop :=
  ∀ query, step.query host = some query →
    Etracker.FitsCounters query (torrentOf torrentList query.infoHash)

theorem emptyCounters_exact : CountersExact TorrentData.empty := by
  constructor
  · simp [TorrentData.empty]
  · simp [TorrentData.empty]

theorem Announced.counters_exact {query : Query} {protocol : UInt8} {now : Int}
    {before : Option TorrentData} {torrent' : TorrentData}
    (announced : Announced query protocol now before (some torrent'))
    (peers : PeersInv (before.getD TorrentData.empty).peerList)
    (exactly : CountersExact (before.getD TorrentData.empty))
    (fits : FitsCounters query (before.getD TorrentData.empty)) : CountersExact torrent' := by
  cases announced with
  | stopped _ removed => exact deletePeer_counters peers exactly fits removed
  | stored goesOn changed => exact setPeer_counters peers exactly goesOn fits changed

/-- One step keeps the counters exact. -/
theorem Step.run_exact {host : Host} {step : Step} {torrentList torrentList' : TorrentList}
    (table : TableInv torrentList) (exactly : TableExact torrentList)
    (fits : step.FitsCounters host torrentList)
    (completed : step.run host torrentList = .ok torrentList') : TableExact torrentList' := by
  intro hash torrent' present
  rcases step.torrent_cases table completed present with same | ⟨_, query, _, announces, rfl,
    announced⟩ | ⟨torrent, found, collected⟩
  · exact exactly hash torrent' same
  · refine announced.counters_exact (torrentOf_inv table.table query.infoHash) ?_
      (fits query announces)
    cases found : torrentList.value query.infoHash.list with
    | none => exact emptyCounters_exact
    | some torrent => exact exactly _ torrent found
  · exact collected.counters_exact (exactly hash torrent found)

theorem reached_exact {host : Host} {torrentList : TorrentList}
    (reached : Reached (Step.Takes host) (Step.FitsCounters host) emptyTorrentList torrentList) :
    TableInv torrentList ∧ TableExact torrentList := by
  apply reached.invariant fun torrentList => TableInv torrentList ∧ TableExact torrentList
  · refine ⟨emptyTorrentList_inv, ?_⟩
    intro hash torrent present
    simp [emptyTorrentList] at present
  · intro step before after sound fits taken
    exact ⟨(step.run_effect sound.1 taken).1, step.run_exact sound.1 sound.2 fits taken⟩

/-- The counters of a torrent tell how many peers it has. -/
theorem counters_total {host : Host} {torrentList : TorrentList}
    (reached : Reached (Step.Takes host) (Step.FitsCounters host) emptyTorrentList torrentList) :
    ∀ hash torrent, torrentList.value hash = some torrent →
      torrent.complete.toNat + torrent.incomplete.toNat = torrent.peerList.entries.length := by
  obtain ⟨table, exactly⟩ := reached_exact reached
  intro hash torrent present
  have member := (value_eq_some_iff table.inv.linked).mp present
  exact (exactly hash torrent present).total (table.table.torrents _ member)

/-- The announces that fit the counters, read off the roll of the torrent. -/
def Roll.FitsCounters (query : Query) (roll : Roll) : Prop :=
  (∀ peer ∈ roll.peer query.peerId.list, peer.event ≠ uriEventIdNone ∧
    query.event ≠ uriEventIdNone ∧
    ¬(peer.event = uriEventIdCompleted ∧ query.event = uriEventIdContinue)) ∧
  (query.event = uriEventIdCompleted →
    oldEventOf (roll.peer query.peerId.list) ≠ uriEventIdCompleted →
      roll.complete.toNat + 1 < 2 ^ 32) ∧
  (query.event ≠ uriEventIdStopped → query.event ≠ uriEventIdCompleted →
    roll.peer query.peerId.list = none ∨
      oldEventOf (roll.peer query.peerId.list) = uriEventIdCompleted →
        roll.incomplete.toNat + 1 < 2 ^ 32)

instance Roll.decidableFitsCounters (query : Query) (roll : Roll) :
    Decidable (roll.FitsCounters query) :=
  inferInstanceAs (Decidable (_ ∧ _ ∧ _))

theorem Roll.Of.fitsCounters {roll : Roll} {torrent : TorrentData} {query : Query}
    (rolled : roll.Of torrent) (sound : PeersInv torrent.peerList)
    (fits : roll.FitsCounters query) : Etracker.FitsCounters query torrent := by
  obtain ⟨stored, complete, incomplete⟩ := fits
  rw [rolled.peer sound] at stored complete incomplete
  refine ⟨fun peer isPeer => (stored peer isPeer).1, fun peer isPeer => (stored peer isPeer).2.1,
    fun peer isPeer => (stored peer isPeer).2.2, ?_, ?_⟩
  · rw [Room, rolled.counters]
    exact complete
  · rw [Room, rolled.counters]
    exact incomplete

def Rolls.FitsCounters (host : Host) (rolls : Rolls) (step : Step) : Prop :=
  ∀ query ∈ step.query host, (rolls.torrent query.infoHash.list).FitsCounters query

instance Rolls.decidableFitsCounters (host : Host) (rolls : Rolls) (step : Step) :
    Decidable (rolls.FitsCounters host step) :=
  inferInstanceAs (Decidable (∀ query ∈ step.query host, _))

theorem Rolls.Of.fitsCounters {host : Host} {rolls : Rolls} {torrentList : TorrentList} {step : Step}
    (rolled : rolls.Of torrentList) (table : TableInv torrentList)
    (fits : rolls.FitsCounters host step) : step.FitsCounters host torrentList := by
  intro query announces
  exact (rolled.torrent query.infoHash).fitsCounters (torrentOf_inv table.table query.infoHash)
    (fits query announces)

/-- Four peers start; one announces itself again, one completes, one stops and one expires. -/
def countedSteps : List Step :=
  [sampleUdp 7 1 2 1000, sampleUdp 7 2 2 1100, sampleUdp 7 3 2 1200, sampleUdp 7 4 2 1300,
    sampleUdp 7 1 2 4000, sampleUdp 7 2 1 4100, sampleUdp 7 3 3 4200, samplePass 5000]

theorem counters_total_counted : ∃ torrentList torrent,
    Traced (Step.Takes plainHost) emptyTorrentList countedSteps torrentList ∧
      torrentList.value (Bytes.ofList uriParamValueLength [7]).list = some torrent ∧
      (torrent.complete = 1 ∧ torrent.incomplete = 1) ∧
      ∀ hash torrent, torrentList.value hash = some torrent →
        torrent.complete.toNat + torrent.incomplete.toNat = torrent.peerList.entries.length := by
  have few : countedSteps.length < 2 ^ 32 := by decide
  have fit : Rolls.FitAll plainHost (Rolls.FitsCounters plainHost) [] countedSteps := by
    decide +kernel
  have allows : ∀ rolls torrentList step, Rolls.Of rolls torrentList → TableInv torrentList →
      Rolls.FitsCounters plainHost rolls step → Step.FitsCounters plainHost step torrentList :=
    fun _ _ _ rolled table fits => rolled.fitsCounters table fits
  obtain ⟨torrentList, traced, reached, rolled⟩ := Rolls.exists_run allows few fit
  have left : ((Rolls.after plainHost countedSteps).find
      (Bytes.ofList uriParamValueLength [7]).list).map Roll.toTorrentCounters =
        some ⟨1, 1, 1⟩ := by
    decide +kernel
  obtain ⟨roll, isRoll, counters⟩ := Option.map_eq_some_iff.mp left
  obtain ⟨torrent, present, one⟩ := rolled.value isRoll
  rw [← one.counters] at counters
  refine ⟨torrentList, torrent, traced, present, ?_, counters_total reached⟩
  exact ⟨congrArg TorrentCounters.complete counters, congrArg TorrentCounters.incomplete counters⟩

/-- A peer that goes on without an event leaves its counter but stays in the list. -/
theorem counters_total_fails : ∃ started silent torrent,
    (plainUdp 2 1000).run plainHost emptyTorrentList = .ok started ∧
      (plainUdp 0 1100).run plainHost started = .ok silent ∧ Reachable plainHost silent ∧
      silent.value (Bytes.zero uriParamValueLength).list = some torrent ∧
      torrent.complete = 0 ∧ torrent.incomplete = 0 ∧ torrent.peerList.entries.length = 1 := by
  obtain ⟨started, _, _, run, before, eventIs, _, first⟩ :=
    (plainUdp_plain 2 1000).first (by decide)
  obtain ⟨silent, torrent, _, run', after, _, second⟩ :=
    (plainUdp_plain 0 1100).next (by decide) before
  have drained : torrent.toTorrentCounters = ⟨0, 0, 0⟩ := by
    rw [second, first, eventIs]
    decide
  refine ⟨started, silent, torrent, run, run', after.reachable, after.found, ?_, ?_, after.single⟩
  · rw [drained]
  · rw [drained]

end Etracker
