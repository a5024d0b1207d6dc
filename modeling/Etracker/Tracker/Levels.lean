import Etracker.Tracker.Protocols

namespace Etracker

open Foundation Foundation.Outcome Foundation.Runs

section Sum

variable (counters : TorrentCounters)

/-- What `setPeerPublic` compares with the limit of a list of level 0. -/
def TorrentCounters.sum : UInt32 := counters.complete + counters.incomplete

theorem changeTorrentStatsL_sum_new {event : UInt8} :
    (changeTorrentStatsL counters uriEventIdNone event).sum = counters.sum + 1 := by
  unfold changeTorrentStatsL TorrentCounters.sum
  rw [if_pos rfl]
  split_ifs
  · dsimp only
    grind
  · dsimp only
    grind

theorem changeTorrentStatsL_sum_removed {event : UInt8} (known : event ≠ uriEventIdNone) :
    (changeTorrentStatsL counters event uriEventIdNone).sum = counters.sum - 1 := by
  unfold changeTorrentStatsL TorrentCounters.sum
  rw [if_neg known, if_pos rfl]
  split_ifs
  · dsimp only
    grind
  · dsimp only
    grind

theorem changeTorrentStatsL_sum_changed {oldEvent newEvent : UInt8}
    (known : oldEvent ≠ uriEventIdNone) (announced : newEvent ≠ uriEventIdNone) :
    (changeTorrentStatsL counters oldEvent newEvent).sum = counters.sum := by
  unfold changeTorrentStatsL TorrentCounters.sum
  rw [if_neg known, if_neg announced]
  split_ifs
  · dsimp only
    grind
  · dsimp only
    grind
  · rfl
  · rfl

theorem collectCounters_sum (limitTime : Int) (peers : List (Hash × PeerData)) :
    (collectCounters limitTime counters peers).sum + UInt32.ofNat peers.length =
      counters.sum + UInt32.ofNat (peers.filter (Alive limitTime)).length := by
  have split : peers.length = (peers.filter (Alive limitTime)).length +
      (peers.countP (fun peer => !Alive limitTime peer && completedPeer peer) +
        peers.countP fun peer => !Alive limitTime peer && !completedPeer peer) := by
    induction peers with
    | nil => rfl
    | cons peer rest ih =>
        rw [List.length_cons, List.countP_cons, List.countP_cons, List.filter_cons]
        cases Alive limitTime peer <;> cases completedPeer peer <;> simp <;> omega
  have sums := congrArg UInt32.ofNat split
  rw [UInt32.ofNat_add, UInt32.ofNat_add] at sums
  rw [sums]
  unfold TorrentCounters.sum collectCounters countOf
  dsimp only
  grind

end Sum

structure Counted (torrent : TorrentData) : Prop where
  sum : torrent.sum = UInt32.ofNat torrent.peerList.entries.length
  known : ∀ pair ∈ torrent.peerList.pairs, pair.2.event ≠ uriEventIdNone

theorem emptyTorrent_counted : Counted TorrentData.empty where
  sum := by simp [TorrentData.empty, TorrentCounters.sum]
  known := by simp [TorrentData.empty]

theorem Update.forall_data {list list' : HashList PeerData} {hash : Hash}
    {before after : Option PeerData} (holds : PeerData → Prop)
    (update : Update list list' hash before after) (kept : ∀ pair ∈ list.pairs, holds pair.2)
    (stored : ∀ peer, after = some peer → holds peer) : ∀ pair ∈ list'.pairs, holds pair.2 := by
  obtain ⟨rest, old, new⟩ := update.split
  intro pair member
  rcases List.mem_append.mp (new.mem_iff.mp member) with changed | unchanged
  · obtain ⟨peer, isPeer, rfl⟩ := List.mem_map.mp changed
    exact stored peer (by simpa using isPeer)
  · exact kept pair (old.mem_iff.mpr (List.mem_append_right _ unchanged))

theorem setPeer_counted {torrent torrent' : TorrentData} {query : Query} {protocol : UInt8}
    {now : Int} {delay : UInt32} (peers : PeersInv torrent.peerList) (counted : Counted torrent)
    (announced : query.event ≠ uriEventIdNone)
    (changed : setPeer torrent query protocol now = .ok (torrent', delay)) :
    Counted torrent' ∧ torrent'.peerList.level = expandedLevel torrent ∧
      torrent'.peerList.entries.length = torrent.peerList.entries.length +
        if torrent.peerList.value query.peerId.list = none then 1 else 0 := by
  obtain ⟨peers', header, counters, update⟩ := setPeer_of_ok peers changed
  have length := update.countP_eq fun _ => true
  rw [List.countP_true, pairs_length peers.filled, pairs_length peers'.filled]
    at length
  have known := update.forall_data (fun peer => peer.event ≠ uriEventIdNone) counted.known (by
    intro peer isPeer
    cases isPeer
    exact announced)
  have level := congrArg ListHeader.level header
  cases stored : torrent.peerList.value query.peerId.list with
  | none =>
      rw [stored] at counters length
      have longer : torrent'.peerList.entries.length = torrent.peerList.entries.length + 1 := by
        simpa using length
      refine ⟨⟨?_, known⟩, level, longer⟩
      rw [longer, ofNat_succ, ← counted.sum, TorrentCounters.sum, counters]
      exact changeTorrentStatsL_sum_new _
  | some peer =>
      rw [stored] at counters length
      have same : torrent'.peerList.entries.length = torrent.peerList.entries.length := by
        simpa using length
      have member := (value_eq_some_iff peers.inv.linked).mp stored
      refine ⟨⟨?_, known⟩, level, same⟩
      rw [same, ← counted.sum, TorrentCounters.sum, counters]
      exact changeTorrentStatsL_sum_changed _ (counted.known _ member) announced

theorem deletePeer_counted {torrent torrent' : TorrentData} {query : Query}
    (peers : PeersInv torrent.peerList) (counted : Counted torrent)
    (removed : deletePeer torrent query = .ok torrent') :
    Counted torrent' ∧ torrent'.peerList.level = torrent.peerList.level ∧
      torrent'.peerList.entries.length ≤ torrent.peerList.entries.length := by
  obtain ⟨peers', header, counters, update⟩ := deletePeer_of_ok peers removed
  have length := update.countP_eq fun _ => true
  rw [List.countP_true, pairs_length peers.filled, pairs_length peers'.filled]
    at length
  have known := update.forall_data (fun peer => peer.event ≠ uriEventIdNone) counted.known
    fun peer isPeer => by cases isPeer
  have level := congrArg ListHeader.level header
  cases stored : torrent.peerList.value query.peerId.list with
  | none =>
      rw [stored] at counters length
      have same : torrent'.peerList.entries.length = torrent.peerList.entries.length := by
        simpa using length
      refine ⟨⟨?_, known⟩, level, Nat.le_of_eq same⟩
      rw [same, ← counted.sum, TorrentCounters.sum, counters]
      rfl
  | some peer =>
      rw [stored] at counters length
      have shorter : torrent'.peerList.entries.length + 1 = torrent.peerList.entries.length := by
        simpa using length
      have member := (value_eq_some_iff peers.inv.linked).mp stored
      refine ⟨⟨?_, known⟩, level, by omega⟩
      rw [TorrentCounters.sum, counters]
      have sum := changeTorrentStatsL_sum_removed torrent.toTorrentCounters (counted.known _ member)
      rw [counted.sum, ← shorter, ofNat_succ] at sum
      refine sum.trans ?_
      grind

theorem Collected.counted {limitTime : Int} {torrent torrent' : TorrentData}
    (collected : Collected limitTime torrent torrent') (peers : PeersInv torrent.peerList)
    (counted : Counted torrent) :
    Counted torrent' ∧ torrent'.peerList.level = torrent.peerList.level ∧
      torrent'.peerList.entries.length ≤ torrent.peerList.entries.length := by
  refine ⟨⟨?_, ?_⟩, congrArg ListHeader.level collected.header, ?_⟩
  · have sum := collectCounters_sum torrent.toTorrentCounters limitTime torrent.peerList.pairs
    rw [counted.sum, ← collected.counters, ← collected.pairs, pairs_length peers.filled,
      pairs_length collected.peers.filled] at sum
    grind
  · intro pair member
    rw [collected.pairs] at member
    exact counted.known pair (List.mem_filter.mp member).1
  · rw [← pairs_length peers.filled, ← pairs_length collected.peers.filled, collected.pairs]
    exact List.length_filter_le _ _

/-- A list of level 0 that holds as many peers as it may is not expanded by the next one. -/
structure Overfills (query : Query) (torrent : TorrentData) : Prop where
  goesOn : query.event ≠ uriEventIdStopped
  isNew : torrent.peerList.value query.peerId.list = none
  level : torrent.peerList.level = 0
  full : torrent.peerList.entries.length = dataStructurePeersForLevel0Limit.toNat

/-- A list of level 0 holds no more peers than it may. -/
def WithinLevel (torrent : TorrentData) : Prop :=
  torrent.peerList.level = 0 →
    torrent.peerList.entries.length ≤ dataStructurePeersForLevel0Limit.toNat

theorem Counted.expandedLevel_eq {torrent : TorrentData} (counted : Counted torrent)
    (within : torrent.peerList.entries.length ≤ dataStructurePeersForLevel0Limit.toNat) :
    expandedLevel torrent = torrent.peerList.level := by
  have small : ¬torrent.complete + torrent.incomplete > dataStructurePeersForLevel0Limit := by
    have isSum : torrent.complete + torrent.incomplete =
      UInt32.ofNat torrent.peerList.entries.length := counted.sum
    rw [isSum, gt_iff_lt, UInt32.lt_iff_toNat_lt, UInt32.toNat_ofNat']
    have limit : dataStructurePeersForLevel0Limit.toNat = 256 := rfl
    omega
  rw [expandedLevel, if_neg fun expands => small expands.1]

theorem expandedLevel_ge (torrent : TorrentData) : torrent.peerList.level ≤ expandedLevel torrent := by
  unfold expandedLevel
  split_ifs with expands
  · omega
  · exact Nat.le_refl _

/-- A peer that is set keeps its list within its level unless it overfills it. -/
theorem setPeer_within_iff {torrent torrent' : TorrentData} {query : Query} {protocol : UInt8}
    {now : Int} {delay : UInt32} (peers : PeersInv torrent.peerList) (counted : Counted torrent)
    (within : WithinLevel torrent) (announced : query.event ≠ uriEventIdNone)
    (goesOn : query.event ≠ uriEventIdStopped)
    (changed : setPeer torrent query protocol now = .ok (torrent', delay)) :
    WithinLevel torrent' ↔ ¬Overfills query torrent := by
  obtain ⟨counted', level, length⟩ := setPeer_counted peers counted announced changed
  -- The limit is compared before the peer is counted, so 256 peers do not expand their list.
  by_cases ground : torrent.peerList.level = 0
  · have few := within ground
    rw [counted.expandedLevel_eq few, ground] at level
    constructor
    · intro within' overfills
      have few' := within' level
      rw [length, if_pos overfills.isNew, overfills.full] at few'
      omega
    · intro fits _
      rw [length]
      split_ifs with isNew
      · have notFull : torrent.peerList.entries.length ≠ dataStructurePeersForLevel0Limit.toNat :=
          fun full => fits ⟨goesOn, isNew, ground, full⟩
        omega
      · exact few
  · have above := expandedLevel_ge torrent
    constructor
    · intro _ overfills
      exact ground overfills.level
    · intro _ ground'
      omega

def TableWithin (torrentList : TorrentList) : Prop :=
  ∀ hash torrent, torrentList.value hash = some torrent → Counted torrent ∧ WithinLevel torrent

theorem TableWithin.torrentOf {torrentList : TorrentList} (within : TableWithin torrentList)
    (infoHash : ParamValue) :
    Counted (torrentOf torrentList infoHash) ∧ WithinLevel (torrentOf torrentList infoHash) := by
  unfold Etracker.torrentOf
  cases found : torrentList.value infoHash.list with
  | none => exact ⟨emptyTorrent_counted, fun _ => Nat.zero_le _⟩
  | some torrent => exact within _ torrent found

/-- The step is an announce that overfills the list of its torrent. -/
def Step.Overfills (host : Host) (step : Step) (torrentList : TorrentList) : Prop :=
  ∃ query, step.query host = some query ∧
    Etracker.Overfills query (torrentOf torrentList query.infoHash)

theorem Step.run_within {host : Host} {step : Step} {torrentList torrentList' : TorrentList}
    (table : TableInv torrentList) (within : TableWithin torrentList) (overHttp : step.OverHttp)
    (fits : ¬step.Overfills host torrentList)
    (completed : step.run host torrentList = .ok torrentList') : TableWithin torrentList' := by
  intro hash torrent' present
  rcases step.torrent_cases table completed present with same | ⟨_, query, _, announces, rfl,
    announced⟩ | ⟨torrent, found, collected⟩
  · exact within hash torrent' same
  · have peers := torrentOf_inv table.table query.infoHash
    obtain ⟨counted, before⟩ := within.torrentOf query.infoHash
    have parsed := (overHttp.parsed announces).ne_none
    generalize isBefore : torrentList.value query.infoHash.list = torrent at announced
    cases announced with
    | stopped stops removed =>
        rw [torrentOf_some isBefore] at peers counted before
        obtain ⟨counted', level, shorter⟩ := deletePeer_counted peers counted removed
        exact ⟨counted', fun ground => shorter.trans (before (level.symm.trans ground))⟩
    | stored goesOn changed =>
        rw [← isBefore] at changed
        refine ⟨(setPeer_counted peers counted parsed changed).1, ?_⟩
        apply (setPeer_within_iff peers counted before parsed goesOn changed).mpr
        exact fun overfills => fits ⟨query, announces, overfills⟩
  · have peers := table.table.torrents _ ((value_eq_some_iff table.inv.linked).mp found)
    obtain ⟨counted, before⟩ := within hash torrent found
    obtain ⟨counted', level, shorter⟩ := collected.counted peers counted
    exact ⟨counted', fun ground => shorter.trans (before (level.symm.trans ground))⟩

theorem Step.run_level {host : Host} {step : Step} {torrentList torrentList' : TorrentList}
    (table : TableInv torrentList) (completed : step.run host torrentList = .ok torrentList')
    {hash : Hash} {torrent torrent' : TorrentData} (found : torrentList.value hash = some torrent)
    (kept : torrentList'.value hash = some torrent') :
    torrent.peerList.level ≤ torrent'.peerList.level := by
  have peers := table.table.torrents _ ((value_eq_some_iff table.inv.linked).mp found)
  rcases step.torrent_cases table completed kept with same | ⟨_, query, _, _, _, announced⟩ |
    ⟨before, isBefore, collected⟩
  · rw [found] at same
    cases same
    exact Nat.le_refl _
  · rw [found] at announced
    cases announced with
    | stopped _ removed =>
        obtain ⟨_, header, _⟩ := deletePeer_of_ok peers removed
        exact Nat.le_of_eq (congrArg ListHeader.level header).symm
    | stored _ changed =>
        obtain ⟨_, header, _⟩ := setPeer_of_ok peers changed
        exact (expandedLevel_ge torrent).trans (Nat.le_of_eq (congrArg ListHeader.level header).symm)
  · rw [found] at isBefore
    cases isBefore
    exact Nat.le_of_eq (congrArg ListHeader.level collected.header).symm

theorem reached_within {host : Host} {torrentList : TorrentList}
    (reached : Reached (Step.Takes host)
      (fun step torrentList => step.OverHttp ∧ ¬step.Overfills host torrentList)
      emptyTorrentList torrentList) : TableInv torrentList ∧ TableWithin torrentList := by
  apply reached.invariant fun torrentList => TableInv torrentList ∧ TableWithin torrentList
  · refine ⟨emptyTorrentList_inv, ?_⟩
    intro hash torrent present
    simp [emptyTorrentList] at present
  · intro step before after sound meets taken
    exact ⟨(step.run_effect sound.1 taken).1,
      step.run_within sound.1 sound.2 meets.1 meets.2 taken⟩

/-- Where no announce overfills a list of level 0, all of them hold at most as many peers as they
may, and an announce that overfills one leaves it so. Levels are never lowered. -/
theorem levels_expanded {host : Host} {torrentList : TorrentList}
    (reached : Reached (Step.Takes host)
      (fun step torrentList => step.OverHttp ∧ ¬step.Overfills host torrentList)
      emptyTorrentList torrentList) :
    (∀ hash torrent, torrentList.value hash = some torrent → WithinLevel torrent) ∧
    (∀ step torrentList', step.OverHttp → step.Overfills host torrentList →
      Step.Takes host step torrentList torrentList' →
      ∃ hash torrent', torrentList'.value hash = some torrent' ∧ ¬WithinLevel torrent') ∧
    ∀ before, Reachable host before → ∀ step after, Step.Takes host step before after →
      ∀ hash torrent torrent', before.value hash = some torrent → after.value hash = some torrent' →
        torrent.peerList.level ≤ torrent'.peerList.level := by
  obtain ⟨table, within⟩ := reached_within reached
  refine ⟨?_, ?_, ?_⟩
  · intro hash torrent found
    exact (within hash torrent found).2
  · intro step torrentList' overHttp ⟨query, announces, overfills⟩ taken
    obtain ⟨counted, before⟩ := within.torrentOf query.infoHash
    have peers := torrentOf_inv table.table query.infoHash
    have parsed := (overHttp.parsed announces).ne_none
    cases isAction : step.action with
    | collect =>
        rw [Step.query, isAction] at announces
        cases announces
    | serve request =>
        obtain ⟨made, torrent', delay, ran, _, values, changed⟩ :=
          Step.run_sets table isAction announces overfills.goesOn
        have same := taken.symm.trans ran
        cases same
        refine ⟨query.infoHash.list, torrent', by rw [values, Function.update_self], ?_⟩
        intro within'
        exact (setPeer_within_iff peers counted before parsed overfills.goesOn changed).mp within'
          overfills
  · intro before reachable step after taken hash torrent torrent' found kept
    exact Step.run_level (reached_inv reachable) taken found kept

section Crowd

def numberedId (number : Nat) : ParamValue :=
  Bytes.ofList _ [UInt8.ofNat number, UInt8.ofNat (number / 256)]

theorem numberedId_ne {number other : Nat} (differs : number ≠ other) (small : number < 65536)
    (small' : other < 65536) : (numberedId number).list ≠ (numberedId other).list := by
  intro same
  have low : UInt8.ofNat number = UInt8.ofNat other := Option.some.inj (congrArg (·[0]?) same)
  have high : UInt8.ofNat (number / 256) = UInt8.ofNat (other / 256) :=
    Option.some.inj (congrArg (·[1]?) same)
  have low' := congrArg UInt8.toNat low
  have high' := congrArg UInt8.toNat high
  rw [UInt8.toNat_ofNat', UInt8.toNat_ofNat'] at low' high'
  omega

def numberedValues (number : Nat) : AnnounceValues :=
  { plainValues with peerId := numberedId number }

def numberedBytes (number : Nat) : List UInt8 := (HttpRequest.encode (numberedValues number)).bytes

def numberedStep (number : Nat) : Step :=
  ⟨1000, plainSettings, .serve (.http (Bytes.zero _) (numberedBytes number))⟩

theorem numberedStep_announces (number : Nat) :
    ∃ query, (numberedStep number).query plainHost = some query ∧
      query.infoHash = Bytes.zero _ ∧ query.peerId = numberedId number ∧
      query.event = uriEventIdStarted := by
  have noForwarded : plainSettings.xForwardedFor = none := rfl
  obtain ⟨announces, _⟩ :=
    (HttpRequest.encode (numberedValues number)).query plainHost noForwarded (Bytes.zero _)
  have accepted :=
    (HttpRequest.encode (numberedValues number)).accepted plainHost noForwarded (Bytes.zero _)
  exact ⟨_, accepted, announces.infoHash, announces.peerId, announces.event⟩

theorem numberedStep_overHttp (number : Nat) : (numberedStep number).OverHttp := by
  intro clientAddr datagram same
  cases same

structure Crowd (count : Nat) (torrentList : TorrentList) : Prop where
  reached : Reached (Step.Takes plainHost) (fun step torrentList =>
    step.OverHttp ∧ (count ≤ 256 → ¬step.Overfills plainHost torrentList))
    emptyTorrentList torrentList
  counted : Counted (torrentOf torrentList (Bytes.zero _))
  level : (torrentOf torrentList (Bytes.zero _)).peerList.level = 0
  length : (torrentOf torrentList (Bytes.zero _)).peerList.entries.length = count
  fresh : ∀ number, count ≤ number → number < 65536 →
    (torrentOf torrentList (Bytes.zero _)).peerList.value (numberedId number).list = none

theorem Crowd.overHttp {count : Nat} {torrentList : TorrentList} (crowd : Crowd count torrentList) :
    Reached (Step.Takes plainHost) (fun step _ => step.OverHttp) emptyTorrentList torrentList :=
  crowd.reached.mono fun _ _ meets => meets.1

theorem crowd_start : Crowd 0 emptyTorrentList where
  reached := .start
  counted := by
    rw [torrentOf_empty]
    exact emptyTorrent_counted
  level := by
    rw [torrentOf_empty]
    rfl
  length := by
    rw [torrentOf_empty]
    simp [TorrentData.empty]
  fresh := by
    intro number _ _
    rw [torrentOf_empty, emptyPeers_value]

theorem Crowd.next {count : Nat} (few : count < 257) {torrentList : TorrentList}
    (crowd : Crowd count torrentList) :
    ∃ torrentList', Crowd (count + 1) torrentList' ∧
      (∀ hash, hash ≠ (Bytes.zero uriParamValueLength).list →
        torrentList'.value hash = torrentList.value hash) ∧
      ((∀ pair ∈ (torrentOf torrentList (Bytes.zero _)).peerList.pairs,
        pair.2.updateTime = 1000) →
      ∀ pair ∈ (torrentOf torrentList' (Bytes.zero _)).peerList.pairs,
        pair.2.updateTime = 1000) := by
  obtain ⟨query, announces, infoHashIs, peerIdIs, eventIs⟩ := numberedStep_announces count
  have table := reached_inv crowd.reached
  have peers := torrentOf_inv table.table (Bytes.zero uriParamValueLength)
  have goesOn : query.event ≠ uriEventIdStopped := by
    rw [eventIs]
    decide
  have announced : query.event ≠ uriEventIdNone := by
    rw [eventIs]
    decide
  have new := crowd.fresh count (Nat.le_refl _) (by omega)
  obtain ⟨torrentList', torrent', delay, ran, table', values, changed⟩ :=
    Step.run_sets table rfl announces goesOn
  rw [infoHashIs] at values changed
  have isTorrent : torrentOf torrentList' (Bytes.zero _) = torrent' := by
    rw [torrentOf, values, Function.update_self, Option.getD_some]
  have sound : PeersInv torrent'.peerList := by
    rw [← isTorrent]
    exact torrentOf_inv table'.table _
  obtain ⟨counted, level, length⟩ := setPeer_counted peers crowd.counted announced changed
  have within : (torrentOf torrentList (Bytes.zero _)).peerList.entries.length ≤
      dataStructurePeersForLevel0Limit.toNat := by
    have limit : dataStructurePeersForLevel0Limit.toNat = 256 := rfl
    rw [crowd.length]
    omega
  rw [crowd.counted.expandedLevel_eq within, crowd.level] at level
  rw [peerIdIs, if_pos new, crowd.length] at length
  obtain ⟨_, _, _, update⟩ := setPeer_of_ok peers changed
  have fresh : ∀ number, count + 1 ≤ number → number < 65536 →
      torrent'.peerList.value (numberedId number).list = none := by
    intro number behind small
    have other : (numberedId number).list ≠ query.peerId.list := by
      rw [peerIdIs]
      exact numberedId_ne (by omega) small (by omega)
    rw [update.value_eq peers.inv.linked sound.inv.linked, Function.update_of_ne other]
    exact crowd.fresh number (by omega) small
  have fits : count + 1 ≤ 256 → ¬(numberedStep count).Overfills plainHost torrentList := by
    rintro small ⟨other, announces', overfills⟩
    cases announces.symm.trans announces'
    have full := overfills.full
    have limit : dataStructurePeersForLevel0Limit.toNat = 256 := rfl
    rw [infoHashIs, crowd.length] at full
    omega
  have before := crowd.reached.mono fun _ _ meets =>
    And.intro meets.1 fun small => meets.2 (Nat.le_of_succ_le small)
  rw [← isTorrent] at counted level length fresh
  refine ⟨torrentList', ⟨.next before ⟨numberedStep_overHttp count, fits⟩ ran, counted, level,
    length, fresh⟩, ?_, ?_⟩
  · intro hash other
    rw [values, Function.update_of_ne other]
  · intro times
    rw [isTorrent]
    apply update.forall_data (fun peer => peer.updateTime = 1000) times
    intro peer stored
    cases stored
    rfl

theorem crowd_reached {count : Nat} (few : count ≤ 257) :
    ∃ torrentList, Crowd count torrentList ∧
      (∀ hash, hash ≠ (Bytes.zero uriParamValueLength).list → torrentList.value hash = none) ∧
      ∀ pair ∈ (torrentOf torrentList (Bytes.zero _)).peerList.pairs,
        pair.2.updateTime = 1000 := by
  induction count with
  | zero =>
      refine ⟨emptyTorrentList, crowd_start, by simp [emptyTorrentList], ?_⟩
      rw [torrentOf_empty]
      simp [TorrentData.empty]
  | succ count ih =>
      obtain ⟨torrentList, crowd, alone, times⟩ := ih (Nat.le_of_lt few)
      obtain ⟨torrentList', crowd', others, times'⟩ := crowd.next few
      refine ⟨torrentList', crowd', ?_, times' times⟩
      intro hash other
      rw [others hash other]
      exact alone hash other

/-- A list of level 0 is filled, and the next new peer does not fit. -/
theorem levels_expanded_crowd : ∃ torrentList torrent torrentList',
    torrentList.value (Bytes.zero uriParamValueLength).list = some torrent ∧
    (torrent.peerList.level = 0 ∧ torrent.peerList.entries.length = 256) ∧
    WithinLevel torrent ∧ Step.Takes plainHost (numberedStep 256) torrentList torrentList' ∧
    ∃ hash torrent', torrentList'.value hash = some torrent' ∧ ¬WithinLevel torrent' := by
  obtain ⟨torrentList, crowd, _⟩ := crowd_reached (show 256 ≤ 257 by decide)
  have reached := crowd.reached.mono fun _ _ meets =>
    And.intro meets.1 (meets.2 (Nat.le_refl 256))
  have table := reached_inv reached
  obtain ⟨query, announces, infoHashIs, peerIdIs, eventIs⟩ := numberedStep_announces 256
  have goesOn : query.event ≠ uriEventIdStopped := by
    rw [eventIs]
    decide
  have new := crowd.fresh 256 (Nat.le_refl _) (by decide)
  rw [← peerIdIs] at new
  have full := crowd.length
  have ground := crowd.level
  have overfills : (numberedStep 256).Overfills plainHost torrentList := by
    refine ⟨query, announces, goesOn, ?_, ?_, ?_⟩
    · rw [infoHashIs]
      exact new
    · rw [infoHashIs]
      exact ground
    · rw [infoHashIs]
      exact full
  obtain ⟨within, overfilled, _⟩ := levels_expanded reached
  obtain ⟨torrentList', _, _, ran, _⟩ := Step.run_sets table rfl announces goesOn
  cases found : torrentList.value (Bytes.zero uriParamValueLength).list with
  | none =>
      rw [torrentOf, found] at full
      simp [TorrentData.empty] at full
  | some torrent =>
      rw [torrentOf_some found] at full ground
      exact ⟨torrentList, torrent, torrentList', found, ⟨ground, full⟩, within _ torrent found, ran,
        overfilled _ torrentList' (numberedStep_overHttp 256) overfills ran⟩

/-- A list of level 0 can hold 257 peers. -/
theorem levels_overfilled :
    ¬∀ (host : Host) (torrentList : TorrentList),
      Reached (Step.Takes host) (fun step _ => step.OverHttp) emptyTorrentList torrentList →
      ∀ hash torrent, torrentList.value hash = some torrent → WithinLevel torrent := by
  intro all
  obtain ⟨torrentList, crowd, _⟩ := crowd_reached (Nat.le_refl 257)
  have limit : dataStructurePeersForLevel0Limit.toNat = 256 := rfl
  cases found : torrentList.value (Bytes.zero uriParamValueLength).list with
  | none =>
      have nobody := crowd.length
      rw [torrentOf, found] at nobody
      simp [TorrentData.empty] at nobody
  | some torrent =>
      have level := crowd.level
      have length := crowd.length
      rw [torrentOf_some found] at level length
      have few := all plainHost torrentList crowd.overHttp _ torrent found level
      omega

end Crowd

end Etracker
