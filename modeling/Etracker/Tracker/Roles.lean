import Etracker.Tracker.Swarm

namespace Etracker

open Foundation Foundation.Outcome Foundation.Runs

/-- The announces that keep roles and counters together: a peer stored as completed
does not go on with an unknown event, and the counter that grows has room. -/
structure FitsRoles (query : Query) (torrent : TorrentData) : Prop where
  keepsRole : ∀ peer, torrent.peerList.value query.peerId.list = some peer →
    ¬(peer.event = uriEventIdCompleted ∧ query.event = uriEventIdContinue)
  roomComplete : query.event = uriEventIdCompleted →
    oldEventOf (torrent.peerList.value query.peerId.list) ≠ uriEventIdCompleted →
      Room torrent.complete ∧ Room torrent.downloaded
  roomIncomplete : query.event ≠ uriEventIdStopped → query.event ≠ uriEventIdCompleted →
    torrent.peerList.value query.peerId.list = none ∨
      oldEventOf (torrent.peerList.value query.peerId.list) = uriEventIdCompleted →
        Room torrent.incomplete

theorem FitsRoles.counters {query : Query} {torrent : TorrentData} {swarm : Swarm}
    (fits : FitsRoles query torrent) (represented : Represented torrent swarm)
    (parsed : ParsedEvent query.event) : FitsCounters query torrent where
  known := represented.known query.peerId.list
  announced := fun _ _ => parsed.ne_none
  keepsRole := fits.keepsRole
  roomComplete := fun completes was => (fits.roomComplete completes was).1
  roomIncomplete := fits.roomIncomplete

theorem Represented.roleOf {torrent : TorrentData} {swarm : Swarm}
    (represented : Represented torrent swarm) (hash : Hash) :
    swarm.roleOf hash = (torrent.peerList.value hash).map PeerData.role := by
  rw [Swarm.roleOf, represented.members]
  cases torrent.peerList.value hash <;> rfl

/-- The stored event tells the role that the machine gives the peer. -/
theorem role_update {before : Option PeerData} {query : Query} {protocol : UInt8} {now : Int}
    (keepsRole : ∀ peer, before = some peer →
      ¬(peer.event = uriEventIdCompleted ∧ query.event = uriEventIdContinue)) :
    ((before.getD PeerData.empty).update query protocol now).member =
      ⟨roleAfter query.event (before.map PeerData.role), now⟩ := by
  have role : ((before.getD PeerData.empty).update query protocol now).role =
      roleAfter query.event (before.map PeerData.role) := by
    unfold PeerData.role roleAfter
    by_cases completes : query.event = uriEventIdCompleted
    · rw [if_pos completes, PeerData.update, if_pos completes]
    · rw [if_neg completes, PeerData.update, if_neg completes]
      split_ifs with goesOn
      · cases before with
        | none => rfl
        | some peer =>
            have leeches : peer.event ≠ uriEventIdCompleted := fun completed =>
              keepsRole peer rfl ⟨completed, goesOn⟩
            rw [Option.map_some, Option.getD_some, if_neg leeches]
      · rfl
  rw [PeerData.member, role, PeerData.update]

theorem role_ne_seeder_iff {before : Option PeerData} :
    before.map PeerData.role ≠ some .seeder ↔ oldEventOf before ≠ uriEventIdCompleted := by
  cases before with
  | none => simp [oldEventOf, uriEventIdNone, uriEventIdCompleted]
  | some peer =>
      by_cases completed : peer.event = uriEventIdCompleted
      · simp [oldEventOf, PeerData.role, completed]
      · simp [oldEventOf, PeerData.role, completed]

theorem changeTorrentStatsL_downloaded {counters : TorrentCounters} {oldEvent newEvent : UInt8}
    (parsed : ParsedEvent newEvent)
    (room : newEvent = uriEventIdCompleted → oldEvent ≠ uriEventIdCompleted →
      Room counters.downloaded) :
    (changeTorrentStatsL counters oldEvent newEvent).downloaded.toNat =
      counters.downloaded.toNat +
        if newEvent = uriEventIdCompleted ∧ oldEvent ≠ uriEventIdCompleted then 1 else 0 := by
  by_cases completes : newEvent = uriEventIdCompleted
  · by_cases completed : oldEvent = uriEventIdCompleted
    · rw [if_neg (fun both => both.2 completed), changeTorrentStatsL, completes, completed]
      rfl
    · have grown := toNat_add_one (room completes completed)
      rw [if_pos ⟨completes, completed⟩, ← grown, changeTorrentStatsL]
      by_cases unknown : oldEvent = uriEventIdNone
      · rw [if_pos unknown, if_pos completes]
      · have changes : oldEvent ≠ newEvent ∧ newEvent ≠ uriEventIdContinue := by
          rw [completes]
          exact ⟨completed, by decide⟩
        rw [if_neg unknown, if_neg parsed.ne_none, if_pos changes, if_neg completed,
          if_pos completes]
  · rw [if_neg fun both => completes both.1, changeTorrentStatsL, if_neg parsed.ne_none]
    split_ifs <;> rfl

theorem changeTorrentStatsL_stop_downloaded {counters : TorrentCounters} {event : UInt8}
    (known : event ≠ uriEventIdNone) :
    (changeTorrentStatsL counters event uriEventIdNone).downloaded = counters.downloaded := by
  rw [changeTorrentStatsL, if_neg known, if_pos rfl]
  split_ifs <;> rfl

theorem emptyTorrent_represented : Represented TorrentData.empty Swarm.empty where
  exactly := emptyCounters_exact
  members := fun hash => by simp [Swarm.empty]
  downloaded := rfl
  known := fun hash peer present => by simp at present

theorem Represented.join {torrent torrent' : TorrentData} {swarm : Swarm} {query : Query}
    {protocol : UInt8} {now : Int} {delay : UInt32} (peers : PeersInv torrent.peerList)
    (represented : Represented torrent swarm) (fits : FitsRoles query torrent)
    (parsed : ParsedEvent query.event) (goesOn : query.event ≠ uriEventIdStopped)
    (changed : setPeer torrent query protocol now = .ok (torrent', delay)) :
    Represented torrent' (swarm.join query.event query.peerId.list now) := by
  have exactly := setPeer_counters peers represented.exactly goesOn
    (fits.counters represented parsed) changed
  obtain ⟨peers', _, counters, update⟩ := setPeer_of_ok peers changed
  have values := update.value_eq peers.inv.linked peers'.inv.linked
  refine ⟨exactly, ?_, ?_, ?_⟩
  · intro hash
    rw [values, Swarm.join_members, represented.roleOf]
    by_cases same : hash = query.peerId.list
    · rw [same, Function.update_self, Function.update_self, Option.map_some,
        role_update fits.keepsRole]
    · rw [Function.update_of_ne same, Function.update_of_ne same, represented.members]
  · have room := fun completes was => (fits.roomComplete completes was).2
    rw [counters, changeTorrentStatsL_downloaded parsed room, represented.downloaded, Swarm.join]
    simp only [becomes_seeder_iff, represented.roleOf]
    simp only [role_ne_seeder_iff]
  · intro hash peer present
    rw [values] at present
    by_cases same : hash = query.peerId.list
    · rw [same, Function.update_self] at present
      cases present
      exact parsed.ne_none
    · rw [Function.update_of_ne same] at present
      exact represented.known hash peer present

theorem Represented.leave {torrent torrent' : TorrentData} {swarm : Swarm} {query : Query}
    (peers : PeersInv torrent.peerList) (represented : Represented torrent swarm)
    (fits : FitsRoles query torrent) (parsed : ParsedEvent query.event)
    (removed : deletePeer torrent query = .ok torrent') :
    Represented torrent' (swarm.leave query.peerId.list) := by
  have exactly := deletePeer_counters peers represented.exactly (fits.counters represented parsed)
    removed
  obtain ⟨peers', _, counters, update⟩ := deletePeer_of_ok peers removed
  have values := update.value_eq peers.inv.linked peers'.inv.linked
  refine ⟨exactly, ?_, ?_, ?_⟩
  · intro hash
    rw [values, Swarm.leave_members]
    by_cases same : hash = query.peerId.list
    · rw [same, Function.update_self, Function.update_self, Option.map_none]
    · rw [Function.update_of_ne same, Function.update_of_ne same, represented.members]
  · rw [counters, Swarm.leave, ← represented.downloaded]
    cases stored : torrent.peerList.value query.peerId.list with
    | none => rfl
    | some peer =>
        exact congrArg UInt32.toNat
          (changeTorrentStatsL_stop_downloaded (represented.known query.peerId.list peer stored))
  · intro hash peer present
    rw [values] at present
    by_cases same : hash = query.peerId.list
    · rw [same, Function.update_self] at present
      cases present
    · rw [Function.update_of_ne same] at present
      exact represented.known hash peer present

theorem Represented.keep {limitTime : Int} {torrent torrent' : TorrentData} {swarm : Swarm}
    (peers : PeersInv torrent.peerList) (represented : Represented torrent swarm)
    (collected : Collected limitTime torrent torrent') :
    Represented torrent' (swarm.keep limitTime) := by
  refine ⟨collected.counters_exact represented.exactly, ?_, ?_, ?_⟩
  · intro hash
    rw [collected.value peers, Swarm.keep_members, represented.members]
    cases torrent.peerList.value hash with
    | none => rfl
    | some peer =>
        by_cases alive : limitTime ≤ peer.updateTime
        · simp [Option.filter, PeerData.member, alive]
        · simp [Option.filter, PeerData.member, alive]
  · rw [collected.counters]
    exact represented.downloaded
  · intro hash peer present
    rw [collected.value peers, Option.filter_eq_some_iff] at present
    exact represented.known hash peer present.1

theorem Represented.survives_iff {limitTime : Int} {torrent : TorrentData} {swarm : Swarm}
    (peers : PeersInv torrent.peerList) (represented : Represented torrent swarm) :
    (∃ hash, (swarm.keep limitTime).members hash ≠ none) ↔ survivors limitTime torrent ≠ [] := by
  simp only [survivors, ne_eq, List.filter_eq_nil_iff, not_forall, not_not, Swarm.keep_members,
    represented.members, Option.filter_eq_none_iff, Option.map_eq_some_iff, exists_prop]
  constructor
  · rintro ⟨hash, member, ⟨peer, stored, rfl⟩, alive⟩
    exact ⟨(hash, peer), (value_eq_some_iff peers.inv.linked).mp stored, alive⟩
  · rintro ⟨⟨hash, peer⟩, member, alive⟩
    exact ⟨hash, peer.member, ⟨peer, (value_eq_some_iff peers.inv.linked).mpr member, rfl⟩, alive⟩

theorem related_none {Left Right : Type} {relation : Left → Right → Prop} {other : Option Right}
    (related : Option.Rel relation none other) : other = none := by
  cases related
  rfl

theorem related_some {Left Right : Type} {relation : Left → Right → Prop} {value : Left}
    {other : Option Right} (related : Option.Rel relation (some value) other) :
    ∃ partner, other = some partner ∧ relation value partner := by
  cases related
  exact ⟨_, rfl, ‹_›⟩

def TableRepresented (torrentList : TorrentList) (swarms : Swarms) : Prop :=
  ∀ hash, Option.Rel Represented (torrentList.value hash) (swarms hash)

structure Step.FitsSwarm (host : Host) (step : Step) (torrentList : TorrentList) : Prop where
  overHttp : ∀ clientAddr datagram, step.action ≠ .serve (.udp clientAddr datagram)
  fits : ∀ query, step.query host = some query →
    FitsRoles query (torrentOf torrentList query.infoHash)

theorem Step.FitsSwarm.parsed {host : Host} {step : Step} {torrentList : TorrentList}
    (fits : step.FitsSwarm host torrentList) {query : Query}
    (announces : step.query host = some query) : ParsedEvent query.event :=
  Step.OverHttp.parsed fits.overHttp announces

theorem TableRepresented.torrentOf {torrentList : TorrentList} {swarms : Swarms}
    (represented : TableRepresented torrentList swarms) (infoHash : ParamValue) :
    Represented (torrentOf torrentList infoHash) ((swarms infoHash.list).getD Swarm.empty) := by
  have related := represented infoHash.list
  unfold Etracker.torrentOf
  cases found : torrentList.value infoHash.list with
  | none =>
      rw [found] at related
      rw [related_none related]
      exact emptyTorrent_represented
  | some torrent =>
      rw [found] at related
      obtain ⟨swarm, present, represents⟩ := related_some related
      rw [present]
      exact represents

theorem Represented.announced {query : Query} {protocol : UInt8} {now : Int}
    {before after : Option TorrentData} {swarms : Swarms}
    (announced : Announced query protocol now before after)
    (peers : PeersInv (before.getD TorrentData.empty).peerList)
    (related : Option.Rel Represented before (swarms query.infoHash.list))
    (represented : Represented (before.getD TorrentData.empty)
      ((swarms query.infoHash.list).getD Swarm.empty))
    (fits : FitsRoles query (before.getD TorrentData.empty)) (parsed : ParsedEvent query.event) :
    Option.Rel Represented after (swarms.announce query now query.infoHash.list) := by
  cases announced with
  | unknown stops =>
      rw [Swarms.announce, if_pos stops, Function.update_self, related_none related]
      exact .none
  | stopped stops removed =>
      obtain ⟨swarm, present, _⟩ := related_some related
      rw [present] at represented
      rw [Swarms.announce, if_pos stops, Function.update_self, present]
      exact .some (represented.leave peers fits parsed removed)
  | stored goesOn changed =>
      rw [Swarms.announce, if_neg goesOn, Function.update_self]
      exact .some (represented.join peers fits parsed goesOn changed)

theorem Swarms.announce_other (swarms : Swarms) (query : Query) (now : Int) {hash : Hash}
    (other : hash ≠ query.infoHash.list) : swarms.announce query now hash = swarms hash := by
  unfold Swarms.announce
  split_ifs
  · rw [Function.update_of_ne other]
  · rw [Function.update_of_ne other]

theorem TableRepresented.collect {limitTime : Int} {torrentList torrentList' : TorrentList}
    {swarms : Swarms} (table : TableInv torrentList)
    (represented : TableRepresented torrentList swarms)
    (collected : CollectedTable limitTime torrentList torrentList') :
    TableRepresented torrentList' (swarms.collect limitTime) := by
  intro hash
  have related := represented hash
  unfold Swarms.collect
  cases found : torrentList.value hash with
  | none =>
      rw [found] at related
      rw [related_none related, collected.absent hash found]
      exact .none
  | some torrent =>
      rw [found] at related
      obtain ⟨swarm, present, represents⟩ := related_some related
      have peers : PeersInv torrent.peerList :=
        table.table.torrents _ ((value_eq_some_iff table.inv.linked).mp found)
      have survives := @Represented.survives_iff limitTime torrent swarm peers represents
      rw [present, Option.bind_some]
      by_cases nobody : survivors limitTime torrent = []
      · rw [collected.dropped hash torrent found nobody,
          if_neg fun somebody => survives.mp somebody nobody]
        exact .none
      · obtain ⟨torrent', found', changed⟩ := collected.kept hash torrent found nobody
        rw [found', if_pos (survives.mpr nobody)]
        exact .some (represents.keep peers changed)

/-- One step of the tracker is one step of the swarms. -/
theorem Step.run_represented {host : Host} {step : Step} {torrentList torrentList' : TorrentList}
    {swarms : Swarms} (table : TableInv torrentList)
    (represented : TableRepresented torrentList swarms) (fits : step.FitsSwarm host torrentList)
    (completed : step.run host torrentList = .ok torrentList') :
    TableRepresented torrentList' (Swarms.step host step swarms) := by
  obtain ⟨table', effect⟩ := step.run_effect table completed
  cases effect with
  | silent serves silent same =>
      rw [same, Swarms.step]
      split
      · exact absurd ‹_› serves
      · rw [silent]
        exact represented
  | collected isCollect collected =>
      rw [Swarms.step, isCollect]
      exact represented.collect table collected
  | @announced request query after isRequest announces update announced =>
      have stepped : Swarms.step host step swarms = swarms.announce query step.now := by
        rw [Swarms.step, isRequest, announces]
      rw [stepped]
      intro hash
      rw [update.value_eq table.inv.linked table'.inv.linked]
      by_cases same : hash = query.infoHash.list
      · rw [same, Function.update_self]
        exact Represented.announced announced (torrentOf_inv table.table query.infoHash)
          (represented query.infoHash.list) (represented.torrentOf query.infoHash)
          (fits.fits query announces) (fits.parsed announces)
      · rw [Function.update_of_ne same, Swarms.announce_other swarms query step.now same]
        exact represented hash

/-- The tracker and the swarms take their steps together. -/
def SwarmRun (host : Host) : TorrentList × Swarms → Prop :=
  Reached (follows (Step.Takes host) (Swarms.step host))
    (fun step state => step.FitsSwarm host state.1) (emptyTorrentList, fun _ => none)

theorem swarmRun_represented {host : Host} {torrentList : TorrentList} {swarms : Swarms}
    (reached : SwarmRun host (torrentList, swarms)) :
    TableInv torrentList ∧ TableRepresented torrentList swarms := by
  apply reached.invariant fun state => TableInv state.1 ∧ TableRepresented state.1 state.2
  · refine ⟨emptyTorrentList_inv, ?_⟩
    intro hash
    simp [emptyTorrentList]
  · rintro step ⟨before, swarms⟩ ⟨after, swarms'⟩ ⟨table, represented⟩ fits ⟨taken, rfl⟩
    exact ⟨(step.run_effect table taken).1, step.run_represented table represented fits taken⟩

/-- The counters of every torrent are those of its swarm. -/
theorem counters_refine_swarms {host : Host} {torrentList : TorrentList} {swarms : Swarms}
    (reached : SwarmRun host (torrentList, swarms)) :
    ∀ hash torrent, torrentList.value hash = some torrent →
      ∃ swarm, swarms hash = some swarm ∧ torrent.complete.toNat = swarm.seeders ∧
        torrent.incomplete.toNat = swarm.leechers ∧
        torrent.downloaded.toNat = swarm.completions := by
  obtain ⟨table, represented⟩ := swarmRun_represented reached
  intro hash torrent found
  have related := represented hash
  rw [found] at related
  obtain ⟨swarm, present, represents⟩ := related_some related
  have peers : PeersInv torrent.peerList :=
    table.table.torrents _ ((value_eq_some_iff table.inv.linked).mp found)
  exact ⟨swarm, present, represents.counters peers⟩

section Plain

def Roll.FitsRoles (query : Query) (roll : Roll) : Prop :=
  (∀ peer ∈ roll.peer query.peerId.list,
    ¬(peer.event = uriEventIdCompleted ∧ query.event = uriEventIdContinue)) ∧
  (query.event = uriEventIdCompleted →
    oldEventOf (roll.peer query.peerId.list) ≠ uriEventIdCompleted →
      roll.complete.toNat + 1 < 2 ^ 32 ∧ roll.downloaded.toNat + 1 < 2 ^ 32) ∧
  (query.event ≠ uriEventIdStopped → query.event ≠ uriEventIdCompleted →
    roll.peer query.peerId.list = none ∨
      oldEventOf (roll.peer query.peerId.list) = uriEventIdCompleted →
        roll.incomplete.toNat + 1 < 2 ^ 32)

instance Roll.decidableFitsRoles (query : Query) (roll : Roll) : Decidable (roll.FitsRoles query) :=
  inferInstanceAs (Decidable (_ ∧ _ ∧ _))

theorem Roll.Of.fitsRoles {roll : Roll} {torrent : TorrentData} {query : Query}
    (rolled : roll.Of torrent) (sound : PeersInv torrent.peerList) (fits : roll.FitsRoles query) :
    Etracker.FitsRoles query torrent := by
  obtain ⟨stored, complete, incomplete⟩ := fits
  rw [rolled.peer sound] at stored complete incomplete
  refine ⟨stored, ?_, ?_⟩
  · rw [Room, Room, rolled.counters]
    exact complete
  · rw [Room, rolled.counters]
    exact incomplete

def Rolls.FitsSwarm (host : Host) (rolls : Rolls) (step : Step) : Prop :=
  step.overHttp = true ∧
    ∀ query ∈ step.query host, (rolls.torrent query.infoHash.list).FitsRoles query

instance Rolls.decidableFitsSwarm (host : Host) (rolls : Rolls) (step : Step) :
    Decidable (rolls.FitsSwarm host step) :=
  inferInstanceAs (Decidable (_ ∧ ∀ query ∈ step.query host, _))

theorem Rolls.Of.fitsSwarm {host : Host} {rolls : Rolls} {torrentList : TorrentList} {step : Step}
    (rolled : rolls.Of torrentList) (table : TableInv torrentList)
    (fits : rolls.FitsSwarm host step) : step.FitsSwarm host torrentList := by
  refine ⟨Step.OverHttp.of_overHttp fits.1, fun query announces => ?_⟩
  exact (rolled.torrent query.infoHash).fitsRoles (torrentOf_inv table.table query.infoHash)
    (fits.2 query announces)

/-- Four peers start; one announces itself again, two complete, one of them stops, and one
expires. -/
def swarmingSteps : List Step :=
  [sampleHttp "7" "1" "&event=started" 1000, sampleHttp "7" "2" "" 1100,
    sampleHttp "7" "3" "&event=completed" 1200, sampleHttp "7" "4" "&event=started" 1300,
    sampleHttp "7" "1" "&event=empty" 4000, sampleHttp "7" "2" "&event=completed" 4100,
    sampleHttp "7" "3" "&event=stopped" 4200, samplePass 5000]

theorem counters_refine_swarms_swarming : ∃ torrentList torrent,
    Traced (Step.Takes plainHost) emptyTorrentList swarmingSteps torrentList ∧
      torrentList.value (Bytes.ofList uriParamValueLength [55]).list = some torrent ∧
      torrent.toTorrentCounters = ⟨1, 1, 2⟩ ∧
      ∀ hash torrent, torrentList.value hash = some torrent →
        ∃ swarm, swarmingSteps.foldl (fun swarms step => Swarms.step plainHost step swarms)
            (fun _ => none) hash = some swarm ∧
          torrent.complete.toNat = swarm.seeders ∧ torrent.incomplete.toNat = swarm.leechers ∧
          torrent.downloaded.toNat = swarm.completions := by
  have few : swarmingSteps.length < 2 ^ 32 := by decide
  have fit : Rolls.FitAll plainHost (Rolls.FitsSwarm plainHost) [] swarmingSteps := by
    decide +kernel
  have allows : ∀ rolls torrentList step, Rolls.Of rolls torrentList → TableInv torrentList →
      Rolls.FitsSwarm plainHost rolls step → Step.FitsSwarm plainHost step torrentList :=
    fun _ _ _ rolled table fits => rolled.fitsSwarm table fits
  obtain ⟨torrentList, traced, reached, rolled⟩ :=
    Rolls.exists_follows (Swarms.step plainHost) (fun _ => none) allows few fit
  have left : ((Rolls.after plainHost swarmingSteps).find
      (Bytes.ofList uriParamValueLength [55]).list).map Roll.toTorrentCounters =
        some ⟨1, 1, 2⟩ := by
    decide +kernel
  obtain ⟨roll, isRoll, counters⟩ := Option.map_eq_some_iff.mp left
  obtain ⟨torrent, present, one⟩ := rolled.value isRoll
  exact ⟨torrentList, torrent, traced, present, one.counters.trans counters,
    counters_refine_swarms reached⟩

theorem PlainStep.swarms {step : Step} {event : UInt8} (plain : PlainStep step event)
    (goesOn : event ≠ uriEventIdStopped) (swarms : Swarms) :
    Swarms.step plainHost step swarms (Bytes.zero uriParamValueLength).list =
      some (((swarms (Bytes.zero uriParamValueLength).list).getD Swarm.empty).join event
        (Bytes.zero uriParamValueLength).list step.now) := by
  obtain ⟨request, isRequest⟩ := plain.isRequest
  obtain ⟨query, announces, rfl, infoHashIs, peerIdIs⟩ := plain.announces
  have stepped : Swarms.step plainHost step swarms = swarms.announce query step.now := by
    rw [Swarms.step, isRequest, announces]
  rw [stepped, Swarms.announce, if_neg goesOn, infoHashIs, peerIdIs, Function.update_self]

noncomputable def startedAgain : Swarms :=
  Swarms.step plainHost (plainHttp "" 1200) (Swarms.step plainHost (plainHttp "&event=empty" 1100)
    (Swarms.step plainHost (plainHttp "&event=completed" 1000) fun _ => none))

theorem Swarm.join_seeders {swarm : Swarm} {event : UInt8} {hash : Hash} {now : Int}
    (leeches : roleAfter event (swarm.roleOf hash) = .leecher)
    (alone : ∀ other, other ≠ hash → swarm.members other = none) :
    (swarm.join event hash now).seeders = 0 := by
  have nobody : {other | ∃ member, (swarm.join event hash now).members other = some member ∧
      member.role = .seeder} = ∅ := by
    rw [Set.eq_empty_iff_forall_notMem]
    rintro other ⟨member, present, seeds⟩
    rw [Swarm.join_members, leeches] at present
    by_cases same : other = hash
    · rw [same, Function.update_self] at present
      cases present
      cases seeds
    · rw [Function.update_of_ne same, alone other same] at present
      cases present
  rw [Swarm.seeders, Swarm.count, nobody, Set.ncard_empty]

/-- The stored event forgets that the peer was a seeder: nobody seeds, one is counted. -/
theorem counters_refine_swarms_fails : ∃ completed unknown started torrent swarm,
    (plainHttp "&event=completed" 1000).run plainHost emptyTorrentList = .ok completed ∧
      (plainHttp "&event=empty" 1100).run plainHost completed = .ok unknown ∧
      (plainHttp "" 1200).run plainHost unknown = .ok started ∧
      started.value (Bytes.zero uriParamValueLength).list = some torrent ∧
      startedAgain (Bytes.zero uriParamValueLength).list = some swarm ∧
      torrent.complete = 1 ∧ swarm.seeders = 0 := by
  obtain ⟨completed, _, _, run, first, firstEvent, _, firstCounters⟩ :=
    (plainHttp_completed 1000).first (by decide)
  obtain ⟨unknown, _, _, run', second, secondEvent, secondCounters⟩ :=
    (plainHttp_unknown 1100).next (by decide) first
  obtain ⟨started, torrent, _, run'', third, _, thirdCounters⟩ :=
    (plainHttp_unnamed 1200).next (by decide) second
  have swarmIs := (plainHttp_unnamed 1200).swarms (by decide) (Swarms.step plainHost
    (plainHttp "&event=empty" 1100) (Swarms.step plainHost (plainHttp "&event=completed" 1000)
      fun _ => none))
  rw [(plainHttp_unknown 1100).swarms (by decide), Option.getD_some,
    (plainHttp_completed 1000).swarms (by decide), Option.getD_some] at swarmIs
  refine ⟨completed, unknown, started, torrent, _, run, run', run'', third.found, swarmIs, ?_, ?_⟩
  · rw [thirdCounters, secondCounters, firstCounters, secondEvent, firstEvent]
    decide
  · apply Swarm.join_seeders
    · rfl
    · intro other differs
      rw [Swarm.join_members, Function.update_of_ne differs, Swarm.join_members,
        Function.update_of_ne differs]
      rfl

end Plain

end Etracker
