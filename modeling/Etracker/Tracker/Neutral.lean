import Etracker.Tracker.Step
import Etracker.Uri.Event

namespace Etracker

open Foundation Foundation.CString Foundation.Outcome Foundation.Runs

/-- A request that carries no event: the parameter is missing, or the number is zero. -/
def Request.Eventless (settings : Settings) : Request → Prop
  | .http clientAddr readBuffer => ascii "event" ∉ announceParams settings clientAddr readBuffer
  | .udp _ datagram => readBigEndian datagram 80 = 0

def Request.isHttp : Request → Bool
  | .http _ _ => true
  | .udp _ _ => false

/-- An announce of one peer to one torrent, without an event. -/
structure Reannounce (host : Host) (infoHash peerId : ParamValue) where
  now : Int
  settings : Settings
  request : Request
  query : Query
  announces : request.query host settings = some query
  eventless : request.Eventless settings
  infoHash_eq : query.infoHash = infoHash
  peerId_eq : query.peerId = peerId

namespace Reannounce

variable {host : Host} {infoHash peerId : ParamValue}

def step (reannounce : Reannounce host infoHash peerId) : Step :=
  ⟨reannounce.now, reannounce.settings, .serve reannounce.request⟩

/-- The handlers have different defaults for the event. -/
theorem event_eq (reannounce : Reannounce host infoHash peerId) :
    reannounce.query.event =
      if reannounce.request.isHttp = true then uriEventIdStarted else uriEventIdNone := by
  obtain ⟨now, settings, request, query, announces, eventless, _, _⟩ := reannounce
  cases request with
  | http clientAddr readBuffer =>
      simp only [Request.query, httpAnnounce] at announces
      split_ifs at announces
      cases announces
      exact httpQuery_unnamed host eventless
  | udp clientAddr datagram =>
      have zero : readBigEndian datagram 80 = 0 := eventless
      simp only [Request.query] at announces
      split_ifs at announces
      cases announces
      simp [udpQuery, zero, Request.isHttp, uriEventIdNone]

theorem goesOn (reannounce : Reannounce host infoHash peerId) :
    reannounce.query.event ≠ uriEventIdStopped := by
  rw [event_eq]
  split_ifs <;> decide

end Reannounce

/-- Each of the announces leaves the counters of the torrent as they were. -/
def Neutral (host : Host) (infoHash peerId : ParamValue) (counters : TorrentCounters) :
    List (Reannounce host infoHash peerId) → TorrentList → Prop
  | [], _ => True
  | reannounce :: rest, torrentList =>
      ∃ torrentList' torrent, reannounce.step.run host torrentList = .ok torrentList' ∧
        torrentList'.value infoHash.list = some torrent ∧ torrent.toTorrentCounters = counters ∧
        Neutral host infoHash peerId counters rest torrentList'

theorem add_one_ne (counter : UInt32) : counter + 1 ≠ counter := by
  intro same
  have one : (1 : UInt32) = 0 := by grind
  exact absurd one (by decide)

theorem sub_one_ne (counter : UInt32) : counter - 1 ≠ counter := by
  intro same
  have one : (1 : UInt32) = 0 := by grind
  exact absurd one (by decide)

/-- The stored events that an announce counted as started does not move. -/
def Leeches (event : UInt8) : Prop := event ≠ uriEventIdNone ∧ event ≠ uriEventIdCompleted

theorem changeTorrentStatsL_started_eq_iff (counters : TorrentCounters) (oldEvent : UInt8) :
    changeTorrentStatsL counters oldEvent uriEventIdStarted = counters ↔
      Leeches oldEvent := by
  by_cases unknown : oldEvent = uriEventIdNone
  · rw [changeTorrentStatsL, if_pos unknown, if_neg (by decide)]
    constructor
    · intro same
      exact absurd (congrArg TorrentCounters.incomplete same) (add_one_ne _)
    · intro known
      exact absurd unknown known.1
  · rw [changeTorrentStatsL, if_neg unknown, if_neg (by decide)]
    by_cases completed : oldEvent = uriEventIdCompleted
    · rw [completed, if_pos (by decide), if_pos rfl]
      constructor
      · intro same
        exact absurd (congrArg TorrentCounters.incomplete same) (add_one_ne _)
      · intro seeds
        exact absurd rfl seeds.2
    · rw [if_neg completed, if_neg (show uriEventIdStarted ≠ uriEventIdCompleted by decide),
        ite_self]
      exact ⟨fun _ => ⟨unknown, completed⟩, fun _ => rfl⟩

theorem changeTorrentStatsL_none_ne (counters : TorrentCounters) (oldEvent : UInt8) :
    changeTorrentStatsL counters oldEvent uriEventIdNone ≠ counters := by
  intro same
  unfold changeTorrentStatsL at same
  split_ifs at same with unknown completes removed completed
  · exact absurd completes (by decide)
  · exact add_one_ne _ (congrArg TorrentCounters.incomplete same)
  · exact sub_one_ne _ (congrArg TorrentCounters.complete same)
  · exact sub_one_ne _ (congrArg TorrentCounters.incomplete same)
  all_goals exact absurd rfl removed

theorem Reannounce.run_spec {host : Host} {infoHash peerId : ParamValue}
    (reannounce : Reannounce host infoHash peerId) {torrentList : TorrentList}
    (table : TableInv torrentList) {torrent : TorrentData}
    (found : torrentList.value infoHash.list = some torrent) {peer : PeerData}
    (stored : torrent.peerList.value peerId.list = some peer) :
    ∃ torrentList' torrent' peer', reannounce.step.run host torrentList = .ok torrentList' ∧
      TableInv torrentList' ∧ torrentList'.value infoHash.list = some torrent' ∧
      torrent'.peerList.value peerId.list = some peer' ∧
      peer'.event = reannounce.query.event ∧
      torrent'.toTorrentCounters =
        changeTorrentStatsL torrent.toTorrentCounters peer.event reannounce.query.event := by
  have announces : reannounce.step.query host = some reannounce.query := reannounce.announces
  obtain ⟨torrentList', torrent', completed, table', values, counters, update⟩ :=
    Step.run_stores table rfl announces reannounce.goesOn
  rw [Step.peerOf, reannounce.infoHash_eq, reannounce.peerId_eq, torrentOf_some found, stored]
    at counters update
  rw [reannounce.infoHash_eq] at values
  have found' : torrentList'.value infoHash.list = some torrent' := by
    rw [values, Function.update_self]
  have sound : PeersInv torrent.peerList :=
    table.table.torrents _ ((value_eq_some_iff table.inv.linked).mp found)
  have sound' : PeersInv torrent'.peerList :=
    table'.table.torrents _ ((value_eq_some_iff table'.inv.linked).mp found')
  refine ⟨torrentList', torrent', peer.update reannounce.query reannounce.request.protocol
    reannounce.step.now, completed, table', found', ?_, rfl, counters⟩
  rw [update.value_eq sound.inv.linked sound'.inv.linked, Function.update_self]
  rfl

theorem Reannounce.leaves_iff {host : Host} {infoHash peerId : ParamValue}
    (reannounce : Reannounce host infoHash peerId) (counters : TorrentCounters)
    (oldEvent : UInt8) :
    changeTorrentStatsL counters oldEvent reannounce.query.event = counters ↔
      reannounce.request.isHttp = true ∧ Leeches oldEvent := by
  rw [reannounce.event_eq]
  split_ifs with http
  · rw [changeTorrentStatsL_started_eq_iff, and_iff_right http]
  · constructor
    · intro same
      exact absurd same (changeTorrentStatsL_none_ne counters oldEvent)
    · rintro ⟨isHttp, _⟩
      exact absurd isHttp http

theorem neutral_iff {host : Host} {infoHash peerId : ParamValue} {torrentList : TorrentList}
    (table : TableInv torrentList) {torrent : TorrentData}
    (found : torrentList.value infoHash.list = some torrent) {peer : PeerData}
    (stored : torrent.peerList.value peerId.list = some peer)
    (reannounces : List (Reannounce host infoHash peerId)) :
    Neutral host infoHash peerId torrent.toTorrentCounters reannounces torrentList ↔
      reannounces = [] ∨ Leeches peer.event ∧
        ∀ reannounce ∈ reannounces, reannounce.request.isHttp = true := by
  induction reannounces generalizing torrentList torrent peer with
  | nil => simp [Neutral]
  | cons reannounce rest ih =>
      obtain ⟨torrentList', torrent', peer', completed, table', found', stored', eventIs,
        counters⟩ := reannounce.run_spec table found stored
      have leaves := reannounce.leaves_iff torrent.toTorrentCounters peer.event
      have continues := ih table' found' stored'
      rw [← counters] at leaves
      constructor
      · rintro ⟨reached, after, completed', found'', same, later⟩
        rw [completed] at completed'
        cases completed'
        rw [found'] at found''
        cases found''
        obtain ⟨http, leeches⟩ := leaves.mp same
        rw [← same] at later
        refine Or.inr ⟨leeches, ?_⟩
        intro other member
        rcases List.mem_cons.mp member with rfl | behind
        · exact http
        · rcases continues.mp later with empty | ⟨_, all⟩
          · simp [empty] at behind
          · exact all other behind
      · intro condition
        obtain ⟨leeches, all⟩ := condition.resolve_left (List.cons_ne_nil _ _)
        have http := all reannounce List.mem_cons_self
        have same := leaves.mpr ⟨http, leeches⟩
        refine ⟨torrentList', torrent', completed, found', same, ?_⟩
        rw [← same]
        apply continues.mpr
        refine Or.inr ⟨?_, fun other behind => all other (List.mem_cons_of_mem _ behind)⟩
        rw [eventIs, reannounce.event_eq, if_pos http]
        exact ⟨by decide, by decide⟩

/-- In every reachable table a stored peer may announce itself again without an event
exactly if it leeches and speaks HTTP. -/
theorem reannounces_neutral {host : Host} {torrentList : TorrentList}
    (reachable : Reachable host torrentList) {infoHash peerId : ParamValue}
    {torrent : TorrentData} (found : torrentList.value infoHash.list = some torrent)
    {peer : PeerData} (stored : torrent.peerList.value peerId.list = some peer)
    (reannounces : List (Reannounce host infoHash peerId)) :
    Neutral host infoHash peerId torrent.toTorrentCounters reannounces torrentList ↔
      reannounces = [] ∨ Leeches peer.event ∧
        ∀ reannounce ∈ reannounces, reannounce.request.isHttp = true :=
  neutral_iff (reached_inv reachable) found stored reannounces

set_option maxRecDepth 10000 in
theorem plainText_eventless :
    (Request.http (Bytes.zero _) (plainText "")).Eventless plainSettings := by
  show ascii "event" ∉ announceParams plainSettings (Bytes.zero _) (plainText "")
  decide +kernel

theorem reannounces_neutral_started :
    ∃ torrentList torrent,
      ∃ again : Reannounce plainHost (Bytes.zero uriParamValueLength) (Bytes.zero _),
        (plainHttp "" 1000).run plainHost emptyTorrentList = .ok torrentList ∧
        torrentList.value (Bytes.zero uriParamValueLength).list = some torrent ∧
        Neutral plainHost (Bytes.zero _) (Bytes.zero _) torrent.toTorrentCounters [again, again]
          torrentList := by
  obtain ⟨torrentList, torrent, peer, run, plain, eventIs, _⟩ :=
    (plainHttp_unnamed 1000).first (by decide)
  obtain ⟨query, announces, _, infoHashIs, peerIdIs⟩ := (plainHttp_unnamed 1100).announces
  have leeches : Leeches peer.event := by
    rw [eventIs]
    exact ⟨by decide, by decide⟩
  let again : Reannounce plainHost (Bytes.zero uriParamValueLength) (Bytes.zero _) :=
    ⟨1100, plainSettings, .http (Bytes.zero _) (plainText ""), query, announces,
      plainText_eventless, infoHashIs, peerIdIs⟩
  have http : ∀ reannounce ∈ [again, again], reannounce.request.isHttp = true := by
    intro reannounce member
    have same : reannounce = again := by simpa using member
    rw [same]
    rfl
  exact ⟨torrentList, torrent, again, run, plain.found,
    (reannounces_neutral plain.reachable plain.found plain.stored [again, again]).mpr
      (Or.inr ⟨leeches, http⟩)⟩

/-- A peer that has completed leaves the seeders with its next announce. -/
theorem reannounces_drain :
    ∃ completed silent torrent torrent',
      (plainHttp "&event=completed" 1000).run plainHost emptyTorrentList = .ok completed ∧
      Reachable plainHost completed ∧ (plainHttp "" 1100).run plainHost completed = .ok silent ∧
      (Request.http (Bytes.zero _) (plainText "")).Eventless plainSettings ∧
      completed.value (Bytes.zero uriParamValueLength).list = some torrent ∧
      silent.value (Bytes.zero uriParamValueLength).list = some torrent' ∧
      torrent.toTorrentCounters = ⟨1, 0, 1⟩ ∧ torrent'.toTorrentCounters = ⟨0, 1, 1⟩ := by
  obtain ⟨completed, torrent, peer, run, before, eventIs, _, first⟩ :=
    (plainHttp_completed 1000).first (by decide)
  obtain ⟨silent, torrent', _, run', after, _, second⟩ :=
    (plainHttp_unnamed 1100).next (by decide) before
  refine ⟨completed, silent, torrent, torrent', run, before.reachable, run', plainText_eventless,
    before.found, after.found, ?_, ?_⟩
  · rw [first]
    decide
  · rw [second, first, eventIs]
    decide

end Etracker
