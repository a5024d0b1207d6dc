import Etracker.Data.Packet
import Etracker.Data.Render
import Etracker.Foundation.Runs
import Etracker.Garbage.Exact
import Etracker.Uri.Event

/-! One step of the tracker: a request that a worker serves, or a pass of the
collector. -/

namespace Etracker

open Foundation Foundation.CString Foundation.Outcome Foundation.Runs

/-- What an announce makes of the torrent it is about. -/
inductive Announced (query : Query) (protocol : UInt8) (now : Int) :
    Option TorrentData → Option TorrentData → Prop
  | unknown : query.event = uriEventIdStopped → Announced query protocol now none none
  | stopped {torrent torrent' : TorrentData} : query.event = uriEventIdStopped →
      deletePeer torrent query = .ok torrent' →
      Announced query protocol now (some torrent) (some torrent')
  | stored {before : Option TorrentData} {torrent' : TorrentData} {delay : UInt32} :
      query.event ≠ uriEventIdStopped →
      setPeer (before.getD TorrentData.empty) query protocol now = .ok (torrent', delay) →
      Announced query protocol now before (some torrent')

theorem Announced.goesOn {query : Query} {protocol : UInt8} {now : Int}
    {before after : Option TorrentData} (announced : Announced query protocol now before after)
    (goesOn : query.event ≠ uriEventIdStopped) :
    ∃ torrent' delay, after = some torrent' ∧
      setPeer (before.getD TorrentData.empty) query protocol now = .ok (torrent', delay) := by
  cases announced with
  | unknown stops => exact absurd stops goesOn
  | stopped stops _ => exact absurd stops goesOn
  | stored _ changed => exact ⟨_, _, rfl, changed⟩

def peerIn (torrent : Option TorrentData) (peerId : Hash) : Option PeerData :=
  torrent.bind fun torrent => torrent.peerList.value peerId

theorem peerIn_getD (torrent : Option TorrentData) (peerId : Hash) :
    peerIn torrent peerId = (torrent.getD TorrentData.empty).peerList.value peerId := by
  cases torrent with
  | none => rw [Option.getD_none, emptyPeers_value]; rfl
  | some torrent => rfl

theorem Announced.peerIn_eq {query : Query} {protocol : UInt8} {now : Int}
    {before after : Option TorrentData} (announced : Announced query protocol now before after)
    (peers : PeersInv (before.getD TorrentData.empty).peerList) (peerId : Hash) :
    peerIn after peerId = Function.update (peerIn before) query.peerId.list
      (if query.event = uriEventIdStopped then none
        else some (((peerIn before query.peerId.list).getD PeerData.empty).update query protocol
          now)) peerId := by
  cases announced with
  | unknown stops =>
      have nobody : peerIn none query.peerId.list = none := rfl
      rw [if_pos stops, ← nobody, Function.update_eq_self]
  | stopped stops removed =>
      obtain ⟨torrent', completed, peers', _, _, update⟩ := deletePeer_spec peers query
      rw [Option.getD_some, removed] at completed
      cases completed
      rw [if_pos stops, peerIn, Option.bind_some,
        update.value_eq peers.inv.linked peers'.inv.linked]
      rfl
  | stored goesOn changed =>
      obtain ⟨torrent', completed, peers', _, _, update⟩ := setPeer_spec peers query protocol now
      rw [changed] at completed
      cases completed
      have values : peerIn before = (before.getD TorrentData.empty).peerList.value :=
        funext (peerIn_getD before)
      rw [if_neg goesOn, values, peerIn, Option.bind_some,
        update.value_eq peers.inv.linked peers'.inv.linked]

theorem updatePeers_spec {torrentList : TorrentList} (table : TableLinked torrentList)
    (query : Query) (protocol : UInt8) (now : Int) :
    ∃ torrentList' torrent after,
      updatePeers torrentList query protocol now = .ok (torrentList', torrent) ∧
      TableLinked torrentList' ∧ SameFrame torrentList torrentList' ∧
      Update torrentList torrentList' query.infoHash.list
        (torrentList.value query.infoHash.list) after ∧
      Announced query protocol now (torrentList.value query.infoHash.list) after ∧
      (torrent = none ∧ after = none ∨ ∃ address torrent', torrent = some address ∧
        after = some torrent' ∧ torrentList'.dataOf address = .ok torrent') := by
  by_cases stops : query.event = uriEventIdStopped
  · cases found : torrentList.value query.infoHash.list with
    | none =>
        refine ⟨torrentList, none, none, ?_, table, SameFrame.refl _, ?_, .unknown stops,
          Or.inl ⟨rfl, rfl⟩⟩
        · rw [updatePeers, if_pos stops, deletePeerPublic_none table query found]
        · exact ⟨found, _, List.Perm.refl _, List.Perm.refl _⟩
    | some torrent =>
        obtain ⟨torrentList', address, torrent', completed, table', frame, deleted, update,
          reached⟩ := deletePeerPublic_some table query found
        refine ⟨torrentList', some address, some torrent', ?_, table', frame, update,
          .stopped stops deleted, Or.inr ⟨address, torrent', rfl, rfl, reached⟩⟩
        rw [updatePeers, if_pos stops, completed]
  · obtain ⟨torrentList', address, delay, torrent', completed, table', frame, changed, update,
      reached⟩ := setPeerPublic_spec table query protocol now
    refine ⟨torrentList', some address, some torrent', ?_, table', frame, update,
      .stored stops changed, Or.inr ⟨address, torrent', rfl, rfl, reached⟩⟩
    rw [updatePeers, if_neg stops, completed]
    rfl

def announceReply (inetNtop : InetNtop) (query : Query) (interval : UInt32) :
    Option TorrentData → List UInt8
  | none => announceHead ⟨0, 0, 0⟩ query interval 0 ++ announceTail query
  | some torrent =>
      let block := renderPairs inetNtop query torrent.peerList.pairs [] query.numwant
      announceHead torrent.toTorrentCounters query interval block.length ++ block ++
        announceTail query

theorem renderAnnouncePublic_after (inetNtop : InetNtop) {torrentList : TorrentList}
    (table : TableLinked torrentList) {infoHash : Hash} {torrent : Option Address}
    {after : Option TorrentData}
    (stored : ∀ torrent', after = some torrent' → (infoHash, torrent') ∈ torrentList.pairs)
    (reached : torrent = none ∧ after = none ∨ ∃ address torrent', torrent = some address ∧
      after = some torrent' ∧ torrentList.dataOf address = .ok torrent')
    (query : Query) (interval : UInt32) :
    renderAnnouncePublic inetNtop torrentList torrent query interval =
      .ok (announceReply inetNtop query interval after) := by
  rcases reached with ⟨rfl, rfl⟩ | ⟨address, torrent', rfl, rfl, data⟩
  · rfl
  · have sound : PeersInv torrent'.peerList := table.torrents _ (stored torrent' rfl)
    simp only [renderAnnouncePublic, data, ok_bind, renderAnnouncePeersL_eq inetNtop sound,
      pure_eq_ok, announceReply]

/-- An announce updates the table while the leaf of the torrent is taken, and gives the
leaf back. -/
theorem announce_updates (inetNtop : InetNtop) {torrentList : TorrentList}
    (table : TableInv torrentList) (infoHash : ParamValue) :
    ∃ semaphore, ∀ (query : Query) (protocol : UInt8) (interval : UInt32) (now : Int),
      query.infoHash = infoHash → ∃ changed torrent after,
        updatePeers { torrentList with semaphore := semaphore } query protocol now =
          .ok (changed, torrent) ∧
        announce inetNtop torrentList query protocol interval now =
          .ok ({ changed with semaphore := torrentList.semaphore },
            announceReply inetNtop query interval after) ∧
        TableLinked changed ∧ changed.toListHeader = torrentList.toListHeader ∧
        Update torrentList changed infoHash.list (torrentList.value infoHash.list) after ∧
        Announced query protocol now (torrentList.value infoHash.list) after := by
  have atLeaf := getLeaf_length torrentList.toListHeader infoHash.list
  obtain ⟨semaphore, waited, posted⟩ := waitSemaphoreLeaf_ok table.inv atLeaf
  refine ⟨semaphore, ?_⟩
  rintro query protocol interval now rfl
  obtain ⟨changed, torrent, after, updated, table', frame, update, announced, reached⟩ :=
    updatePeers_spec (table.table.withSemaphore semaphore) query protocol now
  have stored : ∀ torrent', after = some torrent' →
      (query.infoHash.list, torrent') ∈ changed.pairs := by
    rintro torrent' rfl
    obtain ⟨rest, _, new⟩ := update.split
    rw [new.mem_iff]
    simp
  have rendered := renderAnnouncePublic_after inetNtop table' stored reached query interval
  refine ⟨changed, torrent, after, updated, ?_, table', frame.header,
    ⟨update.found, update.split⟩, announced⟩
  simp only [announce, waited, ok_bind, updated, rendered,
    posted changed frame.header frame.semaphore, pure_eq_ok]

theorem announce_spec (inetNtop : InetNtop) {torrentList : TorrentList}
    (table : TableInv torrentList) (query : Query) (protocol : UInt8) (interval : UInt32)
    (now : Int) :
    ∃ torrentList' after,
      announce inetNtop torrentList query protocol interval now =
        .ok (torrentList', announceReply inetNtop query interval after) ∧
      TableInv torrentList' ∧ torrentList'.toListHeader = torrentList.toListHeader ∧
      Update torrentList torrentList' query.infoHash.list
        (torrentList.value query.infoHash.list) after ∧
      Announced query protocol now (torrentList.value query.infoHash.list) after := by
  obtain ⟨semaphore, performs⟩ := announce_updates inetNtop table query.infoHash
  obtain ⟨changed, torrent, after, _, completed, table', header, update, announced⟩ :=
    performs query protocol interval now rfl
  have restored := table'.withSemaphore torrentList.semaphore
  exact ⟨{ changed with semaphore := torrentList.semaphore }, after, completed,
    ⟨table.inv.of_frame ⟨header, rfl⟩ restored.linked, restored⟩, header,
    ⟨update.found, update.split⟩, announced⟩

/-- What a worker receives. -/
inductive Request
  | http (clientAddr : In6Addr) (readBuffer : List UInt8)
  | udp (clientAddr : In6Addr) (datagram : List UInt8)

def httpAnnounce (host : Host) (settings : Settings) (clientAddr : In6Addr)
    (readBuffer : List UInt8) : Option Query :=
  let query := httpQuery host settings clientAddr readBuffer
  if readBuffer.length < threadClientTcpReceivedMessageLength ∧ readBuffer.length ≠ 0 ∧
      strstr (cString readBuffer) (ascii "\r\n\r\n") ≠ none ∧
      startsWith (ascii "GET /announce") (cString readBuffer) = true ∧
      query.hasInfoHash = true ∧ query.port ≠ 0 then some query
  else none

theorem processRead_announce {host : Host} {settings : Settings} {clientAddr : In6Addr}
    {readBuffer : List UInt8} {query : Query}
    (accepted : httpAnnounce host settings clientAddr readBuffer = some query)
    (torrentList : TorrentList) (now : Int) :
    processRead host settings torrentList clientAddr readBuffer now =
      (announce host.inetNtop torrentList query dataStructurePeerProtocolTcpBit settings.interval
        now >>= fun result => .ok (result.1, .announced result.2)) := by
  unfold httpAnnounce at accepted
  dsimp only at accepted
  split_ifs at accepted with guards
  obtain ⟨short, occupied, complete, isAnnounce, hasInfoHash, hasPort⟩ := guards
  cases accepted
  rw [processRead, if_neg (by omega), if_neg occupied, if_neg complete, if_pos isAnnounce]
  simp only [hasInfoHash, Bool.true_eq_false, if_false, if_neg hasPort]
  rfl

theorem processRead_other {host : Host} {settings : Settings} {clientAddr : In6Addr}
    {readBuffer : List UInt8}
    (refused : httpAnnounce host settings clientAddr readBuffer = none)
    (torrentList : TorrentList) (now : Int) :
    ∃ reply, processRead host settings torrentList clientAddr readBuffer now =
      .ok (torrentList, reply) := by
  unfold processRead
  dsimp only
  split_ifs with long empty partly isAnnounce noInfoHash noPort
  · exact ⟨_, rfl⟩
  · exact ⟨_, rfl⟩
  · exact ⟨_, rfl⟩
  · exact ⟨_, rfl⟩
  · exact ⟨_, rfl⟩
  · have accepted : httpAnnounce host settings clientAddr readBuffer =
        some (httpQuery host settings clientAddr readBuffer) := by
      apply if_pos
      exact ⟨by omega, empty, partly, isAnnounce, by simpa using noInfoHash, noPort⟩
    rw [accepted] at refused
    cases refused
  · exact ⟨_, rfl⟩

namespace Request

def query (host : Host) (settings : Settings) : Request → Option Query
  | http clientAddr readBuffer => httpAnnounce host settings clientAddr readBuffer
  | udp clientAddr datagram =>
      if isUdpAnnounce datagram = true then some (udpQuery settings clientAddr datagram) else none

def protocol : Request → UInt8
  | http _ _ => dataStructurePeerProtocolTcpBit
  | udp _ _ => dataStructurePeerProtocolUdpBit

def serve (host : Host) (settings : Settings) (torrentList : TorrentList) (now : Int) :
    Request → Except Fault TorrentList
  | http clientAddr readBuffer => do
      let (torrentList, _) ← processRead host settings torrentList clientAddr readBuffer now
      pure torrentList
  | udp clientAddr datagram => do
      let (torrentList, _) ← clientUdpHandler host settings torrentList clientAddr datagram now
      pure torrentList

theorem serve_announce {host : Host} {settings : Settings} {request : Request} {query : Query}
    (announces : request.query host settings = some query) (torrentList : TorrentList)
    (now : Int) :
    request.serve host settings torrentList now =
      (announce host.inetNtop torrentList query request.protocol settings.interval now >>=
        fun result => .ok result.1) := by
  cases request with
  | http clientAddr readBuffer =>
      have accepted : httpAnnounce host settings clientAddr readBuffer = some query := announces
      simp only [serve, processRead_announce accepted, bind_assoc]
      rfl
  | udp clientAddr datagram =>
      simp only [Request.query] at announces
      split_ifs at announces with isAnnounce
      cases announces
      simp only [serve, clientUdpHandler, if_pos isAnnounce, bind_assoc]
      rfl

theorem serve_other {host : Host} {settings : Settings} {request : Request}
    (silent : request.query host settings = none) (torrentList : TorrentList) (now : Int) :
    request.serve host settings torrentList now = .ok torrentList := by
  cases request with
  | http clientAddr readBuffer =>
      obtain ⟨reply, completed⟩ := processRead_other silent torrentList now
      simp [serve, completed]
  | udp clientAddr datagram =>
      simp only [Request.query] at silent
      split_ifs at silent with isAnnounce
      simp [serve, clientUdpHandler, isAnnounce]

end Request

inductive Action
  | serve (request : Request)
  | collect

/-- An action, the clock and the settings it meets. -/
structure Step where
  now : Int
  settings : Settings
  action : Action

namespace Step

def run (host : Host) (step : Step) (torrentList : TorrentList) : Except Fault TorrentList :=
  match step.action with
  | .serve request => request.serve host step.settings torrentList step.now
  | .collect => do
      let (torrentList, _) ← runGarbageCollectorL torrentList step.now
      pure torrentList

def query (host : Host) (step : Step) : Option Query :=
  match step.action with
  | .serve request => request.query host step.settings
  | .collect => none

/-- What a step does to the table. -/
inductive Effect (host : Host) (step : Step) (torrentList torrentList' : TorrentList) : Prop
  | announced {request : Request} {query : Query} {after : Option TorrentData} :
      step.action = .serve request → step.query host = some query →
      Update torrentList torrentList' query.infoHash.list
        (torrentList.value query.infoHash.list) after →
      Announced query request.protocol step.now (torrentList.value query.infoHash.list) after →
      Effect host step torrentList torrentList'
  | silent : step.action ≠ .collect → step.query host = none → torrentList' = torrentList →
      Effect host step torrentList torrentList'
  | collected : step.action = .collect →
      CollectedTable (limitTimeOf step.now) torrentList torrentList' →
      Effect host step torrentList torrentList'

/-- A step that returns keeps the invariant and has one of the known effects. -/
theorem run_effect {host : Host} {step : Step} {torrentList torrentList' : TorrentList}
    (table : TableInv torrentList) (completed : step.run host torrentList = .ok torrentList') :
    TableInv torrentList' ∧ step.Effect host torrentList torrentList' := by
  obtain ⟨now, settings, action⟩ := step
  cases action with
  | serve request =>
      have served : request.serve host settings torrentList now = .ok torrentList' := completed
      cases announces : request.query host settings with
      | none =>
          rw [Request.serve_other announces] at served
          cases served
          refine ⟨table, .silent ?_ announces rfl⟩
          intro absurdity
          cases absurdity
      | some query =>
          obtain ⟨changed, after, result, table', _, update, announced⟩ :=
            announce_spec host.inetNtop table query request.protocol settings.interval now
          rw [Request.serve_announce announces, result] at served
          cases served
          exact ⟨table', .announced rfl announces update announced⟩
  | collect =>
      obtain ⟨⟨changed, stats⟩, pass, same⟩ := bind_eq_ok completed
      cases same
      have collected := runGarbageCollectorL_ok table pass
      exact ⟨collected.table, .collected rfl collected⟩

/-- Where a torrent after a step comes from: it was there before, was announced, or is left
by a pass. -/
theorem torrent_cases {host : Host} {step : Step} {torrentList torrentList' : TorrentList}
    (table : TableInv torrentList) (completed : step.run host torrentList = .ok torrentList')
    {hash : Hash} {torrent' : TorrentData} (present : torrentList'.value hash = some torrent') :
    torrentList.value hash = some torrent' ∨
    (∃ request query, step.action = .serve request ∧ step.query host = some query ∧
      hash = query.infoHash.list ∧
      Announced query request.protocol step.now (torrentList.value hash) (some torrent')) ∨
    ∃ torrent, torrentList.value hash = some torrent ∧
      Collected (limitTimeOf step.now) torrent torrent' := by
  obtain ⟨table', effect⟩ := step.run_effect table completed
  cases effect with
  | silent _ _ same =>
      rw [same] at present
      exact Or.inl present
  | collected _ collected =>
      cases found : torrentList.value hash with
      | none =>
          rw [collected.absent hash found] at present
          cases present
      | some torrent =>
          by_cases nobody : survivors (limitTimeOf step.now) torrent = []
          · rw [collected.dropped hash torrent found nobody] at present
            cases present
          · obtain ⟨after, left, changed⟩ := collected.kept hash torrent found nobody
            rw [present] at left
            cases left
            exact Or.inr (Or.inr ⟨torrent, rfl, changed⟩)
  | @announced request query after isRequest announces update announced =>
      rw [update.value_eq table.inv.linked table'.inv.linked] at present
      by_cases same : hash = query.infoHash.list
      · rw [same, Function.update_self] at present
        rw [present, ← same] at announced
        exact Or.inr (Or.inl ⟨request, query, isRequest, announces, same, announced⟩)
      · rw [Function.update_of_ne same] at present
        exact Or.inl present

/-- The step is no announce over UDP. -/
def OverHttp (step : Step) : Prop :=
  ∀ clientAddr datagram, step.action ≠ .serve (.udp clientAddr datagram)

theorem OverHttp.parsed {host : Host} {step : Step} (overHttp : step.OverHttp) {query : Query}
    (announces : step.query host = some query) : ParsedEvent query.event := by
  obtain ⟨now, settings, action⟩ := step
  cases action with
  | collect => cases announces
  | serve request =>
      cases request with
      | udp clientAddr datagram => exact absurd rfl (overHttp clientAddr datagram)
      | http clientAddr readBuffer =>
          simp only [Step.query, Request.query, httpAnnounce] at announces
          split_ifs at announces
          cases announces
          exact httpQuery_parsed host settings clientAddr readBuffer

def peerAt (torrentList : TorrentList) (infoHash peerId : Hash) : Option PeerData :=
  peerIn (torrentList.value infoHash) peerId

theorem peerAt_collected {limitTime : Int} {before after : TorrentList} (table : TableInv before)
    (collected : CollectedTable limitTime before after) (infoHash peerId : Hash) :
    peerAt after infoHash peerId = (peerAt before infoHash peerId).filter fun peer =>
      limitTime ≤ peer.updateTime := by
  unfold peerAt
  cases found : before.value infoHash with
  | none =>
      rw [collected.absent infoHash found]
      rfl
  | some torrent =>
      have peers : PeersInv torrent.peerList :=
        table.table.torrents _ ((value_eq_some_iff table.inv.linked).mp found)
      by_cases nobody : survivors limitTime torrent = []
      · rw [collected.dropped infoHash torrent found nobody]
        symm
        apply Option.filter_eq_none_iff.mpr
        intro peer present alive
        have member := (value_eq_some_iff peers.inv.linked).mp present
        exact List.filter_eq_nil_iff.mp nobody _ member alive
      · obtain ⟨torrent', found', changed⟩ := collected.kept infoHash torrent found nobody
        rw [found']
        exact changed.value peers peerId

/-- A step changes only the peer it announces, and a pass removes only what expired. -/
theorem peerAt_run {host : Host} {step : Step} {torrentList torrentList' : TorrentList}
    (table : TableInv torrentList) (completed : step.run host torrentList = .ok torrentList')
    (infoHash peerId : Hash) :
    peerAt torrentList' infoHash peerId =
      match step.action, step.query host with
      | .collect, _ => (peerAt torrentList infoHash peerId).filter fun peer =>
          limitTimeOf step.now ≤ peer.updateTime
      | .serve _, none => peerAt torrentList infoHash peerId
      | .serve request, some query =>
          if infoHash = query.infoHash.list ∧ peerId = query.peerId.list then
            if query.event = uriEventIdStopped then none
            else some (((peerAt torrentList infoHash peerId).getD PeerData.empty).update query
              request.protocol step.now)
          else peerAt torrentList infoHash peerId := by
  obtain ⟨table', effect⟩ := step.run_effect table completed
  cases effect with
  | silent serves silent same =>
      cases isRequest : step.action with
      | collect => exact absurd isRequest serves
      | serve request => rw [silent, same]
  | collected isCollect collected =>
      rw [isCollect]
      exact peerAt_collected table collected infoHash peerId
  | @announced request query after isRequest announces update announced =>
      have values := update.value_eq table.inv.linked table'.inv.linked
      simp only [isRequest, announces]
      by_cases same : infoHash = query.infoHash.list
      · subst same
        rw [peerAt, values, Function.update_self,
          announced.peerIn_eq (torrentOf_inv table.table query.infoHash)]
        by_cases samePeer : peerId = query.peerId.list
        · have both : query.infoHash.list = query.infoHash.list ∧ peerId = query.peerId.list :=
            ⟨rfl, samePeer⟩
          rw [if_pos both, samePeer, Function.update_self, peerAt]
        · have apart : ¬(query.infoHash.list = query.infoHash.list ∧ peerId = query.peerId.list) :=
            fun both => samePeer both.2
          rw [if_neg apart, Function.update_of_ne samePeer, peerAt]
      · rw [if_neg fun both => same both.1, peerAt, values, Function.update_of_ne same, peerAt]

theorem run_serves {host : Host} {step : Step} {torrentList : TorrentList}
    (table : TableInv torrentList) (serves : step.action ≠ .collect) :
    ∃ torrentList', step.run host torrentList = .ok torrentList' := by
  obtain ⟨now, settings, action⟩ := step
  cases action with
  | collect => exact absurd rfl serves
  | serve request =>
      show ∃ torrentList', request.serve host settings torrentList now = .ok torrentList'
      cases announces : request.query host settings with
      | none => exact ⟨torrentList, Request.serve_other announces torrentList now⟩
      | some query =>
          obtain ⟨changed, after, result, _⟩ :=
            announce_spec host.inetNtop table query request.protocol settings.interval now
          exact ⟨changed, by rw [Request.serve_announce announces, result]; rfl⟩

def peerOf (torrentList : TorrentList) (query : Query) : Option PeerData :=
  (torrentOf torrentList query.infoHash).peerList.value query.peerId.list

theorem run_sets {host : Host} {step : Step} {torrentList : TorrentList} {query : Query}
    {request : Request} (table : TableInv torrentList) (isRequest : step.action = .serve request)
    (announces : step.query host = some query) (goesOn : query.event ≠ uriEventIdStopped) :
    ∃ torrentList' torrent' delay, step.run host torrentList = .ok torrentList' ∧
      TableInv torrentList' ∧
      torrentList'.value = Function.update torrentList.value query.infoHash.list (some torrent') ∧
      setPeer (torrentOf torrentList query.infoHash) query request.protocol step.now =
        .ok (torrent', delay) := by
  obtain ⟨now, settings, action⟩ := step
  cases isRequest
  obtain ⟨torrentList', after, result, table', _, update, announced⟩ :=
    announce_spec host.inetNtop table query request.protocol settings.interval now
  obtain ⟨torrent', delay, rfl, changed⟩ := announced.goesOn goesOn
  refine ⟨torrentList', torrent', delay, ?_, table',
    update.value_eq table.inv.linked table'.inv.linked, changed⟩
  show request.serve host settings torrentList now = .ok torrentList'
  rw [Request.serve_announce announces, result]
  rfl

theorem run_stores {host : Host} {step : Step} {torrentList : TorrentList} {query : Query}
    {request : Request} (table : TableInv torrentList) (isRequest : step.action = .serve request)
    (announces : step.query host = some query) (goesOn : query.event ≠ uriEventIdStopped) :
    ∃ torrentList' torrent', step.run host torrentList = .ok torrentList' ∧
      TableInv torrentList' ∧
      torrentList'.value = Function.update torrentList.value query.infoHash.list (some torrent') ∧
      torrent'.toTorrentCounters = changeTorrentStatsL
        (torrentOf torrentList query.infoHash).toTorrentCounters
        (oldEventOf (peerOf torrentList query)) query.event ∧
      Update (torrentOf torrentList query.infoHash).peerList torrent'.peerList query.peerId.list
        (peerOf torrentList query)
        (some (((peerOf torrentList query).getD PeerData.empty).update query request.protocol
          step.now)) := by
  obtain ⟨torrentList', torrent', delay, ran, table', values, changed⟩ :=
    run_sets table isRequest announces goesOn
  obtain ⟨torrent, completed, _, _, counters, peerUpdate⟩ :=
    setPeer_spec (torrentOf_inv table.table query.infoHash) query request.protocol step.now
  obtain ⟨rfl, _⟩ := Prod.mk.inj (Except.ok.inj (changed.symm.trans completed))
  exact ⟨torrentList', torrent', ran, table', values, counters, peerUpdate⟩

/-- The steps that return. -/
def Takes (host : Host) (step : Step) (before after : TorrentList) : Prop :=
  step.run host before = .ok after

end Step

/-- The tables of all runs of the tracker. -/
def Reachable (host : Host) : TorrentList → Prop :=
  Reached (Step.Takes host) (fun _ _ => True) emptyTorrentList

theorem reached_inv {host : Host} {meets : Step → TorrentList → Prop} {torrentList : TorrentList}
    (reached : Reached (Step.Takes host) meets emptyTorrentList torrentList) :
    TableInv torrentList := by
  apply reached.invariant TableInv emptyTorrentList_inv
  intro step before after table _ taken
  exact (Step.run_effect table taken).1

section Plain

def plainHost : Host := ⟨fun _ _ buffer => (0, buffer), fun _ _ => ascii "::"⟩

def plainSettings : Settings := ⟨200, 150, none⟩

def plainPacket (event : UInt32) : AnnouncePacket where
  connectionId := Bytes.zero _
  transactionId := Bytes.zero _
  infoHash := Bytes.zero _
  peerId := Bytes.zero _
  transferred := Bytes.zero _
  event := event
  ipAndKey := Bytes.zero _
  numwant := 50
  port := 6881

def plainText (parameter : String) : List UInt8 :=
  ascii "GET /announce?info_hash=" ++ (List.replicate uriParamValueLength (ascii "%00")).flatten ++
    ascii "&peer_id=" ++ (List.replicate uriParamValueLength (ascii "%00")).flatten ++
    ascii "&port=6881" ++ ascii parameter ++ ascii " HTTP/1.1\r\n\r\n"

def plainUdp (event : UInt32) (now : Int) : Step :=
  ⟨now, plainSettings, .serve (.udp (Bytes.zero _) (plainPacket event).bytes)⟩

def plainHttp (parameter : String) (now : Int) : Step :=
  ⟨now, plainSettings, .serve (.http (Bytes.zero _) (plainText parameter))⟩

structure PlainStep (step : Step) (event : UInt8) : Prop where
  isRequest : ∃ request, step.action = .serve request
  announces : ∃ query, step.query plainHost = some query ∧ query.event = event ∧
    query.infoHash = Bytes.zero _ ∧ query.peerId = Bytes.zero _

theorem plainPacket_query (host : Host) (settings : Settings) (event : UInt32) :
    ∃ query, (Request.udp (Bytes.zero _) (plainPacket event).bytes).query host settings =
        some query ∧ query.event = event.toUInt8 ∧ query.infoHash = Bytes.zero _ ∧
      query.peerId = Bytes.zero _ := by
  refine ⟨_, if_pos (plainPacket event).isUdpAnnounce_bytes, ?_⟩
  rw [AnnouncePacket.udpQuery_bytes]
  simp [plainPacket]

theorem plainUdp_plain (event : UInt32) (now : Int) :
    PlainStep (plainUdp event now) event.toUInt8 where
  isRequest := ⟨_, rfl⟩
  announces := plainPacket_query plainHost plainSettings event

theorem plainHttp_plain {parameter : String} {event : UInt8} {now : Int}
    (parses : (httpAnnounce plainHost plainSettings (Bytes.zero _) (plainText parameter)).map
      (fun query => (query.event, query.infoHash, query.peerId)) =
        some (event, Bytes.zero _, Bytes.zero _)) :
    PlainStep (plainHttp parameter now) event where
  isRequest := ⟨_, rfl⟩
  announces := by
    obtain ⟨query, announces, fields⟩ := Option.map_eq_some_iff.mp parses
    simp only [Prod.mk.injEq] at fields
    exact ⟨query, announces, fields⟩

set_option maxRecDepth 10000 in
theorem plainHttp_completed (now : Int) :
    PlainStep (plainHttp "&event=completed" now) uriEventIdCompleted :=
  plainHttp_plain (by decide +kernel)

set_option maxRecDepth 10000 in
theorem plainHttp_unknown (now : Int) :
    PlainStep (plainHttp "&event=empty" now) uriEventIdContinue :=
  plainHttp_plain (by decide +kernel)

set_option maxRecDepth 10000 in
theorem plainHttp_unnamed (now : Int) : PlainStep (plainHttp "" now) uriEventIdStarted :=
  plainHttp_plain (by decide +kernel)

structure PlainTable (torrentList : TorrentList) (torrent : TorrentData) (peer : PeerData) :
    Prop where
  reachable : Reachable plainHost torrentList
  found : torrentList.value (Bytes.zero uriParamValueLength).list = some torrent
  stored : torrent.peerList.value (Bytes.zero uriParamValueLength).list = some peer
  single : torrent.peerList.entries.length = 1

theorem PlainTable.peers {torrentList : TorrentList} {torrent : TorrentData} {peer : PeerData}
    (plain : PlainTable torrentList torrent peer) : PeersInv torrent.peerList := by
  have table := reached_inv plain.reachable
  exact table.table.torrents _ ((value_eq_some_iff table.inv.linked).mp plain.found)

theorem PlainStep.first {step : Step} {event : UInt8} (plain : PlainStep step event)
    (goesOn : event ≠ uriEventIdStopped) :
    ∃ torrentList torrent peer, step.run plainHost emptyTorrentList = .ok torrentList ∧
      PlainTable torrentList torrent peer ∧ peer.event = event ∧ peer.updateTime = step.now ∧
      torrent.toTorrentCounters = changeTorrentStatsL ⟨0, 0, 0⟩ uriEventIdNone event := by
  obtain ⟨request, isRequest⟩ := plain.isRequest
  obtain ⟨query, announces, rfl, infoHashIs, peerIdIs⟩ := plain.announces
  obtain ⟨torrentList, torrent, completed, table, values, counters, update⟩ :=
    Step.run_stores emptyTorrentList_inv isRequest announces goesOn
  rw [Step.peerOf, infoHashIs, peerIdIs, torrentOf_empty, emptyPeers_value] at counters update
  rw [infoHashIs] at values
  have found : torrentList.value (Bytes.zero uriParamValueLength).list = some torrent := by
    rw [values, Function.update_self]
  have sound : PeersInv torrent.peerList :=
    table.table.torrents _ ((value_eq_some_iff table.inv.linked).mp found)
  have single : torrent.peerList.pairs.length = 1 := by
    simpa [TorrentData.empty] using update.countP_eq fun _ => true
  refine ⟨torrentList, torrent, PeerData.empty.update query request.protocol step.now, completed,
    ⟨.next .start trivial completed, found, ?_, ?_⟩, rfl, rfl, counters⟩
  · rw [update.value_eq emptyPeers_inv.inv.linked sound.inv.linked, Function.update_self]
    rfl
  · rw [← pairs_length sound.filled, single]

theorem PlainStep.next {step : Step} {event : UInt8} (plain : PlainStep step event)
    (goesOn : event ≠ uriEventIdStopped) {torrentList : TorrentList} {torrent : TorrentData}
    {peer : PeerData} (before : PlainTable torrentList torrent peer) :
    ∃ torrentList' torrent' peer', step.run plainHost torrentList = .ok torrentList' ∧
      PlainTable torrentList' torrent' peer' ∧ peer'.event = event ∧
      torrent'.toTorrentCounters =
        changeTorrentStatsL torrent.toTorrentCounters peer.event event := by
  obtain ⟨request, isRequest⟩ := plain.isRequest
  obtain ⟨query, announces, rfl, infoHashIs, peerIdIs⟩ := plain.announces
  obtain ⟨torrentList', torrent', completed, table', values, counters, update⟩ :=
    Step.run_stores (reached_inv before.reachable) isRequest announces goesOn
  rw [Step.peerOf, infoHashIs, peerIdIs, torrentOf_some before.found, before.stored]
    at counters update
  rw [infoHashIs] at values
  have found' : torrentList'.value (Bytes.zero uriParamValueLength).list = some torrent' := by
    rw [values, Function.update_self]
  have sound' : PeersInv torrent'.peerList :=
    table'.table.torrents _ ((value_eq_some_iff table'.inv.linked).mp found')
  have stillSingle : torrent'.peerList.pairs.length = torrent.peerList.pairs.length := by
    simpa using update.countP_eq fun _ => true
  refine ⟨torrentList', torrent', peer.update query request.protocol step.now, completed,
    ⟨.next before.reachable trivial completed, found', ?_, ?_⟩, rfl, counters⟩
  · rw [update.value_eq before.peers.inv.linked sound'.inv.linked, Function.update_self]
    rfl
  · rw [← pairs_length sound'.filled, stillSingle, pairs_length before.peers.filled, before.single]

end Plain

end Etracker
