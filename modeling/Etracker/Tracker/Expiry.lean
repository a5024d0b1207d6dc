import Etracker.Tracker.Schedule

namespace Etracker

open Foundation Foundation.CString Foundation.Outcome Foundation.Runs

def expiryLimit : UInt32 := 1860

theorem limitTimeOf_eq (now : Int) : limitTimeOf now = now - expiryLimit.toNat := by
  have limit : (expiryLimit.toNat : Int) = 1860 := rfl
  rw [limitTimeOf, dataGarbageMaxAliveTime, intervalStepS, limit]
  omega

theorem Request.promise_le (request : Request) {interval limit : UInt32} (below : interval ≤ limit)
    (short : limit.toNat < 2 ^ 31) : request.promise interval ≤ limit.toNat := by
  have promised : (interval.toNat : Int) ≤ limit.toNat := by
    exact_mod_cast UInt32.le_iff_toNat_le.mp below
  cases request with
  | udp clientAddr datagram => exact promised
  | http clientAddr readBuffer =>
      have small : (interval.toNat : Int).bmod (2 ^ 32) = interval.toNat := by
        apply Int.bmod_eq_of_le
        · omega
        · omega
      exact small.trans_le promised

/-- What holds whenever the interval starts low enough: no interval is longer than the
age the collector allows, and a client that is not yet due is young enough. -/
structure Punctual (client : Client) (state : Tracker × Option Int) : Prop where
  table : TableInv state.1.torrentList
  below : state.1.interval.Below expiryLimit
  young : ∀ peer due, client.stored state.1.torrentList = some peer → state.2 = some due →
    due - expiryLimit.toNat ≤ peer.updateTime

variable {Load : Type}

theorem Punctual.served {client : Client} {host : Host} {moment : Moment Load}
    {before : Tracker × Option Int} (punctual : Punctual client before)
    {maxPeersPerResponse : UInt32} {xForwardedFor : Option (List UInt8)} {request : Request}
    (isRequest : moment.turn = .serve maxPeersPerResponse xForwardedFor request)
    {torrentList : TorrentList}
    (completed : Step.run host ⟨moment.now,
      before.1.settings maxPeersPerResponse xForwardedFor, .serve request⟩ before.1.torrentList =
        .ok torrentList) :
    Punctual client ({ before.1 with clock := moment.now, torrentList := torrentList },
      client.due host moment before.1 before.2) := by
  have after := Step.peerAt_run punctual.table completed client.infoHash.list client.peerId.list
  refine ⟨(Step.run_effect punctual.table completed).1, punctual.below, ?_⟩
  intro peer due stored isDue
  have here : Step.peerAt torrentList client.infoHash.list client.peerId.list = some peer := stored
  rw [here] at after
  simp only [Client.due, isRequest] at isDue
  have sameQuery : Step.query host ⟨moment.now,
      before.1.settings maxPeersPerResponse xForwardedFor, .serve request⟩ =
        request.query host (before.1.settings maxPeersPerResponse xForwardedFor) := rfl
  rw [sameQuery] at after
  cases announces : request.query host (before.1.settings maxPeersPerResponse xForwardedFor) with
  | none =>
      rw [announces] at after isDue
      exact punctual.young peer due after.symm isDue
  | some query =>
      rw [announces] at after isDue
      dsimp only at after isDue
      by_cases own : query.infoHash = client.infoHash ∧ query.peerId = client.peerId
      · have ownLists : client.infoHash.list = query.infoHash.list ∧
            client.peerId.list = query.peerId.list := by
          rw [own.1, own.2]
          exact ⟨rfl, rfl⟩
        rw [if_pos ownLists] at after
        rw [if_pos own] at isDue
        have promise := request.promise_le punctual.below.current (by decide)
        cases isDue
        split_ifs at after with stops
        cases after
        show moment.now + request.promise before.1.interval.interval - expiryLimit.toNat ≤
          moment.now
        omega
      · have otherLists : ¬(client.infoHash.list = query.infoHash.list ∧
            client.peerId.list = query.peerId.list) := by
          rintro ⟨infoHash, peerId⟩
          exact own ⟨Bytes.ext infoHash.symm, Bytes.ext peerId.symm⟩
        rw [if_neg otherLists] at after
        rw [if_neg own] at isDue
        exact punctual.young peer due after.symm isDue

theorem Client.due_other {client : Client} {host : Host} {moment : Moment Load}
    {tracker : Tracker} {before : Option Int}
    (other : ∀ maxPeersPerResponse xForwardedFor request,
      moment.turn ≠ .serve maxPeersPerResponse xForwardedFor request) :
    client.due host moment tracker before = before := by
  unfold Client.due
  split
  · exact absurd ‹_› (other _ _ _)
  · rfl

theorem start_below {arguments : Arguments Load} (short : arguments.interval ≤ expiryLimit)
    (most : arguments.maxInterval ≤ argumentMaxIntervalDefault) :
    (Interval.start arguments).Below expiryLimit :=
  ⟨short, short, UInt32.le_trans most (by decide)⟩

def plainClient : Client := ⟨Bytes.zero _, Bytes.zero _⟩

theorem plain_due {host : Host} (tracker : Tracker) (now : Int) (before : Option Int) :
    plainClient.due host (⟨now, .serve 200 none (.udp (Bytes.zero _) (plainPacket 2).bytes)⟩ :
      Moment Load) tracker before = some (now + tracker.interval.interval.toNat) := by
  obtain ⟨query, announces, _, infoHashIs, peerIdIs⟩ :=
    plainPacket_query host (tracker.settings 200 none) 2
  simp only [Client.due, announces]
  exact if_pos ⟨infoHashIs, peerIdIs⟩

section Threads

variable [LT Load] [DecidableLT Load]

theorem Punctual.takes {client : Client} {host : Host} {maxAllow : Load} {moment : Moment Load}
    {before after : Tracker × Option Int} (punctual : Punctual client before)
    (takes : client.Takes host maxAllow moment before after) : Punctual client after := by
  obtain ⟨tracker, due⟩ := before
  obtain ⟨tracker', due'⟩ := after
  have remembers : due' = client.due host moment tracker due := takes.remembers
  subst remembers
  have performed := Tracker.perform_performed takes.performs
  cases performed with
  | served isRequest completed => exact punctual.served isRequest completed
  | forced isForce =>
      rw [Client.due_other (by simp [isForce])]
      exact ⟨punctual.table, punctual.below.force _, punctual.young⟩
  | changed isChange =>
      rw [Client.due_other (by simp [isChange])]
      exact ⟨punctual.table, punctual.below.step, punctual.young⟩
  | waited isCollect _ =>
      rw [Client.due_other (by simp [isCollect])]
      exact ⟨punctual.table, punctual.below, punctual.young⟩
  | collected isCollect completed =>
      rw [Client.due_other (by simp [isCollect])]
      refine ⟨(Step.run_effect punctual.table completed).1, punctual.below.update _ _, ?_⟩
      intro peer deadline stored isDue
      have kept := Step.peerAt_run punctual.table completed client.infoHash.list client.peerId.list
      have here : Step.peerAt _ client.infoHash.list client.peerId.list = some peer := stored
      rw [here] at kept
      have before := (Option.filter_eq_some_iff.mp kept.symm).1
      exact punctual.young peer deadline before isDue

theorem sees_punctual {client : Client} {host : Host} {maxAllow : Load}
    {arguments : Arguments Load} (short : arguments.interval ≤ expiryLimit)
    (most : arguments.maxInterval ≤ argumentMaxIntervalDefault) {state : Tracker × Option Int}
    (sees : client.Sees host maxAllow arguments state) : Punctual client state := by
  apply sees.invariant (Punctual client)
  · refine ⟨emptyTorrentList_inv, start_below short most, ?_⟩
    intro peer due _ isDue
    cases isDue
  · intro moment before after punctual _ takes
    exact punctual.takes takes

/-- A pass keeps the peer of a client that is not due. -/
theorem Punctual.kept {client : Client} {host : Host} {maxAllow : Load} {moment : Moment Load}
    {before after : Tracker × Option Int} (punctual : Punctual client before)
    (takes : client.Takes host maxAllow moment before after)
    (collects : Tracker.Collects moment before.1) {peer : PeerData} {due : Int}
    (stored : client.stored before.1.torrentList = some peer) (isDue : before.2 = some due)
    (early : moment.now ≤ due) : client.stored after.1.torrentList = some peer := by
  obtain ⟨tracker', due'⟩ := after
  obtain ⟨⟨load, isCollect⟩, settled⟩ := collects
  have performed := Tracker.perform_performed takes.performs
  cases performed with
  | served isRequest _ => simp [isCollect] at isRequest
  | forced isForce => simp [isCollect] at isForce
  | changed isChange => simp [isCollect] at isChange
  | waited _ moves => exact absurd settled moves
  | collected _ completed =>
      have kept := Step.peerAt_run punctual.table completed client.infoHash.list client.peerId.list
      have here : Step.peerAt before.1.torrentList client.infoHash.list client.peerId.list =
        some peer := stored
      have young := punctual.young peer due stored isDue
      have limit := limitTimeOf_eq moment.now
      show Step.peerAt _ client.infoHash.list client.peerId.list = some peer
      rw [kept, here]
      apply Option.filter_eq_some_iff.mpr
      refine ⟨rfl, ?_⟩
      rw [decide_eq_true_iff]
      show limitTimeOf moment.now ≤ peer.updateTime
      omega

theorem Tracker.collect_passes {host : Host} {maxAllow : Load} {tracker : Tracker} {now : Int}
    (settled : tracker.interval.interval = tracker.interval.requireInterval)
    (table : TableInv tracker.torrentList)
    (countable : ∀ pair ∈ tracker.torrentList.pairs, Countable (limitTimeOf now) pair.2)
    (load : Option (Load × Load × Load)) :
    ∃ torrentList, Tracker.perform host maxAllow ⟨now, .collect load⟩ tracker = .ok
        { tracker with
          clock := now
          torrentList := torrentList
          interval := updateInterval tracker.interval load maxAllow
          collectorWakes := now + (max (updateInterval tracker.interval load
            maxAllow).previousInterval.toNat (updateInterval tracker.interval load
              maxAllow).requireInterval.toNat : Nat) } ∧
      Step.run host ⟨now, tracker.settings 0 none, .collect⟩ tracker.torrentList =
        .ok torrentList ∧
      CollectedTable (limitTimeOf now) tracker.torrentList torrentList := by
  obtain ⟨torrentList, stats, completed, collected, _⟩ :=
    runGarbageCollectorL_spec table now countable
  refine ⟨torrentList, ?_, ?_, collected⟩
  · simp only [Tracker.perform, Tracker.collect, settled, ne_eq, not_true_eq_false, if_false,
      completed, ok_bind, pure_eq_ok]
  · simp only [Step.run, completed, ok_bind, pure_eq_ok]

theorem plain_announce {host : Host} {tracker : Tracker} (table : TableInv tracker.torrentList)
    (empty : ∀ hash, tracker.torrentList.value hash = none) (now : Int) :
    ∃ torrentList peer,
      Step.run host ⟨now, tracker.settings 200 none,
        .serve (.udp (Bytes.zero _) (plainPacket 2).bytes)⟩ tracker.torrentList =
          .ok torrentList ∧
      TableInv torrentList ∧ plainClient.stored torrentList = some peer ∧ peer.updateTime = now ∧
      ∀ pair ∈ torrentList.pairs, pair.2.peerList.pairs.length < 2 ^ 32 := by
  obtain ⟨query, announces, eventIs, infoHashIs, peerIdIs⟩ :=
    plainPacket_query host (tracker.settings 200 none) 2
  have goesOn : query.event ≠ uriEventIdStopped := by
    rw [eventIs]
    decide
  have fresh : torrentOf tracker.torrentList query.infoHash = TorrentData.empty := by
    rw [torrentOf, empty, Option.getD_none]
  obtain ⟨torrentList, torrent, completed, table', values, _, update⟩ :=
    @Step.run_stores host ⟨now, tracker.settings 200 none,
      .serve (.udp (Bytes.zero _) (plainPacket 2).bytes)⟩ _ _ _ table rfl announces goesOn
  rw [Step.peerOf, fresh, emptyPeers_value] at update
  have found : torrentList.value query.infoHash.list = some torrent := by
    rw [values, Function.update_self]
  have sound : PeersInv torrent.peerList :=
    table'.table.torrents _ ((value_eq_some_iff table'.inv.linked).mp found)
  have single : torrent.peerList.pairs.length = 1 := by
    simpa [TorrentData.empty] using update.countP_eq fun _ => true
  refine ⟨torrentList, PeerData.empty.update query dataStructurePeerProtocolUdpBit now, completed,
    table', ?_, rfl, ?_⟩
  · have here : plainClient.stored torrentList =
        peerIn (torrentList.value query.infoHash.list) query.peerId.list := by
      rw [infoHashIs, peerIdIs]
      rfl
    rw [here, found, peerIn, Option.bind_some,
      update.value_eq emptyPeers_inv.inv.linked sound.inv.linked, Function.update_self]
    rfl
  · intro pair member
    have present := (value_eq_some_iff table'.inv.linked).mpr member
    rw [values] at present
    by_cases same : pair.1 = query.infoHash.list
    · rw [same, Function.update_self] at present
      cases present
      rw [single]
      decide
    · rw [Function.update_of_ne same, empty] at present
      cases present

theorem Tracker.serve_performs {host : Host} {maxAllow : Load} {tracker : Tracker} {now : Int}
    {maxPeersPerResponse : UInt32} {xForwardedFor : Option (List UInt8)} {request : Request}
    {torrentList : TorrentList}
    (completed : Step.run host ⟨now, tracker.settings maxPeersPerResponse xForwardedFor,
      .serve request⟩ tracker.torrentList = .ok torrentList) :
    Tracker.perform host maxAllow ⟨now, .serve maxPeersPerResponse xForwardedFor request⟩ tracker =
      .ok { tracker with clock := now, torrentList := torrentList } := by
  have served : request.serve host (tracker.settings maxPeersPerResponse xForwardedFor)
      tracker.torrentList now = .ok torrentList := completed
  show (request.serve host (tracker.settings maxPeersPerResponse xForwardedFor)
    tracker.torrentList now >>= _) = _
  rw [served]
  rfl

/-- With a longer interval at the start the collector, which sleeps as long as the
interval and cannot read the load, meets a peer that is too old and not yet due. -/
theorem expires_early {arguments : Arguments Load} (long : expiryLimit < arguments.interval)
    (host : Host) (maxAllow : Load) :
    ∃ before after peer due load, plainClient.Sees host maxAllow arguments before ∧
      plainClient.Takes host maxAllow ⟨arguments.interval.toNat, .collect load⟩ before after ∧
      Tracker.Collects ⟨arguments.interval.toNat, .collect load⟩ before.1 ∧
      plainClient.stored before.1.torrentList = some peer ∧ before.2 = some due ∧
      (arguments.interval.toNat : Int) ≤ due ∧ plainClient.stored after.1.torrentList = none := by
  have age : 1861 ≤ arguments.interval.toNat := UInt32.lt_iff_toNat_lt.mp long
  -- The first pass finds nothing; the collector sleeps for the interval.
  have nobody : ∀ pair ∈ emptyTorrentList.pairs, Countable (limitTimeOf 0) pair.2 := by
    simp [emptyTorrentList]
  obtain ⟨first, performs, pass, collected⟩ :=
    @Tracker.collect_passes Load _ _ host maxAllow (Tracker.start arguments) 0 rfl
      emptyTorrentList_inv nobody none
  have empty : ∀ hash, first.value hash = none := fun hash =>
    collected.absent hash (newList_value _ hash)
  let resting : Tracker := { Tracker.start arguments with
    torrentList := first
    collectorWakes := 0 + (max arguments.interval.toNat arguments.interval.toNat : Nat) }
  have rests : plainClient.Takes host maxAllow ⟨0, .collect none⟩ (Tracker.start arguments, none)
      (resting, none) := ⟨⟨Int.le_refl 0, Int.le_refl 0⟩, performs, rfl⟩
  have sleeps : plainClient.Sees host maxAllow arguments (resting, none) :=
    Reached.next .start trivial rests
  -- The announce comes a little too early for the next pass.
  obtain ⟨second, peer, completed, table, stored, timeIs, short⟩ :=
    @plain_announce host resting collected.table empty (arguments.interval.toNat - 1861)
  let before : Tracker :=
    { resting with clock := arguments.interval.toNat - 1861, torrentList := second }
  have announces : plainClient.Takes host maxAllow ⟨arguments.interval.toNat - 1861,
      .serve 200 none (.udp (Bytes.zero _) (plainPacket 2).bytes)⟩ (resting, none)
      (before, some (arguments.interval.toNat - 1861 + arguments.interval.toNat)) := by
    refine ⟨⟨?_, trivial⟩, Tracker.serve_performs completed, (plain_due resting _ none).symm⟩
    show (0 : Int) ≤ arguments.interval.toNat - 1861
    omega
  have announced : plainClient.Sees host maxAllow arguments
      (before, some (arguments.interval.toNat - 1861 + arguments.interval.toNat)) :=
    Reached.next sleeps trivial announces
  -- When the collector wakes up the peer is one second too old.
  obtain ⟨third, performs', pass', _⟩ :=
    @Tracker.collect_passes Load _ _ host maxAllow before arguments.interval.toNat rfl table
      (fun pair member => countable_of_short _ (short pair member)) none
  refine ⟨(before, some _), (_, some _), peer, _, none, announced, ⟨⟨?_, ?_⟩, performs', rfl⟩,
    ⟨⟨none, rfl⟩, rfl⟩, stored, rfl, ?_, ?_⟩
  · show (arguments.interval.toNat : Int) - 1861 ≤ arguments.interval.toNat
    omega
  · show 0 + ((max arguments.interval.toNat arguments.interval.toNat : Nat) : Int) ≤
      arguments.interval.toNat
    omega
  · omega
  · have gone := Step.peerAt_run table pass' plainClient.infoHash.list plainClient.peerId.list
    have here : Step.peerAt second plainClient.infoHash.list plainClient.peerId.list = some peer :=
      stored
    rw [here] at gone
    refine gone.trans (Option.filter_eq_none_iff.mpr ?_)
    intro other same alive
    cases same
    have young : limitTimeOf arguments.interval.toNat ≤ peer.updateTime := of_decide_eq_true alive
    have limit := limitTimeOf_eq arguments.interval.toNat
    have allowed : (expiryLimit.toNat : Int) = 1860 := rfl
    omega

end Threads

section Accepted

variable [Zero Load] [DecidableEq Load] [LT Load] [DecidableLT Load]

/-- An accepted command line keeps every client that keeps to its interval exactly if the
first interval is not longer than the age the collector allows. -/
theorem noPrematureExpiry_iff {strtod : Text → Load} {processors : Int} {argv : List Text}
    {arguments : Arguments Load}
    (accepted : parseArguments strtod processors argv = .ok arguments) :
    NoPrematureExpiry arguments ↔ arguments.interval ≤ expiryLimit := by
  constructor
  · intro never
    by_contra long
    obtain ⟨before, after, peer, due, load, sees, takes, collects, stored, isDue, early, gone⟩ :=
      expires_early (UInt32.not_le.mp long) plainHost
        (maxAllowLoadAverage arguments.maxLoadAvg 0)
    have kept := never plainHost plainClient 0 before after _ peer due sees takes collects stored
      isDue early
    rw [gone] at kept
    cases kept
  · intro short host client _ before after moment peer due sees takes collects stored isDue early
    have most := parseArguments_maxInterval accepted
    exact (sees_punctual short most sees).kept takes collects stored isDue early

end Accepted

def acceptedInterval (argv : List Text) : Option UInt32 :=
  (parseArguments (fun _ => (0 : Int)) 4 argv).toOption.map Arguments.interval

theorem accepted_of_interval {argv : List Text} {interval : UInt32}
    (accepted : acceptedInterval argv = some interval) :
    ∃ arguments, parseArguments (fun _ => (0 : Int)) 4 argv = .ok arguments ∧
      arguments.interval = interval := by
  unfold acceptedInterval at accepted
  cases parsed : parseArguments (fun _ => (0 : Int)) 4 argv with
  | error fault => simp [parsed, Except.toOption] at accepted
  | ok arguments => exact ⟨arguments, rfl, by simpa [parsed, Except.toOption] using accepted⟩

theorem noPrematureExpiry_short : ∃ arguments,
    parseArguments (fun _ => (0 : Int)) 4 [ascii "-p", ascii "80", ascii "-i", ascii "600"] =
      .ok arguments ∧ NoPrematureExpiry arguments := by
  have short : acceptedInterval [ascii "-p", ascii "80", ascii "-i", ascii "600"] = some 600 := by
    decide +kernel
  obtain ⟨arguments, accepted, interval⟩ := accepted_of_interval short
  refine ⟨arguments, accepted, (noPrematureExpiry_iff accepted).mpr ?_⟩
  rw [interval]
  decide

/-- A first interval of 4000 seconds: at second 4000 the pass removes a peer that
announced itself at second 2139 and is due at second 6139. -/
theorem noPrematureExpiry_fails : ∃ arguments before after peer due load,
    parseArguments (fun _ => (0 : Int)) 4 [ascii "-i", ascii "4000"] = .ok arguments ∧
      plainClient.Sees plainHost (maxAllowLoadAverage arguments.maxLoadAvg 4) arguments before ∧
      plainClient.Takes plainHost (maxAllowLoadAverage arguments.maxLoadAvg 4) ⟨4000, .collect load⟩
        before after ∧
      Tracker.Collects ⟨4000, .collect load⟩ before.1 ∧
      plainClient.stored before.1.torrentList = some peer ∧ before.2 = some due ∧ 4000 ≤ due ∧
      plainClient.stored after.1.torrentList = none := by
  have long : acceptedInterval [ascii "-i", ascii "4000"] = some 4000 := by decide +kernel
  obtain ⟨arguments, accepted, interval⟩ := accepted_of_interval long
  have above : expiryLimit < arguments.interval := by
    rw [interval]
    decide
  have wakes : (arguments.interval.toNat : Int) = 4000 := by
    rw [interval]
    rfl
  obtain ⟨before, after, peer, due, load, sees, takes, collects, stored, isDue, early, gone⟩ :=
    expires_early above plainHost (maxAllowLoadAverage arguments.maxLoadAvg 4)
  rw [wakes] at takes collects early
  exact ⟨arguments, before, after, peer, due, load, accepted, sees, takes, collects, stored, isDue,
    early, gone⟩

end Etracker
