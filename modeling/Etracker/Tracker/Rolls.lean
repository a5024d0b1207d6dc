import Etracker.Foundation.Keyed
import Etracker.Tracker.Step

/-! The tracker without its lists: what a run makes of the table can be computed. -/

namespace Etracker

open Foundation Foundation.CString Foundation.Keyed Foundation.Runs

/-- A torrent with a plain list of its peers. -/
structure Roll extends TorrentCounters where
  level : Nat
  peers : List (Hash × PeerData)
  deriving DecidableEq

namespace Roll

def empty : Roll := ⟨⟨0, 0, 0⟩, 0, []⟩

def peer (roll : Roll) (peerId : Hash) : Option PeerData :=
  (findKey Prod.fst roll.peers peerId).map Prod.snd

def others (roll : Roll) (peerId : Hash) : List (Hash × PeerData) :=
  roll.peers.filter fun peer => peer.1 ≠ peerId

def store (roll : Roll) (query : Query) (protocol : UInt8) (now : Int) : Roll where
  toTorrentCounters := changeTorrentStatsL roll.toTorrentCounters
    (oldEventOf (roll.peer query.peerId.list)) query.event
  level :=
    if roll.complete + roll.incomplete > dataStructurePeersForLevel0Limit ∧ roll.level = 0 then 1
    else roll.level
  peers :=
    (query.peerId.list, ((roll.peer query.peerId.list).getD PeerData.empty).update query protocol
      now) :: roll.others query.peerId.list

def stop (roll : Roll) (query : Query) : Roll where
  toTorrentCounters := match roll.peer query.peerId.list with
    | none => roll.toTorrentCounters
    | some peer => changeTorrentStatsL roll.toTorrentCounters peer.event uriEventIdNone
  level := roll.level
  peers := roll.others query.peerId.list

def collect (limitTime : Int) (roll : Roll) : Roll where
  toTorrentCounters := collectCounters limitTime roll.toTorrentCounters roll.peers
  level := roll.level
  peers := roll.peers.filter (Alive limitTime)

/-- The roll of a torrent. -/
structure Of (roll : Roll) (torrent : TorrentData) : Prop where
  counters : torrent.toTorrentCounters = roll.toTorrentCounters
  level : torrent.peerList.level = roll.level
  peers : torrent.peerList.pairs.Perm roll.peers

end Roll

abbrev Rolls := List (Hash × Roll)

namespace Rolls

def find (rolls : Rolls) (infoHash : Hash) : Option Roll :=
  (findKey Prod.fst rolls infoHash).map Prod.snd

def put (rolls : Rolls) (infoHash : Hash) (roll : Roll) : Rolls :=
  (infoHash, roll) :: rolls.filter fun other => other.1 ≠ infoHash

def announce (rolls : Rolls) (query : Query) (protocol : UInt8) (now : Int) : Rolls :=
  match rolls.find query.infoHash.list with
  | none =>
      if query.event = uriEventIdStopped then rolls
      else rolls.put query.infoHash.list (Roll.empty.store query protocol now)
  | some roll =>
      rolls.put query.infoHash.list
        (if query.event = uriEventIdStopped then roll.stop query else roll.store query protocol now)

def collect (rolls : Rolls) (limitTime : Int) : Rolls :=
  (rolls.map fun entry => (entry.1, entry.2.collect limitTime)).filter fun entry =>
    entry.2.peers ≠ []

def step (host : Host) (rolls : Rolls) (step : Step) : Rolls :=
  match step.action, step.query host with
  | .collect, _ => rolls.collect (limitTimeOf step.now)
  | .serve _, none => rolls
  | .serve request, some query => rolls.announce query request.protocol step.now

def after (host : Host) (steps : List Step) : Rolls := steps.foldl (step host) []

/-- The rolls of a table. -/
structure Of (rolls : Rolls) (torrentList : TorrentList) : Prop where
  distinct : (rolls.map Prod.fst).Nodup
  found : ∀ infoHash torrent, torrentList.value infoHash = some torrent →
    ∃ roll, rolls.find infoHash = some roll ∧ roll.Of torrent
  missing : ∀ infoHash, torrentList.value infoHash = none → rolls.find infoHash = none

end Rolls

namespace Roll

variable {roll : Roll} {torrent torrent' : TorrentData}

theorem of_empty : empty.Of TorrentData.empty where
  counters := rfl
  level := rfl
  peers := by simp [TorrentData.empty, empty]

theorem Of.nodup (rolled : roll.Of torrent) (sound : PeersInv torrent.peerList) :
    (roll.peers.map Prod.fst).Nodup :=
  (rolled.peers.map Prod.fst).nodup_iff.mp (pairs_nodup sound.inv.linked)

theorem Of.peer (rolled : roll.Of torrent) (sound : PeersInv torrent.peerList) (peerId : Hash) :
    roll.peer peerId = torrent.peerList.value peerId := by
  apply Option.ext
  intro peer
  rw [value_eq_some_iff sound.inv.linked, rolled.peers.mem_iff, Roll.peer, Option.map_eq_some_iff]
  constructor
  · rintro ⟨⟨other, _⟩, found, rfl⟩
    obtain ⟨member, same⟩ := findKey_mem found
    exact same ▸ member
  · intro member
    exact ⟨_, (findKey_eq_some_iff (rolled.nodup sound)).mpr ⟨member, rfl⟩, rfl⟩

theorem Of.perm (rolled : roll.Of torrent) (sound : PeersInv torrent.peerList) {peerId : Hash}
    {before after : Option PeerData}
    (update : Update torrent.peerList torrent'.peerList peerId before after) :
    torrent'.peerList.pairs.Perm (after.toList.map (peerId, ·) ++ roll.others peerId) := by
  obtain ⟨rest, old, new⟩ := update.split
  have outside := Update.outside sound.inv.linked update.found old
  have kept : rest.filter (fun peer => peer.1 ≠ peerId) = rest := by
    apply List.filter_eq_self.mpr
    rintro ⟨other, peer⟩ member
    apply decide_eq_true
    rintro rfl
    exact outside peer member
  have gone : (before.toList.map (peerId, ·)).filter (fun peer => peer.1 ≠ peerId) = [] := by
    cases before <;> simp
  have same := (rolled.peers.symm.trans old).filter fun peer => peer.1 ≠ peerId
  rw [List.filter_append, gone, kept, List.nil_append] at same
  exact new.trans (same.symm.append_left _)

theorem Of.store (rolled : roll.Of torrent) (sound : PeersInv torrent.peerList) {query : Query}
    {protocol : UInt8} {now : Int} {delay : UInt32}
    (changed : setPeer torrent query protocol now = .ok (torrent', delay)) :
    (roll.store query protocol now).Of torrent' := by
  obtain ⟨_, header, counters, update⟩ := setPeer_of_ok sound changed
  have level := congrArg ListHeader.level header
  have perm := rolled.perm sound update
  refine ⟨?_, ?_, ?_⟩
  · rw [counters, rolled.counters, ← rolled.peer sound]
    rfl
  · rw [level]
    show expandedLevel torrent = _
    rw [expandedLevel, rolled.counters, rolled.level]
    rfl
  · rwa [← rolled.peer sound] at perm

theorem Of.stop (rolled : roll.Of torrent) (sound : PeersInv torrent.peerList) {query : Query}
    (removed : deletePeer torrent query = .ok torrent') : (roll.stop query).Of torrent' := by
  obtain ⟨_, header, counters, update⟩ := deletePeer_of_ok sound removed
  refine ⟨?_, ?_, rolled.perm sound update⟩
  · rw [counters, rolled.counters, ← rolled.peer sound]
    rfl
  · rw [header, rolled.level]
    rfl

theorem Of.survivors (rolled : roll.Of torrent) (limitTime : Int) :
    (survivors limitTime torrent).Perm (roll.collect limitTime).peers :=
  rolled.peers.filter _

theorem Of.collect (rolled : roll.Of torrent) {limitTime : Int}
    (collected : Collected limitTime torrent torrent') : (roll.collect limitTime).Of torrent' := by
  refine ⟨?_, ?_, ?_⟩
  · rw [collected.counters, rolled.counters]
    simp only [Roll.collect, collectCounters, countOf, rolled.peers.countP_eq]
  · rw [collected.header, rolled.level]
    rfl
  · rw [collected.pairs]
    exact rolled.survivors limitTime

end Roll

namespace Rolls

variable {rolls : Rolls} {torrentList torrentList' : TorrentList}

theorem of_empty : Of [] emptyTorrentList where
  distinct := List.nodup_nil
  found := by simp [emptyTorrentList]
  missing _ _ := rfl

theorem find_put (rolls : Rolls) (infoHash : Hash) (roll : Roll) :
    (rolls.put infoHash roll).find = Function.update rolls.find infoHash (some roll) := by
  funext other
  by_cases here : other = infoHash
  · rw [here, Function.update_self, find, put, findKey, List.find?_cons_of_pos (by simp)]
    rfl
  · rw [Function.update_of_ne here, find, find, put, findKey, findKey,
      List.find?_cons_of_neg (by simpa using Ne.symm here), List.find?_filter]
    congr 2
    funext entry
    by_cases same : entry.1 = other
    · simp [same, here]
    · simp [same]

theorem nodup_put (distinct : (rolls.map Prod.fst).Nodup) (infoHash : Hash) (roll : Roll) :
    ((rolls.put infoHash roll).map Prod.fst).Nodup := by
  rw [put, List.map_cons, List.nodup_cons]
  refine ⟨?_, distinct.sublist (List.filter_sublist.map _)⟩
  intro member
  obtain ⟨entry, inside, same⟩ := List.mem_map.mp member
  exact of_decide_eq_true (List.mem_filter.mp inside).2 same

theorem Of.put (rolled : rolls.Of torrentList) {infoHash : Hash} {roll : Roll}
    {torrent : TorrentData} (one : roll.Of torrent)
    (values : torrentList'.value = Function.update torrentList.value infoHash (some torrent)) :
    (rolls.put infoHash roll).Of torrentList' := by
  refine ⟨nodup_put rolled.distinct infoHash roll, ?_, ?_⟩
  · intro other torrent' present
    rw [find_put]
    rw [values] at present
    by_cases here : other = infoHash
    · rw [here, Function.update_self] at present ⊢
      cases present
      exact ⟨roll, rfl, one⟩
    · rw [Function.update_of_ne here] at present ⊢
      exact rolled.found other torrent' present
  · intro other absent
    rw [find_put]
    rw [values] at absent
    by_cases here : other = infoHash
    · rw [here, Function.update_self] at absent
      exact nomatch absent
    · rw [Function.update_of_ne here] at absent ⊢
      exact rolled.missing other absent

theorem Of.announce (rolled : rolls.Of torrentList) (table : TableInv torrentList)
    {query : Query} {protocol : UInt8} {now : Int} {after : Option TorrentData}
    (values : torrentList'.value = Function.update torrentList.value query.infoHash.list after)
    (announced : Announced query protocol now (torrentList.value query.infoHash.list) after) :
    (rolls.announce query protocol now).Of torrentList' := by
  rw [Rolls.announce]
  cases before : torrentList.value query.infoHash.list with
  | none =>
      rw [before] at announced
      rw [rolled.missing _ before]
      dsimp only
      cases announced with
      | unknown stops =>
          rw [if_pos stops]
          rw [← before, Function.update_eq_self] at values
          exact ⟨rolled.distinct, fun hash => by rw [values]; exact rolled.found hash,
            fun hash => by rw [values]; exact rolled.missing hash⟩
      | stored goesOn changed =>
          rw [if_neg goesOn]
          exact rolled.put (Roll.of_empty.store emptyPeers_inv changed) values
  | some torrent =>
      have sound : PeersInv torrent.peerList :=
        table.table.torrents _ ((value_eq_some_iff table.inv.linked).mp before)
      obtain ⟨roll, isRoll, one⟩ := rolled.found _ torrent before
      rw [before] at announced
      rw [isRoll]
      dsimp only
      cases announced with
      | stopped stops removed =>
          rw [if_pos stops]
          exact rolled.put (one.stop sound removed) values
      | stored goesOn changed =>
          rw [if_neg goesOn]
          exact rolled.put (one.store sound changed) values

def torrent (rolls : Rolls) (infoHash : Hash) : Roll := (rolls.find infoHash).getD Roll.empty

theorem Of.torrent (rolled : rolls.Of torrentList) (infoHash : ParamValue) :
    (rolls.torrent infoHash.list).Of (torrentOf torrentList infoHash) := by
  rw [Rolls.torrent, torrentOf]
  cases found : torrentList.value infoHash.list with
  | none =>
      rw [rolled.missing _ found]
      exact Roll.of_empty
  | some torrent =>
      obtain ⟨roll, isRoll, one⟩ := rolled.found _ torrent found
      rw [isRoll]
      exact one

theorem Of.value (rolled : rolls.Of torrentList) {infoHash : Hash} {roll : Roll}
    (isRoll : rolls.find infoHash = some roll) :
    ∃ torrent, torrentList.value infoHash = some torrent ∧ roll.Of torrent := by
  cases present : torrentList.value infoHash with
  | none =>
      rw [rolled.missing infoHash present] at isRoll
      exact nomatch isRoll
  | some torrent =>
      obtain ⟨other, isOther, one⟩ := rolled.found infoHash torrent present
      rw [isRoll] at isOther
      cases isOther
      exact ⟨torrent, rfl, one⟩

theorem find_eq_some_iff (distinct : (rolls.map Prod.fst).Nodup) {infoHash : Hash} {roll : Roll} :
    rolls.find infoHash = some roll ↔ (infoHash, roll) ∈ rolls := by
  rw [find, Option.map_eq_some_iff]
  constructor
  · rintro ⟨⟨other, _⟩, found, rfl⟩
    obtain ⟨member, same⟩ := findKey_mem found
    exact same ▸ member
  · intro member
    exact ⟨_, (findKey_eq_some_iff distinct).mpr ⟨member, rfl⟩, rfl⟩

theorem Of.map_perm {Value : Type} {ofTorrent : TorrentData → Value} {ofRoll : Roll → Value}
    (same : ∀ roll torrent, roll.Of torrent → ofTorrent torrent = ofRoll roll)
    (rolled : rolls.Of torrentList) (table : TableInv torrentList) :
    (torrentList.pairs.map fun pair => ofTorrent pair.2).Perm
      (rolls.map fun entry => ofRoll entry.2) := by
  -- The hashes tell equal values apart.
  have keyed : (torrentList.pairs.map fun pair => (pair.1, ofTorrent pair.2)).Perm
      (rolls.map fun entry => (entry.1, ofRoll entry.2)) := by
    refine (List.perm_ext_iff_of_nodup ?_ ?_).mpr ?_
    · apply List.Nodup.of_map Prod.fst
      rw [List.map_map]
      exact pairs_nodup table.inv.linked
    · apply List.Nodup.of_map Prod.fst
      rw [List.map_map]
      exact rolled.distinct
    · rintro ⟨infoHash, value⟩
      simp only [List.mem_map, Prod.mk.injEq, Prod.exists]
      constructor
      · rintro ⟨_, torrent, member, rfl, rfl⟩
        obtain ⟨roll, isRoll, one⟩ :=
          rolled.found _ torrent ((value_eq_some_iff table.inv.linked).mpr member)
        exact ⟨_, roll, (find_eq_some_iff rolled.distinct).mp isRoll, rfl, (same _ _ one).symm⟩
      · rintro ⟨_, roll, member, rfl, rfl⟩
        obtain ⟨torrent, present, one⟩ :=
          rolled.value ((find_eq_some_iff rolled.distinct).mpr member)
        exact ⟨_, torrent, (value_eq_some_iff table.inv.linked).mp present, rfl, same _ _ one⟩
  have values := keyed.map Prod.snd
  rwa [List.map_map, List.map_map] at values

theorem nodup_collect (distinct : (rolls.map Prod.fst).Nodup) (limitTime : Int) :
    ((rolls.collect limitTime).map Prod.fst).Nodup := by
  have keys : (rolls.map fun entry => (entry.1, entry.2.collect limitTime)).map Prod.fst =
      rolls.map Prod.fst := by
    rw [List.map_map]
    rfl
  rw [← keys] at distinct
  exact distinct.sublist (List.filter_sublist.map _)

theorem mem_collect {limitTime : Int} {infoHash : Hash} {roll : Roll} :
    (infoHash, roll) ∈ rolls.collect limitTime ↔
      ∃ before, (infoHash, before) ∈ rolls ∧ roll = before.collect limitTime ∧
        roll.peers ≠ [] := by
  rw [Rolls.collect, List.mem_filter, List.mem_map]
  constructor
  · rintro ⟨⟨⟨_, before⟩, member, same⟩, somebody⟩
    cases same
    exact ⟨before, member, rfl, of_decide_eq_true somebody⟩
  · rintro ⟨before, member, rfl, somebody⟩
    exact ⟨⟨_, member, rfl⟩, decide_eq_true somebody⟩

theorem Of.collect (rolled : rolls.Of torrentList) {limitTime : Int}
    (collected : CollectedTable limitTime torrentList torrentList') :
    (rolls.collect limitTime).Of torrentList' := by
  have distinct := nodup_collect rolled.distinct limitTime
  -- A torrent is left exactly if its roll is.
  have alive : ∀ {torrent : TorrentData} {roll : Roll}, roll.Of torrent →
      (survivors limitTime torrent = [] ↔ (roll.collect limitTime).peers = []) := by
    intro torrent roll one
    have perm := one.survivors limitTime
    exact ⟨fun none => List.nil_perm.mp (none ▸ perm), fun none => List.perm_nil.mp (none ▸ perm)⟩
  refine ⟨distinct, ?_, ?_⟩
  · intro infoHash torrent' present
    cases before : torrentList.value infoHash with
    | none =>
        rw [collected.absent infoHash before] at present
        exact nomatch present
    | some torrent =>
        obtain ⟨roll, isRoll, one⟩ := rolled.found infoHash torrent before
        have somebody : survivors limitTime torrent ≠ [] := by
          intro nobody
          rw [collected.dropped infoHash torrent before nobody] at present
          exact nomatch present
        obtain ⟨left, isLeft, kept⟩ := collected.kept infoHash torrent before somebody
        rw [present] at isLeft
        cases isLeft
        refine ⟨roll.collect limitTime, (find_eq_some_iff distinct).mpr ?_, one.collect kept⟩
        exact mem_collect.mpr ⟨roll, (find_eq_some_iff rolled.distinct).mp isRoll, rfl,
          fun nobody => somebody ((alive one).mpr nobody)⟩
  · intro infoHash absent
    cases left : (rolls.collect limitTime).find infoHash with
    | none => rfl
    | some roll =>
        obtain ⟨before, member, rfl, somebody⟩ :=
          mem_collect.mp ((find_eq_some_iff distinct).mp left)
        have isBefore := (find_eq_some_iff rolled.distinct).mpr member
        cases found : torrentList.value infoHash with
        | none =>
            rw [rolled.missing infoHash found] at isBefore
            exact nomatch isBefore
        | some torrent =>
            obtain ⟨roll, isRoll, one⟩ := rolled.found infoHash torrent found
            rw [isBefore] at isRoll
            cases isRoll
            obtain ⟨_, present, _⟩ := collected.kept infoHash torrent found
              fun nobody => somebody ((alive one).mp nobody)
            rw [absent] at present
            exact nomatch present

/-- One step of the tracker is one step on the rolls. -/
theorem Of.step (rolled : rolls.Of torrentList) (table : TableInv torrentList) {host : Host}
    {step : Step} (completed : step.run host torrentList = .ok torrentList') :
    (rolls.step host step).Of torrentList' := by
  obtain ⟨table', effect⟩ := step.run_effect table completed
  rw [Rolls.step]
  cases effect with
  | announced isRequest announces update announced =>
      rw [isRequest, announces]
      exact rolled.announce table (update.value_eq table.inv.linked table'.inv.linked) announced
  | silent serves silent same =>
      rw [silent, same]
      cases isAction : step.action with
      | collect => exact absurd isAction serves
      | serve request => exact rolled
  | collected isCollect collected =>
      rw [isCollect]
      exact rolled.collect collected

theorem of_traced {host : Host} {steps : List Step}
    (traced : Traced (Step.Takes host) emptyTorrentList steps torrentList) :
    (after host steps).Of torrentList := by
  induction traced with
  | start => exact of_empty
  | next earlier taken ih =>
      rw [after, List.foldl_append]
      exact ih.step (reached_inv earlier.reached) taken

def Within (rolls : Rolls) (count : Nat) : Prop := ∀ entry ∈ rolls, entry.2.peers.length ≤ count

theorem Within.step {count : Nat} (within : rolls.Within count) (host : Host) (step : Step) :
    (rolls.step host step).Within (count + 1) := by
  have fewer : ∀ (roll : Roll) (peerId : Hash), (roll.others peerId).length ≤ roll.peers.length :=
    fun roll peerId => List.length_filter_le _ _
  have put : ∀ (infoHash : Hash) (roll : Roll), roll.peers.length ≤ count + 1 →
      (rolls.put infoHash roll).Within (count + 1) := by
    intro infoHash roll small entry member
    rcases List.mem_cons.mp member with rfl | old
    · exact small
    · exact Nat.le_succ_of_le (within entry (List.mem_filter.mp old).1)
  have same : rolls.Within (count + 1) := fun entry member =>
    Nat.le_succ_of_le (within entry member)
  rw [Rolls.step]
  cases step.action with
  | collect =>
      rintro ⟨infoHash, roll⟩ member
      obtain ⟨before, old, rfl, _⟩ := mem_collect.mp member
      have shrinks : (before.collect (limitTimeOf step.now)).peers.length ≤ before.peers.length :=
        List.length_filter_le _ _
      exact Nat.le_succ_of_le (shrinks.trans (within _ old))
  | serve request =>
      cases step.query host with
      | none => exact same
      | some query =>
          dsimp only
          rw [Rolls.announce]
          cases found : rolls.find query.infoHash.list with
          | none =>
              dsimp only
              split_ifs
              · exact same
              · exact put _ _ (Nat.succ_le_succ (Nat.zero_le _))
          | some roll =>
              obtain ⟨⟨_, _⟩, isEntry, rfl⟩ := Option.map_eq_some_iff.mp found
              have small := within _ (findKey_mem isEntry).1
              refine put _ _ ?_
              split_ifs
              · exact Nat.le_succ_of_le ((fewer _ _).trans small)
              · exact Nat.succ_le_succ ((fewer _ _).trans small)

theorem Of.countable (rolled : rolls.Of torrentList) (table : TableInv torrentList) {count : Nat}
    (within : rolls.Within count) (few : count < 2 ^ 32) (limitTime : Int) :
    ∀ pair ∈ torrentList.pairs, Countable limitTime pair.2 := by
  rintro ⟨infoHash, torrent⟩ member
  obtain ⟨roll, isRoll, one⟩ :=
    rolled.found infoHash torrent ((value_eq_some_iff table.inv.linked).mpr member)
  have small := within _ ((find_eq_some_iff rolled.distinct).mp isRoll)
  apply countable_of_short
  rw [one.peers.length_eq]
  exact Nat.lt_of_le_of_lt small few

theorem Of.returns (rolled : rolls.Of torrentList) (table : TableInv torrentList) {count : Nat}
    (within : rolls.Within count) (few : count < 2 ^ 32) (host : Host) (step : Step) :
    ∃ torrentList', step.run host torrentList = .ok torrentList' := by
  cases isAction : step.action with
  | serve request =>
      apply step.run_serves table
      rw [isAction]
      exact nofun
  | collect =>
      obtain ⟨torrentList', stats, completed, _⟩ := runGarbageCollectorL_spec table step.now
        (rolled.countable table within few (limitTimeOf step.now))
      refine ⟨torrentList', ?_⟩
      rw [Step.run, isAction]
      dsimp only
      rw [completed]
      rfl

def FitAll (host : Host) (fits : Rolls → Step → Prop) : Rolls → List Step → Prop
  | _, [] => True
  | rolls, step :: rest => fits rolls step ∧ FitAll host fits (rolls.step host step) rest

theorem Of.run {Abstract : Type} (machine : Step → Abstract → Abstract) {host : Host}
    {fits : Rolls → Step → Prop} {meets : Step → TorrentList → Prop}
    (allows : ∀ rolls torrentList step, Of rolls torrentList → TableInv torrentList →
      fits rolls step → meets step torrentList) {earlier steps : List Step} {first shadow : Abstract}
    (rolled : rolls.Of torrentList) (table : TableInv torrentList)
    (traced : Traced (Step.Takes host) emptyTorrentList earlier torrentList)
    (reached : Reached (follows (Step.Takes host) machine) (fun step state => meets step state.1)
      (emptyTorrentList, first) (torrentList, shadow))
    {count : Nat} (within : rolls.Within count) (few : count + steps.length < 2 ^ 32)
    (fit : FitAll host fits rolls steps) :
    ∃ torrentList', Traced (Step.Takes host) emptyTorrentList (earlier ++ steps) torrentList' ∧
      Reached (follows (Step.Takes host) machine) (fun step state => meets step state.1)
        (emptyTorrentList, first)
        (torrentList', steps.foldl (fun shadow step => machine step shadow) shadow) := by
  induction steps generalizing rolls torrentList earlier shadow count with
  | nil => exact ⟨torrentList, by rwa [List.append_nil], reached⟩
  | cons step rest ih =>
      rw [List.length_cons] at few
      obtain ⟨torrentList', completed⟩ := rolled.returns table within (by omega) host step
      have reached' : Reached (follows (Step.Takes host) machine)
          (fun step state => meets step state.1) (emptyTorrentList, first)
          (torrentList', machine step shadow) :=
        reached.next (allows _ _ _ rolled table fit.1) ⟨completed, rfl⟩
      have next := ih (rolled.step table completed) (step.run_effect table completed).1
        (traced.next completed) reached' (within.step host step) (by omega) fit.2
      rwa [List.append_assoc, List.singleton_append] at next

instance decidableFitAll (host : Host) {fits : Rolls → Step → Prop}
    [fitting : ∀ rolls step, Decidable (fits rolls step)] :
    ∀ rolls steps, Decidable (FitAll host fits rolls steps)
  | _, [] => .isTrue trivial
  | rolls, step :: rest =>
      @instDecidableAnd _ _ (fitting rolls step) (decidableFitAll host (rolls.step host step) rest)

/-- A few steps that fit are a run, also with a machine that follows them, and their rolls tell
what becomes of the table. -/
theorem exists_follows {Abstract : Type} (machine : Step → Abstract → Abstract) (first : Abstract)
    {host : Host} {fits : Rolls → Step → Prop} {meets : Step → TorrentList → Prop}
    (allows : ∀ rolls torrentList step, Of rolls torrentList → TableInv torrentList →
      fits rolls step → meets step torrentList) {steps : List Step} (few : steps.length < 2 ^ 32)
    (fit : FitAll host fits [] steps) :
    ∃ torrentList, Traced (Step.Takes host) emptyTorrentList steps torrentList ∧
      Reached (follows (Step.Takes host) machine) (fun step state => meets step state.1)
        (emptyTorrentList, first)
        (torrentList, steps.foldl (fun shadow step => machine step shadow) first) ∧
      (after host steps).Of torrentList := by
  have within : Rolls.Within [] 0 := List.forall_mem_nil _
  obtain ⟨torrentList, traced, reached⟩ :=
    of_empty.run machine allows emptyTorrentList_inv .start .start within (by rwa [Nat.zero_add]) fit
  exact ⟨torrentList, traced, reached, of_traced traced⟩

theorem exists_run {host : Host} {fits : Rolls → Step → Prop} {meets : Step → TorrentList → Prop}
    (allows : ∀ rolls torrentList step, Of rolls torrentList → TableInv torrentList →
      fits rolls step → meets step torrentList) {steps : List Step} (few : steps.length < 2 ^ 32)
    (fit : FitAll host fits [] steps) :
    ∃ torrentList, Traced (Step.Takes host) emptyTorrentList steps torrentList ∧
      Reached (Step.Takes host) meets emptyTorrentList torrentList ∧
      (after host steps).Of torrentList := by
  obtain ⟨torrentList, traced, reached, rolled⟩ :=
    exists_follows (fun _ _ => ()) () allows few fit
  exact ⟨torrentList, traced, reached.of_follows, rolled⟩

theorem exists_traced (host : Host) {steps : List Step} (few : steps.length < 2 ^ 32) :
    ∃ torrentList, Traced (Step.Takes host) emptyTorrentList steps torrentList ∧
      (after host steps).Of torrentList := by
  have fit : ∀ rolls, FitAll host (fun _ _ => True) rolls steps := by
    clear few
    induction steps with
    | nil => exact fun _ => trivial
    | cons step rest ih => exact fun rolls => ⟨trivial, ih _⟩
  have allows : ∀ rolls (torrentList : TorrentList) (step : Step), Of rolls torrentList →
      TableInv torrentList → True → (fun _ _ => True) step torrentList :=
    fun _ _ _ _ _ _ => trivial
  obtain ⟨torrentList, traced, _, rolled⟩ := exists_run allows few (fit [])
  exact ⟨torrentList, traced, rolled⟩

end Rolls

section Samples

def sampleUdpFrom (ip : List UInt8) (torrent peer : UInt8) (event : UInt32) (now : Int) : Step :=
  ⟨now, plainSettings, .serve (.udp (Bytes.ofList _ ip)
    { plainPacket event with
      infoHash := Bytes.ofList _ [torrent]
      peerId := Bytes.ofList _ [peer] : AnnouncePacket }.bytes)⟩

def sampleUdp (torrent peer : UInt8) (event : UInt32) (now : Int) : Step :=
  sampleUdpFrom [] torrent peer event now

def sampleIpv4 (torrent peer : UInt8) (event : UInt32) (now : Int) : Step :=
  sampleUdpFrom (v4MappedPrefix ++ [10, 0, 0, peer]) torrent peer event now

def Step.overHttp (step : Step) : Bool :=
  match step.action with
  | .serve (.udp _ _) => false
  | _ => true

theorem Step.OverHttp.of_overHttp {step : Step} (http : step.overHttp = true) : step.OverHttp := by
  intro clientAddr datagram isUdp
  rw [Step.overHttp, isUdp] at http
  exact nomatch http

def sampleHttp (torrent peer parameters : String) (now : Int) : Step :=
  ⟨now, plainSettings, .serve (.http (Bytes.zero _) (ascii "GET /announce?info_hash=" ++
    ascii torrent ++ ascii "&peer_id=" ++ ascii peer ++ ascii "&port=6881" ++ ascii parameters ++
    ascii " HTTP/1.1\r\n\r\n"))⟩

def samplePass (now : Int) : Step := ⟨now, plainSettings, .collect⟩

def Rolls.sample (rolls : Rolls) :
    List (Option UInt8 × TorrentCounters × List (Option UInt8 × Int)) :=
  rolls.map fun entry => (entry.1.head?, entry.2.toTorrentCounters,
    entry.2.peers.map fun peer => (peer.1.head?, peer.2.updateTime))

end Samples

end Etracker
