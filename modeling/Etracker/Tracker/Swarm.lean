import Etracker.Tracker.Counters
import Etracker.Uri.Event
import Mathlib.Data.Set.Card

namespace Etracker

open Foundation Foundation.Outcome Foundation.Runs

inductive Role
  | seeder
  | leecher
  deriving DecidableEq, Repr

structure Member where
  role : Role
  seen : Int

structure Swarm where
  members : Hash → Option Member
  /-- How often a member became a seeder. -/
  completions : Nat

def Swarm.empty : Swarm := ⟨fun _ => none, 0⟩

namespace Swarm

variable (swarm : Swarm)

noncomputable def count (role : Role) : Nat :=
  Set.ncard {hash | ∃ member, swarm.members hash = some member ∧ member.role = role}

noncomputable def seeders : Nat := swarm.count .seeder

noncomputable def leechers : Nat := swarm.count .leecher

end Swarm

def roleAfter (event : UInt8) (before : Option Role) : Role :=
  if event = uriEventIdCompleted then .seeder
  else if event = uriEventIdContinue then before.getD .leecher
  else .leecher

namespace Swarm

def roleOf (swarm : Swarm) (hash : Hash) : Option Role := (swarm.members hash).map Member.role

def join (swarm : Swarm) (event : UInt8) (hash : Hash) (now : Int) : Swarm where
  members := Function.update swarm.members hash (some ⟨roleAfter event (swarm.roleOf hash), now⟩)
  completions := swarm.completions +
    if roleAfter event (swarm.roleOf hash) = .seeder ∧ swarm.roleOf hash ≠ some .seeder then 1
    else 0

def leave (swarm : Swarm) (hash : Hash) : Swarm :=
  { swarm with members := Function.update swarm.members hash none }

def keep (swarm : Swarm) (limitTime : Int) : Swarm :=
  { swarm with members := fun hash =>
      (swarm.members hash).filter fun member => limitTime ≤ member.seen }

end Swarm

section Members

variable (swarm : Swarm) (event : UInt8) (hash : Hash) (now limitTime : Int)

@[simp] theorem Swarm.join_members : (swarm.join event hash now).members =
    Function.update swarm.members hash (some ⟨roleAfter event (swarm.roleOf hash), now⟩) := rfl

@[simp] theorem Swarm.leave_members :
    (swarm.leave hash).members = Function.update swarm.members hash none := rfl

@[simp] theorem Swarm.keep_members : (swarm.keep limitTime).members hash =
    (swarm.members hash).filter fun member => limitTime ≤ member.seen := rfl

end Members

theorem becomes_seeder_iff (event : UInt8) (before : Option Role) :
    roleAfter event before = .seeder ∧ before ≠ some .seeder ↔
      event = uriEventIdCompleted ∧ before ≠ some .seeder := by
  unfold roleAfter
  split_ifs with completes goesOn
  · simp [completes]
  · cases before with
    | none => simp [completes]
    | some role => cases role <;> simp [completes]
  · simp [completes]

/-- The swarms of a tracker by info hash. -/
abbrev Swarms := Hash → Option Swarm

namespace Swarms

def announce (swarms : Swarms) (query : Query) (now : Int) : Swarms :=
  if query.event = uriEventIdStopped then
    Function.update swarms query.infoHash.list
      ((swarms query.infoHash.list).map fun swarm => swarm.leave query.peerId.list)
  else
    Function.update swarms query.infoHash.list
      (some (((swarms query.infoHash.list).getD Swarm.empty).join query.event query.peerId.list
        now))

open Classical in
noncomputable def collect (swarms : Swarms) (limitTime : Int) : Swarms := fun hash =>
  (swarms hash).bind fun swarm =>
    if ∃ peer, (swarm.keep limitTime).members peer ≠ none then some (swarm.keep limitTime) else none

noncomputable def step (host : Host) (step : Step) (swarms : Swarms) : Swarms :=
  match step.action with
  | .collect => swarms.collect (limitTimeOf step.now)
  | .serve _ =>
      match step.query host with
      | none => swarms
      | some query => swarms.announce query step.now

end Swarms

def PeerData.role (peer : PeerData) : Role :=
  if peer.event = uriEventIdCompleted then .seeder else .leecher

def PeerData.member (peer : PeerData) : Member := ⟨peer.role, peer.updateTime⟩

structure Represented (torrent : TorrentData) (swarm : Swarm) : Prop where
  exactly : CountersExact torrent
  members : ∀ hash, swarm.members hash = (torrent.peerList.value hash).map PeerData.member
  downloaded : torrent.downloaded.toNat = swarm.completions
  known : ∀ hash peer, torrent.peerList.value hash = some peer → peer.event ≠ uriEventIdNone

theorem ncard_pairs {α : Type} {pairs : List (Hash × α)} (distinct : (pairs.map Prod.fst).Nodup)
    (test : Hash × α → Bool) :
    Set.ncard {hash | ∃ data, (hash, data) ∈ pairs ∧ test (hash, data) = true} =
      pairs.countP test := by
  have same : {hash | ∃ data, (hash, data) ∈ pairs ∧ test (hash, data) = true} =
      (((pairs.filter test).map Prod.fst).toFinset : Set Hash) := by
    ext hash
    simp
  have nodup : ((pairs.filter test).map Prod.fst).Nodup :=
    distinct.sublist (List.filter_sublist.map _)
  rw [same, Set.ncard_coe_finset, List.toFinset_card_of_nodup nodup, List.length_map,
    List.countP_eq_length_filter]

theorem Represented.count {torrent : TorrentData} {swarm : Swarm}
    (peers : PeersInv torrent.peerList) (represented : Represented torrent swarm) (role : Role) :
    swarm.count role = torrent.peerList.pairs.countP fun peer => peer.2.role = role := by
  rw [← ncard_pairs (pairs_nodup peers.inv.linked), Swarm.count]
  congr 1
  ext hash
  simp [represented.members, ← value_eq_some_iff peers.inv.linked, PeerData.member]

theorem Represented.counters {torrent : TorrentData} {swarm : Swarm}
    (peers : PeersInv torrent.peerList) (represented : Represented torrent swarm) :
    torrent.complete.toNat = swarm.seeders ∧ torrent.incomplete.toNat = swarm.leechers ∧
      torrent.downloaded.toNat = swarm.completions := by
  refine ⟨?_, ?_, represented.downloaded⟩
  · rw [Swarm.seeders, represented.count peers, represented.exactly.complete]
    congr 1
    funext peer
    by_cases completed : peer.2.event = uriEventIdCompleted
    · simp [PeerData.role, completedPeer, completed]
    · simp [PeerData.role, completedPeer, completed]
  · rw [Swarm.leechers, represented.count peers, represented.exactly.incomplete]
    congr 1
    funext peer
    by_cases completed : peer.2.event = uriEventIdCompleted
    · simp [PeerData.role, completedPeer, completed]
    · simp [PeerData.role, completedPeer, completed]

end Etracker
