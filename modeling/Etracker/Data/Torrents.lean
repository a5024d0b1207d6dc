import Etracker.Data.Model
import Etracker.HashList.Values

namespace Etracker

open Foundation Foundation.Outcome

/-- A list of peers between two calls. -/
structure PeersInv (peerList : HashList PeerData) : Prop where
  inv : Inv peerList
  hashLength : peerList.hashLength = uriParamValueLength
  filled : peerList.Filled

structure TableLinked (torrentList : TorrentList) : Prop where
  linked : Linked torrentList
  hashLength : torrentList.hashLength = uriParamValueLength
  filled : torrentList.Filled
  torrents : ∀ pair ∈ torrentList.pairs, PeersInv pair.2.peerList

theorem TableLinked.withSemaphore {torrentList : TorrentList} (table : TableLinked torrentList)
    (semaphore : Path → Option Nat) : TableLinked { torrentList with semaphore := semaphore } where
  linked := ⟨table.linked.linked, table.linked.sorted, table.linked.routed, table.linked.allocated⟩
  hashLength := table.hashLength
  filled := table.filled
  torrents := table.torrents

/-- A torrent table between two announces. -/
structure TableInv (torrentList : TorrentList) : Prop where
  inv : Inv torrentList
  table : TableLinked torrentList

theorem emptyPeers_inv : PeersInv TorrentData.empty.peerList := by
  refine ⟨?_, rfl, ?_⟩
  · apply newList_inv
    · exact Nat.zero_le _
    · exact Nat.zero_le _
    · intro absurdity
      cases absurdity
  · intro entry member
    simp [TorrentData.empty] at member

theorem emptyTorrentList_inv : TableInv emptyTorrentList := by
  have inv : Inv emptyTorrentList := by
    apply newList_inv
    · exact le_refl 2
    · show 2 ≤ uriParamValueLength
      decide
    · intro absurdity
      cases absurdity
  refine ⟨inv, inv.linked, rfl, ?_, ?_⟩
  · intro entry member
    simp [emptyTorrentList] at member
  · intro pair member
    simp [emptyTorrentList] at member

theorem TableLinked.of_update {torrentList torrentList' : TorrentList} {hash : Hash}
    {before after : Option TorrentData} (table : TableLinked torrentList)
    (linked : Linked torrentList') (frame : SameFrame torrentList torrentList')
    (filled : torrentList'.Filled) (update : Update torrentList torrentList' hash before after)
    (sound : ∀ torrent, after = some torrent → PeersInv torrent.peerList) :
    TableLinked torrentList' := by
  refine ⟨linked, ?_, filled, ?_⟩
  · rw [frame.header]
    exact table.hashLength
  · intro pair member
    obtain ⟨rest, old, new⟩ := update.split
    rcases List.mem_append.mp (new.mem_iff.mp member) with changed | kept
    · obtain ⟨torrent, stored, rfl⟩ := List.mem_map.mp changed
      exact sound torrent (by simpa using stored)
    · exact table.torrents pair (old.mem_iff.mpr (List.mem_append_right _ kept))

def oldEventOf (peer : Option PeerData) : UInt8 := (peer.map PeerData.event).getD uriEventIdNone

def expandedLevel (torrentDataL : TorrentData) : Nat :=
  if torrentDataL.complete + torrentDataL.incomplete > dataStructurePeersForLevel0Limit ∧
      torrentDataL.peerList.level = 0 then 1
  else torrentDataL.peerList.level

theorem expandPeerList_spec {torrentDataL : TorrentData}
    (peers : PeersInv torrentDataL.peerList) :
    ∃ peerList, expandPeerList torrentDataL = .ok peerList ∧ PeersInv peerList ∧
      peerList.toListHeader =
        { torrentDataL.peerList.toListHeader with level := expandedLevel torrentDataL } ∧
      peerList.pairs.Perm torrentDataL.peerList.pairs := by
  by_cases expand : torrentDataL.complete + torrentDataL.incomplete >
      dataStructurePeersForLevel0Limit ∧ torrentDataL.peerList.level = 0
  · have limit : 1 ≤ listLimitLevel := by decide
    have fits : 1 ≤ torrentDataL.peerList.hashLength := by
      rw [peers.hashLength]
      decide
    obtain ⟨peerList, completed, inv, header, filled, perm⟩ :=
      reInitList_pairs peers.inv peers.filled limit fits
    refine ⟨peerList, ?_, ⟨inv, ?_, filled⟩, ?_, perm⟩
    · rw [expandPeerList, if_pos expand]
      exact completed
    · rw [header]
      exact peers.hashLength
    · rw [header, expandedLevel, if_pos expand]
  · refine ⟨torrentDataL.peerList, ?_, peers, ?_, List.Perm.refl _⟩
    · rw [expandPeerList, if_neg expand]
      rfl
    · rw [expandedLevel, if_neg expand]

theorem setPeer_spec {torrentDataL : TorrentData} (peers : PeersInv torrentDataL.peerList)
    (query : Query) (protocol : UInt8) (now : Int) :
    ∃ torrent', setPeer torrentDataL query protocol now =
        .ok (torrent',
          ((torrentDataL.peerList.value query.peerId.list).getD PeerData.empty).delay now) ∧
      PeersInv torrent'.peerList ∧
      torrent'.peerList.toListHeader =
        { torrentDataL.peerList.toListHeader with level := expandedLevel torrentDataL } ∧
      torrent'.toTorrentCounters = changeTorrentStatsL torrentDataL.toTorrentCounters
        (oldEventOf (torrentDataL.peerList.value query.peerId.list)) query.event ∧
      Update torrentDataL.peerList torrent'.peerList query.peerId.list
        (torrentDataL.peerList.value query.peerId.list)
        (some (((torrentDataL.peerList.value query.peerId.list).getD PeerData.empty).update
          query protocol now)) := by
  obtain ⟨expanded, expansion, expandedInv, expandedHeader, expandedPairs⟩ :=
    expandPeerList_spec peers
  have length : query.peerId.list.length = expanded.hashLength := by
    rw [expandedInv.hashLength, query.peerId.length_eq]
  obtain ⟨list, entry, inserted, linked, frame, member, hashIs, dataIs, others, samePairs, _⟩ :=
    setHash_entry expandedInv.inv.linked expandedInv.filled length
  obtain ⟨item, deref, _, itemData⟩ := deref_eq linked member
  have pairs := samePairs.trans expandedPairs
  have valueIs : entry.2.data = torrentDataL.peerList.value query.peerId.list := by
    rw [dataIs]
    apply Option.ext
    intro data
    rw [value_eq_some_iff expandedInv.inv.linked, value_eq_some_iff peers.inv.linked,
      expandedPairs.mem_iff]
  obtain ⟨list', stored, linked', frame', filled, update, _⟩ := setData_update linked member others
    ((entry.2.data.getD PeerData.empty).update query protocol now)
  have frames := frame.trans frame'
  refine ⟨⟨changeTorrentStatsL torrentDataL.toTorrentCounters
    (oldEventOf (torrentDataL.peerList.value query.peerId.list)) query.event, list'⟩, ?_, ?_, ?_,
    rfl, ?_⟩
  · rw [valueIs] at itemData stored
    simp only [setPeer, expansion, ok_bind, inserted, deref, itemData, stored, pure_eq_ok]
    cases torrentDataL.peerList.value query.peerId.list <;> rfl
  · refine ⟨expandedInv.inv.of_frame frames linked', ?_, filled⟩
    rw [frames.header]
    exact expandedInv.hashLength
  · rw [frames.header, expandedHeader]
  · rw [hashIs, valueIs] at update
    exact Update.of_perm peers.inv.linked linked pairs update

theorem setPeer_of_ok {torrentDataL torrent' : TorrentData} {query : Query} {protocol : UInt8}
    {now : Int} {delay : UInt32} (peers : PeersInv torrentDataL.peerList)
    (changed : setPeer torrentDataL query protocol now = .ok (torrent', delay)) :
    PeersInv torrent'.peerList ∧
      torrent'.peerList.toListHeader =
        { torrentDataL.peerList.toListHeader with level := expandedLevel torrentDataL } ∧
      torrent'.toTorrentCounters = changeTorrentStatsL torrentDataL.toTorrentCounters
        (oldEventOf (torrentDataL.peerList.value query.peerId.list)) query.event ∧
      Update torrentDataL.peerList torrent'.peerList query.peerId.list
        (torrentDataL.peerList.value query.peerId.list)
        (some (((torrentDataL.peerList.value query.peerId.list).getD PeerData.empty).update
          query protocol now)) := by
  obtain ⟨_, completed, spec⟩ := setPeer_spec peers query protocol now
  have same := completed.symm.trans changed
  cases same
  exact spec

theorem deletePeer_spec {torrentDataL : TorrentData} (peers : PeersInv torrentDataL.peerList)
    (query : Query) :
    ∃ torrent', deletePeer torrentDataL query = .ok torrent' ∧ PeersInv torrent'.peerList ∧
      torrent'.peerList.toListHeader = torrentDataL.peerList.toListHeader ∧
      torrent'.toTorrentCounters = (match torrentDataL.peerList.value query.peerId.list with
        | none => torrentDataL.toTorrentCounters
        | some peer => changeTorrentStatsL torrentDataL.toTorrentCounters peer.event
            uriEventIdNone) ∧
      Update torrentDataL.peerList torrent'.peerList query.peerId.list
        (torrentDataL.peerList.value query.peerId.list) none := by
  have length : query.peerId.list.length = torrentDataL.peerList.hashLength := by
    rw [peers.hashLength, query.peerId.length_eq]
  have linked := peers.inv.linked
  cases found : torrentDataL.peerList.lookup query.peerId.list with
  | none =>
      have absent := value_of_lookup_none found
      refine ⟨torrentDataL, ?_, peers, rfl, ?_, ?_⟩
      · simp [deletePeer, getHash_eq linked length, found]
      · rw [absent]
      · rw [absent]
        exact ⟨absent, _, List.Perm.refl _, List.Perm.refl _⟩
  | some entry =>
      obtain ⟨member, _⟩ := lookup_mem found
      obtain ⟨peer, stored⟩ := peers.filled entry member
      have present : torrentDataL.peerList.value query.peerId.list = some peer := by
        rw [value_of_lookup_some found, stored]
      obtain ⟨list', deleted, linked', frame, filled, update⟩ :=
        deleteItem_update linked peers.filled found
      refine ⟨⟨changeTorrentStatsL torrentDataL.toTorrentCounters peer.event uriEventIdNone, list'⟩,
        ?_, ⟨peers.inv.of_frame frame linked', ?_, filled⟩, frame.header, ?_, update⟩
      · simp [deletePeer, getHash_eq linked length, found, dataOf_eq linked member stored, deleted]
      · rw [frame.header]
        exact peers.hashLength
      · rw [present]

theorem deletePeer_of_ok {torrentDataL torrent' : TorrentData} {query : Query}
    (peers : PeersInv torrentDataL.peerList) (removed : deletePeer torrentDataL query = .ok torrent') :
    PeersInv torrent'.peerList ∧
      torrent'.peerList.toListHeader = torrentDataL.peerList.toListHeader ∧
      torrent'.toTorrentCounters = (match torrentDataL.peerList.value query.peerId.list with
        | none => torrentDataL.toTorrentCounters
        | some peer => changeTorrentStatsL torrentDataL.toTorrentCounters peer.event
            uriEventIdNone) ∧
      Update torrentDataL.peerList torrent'.peerList query.peerId.list
        (torrentDataL.peerList.value query.peerId.list) none := by
  obtain ⟨_, completed, spec⟩ := deletePeer_spec peers query
  have same := completed.symm.trans removed
  cases same
  exact spec

theorem setTorrentL_spec {torrentList : TorrentList} (table : TableLinked torrentList)
    (hash : ParamValue) :
    ∃ torrentList' entry, setTorrentL torrentList hash = .ok (torrentList', entry.1) ∧
      TableLinked torrentList' ∧ SameFrame torrentList torrentList' ∧
      entry ∈ torrentList'.entries ∧ entry.2.hash = hash.list ∧
      entry.2.data = some ((torrentList.value hash.list).getD TorrentData.empty) ∧
      Update torrentList torrentList' hash.list (torrentList.value hash.list)
        (some ((torrentList.value hash.list).getD TorrentData.empty)) := by
  have length : hash.list.length = torrentList.hashLength := by
    rw [table.hashLength, hash.length_eq]
  obtain ⟨list, entry, inserted, linked, frame, member, hashIs, dataIs, others, samePairs, _⟩ :=
    setHash_entry table.linked table.filled length
  obtain ⟨item, deref, _, itemData⟩ := deref_eq linked member
  rw [dataIs] at itemData
  cases found : torrentList.value hash.list with
  | some torrent =>
      rw [found] at itemData dataIs
      have filled : list.Filled := by
        intro other inside
        by_cases same : other = entry
        · exact ⟨torrent, by rw [same, dataIs]⟩
        · exact others other inside same
      have inside : (hash.list, torrent) ∈ torrentList.pairs :=
        (value_eq_some_iff table.linked).mp found
      obtain ⟨front, back, whole⟩ := List.append_of_mem inside
      have split : torrentList.pairs.Perm ((hash.list, torrent) :: (front ++ back)) := by
        rw [whole]
        exact List.perm_middle
      have update : Update torrentList list hash.list (some torrent) (some torrent) :=
        ⟨found, front ++ back, split, samePairs.trans split⟩
      refine ⟨list, entry, ?_, ?_, frame, member, hashIs, dataIs, update⟩
      · simp [setTorrentL, inserted, deref, itemData]
      · apply table.of_update linked frame filled update
        intro other same
        cases same
        exact table.torrents _ inside
  | none =>
      rw [found] at itemData dataIs
      have made : (initList 0 uriParamValueLength listSemaphoreDisable .bigEndian :
          Except Fault (HashList PeerData)) = .ok TorrentData.empty.peerList :=
        initList_ok _ _ (Nat.zero_le _) (Nat.zero_le _)
      obtain ⟨list', stored, linked', frame', filled, update, present, _⟩ :=
        setData_update linked member others TorrentData.empty
      rw [hashIs, dataIs] at update
      have whole := Update.of_perm table.linked linked samePairs update
      refine ⟨list', (entry.1, { entry.2 with data := some TorrentData.empty }), ?_, ?_,
        frame.trans frame', (lookup_mem present).1, hashIs, rfl, whole⟩
      · have data : (⟨⟨0, 0, 0⟩, TorrentData.empty.peerList⟩ : TorrentData) = TorrentData.empty := rfl
        simp only [setTorrentL, inserted, ok_bind, deref, itemData, made, data, stored, pure_eq_ok]
      · apply table.of_update linked' (frame.trans frame') filled whole
        intro other same
        cases same
        exact emptyPeers_inv

def torrentOf (torrentList : TorrentList) (infoHash : ParamValue) : TorrentData :=
  (torrentList.value infoHash.list).getD TorrentData.empty

theorem torrentOf_some {torrentList : TorrentList} {infoHash : ParamValue} {torrent : TorrentData}
    (found : torrentList.value infoHash.list = some torrent) :
    torrentOf torrentList infoHash = torrent := by
  rw [torrentOf, found, Option.getD_some]

@[simp] theorem torrentOf_empty (infoHash : ParamValue) :
    torrentOf emptyTorrentList infoHash = TorrentData.empty := by
  simp [torrentOf, emptyTorrentList]

@[simp] theorem emptyPeers_value (hash : Hash) : TorrentData.empty.peerList.value hash = none := by
  simp [TorrentData.empty]

theorem torrentOf_inv {torrentList : TorrentList} (table : TableLinked torrentList)
    (infoHash : ParamValue) : PeersInv (torrentOf torrentList infoHash).peerList := by
  unfold torrentOf
  cases found : torrentList.value infoHash.list with
  | none => exact emptyPeers_inv
  | some torrent => exact table.torrents _ ((value_eq_some_iff table.linked).mp found)

theorem storeTorrent_spec {torrentList : TorrentList} (table : TableLinked torrentList)
    {entry : Entry TorrentData} (member : entry ∈ torrentList.entries) {torrent' : TorrentData}
    (sound : PeersInv torrent'.peerList) :
    ∃ torrentList', torrentList.setData entry.1 (some torrent') = .ok torrentList' ∧
      TableLinked torrentList' ∧ SameFrame torrentList torrentList' ∧
      Update torrentList torrentList' entry.2.hash entry.2.data (some torrent') ∧
      torrentList'.dataOf entry.1 = .ok torrent' := by
  have others : ∀ other ∈ torrentList.entries, other ≠ entry →
      ∃ data, other.2.data = some data := fun other inside _ => table.filled other inside
  obtain ⟨torrentList', stored, linked, frame, filled, update, present, _⟩ :=
    setData_update table.linked member others torrent'
  refine ⟨torrentList', stored, ?_, frame, update, dataOf_eq linked (lookup_mem present).1 rfl⟩
  apply table.of_update linked frame filled update
  intro other same
  cases same
  exact sound

theorem setPeerPublic_spec {torrentList : TorrentList} (table : TableLinked torrentList)
    (query : Query) (protocol : UInt8) (now : Int) :
    ∃ torrentList' torrent delay torrent',
      setPeerPublic torrentList query protocol now = .ok (torrentList', torrent, delay) ∧
      TableLinked torrentList' ∧ SameFrame torrentList torrentList' ∧
      setPeer (torrentOf torrentList query.infoHash) query protocol now = .ok (torrent', delay) ∧
      Update torrentList torrentList' query.infoHash.list
        (torrentList.value query.infoHash.list) (some torrent') ∧
      torrentList'.dataOf torrent = .ok torrent' := by
  obtain ⟨first, entry, found, table', frame, member, hashIs, dataIs, update⟩ :=
    setTorrentL_spec table query.infoHash
  obtain ⟨torrent', changed, sound, _⟩ :=
    setPeer_spec (torrentOf_inv table query.infoHash) query protocol now
  obtain ⟨second, stored, table'', frame', update', reached⟩ :=
    storeTorrent_spec table' member sound
  have data : first.dataOf entry.1 = .ok (torrentOf torrentList query.infoHash) :=
    dataOf_eq table'.linked member dataIs
  rw [hashIs, dataIs] at update'
  refine ⟨second, entry.1, _, torrent', ?_, table'', frame.trans frame', changed,
    update.trans update', reached⟩
  simp only [setPeerPublic, found, ok_bind, data, changed, stored, pure_eq_ok]

theorem setPeerPublic_first (query : Query) (protocol : UInt8) (now : Int) :
    ∃ torrentList torrent torrentDataL,
      setPeerPublic emptyTorrentList query protocol now = .ok (torrentList, torrent, 0) ∧
      TableInv torrentList ∧ torrentList.dataOf torrent = .ok torrentDataL ∧
      torrentList.pairs = [(query.infoHash.list, torrentDataL)] ∧
      PeersInv torrentDataL.peerList ∧
      torrentDataL.peerList.pairs =
        [(query.peerId.list, PeerData.empty.update query protocol now)] ∧
      torrentDataL.toTorrentCounters =
        changeTorrentStatsL ⟨0, 0, 0⟩ uriEventIdNone query.event := by
  have table := emptyTorrentList_inv
  obtain ⟨torrentList, torrent, delay, torrentDataL, completed, table', frame, changed, update,
    reached⟩ := setPeerPublic_spec table.table query protocol now
  rw [torrentOf_empty] at changed
  obtain ⟨made, changed', sound, _, counters, peerUpdate⟩ :=
    setPeer_spec emptyPeers_inv query protocol now
  rw [emptyPeers_value] at changed' counters peerUpdate
  obtain ⟨rfl, rfl⟩ := Prod.mk.inj (Except.ok.inj (changed.symm.trans changed'))
  obtain ⟨peerRest, oldPeers, newPeers⟩ := peerUpdate.split
  have noPeers : peerRest = [] := by simpa [TorrentData.empty] using oldPeers
  obtain ⟨rest, old, new⟩ := update.split
  have noTorrents : rest = [] := by simpa [emptyTorrentList] using old
  rw [noPeers] at newPeers
  rw [noTorrents] at new
  refine ⟨torrentList, torrent, torrentDataL, ?_, ⟨table.inv.of_frame frame table'.linked, table'⟩,
    reached, List.perm_singleton.mp new, sound, List.perm_singleton.mp newPeers, counters⟩
  exact completed

theorem deletePeerPublic_none {torrentList : TorrentList} (table : TableLinked torrentList)
    (query : Query) (absent : torrentList.value query.infoHash.list = none) :
    deletePeerPublic torrentList query = .ok (torrentList, none) := by
  have length : query.infoHash.list.length = torrentList.hashLength := by
    rw [table.hashLength, query.infoHash.length_eq]
  cases found : torrentList.lookup query.infoHash.list with
  | none => simp [deletePeerPublic, getHash_eq table.linked length, found]
  | some entry =>
      obtain ⟨data, stored⟩ := table.filled entry (lookup_mem found).1
      rw [value_of_lookup_some found, stored] at absent
      cases absent

theorem deletePeerPublic_some {torrentList : TorrentList} (table : TableLinked torrentList)
    (query : Query) {torrentDataL : TorrentData}
    (present : torrentList.value query.infoHash.list = some torrentDataL) :
    ∃ torrentList' torrent torrent',
      deletePeerPublic torrentList query = .ok (torrentList', some torrent) ∧
      TableLinked torrentList' ∧ SameFrame torrentList torrentList' ∧
      deletePeer torrentDataL query = .ok torrent' ∧
      Update torrentList torrentList' query.infoHash.list (some torrentDataL) (some torrent') ∧
      torrentList'.dataOf torrent = .ok torrent' := by
  have length : query.infoHash.list.length = torrentList.hashLength := by
    rw [table.hashLength, query.infoHash.length_eq]
  cases found : torrentList.lookup query.infoHash.list with
  | none =>
      rw [value_of_lookup_none found] at present
      cases present
  | some entry =>
      obtain ⟨member, hashIs⟩ := lookup_mem found
      rw [value_of_lookup_some found] at present
      have inside : (query.infoHash.list, torrentDataL) ∈ torrentList.pairs := by
        rw [← value_eq_some_iff table.linked, value_of_lookup_some found, present]
      obtain ⟨torrent', removed, sound, _⟩ :=
        deletePeer_spec (table.torrents _ inside) query
      obtain ⟨torrentList', stored, table', frame, update, reached⟩ :=
        storeTorrent_spec table member sound
      rw [hashIs, present] at update
      refine ⟨torrentList', entry.1, torrent', ?_, table', frame, removed, update, reached⟩
      simp [deletePeerPublic, getHash_eq table.linked length, found,
        dataOf_eq table.linked member present, removed, stored]

end Etracker
