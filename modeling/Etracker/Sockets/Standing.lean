import Etracker.Locations.Loading
import Etracker.Sockets.Lists
import Etracker.Udp.Replies

namespace Etracker

open Foundation Foundation.CString Foundation.Outcome Foundation.Traversal Etracker.Locations

section Lists

variable {α : Type} {list : HashList α}

def HashList.has (list : HashList α) (hash : Hash) : Bool := (list.lookup hash).isSome

theorem HashList.value_eq_bind (list : HashList α) (hash : Hash) :
    list.value hash = (list.lookup hash).bind fun entry => entry.2.data := rfl

theorem waitSemaphoreLeaf_locked (inv : Inv list) {leaf : Path}
    (atLeaf : leaf.length = list.level) :
    ∃ semaphore, waitSemaphoreLeaf list leaf = .ok { list with semaphore := semaphore } ∧
      Linked { list with semaphore := semaphore } ∧
      ∀ list' : HashList α, Linked list' → SameFrame { list with semaphore := semaphore } list' →
        ∃ final, postSemaphoreLeaf list' leaf = .ok final ∧ Inv final ∧
          final.toListHeader = list.toListHeader ∧ final.lookup = list'.lookup := by
  obtain ⟨semaphore, waited, posted⟩ := waitSemaphoreLeaf_ok inv atLeaf
  refine ⟨semaphore, waited,
    ⟨inv.linked.linked, inv.linked.sorted, inv.linked.routed, inv.linked.allocated⟩, ?_⟩
  intro list' linked frame
  have restored : Linked { list' with semaphore := list.semaphore } :=
    ⟨linked.linked, linked.sorted, linked.routed, linked.allocated⟩
  exact ⟨_, posted list' frame.header frame.semaphore, inv.of_frame ⟨frame.header, rfl⟩ restored,
    frame.header, rfl⟩

theorem getHash_looked (linked : Linked list) {hash : Hash}
    (length : hash.length = list.hashLength) {entry : Option (Entry α)}
    (found : list.lookup hash = entry) : getHash list hash = .ok (entry.map Prod.fst) := by
  rw [getHash_eq linked length, found]

theorem setHash_lookup (linked : Linked list) {hash : Hash}
    (length : hash.length = list.hashLength) :
    ∃ list' entry, setHash list hash = .ok (list', entry.1) ∧ Linked list' ∧
      SameFrame list list' ∧ entry ∈ list'.entries ∧ entry.2.hash = hash ∧
      list'.lookup = Function.update list.lookup hash (some entry) := by
  cases found : list.lookup hash with
  | some entry =>
      obtain ⟨member, same⟩ := lookup_mem found
      refine ⟨list, entry, setHash_found linked length found, linked, .refl list, member, same, ?_⟩
      rw [← found, Function.update_eq_self]
  | none =>
      obtain ⟨list', completed, spliced, _⟩ := setHash_inserts linked length found
      obtain ⟨front, back, _, whole⟩ := spliced.split
      exact ⟨list', (_, _), completed, spliced.linked, spliced.frame, by simp [whole], rfl,
        spliced.lookup_insert⟩

theorem setData_lookup (linked : Linked list) {entry : Entry α} (member : entry ∈ list.entries)
    (data : Option α) :
    ∃ list', list.setData entry.1 data = .ok list' ∧ Linked list' ∧ SameFrame list list' ∧
      list'.lookup = Function.update list.lookup entry.2.hash
        (some (entry.1, { entry.2 with data := data })) := by
  obtain ⟨list', stored, spliced, _⟩ := setData_stores linked member data
  exact ⟨list', stored, spliced.linked, spliced.frame, spliced.lookup_replace linked rfl⟩

theorem deleteItem_lookup (linked : Linked list) {entry : Entry α}
    (member : entry ∈ list.entries) :
    ∃ list', deleteItem list entry.1 = .ok list' ∧ Linked list' ∧ SameFrame list list' ∧
      list'.lookup = Function.update list.lookup entry.2.hash none := by
  obtain ⟨list', deleted, spliced, _⟩ := deleteItem_removes linked member
  exact ⟨list', deleted, spliced.linked, spliced.frame, spliced.lookup_remove linked⟩

theorem HashList.has_update {list' : HashList α} {hash : Hash} {entry : Option (Entry α)}
    (changed : list'.lookup = Function.update list.lookup hash entry) :
    list'.has = Function.update list.has hash entry.isSome := by
  funext other
  by_cases here : other = hash
  · simp [HashList.has, changed, here]
  · simp [HashList.has, changed, here]

theorem HashList.value_update {list' : HashList α} {hash : Hash} {entry : Option (Entry α)}
    (changed : list'.lookup = Function.update list.lookup hash entry) :
    list'.value = Function.update list.value hash (entry.bind fun entry => entry.2.data) := by
  funext other
  by_cases here : other = hash
  · simp [HashList.value_eq_bind, changed, here]
  · simp [HashList.value_eq_bind, changed, here]

end Lists

namespace SocketLists

theorem keyOf_length (socket : UInt32) : (keyOf socket).length = 4 := rfl

theorem keyOf_socketOf {hash : Hash} (four : hash.length = 4) : keyOf (socketOf hash) = hash := by
  rw [keyOf, socketOf, littleEndianBytes_read, bigEndianBytes_read (Nat.le_of_eq four.symm),
    List.drop_zero, List.take_of_length_le (Nat.le_of_eq four)]

theorem keyOf_injective {socket other : UInt32} (same : keyOf socket = keyOf other) :
    socket = other :=
  Udp.littleEndianBytes_inj same

theorem keyOf_ne {socket other : UInt32} (apart : socket ≠ other) :
    keyOf other ≠ keyOf socket :=
  fun same => apart (keyOf_injective same).symm

theorem socketOf_keyOf (socket : UInt32) : socketOf (keyOf socket) = socket :=
  keyOf_injective (keyOf_socketOf (keyOf_length socket))

structure KeyedBySocket {α : Type} (list : HashList α) : Prop where
  inv : Inv list
  hashLength : list.hashLength = 4

/-- A list of sockets with their data. -/
structure Sound (socketList : SocketList) : Prop extends KeyedBySocket socketList where
  holds : ∀ hash entry, socketList.lookup hash = some entry →
    ∃ socketData, entry.2.data = some socketData ∧ keyOf socketData.socket = hash

section Operations

variable {socketList : SocketList} {websockets : SocketSet}

theorem Sound.value (sound : Sound socketList) {socket : UInt32} {socketData : SocketData}
    (found : socketList.value (keyOf socket) = some socketData) : socketData.socket = socket := by
  obtain ⟨entry, located, stored⟩ := Option.bind_eq_some_iff.mp found
  obtain ⟨socketData', stored', key⟩ := sound.holds _ entry located
  rw [stored] at stored'
  cases stored'
  exact keyOf_injective key

theorem Sound.update (sound : Sound socketList) {socketList' : SocketList} (inv : Inv socketList')
    (header : socketList'.toListHeader = socketList.toListHeader) {socket : UInt32}
    {entry : Option (Entry SocketData)}
    (holds : ∀ stored, entry = some stored →
      ∃ socketData, stored.2.data = some socketData ∧ socketData.socket = socket)
    (changed : socketList'.lookup = Function.update socketList.lookup (keyOf socket) entry) :
    Sound socketList' := by
  refine ⟨⟨inv, by rw [header, sound.hashLength]⟩, ?_⟩
  intro hash stored found
  rw [changed] at found
  by_cases here : hash = keyOf socket
  · rw [here, Function.update_self] at found
    obtain ⟨socketData, data, same⟩ := holds stored found
    exact ⟨socketData, data, by rw [same, here]⟩
  · rw [Function.update_of_ne here] at found
    exact sound.holds hash stored found

def closing (socketData : SocketData) : List KernelCall :=
  [.deleteClientEqueue socketData.equeue socketData.socket, .close socketData.socket]

theorem updateSocketL_spec (sound : Sound socketList) (socket equeue : UInt32)
    (useSemaphore : Bool) (now : Int) :
    ∃ socketList', updateSocketL socketList socket equeue useSemaphore now = .ok socketList' ∧
      Sound socketList' ∧ socketList'.value =
        Function.update socketList.value (keyOf socket) (some ⟨socket, equeue, now⟩) := by
  have stores : ∀ list : SocketList, Linked list → list.hashLength = 4 →
      ∃ (middle : SocketList) (item : Address) (list' : SocketList),
        setHash list (keyOf socket) = .ok (middle, item) ∧
        middle.setData item (some ⟨socket, equeue, now⟩) = .ok list' ∧ Linked list' ∧
        SameFrame list list' ∧ ∃ entry : Entry SocketData,
          entry.2.data = some ⟨socket, equeue, now⟩ ∧
          list'.lookup = Function.update list.lookup (keyOf socket) (some entry) := by
    intro list linked four
    obtain ⟨middle, entry, inserted, linked', frame, member, key, lookup⟩ :=
      setHash_lookup linked ((keyOf_length socket).trans four.symm)
    obtain ⟨list', stored, linked'', frame', lookup'⟩ :=
      setData_lookup linked' member (some ⟨socket, equeue, now⟩)
    refine ⟨middle, entry.1, list', inserted, stored, linked'', frame.trans frame',
      (entry.1, { entry.2 with data := some ⟨socket, equeue, now⟩ }), rfl, ?_⟩
    rw [lookup', lookup, key, Function.update_idem]
  have holds : ∀ {entry : Entry SocketData}, entry.2.data = some ⟨socket, equeue, now⟩ →
      ∀ stored, some entry = some stored →
        ∃ socketData, stored.2.data = some socketData ∧ socketData.socket = socket := by
    intro entry data stored same
    cases same
    exact ⟨_, data, rfl⟩
  cases useSemaphore with
  | false =>
      obtain ⟨middle, item, list', inserted, stored, linked, frame, entry, data, lookup⟩ :=
        stores socketList sound.inv.linked sound.hashLength
      refine ⟨list', ?_,
        sound.update (sound.inv.of_frame frame linked) frame.header (holds data) lookup, ?_⟩
      · simp only [updateSocketL, Bool.false_eq_true, if_false, pure_eq_ok, ok_bind, inserted,
          stored]
      · rw [HashList.value_update lookup]
        exact congrArg _ data
  | true =>
      obtain ⟨semaphore, waited, linked, posted⟩ :=
        waitSemaphoreLeaf_locked sound.inv (getLeaf_length socketList.toListHeader (keyOf socket))
      obtain ⟨middle, item, list', inserted, stored, linked', frame, entry, data, lookup⟩ :=
        stores _ linked sound.hashLength
      obtain ⟨final, done, inv, header, same⟩ := posted list' linked' frame
      refine ⟨final, ?_, sound.update inv header (holds data) (same.trans lookup), ?_⟩
      · simp only [updateSocketL, if_true, waited, ok_bind, inserted, stored, done]
      · rw [HashList.value_update (same.trans lookup)]
        exact congrArg _ data

theorem deleteSocketL_spec (sound : Sound socketList) (socket : UInt32)
    (calls : List KernelCall) :
    ∃ socketList', deleteSocketL socketList socket calls = .ok (socketList',
        calls ++ (socketList.value (keyOf socket)).toList.flatMap closing) ∧
      Sound socketList' ∧
      socketList'.value = Function.update socketList.value (keyOf socket) none := by
  obtain ⟨semaphore, waited, linked, posted⟩ :=
    waitSemaphoreLeaf_locked sound.inv (getLeaf_length socketList.toListHeader (keyOf socket))
  have nothing : ∀ stored : Entry SocketData, none = some stored →
      ∃ socketData, stored.2.data = some socketData ∧ socketData.socket = socket :=
    fun _ same => nomatch same
  cases found : socketList.lookup (keyOf socket) with
  | none =>
      have searched :
          getHash { socketList with semaphore := semaphore } (keyOf socket) = .ok none :=
        getHash_looked linked ((keyOf_length socket).trans sound.hashLength.symm) found
      obtain ⟨final, done, inv, header, same⟩ := posted _ linked (.refl _)
      have absent : socketList.value (keyOf socket) = none := by
        rw [HashList.value_eq_bind, found]
        rfl
      have unchanged : final.lookup =
          Function.update socketList.lookup (keyOf socket) none := by
        rw [← found, Function.update_eq_self]
        exact same
      refine ⟨final, ?_, sound.update inv header nothing unchanged, ?_⟩
      · simp [deleteSocketL, waited, searched, deleteSocketItemL, done, absent]
      · exact HashList.value_update unchanged
  | some entry =>
      have searched : getHash { socketList with semaphore := semaphore } (keyOf socket) =
          .ok (some entry.1) :=
        getHash_looked linked ((keyOf_length socket).trans sound.hashLength.symm) found
      obtain ⟨member, key⟩ := lookup_mem found
      obtain ⟨socketData, data, _⟩ := sound.holds _ entry found
      have read := dataOf_eq linked member data
      obtain ⟨list', deleted, linked', frame, lookup⟩ := deleteItem_lookup linked member
      obtain ⟨final, done, inv, header, same⟩ := posted list' linked' frame
      have present : socketList.value (keyOf socket) = some socketData := by
        rw [HashList.value_eq_bind, found]
        exact data
      have changed : final.lookup =
          Function.update socketList.lookup (keyOf socket) none := by
        rw [same, lookup, key]
        rfl
      refine ⟨final, ?_, sound.update inv header nothing changed, ?_⟩
      · simp [deleteSocketL, waited, searched, deleteSocketItemL, read, deleted, done, present,
          closing]
      · exact HashList.value_update changed

structure Flat (websockets : SocketSet) : Prop extends KeyedBySocket websockets where
  level : websockets.level = 0

theorem Flat.of_header (flat : Flat websockets) {websockets' : SocketSet} (inv : Inv websockets')
    (header : websockets'.toListHeader = websockets.toListHeader) : Flat websockets' :=
  ⟨⟨inv, by rw [header, flat.hashLength]⟩, by rw [header, flat.level]⟩

theorem deleteWebsocket_spec (flat : Flat websockets) (socket : UInt32) :
    ∃ websockets', deleteWebsocket websockets socket = .ok websockets' ∧ Flat websockets' ∧
      websockets'.has = Function.update websockets.has (keyOf socket) false := by
  have atRoot : ([] : Path).length = websockets.level := flat.level.symm
  obtain ⟨semaphore, waited, linked, posted⟩ := waitSemaphoreLeaf_locked flat.inv atRoot
  cases found : websockets.lookup (keyOf socket) with
  | none =>
      have searched :
          getHash { websockets with semaphore := semaphore } (keyOf socket) = .ok none :=
        getHash_looked linked ((keyOf_length socket).trans flat.hashLength.symm) found
      obtain ⟨final, done, inv, header, same⟩ := posted _ linked (.refl _)
      have unchanged : final.lookup =
          Function.update websockets.lookup (keyOf socket) none := by
        rw [← found, Function.update_eq_self]
        exact same
      refine ⟨final, ?_, flat.of_header inv header, HashList.has_update unchanged⟩
      simp [deleteWebsocket, waited, searched, done]
  | some entry =>
      have searched : getHash { websockets with semaphore := semaphore } (keyOf socket) =
          .ok (some entry.1) :=
        getHash_looked linked ((keyOf_length socket).trans flat.hashLength.symm) found
      obtain ⟨member, key⟩ := lookup_mem found
      obtain ⟨list', deleted, linked', frame, lookup⟩ := deleteItem_lookup linked member
      obtain ⟨final, done, inv, header, same⟩ := posted list' linked' frame
      have changed : final.lookup =
          Function.update websockets.lookup (keyOf socket) none := by
        rw [same, lookup, key]
        rfl
      refine ⟨final, ?_, flat.of_header inv header, HashList.has_update changed⟩
      simp [deleteWebsocket, waited, searched, deleted, done]

theorem setWebsocket_spec (flat : Flat websockets) (socket : UInt32) :
    ∃ websockets', setWebsocket websockets socket = .ok websockets' ∧ Flat websockets' ∧
      websockets'.has = Function.update websockets.has (keyOf socket) true := by
  have atRoot : ([] : Path).length = websockets.level := flat.level.symm
  obtain ⟨semaphore, waited, linked, posted⟩ := waitSemaphoreLeaf_locked flat.inv atRoot
  obtain ⟨list', entry, inserted, linked', frame, _, _, lookup⟩ :=
    setHash_lookup linked ((keyOf_length socket).trans flat.hashLength.symm)
  obtain ⟨final, done, inv, header, same⟩ := posted list' linked' frame
  refine ⟨final, ?_, flat.of_header inv header, HashList.has_update (same.trans lookup)⟩
  simp [setWebsocket, waited, inserted, done]

end Operations

section Traversals

/-- What `deleteSocketListCallback` does about one socket. -/
def deleteSocketListStep : EntryStep Unit (SocketList × SocketSet × List KernelCall)
  | entry, (socketList, websockets, calls) => do
      let (socketList, calls) ← deleteSocketL socketList (socketOf entry.2.hash) calls
      let websockets ← deleteWebsocket websockets (socketOf entry.2.hash)
      pure ⟨false, [], entry.2.data.toList, socketList, websockets, calls⟩

theorem deleteSocketListCallback_implements :
    Implements deleteSocketListCallback deleteSocketListStep := by
  rintro list leaf front back entry ⟨socketList, websockets, calls⟩ linked split
  have member : entry ∈ list.leafEntries leaf := by simp [split]
  obtain ⟨stored, present, hashIs, _, _⟩ := Represents.stored linked member
  obtain ⟨list', deleted, rewritten, freed⟩ := deleteItem_eq linked split
  simp only [deleteSocketListCallback, deleteSocketListStep, HashList.deref, present, pure_eq_ok,
    ok_bind, hashIs, deleted]
  cases deleteSocketL socketList (socketOf entry.2.hash) calls with
  | error fault => rfl
  | ok closed =>
      simp only [ok_bind]
      cases deleteWebsocket websockets (socketOf entry.2.hash) with
      | error fault => rfl
      | ok websockets' => exact ⟨list', rfl, freed, by simpa using rewritten⟩

/-- The collector closes the sockets that nothing was read from since `maxTimeAllow`. -/
def Expired (maxTimeAllow : Int) (socketData : SocketData) : Prop :=
  socketData.time < maxTimeAllow

instance (maxTimeAllow : Int) (socketData : SocketData) :
    Decidable (Expired maxTimeAllow socketData) :=
  inferInstanceAs (Decidable (_ < _))

def garbageSocketTimeoutStep (maxTimeAllow : Int) :
    EntryStep SocketData (SocketSet × List KernelCall)
  | entry, (websockets, calls) =>
      match entry.2.data with
      | none => throw .dangling
      | some socketData =>
          if Expired maxTimeAllow socketData then do
            let websockets ← deleteWebsocket websockets socketData.socket
            pure ⟨false, [], entry.2.data.toList, websockets,
              calls ++ [.send socketData.socket timeoutMessage true] ++ closing socketData⟩
          else pure ⟨false, [entry], [], websockets, calls⟩

theorem garbageSocketTimeoutCallback_implements (maxTimeAllow : Int) :
    Implements (garbageSocketTimeoutCallback maxTimeAllow)
      (garbageSocketTimeoutStep maxTimeAllow) := by
  rintro list leaf front back entry ⟨websockets, calls⟩ linked split
  have member : entry ∈ list.leafEntries leaf := by simp [split]
  obtain ⟨stored, present, hashIs, _, dataIs⟩ := Represents.stored linked member
  simp only [garbageSocketTimeoutCallback, garbageSocketTimeoutStep, HashList.dataOf,
    HashList.deref, present, pure_eq_ok, ok_bind, dataIs]
  cases content : entry.2.data with
  | none => rfl
  | some socketData =>
      have read : list.dataOf entry.1 = .ok socketData := by
        simp [HashList.dataOf, HashList.deref, present, dataIs, content]
      simp only [ok_bind]
      by_cases expired : Expired maxTimeAllow socketData
      · rw [if_pos expired, if_pos (show socketData.time < maxTimeAllow from expired)]
        cases deleteWebsocket websockets socketData.socket with
        | error fault => rfl
        | ok websockets' =>
            obtain ⟨list', deleted, rewritten, freed⟩ := deleteItem_eq linked split
            simp only [ok_bind, deleteSocketItemL, read, deleted]
            refine ⟨list', rfl, ?_, by simpa using rewritten⟩
            rw [freed, content]
      · rw [if_neg expired, if_neg (show ¬socketData.time < maxTimeAllow from expired)]
        have unchanged := Rewritten.refl linked leaf
        rw [split] at unchanged
        exact ⟨list, rfl, by simp, by simpa using unchanged⟩

variable {Degrees : Type} [OfNat Degrees 1000] [DecidableEq Degrees]
  (floatBytes : Degrees → Bytes 4)

def broadcastStep (geoip : Table Degrees) (ip : In6Addr) (protocol : UInt8) :
    EntryStep Unit (List UInt8 × List KernelCall)
  | entry, (data, calls) => do
      let data ←
        if data.getD 0 0 = 0 then do
          let geoipSingle ← locate geoip (ip4Of ip)
          pure (frame floatBytes geoipSingle protocol)
        else pure data
      pure ⟨false, [entry], [], data, calls ++ [.send (socketOf entry.2.hash) data false]⟩

theorem broadcastCallback_implements (geoip : Table Degrees) (ip : In6Addr) (protocol : UInt8) :
    Implements (broadcastCallback floatBytes geoip ip protocol)
      (broadcastStep floatBytes geoip ip protocol) := by
  rintro list leaf front back entry ⟨data, calls⟩ linked split
  have member : entry ∈ list.leafEntries leaf := by simp [split]
  obtain ⟨stored, present, hashIs, _, _⟩ := Represents.stored linked member
  have unchanged := Rewritten.refl linked leaf
  rw [split] at unchanged
  have same : list.deref entry.1 = .ok stored := by simp [HashList.deref, present]
  simp only [broadcastCallback, broadcastStep, same]
  by_cases unmade : data.getD 0 0 = 0
  · rw [if_pos unmade, if_pos unmade]
    cases locate geoip (ip4Of ip) with
    | error fault => rfl
    | ok record => exact ⟨list, by rw [← hashIs]; rfl, by simp, by simpa using unchanged⟩
  · rw [if_neg unmade, if_neg unmade]
    exact ⟨list, by rw [← hashIs]; rfl, by simp, by simpa using unchanged⟩

end Traversals

section Traversed

variable {α : Type} {list : HashList α}

theorem sockets_nodup (keyed : KeyedBySocket list) :
    (list.entries.map fun entry => socketOf entry.2.hash).Nodup := by
  refine List.Nodup.map_on ?_ (entries_nodup keyed.inv.linked)
  intro left inLeft right inRight same
  have four : ∀ entry ∈ list.entries, entry.2.hash.length = 4 := fun entry member =>
    (entry_facts keyed.inv.linked member).1.trans keyed.hashLength
  have hashes : left.2.hash = right.2.hash := by
    rw [← keyOf_socketOf (four left inLeft), same, keyOf_socketOf (four right inRight)]
  exact List.inj_on_of_nodup_map (entries_hash_nodup keyed.inv.linked) inLeft inRight hashes

theorem findKey_socket (keyed : KeyedBySocket list) (socket : UInt32) :
    Keyed.findKey (fun entry : Entry α => socketOf entry.2.hash) list.entries socket =
      list.lookup (keyOf socket) := by
  apply Option.ext
  intro entry
  rw [Keyed.findKey_eq_some_iff (sockets_nodup keyed), lookup_eq_some_iff keyed.inv.linked]
  apply and_congr_right
  intro member
  have four : entry.2.hash.length = 4 :=
    (entry_facts keyed.inv.linked member).1.trans keyed.hashLength
  constructor
  · rintro rfl
    exact (keyOf_socketOf four).symm
  · intro same
    rw [same, socketOf_keyOf]

def callsOf (socket : UInt32) (calls : List KernelCall) : List KernelCall :=
  calls.filter fun call => call.socket = socket

theorem callsOf_append (socket : UInt32) (calls calls' : List KernelCall) :
    callsOf socket (calls ++ calls') = callsOf socket calls ++ callsOf socket calls' :=
  List.filter_append _ _

theorem callsOf_of_all {socket : UInt32} {calls : List KernelCall}
    (all : ∀ call ∈ calls, call.socket = socket) (other : UInt32) :
    callsOf other calls = if socket = other then calls else [] := by
  by_cases here : socket = other
  · rw [if_pos here]
    apply List.filter_eq_self.mpr
    intro call member
    rw [all call member, here]
    exact decide_eq_true rfl
  · rw [if_neg here]
    apply List.filter_eq_nil_iff.mpr
    intro call member
    rw [all call member]
    simpa using here

theorem closing_socket {socketData : SocketData} : ∀ call ∈ closing socketData,
    call.socket = socketData.socket := by
  simp [closing, KernelCall.socket]

/-- How one socket stands with a worker and with the websockets. -/
structure Standing where
  socketData : Option SocketData
  websocket : Bool
  calls : List KernelCall

def standing (args : SocketList × SocketSet × List KernelCall) (socket : UInt32) : Standing where
  socketData := args.1.value (keyOf socket)
  websocket := args.2.1.has (keyOf socket)
  calls := callsOf socket args.2.2

def Standing.discarded (standing : Standing) : Standing where
  socketData := none
  websocket := false
  calls := standing.calls ++ standing.socketData.toList.flatMap closing

theorem deleteSocketListStep_spec (entry : Entry Unit) {socketList : SocketList}
    {websockets : SocketSet} (sound : Sound socketList) (flat : Flat websockets)
    (calls : List KernelCall) :
    ∃ visit, deleteSocketListStep entry (socketList, websockets, calls) = .ok visit ∧
      visit.stop = false ∧ visit.kept = [] ∧ (Sound visit.state.1 ∧ Flat visit.state.2.1) ∧
      ∀ other, standing visit.state other =
        if socketOf entry.2.hash = other then
          (standing (socketList, websockets, calls) other).discarded
        else standing (socketList, websockets, calls) other := by
  have isSocket : ∃ socket, socketOf entry.2.hash = socket := ⟨_, rfl⟩
  obtain ⟨socket, isSocket⟩ := isSocket
  obtain ⟨socketList', deleted, sound', values⟩ := deleteSocketL_spec sound socket calls
  obtain ⟨websockets', removed, flat', sockets⟩ := deleteWebsocket_spec flat socket
  have completed : deleteSocketListStep entry (socketList, websockets, calls) =
      .ok ⟨false, [], entry.2.data.toList, socketList', websockets',
        calls ++ (socketList.value (keyOf socket)).toList.flatMap closing⟩ := by
    simp only [deleteSocketListStep, isSocket, deleted, removed, ok_bind]
    rfl
  refine ⟨_, completed, rfl, rfl, ⟨sound', flat'⟩, ?_⟩
  intro other
  have closes : ∀ call ∈ (socketList.value (keyOf socket)).toList.flatMap closing,
      call.socket = socket := by
    intro call member
    obtain ⟨socketData, found, inside⟩ := List.mem_flatMap.mp member
    rw [closing_socket call inside]
    exact sound.value (Option.mem_toList.mp found)
  simp only [standing, isSocket, values, sockets, callsOf_append, callsOf_of_all closes]
  by_cases here : socket = other
  · subst here
    simp [Standing.discarded]
  · simp [here, Function.update_of_ne (keyOf_ne here)]

theorem deleteSocketList_spec {deleteSocketList : SocketSet}
    (keyed : KeyedBySocket deleteSocketList) {socketList : SocketList} {websockets : SocketSet}
    (sound : Sound socketList) (flat : Flat websockets) (calls : List KernelCall) :
    ∃ deleteSocketList' args',
      mapList deleteSocketList (socketList, websockets, calls) deleteSocketListCallback =
        .ok (.listContinue, deleteSocketList', args') ∧
      KeyedBySocket deleteSocketList' ∧ Sound args'.1 ∧ Flat args'.2.1 ∧
      (∀ hash, deleteSocketList'.has hash = false) ∧ ∀ socket, standing args' socket =
        if deleteSocketList.has (keyOf socket) then
          (standing (socketList, websockets, calls) socket).discarded
        else standing (socketList, websockets, calls) socket := by
  have each : ∀ entry ∈ deleteSocketList.entries, ∀ args, Sound args.1 ∧ Flat args.2.1 →
      ∃ visit, deleteSocketListStep entry args = .ok visit ∧ visit.stop = false ∧
        visit.kept = [] ∧ (Sound visit.state.1 ∧ Flat visit.state.2.1) ∧
        ∀ other, standing visit.state other =
          if socketOf entry.2.hash = other then (standing args other).discarded
          else standing args other :=
    fun entry _ args good => deleteSocketListStep_spec entry good.1 good.2 args.2.2
  obtain ⟨visit, run, goesOn, keeps, ⟨sound', flat'⟩, seen⟩ :=
    @traverse_pointwise _ _ _ _ deleteSocketListStep _ _ _
      (fun args => Sound args.1 ∧ Flat args.2.1) standing _ (fun _ => [])
      (fun _ => Standing.discarded) _ (sockets_nodup keyed) each
      (socketList, websockets, calls) ⟨sound, flat⟩
  have simulated := mapList_simulates deleteSocketListCallback_implements keyed.inv
    (socketList, websockets, calls)
  rw [run] at simulated
  obtain ⟨deleteSocketList', mapped, _, inv, frame, entries⟩ := simulated
  rw [goesOn] at mapped
  have empty : deleteSocketList'.entries = [] := by
    rw [entries, keeps]
    exact List.flatMap_eq_nil_iff.mpr fun _ _ => rfl
  refine ⟨deleteSocketList', visit.state, mapped,
    ⟨inv, by rw [frame.header, keyed.hashLength]⟩, sound', flat', ?_, ?_⟩
  · intro hash
    have nothing : deleteSocketList'.lookup hash = none := by
      rw [lookup_eq_none_iff, empty]
      exact fun _ member => nomatch member
    rw [HashList.has, nothing]
    rfl
  · intro socket
    rw [seen, findKey_socket keyed, HashList.has]
    cases deleteSocketList.lookup (keyOf socket) with
    | none => rfl
    | some entry => rfl

def timingOut (socketData : SocketData) : List KernelCall :=
  [.send socketData.socket timeoutMessage true] ++ closing socketData

theorem timingOut_socket {socketData : SocketData} : ∀ call ∈ timingOut socketData,
    call.socket = socketData.socket := by
  simp [timingOut, closing, KernelCall.socket]

def Standing.swept (maxTimeAllow : Int) (standing : Standing) : Standing :=
  match standing.socketData with
  | none => standing
  | some socketData =>
      if Expired maxTimeAllow socketData then
        ⟨none, false, standing.calls ++ timingOut socketData⟩
      else standing

def expires (maxTimeAllow : Int) (entry : Entry SocketData) : Bool :=
  entry.2.data.any fun socketData => Expired maxTimeAllow socketData

def timeOut (maxTimeAllow : Int) (entry : Entry SocketData) (standing : Standing) : Standing :=
  if expires maxTimeAllow entry then
    { standing with
      websocket := false
      calls := standing.calls ++ entry.2.data.toList.flatMap timingOut }
  else standing

theorem lookup_filter {list' : HashList α} (linked : Linked list) (linked' : Linked list')
    {keep : Entry α → Bool} (kept : list'.entries = list.entries.filter keep) (hash : Hash) :
    list'.lookup hash = (list.lookup hash).filter keep := by
  apply Option.ext
  intro entry
  rw [lookup_eq_some_iff linked', kept, List.mem_filter, Option.filter_eq_some_iff,
    lookup_eq_some_iff linked]
  exact ⟨fun given => ⟨⟨given.1.1, given.2⟩, given.1.2⟩,
    fun given => ⟨⟨given.1.1, given.2⟩, given.1.2⟩⟩

theorem garbageSocketTimeoutStep_spec {socketList : SocketList} (sound : Sound socketList)
    (maxTimeAllow : Int) {entry : Entry SocketData} (member : entry ∈ socketList.entries)
    {websockets : SocketSet} (flat : Flat websockets) (calls : List KernelCall) :
    ∃ visit, garbageSocketTimeoutStep maxTimeAllow entry (websockets, calls) = .ok visit ∧
      visit.stop = false ∧
      visit.kept = (if expires maxTimeAllow entry then [] else [entry]) ∧
      Flat visit.state.1 ∧ ∀ other, standing (socketList, visit.state) other =
        if socketOf entry.2.hash = other then
          timeOut maxTimeAllow entry (standing (socketList, websockets, calls) other)
        else standing (socketList, websockets, calls) other := by
  obtain ⟨socketData, data, key⟩ := sound.holds _ entry
    ((lookup_eq_some_iff sound.inv.linked).mpr ⟨member, rfl⟩)
  have isSocket : socketOf entry.2.hash = socketData.socket := by rw [← key, socketOf_keyOf]
  have isExpired : expires maxTimeAllow entry = decide (Expired maxTimeAllow socketData) := by
    rw [expires, data]
    rfl
  by_cases expired : Expired maxTimeAllow socketData
  · obtain ⟨websockets', removed, flat', sockets⟩ := deleteWebsocket_spec flat socketData.socket
    have completed : garbageSocketTimeoutStep maxTimeAllow entry (websockets, calls) =
        .ok ⟨false, [], entry.2.data.toList, websockets',
          calls ++ [.send socketData.socket timeoutMessage true] ++ closing socketData⟩ := by
      simp only [garbageSocketTimeoutStep, data, if_pos expired, removed, ok_bind]
      rfl
    refine ⟨_, completed, rfl, ?_, flat', ?_⟩
    · rw [isExpired, if_pos (decide_eq_true expired)]
    · intro other
      simp only [standing, timeOut, isSocket, isExpired, decide_eq_true expired, if_true, sockets,
        data, Option.toList_some, List.flatMap_singleton, List.append_assoc]
      rw [callsOf_append, show [KernelCall.send socketData.socket timeoutMessage true] ++
        closing socketData = timingOut socketData from rfl, callsOf_of_all timingOut_socket]
      by_cases here : socketData.socket = other
      · subst here
        simp
      · simp [here, Function.update_of_ne (keyOf_ne here)]
  · have completed : garbageSocketTimeoutStep maxTimeAllow entry (websockets, calls) =
        .ok ⟨false, [entry], [], websockets, calls⟩ := by
      simp only [garbageSocketTimeoutStep, data, if_neg expired]
      rfl
    have stays : expires maxTimeAllow entry = false := isExpired.trans (decide_eq_false expired)
    refine ⟨_, completed, rfl, ?_, flat, ?_⟩
    · rw [stays]
      rfl
    · intro other
      simp [timeOut, stays]

theorem garbageSocketTimeout_spec {socketList : SocketList} (sound : Sound socketList)
    (maxTimeAllow : Int) {websockets : SocketSet} (flat : Flat websockets)
    (calls : List KernelCall) :
    ∃ socketList' args', mapList socketList (websockets, calls)
        (garbageSocketTimeoutCallback maxTimeAllow) = .ok (.listContinue, socketList', args') ∧
      Sound socketList' ∧ Flat args'.1 ∧ ∀ socket, standing (socketList', args') socket =
        (standing (socketList, websockets, calls) socket).swept maxTimeAllow := by
  have each : ∀ entry ∈ socketList.entries, ∀ args : SocketSet × List KernelCall, Flat args.1 →
      ∃ visit, garbageSocketTimeoutStep maxTimeAllow entry args = .ok visit ∧
        visit.stop = false ∧
        visit.kept = (if expires maxTimeAllow entry then [] else [entry]) ∧ Flat visit.state.1 ∧
        ∀ other, standing (socketList, visit.state) other =
          if socketOf entry.2.hash = other then
            timeOut maxTimeAllow entry (standing (socketList, args) other)
          else standing (socketList, args) other :=
    fun entry member args flat =>
      garbageSocketTimeoutStep_spec sound maxTimeAllow member flat args.2
  obtain ⟨visit, run, goesOn, keeps, flat', seen⟩ :=
    @traverse_pointwise _ _ _ _ (garbageSocketTimeoutStep maxTimeAllow) _ _ _
      (fun args => Flat args.1) (fun args => standing (socketList, args)) _ _
      (timeOut maxTimeAllow) _ (sockets_nodup sound.toKeyedBySocket) each (websockets, calls) flat
  have simulated := mapList_simulates (garbageSocketTimeoutCallback_implements maxTimeAllow)
    sound.inv (websockets, calls)
  rw [run] at simulated
  obtain ⟨socketList', mapped, _, inv, frame, entries⟩ := simulated
  rw [goesOn] at mapped
  have kept : socketList'.entries =
      socketList.entries.filter fun entry => !expires maxTimeAllow entry := by
    rw [entries, keeps]
    induction socketList.entries with
    | nil => rfl
    | cons entry rest ih =>
        rw [List.flatMap_cons, List.filter_cons, ih]
        cases expires maxTimeAllow entry <;> rfl
  have lookups := lookup_filter sound.inv.linked inv.linked kept
  refine ⟨socketList', visit.state, mapped, ⟨⟨inv, by rw [frame.header, sound.hashLength]⟩, ?_⟩,
    flat', ?_⟩
  · intro hash entry found
    rw [lookups] at found
    exact sound.holds hash entry (Option.filter_eq_some_iff.mp found).1
  · intro socket
    have rest := seen socket
    rw [findKey_socket sound.toKeyedBySocket] at rest
    have whole : standing (socketList', visit.state) socket =
        { standing (socketList, visit.state) socket with
          socketData := ((socketList.lookup (keyOf socket)).filter fun entry =>
            !expires maxTimeAllow entry).bind fun entry => entry.2.data } := by
      rw [← lookups]
      rfl
    rw [whole, rest]
    cases found : socketList.lookup (keyOf socket) with
    | none => simp [standing, Standing.swept, HashList.value_eq_bind, found]
    | some entry =>
        obtain ⟨socketData, data, _⟩ := sound.holds _ entry found
        by_cases expired : Expired maxTimeAllow socketData
        · simp [standing, Standing.swept, HashList.value_eq_bind, found, data, timeOut, expires,
            expired]
        · simp [standing, Standing.swept, HashList.value_eq_bind, found, data, timeOut, expires,
            expired, Option.filter_some]

section Broadcast

variable {Degrees : Type} [OfNat Degrees 1000] [DecidableEq Degrees]
  (floatBytes : Degrees → Bytes 4)

theorem locate_ready {geoip : Table Degrees} (ready : Ready geoip) (ip : UInt32) :
    ∃ record, locate geoip ip = .ok record := by
  obtain ⟨found, record, completed, present, _⟩ := ready.finds ip
  refine ⟨record, ?_⟩
  rw [locate, completed, ok_bind, Table.read_eq present]
  rfl

theorem broadcast_spec {websockets : SocketSet} (flat : Flat websockets) {geoip : Table Degrees}
    {ip : In6Addr} {record : Geoip Degrees} (located : locate geoip (ip4Of ip) = .ok record)
    (protocol : UInt8) (calls : List KernelCall) :
    ∃ websockets' calls', broadcast floatBytes websockets geoip ip protocol calls =
        .ok (websockets', calls') ∧ Flat websockets' ∧ websockets'.has = websockets.has ∧
      ∀ socket, callsOf socket calls' = callsOf socket calls ++
        if websockets.has (keyOf socket) then
          [.send socket (frame floatBytes record protocol) false] else [] := by
  have made : (frame floatBytes record protocol).getD 0 0 ≠ 0 := show (130 : UInt8) ≠ 0 by decide
  -- The frame is made at the first websocket and used for the others; before, it begins with zero.
  have each : ∀ entry ∈ websockets.entries, ∀ args : List UInt8 × List KernelCall,
      (args.1.getD 0 0 = 0 ∨ args.1 = frame floatBytes record protocol) →
      ∃ visit, broadcastStep floatBytes geoip ip protocol entry args = .ok visit ∧
        visit.stop = false ∧ visit.kept = [entry] ∧
        (visit.state.1.getD 0 0 = 0 ∨ visit.state.1 = frame floatBytes record protocol) ∧
        ∀ other, callsOf other visit.state.2 = if socketOf entry.2.hash = other then
          callsOf other args.2 ++
            [.send (socketOf entry.2.hash) (frame floatBytes record protocol) false]
          else callsOf other args.2 := by
    intro entry member args data
    have completed : broadcastStep floatBytes geoip ip protocol entry args =
        .ok ⟨false, [entry], [], frame floatBytes record protocol, args.2 ++
          [.send (socketOf entry.2.hash) (frame floatBytes record protocol) false]⟩ := by
      rcases data with unmade | same
      · simp only [broadcastStep, if_pos unmade, located, ok_bind]
        rfl
      · simp only [broadcastStep, same, if_neg made]
        rfl
    refine ⟨_, completed, rfl, rfl, .inr rfl, ?_⟩
    intro other
    have sent : ∀ call ∈
        [KernelCall.send (socketOf entry.2.hash) (frame floatBytes record protocol) false],
        call.socket = socketOf entry.2.hash := by
      simp [KernelCall.socket]
    rw [callsOf_append, callsOf_of_all sent]
    split_ifs
    · rfl
    · exact List.append_nil _
  obtain ⟨visit, run, goesOn, keeps, _, seen⟩ :=
    @traverse_pointwise _ _ _ _ (broadcastStep floatBytes geoip ip protocol) _ _ _
      (fun args => args.1.getD 0 0 = 0 ∨ args.1 = frame floatBytes record protocol)
      (fun args socket => callsOf socket args.2) _ (fun entry => [entry])
      (fun entry calls => calls ++
        [.send (socketOf entry.2.hash) (frame floatBytes record protocol) false])
      _ (sockets_nodup flat.toKeyedBySocket) each
      (List.replicate websocketSizeFrame 0, calls) (.inl rfl)
  have simulated := mapList_simulates (broadcastCallback_implements floatBytes geoip ip protocol)
    flat.inv (List.replicate websocketSizeFrame 0, calls)
  rw [run] at simulated
  obtain ⟨websockets', mapped, _, inv, frame', entries⟩ := simulated
  have same : websockets'.entries = websockets.entries := by
    rw [entries, keeps, List.flatMap_singleton']
  have lookups : websockets'.lookup = websockets.lookup := by
    rw [lookup_eq_findKey, lookup_eq_findKey, same]
  refine ⟨websockets', visit.state.2, ?_, flat.of_header inv frame'.header, ?_, ?_⟩
  · simp only [broadcast, mapped, ok_bind]
    rfl
  · funext hash
    rw [HashList.has, HashList.has, lookups]
  · intro socket
    rw [seen, findKey_socket flat.toKeyedBySocket, HashList.has]
    cases found : websockets.lookup (keyOf socket) with
    | none => exact (List.append_nil _).symm
    | some entry =>
        have isSocket : socketOf entry.2.hash = socket := by
          rw [(lookup_mem found).2, socketOf_keyOf]
        rw [Option.elim_some, isSocket]
        rfl

end Broadcast

end Traversed

end SocketLists

end Etracker
