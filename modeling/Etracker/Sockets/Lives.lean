import Etracker.Sockets.Standing
import Mathlib.Algebra.BigOperators.Group.Finset.Piecewise

/-! Each socket lives its own life: what the lists and the kernel make of it follows from what
was done about it, whatever was done about the others in between. -/

namespace Etracker.SocketLists

open Foundation Foundation.CString Foundation.Outcome Etracker.Locations

/-- What there is of one socket. -/
@[ext] structure Life (Worker : Type) where
  socketData : Worker → Option SocketData
  deleting : Worker → Bool
  websocket : Bool
  calls : List KernelCall

namespace Life

variable {Worker : Type}

def start : Life Worker := ⟨fun _ => none, fun _ => false, false, []⟩

def standing (life : Life Worker) (worker : Worker) : Standing :=
  ⟨life.socketData worker, life.websocket, life.calls⟩

variable [DecidableEq Worker]

def stand (life : Life Worker) (worker : Worker) (standing : Standing) : Life Worker where
  socketData := Function.update life.socketData worker standing.socketData
  deleting := life.deleting
  websocket := standing.websocket
  calls := standing.calls

@[simp] theorem stand_standing (life : Life Worker) (worker : Worker) :
    life.stand worker (life.standing worker) = life := by
  simp [stand, standing]

variable {Degrees : Type} [OfNat Degrees 1000] [DecidableEq Degrees]
  (floatBytes : Degrees → Bytes 4)

def step (socket : UInt32) (life : Life Worker) : Work Worker Degrees → Life Worker
  | .update worker other equeue _ now =>
      if other = socket then
        { life with
          socketData := Function.update life.socketData worker (some ⟨socket, equeue, now⟩) }
      else life
  | .discard worker other =>
      if other = socket then
        { life with deleting := Function.update life.deleting worker true }
      else life
  | .flush worker =>
      if life.deleting worker then
        { life.stand worker (life.standing worker).discarded with
          deleting := Function.update life.deleting worker false }
      else life
  | .upgrade other => if other = socket then { life with websocket := true } else life
  | .sweep worker maxTimeAllow => life.stand worker ((life.standing worker).swept maxTimeAllow)
  | .broadcast geoip ip protocol =>
      if life.websocket then
        match locate geoip (ip4Of ip) with
        | .ok record =>
            { life with
              calls := life.calls ++ [.send socket (frame floatBytes record protocol) false] }
        | .error _ => life
      else life

end Life

section Lives

variable {Worker Degrees : Type}

def Connections.life (connections : Connections Worker) (socket : UInt32) : Life Worker where
  socketData worker := (connections.socketLists worker).value (keyOf socket)
  deleting worker := (connections.deleteSocketLists worker).has (keyOf socket)
  websocket := connections.websockets.has (keyOf socket)
  calls := callsOf socket connections.calls

/-- The lists of the process are in order. -/
structure Connections.Sound (connections : Connections Worker) : Prop where
  socketLists : ∀ worker, SocketLists.Sound (connections.socketLists worker)
  deleteSocketLists : ∀ worker, KeyedBySocket (connections.deleteSocketLists worker)
  websockets : Flat connections.websockets

theorem newList_keyed {α : Type} {header : ListHeader} (level : header.level ≤ 1)
    (hashLength : header.hashLength = 4)
    (leaf : header.semaphoreEnabled.global = true → header.semaphoreEnabled.leaf = true) :
    KeyedBySocket (header.newList : HashList α) := by
  refine ⟨newList_inv header ?_ ?_ leaf, hashLength⟩
  · exact Nat.le_trans level (by decide)
  · rw [hashLength]
    omega

theorem newList_lookup {α : Type} (header : ListHeader) (hash : Hash) :
    (header.newList : HashList α).lookup hash = none := by
  rw [lookup_eq_none_iff]
  simp

theorem Connections.start_sound : (Connections.start Worker).Sound where
  socketLists _ := by
    refine ⟨newList_keyed (Nat.le_refl 1) rfl fun _ => rfl, ?_⟩
    intro hash entry found
    rw [Connections.start, newList_lookup] at found
    cases found
  deleteSocketLists _ := newList_keyed (Nat.zero_le 1) rfl fun _ => by contradiction
  websockets := ⟨newList_keyed (Nat.zero_le 1) rfl fun _ => rfl, rfl⟩

theorem Connections.start_life (socket : UInt32) :
    (Connections.start Worker).life socket = Life.start := by
  simp [Connections.life, Connections.start, Life.start, HashList.value_eq_bind, HashList.has,
    newList_lookup, callsOf]

variable [DecidableEq Worker] [OfNat Degrees 1000] [DecidableEq Degrees]
  (floatBytes : Degrees → Bytes 4) {connections : Connections Worker}

def Work.Located : Work Worker Degrees → Prop
  | .broadcast geoip _ _ => Ready geoip
  | _ => True

theorem Connections.Sound.stand (sound : connections.Sound) {worker : Worker}
    {socketList : SocketList} {websockets : SocketSet} {calls : List KernelCall}
    (sound' : SocketLists.Sound socketList) (flat : Flat websockets) :
    Connections.Sound { connections with
      socketLists := Function.update connections.socketLists worker socketList
      websockets := websockets
      calls := calls } := by
  refine ⟨?_, sound.deleteSocketLists, flat⟩
  intro other
  by_cases here : other = worker
  · subst here
    simpa using sound'
  · simpa [here] using sound.socketLists other

theorem Connections.life_stand {worker : Worker} {socketList : SocketList}
    {websockets : SocketSet} {calls : List KernelCall} {socket : UInt32} :
    Connections.life { connections with
        socketLists := Function.update connections.socketLists worker socketList
        websockets := websockets
        calls := calls } socket =
      (connections.life socket).stand worker
        (SocketLists.standing (socketList, websockets, calls) socket) := by
  ext other : 2
  · by_cases here : other = worker
    · subst here
      simp [Connections.life, Life.stand, SocketLists.standing]
    · simp [Connections.life, Life.stand, here]
  · rfl
  · rfl
  · rfl

theorem Connections.Sound.noted (sound : connections.Sound) {worker : Worker}
    {deleteSocketList : SocketSet} (keyed : KeyedBySocket deleteSocketList) :
    Connections.Sound { connections with
      deleteSocketLists := Function.update connections.deleteSocketLists worker
        deleteSocketList } := by
  refine ⟨sound.socketLists, ?_, sound.websockets⟩
  intro other
  by_cases here : other = worker
  · subst here
    simpa using keyed
  · simpa [here] using sound.deleteSocketLists other

theorem Connections.life_noted {worker : Worker} {deleteSocketList : SocketSet}
    {socket : UInt32} :
    Connections.life { connections with
        deleteSocketLists := Function.update connections.deleteSocketLists worker
          deleteSocketList } socket =
      { connections.life socket with
        deleting := Function.update (connections.life socket).deleting worker
          (deleteSocketList.has (keyOf socket)) } := by
  ext other : 2
  · rfl
  · by_cases here : other = worker
    · subst here
      simp [Connections.life]
    · simp [Connections.life, here]
  · rfl
  · rfl

def Work.Lived (connections : Connections Worker) (work : Work Worker Degrees) : Prop :=
  ∃ connections', work.perform floatBytes connections = .ok connections' ∧ connections'.Sound ∧
    ∀ socket, connections'.life socket = (connections.life socket).step floatBytes socket work

theorem update_lives (sound : connections.Sound) (worker : Worker) (socket : UInt32)
    (equeue : UInt32) (useSemaphore : Bool) (now : Int) :
    Work.Lived floatBytes connections
      (.update worker socket equeue useSemaphore now : Work Worker Degrees) := by
  obtain ⟨socketList, updated, sound', values⟩ :=
    updateSocketL_spec (sound.socketLists worker) socket equeue useSemaphore now
  refine ⟨_, by simp only [Work.perform, updated, ok_bind]; rfl,
    sound.stand sound' sound.websockets, ?_⟩
  intro other
  refine Connections.life_stand.trans ?_
  by_cases here : socket = other
  · subst here
    simp [Life.step, Life.stand, SocketLists.standing, values, Connections.life]
  · have apart := keyOf_ne here
    have unchanged : SocketLists.standing
        (socketList, connections.websockets, connections.calls) other =
        (connections.life other).standing worker := by
      simp [SocketLists.standing, values, Function.update_of_ne apart, Life.standing,
        Connections.life]
    rw [unchanged, Life.stand_standing, Life.step, if_neg here]

theorem discard_lives (sound : connections.Sound) (worker : Worker) (socket : UInt32) :
    Work.Lived floatBytes connections (.discard worker socket : Work Worker Degrees) := by
  have keyed := sound.deleteSocketLists worker
  obtain ⟨deleteSocketList, entry, inserted, linked, frame, _, _, lookup⟩ :=
    setHash_lookup keyed.inv.linked ((keyOf_length socket).trans keyed.hashLength.symm)
  have keyed' : KeyedBySocket deleteSocketList :=
    ⟨keyed.inv.of_frame frame linked, by rw [frame.header, keyed.hashLength]⟩
  have completed : (Work.discard worker socket).perform floatBytes connections =
      .ok { connections with
        deleteSocketLists := Function.update connections.deleteSocketLists worker
          deleteSocketList } := by
    simp only [Work.perform, inserted, ok_bind]
    rfl
  refine ⟨_, completed, sound.noted keyed', ?_⟩
  intro other
  rw [Connections.life_noted, HashList.has_update lookup]
  by_cases here : socket = other
  · subst here
    simp [Life.step]
  · rw [Function.update_of_ne (keyOf_ne here), Life.step, if_neg here]
    simp [Connections.life]

theorem flush_lives (sound : connections.Sound) (worker : Worker) :
    Work.Lived floatBytes connections (.flush worker : Work Worker Degrees) := by
  obtain ⟨deleteSocketList, ⟨socketList, websockets, calls⟩, mapped, keyed, sound', flat, empty,
    stands⟩ := deleteSocketList_spec (sound.deleteSocketLists worker) (sound.socketLists worker)
      sound.websockets connections.calls
  have completed : (Work.flush worker).perform floatBytes connections = .ok
      ⟨Function.update connections.socketLists worker socketList,
        Function.update connections.deleteSocketLists worker deleteSocketList, websockets,
        calls⟩ := by
    simp only [Work.perform, mapped, ok_bind]
    rfl
  refine ⟨_, completed, (sound.stand sound' flat).noted keyed, ?_⟩
  intro other
  refine (@Connections.life_noted Worker _ { connections with
    socketLists := Function.update connections.socketLists worker socketList
    websockets := websockets
    calls := calls } worker deleteSocketList other).trans ?_
  rw [Connections.life_stand, stands, empty, Life.step]
  by_cases noted : (connections.deleteSocketLists worker).has (keyOf other) = true
  · rw [if_pos noted, if_pos (show (connections.life other).deleting worker = true from noted)]
    rfl
  · have unnoted : (connections.life other).deleting worker = false :=
      Bool.eq_false_iff.mpr noted
    have same : SocketLists.standing (connections.socketLists worker, connections.websockets,
        connections.calls) other = (connections.life other).standing worker := rfl
    rw [if_neg noted, if_neg (Bool.eq_false_iff.mp unnoted), same, Life.stand_standing,
      ← unnoted, Function.update_eq_self]

theorem upgrade_lives (sound : connections.Sound) (socket : UInt32) :
    Work.Lived floatBytes connections (.upgrade socket : Work Worker Degrees) := by
  obtain ⟨websockets, inserted, flat, sockets⟩ := setWebsocket_spec sound.websockets socket
  have completed : (Work.upgrade socket).perform floatBytes connections =
      .ok { connections with websockets := websockets } := by
    simp only [Work.perform, inserted, ok_bind]
    rfl
  refine ⟨_, completed, ⟨sound.socketLists, sound.deleteSocketLists, flat⟩, ?_⟩
  intro other
  by_cases here : socket = other
  · subst here
    simp [Connections.life, sockets, Life.step]
  · simp [Connections.life, sockets, Life.step, here, Function.update_of_ne (keyOf_ne here)]

theorem sweep_lives (sound : connections.Sound) (worker : Worker) (maxTimeAllow : Int) :
    Work.Lived floatBytes connections (.sweep worker maxTimeAllow : Work Worker Degrees) := by
  obtain ⟨socketList, ⟨websockets, calls⟩, mapped, sound', flat, stands⟩ :=
    garbageSocketTimeout_spec (sound.socketLists worker) maxTimeAllow sound.websockets
      connections.calls
  refine ⟨_, by simp only [Work.perform, mapped, ok_bind]; rfl, sound.stand sound' flat, ?_⟩
  intro other
  refine Connections.life_stand.trans ?_
  rw [stands, Life.step]
  rfl

theorem broadcast_lives (sound : connections.Sound) {geoip : Table Degrees} (ready : Ready geoip)
    (ip : In6Addr) (protocol : UInt8) :
    Work.Lived floatBytes connections (.broadcast geoip ip protocol : Work Worker Degrees) := by
  obtain ⟨record, found⟩ := locate_ready ready (ip4Of ip)
  obtain ⟨websockets, calls, sent, flat, same, callsOf⟩ :=
    broadcast_spec floatBytes sound.websockets found protocol connections.calls
  have completed : (Work.broadcast geoip ip protocol).perform floatBytes connections =
      .ok { connections with websockets := websockets, calls := calls } := by
    simp only [Work.perform, sent, ok_bind]
    rfl
  refine ⟨_, completed, ⟨sound.socketLists, sound.deleteSocketLists, flat⟩, ?_⟩
  intro other
  simp only [Connections.life, same, callsOf, Life.step, found]
  split_ifs
  · rfl
  · rw [List.append_nil]

theorem perform_lives (sound : connections.Sound) {work : Work Worker Degrees}
    (located : work.Located) : work.Lived floatBytes connections := by
  cases work with
  | update worker socket equeue useSemaphore now =>
      exact update_lives floatBytes sound worker socket equeue useSemaphore now
  | discard worker socket => exact discard_lives floatBytes sound worker socket
  | flush worker => exact flush_lives floatBytes sound worker
  | upgrade socket => exact upgrade_lives floatBytes sound socket
  | sweep worker maxTimeAllow => exact sweep_lives floatBytes sound worker maxTimeAllow
  | broadcast geoip ip protocol => exact broadcast_lives floatBytes sound located ip protocol

theorem performAll_lives (sound : connections.Sound) {works : List (Work Worker Degrees)}
    (located : ∀ work ∈ works, work.Located) :
    ∃ connections', performAll floatBytes connections works = .ok connections' ∧
      connections'.Sound ∧ ∀ socket, connections'.life socket =
        works.foldl (Life.step floatBytes socket) (connections.life socket) := by
  induction works generalizing connections with
  | nil => exact ⟨connections, rfl, sound, fun _ => rfl⟩
  | cons work rest ih =>
      obtain ⟨middle, performed, sound', lives⟩ :=
        perform_lives floatBytes sound (located work List.mem_cons_self)
      obtain ⟨final, performed', sound'', lives'⟩ :=
        ih sound' fun other member => located other (List.mem_cons_of_mem _ member)
      refine ⟨final, by rw [performAll, performed, ok_bind, performed'], sound'', ?_⟩
      intro socket
      rw [lives', lives, List.foldl_cons]

/-- Whatever the threads do to the lists succeeds, and each socket lives as if there were no
other: what the lists hold of it and what the kernel is asked about it, and in which order,
follows from what was done about it. -/
theorem sockets_live (Worker : Type) [DecidableEq Worker] {works : List (Work Worker Degrees)}
    (located : ∀ geoip ip protocol, .broadcast geoip ip protocol ∈ works → Ready geoip) :
    ∃ connections, performAll floatBytes (.start Worker) works = .ok connections ∧
      ∀ socket, connections.life socket = works.foldl (Life.step floatBytes socket) .start := by
  have located' : ∀ work ∈ works, work.Located := by
    intro work member
    cases work with
    | broadcast geoip ip protocol => exact located geoip ip protocol member
    | _ => exact trivial
  obtain ⟨connections, performed, _, lives⟩ :=
    performAll_lives floatBytes Connections.start_sound located'
  refine ⟨connections, performed, ?_⟩
  intro socket
  rw [lives, Connections.start_life]

section Expired

def expiring : List (Work Unit Int) :=
  [.update () 5 1 true 10, .upgrade 5, .broadcast (initGeoip true) ⟨List.replicate 16 0, rfl⟩ 6,
    .sweep () 20]

theorem expiring_ready : ∀ geoip ip protocol,
    Work.broadcast geoip ip protocol ∈ expiring → Ready geoip := by
  intro geoip ip protocol member
  simp only [expiring, List.mem_cons, reduceCtorEq, false_or, or_false, List.not_mem_nil,
    Work.broadcast.injEq] at member
  rw [member.1]
  exact @Ready.unloaded Int _ _ ⟨0, 0, 0, 0⟩ rfl rfl

theorem sockets_live_expired :
    ∃ connections, performAll (fun _ => ⟨[0, 0, 0, 0], rfl⟩) (.start Unit) expiring =
        .ok connections ∧
      (connections.life 5).calls = [.send 5 [130, 9, 0, 0, 0, 0, 0, 0, 0, 0, 6] false,
        .send 5 timeoutMessage true, .deleteClientEqueue 1 5, .close 5] := by
  obtain ⟨connections, performed, lives⟩ :=
    sockets_live (fun _ => ⟨[0, 0, 0, 0], rfl⟩) Unit expiring_ready
  refine ⟨connections, performed, ?_⟩
  rw [lives]
  rfl

end Expired

section Closed

variable [Fintype Worker]

def Life.holders (life : Life Worker) : Nat := ∑ worker, (life.socketData worker).toList.length

def Life.closes (life : Life Worker) (socket : UInt32) : Nat := life.calls.count (.close socket)

def Life.opened (socket : UInt32) (life : Life Worker) : Work Worker Degrees → Nat
  | .update worker other _ _ _ => if other = socket ∧ life.socketData worker = none then 1 else 0
  | _ => 0

def Life.openings (socket : UInt32) (life : Life Worker) : List (Work Worker Degrees) → Nat
  | [] => 0
  | work :: rest =>
      life.opened socket work + (life.step floatBytes socket work).openings socket rest

theorem holders_update (socketData : Worker → Option SocketData) (worker : Worker)
    (value : Option SocketData) :
    (∑ other, (Function.update socketData worker value other).toList.length) +
        (socketData worker).toList.length =
      (∑ other, (socketData other).toList.length) + value.toList.length := by
  have member : worker ∈ Finset.univ := Finset.mem_univ worker
  rw [← Finset.add_sum_erase _ _ member, ← Finset.add_sum_erase _ _ member,
    Function.update_self]
  have others : ∑ other ∈ Finset.univ.erase worker,
      (Function.update socketData worker value other).toList.length =
      ∑ other ∈ Finset.univ.erase worker, (socketData other).toList.length := by
    refine Finset.sum_congr rfl ?_
    intro other inside
    rw [Function.update_of_ne (Finset.ne_of_mem_erase inside)]
  omega

theorem count_closing {socket : UInt32} {socketData : SocketData}
    (same : socketData.socket = socket) : (closing socketData).count (.close socket) = 1 := by
  subst same
  simp [closing]

theorem count_timingOut {socket : UInt32} {socketData : SocketData}
    (same : socketData.socket = socket) : (timingOut socketData).count (.close socket) = 1 := by
  rw [timingOut, List.count_append, count_closing same]
  rfl

def Life.Owned (socket : UInt32) (life : Life Worker) : Prop :=
  ∀ worker socketData, life.socketData worker = some socketData → socketData.socket = socket

omit [Fintype Worker] in
theorem Life.Owned.update {socket : UInt32} {life : Life Worker} (owned : life.Owned socket)
    {worker : Worker} {value : Option SocketData}
    (same : ∀ socketData, value = some socketData → socketData.socket = socket) :
    ∀ other socketData, Function.update life.socketData worker value other = some socketData →
      socketData.socket = socket := by
  intro other socketData found
  by_cases here : other = worker
  · rw [here, Function.update_self] at found
    exact same socketData found
  · rw [Function.update_of_ne here] at found
    exact owned other socketData found

omit [DecidableEq Worker] [Fintype Worker] in
theorem nothing_same (socket : UInt32) : ∀ socketData : SocketData, none = some socketData →
    socketData.socket = socket :=
  fun _ same => nomatch same

theorem stand_balance {socket : UInt32} {life : Life Worker} (owned : life.Owned socket)
    (worker : Worker) {told : SocketData → List KernelCall}
    (once : ∀ socketData, socketData.socket = socket →
      (told socketData).count (.close socket) = 1) :
    (life.stand worker ⟨none, false,
        life.calls ++ (life.socketData worker).toList.flatMap told⟩).closes socket +
      (life.stand worker ⟨none, false,
        life.calls ++ (life.socketData worker).toList.flatMap told⟩).holders =
      life.closes socket + life.holders := by
  have held := holders_update life.socketData worker none
  have told' : ((life.socketData worker).toList.flatMap told).count (.close socket) =
      (life.socketData worker).toList.length := by
    cases found : life.socketData worker with
    | none => rfl
    | some socketData => simp [once socketData (owned worker socketData found)]
  simp only [Life.closes, Life.holders, Life.stand, List.count_append, told',
    Option.toList_none, List.length_nil] at held ⊢
  omega

/-- What a worker takes it closes, or still has. -/
theorem step_balance {socket : UInt32} {life : Life Worker} (owned : life.Owned socket)
    (work : Work Worker Degrees) :
    (life.step floatBytes socket work).Owned socket ∧
      (life.step floatBytes socket work).closes socket +
          (life.step floatBytes socket work).holders =
        life.closes socket + life.holders + life.opened socket work := by
  cases work with
  | update worker other equeue useSemaphore now =>
      by_cases here : other = socket
      · have held := holders_update life.socketData worker (some ⟨socket, equeue, now⟩)
        rw [Life.step, if_pos here]
        refine ⟨owned.update fun _ same => by cases same; rfl, ?_⟩
        simp only [Life.closes, Life.holders, Life.opened, here, true_and] at held ⊢
        cases found : life.socketData worker with
        | none =>
            rw [found, Option.toList_none, List.length_nil, Nat.add_zero] at held
            rw [if_pos rfl, held]
            rfl
        | some socketData =>
            rw [found, Option.toList_some, Option.toList_some, List.length_singleton,
              List.length_singleton] at held
            rw [if_neg (Option.some_ne_none _), Nat.add_right_cancel held]
            rfl
      · rw [Life.step, if_neg here]
        exact ⟨owned, by simp [Life.opened, here]⟩
  | discard worker other =>
      rw [Life.step]
      split_ifs
      · exact ⟨owned, rfl⟩
      · exact ⟨owned, rfl⟩
  | flush worker =>
      rw [Life.step]
      split_ifs
      · refine ⟨owned.update (nothing_same socket), ?_⟩
        exact stand_balance owned worker fun socketData same => count_closing same
      · exact ⟨owned, rfl⟩
  | upgrade other =>
      rw [Life.step]
      split_ifs
      · exact ⟨owned, rfl⟩
      · exact ⟨owned, rfl⟩
  | sweep worker maxTimeAllow =>
      rw [Life.step, Standing.swept]
      have isData : (life.standing worker).socketData = life.socketData worker := rfl
      cases found : life.socketData worker with
      | none =>
          simp only [isData, found, Life.stand_standing]
          exact ⟨owned, rfl⟩
      | some socketData =>
          simp only [isData, found]
          split_ifs
          · refine ⟨owned.update (nothing_same socket), ?_⟩
            have balance := stand_balance owned worker fun _ same => count_timingOut same
            rw [found, Option.toList_some, List.flatMap_singleton] at balance
            exact balance
          · rw [Life.stand_standing]
            exact ⟨owned, rfl⟩
  | broadcast geoip ip protocol =>
      rw [Life.step]
      split_ifs
      · cases located : locate geoip (ip4Of ip) with
        | error fault => exact ⟨owned, rfl⟩
        | ok record =>
            refine ⟨owned, ?_⟩
            simp [Life.closes, Life.holders, Life.opened]
      · exact ⟨owned, rfl⟩

theorem foldl_balance {socket : UInt32} {life : Life Worker} (owned : life.Owned socket)
    (works : List (Work Worker Degrees)) :
    (works.foldl (Life.step floatBytes socket) life).closes socket +
        (works.foldl (Life.step floatBytes socket) life).holders =
      life.closes socket + life.holders + life.openings floatBytes socket works := by
  induction works generalizing life with
  | nil => rfl
  | cons work rest ih =>
      obtain ⟨owned', balance⟩ := step_balance floatBytes owned work
      rw [List.foldl_cons, ih owned', balance, Life.openings]
      omega

/-- No socket is closed twice, and none is lost: as often as a worker has taken it, it was
closed, or a worker still has it. -/
theorem sockets_closed (Worker : Type) [DecidableEq Worker] [Fintype Worker]
    {works : List (Work Worker Degrees)}
    (located : ∀ geoip ip protocol, .broadcast geoip ip protocol ∈ works → Ready geoip) :
    ∃ connections, performAll floatBytes (.start Worker) works = .ok connections ∧
      ∀ socket, connections.calls.count (.close socket) +
          (Finset.univ.filter fun worker =>
            ((connections.socketLists worker).value (keyOf socket)).isSome).card =
        (Life.start : Life Worker).openings floatBytes socket works := by
  have located' : ∀ work ∈ works, work.Located := by
    intro work member
    cases work with
    | broadcast geoip ip protocol => exact located geoip ip protocol member
    | _ => exact trivial
  obtain ⟨connections, performed, _, lives⟩ :=
    performAll_lives floatBytes Connections.start_sound located'
  refine ⟨connections, performed, ?_⟩
  intro socket
  have owned : (Life.start : Life Worker).Owned socket := fun _ _ found => nomatch found
  have balance := foldl_balance floatBytes owned works
  rw [← Connections.start_life socket, ← lives socket, Connections.start_life socket] at balance
  have closes : (connections.life socket).closes socket =
      connections.calls.count (.close socket) := by
    rw [Life.closes, Connections.life, callsOf, List.count_filter]
    exact decide_eq_true rfl
  have holders : (connections.life socket).holders =
      (Finset.univ.filter fun worker =>
        ((connections.socketLists worker).value (keyOf socket)).isSome).card := by
    rw [Life.holders, Finset.card_filter]
    refine Finset.sum_congr rfl ?_
    intro worker _
    have isData : (connections.life socket).socketData worker =
        (connections.socketLists worker).value (keyOf socket) := rfl
    rw [isData]
    cases (connections.socketLists worker).value (keyOf socket) with
    | none => rfl
    | some socketData => rfl
  have nothing :
      (Life.start : Life Worker).closes socket + (Life.start : Life Worker).holders = 0 := by
    simp [Life.start, Life.closes, Life.holders]
  rw [closes, holders, nothing, Nat.zero_add] at balance
  exact balance

theorem sockets_closed_expired :
    ∃ connections, performAll (fun _ => ⟨[0, 0, 0, 0], rfl⟩) (.start Unit) expiring =
        .ok connections ∧
      connections.calls.count (.close 5) +
        (Finset.univ.filter fun worker =>
          ((connections.socketLists worker).value (keyOf 5)).isSome).card = 1 := by
  obtain ⟨connections, performed, balance⟩ :=
    sockets_closed (fun _ => ⟨[0, 0, 0, 0], rfl⟩) Unit expiring_ready
  exact ⟨connections, performed, balance 5⟩

end Closed

end Lives

end Etracker.SocketLists
