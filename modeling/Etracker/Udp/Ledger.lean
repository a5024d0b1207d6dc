import Etracker.Udp.Queue
import Mathlib.Algebra.BigOperators.Group.Finset.Piecewise

namespace Etracker

open Foundation Foundation.Runs

variable {workers : Nat}

/-- A worker blocks in time: no request has been queued since it pulled NULL, or the
request is still to be signalled, or another worker is not blocked. -/
def WaitsInTime (turn : UdpTurn workers) (threads : UdpThreads workers) : Prop :=
  ∀ number, turn = .wait number → threads.requests = [] ∨ threads.listener = .signals ∨
    ∃ other, other ≠ number ∧ threads.worker other ≠ .blocked

namespace UdpThreads

theorem not_blocked_of_move {threads : UdpThreads workers} {number : Fin workers}
    {worker : UdpWorker} (awake : worker ≠ .blocked) :
    ¬∀ other, (threads.move number worker).worker other = .blocked := by
  intro blocked
  have same := blocked number
  rw [move_worker, Function.update_self] at same
  exact awake same

theorem pulled_ne_blocked (udpRequest : Option UdpRequest) :
    UdpWorker.pulled udpRequest ≠ .blocked := by
  cases udpRequest <;> simp [UdpWorker.pulled]

/-- No step leads into a stall but a wait that comes too late. -/
theorem not_stalled_of_step (positive : 0 < workers) {turn : UdpTurn workers}
    {before after : UdpThreads workers} (taken : UdpStep turn before after)
    (inTime : WaitsInTime turn before) : ¬after.Stalled := by
  intro stalled
  cases taken with
  | enqueue _ _ _ => exact nomatch stalled.receives
  | signal _ _ => exact not_blocked_of_move (by simp) stalled.blocked
  | unheard _ awake => exact awake ⟨0, positive⟩ (stalled.blocked ⟨0, positive⟩)
  | pull _ => exact not_blocked_of_move (pulled_ne_blocked _) stalled.blocked
  | serve _ => exact not_blocked_of_move (by simp) stalled.blocked
  | wait _ =>
      rename_i number _
      rcases inTime number rfl with empty | signals | ⟨other, differs, awake⟩
      · exact stalled.queued empty
      · exact nomatch signals.symm.trans stalled.receives
      · apply awake
        have blocked := stalled.blocked other
        rwa [move_worker, Function.update_of_ne differs] at blocked
  | wake _ => exact not_blocked_of_move (by simp) stalled.blocked

end UdpThreads

def UdpWorker.held : UdpWorker → List UdpRequest
  | .serves udpRequest => [udpRequest]
  | _ => []

namespace UdpThreads

variable (threads : UdpThreads workers)

def queuedIn : UdpTurn workers → List UdpRequest
  | .enqueue clientAddr receivedMessage =>
      [⟨receivedMessage, clientAddr, (threads.receiveCount + 1).toUInt32⟩]
  | _ => []

def pulledIn : UdpTurn workers → List UdpRequest
  | .pull _ => (pullUdpRequest threads.requests).1.toList
  | _ => []

def handledIn : UdpTurn workers → List UdpRequest
  | .serve number => (threads.worker number).held
  | _ => []

def held : Multiset UdpRequest := ∑ number, ((threads.worker number).held : Multiset UdpRequest)

end UdpThreads

/-- The threads, and the requests that have been queued, pulled and handled, in their order. -/
structure UdpLedger (workers : Nat) where
  threads : UdpThreads workers
  received : List UdpRequest
  pulled : List UdpRequest
  handled : List UdpRequest

namespace UdpLedger

def start (workers : Nat) : UdpLedger workers := ⟨.start workers, [], [], []⟩

def record (ledger : UdpLedger workers) (turn : UdpTurn workers) (threads : UdpThreads workers) :
    UdpLedger workers where
  threads := threads
  received := ledger.received ++ ledger.threads.queuedIn turn
  pulled := ledger.pulled ++ ledger.threads.pulledIn turn
  handled := ledger.handled ++ ledger.threads.handledIn turn

inductive Step (turn : UdpTurn workers) (ledger : UdpLedger workers) : UdpLedger workers → Prop
  | taken {threads : UdpThreads workers} : UdpStep turn ledger.threads threads →
      Step turn ledger (ledger.record turn threads)

/-- The requests are pulled in the order in which they were received, numbered from one on, and
each of them is handled once or is still with a worker. Each has been received whole. -/
structure Conserved (ledger : UdpLedger workers) : Prop where
  order : ledger.received = ledger.pulled ++ ledger.threads.requests
  once : (ledger.pulled : Multiset UdpRequest) = ledger.handled + ledger.threads.held
  counted : ledger.threads.receiveCount = UInt64.ofNat ledger.received.length
  numbered : ledger.received.map UdpRequest.receiveCount =
    (List.range ledger.received.length).map fun number => UInt32.ofNat (number + 1)
  whole : ∀ udpRequest ∈ ledger.received, udpRequest.block ≠ [] ∧
    udpRequest.block.length ≤ socketUdpReceivedUdpMessageLength

end UdpLedger

theorem UdpWorker.pulled_held (udpRequest : Option UdpRequest) :
    (UdpWorker.pulled udpRequest).held = udpRequest.toList := by
  cases udpRequest with
  | none | some => rfl

namespace UdpThreads

variable {threads : UdpThreads workers} {number : Fin workers} {worker : UdpWorker}

theorem held_move :
    (threads.move number worker).held + ((threads.worker number).held : Multiset UdpRequest) =
      threads.held + (worker.held : Multiset UdpRequest) := by
  have moved : ∀ other, (((threads.move number worker).worker other).held : Multiset UdpRequest) =
      Function.update (fun other => ((threads.worker other).held : Multiset UdpRequest)) number
        worker.held other := by
    intro other
    by_cases same : other = number
    · rw [same, move_worker, Function.update_self, Function.update_self]
    · rw [move_worker, Function.update_of_ne same, Function.update_of_ne same]
  have apart := Finset.sum_update_of_mem (Finset.mem_univ number)
    (fun other => ((threads.worker other).held : Multiset UdpRequest)) worker.held
  have before := Finset.sum_update_of_mem (Finset.mem_univ number)
    (fun other => ((threads.worker other).held : Multiset UdpRequest)) (threads.worker number).held
  rw [Function.update_eq_self] at before
  rw [held, held, Finset.sum_congr rfl fun other _ => moved other, apart, before]
  ac_rfl

theorem held_move_same (same : worker.held = (threads.worker number).held) :
    (threads.move number worker).held = threads.held := by
  have moved := @held_move _ threads number worker
  rw [same] at moved
  exact add_right_cancel moved

end UdpThreads

namespace UdpLedger

variable {ledger : UdpLedger workers}

theorem start_conserved : (start workers).Conserved where
  order := rfl
  once := by
    have idle : (UdpThreads.start workers).held = 0 := Finset.sum_const_zero
    rw [start, idle]
    rfl
  counted := rfl
  numbered := rfl
  whole := fun _ absurdity => absurd absurdity List.not_mem_nil

section Unqueued

variable (conserved : ledger.Conserved) {turn : UdpTurn workers} {threads : UdpThreads workers}
  (queued : ledger.threads.queuedIn turn = [])
  (receiveCount : threads.receiveCount = ledger.threads.receiveCount)

include conserved queued receiveCount

theorem Conserved.unqueued
    (order : ledger.threads.requests = ledger.threads.pulledIn turn ++ threads.requests)
    (once : ledger.threads.held + (ledger.threads.pulledIn turn : Multiset UdpRequest) =
      (ledger.threads.handledIn turn : Multiset UdpRequest) + threads.held) :
    (ledger.record turn threads).Conserved := by
  rw [record, queued, List.append_nil]
  refine ⟨?_, ?_, receiveCount.trans conserved.counted, conserved.numbered, conserved.whole⟩
  · rw [conserved.order, List.append_assoc, ← order]
  · rw [← Multiset.coe_add, ← Multiset.coe_add, conserved.once, add_assoc, once, add_assoc]

theorem Conserved.idle (pulled : ledger.threads.pulledIn turn = [])
    (handled : ledger.threads.handledIn turn = [])
    (requests : threads.requests = ledger.threads.requests)
    (held : threads.held = ledger.threads.held) : (ledger.record turn threads).Conserved := by
  apply conserved.unqueued queued receiveCount
  · rw [pulled, requests, List.nil_append]
  · rw [pulled, handled, held, Multiset.coe_nil, add_zero, zero_add]

end Unqueued

theorem Conserved.enqueue (conserved : ledger.Conserved) (clientAddr : In6Addr)
    {receivedMessage : List UInt8} (filled : receivedMessage ≠ [])
    (whole : receivedMessage.length ≤ socketUdpReceivedUdpMessageLength) :
    (ledger.record (.enqueue clientAddr receivedMessage)
      (ledger.threads.enqueue clientAddr receivedMessage)).Conserved where
  order := by
    show ledger.received ++ [_] = (ledger.pulled ++ []) ++ (ledger.threads.requests ++ [_])
    rw [conserved.order, List.append_nil, List.append_assoc]
  once := by
    show ((ledger.pulled ++ [] : List UdpRequest) : Multiset UdpRequest) =
      (ledger.handled ++ [] : List UdpRequest) + ledger.threads.held
    rw [List.append_nil, List.append_nil]
    exact conserved.once
  counted := by
    show ledger.threads.receiveCount + 1 = UInt64.ofNat (ledger.received ++ [_]).length
    rw [List.length_append, List.length_singleton, UInt64.ofNat_add, conserved.counted]
    rfl
  numbered := by
    show (ledger.received ++ [_]).map _ = (List.range (ledger.received ++ [_]).length).map _
    rw [List.length_append, List.length_singleton, List.range_succ, List.map_append,
      List.map_append, conserved.numbered, conserved.counted, List.map_singleton,
      List.map_singleton]
    congr 2
    show (UInt64.ofNat ledger.received.length + 1).toUInt32 = _
    rw [← UInt64.ofNat_one, ← UInt64.ofNat_add, UInt64.toUInt32_ofNat']
  whole := by
    intro udpRequest member
    rcases List.mem_append.mp member with earlier | new
    · exact conserved.whole udpRequest earlier
    · rw [List.mem_singleton.mp new]
      exact ⟨filled, whole⟩

theorem Conserved.pull (conserved : ledger.Conserved) {number : Fin workers}
    (pulls : ledger.threads.worker number = .pulls) :
    (ledger.record (.pull number) (ledger.threads.pull number)).Conserved := by
  have moved := @UdpThreads.held_move _ ledger.threads number
    (.pulled (pullUdpRequest ledger.threads.requests).1)
  have idle : (UdpWorker.pulls.held : Multiset UdpRequest) = 0 := rfl
  rw [pulls, idle, add_zero, UdpWorker.pulled_held] at moved
  refine conserved.unqueued rfl rfl ?_ ?_
  · show ledger.threads.requests = (pullUdpRequest ledger.threads.requests).1.toList ++
      (pullUdpRequest ledger.threads.requests).2
    cases ledger.threads.requests with
    | nil => rfl
    | cons udpRequest requests => rfl
  · exact moved.symm.trans (zero_add _).symm

theorem Conserved.serve (conserved : ledger.Conserved) (number : Fin workers) :
    (ledger.record (.serve number) (ledger.threads.move number .pulls)).Conserved := by
  have moved := @UdpThreads.held_move _ ledger.threads number .pulls
  refine conserved.unqueued rfl rfl rfl ?_
  exact moved.symm.trans (add_comm _ _)

theorem Conserved.step (conserved : ledger.Conserved) {turn : UdpTurn workers}
    {after : UdpLedger workers} (taken : Step turn ledger after) : after.Conserved := by
  obtain ⟨taken⟩ := taken
  cases taken with
  | enqueue _ filled whole => exact conserved.enqueue _ filled whole
  | pull pulls => exact conserved.pull pulls
  | serve _ => exact conserved.serve _
  | unheard _ _ => exact conserved.idle rfl rfl rfl rfl rfl rfl
  | signal _ blocked =>
      exact conserved.idle rfl rfl rfl rfl rfl
        (UdpThreads.held_move_same (congrArg UdpWorker.held blocked).symm)
  | wait waits =>
      exact conserved.idle rfl rfl rfl rfl rfl
        (UdpThreads.held_move_same (congrArg UdpWorker.held waits).symm)
  | wake blocked =>
      exact conserved.idle rfl rfl rfl rfl rfl
        (UdpThreads.held_move_same (congrArg UdpWorker.held blocked).symm)

theorem reached_conserved {meets : UdpTurn workers → UdpLedger workers → Prop}
    (reached : Reached Step meets (start workers) ledger) : ledger.Conserved := by
  apply reached.invariant Conserved start_conserved
  intro turn before after conserved _ taken
  exact conserved.step taken

/-- The threads of a ledger whose workers block in time do not stall. -/
theorem reached_not_stalled (positive : 0 < workers)
    (reached : Reached Step (fun turn ledger => WaitsInTime turn ledger.threads) (start workers)
      ledger) : ¬ledger.threads.Stalled := by
  apply reached.invariant fun ledger => ¬ledger.threads.Stalled
  · intro stalled
    exact stalled.queued rfl
  · intro turn before after _ inTime taken
    obtain ⟨taken⟩ := taken
    exact UdpThreads.not_stalled_of_step positive taken inTime

theorem held_of_blocked (blocked : ∀ number, ledger.threads.worker number = .blocked) :
    ledger.threads.held = 0 := by
  rw [UdpThreads.held]
  apply Finset.sum_eq_zero
  intro number _
  rw [blocked]
  rfl

theorem Conserved.settled (conserved : ledger.Conserved) (running : ¬ledger.threads.Stalled)
    (blocked : ∀ number, ledger.threads.worker number = .blocked)
    (receives : ledger.threads.listener = .receives) : ledger.handled.Perm ledger.received := by
  have drained : ledger.threads.requests = [] := by
    by_contra queued
    exact running ⟨queued, blocked, receives⟩
  have once := conserved.once
  rw [held_of_blocked blocked, add_zero] at once
  rw [conserved.order, drained, List.append_nil]
  exact (Multiset.coe_eq_coe.mp once).symm

end UdpLedger

/-- Whatever the listener and the workers do, every datagram is queued, pulled in the order of
arrival and handled once. If the workers block in time, then all that was received has been
handled whenever they are all blocked and the listener has nothing more to signal. -/
theorem datagrams_handled (positive : 0 < workers) :
    (∀ ledger : UdpLedger workers,
      Reached UdpLedger.Step (fun _ _ => True) (.start workers) ledger → ledger.Conserved) ∧
    ∀ ledger : UdpLedger workers,
      Reached UdpLedger.Step (fun turn ledger => WaitsInTime turn ledger.threads) (.start workers)
        ledger →
      (∀ number, ledger.threads.worker number = .blocked) →
      ledger.threads.listener = .receives → ledger.handled.Perm ledger.received := by
  constructor
  · intro ledger reached
    exact UdpLedger.reached_conserved reached
  · intro ledger reached blocked receives
    exact (UdpLedger.reached_conserved reached).settled
      (UdpLedger.reached_not_stalled positive reached) blocked receives

/-- The only worker serves a datagram and goes back to wait. -/
theorem datagrams_handled_one : ∃ ledger : UdpLedger 1,
    Reached UdpLedger.Step (fun turn ledger => WaitsInTime turn ledger.threads) (.start 1)
      ledger ∧
    ledger.received.map UdpRequest.block = [[0]] ∧ ledger.handled.Perm ledger.received := by
  let start : UdpLedger 1 := .start 1
  let queued := start.record (.enqueue (Bytes.zero 16) [0])
    (start.threads.enqueue (Bytes.zero 16) [0])
  let signalled := queued.record (.signal none) { queued.threads with listener := .receives }
  let pulled := signalled.record (.pull 0) (signalled.threads.pull 0)
  let served := pulled.record (.serve 0) (pulled.threads.move 0 .pulls)
  let drained := served.record (.pull 0) (served.threads.pull 0)
  let waiting := drained.record (.wait 0) (drained.threads.move 0 .blocked)
  have only : ∀ number : Fin 1, number = 0 := fun number => Subsingleton.elim number 0
  have enqueue : UdpLedger.Step (.enqueue (Bytes.zero 16) [0]) start queued :=
    .taken (.enqueue rfl (by decide) (by decide))
  have unheard : UdpLedger.Step (.signal none) queued signalled := by
    refine .taken (.unheard rfl ?_)
    intro number
    rw [only number]
    exact nofun
  have pull : UdpLedger.Step (.pull 0) signalled pulled := .taken (.pull rfl)
  have serve : UdpLedger.Step (.serve 0) pulled served := .taken (.serve rfl)
  have again : UdpLedger.Step (.pull 0) served drained := .taken (.pull rfl)
  have wait : UdpLedger.Step (.wait 0) drained waiting := .taken (.wait rfl)
  let meets : UdpTurn 1 → UdpLedger 1 → Prop := fun turn ledger => WaitsInTime turn ledger.threads
  have inTime : ∀ {turn : UdpTurn 1} {ledger : UdpLedger 1}, (∀ number, turn ≠ .wait number) →
      meets turn ledger := fun elsewhere number same => absurd same (elsewhere number)
  have first : Reached UdpLedger.Step meets start queued :=
    Reached.start.next (inTime (by nofun)) enqueue
  have second : Reached UdpLedger.Step meets start served :=
    ((first.next (inTime (by nofun)) unheard).next (inTime (by nofun)) pull).next
      (inTime (by nofun)) serve
  have reached : Reached UdpLedger.Step meets start waiting :=
    (second.next (inTime (by nofun)) again).next (fun _ _ => .inl rfl) wait
  have blocked : ∀ number, waiting.threads.worker number = .blocked := by
    intro number
    rw [only number]
    rfl
  exact ⟨waiting, reached, rfl, (datagrams_handled (by decide)).2 waiting reached blocked rfl⟩

end Etracker
