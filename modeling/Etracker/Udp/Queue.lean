import Etracker.Data.Announce
import Etracker.Foundation.Runs

/-! The queue of `udp_request.c` and the threads that share it: the listener of
`serverUdpHandler` and the workers of `clientUdpHandler`. -/

namespace Etracker

open Foundation Foundation.Runs

def socketUdpReceivedUdpMessageLength : Nat := 1496

/-- `struct udpRequest` without its link: the queue is the list that starts at
`firstRequest` and ends at `lastRequest`. -/
structure UdpRequest where
  block : List UInt8
  clientAddr : In6Addr
  receiveCount : UInt32

def addUdpRequest (requests : List UdpRequest) (request : UdpRequest) : List UdpRequest :=
  requests ++ [request]

def pullUdpRequest : List UdpRequest → Option UdpRequest × List UdpRequest
  | [] => (none, [])
  | result :: requests => (some result, requests)

inductive UdpWorker
  | pulls
  | serves (udpRequest : UdpRequest)
  /-- It has pulled NULL and has not yet entered `pthread_cond_wait`. -/
  | waits
  /-- In `pthread_cond_wait`. -/
  | blocked

inductive UdpListener
  /-- In `recvfrom`, or on the way to its next request. -/
  | receives
  /-- It has queued a request and has not yet signalled it. -/
  | signals

structure UdpThreads (workers : Nat) where
  requests : List UdpRequest
  receiveCount : UInt64
  listener : UdpListener
  worker : Fin workers → UdpWorker

def UdpThreads.start (workers : Nat) : UdpThreads workers where
  requests := []
  receiveCount := 0
  listener := .receives
  worker := fun _ => .pulls

def UdpWorker.pulled : Option UdpRequest → UdpWorker
  | none => .waits
  | some udpRequest => .serves udpRequest

namespace UdpThreads

variable {workers : Nat} (threads : UdpThreads workers)

def move (number : Fin workers) (worker : UdpWorker) : UdpThreads workers :=
  { threads with worker := Function.update threads.worker number worker }

/-- A datagram has arrived: one more request is queued while `semaphoreRequest` is held. -/
def enqueue (clientAddr : In6Addr) (receivedMessage : List UInt8) : UdpThreads workers :=
  let receiveCount := threads.receiveCount + 1
  { threads with
    requests := addUdpRequest threads.requests ⟨receivedMessage, clientAddr, receiveCount.toUInt32⟩
    receiveCount := receiveCount
    listener := .signals }

def pull (number : Fin workers) : UdpThreads workers :=
  let (udpRequest, requests) := pullUdpRequest threads.requests
  { threads with requests := requests }.move number (.pulled udpRequest)

end UdpThreads

/-- The atomic steps of the listener and of the workers. -/
inductive UdpTurn (workers : Nat)
  | enqueue (clientAddr : In6Addr) (receivedMessage : List UInt8)
  | signal (woken : Option (Fin workers))
  | pull (number : Fin workers)
  | serve (number : Fin workers)
  /-- The entry into `pthread_cond_wait`. -/
  | wait (number : Fin workers)
  /-- `pthread_cond_wait` may return without a signal. -/
  | wake (number : Fin workers)

variable {workers : Nat}

inductive UdpStep : UdpTurn workers → UdpThreads workers → UdpThreads workers → Prop
  | enqueue {threads : UdpThreads workers} {clientAddr : In6Addr} {receivedMessage : List UInt8} :
      threads.listener = .receives → receivedMessage ≠ [] →
      receivedMessage.length ≤ socketUdpReceivedUdpMessageLength →
      UdpStep (.enqueue clientAddr receivedMessage) threads
        (threads.enqueue clientAddr receivedMessage)
  | signal {threads : UdpThreads workers} {woken : Fin workers} :
      threads.listener = .signals → threads.worker woken = .blocked →
      UdpStep (.signal (some woken)) threads
        { threads.move woken .pulls with listener := .receives }
  | unheard {threads : UdpThreads workers} : threads.listener = .signals →
      (∀ number, threads.worker number ≠ .blocked) →
      UdpStep (.signal none) threads { threads with listener := .receives }
  | pull {threads : UdpThreads workers} {number : Fin workers} : threads.worker number = .pulls →
      UdpStep (.pull number) threads (threads.pull number)
  | serve {threads : UdpThreads workers} {number : Fin workers} {udpRequest : UdpRequest} :
      threads.worker number = .serves udpRequest →
      UdpStep (.serve number) threads (threads.move number .pulls)
  | wait {threads : UdpThreads workers} {number : Fin workers} : threads.worker number = .waits →
      UdpStep (.wait number) threads (threads.move number .blocked)
  | wake {threads : UdpThreads workers} {number : Fin workers} : threads.worker number = .blocked →
      UdpStep (.wake number) threads (threads.move number .pulls)

namespace UdpThreads

/-- Requests are queued, every worker is blocked, and the listener has nothing more to
signal. -/
structure Stalled (threads : UdpThreads workers) : Prop where
  queued : threads.requests ≠ []
  blocked : ∀ number, threads.worker number = .blocked
  receives : threads.listener = .receives

end UdpThreads

/-- No wake-up is lost, whatever the threads do. -/
def NoLostWakeup (workers : Nat) : Prop :=
  ∀ threads : UdpThreads workers,
    Reached UdpStep (fun _ _ => True) (UdpThreads.start workers) threads → ¬threads.Stalled

/-- A signal is heard: the queue is empty, or some worker is not between its pull of NULL and
`pthread_cond_wait`. -/
def SignalsHeard (turn : UdpTurn workers) (threads : UdpThreads workers) : Prop :=
  match turn with
  | .signal _ => threads.requests = [] ∨ ∃ number, threads.worker number ≠ .waits
  | _ => True

def UdpWorker.LooksAgain : UdpWorker → Prop
  | .pulls | .serves _ => True
  | .waits | .blocked => False

namespace UdpThreads

@[simp] theorem move_worker (threads : UdpThreads workers) (number : Fin workers)
    (worker : UdpWorker) :
    (threads.move number worker).worker = Function.update threads.worker number worker := rfl

/-- What was queued and signalled is seen by some worker. -/
def Attended (threads : UdpThreads workers) : Prop :=
  threads.listener = .receives → threads.requests ≠ [] →
    ∃ number, (threads.worker number).LooksAgain

theorem Attended.not_stalled {threads : UdpThreads workers} (attended : threads.Attended) :
    ¬threads.Stalled := by
  intro stalled
  obtain ⟨number, looks⟩ := attended stalled.receives stalled.queued
  rw [stalled.blocked number] at looks
  exact looks

theorem attended_of_move {threads : UdpThreads workers} {number : Fin workers} {worker : UdpWorker}
    (looks : worker.LooksAgain) : (threads.move number worker).Attended := by
  intro _ _
  refine ⟨number, ?_⟩
  rwa [move_worker, Function.update_self]

theorem Attended.pull {threads : UdpThreads workers} (number : Fin workers) :
    (threads.pull number).Attended := by
  intro receives queued
  have looks : (UdpWorker.pulled (pullUdpRequest threads.requests).1).LooksAgain := by
    have queued : (pullUdpRequest threads.requests).2 ≠ [] := queued
    cases requests : threads.requests with
    | nil =>
        rw [requests] at queued
        exact absurd rfl queued
    | cons request rest => trivial
  exact attended_of_move looks receives queued

theorem Attended.wait {threads : UdpThreads workers} (attended : threads.Attended)
    {number : Fin workers} (waits : threads.worker number = .waits) :
    (threads.move number .blocked).Attended := by
  intro receives queued
  obtain ⟨other, looks⟩ := attended receives queued
  have differs : other ≠ number := by
    rintro rfl
    rw [waits] at looks
    exact looks
  refine ⟨other, ?_⟩
  rwa [move_worker, Function.update_of_ne differs]

theorem Attended.step {turn : UdpTurn workers} {before after : UdpThreads workers}
    (attended : before.Attended) (taken : UdpStep turn before after)
    (heard : SignalsHeard turn before) : after.Attended := by
  cases taken with
  | enqueue _ _ _ => exact nofun
  | @signal _ woken _ _ =>
      have moved : (before.move woken .pulls).Attended := attended_of_move trivial
      intro _ queued
      refine ⟨woken, ?_⟩
      show ((before.move woken .pulls).worker woken).LooksAgain
      rw [move_worker, Function.update_self]
      trivial
  -- Nobody is blocked, so the worker that hears the signal still has to look at the queue.
  | unheard _ awake =>
      intro _ queued
      obtain ⟨number, elsewhere⟩ := heard.resolve_left queued
      refine ⟨number, ?_⟩
      show (before.worker number).LooksAgain
      cases place : before.worker number with
      | pulls | serves _ => trivial
      | waits => exact absurd place elsewhere
      | blocked => exact absurd place (awake number)
  | pull _ => exact Attended.pull _
  | serve _ | wake _ => exact attended_of_move trivial
  | wait waits => exact attended.wait waits

theorem stalls_of_waits {origin threads : UdpThreads workers}
    (reached : Reached UdpStep (fun turn _ => ∃ number, turn = .wait number) origin threads)
    (queued : threads.requests ≠ []) (receives : threads.listener = .receives)
    (waiting : List (Fin workers))
    (waits : ∀ number, threads.worker number = .blocked ∨
      number ∈ waiting ∧ threads.worker number = .waits) :
    ∃ later, Reached UdpStep (fun turn _ => ∃ number, turn = .wait number) origin later ∧
      later.Stalled := by
  induction waiting generalizing threads with
  | nil =>
      have blocked : ∀ number, threads.worker number = .blocked := fun number =>
        (waits number).resolve_right fun listed => List.not_mem_nil listed.1
      exact ⟨threads, reached, queued, blocked, receives⟩
  | cons first rest ih =>
      rcases waits first with blocked | ⟨_, here⟩
      · refine ih reached queued receives fun number => (waits number).imp_right fun listed => ?_
        refine ⟨(List.mem_cons.mp listed.1).resolve_left ?_, listed.2⟩
        rintro rfl
        exact nomatch blocked.symm.trans listed.2
      · refine ih (reached.next ⟨first, rfl⟩ (.wait here)) queued receives fun number => ?_
        rw [move_worker]
        by_cases same : number = first
        · rw [same, Function.update_self]
          exact Or.inl rfl
        · rw [Function.update_of_ne same]
          refine (waits number).imp_right fun listed => ?_
          exact ⟨(List.mem_cons.mp listed.1).resolve_left same, listed.2⟩

/-- A signal that nobody hears is followed by a stall once every worker has entered its wait. -/
theorem stalls_of_missed {turn : UdpTurn workers} {before after : UdpThreads workers}
    (taken : UdpStep turn before after) (missed : ¬SignalsHeard turn before) :
    ∃ later, Reached UdpStep (fun turn _ => ∃ number, turn = .wait number) after later ∧
      later.Stalled := by
  cases taken with
  | @signal _ woken _ blocked =>
      have elsewhere : before.worker woken ≠ .waits := by
        rw [blocked]
        exact nofun
      exact absurd (Or.inr ⟨woken, elsewhere⟩) missed
  | unheard _ _ =>
      simp only [SignalsHeard] at missed
      push Not at missed
      refine stalls_of_waits .start missed.1 rfl (List.finRange workers) fun number => ?_
      exact Or.inr ⟨List.mem_finRange number, missed.2 number⟩
  | enqueue _ _ _ | pull _ | serve _ | wait _ | wake _ => exact absurd trivial missed

end UdpThreads

/-- No run stalls whose signals are heard; and a signal that is not heard is followed by a stall
if nothing happens any more but that the workers enter their waits. -/
theorem noLostWakeup_of_signalsHeard (workers : Nat) :
    (∀ threads, Reached UdpStep SignalsHeard (UdpThreads.start workers) threads →
      ¬threads.Stalled) ∧
    ∀ (turn : UdpTurn workers) (before after : UdpThreads workers),
      UdpStep turn before after → ¬SignalsHeard turn before →
        ∃ later, Reached UdpStep (fun turn _ => ∃ number, turn = .wait number) after later ∧
          later.Stalled := by
  constructor
  · intro threads reached
    have attended : threads.Attended := by
      apply reached.invariant UdpThreads.Attended
      · exact fun _ queued => absurd rfl queued
      · intro turn before after attended heard taken
        exact attended.step taken heard
    exact attended.not_stalled
  · intro turn before after taken missed
    exact UdpThreads.stalls_of_missed taken missed

/-- The first worker pulls NULL, a datagram is queued and signalled, and the worker blocks: of two
workers the other one looks at the queue, and a single one is not heard. -/
theorem noLostWakeup_of_signalsHeard_two :
    (∃ threads, Reached UdpStep SignalsHeard (UdpThreads.start 2) threads ∧
      (threads.requests ≠ [] ∧ threads.worker 0 = .blocked ∧ threads.listener = .receives) ∧
      ¬threads.Stalled) ∧
    ∃ later, Reached UdpStep (fun turn _ => ∃ number, turn = .wait number)
      { ((UdpThreads.start 1).pull 0).enqueue (Bytes.ofList 16 []) [0] with listener := .receives }
      later ∧ later.Stalled := by
  constructor
  · let first : UdpThreads 2 := UdpThreads.start 2
    let pulled := first.pull 0
    let queued := pulled.enqueue (Bytes.ofList 16 []) [0]
    let signalled : UdpThreads 2 := { queued with listener := .receives }
    have pull : UdpStep (.pull 0) first pulled := .pull rfl
    have enqueue : UdpStep (.enqueue (Bytes.ofList 16 []) [0]) pulled queued :=
      .enqueue rfl (by decide) (by decide)
    have awake : ∀ number, queued.worker number ≠ .blocked :=
      Fin.forall_fin_two.mpr ⟨nofun, nofun⟩
    have signal : UdpStep (.signal none) queued signalled := .unheard rfl awake
    have heard : SignalsHeard (.signal none) queued := Or.inr ⟨1, nofun⟩
    have wait : UdpStep (.wait 0) signalled (signalled.move 0 .blocked) := .wait rfl
    have elsewhere : SignalsHeard (.pull 0) first ∧ SignalsHeard (.wait 0) signalled ∧
        SignalsHeard (.enqueue (Bytes.ofList 16 []) [0]) pulled := ⟨trivial, trivial, trivial⟩
    have enqueues := (Reached.start.next elsewhere.1 pull).next elsewhere.2.2 enqueue
    have reached := (enqueues.next heard signal).next elsewhere.2.1 wait
    refine ⟨_, reached, ⟨?_, rfl, rfl⟩, (noLostWakeup_of_signalsHeard 2).1 _ reached⟩
    exact List.cons_ne_nil _ _
  · let queued := ((UdpThreads.start 1).pull 0).enqueue (Bytes.ofList 16 []) [0]
    have only : ∀ number : Fin 1, queued.worker number = .waits := by
      intro number
      rw [Subsingleton.elim number 0]
      rfl
    have awake : ∀ number, queued.worker number ≠ .blocked := by
      intro number
      rw [only]
      exact nofun
    have missed : ¬SignalsHeard (.signal none) queued := by
      intro heard
      rcases heard with empty | ⟨number, elsewhere⟩
      · exact nomatch empty
      · exact elsewhere (only number)
    exact (noLostWakeup_of_signalsHeard 1).2 _ _ _ (.unheard rfl awake) missed

/-- One worker pulls NULL, a datagram is queued and signalled, and then the worker
blocks. -/
theorem wakeup_lost : ¬∀ workers, 0 < workers → NoLostWakeup workers := by
  intro lossless
  let first : UdpThreads 1 := UdpThreads.start 1
  let pulled := first.pull 0
  let queued := pulled.enqueue (Bytes.ofList 16 []) [0]
  let signalled : UdpThreads 1 := { queued with listener := .receives }
  have pull : UdpStep (.pull 0) first pulled := .pull rfl
  have enqueue : UdpStep (.enqueue (Bytes.ofList 16 []) [0]) pulled queued :=
    .enqueue rfl (by decide) (by decide)
  have awake : ∀ number, queued.worker number ≠ .blocked := by
    intro number
    rw [Subsingleton.elim number 0]
    exact nofun
  have signal : UdpStep (.signal none) queued signalled := .unheard rfl awake
  have wait : UdpStep (.wait 0) signalled (signalled.move 0 .blocked) := .wait rfl
  have reached : Reached UdpStep (fun _ _ => True) first (signalled.move 0 .blocked) :=
    (((Reached.start.next trivial pull).next trivial enqueue).next trivial signal).next trivial wait
  refine lossless 1 (by decide) _ reached ⟨by simp [signalled, queued, UdpThreads.move,
    UdpThreads.enqueue, addUdpRequest], ?_, rfl⟩
  intro number
  rw [Subsingleton.elim number 0]
  rfl

end Etracker
