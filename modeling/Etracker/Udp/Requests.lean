import Etracker.Udp.Queue
import Etracker.Foundation.Links

namespace Etracker

open Foundation Foundation.Runs Foundation.Links

structure UdpRequestCell where
  request : UdpRequest
  next : Option Address

structure UdpRequests where
  firstRequest : Option Address
  lastRequest : Option Address
  /-- Every `struct udpRequest` that is allocated. -/
  memory : Address → Option UdpRequestCell

namespace UdpRequests

def start : UdpRequests := ⟨none, none, fun _ => none⟩

variable (requests : UdpRequests)

/-- `newLastRequest` is the address that `c_calloc` returns. -/
def addUdpRequest (newLastRequest : Address) (request : UdpRequest) : Except Fault UdpRequests :=
  let memory := Function.update requests.memory newLastRequest (some ⟨request, none⟩)
  match requests.lastRequest with
  | none => pure ⟨some newLastRequest, some newLastRequest, memory⟩
  | some lastRequest =>
      match memory lastRequest with
      | none => throw .dangling
      | some cell =>
          let changed := { cell with next := some newLastRequest }
          pure ⟨requests.firstRequest, some newLastRequest,
            Function.update memory lastRequest (some changed)⟩

def pullUdpRequest : Except Fault (Option Address × UdpRequests) :=
  match requests.firstRequest with
  | none => pure (none, requests)
  | some result =>
      match requests.memory result with
      | none => throw .dangling
      | some cell =>
          let lastRequest := if cell.next = none then none else requests.lastRequest
          pure (some result, ⟨cell.next, lastRequest, requests.memory⟩)

def freeUdpRequest (request : Address) : Except Fault UdpRequests :=
  match requests.memory request with
  | none => throw .dangling
  | some _ => pure { requests with memory := Function.update requests.memory request none }

def behind : Option Address → List (Address × UdpRequest)
  | none => []
  | some address => (requests.memory address).toList.map fun cell => (address, cell.request)

/-- The chain from `firstRequest`, of which `lastRequest` is the final cell. -/
structure Queues (queued : List (Address × UdpRequest)) : Prop where
  linked : Chained UdpRequestCell.next UdpRequestCell.request requests.memory requests.firstRequest
    queued
  last : requests.lastRequest = last queued

end UdpRequests

/-- The queue, and what the callers have added to it, pulled from it and not yet freed. -/
structure UdpCalls where
  requests : UdpRequests
  added : List (Address × UdpRequest)
  pulled : List (Address × UdpRequest)
  held : List (Address × UdpRequest)

def UdpCalls.start : UdpCalls := ⟨.start, [], [], []⟩

inductive UdpCall
  | add (newLastRequest : Address) (request : UdpRequest)
  | pull
  | free (request : Address)

/-- Only an address that is not in use is allocated, and only a pulled request is freed, once. -/
inductive UdpCalls.Step : UdpCall → UdpCalls → UdpCalls → Prop
  | add {calls : UdpCalls} {newLastRequest : Address} {request : UdpRequest}
      {requests : UdpRequests} : calls.requests.memory newLastRequest = none →
      calls.requests.addUdpRequest newLastRequest request = .ok requests →
      Step (.add newLastRequest request) calls
        { calls with requests, added := calls.added ++ [(newLastRequest, request)] }
  | pull {calls : UdpCalls} {result : Option Address} {requests : UdpRequests} :
      calls.requests.pullUdpRequest = .ok (result, requests) →
      Step .pull calls
        { calls with
          requests
          pulled := calls.pulled ++ requests.behind result
          held := calls.held ++ requests.behind result }
  | free {calls : UdpCalls} {front back : List (Address × UdpRequest)}
      {entry : Address × UdpRequest} {requests : UdpRequests} :
      calls.held = front ++ entry :: back →
      calls.requests.freeUdpRequest entry.1 = .ok requests →
      Step (.free entry.1) calls { calls with requests, held := front ++ back }

namespace UdpRequests

variable {requests : UdpRequests} {queued : List (Address × UdpRequest)}

theorem start_queues : start.Queues [] := ⟨rfl, rfl⟩

theorem Queues.eq_none (queues : requests.Queues queued) :
    requests.firstRequest = none ↔ requests.lastRequest = none := by
  rw [linked_eq_none queues.linked, queues.last, last_eq_none]

theorem addUdpRequest_first (empty : requests.lastRequest = none) (newLastRequest : Address)
    (request : UdpRequest) :
    requests.addUdpRequest newLastRequest request =
      .ok ⟨some newLastRequest, some newLastRequest,
        Function.update requests.memory newLastRequest (some ⟨request, none⟩)⟩ := by
  rw [addUdpRequest, empty]
  rfl

theorem addUdpRequest_behind {lastRequest newLastRequest : Address} {cell : UdpRequestCell}
    (final : requests.lastRequest = some lastRequest)
    (stored : requests.memory lastRequest = some cell) (apart : lastRequest ≠ newLastRequest)
    (request : UdpRequest) :
    requests.addUdpRequest newLastRequest request =
      .ok ⟨requests.firstRequest, some newLastRequest,
        Function.update
          (Function.update requests.memory newLastRequest (some ⟨request, none⟩)) lastRequest
          (some { cell with next := some newLastRequest })⟩ := by
  rw [addUdpRequest, final]
  simp only [Function.update_of_ne apart, stored]
  rfl

/-- A request is added behind the others, and no other cell than the last one is written. -/
theorem addUdpRequest_queues (queues : requests.Queues queued) {newLastRequest : Address}
    (free : requests.memory newLastRequest = none) (request : UdpRequest) :
    ∃ after, requests.addUdpRequest newLastRequest request = .ok after ∧
      after.Queues (queued ++ [(newLastRequest, request)]) ∧
      ∀ address, address ≠ newLastRequest → address ∉ addresses queued →
        after.memory address = requests.memory address := by
  have outside : newLastRequest ∉ addresses queued := by
    intro member
    obtain ⟨entry, member, same⟩ := List.mem_map.mp member
    obtain ⟨cell, stored, _⟩ := linked_stored queues.linked member
    rw [same, free] at stored
    cases stored
  cases tail : requests.lastRequest with
  | none =>
      have empty : queued = [] := last_eq_none.mp (queues.last.symm.trans tail)
      refine ⟨_, addUdpRequest_first tail newLastRequest request, ⟨?_, ?_⟩, ?_⟩
      · rw [empty]
        exact ⟨rfl, _, Function.update_self .., rfl, rfl⟩
      · rw [last_concat]
      · intro address other _
        exact Function.update_of_ne other _ _
  | some lastRequest =>
      have final : last queued = some lastRequest := queues.last.symm.trans tail
      have member : lastRequest ∈ addresses queued := last_mem final
      have apart : lastRequest ≠ newLastRequest := fun same => outside (same ▸ member)
      obtain ⟨entry, entered, same⟩ := List.mem_map.mp member
      obtain ⟨cell, stored, _⟩ := linked_stored queues.linked entered
      rw [same] at stored
      refine ⟨_, addUdpRequest_behind tail stored apart request, ⟨?_, ?_⟩, ?_⟩
      · exact linked_concat queues.linked final stored outside rfl rfl rfl
      · rw [last_concat]
      · intro address other beyond
        have different : address ≠ lastRequest := fun same => beyond (same ▸ member)
        show Function.update _ _ _ _ = _
        rw [Function.update_of_ne different, Function.update_of_ne other]

theorem pullUdpRequest_some {result : Address} {cell : UdpRequestCell}
    (first : requests.firstRequest = some result) (stored : requests.memory result = some cell) :
    requests.pullUdpRequest = .ok (some result,
      ⟨cell.next, if cell.next = none then none else requests.lastRequest, requests.memory⟩) := by
  rw [pullUdpRequest, first]
  simp only [stored]
  rfl

theorem pullUdpRequest_queues (queues : requests.Queues queued) :
    ∃ after, requests.pullUdpRequest = .ok (queued.head?.map Prod.fst, after) ∧
      after.Queues queued.tail ∧ after.memory = requests.memory ∧
      after.behind (queued.head?.map Prod.fst) = queued.head?.toList := by
  obtain ⟨linked, final⟩ := queues
  cases queued with
  | nil =>
      have first : requests.firstRequest = none := linked
      refine ⟨requests, ?_, ⟨linked, final⟩, rfl, rfl⟩
      rw [pullUdpRequest, first]
      rfl
  | cons entry rest =>
      obtain ⟨first, cell, stored, carried, behind⟩ := linked
      refine ⟨_, pullUdpRequest_some first stored, ⟨behind, ?_⟩, rfl, ?_⟩
      · show (if cell.next = none then none else requests.lastRequest) = last rest
        by_cases more : rest = []
        · rw [if_pos ((linked_eq_none behind).mpr more), more, last_nil]
        · rw [if_neg (mt (linked_eq_none behind).mp more), final, last_cons entry more]
      · show (requests.memory entry.1).toList.map _ = [entry]
        rw [stored]
        exact congrArg (fun request => [(entry.1, request)]) carried

/-- The requests of the queue in their order, as `Udp.Queue` has it. -/
def Represents (requests : UdpRequests) (order : List UdpRequest) : Prop :=
  ∃ queued, requests.Queues queued ∧ queued.map Prod.snd = order

theorem addUdpRequest_refines {order : List UdpRequest} (represents : requests.Represents order)
    {newLastRequest : Address} (free : requests.memory newLastRequest = none)
    (request : UdpRequest) :
    ∃ after, requests.addUdpRequest newLastRequest request = .ok after ∧
      after.Represents (Etracker.addUdpRequest order request) := by
  obtain ⟨queued, queues, same⟩ := represents
  obtain ⟨after, done, queues', _⟩ := addUdpRequest_queues queues free request
  refine ⟨after, done, _, queues', ?_⟩
  rw [List.map_append, same]
  rfl

theorem pullUdpRequest_refines {order : List UdpRequest} (represents : requests.Represents order) :
    ∃ result after, requests.pullUdpRequest = .ok (result, after) ∧
      (after.behind result).map Prod.snd = (Etracker.pullUdpRequest order).1.toList ∧
      after.Represents (Etracker.pullUdpRequest order).2 := by
  obtain ⟨queued, queues, same⟩ := represents
  obtain ⟨after, done, queues', _, behind⟩ := pullUdpRequest_queues queues
  refine ⟨_, after, done, ?_, _, queues', ?_⟩
  · rw [behind, ← same]
    cases queued with
    | nil | cons => rfl
  · rw [← same]
    cases queued with
    | nil | cons => rfl

end UdpRequests

namespace UdpCalls

/-- The requests that were added are the pulled ones and, behind them, the queued ones. The
pulled ones that are not freed have kept what they carry. -/
structure Inv (calls : UdpCalls) (queued : List (Address × UdpRequest)) : Prop where
  queues : calls.requests.Queues queued
  order : calls.added = calls.pulled ++ queued
  kept : ∀ entry ∈ calls.held, ∃ cell, calls.requests.memory entry.1 = some cell ∧
    cell.request = entry.2
  distinct : (addresses calls.held).Nodup
  apart : ∀ address ∈ addresses calls.held, address ∉ addresses queued

variable {calls after : UdpCalls} {queued : List (Address × UdpRequest)}

theorem Inv.start : Inv UdpCalls.start [] where
  queues := UdpRequests.start_queues
  order := rfl
  kept := by simp [UdpCalls.start]
  distinct := List.nodup_nil
  apart := by simp [UdpCalls.start, addresses]

theorem addresses_append (front back : List (Address × UdpRequest)) :
    addresses (front ++ back) = addresses front ++ addresses back := List.map_append

theorem Inv.add (inv : calls.Inv queued) {newLastRequest : Address} {request : UdpRequest}
    {requests : UdpRequests} (free : calls.requests.memory newLastRequest = none)
    (added : calls.requests.addUdpRequest newLastRequest request = .ok requests) :
    Inv { calls with requests, added := calls.added ++ [(newLastRequest, request)] }
      (queued ++ [(newLastRequest, request)]) := by
  obtain ⟨after, done, queues, frame⟩ :=
    UdpRequests.addUdpRequest_queues inv.queues free request
  obtain rfl : after = requests := Except.ok.inj (done.symm.trans added)
  have other : ∀ entry ∈ calls.held, entry.1 ≠ newLastRequest := by
    intro entry member same
    obtain ⟨cell, stored, _⟩ := inv.kept entry member
    rw [same, free] at stored
    cases stored
  constructor
  · exact queues
  · show calls.added ++ _ = calls.pulled ++ _
    rw [inv.order, List.append_assoc]
  · intro entry member
    show ∃ cell, after.memory entry.1 = some cell ∧ _
    rw [frame entry.1 (other entry member) (inv.apart _ (List.mem_map_of_mem member))]
    exact inv.kept entry member
  · exact inv.distinct
  · intro address member
    rw [addresses_append, List.mem_append, not_or]
    obtain ⟨entry, held, same⟩ := List.mem_map.mp member
    refine ⟨inv.apart address member, ?_⟩
    rw [← same]
    exact fun new => other entry held (List.mem_singleton.mp new)

theorem Inv.pull (inv : calls.Inv queued) {result : Option Address} {requests : UdpRequests}
    (pulled : calls.requests.pullUdpRequest = .ok (result, requests)) :
    Inv { calls with
          requests
          pulled := calls.pulled ++ requests.behind result
          held := calls.held ++ requests.behind result } queued.tail := by
  obtain ⟨after, done, queues, memory, behind⟩ := UdpRequests.pullUdpRequest_queues inv.queues
  obtain ⟨rfl, rfl⟩ := Prod.mk.inj (Except.ok.inj (done.symm.trans pulled))
  rw [behind]
  cases queued with
  | nil =>
      simp only [List.head?_nil, Option.toList_none, List.append_nil]
      exact ⟨queues, inv.order, by rw [memory]; exact inv.kept, inv.distinct, inv.apart⟩
  | cons entry rest =>
      have once : (addresses (entry :: rest)).Nodup := linked_nodup inv.queues.linked
      have split := List.nodup_cons.mp once
      simp only [List.head?_cons, Option.toList_some]
      constructor
      · exact queues
      · show calls.added = calls.pulled ++ [entry] ++ rest
        rw [inv.order, List.append_assoc, List.singleton_append]
      · intro held member
        show ∃ cell, after.memory held.1 = some cell ∧ _
        rw [memory]
        rcases List.mem_append.mp member with old | new
        · exact inv.kept held old
        · rw [List.mem_singleton.mp new]
          exact linked_stored inv.queues.linked List.mem_cons_self
      · show (addresses (calls.held ++ [entry])).Nodup
        rw [addresses_append]
        apply List.Nodup.append inv.distinct (List.nodup_singleton _)
        intro address held single
        rw [List.mem_singleton.mp single] at held
        exact inv.apart entry.1 held List.mem_cons_self
      · intro address member
        rw [addresses_append] at member
        rcases List.mem_append.mp member with old | new
        · exact fun later => inv.apart address old (List.mem_cons_of_mem _ later)
        · rw [List.mem_singleton.mp new]
          exact split.1

theorem freeUdpRequest_ok (inv : calls.Inv queued) {entry : Address × UdpRequest}
    (member : entry ∈ calls.held) :
    calls.requests.freeUdpRequest entry.1 = .ok
      { calls.requests with memory := Function.update calls.requests.memory entry.1 none } := by
  obtain ⟨cell, stored, _⟩ := inv.kept entry member
  rw [UdpRequests.freeUdpRequest, stored]
  rfl

theorem Inv.free (inv : calls.Inv queued) {front back : List (Address × UdpRequest)}
    {entry : Address × UdpRequest} {requests : UdpRequests}
    (held : calls.held = front ++ entry :: back)
    (freed : calls.requests.freeUdpRequest entry.1 = .ok requests) :
    Inv { calls with requests, held := front ++ back } queued := by
  have member : entry ∈ calls.held := held ▸ List.mem_append_right _ List.mem_cons_self
  obtain rfl := Except.ok.inj ((freeUdpRequest_ok inv member).symm.trans freed)
  have remains : (front ++ back).Sublist calls.held := by
    rw [held]
    exact (List.sublist_cons_self entry back).append_left front
  have gone : entry.1 ∉ addresses (front ++ back) := by
    have distinct := inv.distinct
    rw [held, addresses_append] at distinct
    rw [addresses_append]
    exact (List.nodup_middle.mp distinct).notMem
  have frame : ∀ address, address ≠ entry.1 →
      Function.update calls.requests.memory entry.1 none address =
        calls.requests.memory address :=
    fun address other => Function.update_of_ne other _ _
  constructor
  · refine ⟨linked_frame ?_ inv.queues.linked, inv.queues.last⟩
    intro address chained
    apply frame
    intro same
    exact inv.apart entry.1 (List.mem_map_of_mem member) (same ▸ chained)
  · exact inv.order
  · intro other member'
    show ∃ cell, Function.update calls.requests.memory entry.1 none other.1 = some cell ∧ _
    rw [frame other.1 (fun same => gone (same ▸ List.mem_map_of_mem member'))]
    exact inv.kept other (remains.subset member')
  · exact (remains.map Prod.fst).nodup inv.distinct
  · exact fun address member' => inv.apart address ((remains.map Prod.fst).subset member')

theorem inv_of_step {call : UdpCall} (taken : Step call calls after) (inv : calls.Inv queued) :
    ∃ queued', after.Inv queued' := by
  cases taken with
  | add free added => exact ⟨_, inv.add free added⟩
  | pull pulled => exact ⟨_, inv.pull pulled⟩
  | free held freed => exact ⟨_, inv.free held freed⟩

theorem reached_inv (reached : Reached Step (fun _ _ => True) UdpCalls.start calls) :
    ∃ queued, calls.Inv queued := by
  apply reached.invariant (fun calls => ∃ queued, calls.Inv queued)
  · exact ⟨[], Inv.start⟩
  · rintro _ before after ⟨queued, inv⟩ _ taken
    exact inv_of_step taken inv

end UdpCalls

/-- Whatever is added and pulled, the two pointers are NULL together, `lastRequest` is the final
cell of the chain from `firstRequest`, and the pulls have returned the added requests one after
the other. The next pull returns the first request that is left, NULL if all were pulled. -/
theorem udpRequests_fifo {calls : UdpCalls}
    (reached : Reached UdpCalls.Step (fun _ _ => True) UdpCalls.start calls) :
    (calls.requests.firstRequest = none ↔ calls.requests.lastRequest = none) ∧
    (∃ queued, calls.requests.Queues queued ∧ calls.added = calls.pulled ++ queued) ∧
    (∃ result after, calls.requests.pullUdpRequest = .ok (result, after) ∧
      (result = none ↔ calls.pulled = calls.added) ∧
      ∀ address, result = some address → ∃ request left, after.behind result =
        [(address, request)] ∧ calls.added = calls.pulled ++ (address, request) :: left) ∧
    (∀ entry ∈ calls.held, calls.requests.behind (some entry.1) = [entry]) ∧
    ∀ newLastRequest request, calls.requests.memory newLastRequest = none →
      ∃ after, calls.requests.addUdpRequest newLastRequest request = .ok after := by
  obtain ⟨queued, inv⟩ := UdpCalls.reached_inv reached
  refine ⟨inv.queues.eq_none, ⟨queued, inv.queues, inv.order⟩, ?_, ?_, ?_⟩
  · obtain ⟨after, done, _, _, behind⟩ := UdpRequests.pullUdpRequest_queues inv.queues
    refine ⟨_, after, done, ?_, ?_⟩
    · rw [inv.order]
      cases queued with
      | nil => simp
      | cons entry rest => simp
    · intro address found
      cases queued with
      | nil => cases found
      | cons entry rest =>
          obtain rfl : entry.1 = address := Option.some.inj found
          exact ⟨entry.2, rest, behind, inv.order⟩
  · intro entry member
    obtain ⟨cell, stored, carried⟩ := inv.kept entry member
    show (calls.requests.memory entry.1).toList.map _ = [entry]
    rw [stored]
    exact congrArg (fun request => [(entry.1, request)]) carried
  · intro newLastRequest request free
    obtain ⟨after, done, _⟩ := UdpRequests.addUdpRequest_queues inv.queues free request
    exact ⟨after, done⟩

/-- A request that is added to the drained queue is pulled next. -/
theorem udpRequests_fifo_drained :
    ∃ calls : UdpCalls, calls.pulled.map Prod.fst = [0] ∧ calls.added.map Prod.fst = [0, 1] ∧
      (calls.requests.firstRequest = none ↔ calls.requests.lastRequest = none) ∧
      ∃ result after, calls.requests.pullUdpRequest = .ok (result, after) ∧
        (result = none ↔ calls.pulled = calls.added) := by
  let request : UdpRequest := ⟨[0], .ofList 16 [], 1⟩
  have none_yet : Reached UdpCalls.Step (fun _ _ => True) UdpCalls.start UdpCalls.start := .start
  have first := none_yet.next trivial (@UdpCalls.Step.add UdpCalls.start 0 request _ rfl rfl)
  have drained := first.next trivial (@UdpCalls.Step.pull _ (some 0) _ rfl)
  have again := drained.next trivial (@UdpCalls.Step.add _ 1 request _ rfl rfl)
  obtain ⟨ends, _, ⟨result, after, done, all, _⟩, _⟩ := udpRequests_fifo again
  exact ⟨_, rfl, rfl, ends, result, after, done, all⟩

end Etracker
