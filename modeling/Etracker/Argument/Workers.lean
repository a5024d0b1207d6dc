import Etracker.Argument.Model
import Etracker.Foundation.Outcome

namespace Etracker

open Foundation.CString Foundation.Outcome

def ArgumentName.takesNext : ArgumentName → Bool
  | .keepAlive | .help | .noTcp | .noUdp | .noLocations | .unknown => false
  | _ => true

/-- The number of workers that the command line asks for: the value of the last `-w`. -/
def givenWorkers (workers : Int) : List Text → Int
  | [] => workers
  | [argumentName] => if getName argumentName = .workers then 0 else workers
  | argumentName :: next :: rest =>
      if getName argumentName = .workers then givenWorkers (atoi next) rest
      else if (getName argumentName).takesNext then givenWorkers workers rest
      else givenWorkers workers (next :: rest)

section Parse

variable {Load : Type} [Zero Load] {strtod : Text → Load}

theorem setArgument_workers {arguments arguments' : Arguments Load} {argumentName : Text}
    {next : Option Text} {takesNext : Bool}
    (set : setArgument strtod arguments argumentName next = .ok (arguments', takesNext)) :
    takesNext = (getName argumentName).takesNext ∧
      arguments'.workers =
        if getName argumentName = .workers then (next.map atoi).getD 0 else arguments.workers := by
  unfold setArgument at set
  cases name : getName argumentName <;> rw [name] at set <;> cases set <;> exact ⟨rfl, rfl⟩

theorem parseFrom_workers {arguments arguments' : Arguments Load} {argv : List Text}
    (parsed : parseFrom strtod arguments argv = .ok arguments') :
    arguments'.workers = givenWorkers arguments.workers argv := by
  fun_induction parseFrom strtod arguments argv with
  | case1 arguments =>
      cases parsed
      rfl
  | case2 arguments argumentName =>
      obtain ⟨⟨set, takesNext⟩, isSet, same⟩ := bind_eq_ok parsed
      cases same
      exact (setArgument_workers isSet).2
  | case3 arguments argumentName next rest ihRest ihNext =>
      obtain ⟨⟨set, takesNext⟩, isSet, later⟩ := bind_eq_ok parsed
      obtain ⟨takes, workers⟩ := setArgument_workers isSet
      rw [givenWorkers]
      by_cases isWorkers : getName argumentName = .workers
      · rw [isWorkers] at takes workers
        simp only [takes, ArgumentName.takesNext] at later
        rw [if_pos isWorkers, ihRest set later, workers]
        rfl
      · rw [if_neg isWorkers] at workers
        rw [if_neg isWorkers, ← workers, ← takes]
        cases takesNext with
        | true => exact ihRest set later
        | false => exact ihNext set later

theorem parseArguments_workers {processors : Int} {argv : List Text} {arguments : Arguments Load}
    (accepted : parseArguments strtod processors argv = .ok arguments) :
    arguments.workers = givenWorkers processors argv ∧ arguments.workers ≠ 0 := by
  unfold parseArguments at accepted
  split_ifs at accepted with number
  · cases accepted
  · obtain ⟨parsed, isParsed, checked⟩ := bind_eq_ok accepted
    dsimp only at checked
    split_ifs at checked with refused
    · cases checked
    · cases checked
      simp only [not_or] at refused
      exact ⟨parseFrom_workers isParsed, refused.2.2.1⟩

end Parse

structure OutsideWorkers where
  index : Int
  deriving DecidableEq, Repr

/-- The elements that `c_calloc` allocates. Its first parameter is an `int`; of a negative number
it allocates nothing. -/
def callocCount (count : Int) : Nat := (count.bmod (2 ^ 32)).toNat

section Workers

variable {Equeue SocketList Element : Type}

def fillWorkers (create : Nat → Element) (elements : Array (Option Element)) (threadNumber : Nat) :
    Nat → Except OutsideWorkers (Array (Option Element))
  | 0 => pure elements
  | more + 1 =>
      if threadNumber < elements.size then
        fillWorkers create (elements.setIfInBounds threadNumber (some (create threadNumber)))
          (threadNumber + 1) more
      else throw ⟨threadNumber⟩

def createWorkers (workers : Int) (create : Nat → Element) :
    Except OutsideWorkers (Array (Option Element)) :=
  fillWorkers create (Array.replicate (callocCount workers) none) 0 workers.toNat

def elementAt (elements : Array (Option Element)) (index : Int) :
    Except OutsideWorkers (Option Element) :=
  if 0 ≤ index ∧ index < elements.size then pure (elements[index.toNat]?.getD none)
  else throw ⟨index⟩

/-- A socket and what `updateSocketL` and `addClientEqueue` are called with for it. -/
structure Handed (Equeue SocketList : Type) where
  currentThread : Int
  clientSocket : Int
  equeue : Option Equeue
  socketList : Option SocketList

def acceptSockets (workers : Int) (equeue : Array (Option Equeue))
    (socketLists : Array (Option SocketList)) (currentThread : Int) :
    List Int → Except OutsideWorkers (List (Handed Equeue SocketList))
  | [] => pure []
  | clientSocket :: rest =>
      if clientSocket ≤ 0 then acceptSockets workers equeue socketLists currentThread rest
      else do
        let currentThread := currentThread + 1
        let currentThread := if currentThread = workers then 0 else currentThread
        let equeueThread ← elementAt equeue currentThread
        let socketList ← elementAt socketLists currentThread
        let handed ← acceptSockets workers equeue socketLists currentThread rest
        pure (⟨currentThread, clientSocket, equeueThread, socketList⟩ :: handed)

/-- The arrays have an element for each worker, and every accepted socket goes to one of them. -/
def WorkersInRange (workers : Int) (initEqueue : Nat → Equeue)
    (initSocketList : Nat → SocketList) : Prop :=
  ∃ equeue socketLists, createWorkers workers initEqueue = .ok equeue ∧
    createWorkers workers initSocketList = .ok socketLists ∧
    (equeue.size : Int) = workers ∧ (socketLists.size : Int) = workers ∧
    ∀ sockets, ∃ handed, acceptSockets workers equeue socketLists 0 sockets = .ok handed ∧
      ∀ each ∈ handed, 0 ≤ each.currentThread ∧ each.currentThread < workers

theorem fillWorkers_size {create : Nat → Element} {elements filled : Array (Option Element)}
    {threadNumber more : Nat}
    (completed : fillWorkers create elements threadNumber more = .ok filled) :
    filled.size = elements.size := by
  induction more generalizing elements threadNumber with
  | zero =>
      cases completed
      rfl
  | succ more ih =>
      rw [fillWorkers] at completed
      split_ifs at completed with inside
      exact (ih completed).trans Array.size_setIfInBounds

theorem fillWorkers_ok (create : Nat → Element) {elements : Array (Option Element)}
    {threadNumber more : Nat} (enough : threadNumber + more ≤ elements.size) :
    ∃ filled, fillWorkers create elements threadNumber more = .ok filled := by
  induction more generalizing elements threadNumber with
  | zero => exact ⟨elements, rfl⟩
  | succ more ih =>
      rw [fillWorkers, if_pos (by omega)]
      apply ih
      rw [Array.size_setIfInBounds]
      omega

theorem createWorkers_size_iff (workers : Int) (create : Nat → Element) :
    (∃ elements, createWorkers workers create = .ok elements ∧ (elements.size : Int) = workers) ↔
      0 ≤ workers ∧ workers < 2 ^ 31 := by
  have below := @Int.bmod_lt workers (2 ^ 32) (by decide)
  constructor
  · intro created
    obtain ⟨elements, completed, size⟩ := created
    have allocated := fillWorkers_size completed
    rw [Array.size_replicate, callocCount] at allocated
    omega
  · intro fits
    obtain ⟨nonnegative, small⟩ := fits
    have count : callocCount workers = workers.toNat := by
      rw [callocCount, Int.bmod_eq_of_le (by omega) (by omega)]
    have enough : 0 + workers.toNat ≤
        (Array.replicate (callocCount workers) (none : Option Element)).size := by
      rw [Array.size_replicate, count]
      omega
    obtain ⟨elements, completed⟩ := fillWorkers_ok create enough
    refine ⟨elements, completed, ?_⟩
    rw [fillWorkers_size completed, Array.size_replicate, count]
    omega

theorem elementAt_ok {elements : Array (Option Element)} {workers index : Int}
    (size : (elements.size : Int) = workers) (nonnegative : 0 ≤ index) (below : index < workers) :
    ∃ element, elementAt elements index = .ok element := by
  refine ⟨_, if_pos ⟨nonnegative, ?_⟩⟩
  omega

theorem acceptSockets_inRange {workers : Int} {equeue : Array (Option Equeue)}
    {socketLists : Array (Option SocketList)} (equeues : (equeue.size : Int) = workers)
    (lists : (socketLists.size : Int) = workers) {currentThread : Int}
    (nonnegative : 0 ≤ currentThread) (below : currentThread < workers) (sockets : List Int) :
    ∃ handed, acceptSockets workers equeue socketLists currentThread sockets = .ok handed ∧
      ∀ each ∈ handed, 0 ≤ each.currentThread ∧ each.currentThread < workers := by
  induction sockets generalizing currentThread with
  | nil => exact ⟨[], rfl, fun each member => nomatch member⟩
  | cons clientSocket rest ih =>
      rw [acceptSockets]
      by_cases failed : clientSocket ≤ 0
      · rw [if_pos failed]
        exact ih nonnegative below
      · rw [if_neg failed]
        have next : 0 ≤ (if currentThread + 1 = workers then 0 else currentThread + 1) ∧
            (if currentThread + 1 = workers then 0 else currentThread + 1) < workers := by
          split_ifs <;> omega
        obtain ⟨nonnegative', below'⟩ := next
        obtain ⟨equeueThread, isEqueue⟩ := elementAt_ok equeues nonnegative' below'
        obtain ⟨socketList, isList⟩ := elementAt_ok lists nonnegative' below'
        obtain ⟨handed, completed, inRange⟩ := ih nonnegative' below'
        simp only [isEqueue, isList, completed, ok_bind, pure_eq_ok]
        exact ⟨_, rfl, List.forall_mem_cons.mpr ⟨⟨nonnegative', below'⟩, inRange⟩⟩

/-- The choice of a worker is in range exactly if the command line asks for a positive number of
workers that an `int` holds. -/
theorem workersInRange_iff {Load : Type} [Zero Load] {strtod : Text → Load} {processors : Int}
    {argv : List Text} {arguments : Arguments Load}
    (accepted : parseArguments strtod processors argv = .ok arguments)
    (initEqueue : Nat → Equeue) (initSocketList : Nat → SocketList) :
    WorkersInRange arguments.workers initEqueue initSocketList ↔
      0 < givenWorkers processors argv ∧ givenWorkers processors argv < 2 ^ 31 := by
  obtain ⟨given, some⟩ := parseArguments_workers accepted
  rw [← given]
  constructor
  · intro inRange
    obtain ⟨equeue, _, completed, _, size, _⟩ := inRange
    have fits := (createWorkers_size_iff arguments.workers initEqueue).mp ⟨equeue, completed, size⟩
    omega
  · intro fits
    obtain ⟨positive, small⟩ := fits
    obtain ⟨equeue, createdEqueue, equeues⟩ :=
      (createWorkers_size_iff arguments.workers initEqueue).mpr ⟨by omega, small⟩
    obtain ⟨socketLists, createdLists, lists⟩ :=
      (createWorkers_size_iff arguments.workers initSocketList).mpr ⟨by omega, small⟩
    refine ⟨equeue, socketLists, createdEqueue, createdLists, equeues, lists, ?_⟩
    exact acceptSockets_inRange equeues lists (Int.le_refl 0) positive

end Workers

/-- Three workers take sockets in turn; what `accept` failed to give is passed over. -/
theorem workersInRange_iff_three :
    ∃ arguments, parseArguments (fun _ => (0 : Nat)) 4 [ascii "-w", ascii "3"] = .ok arguments ∧
      WorkersInRange arguments.workers (id : Nat → Nat) (id : Nat → Nat) ∧
      (acceptSockets arguments.workers #[some 10, some 11, some 12] #[some 20, some 21, some 22] 0
        [7, -1, 8, 9]).toOption = some [⟨1, 7, some 11, some 21⟩, ⟨2, 8, some 12, some 22⟩,
          ⟨0, 9, some 10, some 20⟩] := by
  have accepted : parseArguments (fun _ => (0 : Nat)) 4 [ascii "-w", ascii "3"] =
      .ok { defaultArguments 4 with workers := 3 } := rfl
  exact ⟨_, accepted, (workersInRange_iff accepted id id).mpr (by decide), rfl⟩

/-- A negative number of workers is accepted, and the first socket goes to a worker 1 that is
not there. -/
theorem workersInRange_negative :
    ∃ arguments, parseArguments (fun _ => (0 : Nat)) 4 [ascii "-w", ascii "-1"] = .ok arguments ∧
      createWorkers arguments.workers (id : Nat → Nat) = .ok #[] ∧
      acceptSockets arguments.workers (#[] : Array (Option Nat)) (#[] : Array (Option Nat)) 0 [7] =
        .error ⟨1⟩ ∧
      ¬WorkersInRange arguments.workers (id : Nat → Nat) (id : Nat → Nat) := by
  have accepted : parseArguments (fun _ => (0 : Nat)) 4 [ascii "-w", ascii "-1"] =
      .ok { defaultArguments 4 with workers := -1 } := rfl
  refine ⟨_, accepted, rfl, rfl, ?_⟩
  intro inRange
  obtain ⟨equeue, _, _, _, size, _⟩ := inRange
  have negative : (equeue.size : Int) = -1 := size
  omega

end Etracker
