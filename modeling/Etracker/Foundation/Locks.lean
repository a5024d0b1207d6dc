import Etracker.Foundation.Runs
import Mathlib.Data.Fintype.Lattice
import Mathlib.Logic.Function.Basic
import Mathlib.Logic.Relation

/-! Threads that share semaphores and take them in the order of a rank.

A thread is known by the scripts of waits and posts that it may go through one after
another. If every script is ordered, no thread ever waits for itself, directly or through
others, and some thread can always move. -/

namespace Foundation.Locks

open Foundation.Runs

inductive Op (Semaphore : Type)
  | wait (semaphore : Semaphore)
  | post (semaphore : Semaphore)

abbrev Script (Semaphore : Type) := List (Op Semaphore)

variable {Semaphore Thread : Type}

def locked (semaphore : Semaphore) (body : Script Semaphore) : Script Semaphore :=
  .wait semaphore :: (body ++ [.post semaphore])

section Order

variable (rank : Semaphore → Nat)

/-- The script waits only for semaphores above those it holds, and posts them in turn. -/
inductive Ordered : List Semaphore → Script Semaphore → List Semaphore → Prop
  | done {held : List Semaphore} : Ordered held [] held
  | wait {held final : List Semaphore} {semaphore : Semaphore} {script : Script Semaphore} :
      (∀ other ∈ held, rank other < rank semaphore) → Ordered (semaphore :: held) script final →
      Ordered held (.wait semaphore :: script) final
  | post {held final : List Semaphore} {semaphore : Semaphore} {script : Script Semaphore} :
      Ordered held script final → Ordered (semaphore :: held) (.post semaphore :: script) final

/-- The script is ordered for every thread that holds nothing from the bound on. -/
def Above (bound : Nat) (script : Script Semaphore) : Prop :=
  ∀ held, (∀ other ∈ held, rank other < bound) → Ordered rank held script held

variable {rank}

theorem Ordered.append {held middle final : List Semaphore} {first second : Script Semaphore}
    (ordered : Ordered rank held first middle) (ordered' : Ordered rank middle second final) :
    Ordered rank held (first ++ second) final := by
  induction ordered with
  | done => exact ordered'
  | wait above _ ih => exact .wait above (ih ordered')
  | post _ ih => exact .post (ih ordered')

theorem above_nil (bound : Nat) : Above rank bound [] := fun _ _ => .done

theorem above_append {bound : Nat} {first second : Script Semaphore}
    (above : Above rank bound first) (above' : Above rank bound second) :
    Above rank bound (first ++ second) :=
  fun held below => (above held below).append (above' held below)

theorem above_ite {bound : Nat} {first second : Script Semaphore} {condition : Prop}
    [Decidable condition] (above : Above rank bound first) (above' : Above rank bound second) :
    Above rank bound (if condition then first else second) := by
  split
  · exact above
  · exact above'

theorem above_flatten {bound : Nat} {scripts : List (Script Semaphore)}
    (above : ∀ script ∈ scripts, Above rank bound script) : Above rank bound scripts.flatten := by
  induction scripts with
  | nil => exact above_nil bound
  | cons script scripts ih =>
      rw [List.flatten_cons]
      exact above_append (above script List.mem_cons_self)
        (ih fun other member => above other (List.mem_cons_of_mem _ member))

theorem above_flatMap {Datum : Type} {bound : Nat} {data : List Datum}
    {script : Datum → Script Semaphore} (above : ∀ datum ∈ data, Above rank bound (script datum)) :
    Above rank bound (data.flatMap script) := by
  rw [List.flatMap_def]
  apply above_flatten
  intro other member
  obtain ⟨datum, among, rfl⟩ := List.mem_map.mp member
  exact above datum among

theorem above_locked {bound : Nat} {semaphore : Semaphore} {body : Script Semaphore}
    (high : bound ≤ rank semaphore) (above : Above rank (rank semaphore + 1) body) :
    Above rank bound (locked semaphore body) := by
  intro held below
  have waits : ∀ other ∈ held, rank other < rank semaphore := fun other member =>
    lt_of_lt_of_le (below other member) high
  have inside : ∀ other ∈ semaphore :: held, rank other < rank semaphore + 1 := by
    intro other member
    rcases List.mem_cons.mp member with rfl | old
    · exact Nat.lt_succ_self _
    · exact Nat.lt_succ_of_lt (waits other old)
  exact .wait waits ((above _ inside).append (.post .done))

theorem above_mono {low high : Nat} {script : Script Semaphore} (le : low ≤ high)
    (above : Above rank high script) : Above rank low script :=
  fun held below => above held fun other member => lt_of_lt_of_le (below other member) le

theorem Ordered.held_nil {held : List Semaphore} (ordered : Ordered rank held [] []) :
    held = [] := by
  cases ordered
  rfl

theorem Ordered.lt_of_wait {held final : List Semaphore} {semaphore : Semaphore}
    {script : Script Semaphore} (ordered : Ordered rank held (.wait semaphore :: script) final) :
    ∀ other ∈ held, rank other < rank semaphore := by
  cases ordered with
  | wait above _ => exact above

theorem Ordered.of_wait {held final : List Semaphore} {semaphore : Semaphore}
    {script : Script Semaphore} (ordered : Ordered rank held (.wait semaphore :: script) final) :
    Ordered rank (semaphore :: held) script final := by
  cases ordered with
  | wait _ inside => exact inside

theorem Ordered.of_post {held final : List Semaphore} {semaphore : Semaphore}
    {script : Script Semaphore} (ordered : Ordered rank held (.post semaphore :: script) final) :
    ∃ under, held = semaphore :: under ∧ Ordered rank under script final := by
  cases ordered with
  | post outside => exact ⟨_, rfl, outside⟩

end Order

/-- The value of each semaphore, what each thread has still to do, and what it holds. -/
structure State (Semaphore Thread : Type) where
  value : Semaphore → Nat
  script : Thread → Script Semaphore
  held : Thread → List Semaphore

def State.start (Semaphore Thread : Type) : State Semaphore Thread :=
  ⟨fun _ => 1, fun _ => [], fun _ => []⟩

section Steps

variable [DecidableEq Semaphore] [DecidableEq Thread]

/-- A thread waits for a semaphore, posts it, or begins the next of its scripts. -/
inductive Step (scripts : Thread → Script Semaphore → Prop) :
    Thread → State Semaphore Thread → State Semaphore Thread → Prop
  | wait {state : State Semaphore Thread} {thread : Thread} {semaphore : Semaphore}
      {rest : Script Semaphore} : state.script thread = .wait semaphore :: rest →
      0 < state.value semaphore → Step scripts thread state
        { value := Function.update state.value semaphore (state.value semaphore - 1)
          script := Function.update state.script thread rest
          held := Function.update state.held thread (semaphore :: state.held thread) }
  | post {state : State Semaphore Thread} {thread : Thread} {semaphore : Semaphore}
      {rest : Script Semaphore} : state.script thread = .post semaphore :: rest →
      Step scripts thread state
        { value := Function.update state.value semaphore (state.value semaphore + 1)
          script := Function.update state.script thread rest
          held := Function.update state.held thread ((state.held thread).erase semaphore) }
  | next {state : State Semaphore Thread} {thread : Thread} {script : Script Semaphore} :
      state.script thread = [] → scripts thread script →
      Step scripts thread state
        { state with script := Function.update state.script thread script }

end Steps

namespace State

variable (state : State Semaphore Thread)

def Waits (thread : Thread) (semaphore : Semaphore) : Prop :=
  ∃ rest, state.script thread = .wait semaphore :: rest

/-- A thread waits for a semaphore that another one holds. -/
def WaitsFor (thread other : Thread) : Prop :=
  ∃ semaphore, state.Waits thread semaphore ∧ semaphore ∈ state.held other

def Moves (thread : Thread) : Prop :=
  state.script thread ≠ [] ∧ ∀ semaphore, state.Waits thread semaphore → 0 < state.value semaphore

structure DeadlockFree : Prop where
  selfless : ∀ thread semaphore, state.Waits thread semaphore → semaphore ∉ state.held thread
  acyclic : ∀ thread, ¬Relation.TransGen state.WaitsFor thread thread
  moves : ∀ thread, state.script thread ≠ [] → ∃ other, state.Moves other

/-- What every step preserves. -/
structure Sound (rank : Semaphore → Nat) : Prop where
  ordered : ∀ thread, Ordered rank (state.held thread) (state.script thread) []
  holder : ∀ semaphore, state.value semaphore = 0 → ∃ thread, semaphore ∈ state.held thread

end State

variable {rank : Semaphore → Nat}

namespace State.Sound

variable [DecidableEq Thread] {before : State Semaphore Thread} {thread : Thread}
  {held : List Semaphore}

theorem ordered_update (sound : before.Sound rank) {script : Script Semaphore}
    (own : Ordered rank held script []) (other : Thread) :
    Ordered rank (Function.update before.held thread held other)
      (Function.update before.script thread script other) [] := by
  by_cases here : other = thread
  · subst here
    rw [Function.update_self, Function.update_self]
    exact own
  · rw [Function.update_of_ne here, Function.update_of_ne here]
    exact sound.ordered other

theorem holder_update (sound : before.Sound rank) {semaphore : Semaphore}
    (keeps : semaphore ∈ before.held thread → semaphore ∈ held)
    (zero : before.value semaphore = 0) :
    ∃ holder, semaphore ∈ Function.update before.held thread held holder := by
  obtain ⟨holder, holds⟩ := sound.holder semaphore zero
  refine ⟨holder, ?_⟩
  by_cases here : holder = thread
  · subst here
    rw [Function.update_self]
    exact keeps holds
  · rw [Function.update_of_ne here]
    exact holds

end State.Sound

section Steps

variable [DecidableEq Semaphore] [DecidableEq Thread]
  {scripts : Thread → Script Semaphore → Prop}

theorem Step.sound (ordered : ∀ thread script, scripts thread script → Ordered rank [] script [])
    {thread : Thread} {before after : State Semaphore Thread} (sound : before.Sound rank)
    (taken : Step scripts thread before after) : after.Sound rank := by
  have own := sound.ordered thread
  cases taken with
  | @wait _ _ semaphore rest script free =>
      rw [script] at own
      refine ⟨sound.ordered_update own.of_wait, ?_⟩
      intro other zero
      by_cases same : other = semaphore
      · refine ⟨thread, ?_⟩
        simp only [Function.update_self, same]
        exact List.mem_cons_self
      · simp only [Function.update_of_ne same] at zero
        exact sound.holder_update (List.mem_cons_of_mem _) zero
  | @post _ _ semaphore rest script =>
      rw [script] at own
      obtain ⟨under, held, outside⟩ := own.of_post
      rw [held, List.erase_cons_head]
      refine ⟨sound.ordered_update outside, ?_⟩
      intro other zero
      by_cases same : other = semaphore
      · simp only [same, Function.update_self] at zero
        exact nomatch zero
      · simp only [Function.update_of_ne same] at zero
        apply sound.holder_update _ zero
        intro holds
        rw [held] at holds
        exact List.mem_of_ne_of_mem same holds
  | @next _ _ script idle among =>
      rw [idle] at own
      have begun : Ordered rank (before.held thread) script [] := by
        rw [own.held_nil]
        exact ordered thread script among
      refine ⟨?_, sound.holder⟩
      intro other
      have goesOn : Ordered rank (Function.update before.held thread (before.held thread) other)
          (Function.update before.script thread script other) [] :=
        sound.ordered_update begun other
      rwa [Function.update_eq_self] at goesOn

end Steps

namespace State

variable {state : State Semaphore Thread}

theorem Waits.unique {thread : Thread} {first second : Semaphore} (waits : state.Waits thread first)
    (waits' : state.Waits thread second) : first = second := by
  obtain ⟨_, script⟩ := waits
  obtain ⟨_, script'⟩ := waits'
  rw [script] at script'
  cases script'
  rfl

/-- The ranks of what is waited for rise from a thread to the holder. -/
theorem Sound.rises (sound : state.Sound rank) {thread : Thread} {semaphore awaited : Semaphore}
    (holds : semaphore ∈ state.held thread) (waits : state.Waits thread awaited) :
    rank semaphore < rank awaited := by
  obtain ⟨_, script⟩ := waits
  have ordered := sound.ordered thread
  rw [script] at ordered
  exact ordered.lt_of_wait semaphore holds

theorem Sound.rises_chain (sound : state.Sound rank) {first last : Thread}
    (chain : Relation.TransGen state.WaitsFor first last) {semaphore awaited : Semaphore}
    (waits : state.Waits first semaphore) (waits' : state.Waits last awaited) :
    rank semaphore < rank awaited := by
  induction chain generalizing awaited with
  | single link =>
      obtain ⟨middle, awaits, holds⟩ := link
      rw [waits.unique awaits]
      exact sound.rises holds waits'
  | tail _ link ih =>
      obtain ⟨middle, awaits, holds⟩ := link
      exact lt_trans (ih awaits) (sound.rises holds waits')

theorem Sound.acyclic (sound : state.Sound rank) (thread : Thread) :
    ¬Relation.TransGen state.WaitsFor thread thread := by
  intro cycle
  obtain ⟨next, ⟨semaphore, waits, _⟩, _⟩ := (Relation.TransGen.head'_iff).mp cycle
  exact lt_irrefl _ (sound.rises_chain cycle waits waits)

def awaitedRank (rank : Semaphore → Nat) (state : State Semaphore Thread) (thread : Thread) : Nat :=
  match state.script thread with
  | .wait semaphore :: _ => rank semaphore + 1
  | _ => 0

theorem Waits.awaitedRank_eq {thread : Thread} {semaphore : Semaphore}
    (waits : state.Waits thread semaphore) :
    awaitedRank rank state thread = rank semaphore + 1 := by
  obtain ⟨_, script⟩ := waits
  rw [awaitedRank, script]

theorem Sound.stuck (sound : state.Sound rank) (stuck : ∀ thread, ¬state.Moves thread)
    {thread : Thread} (busy : state.script thread ≠ []) :
    ∃ semaphore other, state.Waits thread semaphore ∧ semaphore ∈ state.held other ∧
      state.script other ≠ [] := by
  have blocked := stuck thread
  simp only [Moves, not_and, not_forall, not_lt, Nat.le_zero] at blocked
  obtain ⟨semaphore, waits, zero⟩ := blocked busy
  obtain ⟨other, holds⟩ := sound.holder semaphore zero
  refine ⟨semaphore, other, waits, holds, ?_⟩
  intro idle
  have ordered := sound.ordered other
  rw [idle] at ordered
  rw [ordered.held_nil] at holds
  exact nomatch holds

/-- Otherwise the holder of the highest awaited semaphore would wait for a higher one. -/
theorem Sound.moves [Finite Thread] (sound : state.Sound rank) {thread : Thread}
    (busy : state.script thread ≠ []) : ∃ other, state.Moves other := by
  by_contra none
  have stuck : ∀ other, ¬state.Moves other := fun other moves => none ⟨other, moves⟩
  have : Nonempty Thread := ⟨thread⟩
  obtain ⟨highest, greatest⟩ := Finite.exists_max (awaitedRank rank state)
  obtain ⟨lowest, _, waits, _, _⟩ := sound.stuck stuck busy
  have waiting : state.script highest ≠ [] := by
    intro idle
    have positive := greatest thread
    rw [waits.awaitedRank_eq, awaitedRank, idle] at positive
    exact nomatch positive
  obtain ⟨semaphore, holder, waits, holds, busy'⟩ := sound.stuck stuck waiting
  obtain ⟨awaited, _, waits', _⟩ := sound.stuck stuck busy'
  have higher := greatest holder
  rw [waits.awaitedRank_eq, waits'.awaitedRank_eq] at higher
  have rises := sound.rises holds waits'
  omega

theorem Sound.deadlockFree [Finite Thread] (sound : state.Sound rank) : state.DeadlockFree where
  selfless _ _ waits holds := lt_irrefl _ (sound.rises holds waits)
  acyclic := sound.acyclic
  moves _ busy := sound.moves busy

end State

/-- Threads whose scripts are ordered never deadlock. -/
theorem deadlockFree_of_ordered [DecidableEq Semaphore] [DecidableEq Thread] [Finite Thread]
    {scripts : Thread → Script Semaphore → Prop}
    (ordered : ∀ thread script, scripts thread script → Ordered rank [] script [])
    {state : State Semaphore Thread}
    (reached : Reached (Step scripts) (fun _ _ => True) (State.start Semaphore Thread) state) :
    state.DeadlockFree := by
  have sound : state.Sound rank := by
    apply reached.invariant (fun state => state.Sound rank)
    · exact ⟨fun _ => .done, nofun⟩
    · intro thread before after sound _ taken
      exact taken.sound ordered sound
  exact sound.deadlockFree

end Foundation.Locks
