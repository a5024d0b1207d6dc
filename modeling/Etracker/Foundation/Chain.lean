import Mathlib.Logic.Function.Basic
import Mathlib.Data.List.Nodup
import Mathlib.Data.List.Perm.Subperm

/-! Doubly linked chains of cells in a partial memory.

A chain is described by the addresses and payloads of its cells in link order.
The lemmas say how a chain changes when a cell is linked in or out, in the form
of the pointer writes that do it. -/

namespace Foundation.Chain

/-- How a cell type stores its two links and what it carries besides them. -/
structure Layout (Cell Payload : Type) where
  previous : Cell → Option Nat
  next : Cell → Option Nat
  payload : Cell → Payload
  setPrevious : Option Nat → Cell → Cell
  setNext : Option Nat → Cell → Cell
  previous_setPrevious : ∀ link cell, previous (setPrevious link cell) = link
  next_setPrevious : ∀ link cell, next (setPrevious link cell) = next cell
  payload_setPrevious : ∀ link cell, payload (setPrevious link cell) = payload cell
  previous_setNext : ∀ link cell, previous (setNext link cell) = previous cell
  next_setNext : ∀ link cell, next (setNext link cell) = link
  payload_setNext : ∀ link cell, payload (setNext link cell) = payload cell

attribute [simp] Layout.previous_setPrevious Layout.next_setPrevious Layout.payload_setPrevious
  Layout.previous_setNext Layout.next_setNext Layout.payload_setNext

variable {Cell Payload : Type} (layout : Layout Cell Payload)

/-- The cells reached from `first`, whose first back link is `before` and whose
last forward link is `after`. -/
def Segment (memory : Nat → Option Cell) :
    Option Nat → Option Nat → List (Nat × Payload) → Option Nat → Prop
  | _, first, [], after => first = after
  | before, first, entry :: rest, after =>
      first = some entry.1 ∧ ∃ cell, memory entry.1 = some cell ∧
        layout.previous cell = before ∧ layout.payload cell = entry.2 ∧
        Segment memory (some entry.1) (layout.next cell) rest after

def last (before : Option Nat) : List (Nat × Payload) → Option Nat
  | [] => before
  | entry :: rest => last (some entry.1) rest

def head (after : Option Nat) : List (Nat × Payload) → Option Nat
  | [] => after
  | entry :: _ => some entry.1

def relink (memory : Nat → Option Cell) (target : Option Nat) (change : Cell → Cell) :
    Nat → Option Cell :=
  match target with
  | none => memory
  | some address => Function.update memory address ((memory address).map change)

def addresses (entries : List (Nat × Payload)) : List Nat := entries.map Prod.fst

@[simp] theorem addresses_nil : addresses ([] : List (Nat × Payload)) = [] := rfl

@[simp] theorem addresses_cons (entry : Nat × Payload) (rest : List (Nat × Payload)) :
    addresses (entry :: rest) = entry.1 :: addresses rest := rfl

@[simp] theorem addresses_append (front back : List (Nat × Payload)) :
    addresses (front ++ back) = addresses front ++ addresses back := List.map_append

@[simp] theorem relink_none (memory : Nat → Option Cell) (change : Cell → Cell) :
    relink memory none change = memory := rfl

theorem relink_other (memory : Nat → Option Cell) (target : Option Nat) (change : Cell → Cell)
    (address : Nat) (other : target ≠ some address) :
    relink memory target change address = memory address := by
  cases target with
  | none => rfl
  | some place =>
      have differs : address ≠ place := fun same => other (by rw [same])
      simp [relink, Function.update_of_ne differs]

theorem relink_same (memory : Nat → Option Cell) (address : Nat) (change : Cell → Cell) :
    relink memory (some address) change address = (memory address).map change := by
  simp [relink]

theorem last_mem (before : Option Nat) (entries : List (Nat × Payload)) :
    last before entries = before ∧ entries = [] ∨
      ∃ address ∈ addresses entries, last before entries = some address := by
  induction entries generalizing before with
  | nil => exact Or.inl ⟨rfl, rfl⟩
  | cons entry rest ih =>
      rcases ih (some entry.1) with ⟨same, _⟩ | ⟨address, member, same⟩
      · exact Or.inr ⟨entry.1, by simp, same⟩
      · exact Or.inr ⟨address, by simp [member], same⟩

variable {layout}

theorem segment_head {memory : Nat → Option Cell} {before first after : Option Nat}
    {entries : List (Nat × Payload)} (chain : Segment layout memory before first entries after) :
    first = head after entries := by
  cases entries with
  | nil => exact chain
  | cons entry rest => exact chain.1

theorem segment_append {memory : Nat → Option Cell} {before first after : Option Nat}
    {front back : List (Nat × Payload)} :
    Segment layout memory before first (front ++ back) after ↔
      ∃ middle, Segment layout memory before first front middle ∧
        Segment layout memory (last before front) middle back after := by
  induction front generalizing before first with
  | nil =>
      constructor
      · intro chain
        exact ⟨first, rfl, chain⟩
      · rintro ⟨middle, start, chain⟩
        cases start
        exact chain
  | cons entry rest ih =>
      constructor
      · rintro ⟨start, cell, stored, back, carried, chain⟩
        obtain ⟨middle, left, right⟩ := ih.mp chain
        exact ⟨middle, ⟨start, cell, stored, back, carried, left⟩, right⟩
      · rintro ⟨middle, ⟨start, cell, stored, back, carried, left⟩, right⟩
        exact ⟨start, cell, stored, back, carried, ih.mpr ⟨middle, left, right⟩⟩

theorem segment_frame {memory changed : Nat → Option Cell} {before first after : Option Nat}
    {entries : List (Nat × Payload)}
    (agree : ∀ address ∈ addresses entries, changed address = memory address)
    (chain : Segment layout memory before first entries after) :
    Segment layout changed before first entries after := by
  induction entries generalizing before first with
  | nil => exact chain
  | cons entry rest ih =>
      obtain ⟨start, cell, stored, back, carried, chain⟩ := chain
      refine ⟨start, cell, ?_, back, carried, ?_⟩
      · rw [agree entry.1 (by simp), stored]
      · exact ih (fun address member => agree address (by simp [member])) chain

theorem segment_stored {memory : Nat → Option Cell} {before first after : Option Nat}
    {entries : List (Nat × Payload)} (chain : Segment layout memory before first entries after)
    (entry : Nat × Payload) (member : entry ∈ entries) :
    ∃ cell, memory entry.1 = some cell ∧ layout.payload cell = entry.2 := by
  induction entries generalizing before first with
  | nil => cases member
  | cons head rest ih =>
      obtain ⟨_, cell, stored, _, carried, chain⟩ := chain
      rcases List.mem_cons.mp member with rfl | later
      · exact ⟨cell, stored, carried⟩
      · exact ih chain later

theorem segment_middle {memory : Nat → Option Cell} {before first after : Option Nat}
    {front back : List (Nat × Payload)} {entry : Nat × Payload}
    (chain : Segment layout memory before first (front ++ entry :: back) after) :
    ∃ cell, memory entry.1 = some cell ∧ layout.previous cell = last before front ∧
      layout.next cell = head after back ∧ layout.payload cell = entry.2 := by
  obtain ⟨middle, _, _, cell, stored, back, carried, rest⟩ := segment_append.mp chain
  exact ⟨cell, stored, back, segment_head rest, carried⟩

theorem segment_relink_first {memory : Nat → Option Cell} {before first after : Option Nat}
    (link : Option Nat) {entries : List (Nat × Payload)} (distinct : (addresses entries).Nodup)
    (chain : Segment layout memory before first entries after) :
    Segment layout (relink memory (head none entries) (layout.setPrevious link)) link first
      entries after := by
  cases entries with
  | nil => exact chain
  | cons entry rest =>
      obtain ⟨start, cell, stored, _, carried, chain⟩ := chain
      refine ⟨start, layout.setPrevious link cell, ?_, by simp, by simpa using carried, ?_⟩
      · simp [head, relink_same, stored]
      · rw [layout.next_setPrevious]
        refine segment_frame ?_ chain
        intro address member
        apply relink_other
        rintro same
        cases same
        exact (List.nodup_cons.mp distinct).1 member

theorem segment_relink_last {memory : Nat → Option Cell} {before first after : Option Nat}
    (link : Option Nat) {entries : List (Nat × Payload)} (occupied : entries ≠ [])
    (distinct : (addresses entries).Nodup)
    (chain : Segment layout memory before first entries after) :
    Segment layout (relink memory (last none entries) (layout.setNext link)) before first
      entries link := by
  induction entries generalizing before first with
  | nil => exact absurd rfl occupied
  | cons entry rest ih =>
      obtain ⟨start, cell, stored, back, carried, chain⟩ := chain
      cases rest with
      | nil =>
          refine ⟨start, layout.setNext link cell, ?_, by simpa using back,
            by simpa using carried, by simp [Segment]⟩
          simp [last, relink_same, stored]
      | cons second tail =>
          have outside : entry.1 ∉ addresses (second :: tail) := (List.nodup_cons.mp distinct).1
          refine ⟨start, cell, ?_, back, carried,
            ih (by simp) (List.nodup_cons.mp distinct).2 chain⟩
          rw [relink_other, stored]
          intro same
          rcases last_mem none (entry :: second :: tail) with ⟨_, absurdity⟩ | ⟨address, _, found⟩
          · cases absurdity
          · rcases last_mem (some second.1) tail with ⟨atSecond, _⟩ | ⟨place, inside, atPlace⟩
            · have : last none (entry :: second :: tail) = some second.1 := atSecond
              rw [this] at same
              exact outside (by simp [← Option.some.inj same])
            · have : last none (entry :: second :: tail) = some place := atPlace
              rw [this] at same
              exact outside (by simp [← Option.some.inj same, inside])

def insertCell (layout : Layout Cell Payload) (memory : Nat → Option Cell) (address : Nat)
    (cell : Cell) : Nat → Option Cell :=
  let written := Function.update memory address (some cell)
  let forward := relink written (layout.previous cell) (layout.setNext (some address))
  relink forward (layout.next cell) (layout.setPrevious (some address))

def removeCell (layout : Layout Cell Payload) (memory : Nat → Option Cell) (address : Nat)
    (cell : Cell) : Nat → Option Cell :=
  let forward := relink memory (layout.previous cell) (layout.setNext (layout.next cell))
  let backward := relink forward (layout.next cell) (layout.setPrevious (layout.previous cell))
  Function.update backward address none

theorem head_mem (entries : List (Nat × Payload)) :
    head none entries = none ∧ entries = [] ∨
      ∃ address ∈ addresses entries, head none entries = some address := by
  cases entries with
  | nil => exact Or.inl ⟨rfl, rfl⟩
  | cons entry rest => exact Or.inr ⟨entry.1, by simp, rfl⟩

theorem last_ne (entries : List (Nat × Payload)) (address : Nat)
    (outside : address ∉ addresses entries) : last none entries ≠ some address := by
  rcases last_mem none entries with ⟨empty, _⟩ | ⟨place, inside, found⟩
  · simp [empty]
  · rw [found]
    rintro same
    exact outside (Option.some.inj same ▸ inside)

theorem head_ne (entries : List (Nat × Payload)) (address : Nat)
    (outside : address ∉ addresses entries) : head none entries ≠ some address := by
  rcases head_mem entries with ⟨empty, _⟩ | ⟨place, inside, found⟩
  · simp [empty]
  · rw [found]
    rintro same
    exact outside (Option.some.inj same ▸ inside)

/-- Rewriting the end of the front part and the start of the back part of a
chain leaves two chains whose open ends are the new links. -/
theorem segment_relink_both {memory : Nat → Option Cell} {first middle : Option Nat}
    (forward backward : Option Nat) {front back : List (Nat × Payload)}
    (distinct : (addresses (front ++ back)).Nodup)
    (left : Segment layout memory none first front middle)
    (right : Segment layout memory (last none front) middle back none) :
    let changed := relink (relink memory (last none front) (layout.setNext forward))
      (head none back) (layout.setPrevious backward)
    (front ≠ [] → Segment layout changed none first front forward) ∧
      Segment layout changed backward middle back none := by
  intro changed
  rw [addresses_append] at distinct
  obtain ⟨leftDistinct, rightDistinct, apart⟩ := List.nodup_append.mp distinct
  constructor
  · intro occupied
    refine segment_frame ?_ (segment_relink_last forward occupied leftDistinct left)
    intro address member
    exact relink_other _ _ _ _
      (head_ne back address (fun inside => apart address member address inside rfl))
  · apply segment_relink_first backward rightDistinct
    refine segment_frame ?_ right
    intro address member
    exact relink_other _ _ _ _
      (last_ne front address (fun inside => apart address inside address member rfl))

theorem relink_both_other (memory : Nat → Option Cell) (forward backward : Cell → Cell)
    (front back : List (Nat × Payload)) (address : Nat)
    (outside : address ∉ addresses (front ++ back)) :
    relink (relink memory (last none front) forward) (head none back) backward address =
      memory address := by
  rw [addresses_append, List.mem_append, not_or] at outside
  rw [relink_other _ _ _ _ (head_ne back address outside.2),
    relink_other _ _ _ _ (last_ne front address outside.1)]

theorem segment_insert {memory : Nat → Option Cell} {first : Option Nat}
    {front back : List (Nat × Payload)} {address : Nat} {cell : Cell}
    (distinct : (addresses (front ++ back)).Nodup)
    (outside : address ∉ addresses (front ++ back))
    (chain : Segment layout memory none first (front ++ back) none)
    (backLink : layout.previous cell = last none front)
    (forwardLink : layout.next cell = head none back) :
    Segment layout (insertCell layout memory address cell) none
      (if last none front = none then some address else first)
      (front ++ (address, layout.payload cell) :: back) none := by
  let written := Function.update memory address (some cell)
  have framed : Segment layout written none first (front ++ back) none := by
    refine segment_frame ?_ chain
    intro place member
    exact Function.update_of_ne (ne_of_mem_of_not_mem member outside) _ _
  obtain ⟨middle, left, right⟩ := segment_append.mp framed
  obtain ⟨newLeft, newRight⟩ :=
    segment_relink_both (some address) (some address) distinct left right
  have result : insertCell layout memory address cell =
      relink (relink written (last none front) (layout.setNext (some address)))
        (head none back) (layout.setPrevious (some address)) := by
    simp only [insertCell, backLink, forwardLink, written]
  rw [result]
  have stored : relink (relink written (last none front) (layout.setNext (some address)))
      (head none back) (layout.setPrevious (some address)) address = some cell := by
    rw [relink_both_other _ _ _ _ _ _ outside]
    exact Function.update_self _ _ _
  rw [segment_append]
  refine ⟨some address, ?_, rfl, cell, stored, backLink, rfl, ?_⟩
  · cases front with
    | nil => rfl
    | cons entry rest =>
        have present : last none (entry :: rest) ≠ none := by
          rcases last_mem none (entry :: rest) with ⟨_, absurdity⟩ | ⟨place, _, found⟩
          · cases absurdity
          · simp [found]
        rw [if_neg present]
        exact newLeft (by simp)
  · rw [forwardLink]
    rw [← segment_head right]
    rw [segment_head right] at newRight ⊢
    exact newRight

theorem segment_remove {memory : Nat → Option Cell} {first : Option Nat}
    {front back : List (Nat × Payload)} {entry : Nat × Payload} {cell : Cell}
    (distinct : (addresses (front ++ entry :: back)).Nodup)
    (chain : Segment layout memory none first (front ++ entry :: back) none)
    (stored : memory entry.1 = some cell) :
    Segment layout (removeCell layout memory entry.1 cell) none
      (if layout.previous cell = none then layout.next cell else first)
      (front ++ back) none := by
  obtain ⟨middle, left, start, found, stored', backLink, _, right⟩ := segment_append.mp chain
  cases (stored.symm.trans stored' : some cell = some found)
  have forwardLink : layout.next cell = head none back := segment_head right
  have remaining : (addresses (front ++ back)).Nodup := by
    rw [addresses_append, addresses_cons] at distinct
    rw [addresses_append]
    exact distinct.sublist (by simp)
  have outside : entry.1 ∉ addresses (front ++ back) := by
    rw [addresses_append, addresses_cons, List.nodup_middle] at distinct
    simpa using (List.nodup_cons.mp distinct).1
  -- Without the removed cell the back part hangs behind the front part.
  have hanging : Segment layout
      (relink memory (head none back) (layout.setPrevious (last none front)))
      (last none front) (layout.next cell) back none := by
    refine segment_relink_first _ ?_ right
    rw [addresses_append] at remaining
    exact (List.nodup_append.mp remaining).2.1
  have freed : ∀ address ∈ addresses (front ++ back),
      removeCell layout memory entry.1 cell address =
        relink (relink memory (last none front) (layout.setNext (layout.next cell)))
          (head none back) (layout.setPrevious (last none front)) address := by
    intro address member
    simp only [removeCell, backLink, forwardLink]
    exact Function.update_of_ne (ne_of_mem_of_not_mem member outside) _ _
  rw [addresses_append] at remaining
  obtain ⟨leftDistinct, rightDistinct, apart⟩ := List.nodup_append.mp remaining
  rw [segment_append]
  refine ⟨layout.next cell, ?_, ?_⟩
  · cases front with
    | nil => simp [backLink, last, Segment]
    | cons lead rest =>
        have present : layout.previous cell ≠ none := by
          rcases last_mem none (lead :: rest) with ⟨_, absurdity⟩ | ⟨place, _, found⟩
          · cases absurdity
          · rw [backLink, found]
            simp
        rw [if_neg present]
        refine segment_frame ?_ (segment_relink_last (layout.next cell) (by simp) leftDistinct left)
        intro address member
        rw [freed address (by rw [addresses_append]; exact List.mem_append_left _ member)]
        exact relink_other _ _ _ _
          (head_ne back address (fun inside => apart address member address inside rfl))
  · refine segment_frame ?_ hanging
    intro address member
    rw [freed address (by simp [member])]
    by_cases atHead : head none back = some address
    · rw [atHead, relink_same, relink_same, relink_other]
      exact last_ne front address (fun inside => apart address inside address member rfl)
    · rw [relink_other _ _ _ _ atHead, relink_other _ _ _ _ atHead, relink_other]
      exact last_ne front address (fun inside => apart address inside address member rfl)

variable (layout) in
theorem relink_some {memory : Nat → Option Cell} {target : Option Nat} {change : Cell → Cell}
    (keeps : ∀ cell, layout.payload (change cell) = layout.payload cell)
    {address : Nat} {changed : Cell} (found : relink memory target change address = some changed) :
    ∃ cell, memory address = some cell ∧ layout.payload changed = layout.payload cell := by
  by_cases here : target = some address
  · rw [here, relink_same, Option.map_eq_some_iff] at found
    obtain ⟨cell, stored, rfl⟩ := found
    exact ⟨cell, stored, keeps cell⟩
  · rw [relink_other _ _ _ _ here] at found
    exact ⟨changed, found, rfl⟩

variable (layout) in
theorem insertCell_some {memory : Nat → Option Cell} {place address : Nat} {cell changed : Cell}
    (found : insertCell layout memory place cell address = some changed) :
    address = place ∧ layout.payload changed = layout.payload cell ∨
      ∃ original, memory address = some original ∧
        layout.payload changed = layout.payload original := by
  obtain ⟨second, found, same⟩ := relink_some layout (by simp) found
  obtain ⟨first, found, same'⟩ := relink_some layout (by simp) found
  by_cases here : address = place
  · rw [here, Function.update_self] at found
    cases found
    exact Or.inl ⟨here, same.trans same'⟩
  · rw [Function.update_of_ne here] at found
    exact Or.inr ⟨first, found, same.trans same'⟩

theorem insertCell_other {memory : Nat → Option Cell} {place address : Nat} {cell : Cell}
    {front back : List (Nat × Payload)}
    (backLink : layout.previous cell = last none front)
    (forwardLink : layout.next cell = head none back)
    (differs : address ≠ place) (outside : address ∉ addresses (front ++ back)) :
    insertCell layout memory place cell address = memory address := by
  simp only [insertCell, backLink, forwardLink]
  rw [relink_both_other _ _ _ _ _ _ outside]
  exact Function.update_of_ne differs _ _

variable (layout) in
theorem removeCell_some {memory : Nat → Option Cell} {place address : Nat} {cell changed : Cell}
    (found : removeCell layout memory place cell address = some changed) :
    address ≠ place ∧ ∃ original, memory address = some original ∧
      layout.payload changed = layout.payload original := by
  by_cases here : address = place
  · rw [here] at found
    simp [removeCell] at found
  · refine ⟨here, ?_⟩
    simp only [removeCell, Function.update_of_ne here] at found
    obtain ⟨second, found, same⟩ := relink_some layout (by simp) found
    obtain ⟨first, found, same'⟩ := relink_some layout (by simp) found
    exact ⟨first, found, same.trans same'⟩

theorem removeCell_other {memory : Nat → Option Cell} {address : Nat} {cell : Cell}
    {front back : List (Nat × Payload)} {entry : Nat × Payload}
    (backLink : layout.previous cell = last none front)
    (forwardLink : layout.next cell = head none back)
    (outside : address ∉ addresses (front ++ entry :: back)) :
    removeCell layout memory entry.1 cell address = memory address := by
  simp only [addresses_append, addresses_cons, List.mem_append, List.mem_cons, not_or] at outside
  simp only [removeCell, backLink, forwardLink]
  rw [Function.update_of_ne outside.2.1, relink_both_other]
  simp [outside.1, outside.2.2]

theorem segment_update {memory : Nat → Option Cell} {before first after : Option Nat}
    {front back : List (Nat × Payload)} {entry : Nat × Payload} {cell changed : Cell}
    (distinct : (addresses (front ++ entry :: back)).Nodup)
    (chain : Segment layout memory before first (front ++ entry :: back) after)
    (stored : memory entry.1 = some cell)
    (backLink : layout.previous changed = layout.previous cell)
    (forwardLink : layout.next changed = layout.next cell) :
    Segment layout (Function.update memory entry.1 (some changed)) before first
      (front ++ (entry.1, layout.payload changed) :: back) after := by
  have outside : entry.1 ∉ addresses (front ++ back) := by
    rw [addresses_append, addresses_cons, List.nodup_middle] at distinct
    simpa using (List.nodup_cons.mp distinct).1
  have agree : ∀ address ∈ addresses (front ++ back),
      Function.update memory entry.1 (some changed) address = memory address := by
    intro address member
    exact Function.update_of_ne (ne_of_mem_of_not_mem member outside) _ _
  obtain ⟨middle, left, start, found, stored', back', _, right⟩ := segment_append.mp chain
  cases (stored.symm.trans stored' : some cell = some found)
  refine segment_append.mpr ⟨middle, segment_frame ?_ left, start, changed,
    Function.update_self _ _ _, backLink.trans back', rfl, ?_⟩
  · intro address member
    exact agree address (by simp [member])
  · rw [forwardLink]
    exact segment_frame (fun address member => agree address (by simp [member])) right

def read (layout : Layout Cell Payload) (memory : Nat → Option Cell) :
    Nat → Option Nat → List (Nat × Payload)
  | _, none => []
  | 0, some _ => []
  | fuel + 1, some address =>
      match memory address with
      | none => []
      | some cell => (address, layout.payload cell) :: read layout memory fuel (layout.next cell)

theorem read_map {change : Cell → Cell} (carry : Payload → Payload)
    (keepsNext : ∀ cell, layout.next (change cell) = layout.next cell)
    (carries : ∀ cell, layout.payload (change cell) = carry (layout.payload cell))
    (memory : Nat → Option Cell) (fuel : Nat) (first : Option Nat) :
    read layout (fun address => (memory address).map change) fuel first =
      (read layout memory fuel first).map fun entry => (entry.1, carry entry.2) := by
  induction fuel generalizing first with
  | zero => cases first <;> rfl
  | succ fuel ih =>
      cases first with
      | none => rfl
      | some address =>
          cases stored : memory address with
          | none => simp [read, stored]
          | some cell => simp [read, stored, keepsNext, carries, ih]

theorem read_segment {memory : Nat → Option Cell} {before first : Option Nat}
    {entries : List (Nat × Payload)} (fuel : Nat) (enough : entries.length ≤ fuel)
    (chain : Segment layout memory before first entries none) :
    read layout memory fuel first = entries := by
  induction entries generalizing before first fuel with
  | nil =>
      cases (chain : first = none)
      cases fuel <;> rfl
  | cons entry rest ih =>
      obtain ⟨start, cell, stored, _, carried, chain⟩ := chain
      subst start
      cases fuel with
      | zero => simp at enough
      | succ fuel =>
          simp only [read, stored, carried]
          rw [ih fuel (by simpa using enough) chain]

theorem length_le_of_addresses_lt {entries : List (Nat × Payload)} {bound : Nat}
    (distinct : (addresses entries).Nodup) (below : ∀ address ∈ addresses entries, address < bound) :
    entries.length ≤ bound := by
  have inside : addresses entries ⊆ List.range bound := by
    intro address member
    exact List.mem_range.mpr (below address member)
  have bounded := (distinct.subperm inside).length_le
  simpa [addresses] using bounded

end Foundation.Chain
