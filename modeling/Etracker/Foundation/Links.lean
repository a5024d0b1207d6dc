import Mathlib.Data.List.Nodup
import Mathlib.Logic.Function.Basic

namespace Foundation.Links

variable {Address Cell Payload : Type} (next : Cell → Option Address) (payload : Cell → Payload)

def Chained (memory : Address → Option Cell) : Option Address → List (Address × Payload) → Prop
  | first, [] => first = none
  | first, entry :: rest => first = some entry.1 ∧ ∃ cell, memory entry.1 = some cell ∧
      payload cell = entry.2 ∧ Chained memory (next cell) rest

def addresses (entries : List (Address × Payload)) : List Address := entries.map Prod.fst

def last (entries : List (Address × Payload)) : Option Address := (addresses entries).getLast?

@[simp] theorem last_nil : last ([] : List (Address × Payload)) = none := rfl

@[simp] theorem last_concat (front : List (Address × Payload)) (entry : Address × Payload) :
    last (front ++ [entry]) = some entry.1 := by
  simp [last, addresses]

theorem last_cons {rest : List (Address × Payload)} (entry : Address × Payload)
    (more : rest ≠ []) : last (entry :: rest) = last rest := by
  have occupied : addresses rest ≠ [] := by simpa [addresses] using more
  exact List.getLast?_cons_of_ne_nil occupied

theorem last_eq_none {entries : List (Address × Payload)} : last entries = none ↔ entries = [] := by
  simp [last, addresses]

variable {next payload} {memory : Address → Option Cell}

theorem linked_eq_none {first : Option Address} {entries : List (Address × Payload)}
    (linked : Chained next payload memory first entries) : first = none ↔ entries = [] := by
  cases entries with
  | nil => exact iff_of_true linked rfl
  | cons entry rest =>
      rw [linked.1]
      exact iff_of_false (Option.some_ne_none _) (List.cons_ne_nil _ _)

theorem linked_unique {first : Option Address} {entries others : List (Address × Payload)}
    (linked : Chained next payload memory first entries)
    (linked' : Chained next payload memory first others) : entries = others := by
  induction entries generalizing first others with
  | nil => exact ((linked_eq_none linked').mp linked).symm
  | cons entry rest ih =>
      cases others with
      | nil => exact (linked_eq_none linked).mp linked'
      | cons other more =>
          obtain ⟨start, cell, stored, carried, linked⟩ := linked
          obtain ⟨start', cell', stored', carried', linked'⟩ := linked'
          have place : entry.1 = other.1 := Option.some.inj (start.symm.trans start')
          have same : cell = cell' := by
            rw [place] at stored
            exact Option.some.inj (stored.symm.trans stored')
          subst same
          rw [Prod.ext place (carried.symm.trans carried'), ih linked linked']

theorem linked_suffix {first : Option Address} {entries : List (Address × Payload)}
    {address : Address} (linked : Chained next payload memory first entries)
    (member : address ∈ addresses entries) :
    ∃ front back, entries = front ++ back ∧ Chained next payload memory (some address) back := by
  induction entries generalizing first with
  | nil => cases member
  | cons entry rest ih =>
      rcases List.mem_cons.mp member with same | later
      · refine ⟨[], entry :: rest, rfl, ?_⟩
        rw [same, ← linked.1]
        exact linked
      · obtain ⟨_, cell, _, _, linked⟩ := linked
        obtain ⟨front, back, split, found⟩ := ih linked later
        exact ⟨entry :: front, back, by rw [split, List.cons_append], found⟩

theorem linked_nodup {first : Option Address} {entries : List (Address × Payload)}
    (linked : Chained next payload memory first entries) : (addresses entries).Nodup := by
  induction entries generalizing first with
  | nil => exact List.nodup_nil
  | cons entry rest ih =>
      have whole := linked
      obtain ⟨start, cell, _, _, linked⟩ := linked
      apply List.nodup_cons.mpr
      constructor
      · intro member
        obtain ⟨front, back, split, found⟩ := linked_suffix linked member
        have same : back = entry :: rest := linked_unique found (start ▸ whole)
        have lengths := congrArg List.length split
        rw [same, List.length_append, List.length_cons] at lengths
        omega
      · exact ih linked

theorem linked_frame {changed : Address → Option Cell} {first : Option Address}
    {entries : List (Address × Payload)}
    (agree : ∀ address ∈ addresses entries, changed address = memory address)
    (linked : Chained next payload memory first entries) :
    Chained next payload changed first entries := by
  induction entries generalizing first with
  | nil => exact linked
  | cons entry rest ih =>
      obtain ⟨start, cell, stored, carried, linked⟩ := linked
      have here : changed entry.1 = some cell :=
        (agree entry.1 List.mem_cons_self).trans stored
      exact ⟨start, cell, here, carried,
        ih (fun address member => agree address (List.mem_cons_of_mem _ member)) linked⟩

theorem linked_stored {first : Option Address} {entries : List (Address × Payload)}
    (linked : Chained next payload memory first entries) {entry : Address × Payload}
    (member : entry ∈ entries) : ∃ cell, memory entry.1 = some cell ∧ payload cell = entry.2 := by
  induction entries generalizing first with
  | nil => cases member
  | cons head rest ih =>
      obtain ⟨_, cell, stored, carried, linked⟩ := linked
      rcases List.mem_cons.mp member with same | later
      · exact same ▸ ⟨cell, stored, carried⟩
      · exact ih linked later

theorem last_mem {entries : List (Address × Payload)} {address : Address}
    (found : last entries = some address) : address ∈ addresses entries :=
  List.mem_of_getLast? found

section Append

variable [DecidableEq Address] {first : Option Address} {entries : List (Address × Payload)}

theorem linked_concat {place fresh : Address} {cell changed added : Cell}
    (linked : Chained next payload memory first entries) (tail : last entries = some place)
    (stored : memory place = some cell) (free : fresh ∉ addresses entries)
    (link : next changed = some fresh) (kept : payload changed = payload cell)
    (final : next added = none) :
    Chained next payload
      (Function.update (Function.update memory fresh (some added)) place (some changed)) first
      (entries ++ [(fresh, payload added)]) := by
  induction entries generalizing first with
  | nil => cases tail
  | cons entry rest ih =>
      have distinct := List.nodup_cons.mp (linked_nodup linked)
      obtain ⟨start, here, found, carried, linked⟩ := linked
      have free' := not_or.mp (mt List.mem_cons.mpr free)
      refine ⟨start, ?_⟩
      cases rest with
      | nil =>
          have same : entry.1 = place := Option.some.inj tail
          have one : here = cell := by
            rw [same] at found
            exact Option.some.inj (found.symm.trans stored)
          have apart : fresh ≠ place := same ▸ free'.1
          refine ⟨changed, ?_, ?_, ?_⟩
          · rw [same, Function.update_self]
          · rw [kept, ← one, carried]
          · refine ⟨link, added, ?_, rfl, final⟩
            rw [Function.update_of_ne apart, Function.update_self]
      | cons second more =>
          have tail' : last (second :: more) = some place :=
            (last_cons entry (List.cons_ne_nil _ _)).symm.trans tail
          have apart : entry.1 ≠ place := fun same => distinct.1 (same ▸ last_mem tail')
          refine ⟨here, ?_, carried, ih linked tail' free'.2⟩
          rw [Function.update_of_ne apart, Function.update_of_ne (Ne.symm free'.1), found]

end Append

end Foundation.Links
