import Etracker.Foundation.Keyed
import Etracker.HashList.Invariant

/-! The entries of a list as one sequence with unique hashes, and the abstract
map they form. -/

namespace Etracker

open Foundation Foundation.CString Foundation.Chain

variable {α σ : Type}

/-- What every operation but `initList` and the semaphores leaves alone. -/
structure SameFrame (list list' : HashList α) : Prop where
  header : list'.toListHeader = list.toListHeader
  semaphore : list'.semaphore = list.semaphore

theorem SameFrame.refl (list : HashList α) : SameFrame list list := ⟨rfl, rfl⟩

theorem SameFrame.trans {first second third : HashList α} (left : SameFrame first second)
    (right : SameFrame second third) : SameFrame first third :=
  ⟨right.header.trans left.header, right.semaphore.trans left.semaphore⟩

theorem Inv.of_frame {list list' : HashList α} (inv : Inv list) (frame : SameFrame list list')
    (linked : Linked list') : Inv list' := by
  obtain ⟨header, semaphore⟩ := frame
  refine ⟨linked, ?_, ?_, ?_, ?_⟩
  · rw [header]; exact inv.level_limit
  · rw [header]; exact inv.level_hash
  · rw [header]; exact inv.leafSemaphore
  · rw [semaphore, header]; exact inv.semaphores

def entryHash (entry : Entry α) : Hash := entry.2.hash

theorem lookup_eq_findKey (list : HashList α) :
    list.lookup = Keyed.findKey entryHash list.entries := rfl

section Content

variable {list : HashList α} {content : Path → List (Entry α)}

theorem Represents.entries_eq (rep : Represents list content) :
    list.entries = (leafPaths list.level []).flatMap content := by
  rw [HashList.entries, rep.leafEntries_eq]

theorem Represents.mem_entries (rep : Represents list content) {entry : Entry α} :
    entry ∈ list.entries ↔ entry ∈ content (list.getLeaf entry.2.hash) := by
  rw [rep.entries_eq, List.mem_flatMap]
  constructor
  · rintro ⟨path, _, member⟩
    rw [(rep.routed path entry member).2.2]
    exact member
  · intro member
    exact ⟨_, getLeaf_mem list.toListHeader entry.2.hash, member⟩

theorem Represents.entries_hash_nodup (rep : Represents list content) :
    (list.entries.map entryHash).Nodup := by
  rw [rep.entries_eq, List.map_flatMap, List.nodup_flatMap]
  refine ⟨fun path _ => rep.hash_nodup path, ?_⟩
  refine (leafPaths_nodup list.level []).imp ?_
  intro left right differ hash inLeft inRight
  obtain ⟨first, firstMember, rfl⟩ := List.mem_map.mp inLeft
  obtain ⟨second, secondMember, same⟩ := List.mem_map.mp inRight
  have leftRoute := (rep.routed left first firstMember).2.2
  have rightRoute := (rep.routed right second secondMember).2.2
  simp only [entryHash] at same
  rw [same, leftRoute] at rightRoute
  exact differ rightRoute

theorem Represents.entries_update (rep : Represents list content) (hash : Hash) :
    ∃ front back, list.entries = front ++ content (list.getLeaf hash) ++ back ∧
      ∀ (list' : HashList α) (replacement : List (Entry α)),
        list'.toListHeader = list.toListHeader →
        Represents list' (Function.update content (list.getLeaf hash) replacement) →
        list'.entries = front ++ replacement ++ back := by
  obtain ⟨front, back, replace⟩ := Splice.flatMap_update (leafPaths list.level [])
    (leafPaths_nodup list.level []) content _ (getLeaf_mem list.toListHeader hash)
  refine ⟨front, back, ?_, ?_⟩
  · rw [rep.entries_eq, ← replace, Function.update_eq_self]
  · intro list' replacement header rep'
    rw [rep'.entries_eq, header, replace]

end Content

section Lookup

variable {list : HashList α} (linked : Linked list)
include linked

theorem entries_hash_nodup : (list.entries.map entryHash).Nodup :=
  Represents.entries_hash_nodup linked

theorem entries_nodup : list.entries.Nodup := List.Nodup.of_map _ (entries_hash_nodup linked)

theorem mem_entries {entry : Entry α} :
    entry ∈ list.entries ↔ entry ∈ list.leafEntries (list.getLeaf entry.2.hash) :=
  Represents.mem_entries linked

theorem lookup_eq_some_iff {hash : Hash} {entry : Entry α} :
    list.lookup hash = some entry ↔ entry ∈ list.entries ∧ entry.2.hash = hash :=
  Keyed.findKey_eq_some_iff (entries_hash_nodup linked)

theorem entry_facts {entry : Entry α} (member : entry ∈ list.entries) :
    entry.2.hash.length = list.hashLength ∧ entry.2.leaf = list.getLeaf entry.2.hash := by
  have inside := (mem_entries linked).mp member
  obtain ⟨length, leaf, _⟩ := linked.routed _ entry inside
  exact ⟨length, leaf⟩

theorem entry_stored {entry : Entry α} (member : entry ∈ list.entries) :
    ∃ item, list.items entry.1 = some item ∧ item.hash = entry.2.hash ∧
      item.leaf = entry.2.leaf ∧ item.data = entry.2.data :=
  Represents.stored linked ((mem_entries linked).mp member)

theorem lookup_eq_leaf (hash : Hash) :
    list.lookup hash =
      Keyed.findKey entryHash (list.leafEntries (list.getLeaf hash)) hash := by
  have distinct : ((list.leafEntries (list.getLeaf hash)).map entryHash).Nodup :=
    Represents.hash_nodup linked (list.getLeaf hash)
  apply Option.ext
  intro entry
  rw [lookup_eq_some_iff linked, Keyed.findKey_eq_some_iff distinct, mem_entries linked]
  constructor
  · rintro ⟨member, rfl⟩
    exact ⟨member, rfl⟩
  · rintro ⟨member, same⟩
    simp only [entryHash] at same
    exact ⟨by rw [same]; exact member, same⟩

end Lookup

theorem lookup_eq_none_iff {list : HashList α} {hash : Hash} :
    list.lookup hash = none ↔ ∀ entry ∈ list.entries, entry.2.hash ≠ hash :=
  Keyed.findKey_eq_none_iff

theorem lookup_mem {list : HashList α} {hash : Hash} {entry : Entry α}
    (found : list.lookup hash = some entry) : entry ∈ list.entries ∧ entry.2.hash = hash :=
  Keyed.findKey_mem found

theorem newList_represents (header : ListHeader) :
    Represents (header.newList : HashList α) fun _ => [] where
  linked _ := rfl
  sorted _ := List.Pairwise.nil
  routed _ _ member := nomatch member
  allocated _ _ found := nomatch found

theorem newList_inv (header : ListHeader) (limit : header.level ≤ listLimitLevel)
    (fits : header.level ≤ header.hashLength)
    (leafSemaphore : header.semaphoreEnabled.global = true → header.semaphoreEnabled.leaf = true) :
    Inv (header.newList : HashList α) :=
  ⟨(newList_represents header).toLinked, limit, fits, leafSemaphore, rfl⟩

@[simp] theorem newList_entries (header : ListHeader) :
    (header.newList : HashList α).entries = [] := by
  rw [(newList_represents header).entries_eq]
  simp

theorem initList_ok {level hashLength : Nat} (enabled : SemaphoreEnabled)
    (endianness : Endianness) (limit : level ≤ listLimitLevel) (fits : level ≤ hashLength) :
    (initList level hashLength enabled endianness : Except Fault (HashList α)) =
      .ok (ListHeader.newList ⟨endianness, hashLength, level, enabled⟩) := by
  have small : ¬ level > listLimitLevel := by omega
  have short : ¬ level > hashLength := by omega
  simp [initList, small, short, pure, Except.pure]

end Etracker
