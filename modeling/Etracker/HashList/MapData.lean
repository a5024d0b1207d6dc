import Etracker.HashList.Values

namespace Etracker

open Foundation Foundation.Chain Foundation.Outcome

variable {α : Type}

def HashList.mapData (list : HashList α) (change : Hash → α → α) : HashList α :=
  { list with
    items := fun address => (list.items address).map fun item =>
      { item with data := item.data.map (change item.hash) } }

variable (change : Hash → α → α)

theorem mapData_leafEntries (list : HashList α) (leaf : Path) :
    (list.mapData change).leafEntries leaf = (list.leafEntries leaf).map fun entry =>
      (entry.1, { entry.2 with data := entry.2.data.map (change entry.2.hash) }) := by
  apply read_map fun stored : Stored α =>
    { stored with data := stored.data.map (change stored.hash) }
  · intro item
    rfl
  · intro item
    rfl

theorem mapData_pairs (list : HashList α) :
    (list.mapData change).pairs = list.pairs.map fun pair => (pair.1, change pair.1 pair.2) := by
  have entries : (list.mapData change).entries = list.entries.map fun entry =>
      (entry.1, { entry.2 with data := entry.2.data.map (change entry.2.hash) }) := by
    rw [HashList.entries, HashList.entries, List.map_flatMap]
    congr 1
    funext leaf
    exact mapData_leafEntries change list leaf
  rw [HashList.pairs, HashList.pairs, entries, List.filterMap_map, List.map_filterMap]
  congr 1
  funext entry
  cases stored : entry.2.data <;> simp [entryPair, stored]

theorem setData_mapData {list left right : HashList α} {item : Address} {stored : Item α}
    (present : list.deref item = .ok stored) {first second : α}
    (same : change stored.hash first = change stored.hash second)
    (leftStored : list.setData item (some first) = .ok left)
    (rightStored : list.setData item (some second) = .ok right) :
    left.mapData change = right.mapData change := by
  simp only [HashList.setData, HashList.modify, present, ok_bind, pure_eq_ok, Except.ok.injEq]
    at leftStored rightStored
  rw [← leftStored, ← rightStored]
  simp only [HashList.mapData, HashList.mk.injEq, true_and, and_true]
  funext address
  by_cases here : address = item
  · subst here
    simp [same]
  · simp [Function.update_of_ne here]

end Etracker
