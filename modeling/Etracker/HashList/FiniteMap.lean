import Etracker.HashList.Update

namespace Etracker

open Foundation Foundation.CString Foundation.Chain Foundation.Outcome

variable {α : Type}

abbrev ItemMap (α : Type) := Hash → Option (Address × Option α)

def HashList.itemMap (list : HashList α) : ItemMap α :=
  fun hash => (list.lookup hash).map fun entry => (entry.1, entry.2.data)

/-- The calls on a list. `storeData` is the assignment `item->data = data` that
callers make through an item pointer. -/
inductive Operation (α : Type)
  | setHash (hash : Hash)
  | getHash (hash : Hash)
  | deleteHash (hash : Hash)
  | deleteItem (item : Address)
  | storeData (item : Address) (data : Option α)

inductive MapStep : ItemMap α → Operation α → Option Address → ItemMap α → Prop
  | setHashFound {map : ItemMap α} {hash : Hash} {item : Address × Option α} :
      map hash = some item → MapStep map (.setHash hash) (some item.1) map
  | setHashInserted {map : ItemMap α} {hash : Hash} {address : Address} :
      map hash = none → (∀ other item, map other = some item → item.1 ≠ address) →
      MapStep map (.setHash hash) (some address)
        (Function.update map hash (some (address, none)))
  | getHash {map : ItemMap α} {hash : Hash} :
      MapStep map (.getHash hash) ((map hash).map Prod.fst) map
  | deleteHash {map : ItemMap α} {hash : Hash} :
      MapStep map (.deleteHash hash) none (Function.update map hash none)
  | deleteItem {map : ItemMap α} {hash : Hash} {item : Address × Option α} :
      map hash = some item →
      MapStep map (.deleteItem item.1) none (Function.update map hash none)
  | storeData {map : ItemMap α} {hash : Hash} {item : Address × Option α} {data : Option α} :
      map hash = some item →
      MapStep map (.storeData item.1 data) none (Function.update map hash (some (item.1, data)))

inductive MapRun : ItemMap α → List (Operation α) → List (Option Address) → ItemMap α → Prop
  | nil {map : ItemMap α} : MapRun map [] [] map
  | cons {map map' map'' : ItemMap α} {operation : Operation α} {answer : Option Address}
      {rest : List (Operation α)} {answers : List (Option Address)} :
      MapStep map operation answer map' → MapRun map' rest answers map'' →
      MapRun map (operation :: rest) (answer :: answers) map''

def Operation.perform (list : HashList α) :
    Operation α → Except Fault (HashList α × Option Address)
  | .setHash hash => do
      let (list, item) ← Etracker.setHash list hash
      pure (list, some item)
  | .getHash hash => do
      let item ← Etracker.getHash list hash
      pure (list, item)
  | .deleteHash hash => do
      let list ← Etracker.deleteHash list hash
      pure (list, none)
  | .deleteItem item => do
      let list ← Etracker.deleteItem list item
      pure (list, none)
  | .storeData item data => do
      let list ← list.setData item data
      pure (list, none)

def performAll (list : HashList α) :
    List (Operation α) → Except Fault (HashList α × List (Option Address))
  | [] => pure (list, [])
  | operation :: rest => do
      let (list, answer) ← operation.perform list
      let (list, answers) ← performAll list rest
      pure (list, answer :: answers)

/-- A hash has `hashLength` bytes, and an item pointer names an item of the list. -/
def Operation.Allowed (list : HashList α) : Operation α → Prop
  | .setHash hash | .getHash hash | .deleteHash hash => hash.length = list.hashLength
  | .deleteItem item | .storeData item _ => (list.items item).isSome = true

def AllowedAll (list : HashList α) : List (Operation α) → Prop
  | [] => True
  | operation :: rest => operation.Allowed list ∧
      match operation.perform list with
      | .ok (list, _) => AllowedAll list rest
      | .error _ => True

theorem entry_of_live {list : HashList α} (linked : Linked list) {address : Address}
    (live : (list.items address).isSome = true) : ∃ entry ∈ list.entries, entry.1 = address := by
  obtain ⟨item, stored⟩ := Option.isSome_iff_exists.mp live
  have inside := (linked.allocated address item stored).2
  obtain ⟨entry, member, same⟩ := List.mem_map.mp inside
  refine ⟨entry, (mem_entries linked).mpr ?_, same⟩
  rw [(linked.routed item.leaf entry member).2.2]
  exact member

theorem itemMap_of_lookup {list : HashList α} {hash : Hash} {entry : Entry α}
    (found : list.lookup hash = some entry) :
    list.itemMap hash = some (entry.1, entry.2.data) := by
  simp [HashList.itemMap, found]

theorem itemMap_update {list list' : HashList α} {hash : Hash} {entry : Option (Entry α)}
    (changed : list'.lookup = Function.update list.lookup hash entry) :
    list'.itemMap =
      Function.update list.itemMap hash (entry.map fun entry => (entry.1, entry.2.data)) := by
  funext other
  by_cases here : other = hash
  · simp [HashList.itemMap, changed, here]
  · simp [HashList.itemMap, changed, here]

theorem perform_refines {list : HashList α} (linked : Linked list) {operation : Operation α}
    (allowed : operation.Allowed list) :
    ∃ list' answer, operation.perform list = .ok (list', answer) ∧ Linked list' ∧
      SameFrame list list' ∧ MapStep list.itemMap operation answer list'.itemMap := by
  cases operation with
  | setHash hash =>
      have length : hash.length = list.hashLength := allowed
      cases found : list.lookup hash with
      | some entry =>
          refine ⟨list, some entry.1, ?_, linked, SameFrame.refl list, ?_⟩
          · simp [Operation.perform, setHash_found linked length found]
          · exact MapStep.setHashFound (itemMap_of_lookup found)
      | none =>
          obtain ⟨list', completed, spliced, _⟩ := setHash_inserts linked length found
          refine ⟨list', some list.fresh, ?_, spliced.linked, spliced.frame, ?_⟩
          · simp [Operation.perform, completed]
          · rw [itemMap_update spliced.lookup_insert]
            apply MapStep.setHashInserted
            · simp [HashList.itemMap, found]
            · intro other item present
              obtain ⟨entry, located, rfl⟩ := Option.map_eq_some_iff.mp present
              have member := (lookup_mem located).1
              obtain ⟨stored, live, _⟩ := entry_stored linked member
              exact Nat.ne_of_lt (linked.allocated entry.1 stored live).1
  | getHash hash =>
      have length : hash.length = list.hashLength := allowed
      refine ⟨list, (list.lookup hash).map Prod.fst, ?_, linked, SameFrame.refl list, ?_⟩
      · simp [Operation.perform, getHash_eq linked length]
      · have answer : (list.lookup hash).map Prod.fst = (list.itemMap hash).map Prod.fst := by
          cases found : list.lookup hash <;> simp [HashList.itemMap, found]
        rw [answer]
        exact MapStep.getHash
  | deleteHash hash =>
      have length : hash.length = list.hashLength := allowed
      cases found : list.lookup hash with
      | none =>
          refine ⟨list, none, ?_, linked, SameFrame.refl list, ?_⟩
          · simp [Operation.perform, deleteHash, getHash_eq linked length, found]
          · have absent : list.itemMap hash = none := by simp [HashList.itemMap, found]
            have unchanged : MapStep list.itemMap (.deleteHash hash) none
                (Function.update list.itemMap hash none) := MapStep.deleteHash
            rwa [← absent, Function.update_eq_self] at unchanged
      | some entry =>
          obtain ⟨member, same⟩ := lookup_mem found
          obtain ⟨list', completed, spliced, _⟩ := deleteItem_removes linked member
          refine ⟨list', none, ?_, spliced.linked, spliced.frame, ?_⟩
          · simp [Operation.perform, deleteHash, getHash_eq linked length, found, completed]
          · rw [itemMap_update (spliced.lookup_remove linked), same]
            exact MapStep.deleteHash
  | deleteItem item =>
      obtain ⟨entry, member, rfl⟩ := entry_of_live linked allowed
      have found := (lookup_eq_some_iff linked).mpr ⟨member, rfl⟩
      obtain ⟨list', completed, spliced, _⟩ := deleteItem_removes linked member
      refine ⟨list', none, ?_, spliced.linked, spliced.frame, ?_⟩
      · simp [Operation.perform, completed]
      · rw [itemMap_update (spliced.lookup_remove linked)]
        exact MapStep.deleteItem (itemMap_of_lookup found)
  | storeData item data =>
      obtain ⟨entry, member, rfl⟩ := entry_of_live linked allowed
      have found := (lookup_eq_some_iff linked).mpr ⟨member, rfl⟩
      obtain ⟨list', completed, spliced, _⟩ := setData_stores linked member data
      refine ⟨list', none, ?_, spliced.linked, spliced.frame, ?_⟩
      · simp [Operation.perform, completed]
      · rw [itemMap_update (spliced.lookup_replace linked rfl)]
        exact MapStep.storeData (itemMap_of_lookup found)

/-- A whole run of calls. -/
theorem performAll_refines {list : HashList α} (linked : Linked list)
    {operations : List (Operation α)} (allowed : AllowedAll list operations) :
    ∃ list' answers, performAll list operations = .ok (list', answers) ∧ Linked list' ∧
      SameFrame list list' ∧ MapRun list.itemMap operations answers list'.itemMap := by
  induction operations generalizing list with
  | nil => exact ⟨list, [], rfl, linked, SameFrame.refl list, MapRun.nil⟩
  | cons operation rest ih =>
      obtain ⟨first, later⟩ := allowed
      obtain ⟨list', answer, completed, linked', frame, step⟩ := perform_refines linked first
      rw [completed] at later
      obtain ⟨list'', answers, completed', linked'', frame', run⟩ := ih linked' later
      refine ⟨list'', answer :: answers, ?_, linked'', frame.trans frame', MapRun.cons step run⟩
      simp [performAll, completed, completed']

theorem hashList_finite_map {level hashLength : Nat} (limit : level ≤ listLimitLevel)
    (fits : max level 1 ≤ hashLength) (enabled : SemaphoreEnabled) (endianness : Endianness) :
    ∃ list : HashList α, initList level hashLength enabled endianness = .ok list ∧
      list.toListHeader = ⟨endianness, hashLength, level, enabled⟩ ∧
      list.itemMap = (fun _ => none) ∧
      ∀ operations, AllowedAll list operations →
        ∃ list' answers, performAll list operations = .ok (list', answers) ∧ Linked list' ∧
          list'.toListHeader = list.toListHeader ∧ (list'.entries.map entryHash).Nodup ∧
          MapRun list.itemMap operations answers list'.itemMap := by
  have short : level ≤ hashLength := by omega
  let header : ListHeader := ⟨endianness, hashLength, level, enabled⟩
  refine ⟨header.newList, initList_ok enabled endianness limit short, rfl, ?_, ?_⟩
  · funext hash
    have absent : (header.newList : HashList α).lookup hash = none := by
      rw [lookup_eq_none_iff]
      simp
    simp [HashList.itemMap, absent]
  · intro operations allowed
    have linked : Linked (header.newList : HashList α) := (newList_represents header).toLinked
    obtain ⟨list', answers, completed, linked', frame, run⟩ := performAll_refines linked allowed
    exact ⟨list', answers, completed, linked', frame.header, entries_hash_nodup linked', run⟩

theorem hashList_finite_map_run :
    ∃ (list' : HashList Nat) (answers : List (Option Address)),
      performAll (ListHeader.newList ⟨.bigEndian, 1, 1, listSemaphoreDisable⟩)
        [.setHash [7], .storeData 0 (some 5), .setHash [7], .getHash [8], .deleteItem 0] =
          .ok (list', answers) ∧ Linked list' := by
  have fits : max 1 1 ≤ 1 := by decide
  obtain ⟨list, created, _, _, runs⟩ :=
    @hashList_finite_map Nat 1 1 (by decide) fits listSemaphoreDisable .bigEndian
  cases created
  obtain ⟨list', answers, completed, linked, _⟩ :=
    runs [.setHash [7], .storeData 0 (some 5), .setHash [7], .getHash [8], .deleteItem 0]
      ⟨rfl, rfl, rfl, rfl, rfl, trivial⟩
  exact ⟨list', answers, completed, linked⟩

def sampleCalls : List (Operation Nat) :=
  [.setHash [3, 1], .storeData 0 (some 31), .setHash [1, 2], .storeData 1 (some 12),
    .setHash [2, 1], .storeData 2 (some 21), .setHash [1, 1], .storeData 3 (some 11)]

theorem sampleCalls_inv {header : ListHeader} (start : Inv (header.newList : HashList Nat))
    (allowed : AllowedAll header.newList sampleCalls) :
    ∃ list answers, performAll header.newList sampleCalls = .ok (list, answers) ∧
      list.toListHeader = header ∧ Inv list := by
  obtain ⟨list, answers, completed, linked, frame, _⟩ := performAll_refines start.linked allowed
  exact ⟨list, answers, completed, frame.header, start.of_frame frame linked⟩

end Etracker
