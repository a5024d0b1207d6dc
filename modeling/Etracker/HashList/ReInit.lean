import Etracker.HashList.FiniteMap
import Etracker.HashList.Map

namespace Etracker

open Foundation Foundation.CString Foundation.Chain Foundation.Outcome Foundation.Traversal

variable {α : Type}

def HashList.dataMap (list : HashList α) (hash : Hash) : Option (Option α) :=
  (list.lookup hash).map fun entry => entry.2.data

def keyData (entry : Entry α) : Hash × Option α := (entry.2.hash, entry.2.data)

theorem dataMap_eq_some_iff {list : HashList α} (linked : Linked list) {hash : Hash}
    {data : Option α} :
    list.dataMap hash = some data ↔ (hash, data) ∈ list.entries.map keyData := by
  simp only [HashList.dataMap, Option.map_eq_some_iff, lookup_eq_some_iff linked, List.mem_map,
    keyData, Prod.mk.injEq, and_assoc]

theorem dataMap_congr {list list' : HashList α} (linked : Linked list) (linked' : Linked list')
    (same : (list'.entries.map keyData).Perm (list.entries.map keyData)) :
    list'.dataMap = list.dataMap := by
  funext hash
  apply Option.ext
  intro data
  rw [dataMap_eq_some_iff linked', dataMap_eq_some_iff linked, same.mem_iff]

section FreeList

theorem forM_ok {Element : Type} {visit : Element → Except Fault Unit} {elements : List Element}
    (each : ∀ element ∈ elements, visit element = .ok ()) : elements.forM visit = .ok () := by
  induction elements with
  | nil => rfl
  | cons element rest ih =>
      show (visit element >>= fun _ => rest.forM visit) = .ok ()
      rw [each element (by simp), ok_bind]
      exact ih fun other member => each other (by simp [member])

theorem semaphore_present {list : HashList α} (inv : Inv list) {level : Nat} {path : Path}
    {firstRecursion : Bool} (depth : path.length + level = list.level)
    (root : firstRecursion = true → path = []) :
    ¬((level = 0 ∧ list.semaphoreEnabled.leaf = true ∨
      firstRecursion = true ∧ list.semaphoreEnabled.global = true) ∧
      list.semaphore path = none) := by
  rintro ⟨⟨rfl, enabled⟩ | ⟨first, enabled⟩, missing⟩
  · rw [inv.semaphores, ListHeader.initialSemaphore,
      if_pos (Or.inl ⟨by omega, enabled⟩)] at missing
    cases missing
  · rw [inv.semaphores, ListHeader.initialSemaphore,
      if_pos (Or.inr ⟨root first, enabled⟩)] at missing
    cases missing

theorem forM_error {Element : Type} {visit : Element → Except Fault Unit} {fault : Fault}
    {elements : List Element}
    (each : ∀ element ∈ elements, visit element = .ok () ∨ visit element = .error fault)
    (failing : ∃ element ∈ elements, visit element = .error fault) :
    elements.forM visit = .error fault := by
  induction elements with
  | nil =>
      obtain ⟨element, member, _⟩ := failing
      cases member
  | cons element rest ih =>
      show (visit element >>= fun _ => rest.forM visit) = .error fault
      rcases each element (by simp) with completed | failed
      · rw [completed, ok_bind]
        apply ih fun other member => each other (by simp [member])
        obtain ⟨other, member, failed⟩ := failing
        rcases List.mem_cons.mp member with rfl | later
        · rw [completed] at failed
          cases failed
        · exact ⟨other, later, failed⟩
      · rw [failed]
        rfl

theorem firstItem_of_short {list : HashList α} (inv : Inv list) {path : Path}
    (short : path.length < list.level) : list.firstItem path = none := by
  rw [firstItem_eq_none_iff inv.linked, List.eq_nil_iff_forall_not_mem]
  intro entry member
  have length := getLeaf_length list.toListHeader entry.2.hash
  rw [(inv.linked.routed path entry member).2.2] at length
  omega

theorem freeListFrom_error {list : HashList α} (inv : Inv list) {level : Nat} {path : Path}
    {firstRecursion : Bool} (depth : path.length + level = list.level)
    (root : firstRecursion = true → path = []) :
    if ∃ leaf ∈ leafPaths level path, list.firstItem leaf ≠ none then
      freeListFrom list level path firstRecursion = .error (.exit exitCodeListNotEmpty)
    else freeListFrom list level path firstRecursion = .ok () := by
  induction level generalizing path firstRecursion with
  | zero =>
      by_cases empty : list.firstItem path = none
      · rw [if_neg (by simp [leafPaths, empty]), freeListFrom, empty,
          if_neg (not_not_intro rfl)]
        exact if_neg (semaphore_present inv depth root)
      · rw [if_pos ⟨path, by simp [leafPaths], empty⟩, freeListFrom, if_pos empty]
        rfl
  | succ level ih =>
      have noItem := firstItem_of_short inv (show path.length < list.level by omega)
      have below : ∀ index ∈ branches,
          if ∃ leaf ∈ leafPaths level (path ++ [index]), list.firstItem leaf ≠ none then
            freeListFrom list level (path ++ [index]) false = .error (.exit exitCodeListNotEmpty)
          else freeListFrom list level (path ++ [index]) false = .ok () := by
        intro index _
        apply ih
        · simp only [List.length_append, List.length_singleton]
          omega
        · intro absurdity
          cases absurdity
      by_cases occupied : ∃ leaf ∈ leafPaths (level + 1) path, list.firstItem leaf ≠ none
      · rw [if_pos occupied, freeListFrom, noItem, if_neg (not_not_intro rfl)]
        obtain ⟨leaf, inside, present⟩ := occupied
        obtain ⟨index, branch, inside⟩ := List.mem_flatMap.mp inside
        -- The loop ends at the first branch with an item; all of them end it with the same error.
        have failed : (branches.forM fun index =>
            freeListFrom list level (path ++ [index]) false) =
            .error (.exit exitCodeListNotEmpty) := by
          apply forM_error
          · intro other member
            have result := below other member
            split_ifs at result
            · exact Or.inr result
            · exact Or.inl result
          · have result := below index branch
            rw [if_pos ⟨leaf, inside, present⟩] at result
            exact ⟨index, branch, result⟩
        simp only [pure_eq_ok, failed]
        rfl
      · rw [if_neg occupied, freeListFrom, noItem, if_neg (not_not_intro rfl)]
        have completed : (branches.forM fun index =>
            freeListFrom list level (path ++ [index]) false) = .ok () := by
          apply forM_ok
          intro index member
          have result := below index member
          rw [if_neg] at result
          · exact result
          · rintro ⟨leaf, inside, present⟩
            exact occupied ⟨leaf, List.mem_flatMap.mpr ⟨index, member, inside⟩, present⟩
        simp only [pure_eq_ok, ok_bind, completed]
        exact if_neg (semaphore_present inv depth root)

theorem freeList_eq {list : HashList α} (inv : Inv list) :
    freeList list =
      if list.entries = [] then .ok () else .error (.exit exitCodeListNotEmpty) := by
  have result := @freeListFrom_error _ list inv list.level [] true (by simp) (fun _ => rfl)
  have occupied : (∃ leaf ∈ leafPaths list.level [], list.firstItem leaf ≠ none) ↔
      list.entries ≠ [] := by
    rw [HashList.entries, Ne, List.flatMap_eq_nil_iff]
    simp only [firstItem_eq_none_iff inv.linked, not_forall, exists_prop, Ne]
  rw [freeList]
  by_cases empty : list.entries = []
  · rw [if_neg (by rw [occupied]; simp [empty])] at result
    rw [if_pos empty, result]
  · rw [if_pos (occupied.mpr empty)] at result
    rw [if_neg empty, result]

end FreeList

def reInitStep : EntryStep α (HashList α) := fun entry resultList => do
  let (resultList, newItem) ← setHash resultList entry.2.hash
  let resultList ← resultList.setData newItem entry.2.data
  pure ⟨false, [], [], resultList⟩

theorem reInitListCallback_implements : Implements (reInitListCallback (α := α)) reInitStep := by
  intro list leaf front back entry resultList linked split
  have member : entry ∈ list.leafEntries leaf := by simp [split]
  obtain ⟨stored, present, hashIs, _, dataIs⟩ := Represents.stored linked member
  simp only [reInitListCallback, reInitStep, HashList.deref, present, pure_eq_ok, ok_bind, hashIs,
    dataIs]
  cases inserted : setHash resultList entry.2.hash with
  | error fault => rfl
  | ok result =>
      obtain ⟨resultList', newItem⟩ := result
      cases moved : resultList'.setData newItem entry.2.data with
      | error fault => simp [Simulates, moved]
      | ok resultList'' =>
          obtain ⟨list', cleared, rewritten, freed⟩ := setData_eq linked split none
          have split' : list'.leafEntries leaf =
              front ++ (entry.1, { entry.2 with data := none }) :: back := by
            rw [rewritten.leafEntries, Function.update_self]
          obtain ⟨list'', deleted, rewritten', freed'⟩ := deleteItem_eq rewritten.linked split'
          simp only [ok_bind, moved, cleared, deleted]
          refine ⟨list'', rfl, ?_, ?_⟩
          · simp [freed', freed]
          · simpa using rewritten.trans rewritten'

/-- The new list receives the entries visited so far. -/
theorem reInitStep_traverse {remaining : List (Entry α)} {resultList : HashList α}
    (linked : Linked resultList)
    (lengths : ∀ entry ∈ remaining, entry.2.hash.length = resultList.hashLength)
    (absent : ∀ entry ∈ remaining, resultList.lookup entry.2.hash = none)
    (distinct : (remaining.map entryHash).Nodup) :
    ∃ resultList', traverse reInitStep remaining resultList = .ok ⟨false, [], [], resultList'⟩ ∧
      Linked resultList' ∧ SameFrame resultList resultList' ∧
      resultList'.freed = resultList.freed ∧
      (resultList'.entries.map keyData).Perm
        (resultList.entries.map keyData ++ remaining.map keyData) := by
  induction remaining generalizing resultList with
  | nil => exact ⟨resultList, rfl, linked, SameFrame.refl _, rfl, by simp⟩
  | cons entry rest ih =>
      rw [List.map_cons, List.nodup_cons] at distinct
      obtain ⟨outside, distinct⟩ := distinct
      have length := lengths entry (by simp)
      obtain ⟨first, inserted, spliced, freed⟩ :=
        setHash_inserts linked length (absent entry (by simp))
      obtain ⟨before, behind, _, inside⟩ := spliced.split
      have created : (resultList.fresh,
          (⟨entry.2.hash, resultList.getLeaf entry.2.hash, none⟩ : Stored α)) ∈ first.entries := by
        simp [inside]
      obtain ⟨second, moved, spliced', freed'⟩ :=
        setData_stores spliced.linked created entry.2.data
      have frame := spliced.frame.trans spliced'.frame
      have lookups := spliced'.lookup_replace spliced.linked rfl
      rw [spliced.lookup_insert, Function.update_idem] at lookups
      -- No hash comes twice, so the new list has none of those to come.
      have absent' : ∀ other ∈ rest, second.lookup other.2.hash = none := by
        intro other member
        have differs : other.2.hash ≠ entry.2.hash := by
          intro same
          exact outside (List.mem_map.mpr ⟨other, member, same⟩)
        rw [lookups, Function.update_of_ne differs]
        exact absent other (by simp [member])
      have lengths' : ∀ other ∈ rest, other.2.hash.length = second.hashLength := by
        intro other member
        rw [frame.header]
        exact lengths other (by simp [member])
      obtain ⟨final, run, linked', frame', freed'', perm⟩ :=
        ih spliced'.linked lengths' absent' distinct
      refine ⟨final, ?_, linked', frame.trans frame', ?_, ?_⟩
      · have step : reInitStep entry resultList = .ok ⟨false, [], [], second⟩ := by
          simp [reInitStep, inserted, moved]
        rw [Traversal.traverse, step, ok_bind, andThen_continue rfl, run]
        rfl
      · rw [freed'', freed', freed]
      · obtain ⟨old, oldPerm, firstPerm⟩ := spliced.perm
        obtain ⟨kept, firstPerm', secondPerm⟩ := spliced'.perm
        have sameRest : kept.Perm old := (firstPerm'.symm.trans firstPerm).cons_inv
        have added : (second.entries.map keyData).Perm
            (keyData entry :: resultList.entries.map keyData) := by
          refine (secondPerm.map keyData).trans ?_
          exact List.Perm.cons _ ((sameRest.trans oldPerm.symm).map keyData)
        calc final.entries.map keyData
            |>.Perm (second.entries.map keyData ++ rest.map keyData) := perm
          _ |>.Perm (keyData entry :: resultList.entries.map keyData ++ rest.map keyData) :=
              added.append_right _
          _ |>.Perm (resultList.entries.map keyData ++ keyData entry :: rest.map keyData) :=
              List.perm_middle.symm

theorem reInitList_spec {list : HashList α} (inv : Inv list) {level : Nat}
    (limit : level ≤ listLimitLevel) (fits : level ≤ list.hashLength) :
    ∃ result, reInitList list level = .ok result ∧ Inv result ∧
      result.toListHeader = { list.toListHeader with level := level } ∧
      (result.entries.map keyData).Perm (list.entries.map keyData) ∧
      result.freed = list.freed := by
  let header : ListHeader := { list.toListHeader with level := level }
  have newInv : Inv (header.newList : HashList α) := newList_inv header limit fits inv.leafSemaphore
  have lengths : ∀ entry ∈ list.entries,
      entry.2.hash.length = (header.newList : HashList α).hashLength :=
    fun entry member => (entry_facts inv.linked member).1
  have absent : ∀ entry ∈ list.entries,
      (header.newList : HashList α).lookup entry.2.hash = none := by
    intro entry _
    rw [lookup_eq_none_iff]
    simp
  obtain ⟨result, run, linked, frame, freed, perm⟩ := reInitStep_traverse newInv.linked lengths
    absent (entries_hash_nodup inv.linked)
  have simulated := mapList_simulates reInitListCallback_implements inv
    (header.newList : HashList α)
  rw [run] at simulated
  obtain ⟨old, mapped, oldFreed, oldInv, _, nothing⟩ := simulated
  have emptied : freeList old = .ok () := by rw [freeList_eq oldInv, if_pos nothing]
  have newFreed : result.freed = [] := freed
  refine ⟨{ result with freed := old.freed ++ result.freed }, ?_, ?_, frame.header, ?_, ?_⟩
  · have created : (initList level list.hashLength list.semaphoreEnabled list.endianness :
        Except Fault (HashList α)) = .ok header.newList :=
      initList_ok _ _ limit fits
    simp [reInitList, created, mapped, emptied]
  · have sameLists : Inv result := newInv.of_frame frame linked
    obtain ⟨linked, limit, fits, flags, semaphores⟩ := sameLists
    exact ⟨⟨linked.linked, linked.sorted, linked.routed, linked.allocated⟩, limit, fits, flags,
      semaphores⟩
  · rw [newList_entries, List.map_nil, List.nil_append] at perm
    exact perm
  · simp [newFreed, oldFreed]

/-- The list of another level is the same map of the same data. -/
theorem reInitList_preserves {list : HashList α} (inv : Inv list) {level : Nat}
    (limit : level ≤ listLimitLevel) (fits : level ≤ list.hashLength) :
    ∃ result, reInitList list level = .ok result ∧ Inv result ∧ result.level = level ∧
      result.hashLength = list.hashLength ∧ result.endianness = list.endianness ∧
      result.semaphoreEnabled = list.semaphoreEnabled ∧ result.dataMap = list.dataMap ∧
      (result.entries.map fun entry => entry.2.data).Perm
        (list.entries.map fun entry => entry.2.data) ∧
      result.freed = list.freed := by
  obtain ⟨result, completed, resultInv, header, perm, freed⟩ := reInitList_spec inv limit fits
  refine ⟨result, completed, resultInv, ?_, ?_, ?_, ?_, ?_, ?_, freed⟩
  · rw [header]
  · rw [header]
  · rw [header]
  · rw [header]
  · exact dataMap_congr inv.linked resultInv.linked perm
  · simpa [keyData, Function.comp_def] using perm.map Prod.snd

/-- Four items of one leaf are spread over the leaves of the next level. -/
theorem reInitList_preserves_spread :
    ∃ list answers result,
      performAll (ListHeader.newList ⟨.bigEndian, 2, 0, listSemaphoreDisable⟩) sampleCalls =
        .ok (list, answers) ∧
      reInitList list 1 = .ok result ∧ Inv result ∧ result.level = 1 ∧
      result.dataMap = list.dataMap ∧ result.freed = list.freed ∧
      list.entries.map entryHash = [[1, 1], [1, 2], [2, 1], [3, 1]] ∧
      result.entries.map entryHash = [[1, 1], [2, 1], [3, 1], [1, 2]] := by
  have start : Inv (ListHeader.newList ⟨.bigEndian, 2, 0, listSemaphoreDisable⟩ : HashList Nat) :=
    newList_inv _ (by decide) (by decide) nofun
  obtain ⟨list, answers, performed, header, inv⟩ := sampleCalls_inv start
    ⟨rfl, rfl, rfl, rfl, rfl, rfl, rfl, rfl, trivial⟩
  have fits : 1 ≤ list.hashLength := by
    rw [header]
    decide
  obtain ⟨result, completed, resultInv, level, _, _, _, same, _, freed⟩ :=
    @reInitList_preserves Nat list inv 1 (by decide) fits
  have run : ((performAll (ListHeader.newList ⟨.bigEndian, 2, 0, listSemaphoreDisable⟩)
      sampleCalls).bind fun made => (reInitList made.1 1).map fun result =>
        (made.1.entries.map entryHash, result.entries.map entryHash)) =
      .ok ([[1, 1], [1, 2], [2, 1], [3, 1]], [[1, 1], [2, 1], [3, 1], [1, 2]]) := by
    decide +kernel
  rw [performed] at run
  change (reInitList list 1).map _ = _ at run
  rw [completed] at run
  change Except.ok (_, _) = Except.ok _ at run
  simp only [Except.ok.injEq, Prod.mk.injEq] at run
  exact ⟨list, answers, result, performed, completed, resultInv, level, same, freed, run⟩

end Etracker
