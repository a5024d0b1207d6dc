import Etracker.HashList.ReInit

namespace Etracker

open Foundation Foundation.CString Foundation.Chain Foundation.Outcome

variable {α : Type}

def entryPair (entry : Entry α) : Option (Hash × α) :=
  entry.2.data.map fun data => (entry.2.hash, data)

namespace HashList

def value (list : HashList α) (hash : Hash) : Option α :=
  (list.lookup hash).bind fun entry => entry.2.data

def pairs (list : HashList α) : List (Hash × α) := list.entries.filterMap entryPair

def Filled (list : HashList α) : Prop := ∀ entry ∈ list.entries, ∃ data, entry.2.data = some data

end HashList

theorem entryPair_eq_some_iff {entry : Entry α} {hash : Hash} {data : α} :
    entryPair entry = some (hash, data) ↔ entry.2.hash = hash ∧ entry.2.data = some data := by
  cases stored : entry.2.data <;> simp [entryPair, stored]

theorem value_eq_some_iff {list : HashList α} (linked : Linked list) {hash : Hash} {data : α} :
    list.value hash = some data ↔ (hash, data) ∈ list.pairs := by
  simp only [HashList.value, Option.bind_eq_some_iff, lookup_eq_some_iff linked, HashList.pairs,
    List.mem_filterMap, entryPair_eq_some_iff, and_assoc]

theorem pairs_fst_sublist (entries : List (Entry α)) :
    ((entries.filterMap entryPair).map Prod.fst).Sublist (entries.map entryHash) := by
  induction entries with
  | nil => simp
  | cons entry rest ih =>
      cases stored : entry.2.data with
      | none =>
          rw [List.filterMap_cons_none (by simp [entryPair, stored])]
          exact ih.cons _
      | some data =>
          rw [List.filterMap_cons_some (by simp [entryPair, stored]; rfl)]
          exact ih.cons_cons _

theorem pairs_nodup {list : HashList α} (linked : Linked list) :
    (list.pairs.map Prod.fst).Nodup :=
  (entries_hash_nodup linked).sublist (pairs_fst_sublist list.entries)

theorem pairs_length {list : HashList α} (filled : list.Filled) :
    list.pairs.length = list.entries.length := by
  unfold HashList.Filled at filled
  unfold HashList.pairs
  generalize list.entries = entries at filled ⊢
  induction entries with
  | nil => rfl
  | cons entry rest ih =>
      obtain ⟨data, stored⟩ := filled entry (by simp)
      rw [List.filterMap_cons_some (by simp [entryPair, stored]; rfl), List.length_cons,
        List.length_cons, ih fun other member => filled other (by simp [member])]

@[simp] theorem newList_pairs (header : ListHeader) :
    (header.newList : HashList α).pairs = [] := by
  simp [HashList.pairs]

@[simp] theorem newList_value (header : ListHeader) (hash : Hash) :
    (header.newList : HashList α).value hash = none := by
  have absent : (header.newList : HashList α).lookup hash = none := by
    rw [lookup_eq_none_iff]
    simp
  simp [HashList.value, absent]

/-- One hash changed its data, or came, or went. -/
structure Update (list list' : HashList α) (hash : Hash) (before after : Option α) : Prop where
  found : list.value hash = before
  split : ∃ rest, list.pairs.Perm (before.toList.map (hash, ·) ++ rest) ∧
    list'.pairs.Perm (after.toList.map (hash, ·) ++ rest)

namespace Update

variable {list list' list'' : HashList α} {hash : Hash} {before middle after : Option α}

theorem trans (left : Update list list' hash before middle)
    (right : Update list' list'' hash middle after) : Update list list'' hash before after := by
  obtain ⟨rest, old, new⟩ := left.split
  obtain ⟨rest', old', new'⟩ := right.split
  have same : rest'.Perm rest := (List.perm_append_left_iff _).mp (old'.symm.trans new)
  exact ⟨left.found, rest, old, new'.trans (same.append_left _)⟩

theorem outside (linked : Linked list) {rest : List (Hash × α)} (found : list.value hash = before)
    (split : list.pairs.Perm (before.toList.map (hash, ·) ++ rest)) (data : α) :
    (hash, data) ∉ rest := by
  intro member
  have inside : (hash, data) ∈ list.pairs :=
    split.mem_iff.mpr (List.mem_append_right _ member)
  have isBefore := (value_eq_some_iff linked).mpr inside
  rw [found] at isBefore
  rw [isBefore] at split
  have distinct := (split.map Prod.fst).nodup_iff.mp (pairs_nodup linked)
  simp only [Option.toList_some, List.map_cons, List.map_nil, List.cons_append, List.nil_append,
    List.nodup_cons] at distinct
  exact distinct.1 (List.mem_map.mpr ⟨_, member, rfl⟩)

theorem value_eq (linked : Linked list) (linked' : Linked list')
    (update : Update list list' hash before after) :
    list'.value = Function.update list.value hash after := by
  obtain ⟨rest, old, new⟩ := update.split
  have absent := outside linked update.found old
  funext other
  apply Option.ext
  intro data
  rw [value_eq_some_iff linked', new.mem_iff, List.mem_append]
  by_cases here : other = hash
  · subst here
    rw [Function.update_self]
    cases after <;> simp [absent, eq_comm]
  · rw [Function.update_of_ne here, value_eq_some_iff linked, old.mem_iff, List.mem_append]
    simp [Ne.symm here]

theorem countP_eq (update : Update list list' hash before after) (test : Hash × α → Bool) :
    list'.pairs.countP test + (before.toList.map (hash, ·)).countP test =
      list.pairs.countP test + (after.toList.map (hash, ·)).countP test := by
  obtain ⟨rest, old, new⟩ := update.split
  rw [old.countP_eq, new.countP_eq, List.countP_append, List.countP_append]
  omega

end Update

theorem value_of_lookup_none {list : HashList α} {hash : Hash} (absent : list.lookup hash = none) :
    list.value hash = none := by
  simp [HashList.value, absent]

theorem value_of_lookup_some {list : HashList α} {hash : Hash} {entry : Entry α}
    (found : list.lookup hash = some entry) : list.value hash = entry.2.data := by
  simp [HashList.value, found]

theorem Spliced.pairs {list list' : HashList α} {before after : List (Entry α)}
    (spliced : Spliced list list' before after) :
    ∃ rest, list.pairs.Perm (before.filterMap entryPair ++ rest) ∧
      list'.pairs.Perm (after.filterMap entryPair ++ rest) := by
  obtain ⟨front, back, old, new⟩ := spliced.split
  refine ⟨front.filterMap entryPair ++ back.filterMap entryPair, ?_, ?_⟩
  · rw [HashList.pairs, old, List.filterMap_append, List.filterMap_append, List.append_assoc]
    exact List.perm_append_comm_assoc _ _ _
  · rw [HashList.pairs, new, List.filterMap_append, List.filterMap_append, List.append_assoc]
    exact List.perm_append_comm_assoc _ _ _

theorem Spliced.update {list list' : HashList α} {before after : Entry α}
    (linked : Linked list) (spliced : Spliced list list' [before] [after])
    (same : after.2.hash = before.2.hash) :
    Update list list' before.2.hash before.2.data after.2.data := by
  obtain ⟨rest, old, new⟩ := spliced.pairs
  obtain ⟨front, back, whole, _⟩ := spliced.split
  have member : before ∈ list.entries := by simp [whole]
  have single : ∀ entry : Entry α, entry.2.hash = before.2.hash →
      [entry].filterMap entryPair = entry.2.data.toList.map (before.2.hash, ·) := by
    intro entry hashIs
    cases stored : entry.2.data <;> simp [entryPair, stored, hashIs]
  refine ⟨?_, rest, ?_, ?_⟩
  · exact value_of_lookup_some ((lookup_eq_some_iff linked).mpr ⟨member, rfl⟩)
  · rw [← single before rfl]
    exact old
  · rw [← single after same]
    exact new

theorem setData_update {list : HashList α} (linked : Linked list) {entry : Entry α}
    (member : entry ∈ list.entries)
    (others : ∀ other ∈ list.entries, other ≠ entry → ∃ data, other.2.data = some data)
    (data : α) :
    ∃ list', list.setData entry.1 (some data) = .ok list' ∧ Linked list' ∧ SameFrame list list' ∧
      list'.Filled ∧ Update list list' entry.2.hash entry.2.data (some data) ∧
      list'.lookup entry.2.hash = some (entry.1, { entry.2 with data := some data }) ∧
      list'.freed = list.freed := by
  obtain ⟨list', completed, spliced, freed⟩ := setData_stores linked member (some data)
  refine ⟨list', completed, spliced.linked, spliced.frame, ?_, spliced.update linked rfl, ?_, freed⟩
  · obtain ⟨front, back, old, new⟩ := spliced.split
    intro other inside
    rw [new] at inside
    simp only [List.append_assoc, List.singleton_append, List.mem_append, List.mem_cons] at inside
    have distinct := entries_nodup linked
    rw [old, List.append_assoc, List.singleton_append, List.nodup_middle] at distinct
    have apart := (List.nodup_cons.mp distinct).1
    rcases inside with ahead | rfl | behind
    · refine others other ?_ ?_
      · simp [old, ahead]
      · rintro rfl
        simp [ahead] at apart
    · exact ⟨data, rfl⟩
    · refine others other ?_ ?_
      · simp [old, behind]
      · rintro rfl
        simp [behind] at apart
  · rw [spliced.lookup_replace linked rfl, Function.update_self]

/-- `setHash` finds or makes the item of a hash; until data is stored in a new
item the list holds the same values. -/
theorem setHash_entry {list : HashList α} (linked : Linked list) (filled : list.Filled)
    {hash : Hash} (length : hash.length = list.hashLength) :
    ∃ list' entry, setHash list hash = .ok (list', entry.1) ∧ Linked list' ∧
      SameFrame list list' ∧ entry ∈ list'.entries ∧ entry.2.hash = hash ∧
      entry.2.data = list.value hash ∧
      (∀ other ∈ list'.entries, other ≠ entry → ∃ data, other.2.data = some data) ∧
      list'.pairs.Perm list.pairs ∧ list'.freed = list.freed := by
  cases found : list.lookup hash with
  | some entry =>
      obtain ⟨member, same⟩ := lookup_mem found
      refine ⟨list, entry, setHash_found linked length found, linked, SameFrame.refl list, member,
        same, (value_of_lookup_some found).symm, ?_, List.Perm.refl _, rfl⟩
      intro other inside _
      exact filled other inside
  | none =>
      obtain ⟨list', completed, spliced, freed⟩ := setHash_inserts linked length found
      obtain ⟨front, back, old, new⟩ := spliced.split
      obtain ⟨rest, oldPairs, newPairs⟩ := spliced.pairs
      refine ⟨list', (list.fresh, ⟨hash, list.getLeaf hash, none⟩), completed, spliced.linked,
        spliced.frame, by simp [new], rfl, (value_of_lookup_none found).symm, ?_, ?_, freed⟩
      · intro other inside differs
        rw [new] at inside
        simp only [List.append_assoc, List.singleton_append, List.mem_append, List.mem_cons,
          differs, false_or] at inside
        exact filled other (by simpa [old] using inside)
      · exact newPairs.trans oldPairs.symm

theorem Update.of_perm {list list' list'' : HashList α} {hash : Hash} {before after : Option α}
    (linked : Linked list) (linked' : Linked list') (same : list'.pairs.Perm list.pairs)
    (update : Update list' list'' hash before after) : Update list list'' hash before after := by
  obtain ⟨rest, old, new⟩ := update.split
  refine ⟨?_, rest, same.symm.trans old, new⟩
  rw [← update.found]
  apply Option.ext
  intro data
  rw [value_eq_some_iff linked, value_eq_some_iff linked', same.mem_iff]

theorem deleteItem_update {list : HashList α} (linked : Linked list) (filled : list.Filled)
    {hash : Hash} {entry : Entry α} (found : list.lookup hash = some entry) :
    ∃ list', deleteItem list entry.1 = .ok list' ∧ Linked list' ∧ SameFrame list list' ∧
      list'.Filled ∧ Update list list' hash (list.value hash) none := by
  obtain ⟨member, same⟩ := lookup_mem found
  obtain ⟨list', completed, spliced, _⟩ := deleteItem_removes linked member
  obtain ⟨front, back, old, new⟩ := spliced.split
  refine ⟨list', completed, spliced.linked, spliced.frame, ?_, rfl, ?_⟩
  · intro other inside
    rw [new] at inside
    apply filled other
    rw [old]
    simp only [List.append_nil, List.mem_append] at inside
    rcases inside with ahead | behind
    · simp [ahead]
    · simp [behind]
  · obtain ⟨rest, oldPairs, newPairs⟩ := spliced.pairs
    obtain ⟨data, stored⟩ := filled entry member
    refine ⟨rest, ?_, by simpa using newPairs⟩
    rw [value_of_lookup_some found, stored]
    simpa [entryPair, stored, same] using oldPairs

theorem dataOf_eq {list : HashList α} (linked : Linked list) {entry : Entry α}
    (member : entry ∈ list.entries) {data : α} (stored : entry.2.data = some data) :
    list.dataOf entry.1 = .ok data := by
  obtain ⟨item, present, _, _, dataIs⟩ := entry_stored linked member
  simp [HashList.dataOf, HashList.deref, present, dataIs, stored]

theorem deref_eq {list : HashList α} (linked : Linked list) {entry : Entry α}
    (member : entry ∈ list.entries) :
    ∃ item, list.deref entry.1 = .ok item ∧ item.hash = entry.2.hash ∧
      item.data = entry.2.data := by
  obtain ⟨item, present, hashIs, _, dataIs⟩ := entry_stored linked member
  exact ⟨item, by simp [HashList.deref, present], hashIs, dataIs⟩

theorem reInitList_pairs {list : HashList α} (inv : Inv list) (filled : list.Filled) {level : Nat}
    (limit : level ≤ listLimitLevel) (fits : level ≤ list.hashLength) :
    ∃ result, reInitList list level = .ok result ∧ Inv result ∧
      result.toListHeader = { list.toListHeader with level := level } ∧ result.Filled ∧
      result.pairs.Perm list.pairs := by
  obtain ⟨result, completed, resultInv, header, perm, _⟩ := reInitList_spec inv limit fits
  have pairsOf (other : HashList α) : other.pairs =
      (other.entries.map keyData).filterMap fun pair => pair.2.map fun data => (pair.1, data) := by
    rw [List.filterMap_map]
    rfl
  refine ⟨result, completed, resultInv, header, ?_, ?_⟩
  · intro entry member
    have inside := perm.mem_iff.mp (List.mem_map_of_mem member)
    obtain ⟨original, originalMember, same⟩ := List.mem_map.mp inside
    obtain ⟨data, stored⟩ := filled original originalMember
    simp only [keyData, Prod.mk.injEq] at same
    exact ⟨data, by rw [← same.2, stored]⟩
  · rw [pairsOf, pairsOf]
    exact perm.filterMap _

end Etracker
