import Mathlib.Data.List.TakeWhile
import Etracker.HashList.Lookup

namespace Etracker

open Foundation Foundation.CString Foundation.Chain Foundation.Outcome

variable {α σ : Type}

structure Rewritten (list list' : HashList α) (leaf : Path) (replacement : List (Entry α)) :
    Prop where
  frame : SameFrame list list'
  represents : Represents list' (Function.update list.leafEntries leaf replacement)

theorem Rewritten.linked {list list' : HashList α} {leaf : Path} {replacement : List (Entry α)}
    (rewritten : Rewritten list list' leaf replacement) : Linked list' :=
  rewritten.represents.toLinked

theorem Rewritten.leafEntries {list list' : HashList α} {leaf : Path}
    {replacement : List (Entry α)} (rewritten : Rewritten list list' leaf replacement) :
    list'.leafEntries = Function.update list.leafEntries leaf replacement :=
  rewritten.represents.leafEntries_eq

theorem Represents.rewrite {list list' : HashList α} {content : Path → List (Entry α)}
    (rep : Represents list content) {leaf : Path} {replacement : List (Entry α)}
    (header : list'.toListHeader = list.toListHeader)
    (chain : Segment itemLayout list'.items none (list'.firstItem leaf) replacement none)
    (firsts : ∀ path, path ≠ leaf → list'.firstItem path = list.firstItem path)
    (others : ∀ address item, list.items address = some item →
      address ∉ addresses (content leaf) → list'.items address = list.items address)
    (sorted : replacement.Pairwise (Before list.hashLength))
    (routed : ∀ entry ∈ replacement, entry.2.hash.length = list.hashLength ∧
      entry.2.leaf = leaf ∧ list.getLeaf entry.2.hash = leaf)
    (below : ∀ address item', list'.items address = some item' → address < list'.fresh)
    (inside : ∀ address item', list'.items address = some item' → item'.leaf = leaf →
      address ∈ addresses replacement)
    (outside : ∀ address item', list'.items address = some item' → item'.leaf ≠ leaf →
      ∃ item, list.items address = some item ∧ item.leaf = item'.leaf) :
    Represents list' (Function.update content leaf replacement) where
  linked path := by
    by_cases here : path = leaf
    · rw [here, Function.update_self]
      exact chain
    · rw [Function.update_of_ne here, firsts path here]
      refine segment_frame ?_ (rep.linked path)
      intro address member
      obtain ⟨entry, present, rfl⟩ := List.mem_map.mp member
      obtain ⟨item, found, _⟩ := rep.stored present
      exact others entry.1 item found (rep.apart here member)
  sorted path := by
    rw [header]
    by_cases here : path = leaf
    · rw [here, Function.update_self]
      exact sorted
    · rw [Function.update_of_ne here]
      exact rep.sorted path
  routed path entry member := by
    rw [header]
    by_cases here : path = leaf
    · rw [here, Function.update_self] at member
      rw [here]
      exact routed entry member
    · rw [Function.update_of_ne here] at member
      exact rep.routed path entry member
  allocated address item' found := by
    refine ⟨below address item' found, ?_⟩
    by_cases here : item'.leaf = leaf
    · rw [here, Function.update_self]
      exact inside address item' found here
    · obtain ⟨item, original, same⟩ := outside address item' found here
      rw [Function.update_of_ne here, ← same]
      exact (rep.allocated address item original).2

theorem sorted_insert {hashLength : Nat} {hash : Hash} {entries : List (Entry α)}
    (length : hash.length = hashLength)
    (lengths : ∀ entry ∈ entries, entry.2.hash.length = hashLength)
    (sorted : entries.Pairwise (Before hashLength))
    (absent : Keyed.findKey entryHash entries hash = none)
    (entry : Entry α) (entryIs : entry.2.hash = hash) :
    (entries.takeWhile (passed hashLength hash) ++
      entry :: entries.dropWhile (passed hashLength hash)).Pairwise (Before hashLength) := by
  have whole : entries.takeWhile (passed hashLength hash) ++
      entries.dropWhile (passed hashLength hash) = entries := List.takeWhile_append_dropWhile
  have behind : ∀ other ∈ entries.dropWhile (passed hashLength hash),
      memcmp hash other.2.hash hashLength = .lt := by
    rw [← whole] at sorted absent lengths
    have tail := (List.pairwise_append.mp sorted).2.1
    cases stop : entries.dropWhile (passed hashLength hash) with
    | nil => simp
    | cons first rest =>
        rw [stop] at tail absent lengths
        have notPassed : passed hashLength hash first = false := by
          have := List.head?_dropWhile_not (passed hashLength hash) entries
          rw [stop] at this
          simpa using this
        have greater : memcmp hash first.2.hash hashLength = .lt := by
          have differs := Keyed.findKey_eq_none_iff.mp absent first (by simp)
          have equal := memcmp_eq_iff (lengths first (by simp)) length
          rw [← memcmp_gt_iff]
          cases compared : memcmp first.2.hash hash hashLength with
          | lt => simp [passed, compared] at notPassed
          | eq => exact absurd (equal.mp compared) differs
          | gt => rfl
        intro other member
        rcases List.mem_cons.mp member with rfl | later
        · exact greater
        · exact memcmp_lt_trans greater ((List.pairwise_cons.mp tail).1 other later)
  rw [← whole] at sorted
  obtain ⟨ahead, tail, across⟩ := List.pairwise_append.mp sorted
  rw [List.pairwise_append]
  refine ⟨ahead, List.pairwise_cons.mpr ⟨?_, tail⟩, ?_⟩
  · intro other member
    rw [Before, entryIs]
    exact behind other member
  · intro left leftMember right rightMember
    rcases List.mem_cons.mp rightMember with rfl | later
    · have walked := List.mem_takeWhile_imp leftMember
      rw [Before, entryIs]
      simpa [passed] using walked
    · exact across left leftMember right later

theorem modify_neighbours {list : HashList α} {leaf : Path} {front back : List (Entry α)}
    (linked : Linked list) (split : ∀ entry ∈ front ++ back, entry ∈ list.leafEntries leaf)
    (list' : HashList α)
    (keeps : ∀ address ∈ addresses (front ++ back), list'.items address = list.items address)
    (forward backward : Item α → Item α) :
    (list'.modifyUnlessNull (last none front) forward >>= fun list'' =>
      list''.modifyUnlessNull (head none back) backward) =
      .ok { list' with
        items := relink (relink list'.items (last none front) forward) (head none back) backward } := by
  have stored : ∀ address ∈ addresses (front ++ back),
      ∃ item, list'.items address = some item := by
    intro address member
    obtain ⟨entry, present, rfl⟩ := List.mem_map.mp member
    obtain ⟨item, found, _⟩ := Represents.stored linked (split entry present)
    exact ⟨item, (keeps entry.1 member).trans found⟩
  rw [addresses_append] at stored
  have before : ∀ address, last none front = some address →
      ∃ item, list'.items address = some item := by
    intro address target
    rcases last_mem none front with ⟨absent, _⟩ | ⟨place, member, found⟩
    · rw [absent] at target
      cases target
    · cases (found.symm.trans target : some place = some address)
      exact stored address (List.mem_append_left _ member)
  rw [modifyUnlessNull_eq list' _ _ before, ok_bind]
  apply modifyUnlessNull_eq
  intro address target
  rcases head_mem back with ⟨absent, _⟩ | ⟨place, member, found⟩
  · rw [absent] at target
    cases target
  · cases (found.symm.trans target : some place = some address)
    obtain ⟨item, present⟩ := stored address (List.mem_append_right _ member)
    by_cases same : last none front = some address
    · exact ⟨forward item, by simp [same, relink_same, present]⟩
    · exact ⟨item, (relink_other _ _ _ _ same).trans present⟩

def firstItems (firstItem : Path → Option Address) (leaf : Path) (front : List (Entry α))
    (start : Option Address) : Path → Option Address :=
  if last none front = none then Function.update firstItem leaf start else firstItem

section FirstItems

variable {firstItem : Path → Option Address} {leaf : Path} {front : List (Entry α)}
  {start : Option Address}

theorem firstItems_self : firstItems firstItem leaf front start leaf =
    if last none front = none then start else firstItem leaf := by
  unfold firstItems
  split_ifs
  · exact Function.update_self ..
  · rfl

theorem firstItems_other {path : Path} (other : path ≠ leaf) :
    firstItems firstItem leaf front start path = firstItem path := by
  unfold firstItems
  split_ifs
  · exact Function.update_of_ne other ..
  · rfl

end FirstItems

structure Slot (list : HashList α) (hash : Hash) (front back : List (Entry α)) : Prop where
  ahead : front =
    (list.leafEntries (list.getLeaf hash)).takeWhile (passed list.hashLength hash)
  behind : back =
    (list.leafEntries (list.getLeaf hash)).dropWhile (passed list.hashLength hash)
  missing : Keyed.findKey entryHash (list.leafEntries (list.getLeaf hash)) hash = none

def insertFresh (list : HashList α) (hash : Hash) (front back : List (Entry α)) : HashList α :=
  { list with
    firstItem := firstItems list.firstItem (list.getLeaf hash) front (some list.fresh)
    items := insertCell itemLayout list.items list.fresh
      ⟨hash, last none front, head none back, list.getLeaf hash, none⟩
    fresh := list.fresh + 1 }

namespace Slot

variable {list : HashList α} {hash : Hash} {front back : List (Entry α)}

theorem split (slot : Slot list hash front back) :
    list.leafEntries (list.getLeaf hash) = front ++ back := by
  rw [slot.ahead, slot.behind, List.takeWhile_append_dropWhile]

theorem outside (slot : Slot list hash front back) (linked : Linked list) :
    list.fresh ∉ addresses (front ++ back) := by
  rw [← slot.split]
  intro member
  exact lt_irrefl _ (Represents.below linked (list.getLeaf hash) _ member)

theorem setHash_eq (slot : Slot list hash front back) (linked : Linked list)
    (length : hash.length = list.hashLength) :
    setHash list hash = .ok (insertFresh list hash front back, list.fresh) := by
  have lengths : ∀ entry ∈ list.leafEntries (list.getLeaf hash),
      entry.2.hash.length = list.hashLength :=
    fun entry member => (linked.routed _ entry member).1
  have stop := setHashFrom_eq hash (Represents.length_le linked (list.getLeaf hash))
    (linked.linked (list.getLeaf hash))
  have noItem := findKey_eq_stop length lengths (linked.sorted (list.getLeaf hash))
  rw [← slot.behind, slot.missing] at noItem
  simp only [← slot.ahead, ← slot.behind, ← noItem] at stop
  have members : ∀ entry ∈ front ++ back, entry ∈ list.leafEntries (list.getLeaf hash) :=
    fun entry member => slot.split ▸ member
  have neighbours := modify_neighbours linked members
    { list with
      fresh := list.fresh + 1
      items := Function.update list.items list.fresh
        (some ⟨hash, last none front, head none back, list.getLeaf hash, none⟩) }
    (fun address member =>
      Function.update_of_ne (ne_of_mem_of_not_mem member (slot.outside linked)) _ _)
    (fun previous => { previous with nextInLeaf := some list.fresh })
    (fun current => { current with previousInLeaf := some list.fresh })
  have whole : hash.take list.hashLength = hash := List.take_of_length_le length.le
  rw [setHash, stop, ok_bind]
  simp only [Option.map_none, whole]
  refine (bind_assoc _ _ _).symm.trans ?_
  refine (congrArg (fun outcome => outcome >>= _) neighbours).trans ?_
  by_cases atFront : last none front = none
  · simp only [ok_bind, pure_eq_ok, if_pos atFront, insertFresh, firstItems]
    rfl
  · simp only [ok_bind, pure_eq_ok, if_neg atFront, insertFresh, firstItems]
    rfl

theorem insertFresh_rewritten (slot : Slot list hash front back) (linked : Linked list)
    (length : hash.length = list.hashLength) :
    Rewritten list (insertFresh list hash front back) (list.getLeaf hash)
      (front ++ (list.fresh, ⟨hash, list.getLeaf hash, none⟩) :: back) := by
  have lengths : ∀ entry ∈ list.leafEntries (list.getLeaf hash),
      entry.2.hash.length = list.hashLength :=
    fun entry member => (linked.routed _ entry member).1
  have distinct : (addresses (front ++ back)).Nodup := by
    rw [← slot.split]
    exact Represents.addresses_nodup linked (list.getLeaf hash)
  have chain : Segment itemLayout list.items none (list.firstItem (list.getLeaf hash))
      (front ++ back) none := by
    rw [← slot.split]
    exact linked.linked (list.getLeaf hash)
  refine ⟨⟨rfl, rfl⟩, ?_⟩
  apply Represents.rewrite linked
  case header => rfl
  case chain =>
    have inserted := segment_insert distinct (slot.outside linked) chain
      (rfl : itemLayout.previous (⟨hash, last none front, head none back, list.getLeaf hash,
        none⟩ : Item α) = _) rfl
    have first : (insertFresh list hash front back).firstItem (list.getLeaf hash) = _ :=
      firstItems_self
    rw [first]
    exact inserted
  case firsts =>
    intro path other
    exact firstItems_other other
  case others =>
    intro address item found elsewhere
    have allocated := (linked.allocated address item found).1
    rw [slot.split] at elsewhere
    exact insertCell_other rfl rfl (Nat.ne_of_lt allocated) elsewhere
  case sorted =>
    rw [slot.ahead, slot.behind]
    exact sorted_insert length lengths (linked.sorted (list.getLeaf hash)) slot.missing _ rfl
  case routed =>
    intro entry member
    rcases List.mem_append.mp member with ahead | here
    · exact linked.routed _ entry (slot.split ▸ List.mem_append_left _ ahead)
    · rcases List.mem_cons.mp here with rfl | behind
      · exact ⟨length, rfl, rfl⟩
      · exact linked.routed _ entry (slot.split ▸ List.mem_append_right _ behind)
  case below =>
    intro address item' found
    show address < list.fresh + 1
    rcases insertCell_some itemLayout found with ⟨rfl, _⟩ | ⟨item, original, _⟩
    · exact Nat.lt_succ_self _
    · exact Nat.lt_succ_of_lt (linked.allocated address item original).1
  case inside =>
    intro address item' found here
    rcases insertCell_some itemLayout found with ⟨rfl, _⟩ | ⟨item, original, same⟩
    · simp
    · have sameLeaf : item'.leaf = item.leaf := congrArg Stored.leaf same
      have inside := (linked.allocated address item original).2
      rw [← sameLeaf, here, slot.split, addresses_append, List.mem_append] at inside
      rcases inside with ahead | behind
      · simp [ahead]
      · simp [behind]
  case outside =>
    intro address item' found elsewhere
    rcases insertCell_some itemLayout found with ⟨rfl, same⟩ | ⟨item, original, same⟩
    · exact absurd (congrArg Stored.leaf same) elsewhere
    · exact ⟨item, original, (congrArg Stored.leaf same).symm⟩

end Slot

theorem setHash_fresh {list : HashList α} (linked : Linked list) {hash : Hash}
    (length : hash.length = list.hashLength) (absent : list.lookup hash = none) :
    ∃ list' front back, setHash list hash = .ok (list', list.fresh) ∧
      list.leafEntries (list.getLeaf hash) = front ++ back ∧
      Rewritten list list' (list.getLeaf hash)
        (front ++ (list.fresh, ⟨hash, list.getLeaf hash, none⟩) :: back) ∧
      list'.freed = list.freed := by
  have slot : Slot list hash _ _ := ⟨rfl, rfl, (lookup_eq_leaf linked hash).symm.trans absent⟩
  exact ⟨_, _, _, slot.setHash_eq linked length, slot.split,
    slot.insertFresh_rewritten linked length, rfl⟩

structure Located (list : HashList α) (leaf : Path) (front : List (Entry α)) (entry : Entry α)
    (back : List (Entry α)) (item : Item α) : Prop where
  chain : Segment itemLayout list.items none (list.firstItem leaf) (front ++ entry :: back) none
  distinct : (addresses (front ++ entry :: back)).Nodup
  present : list.items entry.1 = some item
  previous : item.previousInLeaf = last none front
  next : item.nextInLeaf = head none back
  carried : itemLayout.payload item = entry.2
  leafIs : item.leaf = leaf

theorem Represents.located {list : HashList α} (linked : Linked list) {leaf : Path}
    {front back : List (Entry α)} {entry : Entry α}
    (split : list.leafEntries leaf = front ++ entry :: back) :
    ∃ item, Located list leaf front entry back item := by
  have chain : Segment itemLayout list.items none (list.firstItem leaf)
      (front ++ entry :: back) none := by
    rw [← split]
    exact linked.linked leaf
  have distinct : (addresses (front ++ entry :: back)).Nodup := by
    rw [← split]
    exact Represents.addresses_nodup linked leaf
  have member : entry ∈ list.leafEntries leaf := by
    rw [split]
    simp
  obtain ⟨item, present, previous, next, carried⟩ := segment_middle chain
  have leafIs : item.leaf = leaf :=
    (congrArg Stored.leaf carried).trans (linked.routed leaf entry member).2.1
  exact ⟨item, chain, distinct, present, previous, next, carried, leafIs⟩

def removeEntry (list : HashList α) (leaf : Path) (front : List (Entry α)) (entry : Entry α)
    (back : List (Entry α)) (item : Item α) : HashList α :=
  { list with
    firstItem := firstItems list.firstItem leaf front (head none back)
    items := removeCell itemLayout list.items entry.1 item
    freed := list.freed ++ entry.2.data.toList }

section Delete

variable {list : HashList α} {leaf : Path} {front back : List (Entry α)} {entry : Entry α}
  {item : Item α}

theorem mem_around (split : list.leafEntries leaf = front ++ entry :: back) :
    ∀ other ∈ front ++ back, other ∈ list.leafEntries leaf := by
  intro other member
  rw [split]
  rcases List.mem_append.mp member with ahead | behind
  · exact List.mem_append_left _ ahead
  · exact List.mem_append_right _ (List.mem_cons_of_mem _ behind)

theorem Located.deleteItem_eq (located : Located list leaf front entry back item)
    (linked : Linked list) (split : list.leafEntries leaf = front ++ entry :: back) :
    deleteItem list entry.1 = .ok (removeEntry list leaf front entry back item) := by
  have members := mem_around split
  have storedData : item.data = entry.2.data := congrArg Stored.data located.carried
  have backLink : itemLayout.previous item = last none front := located.previous
  have forwardLink : itemLayout.next item = head none back := located.next
  have result : removeEntry list leaf front entry back item = { list with
      firstItem := firstItems list.firstItem leaf front (head none back)
      items := Function.update (relink (relink list.items (last none front)
        fun previous => { previous with nextInLeaf := head none back }) (head none back)
        fun next => { next with previousInLeaf := last none front }) entry.1 none
      freed := list.freed ++ item.data.toList } := by
    simp only [removeEntry, removeCell, storedData, backLink, forwardLink]
    rfl
  simp only [deleteItem, HashList.deref, located.present, pure_eq_ok, ok_bind,
    located.previous, located.next, located.leafIs]
  rw [result, firstItems]
  by_cases atFront : last none front = none
  · have neighbours := modify_neighbours linked members
      (list.setFirstItem leaf (head none back)) (fun _ _ => rfl)
      (fun previous => { previous with nextInLeaf := head none back })
      (fun next => { next with previousInLeaf := none })
    rw [atFront] at neighbours
    rw [if_pos atFront, if_pos atFront, atFront]
    exact congrArg (fun outcome => outcome >>= _) neighbours
  · have neighbours := modify_neighbours linked members list (fun _ _ => rfl)
      (fun previous => { previous with nextInLeaf := head none back })
      (fun next => { next with previousInLeaf := last none front })
    rw [if_neg atFront, if_neg atFront]
    refine (bind_assoc _ _ _).symm.trans ?_
    exact congrArg (fun outcome => outcome >>= _) neighbours

theorem Located.removeEntry_rewritten (located : Located list leaf front entry back item)
    (linked : Linked list) (split : list.leafEntries leaf = front ++ entry :: back) :
    Rewritten list (removeEntry list leaf front entry back item) leaf (front ++ back) := by
  have backLink : itemLayout.previous item = last none front := located.previous
  have forwardLink : itemLayout.next item = head none back := located.next
  refine ⟨⟨rfl, rfl⟩, ?_⟩
  apply Represents.rewrite linked
  case header => rfl
  case chain =>
    have removed := segment_remove located.distinct located.chain located.present
    rw [backLink, forwardLink] at removed
    have first : (removeEntry list leaf front entry back item).firstItem leaf = _ :=
      firstItems_self
    rw [first]
    exact removed
  case firsts =>
    intro path other
    exact firstItems_other other
  case others =>
    intro address _ _ elsewhere
    rw [split] at elsewhere
    exact removeCell_other backLink forwardLink elsewhere
  case sorted =>
    have sorted := linked.sorted leaf
    rw [split] at sorted
    exact sorted.sublist (by simp)
  case routed =>
    intro other member
    exact linked.routed leaf other (mem_around split other member)
  case below =>
    intro address item' found
    obtain ⟨_, item, original, _⟩ := removeCell_some itemLayout found
    exact (linked.allocated address item original).1
  case inside =>
    intro address item' found here
    obtain ⟨differs, item, original, same⟩ := removeCell_some itemLayout found
    have sameLeaf : item'.leaf = item.leaf := congrArg Stored.leaf same
    have inside := (linked.allocated address item original).2
    rw [← sameLeaf, here, split] at inside
    simpa [differs] using inside
  case outside =>
    intro address item' found _
    obtain ⟨_, item, original, same⟩ := removeCell_some itemLayout found
    exact ⟨item, original, (congrArg Stored.leaf same).symm⟩

theorem deleteItem_eq (linked : Linked list)
    (split : list.leafEntries leaf = front ++ entry :: back) :
    ∃ list', deleteItem list entry.1 = .ok list' ∧ Rewritten list list' leaf (front ++ back) ∧
      list'.freed = list.freed ++ entry.2.data.toList := by
  obtain ⟨_, located⟩ := Represents.located linked split
  exact ⟨_, located.deleteItem_eq linked split, located.removeEntry_rewritten linked split, rfl⟩

end Delete

def storeData (list : HashList α) (entry : Entry α) (item : Item α) (data : Option α) :
    HashList α :=
  { list with items := Function.update list.items entry.1 (some { item with data := data }) }

section Store

variable {list : HashList α} {leaf : Path} {front back : List (Entry α)} {entry : Entry α}
  {item : Item α}

theorem Located.setData_eq (located : Located list leaf front entry back item) (data : Option α) :
    list.setData entry.1 data = .ok (storeData list entry item data) := by
  simp only [HashList.setData, HashList.modify, HashList.deref, located.present, pure_eq_ok,
    ok_bind]
  rfl

theorem Located.storeData_some (located : Located list leaf front entry back item)
    {data : Option α} {address : Address} {item' : Item α}
    (found : (storeData list entry item data).items address = some item') :
    ∃ original, list.items address = some original ∧ original.leaf = item'.leaf := by
  simp only [storeData] at found
  by_cases here : address = entry.1
  · rw [here, Function.update_self, Option.some.injEq] at found
    rw [here, ← found]
    exact ⟨item, located.present, rfl⟩
  · rw [Function.update_of_ne here] at found
    exact ⟨item', found, rfl⟩

theorem Located.storeData_rewritten (located : Located list leaf front entry back item)
    (linked : Linked list) (split : list.leafEntries leaf = front ++ entry :: back)
    (data : Option α) :
    Rewritten list (storeData list entry item data) leaf
      (front ++ (entry.1, { entry.2 with data := data }) :: back) := by
  have routed := linked.routed leaf
  have sorted := linked.sorted leaf
  rw [split] at routed sorted
  refine ⟨⟨rfl, rfl⟩, ?_⟩
  apply Represents.rewrite linked
  case header => rfl
  case chain =>
    have payload : itemLayout.payload { item with data := data } =
        { entry.2 with data := data } := by
      rw [← located.carried]
      rfl
    rw [← payload]
    exact segment_update located.distinct located.chain located.present rfl rfl
  case firsts => exact fun _ _ => rfl
  case others =>
    intro address _ _ elsewhere
    rw [split] at elsewhere
    refine Function.update_of_ne ?_ _ _
    rintro rfl
    simp at elsewhere
  case sorted =>
    rw [List.pairwise_append, List.pairwise_cons] at sorted ⊢
    obtain ⟨ahead, ⟨first, behind⟩, across⟩ := sorted
    refine ⟨ahead, ⟨first, behind⟩, ?_⟩
    intro left leftMember right rightMember
    rcases List.mem_cons.mp rightMember with rfl | later
    · exact across left leftMember entry (by simp)
    · exact across left leftMember right (by simp [later])
  case routed =>
    intro other member
    rcases List.mem_append.mp member with ahead | here
    · exact routed other (by simp [ahead])
    · rcases List.mem_cons.mp here with rfl | behind
      · exact routed entry (by simp)
      · exact routed other (by simp [behind])
  case below =>
    intro address item' found
    obtain ⟨item, original, _⟩ := located.storeData_some found
    exact (linked.allocated address item original).1
  case inside =>
    intro address item' found here
    obtain ⟨item, original, same⟩ := located.storeData_some found
    have inside := (linked.allocated address item original).2
    rw [same, here, split] at inside
    simpa using inside
  case outside => exact fun _ _ found _ => located.storeData_some found

theorem setData_eq (linked : Linked list) (split : list.leafEntries leaf = front ++ entry :: back)
    (data : Option α) :
    ∃ list', list.setData entry.1 data = .ok list' ∧
      Rewritten list list' leaf (front ++ (entry.1, { entry.2 with data := data }) :: back) ∧
      list'.freed = list.freed := by
  obtain ⟨_, located⟩ := Represents.located linked split
  exact ⟨_, located.setData_eq data, located.storeData_rewritten linked split data, rfl⟩

end Store

structure Spliced (list list' : HashList α) (before after : List (Entry α)) : Prop where
  linked : Linked list'
  frame : SameFrame list list'
  split : ∃ front back, list.entries = front ++ before ++ back ∧
    list'.entries = front ++ after ++ back

theorem Rewritten.spliced {list list' : HashList α} (hash : Hash)
    (front before after back : List (Entry α)) (linked : Linked list)
    (split : list.leafEntries (list.getLeaf hash) = front ++ before ++ back)
    (rewritten : Rewritten list list' (list.getLeaf hash) (front ++ after ++ back)) :
    Spliced list list' before after := by
  refine ⟨rewritten.linked, rewritten.frame, ?_⟩
  obtain ⟨ahead, behind, whole, replace⟩ := Represents.entries_update linked hash
  refine ⟨ahead ++ front, back ++ behind, ?_, ?_⟩
  · rw [whole, split]
    simp
  · rw [replace list' _ rewritten.frame.header rewritten.represents]
    simp

theorem setHash_inserts {list : HashList α} (linked : Linked list) {hash : Hash}
    (length : hash.length = list.hashLength) (absent : list.lookup hash = none) :
    ∃ list', setHash list hash = .ok (list', list.fresh) ∧
      Spliced list list' [] [(list.fresh, ⟨hash, list.getLeaf hash, none⟩)] ∧
      list'.freed = list.freed := by
  obtain ⟨list', front, back, completed, split, rewritten, freed⟩ :=
    setHash_fresh linked length absent
  refine ⟨list', completed, Rewritten.spliced hash front [] [_] back linked ?_ ?_, freed⟩
  · simpa using split
  · simpa using rewritten

theorem deleteItem_removes {list : HashList α} (linked : Linked list) {entry : Entry α}
    (member : entry ∈ list.entries) :
    ∃ list', deleteItem list entry.1 = .ok list' ∧ Spliced list list' [entry] [] ∧
      list'.freed = list.freed ++ entry.2.data.toList := by
  obtain ⟨front, back, split⟩ := List.append_of_mem ((mem_entries linked).mp member)
  obtain ⟨list', completed, rewritten, freed⟩ := deleteItem_eq linked split
  refine ⟨list', completed, Rewritten.spliced entry.2.hash front [entry] [] back linked ?_ ?_, freed⟩
  · simpa using split
  · simpa using rewritten

theorem setData_stores {list : HashList α} (linked : Linked list) {entry : Entry α}
    (member : entry ∈ list.entries) (data : Option α) :
    ∃ list', list.setData entry.1 data = .ok list' ∧
      Spliced list list' [entry] [(entry.1, { entry.2 with data := data })] ∧
      list'.freed = list.freed := by
  obtain ⟨front, back, split⟩ := List.append_of_mem ((mem_entries linked).mp member)
  obtain ⟨list', completed, rewritten, freed⟩ := setData_eq linked split data
  refine ⟨list', completed, Rewritten.spliced entry.2.hash front [entry] [_] back linked ?_ ?_, freed⟩
  · simpa using split
  · simpa using rewritten

namespace Spliced

theorem perm {list list' : HashList α} {before after : List (Entry α)}
    (spliced : Spliced list list' before after) :
    ∃ rest, list.entries.Perm (before ++ rest) ∧ list'.entries.Perm (after ++ rest) := by
  obtain ⟨front, back, old, new⟩ := spliced.split
  refine ⟨front ++ back, ?_, ?_⟩
  · rw [old, List.append_assoc]
    exact List.perm_append_comm_assoc front before back
  · rw [new, List.append_assoc]
    exact List.perm_append_comm_assoc front after back

variable {list list' : HashList α} {before after : Entry α}

theorem lookup_insert (spliced : Spliced list list' [] [after]) :
    list'.lookup = Function.update list.lookup after.2.hash (some after) := by
  obtain ⟨front, back, old, new⟩ := spliced.split
  have distinct := entries_hash_nodup spliced.linked
  simp only [List.append_nil, List.append_assoc, List.singleton_append] at old new
  rw [new] at distinct
  rw [lookup_eq_findKey, lookup_eq_findKey, new, old]
  exact Keyed.findKey_insert distinct

theorem lookup_remove (linked : Linked list) (spliced : Spliced list list' [before] []) :
    list'.lookup = Function.update list.lookup before.2.hash none := by
  obtain ⟨front, back, old, new⟩ := spliced.split
  have distinct := entries_hash_nodup linked
  simp only [List.append_nil, List.append_assoc, List.singleton_append] at old new
  rw [old] at distinct
  rw [lookup_eq_findKey, lookup_eq_findKey, new, old]
  exact Keyed.findKey_remove distinct

theorem lookup_replace (linked : Linked list) (spliced : Spliced list list' [before] [after])
    (same : after.2.hash = before.2.hash) :
    list'.lookup = Function.update list.lookup before.2.hash (some after) := by
  obtain ⟨front, back, old, new⟩ := spliced.split
  have distinct := entries_hash_nodup linked
  have distinct' := entries_hash_nodup spliced.linked
  simp only [List.append_assoc, List.singleton_append] at old new
  rw [old] at distinct
  rw [new] at distinct'
  rw [lookup_eq_findKey, lookup_eq_findKey, new, old, Keyed.findKey_insert distinct',
    Keyed.findKey_insert distinct]
  simp only [entryHash, same, Function.update_idem]

end Spliced

end Etracker
