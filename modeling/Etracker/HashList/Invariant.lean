import Etracker.Foundation.Chain
import Etracker.Foundation.Splice
import Etracker.HashList.Model

namespace Etracker

open Foundation Foundation.CString Foundation.Chain

variable {α σ : Type}

structure Stored (α : Type) where
  hash : Hash
  leaf : Path
  data : Option α

abbrev Entry (α : Type) := Address × Stored α

def itemLayout : Layout (Item α) (Stored α) where
  previous := Item.previousInLeaf
  next := Item.nextInLeaf
  payload item := ⟨item.hash, item.leaf, item.data⟩
  setPrevious link item := { item with previousInLeaf := link }
  setNext link item := { item with nextInLeaf := link }
  previous_setPrevious _ _ := rfl
  next_setPrevious _ _ := rfl
  payload_setPrevious _ _ := rfl
  previous_setNext _ _ := rfl
  next_setNext _ _ := rfl
  payload_setNext _ _ := rfl

/-- Paths of the leaves below a path, in the order in which `mapList` visits them. -/
def leafPaths : Nat → Path → List Path
  | 0, path => [path]
  | level + 1, path => branches.flatMap fun index => leafPaths level (path ++ [index])

namespace HashList

def leafEntries (list : HashList α) (leaf : Path) : List (Entry α) :=
  Chain.read itemLayout list.items list.fresh (list.firstItem leaf)

def entries (list : HashList α) : List (Entry α) :=
  (leafPaths list.level []).flatMap list.leafEntries

def lookup (list : HashList α) (hash : Hash) : Option (Entry α) :=
  list.entries.find? fun entry => entry.2.hash = hash

end HashList

/-- The `memcmp` order of two items of one list. -/
def Before (hashLength : Nat) (left right : Entry α) : Prop :=
  memcmp left.2.hash right.2.hash hashLength = .lt

/-- The list is laid out in memory exactly as `content` says: every leaf is a
doubly linked chain in strict `memcmp` order, every item sits in the leaf that
its hash selects and names it, and there are no other items. -/
structure Represents (list : HashList α) (content : Path → List (Entry α)) : Prop where
  linked : ∀ path, Segment itemLayout list.items none (list.firstItem path) (content path) none
  sorted : ∀ path, (content path).Pairwise (Before list.hashLength)
  routed : ∀ path, ∀ entry ∈ content path, entry.2.hash.length = list.hashLength ∧
    entry.2.leaf = path ∧ list.getLeaf entry.2.hash = path
  allocated : ∀ address item, list.items address = some item →
    address < list.fresh ∧ address ∈ addresses (content item.leaf)

/-- The layout part of the invariant, which also holds while semaphores are taken. -/
def Linked (list : HashList α) : Prop := Represents list list.leafEntries

/-- The representation invariant of a list that no traversal is busy with. A leaf
has its semaphore whenever semaphores are enabled at all, as every caller of
`initList` asks for. -/
structure Inv (list : HashList α) : Prop where
  linked : Linked list
  level_limit : list.level ≤ listLimitLevel
  level_hash : list.level ≤ list.hashLength
  leafSemaphore : list.semaphoreEnabled.global = true → list.semaphoreEnabled.leaf = true
  semaphores : list.semaphore = list.initialSemaphore

theorem branches_complete (index : UInt8) : index ∈ branches := by
  refine List.mem_map.mpr ⟨index.toNat, ?_, by simp⟩
  exact List.mem_range.mpr index.toNat_lt

theorem branches_nodup : branches.Nodup := by
  refine List.Nodup.map_on ?_ List.nodup_range
  intro left leftMember right rightMember same
  have leftBound : left < 256 := List.mem_range.mp leftMember
  have rightBound : right < 256 := List.mem_range.mp rightMember
  have value := congrArg UInt8.toNat same
  simpa [Nat.mod_eq_of_lt leftBound, Nat.mod_eq_of_lt rightBound] using value

theorem mem_leafPaths {level : Nat} {path leaf : Path} :
    leaf ∈ leafPaths level path ↔ ∃ suffix, leaf = path ++ suffix ∧ suffix.length = level := by
  induction level generalizing path with
  | zero =>
      simp only [leafPaths, List.mem_singleton]
      constructor
      · intro same
        exact ⟨[], by simpa using same, rfl⟩
      · rintro ⟨suffix, same, empty⟩
        rw [List.length_eq_zero_iff.mp empty, List.append_nil] at same
        exact same
  | succ level ih =>
      simp only [leafPaths, List.mem_flatMap, ih]
      constructor
      · rintro ⟨index, _, suffix, same, length⟩
        exact ⟨index :: suffix, by simpa using same, by simp [length]⟩
      · rintro ⟨suffix, same, length⟩
        cases suffix with
        | nil => simp at length
        | cons index suffix =>
            exact ⟨index, branches_complete index, suffix, by simpa using same,
              by simpa using length⟩

theorem leafPaths_nodup (level : Nat) (path : Path) : (leafPaths level path).Nodup := by
  induction level generalizing path with
  | zero => simp [leafPaths]
  | succ level ih =>
      rw [leafPaths, List.nodup_flatMap]
      refine ⟨fun index _ => ih _, ?_⟩
      refine branches_nodup.imp ?_
      intro left right differ leaf inLeft inRight
      obtain ⟨first, same, _⟩ := mem_leafPaths.mp inLeft
      obtain ⟨second, same', _⟩ := mem_leafPaths.mp inRight
      rw [same, List.append_assoc, List.append_assoc] at same'
      have heads := List.append_cancel_left same'
      simp only [List.singleton_append, List.cons.injEq] at heads
      exact differ heads.1

theorem getLeafFrom_length (header : ListHeader) (hash : Hash) (level nest : Nat) (path : Path) :
    (header.getLeafFrom hash level nest path).length = path.length + level := by
  induction level generalizing nest path with
  | zero => rfl
  | succ level ih =>
      simp only [ListHeader.getLeafFrom, ih, List.length_append, List.length_singleton]
      omega

theorem getLeaf_length (header : ListHeader) (hash : Hash) :
    (header.getLeaf hash).length = header.level := by
  simp [ListHeader.getLeaf, getLeafFrom_length]

theorem getLeaf_mem (header : ListHeader) (hash : Hash) :
    header.getLeaf hash ∈ leafPaths header.level [] :=
  mem_leafPaths.mpr ⟨header.getLeaf hash, rfl, getLeaf_length header hash⟩

namespace Represents

variable {list : HashList α} {content : Path → List (Entry α)}

theorem stored (rep : Represents list content) {path : Path} {entry : Entry α}
    (member : entry ∈ content path) : ∃ item, list.items entry.1 = some item ∧
      item.hash = entry.2.hash ∧ item.leaf = entry.2.leaf ∧ item.data = entry.2.data := by
  obtain ⟨item, stored, carried⟩ := segment_stored (rep.linked path) entry member
  exact ⟨item, stored, by simp [← carried, itemLayout], by simp [← carried, itemLayout],
    by simp [← carried, itemLayout]⟩

theorem hash_nodup (rep : Represents list content) (path : Path) :
    ((content path).map fun entry => entry.2.hash).Nodup := by
  rw [List.Nodup, List.pairwise_map]
  refine (rep.sorted path).imp ?_
  intro left right before same
  simp [Before, same] at before

theorem addresses_nodup (rep : Represents list content) (path : Path) :
    (addresses (content path)).Nodup := by
  have distinct := rep.hash_nodup path
  refine List.Nodup.map_on ?_ (List.Nodup.of_map _ distinct)
  intro left leftMember right rightMember same
  obtain ⟨item, found, leftHash, _⟩ := rep.stored leftMember
  obtain ⟨item', found', rightHash, _⟩ := rep.stored rightMember
  rw [same, found'] at found
  cases found
  exact List.inj_on_of_nodup_map distinct leftMember rightMember (leftHash.symm.trans rightHash)

theorem apart (rep : Represents list content) {path other : Path} (differ : other ≠ path)
    {address : Address} (member : address ∈ addresses (content other)) :
    address ∉ addresses (content path) := by
  intro here
  obtain ⟨left, leftMember, rfl⟩ := List.mem_map.mp member
  obtain ⟨right, rightMember, same⟩ := List.mem_map.mp here
  obtain ⟨item, found, _, leftLeaf, _⟩ := rep.stored leftMember
  obtain ⟨item', found', _, rightLeaf, _⟩ := rep.stored rightMember
  rw [same, found] at found'
  cases found'
  rw [(rep.routed other left leftMember).2.1] at leftLeaf
  rw [(rep.routed path right rightMember).2.1] at rightLeaf
  exact differ (leftLeaf.symm.trans rightLeaf)

theorem below (rep : Represents list content) (path : Path) :
    ∀ address ∈ addresses (content path), address < list.fresh := by
  intro address member
  obtain ⟨entry, inside, rfl⟩ := List.mem_map.mp member
  obtain ⟨item, found, _⟩ := rep.stored inside
  exact (rep.allocated _ _ found).1

theorem length_le (rep : Represents list content) (path : Path) :
    (content path).length ≤ list.fresh :=
  length_le_of_addresses_lt (rep.addresses_nodup path) (rep.below path)

theorem leafEntries_eq (rep : Represents list content) : list.leafEntries = content := by
  funext path
  exact read_segment list.fresh (rep.length_le path) (rep.linked path)

theorem toLinked (rep : Represents list content) : Linked list := by
  rw [Linked, rep.leafEntries_eq]
  exact rep

end Represents

theorem firstItem_eq_none_iff {list : HashList α} (linked : Linked list) (path : Path) :
    list.firstItem path = none ↔ list.leafEntries path = [] := by
  rw [segment_head (linked.linked path)]
  cases list.leafEntries path with
  | nil => exact ⟨fun _ => rfl, fun _ => rfl⟩
  | cons entry rest => exact ⟨nofun, nofun⟩

end Etracker
