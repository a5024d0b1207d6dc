import Etracker.Foundation.Bytes

namespace Foundation.Bytes

variable {count : Nat} {bytes : Bytes count} {front : List UInt8}

/-- `malloc`. The memory is filled with whatever was found there. -/
def fresh (found : Nat → UInt8) (count : Nat) : Bytes count :=
  ⟨(List.range count).map found, by rw [List.length_map, List.length_range]⟩

/-- `realloc`. What the memory is extended by is whatever was found there. -/
def resize (bytes : Bytes count) (found : Nat → UInt8) (more : Nat) : Bytes more :=
  ⟨bytes.list.take more ++ (List.range' count (more - count)).map found, by
    rw [List.length_append, List.length_take, List.length_map, List.length_range', bytes.length_eq]
    omega⟩

/-- `memcpy` into the memory, if there is room behind `offset`. -/
def write (bytes : Bytes count) (offset : Nat) (items : List UInt8) : Option (Bytes count) :=
  if room : offset + items.length ≤ count then
    some ⟨bytes.list.take offset ++ items ++ bytes.list.drop (offset + items.length), by
      rw [List.length_append, List.length_append, List.length_take, List.length_drop,
        bytes.length_eq]
      omega⟩
  else none

theorem prefix_resize (found : Nat → UInt8) {more : Nat} (begins : front <+: bytes.list)
    (enough : front.length ≤ more) : front <+: (bytes.resize found more).list := by
  have kept : front <+: bytes.list.take more := List.prefix_take_iff.mpr ⟨begins, enough⟩
  exact kept.trans (List.prefix_append _ _)

theorem prefix_write {items : List UInt8} (begins : front <+: bytes.list)
    (room : front.length + items.length ≤ count) :
    ∃ after, bytes.write front.length items = some after ∧ front ++ items <+: after.list := by
  have same : bytes.list.take front.length = front := (List.prefix_iff_eq_take.mp begins).symm
  have written : front ++ items <+:
      bytes.list.take front.length ++ items ++ bytes.list.drop (front.length + items.length) := by
    rw [same]
    exact List.prefix_append _ _
  exact ⟨_, dif_pos room, written⟩

end Foundation.Bytes
