import Etracker.Foundation.Bytes

namespace Foundation

namespace Bytes

variable {count : Nat}

def readAt (buffer : List UInt8) (offset count : Nat) : Option (Bytes count) :=
  if enough : offset + count ≤ buffer.length then
    some ⟨(buffer.drop offset).take count, by
      rw [List.length_take, List.length_drop]
      omega⟩
  else none

theorem readAt_eq {buffer : List UInt8} {offset : Nat} (enough : offset + count ≤ buffer.length) :
    ∃ bytes : Bytes count, readAt buffer offset count = some bytes ∧
      bytes.list = (buffer.drop offset).take count :=
  ⟨_, dif_pos enough, rfl⟩

end Bytes

namespace Records

variable {α : Type*} {size : Nat}

def records (size : Nat) : Nat → List α → List (List α)
  | 0, _ => []
  | count + 1, buffer => buffer.take size :: records size count (buffer.drop size)

@[simp] theorem records_length (count : Nat) (buffer : List α) :
    (records size count buffer).length = count := by
  induction count generalizing buffer with
  | zero => rfl
  | succ count ih => simp [records, ih]

theorem records_eq_map (count : Nat) (buffer : List α) :
    records size count buffer =
      (List.range count).map fun index => (buffer.drop (index * size)).take size := by
  induction count generalizing buffer with
  | zero => rfl
  | succ count ih =>
      have later (index : Nat) : size + index * size = index.succ * size := by
        rw [Nat.succ_mul, Nat.add_comm]
      rw [records, ih, List.range_succ_eq_map, List.map_cons, List.map_map]
      simp only [Nat.zero_mul, List.drop_zero, List.drop_drop, Function.comp_def, later]

theorem records_flatten {entries : List (List α)} (sized : ∀ entry ∈ entries, entry.length = size)
    (rest : List α) : records size entries.length (entries.flatten ++ rest) = entries := by
  induction entries with
  | nil => rfl
  | cons entry entries ih =>
      have first : entry.length = size := sized entry (by simp)
      have later := ih fun other member => sized other (by simp [member])
      rw [List.length_cons, records, List.flatten_cons, List.append_assoc,
        List.take_left' first, List.drop_left' first, later]

theorem length_flatten_of_sized {entries : List (List α)}
    (sized : ∀ entry ∈ entries, entry.length = size) :
    entries.flatten.length = size * entries.length := by
  induction entries with
  | nil => rfl
  | cons entry entries ih =>
      have first : entry.length = size := sized entry (by simp)
      have later := ih fun other member => sized other (by simp [member])
      rw [List.flatten_cons, List.length_append, first, later, List.length_cons, Nat.mul_succ,
        Nat.add_comm]

end Records

end Foundation
