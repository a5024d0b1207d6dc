import Mathlib.Data.List.TakeDrop

namespace Foundation

/-- `unsigned char [count]`. -/
structure Bytes (count : Nat) where
  list : List UInt8
  length_eq : list.length = count
  deriving DecidableEq

namespace Bytes

variable {count : Nat}

theorem ext {left right : Bytes count} (same : left.list = right.list) : left = right := by
  cases left
  cases right
  cases same
  rfl

attribute [simp] length_eq

def zero (count : Nat) : Bytes count := ⟨List.replicate count 0, List.length_replicate⟩

def set (bytes : Bytes count) (index : Nat) (value : UInt8) : Bytes count :=
  ⟨bytes.list.set index value, by simp⟩

/-- `memcpy` out of a buffer; a buffer that is too short is continued with zeros. -/
def ofList (count : Nat) (buffer : List UInt8) : Bytes count :=
  ⟨buffer.takeD count 0, List.takeD_length count buffer 0⟩

@[simp] theorem zero_list : (zero count).list = List.replicate count 0 := rfl

@[simp] theorem set_list (bytes : Bytes count) (index : Nat) (value : UInt8) :
    (bytes.set index value).list = bytes.list.set index value := rfl

theorem ofList_list (buffer : List UInt8) :
    (ofList count buffer).list = buffer.take count ++ List.replicate (count - buffer.length) 0 := by
  show buffer.takeD count 0 = _
  induction buffer generalizing count with
  | nil => simp
  | cons byte rest ih =>
      cases count with
      | zero => simp
      | succ count => simp [ih]

@[simp] theorem ofList_nil : ofList count [] = zero count := by
  apply ext
  simp [ofList_list]

theorem ofList_concat_of_lt {buffer : List UInt8} (byte : UInt8) (room : buffer.length < count) :
    (ofList count buffer).set buffer.length byte = ofList count (buffer ++ [byte]) := by
  obtain ⟨more, enough⟩ := Nat.exists_eq_add_of_lt room
  have left : count - buffer.length = more + 1 := by omega
  have fits : (buffer ++ [byte]).length ≤ count := by
    rw [List.length_append, List.length_singleton]
    exact room
  apply ext
  rw [set_list, ofList_list, ofList_list, left, List.take_of_length_le (by omega),
    List.take_of_length_le fits, List.set_append_right _ _ (by omega), Nat.sub_self,
    List.replicate_succ, List.set_cons_zero, List.length_append, List.length_singleton,
    List.append_assoc, List.singleton_append]
  congr 3
  omega

theorem ofList_concat_of_le {buffer : List UInt8} (byte : UInt8) (full : count ≤ buffer.length) :
    ofList count (buffer ++ [byte]) = ofList count buffer := by
  have none : count - buffer.length = 0 := by omega
  have none' : count - (buffer ++ [byte]).length = 0 := by
    rw [List.length_append]
    omega
  apply ext
  rw [ofList_list, ofList_list, none, none', List.take_append_of_le_length full]

end Bytes

end Foundation
