import Etracker.Blocks.Model
import Etracker.Foundation.Runs

namespace Etracker.Blocks

open Foundation Foundation.Outcome Foundation.Runs

/-- The block holds the string, and a zero byte stands behind it. -/
structure Block.Holds (block : Block) (string : List UInt8) : Prop where
  size : block.size.toNat = string.length
  begins : string ++ [0] <+: block.data.list

namespace Block.Holds

variable {block : Block} {string : List UInt8}

theorem length_lt (holds : block.Holds string) : string.length < block.allocated.toNat := by
  have within := holds.begins.length_le
  rw [block.data.length_eq, List.length_append, List.length_singleton] at within
  exact within

theorem room (holds : block.Holds string) : block.size < block.allocated := by
  rw [UInt32.lt_iff_toNat_lt, holds.size]
  exact holds.length_lt

theorem inFront (holds : block.Holds string) : string <+: block.data.list :=
  (List.prefix_append _ _).trans holds.begins

theorem content (holds : block.Holds string) :
    block.data.list.take block.size.toNat = string := by
  rw [holds.size]
  exact (List.prefix_iff_eq_take.mp holds.inFront).symm

theorem ended (holds : block.Holds string) : block.data.list[block.size.toNat]? = some 0 := by
  obtain ⟨rest, all⟩ := holds.begins
  rw [holds.size, ← all, List.append_assoc, List.getElem?_append_right (Nat.le_refl _),
    Nat.sub_self]
  rfl

end Block.Holds

/-- The memory of a block begins with the string, and there is room for a byte behind it. -/
structure Block.Begins (block : Block) (string : List UInt8) : Prop where
  size : block.size.toNat = string.length
  inFront : string <+: block.data.list
  room : string.length < block.allocated.toNat

theorem Block.Holds.started {block : Block} {string : List UInt8} (holds : block.Holds string) :
    block.Begins string :=
  ⟨holds.size, holds.inFront, holds.length_lt⟩

theorem Block.Begins.size_add {block : Block} {string : List UInt8} (begins : block.Begins string)
    {requiredSpace : UInt32} (limit : string.length + requiredSpace.toNat ≤ 2 ^ 30) :
    (block.size + requiredSpace).toNat = string.length + requiredSpace.toNat := by
  rw [UInt32.toNat_add, begins.size]
  exact Nat.mod_eq_of_lt (Nat.lt_of_le_of_lt limit (by decide))

theorem Block.write_begins {block : Block} {offset : UInt32} {front items : List UInt8}
    (begins : front <+: block.data.list) (place : offset.toNat = front.length)
    (room : front.length + items.length ≤ block.allocated.toNat) :
    ∃ data, block.write offset items = .ok { block with data := data } ∧
      front ++ items <+: data.list := by
  obtain ⟨data, written, begins⟩ := Bytes.prefix_write begins room
  refine ⟨data, ?_, begins⟩
  rw [Block.write, place, written]
  rfl

theorem Block.write_first {block : Block} (empty : block.size = 0)
    (room : 0 < block.allocated.toNat) :
    ∃ after, block.write 0 [0] = .ok after ∧ after.Holds [] := by
  have nothing : [] <+: block.data.list := List.nil_prefix
  have place : (0 : UInt32).toNat = ([] : List UInt8).length := rfl
  have one : ([] : List UInt8).length + [(0 : UInt8)].length ≤ block.allocated.toNat := room
  obtain ⟨data, written, begins⟩ := Block.write_begins nothing place one
  have size : block.size.toNat = ([] : List UInt8).length := by
    rw [empty]
    rfl
  exact ⟨_, written, size, begins⟩

section Memory

variable (found : Nat → UInt8) {block : Block} {string : List UInt8} {requiredSpace : UInt32}

theorem initBlock_holds : ∃ block, initBlock found = .ok block ∧ block.Holds [] := by
  have room : 0 < blockStartAllocateSize.toNat := by decide
  unfold initBlock
  exact Block.write_first rfl room

theorem resetBlock_holds (holds : block.Holds string) :
    ∃ after, resetBlock found (some block) = .ok after ∧ after.Holds [] := by
  unfold resetBlock
  exact Block.write_first rfl (Nat.zero_lt_of_lt holds.length_lt)

/-- The new size is computed without a carry out of 32 bits. -/
theorem newAlloc_toNat (allocated : block.allocated.toNat ≤ 2 ^ 30)
    (required : requiredSpace.toNat ≤ 2 ^ 30) :
    (newAlloc block requiredSpace).toNat =
      max (block.allocated.toNat + requiredSpace.toNat + 2000) (block.allocated.toNat * 2) := by
  have free : blockMinFreeAllocateSize.toNat = 2000 := rfl
  have multiply : blockMinReAllocMultiply.toNat = 2 := rfl
  rw [newAlloc, maxOf_toNat, UInt32.toNat_add, UInt32.toNat_add, UInt32.toNat_mul, free, multiply]
  omega

theorem Block.Begins.reAlloc (begins : block.Begins string)
    (limit : string.length + requiredSpace.toNat ≤ 2 ^ 30) :
    (reAllocBlock found block requiredSpace).size = block.size ∧
      string.length + requiredSpace.toNat <
        (reAllocBlock found block requiredSpace).allocated.toNat ∧
      (reAllocBlock found block requiredSpace).allocated.toNat ≤
        max block.allocated.toNat (2 * (string.length + requiredSpace.toNat) + 2000) ∧
      string <+: (reAllocBlock found block requiredSpace).data.list := by
  have total := begins.size_add limit
  have inside := begins.room
  unfold reAllocBlock
  by_cases enough : block.allocated > block.size + requiredSpace
  · rw [if_pos enough]
    rw [gt_iff_lt, UInt32.lt_iff_toNat_lt, total] at enough
    exact ⟨rfl, enough, Nat.le_max_left _ _, begins.inFront⟩
  · rw [if_neg enough]
    rw [gt_iff_lt, UInt32.lt_iff_toNat_lt, total] at enough
    have size : (newAlloc block requiredSpace).toNat =
        max (block.allocated.toNat + requiredSpace.toNat + 2000) (block.allocated.toNat * 2) :=
      newAlloc_toNat (by omega) (by omega)
    dsimp only
    generalize newAlloc block requiredSpace = grown at size
    have room : string.length + requiredSpace.toNat < grown.toNat := by
      calc
        string.length + requiredSpace.toNat < block.allocated.toNat + requiredSpace.toNat :=
          Nat.add_lt_add_right inside _
        _ ≤ block.allocated.toNat + requiredSpace.toNat + 2000 := Nat.le_add_right _ _
        _ ≤ max (block.allocated.toNat + requiredSpace.toNat + 2000)
            (block.allocated.toNat * 2) := Nat.le_max_left _ _
        _ = grown.toNat := size.symm
    have grows : grown ≠ 0 := by
      intro none
      rw [none] at room
      exact Nat.not_lt_zero _ room
    have most : grown.toNat ≤
        max block.allocated.toNat (2 * (string.length + requiredSpace.toNat) + 2000) := by
      omega
    have inFront : string <+: (block.data.resize found grown.toNat).list :=
      Bytes.prefix_resize found begins.inFront ((Nat.le_add_right _ _).trans room.le)
    rw [if_pos grows]
    exact ⟨rfl, room, most, inFront⟩

theorem Block.Begins.addStringBlock (begins : block.Begins string)
    (limit : string.length + requiredSpace.toNat ≤ 2 ^ 30) {text : List UInt8}
    (readable : requiredSpace.toNat ≤ text.length) :
    ∃ after, Blocks.addStringBlock found block text requiredSpace = .ok (after, none) ∧
      after.Holds (string ++ text.take requiredSpace.toNat) ∧
      after.allocated.toNat ≤
        max block.allocated.toNat (2 * (string.length + requiredSpace.toNat) + 2000) := by
  obtain ⟨same, room, bounded, inFront⟩ := begins.reAlloc found limit
  have total : (block.size + requiredSpace).toNat =
      (string ++ text.take requiredSpace.toNat).length := by
    rw [begins.size_add limit, List.length_append, List.length_take_of_le readable]
  have place := begins.size
  unfold Blocks.addStringBlock
  generalize reAllocBlock found block requiredSpace = block' at same room bounded inFront
  rw [← same] at total place
  have fits : string.length + (text.take requiredSpace.toNat).length ≤ block'.allocated.toNat := by
    rw [List.length_take_of_le readable]
    exact room.le
  obtain ⟨data, copies, begins'⟩ := Block.write_begins inFront place fits
  have behind : (string ++ text.take requiredSpace.toNat).length + [(0 : UInt8)].length ≤
      block'.allocated.toNat := by
    rw [List.length_append, List.length_take_of_le readable]
    exact room
  obtain ⟨data', ends, begins''⟩ :=
    @Block.write_begins { block' with data := data, size := block'.size + requiredSpace } _ _ _
      begins' total behind
  have after : Block.Holds { block' with data := data', size := block'.size + requiredSpace }
      (string ++ text.take requiredSpace.toNat) := ⟨total, begins''⟩
  rw [if_neg (Nat.not_lt.mpr readable), copies]
  simp only [ok_bind, ends, pure_eq_ok, checkSizeBlock, if_pos after.room]
  exact ⟨_, rfl, after, bounded⟩

theorem addStringBlock_missing (short : string.length < requiredSpace.toNat) :
    addStringBlock found block string requiredSpace = .error .missing := by
  unfold addStringBlock
  rw [if_pos short]
  rfl

end Memory

/-- A call of one of the functions, with what is found in memory that it asks for. -/
inductive BlockCall
  | reset (found : Nat → UInt8)
  | addString (string : List UInt8) (requiredSpace : UInt32) (found : Nat → UInt8)

namespace BlockCall

def run : BlockCall → Block → Except BlockFault (Block × Option String)
  | reset found, block => do
      let block ← resetBlock found (some block)
      pure (block, none)
  | addString string requiredSpace found, block => addStringBlock found block string requiredSpace

def Takes (call : BlockCall) (before after : Block) : Prop :=
  ∃ printed, call.run before = .ok (after, printed)

def apply : BlockCall → List UInt8 → List UInt8
  | reset _, _ => []
  | addString string requiredSpace _, held => held ++ string.take requiredSpace.toNat

def total : BlockCall → List UInt8 → Nat
  | reset _, _ => 0
  | addString _ requiredSpace _, held => held.length + requiredSpace.toNat

/-- The string is as long as the call says. -/
def Readable : BlockCall → Prop
  | reset _ => True
  | addString string requiredSpace _ => requiredSpace.toNat ≤ string.length

instance : (call : BlockCall) → Decidable call.Readable
  | reset _ => inferInstanceAs (Decidable True)
  | addString string requiredSpace _ =>
      inferInstanceAs (Decidable (requiredSpace.toNat ≤ string.length))

def WithinLimit (call : BlockCall) (state : Block × List UInt8) : Prop :=
  call.total state.2 ≤ 2 ^ 30

theorem run_holds {call : BlockCall} {block : Block} {held : List UInt8}
    (holds : block.Holds held) (limit : call.WithinLimit (block, held))
    (readable : call.Readable) :
    ∃ after, call.run block = .ok (after, none) ∧ after.Holds (call.apply held) := by
  cases call with
  | reset found =>
      obtain ⟨after, reset, empty⟩ := resetBlock_holds found holds
      refine ⟨after, ?_, empty⟩
      rw [run, reset]
      rfl
  | addString string requiredSpace found =>
      obtain ⟨after, added, holds, _⟩ := holds.started.addStringBlock found limit readable
      exact ⟨after, added, holds⟩

theorem run_missing {call : BlockCall} (unreadable : ¬call.Readable) (block : Block) :
    call.run block = .error .missing := by
  cases call with
  | reset found => exact absurd trivial unreadable
  | addString string requiredSpace found =>
      exact addStringBlock_missing found (Nat.lt_of_not_le unreadable)

end BlockCall

/-- Calls that keep to the limit, beside the string that they stand for. -/
def BlockRun (block : Block) : Block × List UInt8 → Prop :=
  Reached (follows BlockCall.Takes BlockCall.apply) BlockCall.WithinLimit (block, [])

theorem blockRun_holds {block : Block} (empty : block.Holds []) {state : Block × List UInt8}
    (reached : BlockRun block state) : state.1.Holds state.2 := by
  apply reached.invariant fun state => state.1.Holds state.2
  · exact empty
  · intro call before after holds limit taken
    obtain ⟨⟨printed, completed⟩, same⟩ := taken
    by_cases readable : call.Readable
    · obtain ⟨block, run, holds⟩ := call.run_holds holds limit readable
      rw [run] at completed
      cases completed
      rw [same]
      exact holds
    · rw [call.run_missing readable] at completed
      cases completed

/-- Growing buffers never overflow. -/
theorem blockRun_never_overflows (found : Nat → UInt8) :
    ∃ block, initBlock found = .ok block ∧ ∀ state, BlockRun block state →
      state.1.size < state.1.allocated ∧
      state.1.data.list[state.1.size.toNat]? = some 0 ∧
      state.1.data.list.take state.1.size.toNat = state.2 ∧
      ∀ call : BlockCall, call.WithinLimit state →
        call.run state.1 ≠ .error .outside ∧
        (call.Readable → ∃ after, call.run state.1 = .ok (after, none)) := by
  obtain ⟨block, initial, empty⟩ := initBlock_holds found
  refine ⟨block, initial, ?_⟩
  intro state reached
  have holds := blockRun_holds empty reached
  refine ⟨holds.room, holds.ended, holds.content, ?_⟩
  intro call limit
  by_cases readable : call.Readable
  · obtain ⟨after, run, _⟩ := call.run_holds holds limit readable
    rw [run]
    exact ⟨nofun, fun _ => ⟨after, rfl⟩⟩
  · rw [call.run_missing readable]
    exact ⟨nofun, fun readable' => absurd readable' readable⟩

/-- A zero byte does not end a string, nothing is left of what stood there before the reset, and
the long string does not fit what was there at first. -/
theorem blockRun_never_overflows_grown : ∃ block state,
    initBlock (fun _ => 7) = .ok block ∧ BlockRun block state ∧
      state.1.data.list[state.1.size.toNat]? = some 0 ∧
      state.1.data.list.take state.1.size.toNat =
        [0x31, 0x32, 0, 0x34, 0x35] ++ List.replicate 2500 0x41 ++
          [0x31, 0x32, 0x33, 0x34, 0x35] ∧
      block.allocated.toNat = 2000 ∧ 2510 < state.1.allocated.toNat := by
  let first := BlockCall.addString [0x31, 0x32, 0, 0x34, 0x35, 0] 5 fun _ => 7
  let second := BlockCall.addString [0x31, 0x32, 0x33, 0x34, 0x35, 0] 5 fun _ => 7
  let long := BlockCall.addString (List.replicate 2500 0x41 ++ [0]) 2500 fun _ => 7
  let reset := BlockCall.reset fun _ => 7
  obtain ⟨block, initial, sound⟩ := blockRun_never_overflows fun _ => 7
  have next (call : BlockCall) (held : List UInt8) (limit : call.total held ≤ 2 ^ 30)
      (readable : call.Readable) (before : ∃ block', BlockRun block (block', held)) :
      ∃ block', BlockRun block (block', call.apply held) := by
    obtain ⟨block', reached⟩ := before
    obtain ⟨_, _, _, runs⟩ := sound _ reached
    obtain ⟨after, run⟩ := (runs call limit).2 readable
    exact ⟨after, reached.next limit ⟨⟨none, run⟩, rfl⟩⟩
  -- Something else stood in the block before the reset.
  have once := next second [] (by decide) (by decide) ⟨block, .start⟩
  have emptied := next reset _ (by decide) trivial once
  have again := next first _ (by decide) (by decide) emptied
  have grown := next long _ (by decide +kernel) (by decide +kernel) again
  obtain ⟨block', reached⟩ := next second _ (by decide +kernel) (by decide) grown
  obtain ⟨room, ended, content, _⟩ := sound _ reached
  have held : second.apply (long.apply (first.apply (reset.apply (second.apply [])))) =
      [0x31, 0x32, 0, 0x34, 0x35] ++ List.replicate 2500 0x41 ++
        [0x31, 0x32, 0x33, 0x34, 0x35] := by
    decide +kernel
  have small : block.allocated.toNat = 2000 := by
    have first : (initBlock fun _ => 7).map Block.allocated = .ok 2000 := rfl
    rw [initial] at first
    exact congrArg UInt32.toNat (Except.ok.inj first)
  have lengths := congrArg List.length (content.trans held)
  rw [List.length_take, block'.data.length_eq, List.length_append, List.length_append,
    List.length_replicate] at lengths
  simp only [List.length_cons, List.length_nil] at lengths
  have inside := UInt32.lt_iff_toNat_lt.mp room
  refine ⟨block, _, initial, reached, ended, content.trans held, small, ?_⟩
  dsimp only at inside ⊢
  omega

end Etracker.Blocks
