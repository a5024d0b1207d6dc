import Etracker.Argument.Model
import Etracker.Foundation.Buffer
import Etracker.Foundation.Outcome

/-! The growing buffers of `block.c`. There is always memory to be had. -/

namespace Etracker.Blocks

open Foundation

def blockStartAllocateSize : UInt32 := 2000
def blockMinFreeAllocateSize : UInt32 := 2000
def blockMinReAllocMultiply : UInt32 := 2

/-- `struct block`. The memory at `data` is as long as `allocated` says. -/
structure Block where
  allocated : UInt32
  data : Bytes allocated.toNat
  size : UInt32
  deriving DecidableEq

/-- What a call may not do: write at or past `allocated`, or read past the end of the
string it is given. -/
inductive BlockFault
  | outside
  | missing
  deriving DecidableEq, Repr

def Block.write (block : Block) (offset : UInt32) (items : List UInt8) : Except BlockFault Block :=
  match block.data.write offset.toNat items with
  | some data => pure { block with data := data }
  | none => throw .outside

section Memory

-- What is found in memory that was just asked for.
variable (found : Nat → UInt8)

def initBlock : Except BlockFault Block :=
  let block : Block :=
    { allocated := blockStartAllocateSize
      data := .fresh found blockStartAllocateSize.toNat
      size := 0 }
  block.write 0 [0]

/-- A null pointer to a block is `none`. -/
def resetBlock : Option Block → Except BlockFault Block
  | none => initBlock found
  | some block => Block.write { block with size := 0 } 0 [0]

def newAlloc (block : Block) (requiredSpace : UInt32) : UInt32 :=
  maxOf (block.allocated + requiredSpace + blockMinFreeAllocateSize)
    (block.allocated * blockMinReAllocMultiply)

def reAllocBlock (block : Block) (requiredSpace : UInt32) : Block :=
  if block.allocated > block.size + requiredSpace then block
  else
    let newAlloc := newAlloc block requiredSpace
    if newAlloc ≠ 0 then
      { block with
        allocated := newAlloc
        data := block.data.resize found newAlloc.toNat }
    else block

def checkSizeBlock (block : Block) : Option String :=
  if block.size < block.allocated then none else some "block->size >= block->allocated\n"

/-- `string` is the memory behind the pointer, as far as it may be read. -/
def addStringBlock (block : Block) (string : List UInt8) (requiredSpace : UInt32) :
    Except BlockFault (Block × Option String) := do
  let block := reAllocBlock found block requiredSpace
  if string.length < requiredSpace.toNat then throw .missing
  let block ← block.write block.size (string.take requiredSpace.toNat)
  let block := { block with size := block.size + requiredSpace }
  -- The byte for `printf`.
  let block ← block.write block.size [0]
  pure (block, checkSizeBlock block)

end Memory

end Etracker.Blocks
