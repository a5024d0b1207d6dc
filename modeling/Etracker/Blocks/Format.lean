import Etracker.Blocks.Calls
import Etracker.Foundation.Words
import Etracker.Http.Respond

/-! Formatted texts and files in a block. `vsprintf` does not know how much room there is: the
callers have to ask for enough of it. -/

namespace Etracker.Blocks

open Foundation Foundation.CString Foundation.Outcome

section Model

variable (found : Nat → UInt8)

/-- `text` is what `vsprintf` prints; it puts a zero byte behind it. -/
def addFormatStringBlock (block : Block) (requiredSpace : UInt32) (text : List UInt8) :
    Except BlockFault (Block × Option String) := do
  let block := reAllocBlock found block requiredSpace
  let block ← block.write block.size (text ++ [0])
  let block := { block with size := block.size + UInt32.ofNat text.length }
  -- The byte for `printf`.
  let block ← block.write block.size [0]
  pure (block, checkSizeBlock block)

def addFileBlock (files : Http.Files) (block : Block) (requiredSpace : UInt32)
    (filename : List UInt8) : Except BlockFault (Block × Option String) := do
  let block := reAllocBlock found block requiredSpace
  let block ← match files.fopen filename with
    | .error errno => do
        let (block, _) ← addFormatStringBlock found block 300
          (ascii "fopen failed: " ++ files.errorText errno)
        pure block
    | .ok (content, errno) => do
        let block ← block.write block.size (content.take requiredSpace.toNat)
        if requiredSpace.toNat ≤ content.length then
          pure { block with size := block.size + requiredSpace }
        else do
          let (block, _) ← addFormatStringBlock found block 300
            (ascii "fread failed: " ++ files.errorText errno)
          pure block
  let block ← block.write block.size [0]
  pure (block, checkSizeBlock block)

namespace Block

/-- `addStringBlock`, whatever it prints. -/
def addString (block : Block) (string : List UInt8) (requiredSpace : UInt32) :
    Except BlockFault Block := do
  let (block, _) ← addStringBlock found block string requiredSpace
  pure block

def addFormat (block : Block) (requiredSpace : UInt32) (text : List UInt8) :
    Except BlockFault Block := do
  let (block, _) ← addFormatStringBlock found block requiredSpace text
  pure block

def addFile (block : Block) (files : Http.Files) (requiredSpace : UInt32)
    (filename : List UInt8) : Except BlockFault Block := do
  let (block, _) ← addFileBlock found files block requiredSpace filename
  pure block

end Block

end Model

namespace Block

/-- The memory that a block has at most, when nobody asks for more than `limit` bytes. -/
def mostAllocated (limit : Nat) : Nat := 2 * limit + 2000

/-- A block in the middle of a call. -/
structure Fills (limit : Nat) (block : Block) (string : List UInt8) : Prop extends
    block.Begins string where
  bounded : block.allocated.toNat ≤ mostAllocated limit

/-- A block between two calls. -/
structure Keeps (limit : Nat) (block : Block) (string : List UInt8) : Prop where
  holds : block.Holds string
  bounded : block.allocated.toNat ≤ mostAllocated limit

variable {limit : Nat} {block : Block} {string : List UInt8}

theorem Keeps.fills (keeps : block.Keeps limit string) : block.Fills limit string :=
  ⟨keeps.holds.started, keeps.bounded⟩

theorem Keeps.cString (keeps : block.Keeps limit string) :
    cString block.data.list = cString string := by
  obtain ⟨rest, whole⟩ := keeps.holds.begins
  have zero : (0 : UInt8) ∈ string ++ [0] := List.mem_append_right _ List.mem_cons_self
  rw [← whole, cString_append_of_mem zero]
  exact cString_append_zeros string 1

theorem Keeps.content (keeps : block.Keeps limit string) :
    block.data.list.take block.size.toNat = string :=
  keeps.holds.content

theorem Fills.write (fills : block.Fills limit string) {text written : List UInt8} {size : UInt32}
    (starts : text <+: written) (total : size.toNat = string.length + text.length)
    (enough : string.length + written.length ≤ block.allocated.toNat)
    (room : string.length + text.length < block.allocated.toNat) :
    ∃ data, block.write block.size written = .ok { block with data := data } ∧
      Block.Fills limit { block with data := data, size := size } (string ++ text) := by
  obtain ⟨data, done, begins⟩ := Block.write_begins fills.inFront fills.size enough
  have length : (string ++ text).length = string.length + text.length := List.length_append
  have inFront : string ++ text <+: data.list :=
    ((List.prefix_append_right_inj string).mpr starts).trans begins
  exact ⟨data, done, ⟨total.trans length.symm, inFront, length ▸ room⟩, fills.bounded⟩

theorem Fills.ends (fills : block.Fills limit string) :
    ∃ after, block.write block.size [0] = .ok after ∧ after.Keeps limit string ∧
      checkSizeBlock after = none := by
  have one : string.length + [(0 : UInt8)].length ≤ block.allocated.toNat := fills.room
  obtain ⟨data, done, begins⟩ := Block.write_begins fills.inFront fills.size one
  have holds : Block.Holds { block with data := data } string := ⟨fills.size, begins⟩
  exact ⟨_, done, ⟨holds, fills.bounded⟩, if_pos holds.room⟩

section Calls

variable (found : Nat → UInt8) {requiredSpace : UInt32}

theorem Fills.reAlloc (fills : block.Fills limit string) (small : limit ≤ 2 ^ 30)
    (within : string.length + requiredSpace.toNat ≤ limit) :
    (reAllocBlock found block requiredSpace).Fills limit string ∧
      (reAllocBlock found block requiredSpace).size = block.size ∧
      string.length + requiredSpace.toNat <
        (reAllocBlock found block requiredSpace).allocated.toNat := by
  obtain ⟨same, room, most, inFront⟩ := fills.toBegins.reAlloc found (within.trans small)
  have bounded := fills.bounded
  rw [mostAllocated] at bounded
  refine ⟨⟨⟨?_, inFront, (Nat.le_add_right _ _).trans_lt room⟩, ?_⟩, same, room⟩
  · rw [same, fills.size]
  · rw [mostAllocated]
    omega

theorem Fills.stringBlock (fills : block.Fills limit string) (small : limit ≤ 2 ^ 30)
    (within : string.length + requiredSpace.toNat ≤ limit) {text : List UInt8}
    (readable : requiredSpace.toNat ≤ text.length) :
    ∃ after, addStringBlock found block text requiredSpace = .ok (after, none) ∧
      after.Keeps limit (string ++ text.take requiredSpace.toNat) := by
  obtain ⟨after, added, holds, most⟩ :=
    fills.toBegins.addStringBlock found (within.trans small) readable
  have bounded := fills.bounded
  rw [mostAllocated] at bounded
  refine ⟨after, added, holds, ?_⟩
  rw [mostAllocated]
  omega

theorem Fills.formatStringBlock (fills : block.Fills limit string) (small : limit ≤ 2 ^ 30)
    (within : string.length + requiredSpace.toNat ≤ limit) {text : List UInt8}
    (fits : text.length ≤ requiredSpace.toNat) :
    ∃ after, addFormatStringBlock found block requiredSpace text = .ok (after, none) ∧
      after.Keeps limit (string ++ text) := by
  obtain ⟨fills', same, room⟩ := fills.reAlloc found small within
  have total : (block.size + UInt32.ofNat text.length).toNat = string.length + text.length := by
    rw [UInt32.toNat_add, fills.size, UInt32.toNat_ofNat']
    omega
  have printed : (text ++ [0]).length = text.length + 1 := List.length_append
  unfold addFormatStringBlock
  generalize reAllocBlock found block requiredSpace = block' at fills' same room
  rw [← same] at total
  obtain ⟨data, done, fills''⟩ :=
    fills'.write (List.prefix_append text [0]) total (by omega) (by omega)
  obtain ⟨after, ended, keeps, silent⟩ := fills''.ends
  simp only [done, ok_bind, ended, pure_eq_ok, silent]
  exact ⟨_, rfl, keeps⟩

end Calls

end Block

theorem Block.Fills.addText {limit : Nat} {block : Block} {held : List UInt8}
    (fills : block.Fills limit held) (found : Nat → UInt8) (small : limit ≤ 2 ^ 30)
    (within : held.length + 300 ≤ limit) {text : List UInt8} (fits : text.length ≤ 300) :
    ∃ printed ended, addFormatStringBlock found block 300 text = .ok (printed, none) ∧
      printed.write printed.size [0] = .ok ended ∧ ended.Keeps limit (held ++ text) ∧
      checkSizeBlock ended = none := by
  have space : (300 : UInt32).toNat = 300 := rfl
  obtain ⟨printed, done, keeps⟩ :=
    @Block.Fills.formatStringBlock limit block held found 300 fills small within text fits
  obtain ⟨ended, written, keeps', silent⟩ := keeps.fills.ends
  exact ⟨printed, ended, done, written, keeps', silent⟩

inductive FileError (files : Http.Files) : Int → Prop
  | realpath {path : List UInt8} {errno : Int} :
      files.realpath path = .error errno → FileError files errno
  | stat {path : List UInt8} {errno : Int} : files.stat path = .error errno → FileError files errno
  | fopen {path : List UInt8} {errno : Int} :
      files.fopen path = .error errno → FileError files errno
  | fread {path content : List UInt8} {errno : Int} :
      files.fopen path = .ok (content, errno) → FileError files errno

def ShortErrors (files : Http.Files) : Prop :=
  ∀ errno, FileError files errno → (files.errorText errno).length ≤ 286

theorem Block.Keeps.fileBlock {limit : Nat} {block : Block} {held : List UInt8}
    (keeps : block.Keeps limit held) (found : Nat → UInt8) (small : limit ≤ 2 ^ 30)
    {requiredSpace : UInt32} (within : held.length + requiredSpace.toNat + 300 ≤ limit)
    (files : Http.Files) (told : ShortErrors files) (filename : List UInt8) :
    ∃ after, addFileBlock found files block requiredSpace filename = .ok (after, none) ∧
      after.Keeps limit (held ++ files.addFileBlock requiredSpace.toNat filename) := by
  obtain ⟨fills, same, room⟩ :=
    @Block.Fills.reAlloc limit block held found requiredSpace keeps.fills small (by omega)
  have fits : ∀ title : List UInt8, title.length = 14 → ∀ errno, FileError files errno →
      (title ++ files.errorText errno).length ≤ 300 := by
    intro title length errno given
    have said := told errno given
    rw [List.length_append]
    omega
  unfold addFileBlock Http.Files.addFileBlock
  generalize reAllocBlock found block requiredSpace = block' at fills same room
  cases opens : files.fopen filename with
  | error errno =>
      obtain ⟨printed, ended, done, written, keeps', silent⟩ :=
        fills.addText found small (by omega)
          (fits (ascii "fopen failed: ") rfl errno (.fopen opens))
      simp only [done, ok_bind, pure_eq_ok, written, silent]
      exact ⟨_, rfl, keeps'⟩
  | ok opened =>
      obtain ⟨content, errno⟩ := opened
      have part : (content.take requiredSpace.toNat).length ≤ requiredSpace.toNat :=
        List.length_take_le _ _
      have enough : held.length + (content.take requiredSpace.toNat).length ≤
          block'.allocated.toNat := by omega
      by_cases whole : requiredSpace.toNat ≤ content.length
      · have copied : (content.take requiredSpace.toNat).length = requiredSpace.toNat :=
          List.length_take_of_le whole
        have total : (block'.size + requiredSpace).toNat =
            held.length + (content.take requiredSpace.toNat).length := by
          rw [UInt32.toNat_add, fills.size, copied]
          omega
        obtain ⟨data, done, fills'⟩ :=
          fills.write (List.prefix_refl _) total enough (by omega)
        obtain ⟨ended, written, keeps', silent⟩ := fills'.ends
        simp only [done, ok_bind, pure_eq_ok, if_pos whole, written, silent]
        exact ⟨_, rfl, keeps'⟩
      · have total : block'.size.toNat = held.length + ([] : List UInt8).length := fills.size
        obtain ⟨data, done, fills'⟩ :=
          fills.write List.nil_prefix total enough fills.room
        rw [List.append_nil] at fills'
        obtain ⟨printed, ended, done', written, keeps', silent⟩ :=
          fills'.addText found small (by omega)
            (fits (ascii "fread failed: ") rfl errno (.fread opens))
        simp only [done, ok_bind, pure_eq_ok, if_neg whole, done', written, silent]
        exact ⟨_, rfl, keeps'⟩

/-- A call that appends a text and asks for no more than `space` bytes on its way. -/
structure Appends (call : Block → Except BlockFault Block) (text : List UInt8) (space : Nat) :
    Prop where
  fits : text.length ≤ space
  keeps : ∀ {limit : Nat} {block : Block} {held : List UInt8}, limit ≤ 2 ^ 30 →
    block.Keeps limit held → held.length + space ≤ limit →
    ∃ after, call block = .ok after ∧ after.Keeps limit (held ++ text)

namespace Appends

variable {call next : Block → Except BlockFault Block} {text text' : List UInt8}
  {space space' : Nat}

theorem nothing : Appends pure [] 0 := by
  refine ⟨Nat.le_refl _, ?_⟩
  intro limit block held small keeps within
  rw [List.append_nil]
  exact ⟨block, rfl, keeps⟩

theorem bind (first : Appends call text space) (second : Appends next text' space') :
    Appends (fun block => call block >>= next) (text ++ text') (space + space') := by
  refine ⟨?_, ?_⟩
  · rw [List.length_append]
    exact Nat.add_le_add first.fits second.fits
  · intro limit block held small keeps within
    obtain ⟨middle, done, keeps'⟩ := first.keeps small keeps (by omega)
    have fits := first.fits
    have within' : (held ++ text).length + space' ≤ limit := by
      rw [List.length_append]
      omega
    obtain ⟨after, done', keeps''⟩ := second.keeps small keeps' within'
    rw [List.append_assoc] at keeps''
    refine ⟨after, ?_, keeps''⟩
    rw [done]
    exact done'

theorem foldlM {Item : Type} {call : Block → Item → Except BlockFault Block}
    {text : Item → List UInt8} (each : ∀ item, Appends (fun block => call block item) (text item)
      space) (items : List Item) :
    Appends (fun block => items.foldlM call block) (items.flatMap text) (items.length * space) := by
  induction items with
  | nil =>
      rw [List.length_nil, Nat.zero_mul]
      exact nothing
  | cons item rest ih =>
      rw [List.length_cons, Nat.succ_mul, Nat.add_comm]
      exact (each item).bind ih

theorem change (appends : Appends call text space) (same : text = text')
    (wider : space ≤ space') : Appends call text' space' := by
  subst same
  exact ⟨appends.fits.trans wider, fun small keeps within =>
    appends.keeps small keeps ((Nat.add_le_add_left wider _).trans within)⟩

variable (found : Nat → UInt8) {requiredSpace : UInt32}

theorem string (readable : requiredSpace.toNat ≤ text.length) :
    Appends (fun block => block.addString found text requiredSpace)
      (text.take requiredSpace.toNat) requiredSpace.toNat := by
  refine ⟨List.length_take_le _ _, ?_⟩
  intro limit block held small keeps within
  obtain ⟨after, done, keeps'⟩ := keeps.fills.stringBlock found small within readable
  refine ⟨after, ?_, keeps'⟩
  rw [Block.addString, done]
  rfl

theorem whole (length : requiredSpace.toNat = text.length) :
    Appends (fun block => block.addString found text requiredSpace) text requiredSpace.toNat := by
  have part := string found length.le
  rw [length, List.take_length, ← length] at part
  exact part

theorem format (fits : text.length ≤ requiredSpace.toNat) :
    Appends (fun block => block.addFormat found requiredSpace text) text requiredSpace.toNat := by
  refine ⟨fits, ?_⟩
  intro limit block held small keeps within
  obtain ⟨after, done, keeps'⟩ := keeps.fills.formatStringBlock found small within fits
  refine ⟨after, ?_, keeps'⟩
  rw [Block.addFormat, done]
  rfl

end Appends

theorem Block.Keeps.copies {limit : Nat} {source : Block} {string : List UInt8}
    (keeps : source.Keeps limit string) (found : Nat → UInt8) :
    Appends (fun block => block.addString found source.data.list source.size) string
      string.length := by
  have size := keeps.holds.size
  have within : source.size.toNat ≤ source.data.list.length :=
    size.trans_le keeps.holds.inFront.length_le
  exact (Appends.string found within).change keeps.content size.le

theorem Block.Keeps.reset {limit : Nat} {block : Block} {held : List UInt8}
    (keeps : block.Keeps limit held) (found : Nat → UInt8) :
    ∃ after, resetBlock found (some block) = .ok after ∧ after.Keeps limit [] := by
  have fills : Block.Fills limit { block with size := 0 } [] :=
    ⟨⟨rfl, List.nil_prefix, Nat.zero_lt_of_lt keeps.holds.length_lt⟩, keeps.bounded⟩
  obtain ⟨after, done, keeps', _⟩ := fills.ends
  exact ⟨after, done, keeps'⟩

theorem initBlock_keeps (found : Nat → UInt8) (limit : Nat) :
    ∃ block, initBlock found = .ok block ∧ block.Keeps limit [] := by
  have room : 0 < blockStartAllocateSize.toNat := by decide
  have fills : Block.Fills limit
      ⟨blockStartAllocateSize, .fresh found blockStartAllocateSize.toNat, 0⟩ [] :=
    ⟨⟨rfl, List.nil_prefix, room⟩, Nat.le_add_left _ _⟩
  obtain ⟨after, done, keeps', _⟩ := fills.ends
  exact ⟨after, done, keeps'⟩

end Etracker.Blocks
