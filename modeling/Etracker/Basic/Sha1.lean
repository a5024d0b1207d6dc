import Etracker.Data.Packet
import Etracker.Foundation.Sha1
import Mathlib.Data.List.GetD

/-! `sha1.c`, on a little-endian host. -/

namespace Etracker.Basic

open Foundation

def htonl (value : UInt32) : UInt32 := readBigEndian (littleEndianBytes value) 0

def htonll (x : UInt64) : UInt64 :=
  ((htonl (x &&& 0xFFFFFFFF).toUInt32).toUInt64 <<< 32) + (htonl (x >>> 32).toUInt32).toUInt64

def longLongBytes (value : UInt64) : List UInt8 :=
  littleEndianBytes value.toUInt32 ++ littleEndianBytes (value >>> 32).toUInt32

def leftRotate (input : UInt32) (rotate : UInt8) : UInt32 :=
  input <<< rotate.toUInt32 ||| input >>> (32 - rotate.toUInt32)

def blockSize (block : List UInt8) : UInt32 := UInt32.ofNat block.length

/-- The block behind the calls of `addStringBlock` in front of the loop. -/
def fill (block : List UInt8) : List UInt8 :=
  let size := htonll ((blockSize block).toUInt64 * 8)
  let block := block ++ [0b10000000]
  let left := (blockSize block % 64).toUInt8
  let block :=
    if left < 56 then block ++ List.replicate (56 - left).toNat 0
    else if left > 56 then block ++ List.replicate (64 - left).toNat 0 ++ List.replicate 56 0
    else block
  block ++ longLongBytes size

def words (data : List UInt8) (index : Nat) : Nat → List UInt32
  | 0 => (List.range 16).map fun i => readBigEndian data (index * 64 + i * 4)
  | count + 1 =>
      let w := words data index count
      let i := 16 + count
      w ++ [leftRotate (w.getD (i - 3) 0 ^^^ w.getD (i - 8) 0 ^^^ w.getD (i - 14) 0 ^^^
        w.getD (i - 16) 0) 1]

/-- `h`, and the variables `a` to `e` of the inner loop. -/
structure Sha1Words where
  a : UInt32
  b : UInt32
  c : UInt32
  d : UInt32
  e : UInt32

def Sha1Words.start : Sha1Words where
  a := 0x67452301
  b := 0xEFCDAB89
  c := 0x98BADCFE
  d := 0x10325476
  e := 0xC3D2E1F0

namespace Sha1Words

/-- `f` and `k`. -/
def mix (state : Sha1Words) (i : Nat) : UInt32 × UInt32 :=
  if i < 20 then ((state.b &&& state.c) ||| ((~~~state.b) &&& state.d), 0x5A827999)
  else if i < 40 then (state.b ^^^ state.c ^^^ state.d, 0x6ED9EBA1)
  else if i < 60 then
    ((state.b &&& state.c) ||| (state.b &&& state.d) ||| (state.c &&& state.d), 0x8F1BBCDC)
  else (state.b ^^^ state.c ^^^ state.d, 0xCA62C1D6)

def turn (w : List UInt32) (state : Sha1Words) (i : Nat) : Sha1Words :=
  let (f, k) := state.mix i
  let temp := leftRotate state.a 5 + f + state.e + k + w.getD i 0
  ⟨temp, state.a, leftRotate state.b 30, state.c, state.d⟩

def chunk (data : List UInt8) (h : Sha1Words) (index : Nat) : Sha1Words :=
  let last := (List.range 80).foldl (turn (words data index 64)) h
  ⟨h.a + last.a, h.b + last.b, h.c + last.c, h.d + last.d, h.e + last.e⟩

def bytes (h : Sha1Words) : List UInt8 :=
  littleEndianBytes (htonl h.a) ++ littleEndianBytes (htonl h.b) ++ littleEndianBytes (htonl h.c) ++
    littleEndianBytes (htonl h.d) ++ littleEndianBytes (htonl h.e)

end Sha1Words

def sha1 (block : List UInt8) : List UInt8 :=
  let data := fill block
  ((List.range (blockSize data / 64).toNat).foldl (Sha1Words.chunk data) .start).bytes

section Bytes

theorem littleEndianBytes_htonl (value : UInt32) :
    littleEndianBytes (htonl value) = bigEndianBytes value := by
  rw [htonl, readBigEndian, littleEndianBytes_join]
  rfl

theorem extract_byte (value low : UInt32) (small : low.toNat < 32) :
    (value >>> low).toUInt8 = ⟨value.toBitVec.extractLsb' low.toNat 8⟩ := by
  apply UInt8.toBitVec_inj.mp
  apply BitVec.eq_of_getLsbD_eq
  intro bit bound
  simp [bound, Nat.mod_eq_of_lt small]

theorem bigEndian_toBitVec (value : UInt32) :
    Sha1.bigEndian 4 value.toBitVec = bigEndianBytes value := by
  have last : value.toUInt8 = ⟨value.toBitVec.extractLsb' 0 8⟩ :=
    (congrArg UInt32.toUInt8 UInt32.shiftRight_zero).symm.trans (extract_byte value 0 (by decide))
  rw [bigEndianBytes, littleEndianBytes, extract_byte value 8 (by decide),
    extract_byte value 16 (by decide), extract_byte value 24 (by decide), last]
  rfl

theorem readBigEndian_toBitVec (bytes : List UInt8) (offset : Nat) :
    (readBigEndian bytes offset).toBitVec = Sha1.word bytes offset := by
  apply BitVec.eq_of_getLsbD_eq
  intro bit bound
  simp only [readBigEndian, Sha1.word]
  generalize bytes.getD offset 0 = first
  generalize bytes.getD (offset + 1) 0 = second
  generalize bytes.getD (offset + 2) 0 = third
  generalize bytes.getD (offset + 3) 0 = fourth
  simp
  grind

end Bytes

section Words

variable (x y z : UInt32)

theorem leftRotate_toBitVec {rotate : UInt8} (positive : 0 < rotate.toNat)
    (small : rotate.toNat < 32) :
    (leftRotate x rotate).toBitVec = x.toBitVec.rotateLeft rotate.toNat := by
  have narrow : rotate.toUInt32.toBitVec.toNat = rotate.toNat := UInt8.toNat_toUInt32 rotate
  have back : (32 - rotate.toUInt32).toBitVec.toNat = 32 - rotate.toNat := by
    have fits : rotate.toUInt32 ≤ 32 := by
      rw [UInt32.le_iff_toNat_le]
      exact narrow.trans_le (Nat.le_of_lt small)
    exact (UInt32.toNat_sub_of_le _ _ fits).trans (congrArg (32 - ·) narrow)
  rw [leftRotate, BitVec.rotateLeft_def, UInt32.toBitVec_or, UInt32.toBitVec_shiftLeft,
    UInt32.toBitVec_shiftRight, BitVec.shiftLeft_eq', BitVec.ushiftRight_eq', BitVec.toNat_umod,
    BitVec.toNat_umod, narrow, back, Nat.mod_eq_of_lt small]
  show x.toBitVec <<< (rotate.toNat % 32) ||| x.toBitVec >>> ((32 - rotate.toNat) % 32) = _
  rw [Nat.mod_eq_of_lt small, Nat.mod_eq_of_lt (by omega)]

theorem choose_toBitVec : ((x &&& y) ||| ((~~~x) &&& z)).toBitVec =
    Sha1.choose x.toBitVec y.toBitVec z.toBitVec := by
  apply BitVec.eq_of_getLsbD_eq
  intro bit bound
  simp only [Sha1.choose, UInt32.toBitVec_or, UInt32.toBitVec_and, UInt32.toBitVec_not,
    BitVec.getLsbD_or, BitVec.getLsbD_and, BitVec.getLsbD_xor, BitVec.getLsbD_not]
  cases x.toBitVec.getLsbD bit <;> simp [bound]

theorem majority_toBitVec : ((x &&& y) ||| (x &&& z) ||| (y &&& z)).toBitVec =
    Sha1.majority x.toBitVec y.toBitVec z.toBitVec := by
  apply BitVec.eq_of_getLsbD_eq
  intro bit bound
  simp only [Sha1.majority, UInt32.toBitVec_or, UInt32.toBitVec_and, BitVec.getLsbD_or,
    BitVec.getLsbD_and, BitVec.getLsbD_xor]
  cases x.toBitVec.getLsbD bit <;> cases y.toBitVec.getLsbD bit <;> simp

end Words

def Sha1Words.value (state : Sha1Words) : Sha1.Value :=
  ⟨state.a.toBitVec, state.b.toBitVec, state.c.toBitVec, state.d.toBitVec, state.e.toBitVec⟩

theorem mix_toBitVec (state : Sha1Words) (i : Nat) :
    (state.mix i).1.toBitVec = Sha1.logical state.value.b state.value.c state.value.d i ∧
      (state.mix i).2.toBitVec = Sha1.constant i := by
  unfold Sha1Words.mix Sha1.logical Sha1.constant
  split_ifs
  · exact ⟨choose_toBitVec _ _ _, rfl⟩
  · exact ⟨rfl, rfl⟩
  · exact ⟨majority_toBitVec _ _ _, rfl⟩
  · exact ⟨rfl, rfl⟩

theorem words_length (data : List UInt8) (index count : Nat) :
    (words data index count).length = 16 + count := by
  induction count with
  | zero => simp [words]
  | succ count ih =>
      rw [words, List.length_append, ih, List.length_singleton, Nat.add_assoc]

theorem words_toBitVec (data : List UInt8) (index count : Nat) :
    ∀ i, i < 16 + count → ((words data index count).getD i 0).toBitVec =
      Sha1.schedule (Sha1.blockWord data index) i := by
  induction count with
  | zero =>
      intro i small
      have within : i < 16 := by omega
      have inside : i < (words data index 0).length := by rw [words_length]; exact small
      have element : (words data index 0)[i] = readBigEndian data (index * 64 + i * 4) := by
        simp [words]
      rw [Sha1.schedule, if_pos within, List.getD_eq_getElem _ _ inside, element,
        readBigEndian_toBitVec, Sha1.blockWord, Nat.mul_comm 64, Nat.mul_comm 4]
  | succ count ih =>
      intro i small
      have length := words_length data index count
      rw [words]
      by_cases earlier : i < 16 + count
      · rw [List.getD_append _ _ _ _ (by rw [length]; exact earlier)]
        exact ih i earlier
      · have last : i = 16 + count := by omega
        rw [List.getD_append_right _ _ _ _ (by rw [length]; omega), length, last, Nat.sub_self,
          List.getD_cons_zero, leftRotate_toBitVec _ (by decide) (by decide), Sha1.schedule,
          if_neg (by omega), UInt32.toBitVec_xor, UInt32.toBitVec_xor, UInt32.toBitVec_xor,
          ih _ (by omega), ih _ (by omega), ih _ (by omega), ih _ (by omega)]
        rfl

theorem turn_value (data : List UInt8) (index : Nat) (state : Sha1Words) {i : Nat} (small : i < 80) :
    (state.turn (words data index 64) i).value =
      state.value.round (Sha1.schedule (Sha1.blockWord data index)) i := by
  obtain ⟨mixed, constant⟩ := mix_toBitVec state i
  have word := words_toBitVec data index 64 i (by omega)
  simp only [Sha1Words.turn, Sha1Words.value, Sha1.Value.round, UInt32.toBitVec_add, mixed, constant,
    word, leftRotate_toBitVec state.a (by decide : 0 < UInt8.toNat 5) (by decide),
    leftRotate_toBitVec state.b (by decide : 0 < UInt8.toNat 30) (by decide)]
  rfl

theorem foldl_agrees {Item State Abstract : Type} (abstraction : State → Abstract)
    {step : State → Item → State} {abstractStep : Abstract → Item → Abstract} {items : List Item}
    (agree : ∀ state, ∀ item ∈ items,
      abstraction (step state item) = abstractStep (abstraction state) item) (state : State) :
    abstraction (items.foldl step state) = items.foldl abstractStep (abstraction state) := by
  induction items generalizing state with
  | nil => rfl
  | cons item rest ih =>
      rw [List.foldl_cons, List.foldl_cons,
        ih fun state other member => agree state other (List.mem_cons_of_mem _ member),
        agree state item List.mem_cons_self]

theorem chunk_value (data : List UInt8) (h : Sha1Words) (index : Nat) :
    (h.chunk data index).value = h.value.compress (Sha1.blockWord data index) := by
  have rounds : ((List.range 80).foldl (Sha1Words.turn (words data index 64)) h).value = _ :=
    foldl_agrees Sha1Words.value
      (fun state i member => turn_value data index state (List.mem_range.mp member)) h
  rw [Sha1.Value.compress, ← rounds]
  rfl

theorem bytes_digest (h : Sha1Words) : h.bytes = h.value.digest := by
  rw [Sha1Words.bytes, Sha1.Value.digest]
  simp only [littleEndianBytes_htonl, ← bigEndian_toBitVec]
  rfl

section Fill

theorem joined_words (high low : UInt32) :
    (high.toUInt64 <<< 32 + low.toUInt64).toUInt32 = low ∧
      ((high.toUInt64 <<< 32 + low.toUInt64) >>> 32).toUInt32 = high := by
  have bound := high.toNat_lt
  have bound' := low.toNat_lt
  have whole : (high.toUInt64 <<< 32 + low.toUInt64).toNat = high.toNat * 2 ^ 32 + low.toNat := by
    rw [UInt64.toNat_add, UInt64.toNat_shiftLeft, UInt32.toNat_toUInt64, UInt32.toNat_toUInt64]
    show (high.toNat <<< 32 % 2 ^ 64 + low.toNat) % 2 ^ 64 = _
    rw [Nat.shiftLeft_eq]
    omega
  constructor
  · apply UInt32.toNat_inj.mp
    rw [UInt64.toNat_toUInt32, whole]
    omega
  · apply UInt32.toNat_inj.mp
    rw [UInt64.toNat_toUInt32, UInt64.toNat_shiftRight, whole]
    show (high.toNat * 2 ^ 32 + low.toNat) >>> 32 % 2 ^ 32 = _
    rw [Nat.shiftRight_eq_div_pow]
    omega

theorem longLongBytes_htonll (x : UInt64) : longLongBytes (htonll x) =
    bigEndianBytes (x >>> 32).toUInt32 ++ bigEndianBytes x.toUInt32 := by
  have masked : (x &&& 0xFFFFFFFF).toUInt32 = x.toUInt32 := by
    apply UInt32.toNat_inj.mp
    rw [UInt64.toNat_toUInt32, UInt64.toNat_toUInt32, UInt64.toNat_and]
    show (x.toNat &&& 2 ^ 32 - 1) % 2 ^ 32 = _
    rw [Nat.and_two_pow_sub_one_eq_mod, Nat.mod_mod]
  obtain ⟨low, high⟩ := joined_words (htonl (x &&& 0xFFFFFFFF).toUInt32) (htonl (x >>> 32).toUInt32)
  rw [longLongBytes, htonll, low, high, masked, littleEndianBytes_htonl, littleEndianBytes_htonl]

theorem bigEndian_long (x : UInt64) : Sha1.bigEndian 8 x.toBitVec =
    bigEndianBytes (x >>> 32).toUInt32 ++ bigEndianBytes x.toUInt32 := by
  have high : (x >>> 32).toUInt32.toBitVec = x.toBitVec.extractLsb' 32 32 := by
    apply BitVec.eq_of_getLsbD_eq
    intro bit bound
    simp [bound]
  have low : x.toUInt32.toBitVec = x.toBitVec.extractLsb' 0 32 := by
    apply BitVec.eq_of_getLsbD_eq
    intro bit bound
    simp [bound]
  rw [← bigEndian_toBitVec, ← bigEndian_toBitVec, high, low]
  exact Sha1.bigEndian_halves x.toBitVec

theorem toNat_blockSize {block : List UInt8} (small : block.length < 2 ^ 32) :
    (blockSize block).toNat = block.length := by
  rw [blockSize, UInt32.toNat_ofNat', Nat.mod_eq_of_lt small]

theorem blockSize_bits {block : List UInt8} (small : block.length < 2 ^ 32) :
    ((blockSize block).toUInt64 * 8).toBitVec = BitVec.ofNat 64 (8 * block.length) := by
  apply BitVec.eq_of_toNat_eq
  rw [BitVec.toNat_ofNat]
  show (((blockSize block).toUInt64 * 8).toNat) = _
  rw [UInt64.toNat_mul, UInt32.toNat_toUInt64, toNat_blockSize small, Nat.mul_comm]
  rfl

/-- The three cases of the padding add as many zeros as there have to be. -/
theorem fill_eq {block : List UInt8} (small : block.length < 2 ^ 29) :
    fill block = Sha1.padded block := by
  have one : (blockSize (block ++ [0b10000000])).toNat = block.length + 1 := by
    rw [toNat_blockSize (by simp; omega), List.length_append, List.length_singleton]
  have left : (blockSize (block ++ [0b10000000]) % 64).toUInt8.toNat = (block.length + 1) % 64 := by
    rw [UInt32.toNat_toUInt8, UInt32.toNat_mod, one]
    show (block.length + 1) % 64 % 256 = _
    omega
  have below : (blockSize (block ++ [0b10000000]) % 64).toUInt8 < 56 ↔
      (block.length + 1) % 64 < 56 := by
    rw [UInt8.lt_iff_toNat_lt, left]
    rfl
  have above : (blockSize (block ++ [0b10000000]) % 64).toUInt8 > 56 ↔
      56 < (block.length + 1) % 64 := by
    rw [gt_iff_lt, UInt8.lt_iff_toNat_lt, left]
    rfl
  have length : longLongBytes (htonll ((blockSize block).toUInt64 * 8)) =
      Sha1.bigEndian 8 (BitVec.ofNat 64 (8 * block.length)) := by
    rw [longLongBytes_htonll, ← bigEndian_long, blockSize_bits (by omega)]
  rw [Sha1.padded, fill]
  simp only [length, below, above]
  refine congrArg (· ++ _) ?_
  split_ifs with first second
  · have count : (56 - (blockSize (block ++ [0b10000000]) % 64).toUInt8).toNat =
        56 - (block.length + 1) % 64 := by
      rw [UInt8.toNat_sub_of_le _ _ (by rw [UInt8.le_iff_toNat_le, left]; exact Nat.le_of_lt first),
        left]
      rfl
    have zeros : 56 - (block.length + 1) % 64 = Sha1.zeros block.length :=
      Sha1.eq_zeros (by omega) (by omega)
    rw [count, zeros, List.append_assoc]
    rfl
  · have count : (64 - (blockSize (block ++ [0b10000000]) % 64).toUInt8).toNat =
        64 - (block.length + 1) % 64 := by
      rw [UInt8.toNat_sub_of_le _ _ (by
        rw [UInt8.le_iff_toNat_le, left]
        exact Nat.le_of_lt (Nat.mod_lt _ (by decide))), left]
      rfl
    have zeros : 64 - (block.length + 1) % 64 + 56 = Sha1.zeros block.length :=
      Sha1.eq_zeros (by omega) (by omega)
    rw [List.append_assoc, List.append_assoc, List.replicate_append_replicate, count, zeros]
    rfl
  · have none : 0 = Sha1.zeros block.length := Sha1.eq_zeros (by decide) (by omega)
    rw [← none]
    rfl

end Fill

/-- `sha1` leaves the digest of the block in it. -/
theorem sha1_digest {block : List UInt8} (small : block.length < 2 ^ 29) :
    sha1 block = Sha1.hash block ∧ (sha1 block).length = 20 := by
  have length := Sha1.padded_length block
  have zeros : Sha1.zeros block.length < 64 := Nat.mod_lt _ (by decide)
  have count : (blockSize (fill block) / 64).toNat = (Sha1.padded block).length / 64 := by
    rw [fill_eq small, UInt32.toNat_div, toNat_blockSize (by omega)]
    rfl
  have chunks := @foldl_agrees Nat Sha1Words Sha1.Value Sha1Words.value
    (Sha1Words.chunk (Sha1.padded block))
    (fun value index => value.compress (Sha1.blockWord (Sha1.padded block) index))
    (List.range ((Sha1.padded block).length / 64))
    (fun h index _ => chunk_value (Sha1.padded block) h index) Sha1Words.start
  have same : sha1 block = Sha1.hash block := by
    rw [sha1, count, bytes_digest, fill_eq small, chunks]
    rfl
  rw [same]
  exact ⟨rfl, Sha1.hash_length block⟩

theorem sha1_digest_abc : (CString.ascii "abc").length < 2 ^ 29 ∧
    sha1 (CString.ascii "abc") = Sha1.hash (CString.ascii "abc") :=
  ⟨by decide, (sha1_digest (by decide)).1⟩

example : sha1 (CString.ascii "abc") =
    [0xa9, 0x99, 0x3e, 0x36, 0x47, 0x06, 0x81, 0x6a, 0xba, 0x3e, 0x25, 0x71, 0x78, 0x50, 0xc2,
      0x6c, 0x9c, 0xd0, 0xd8, 0x9d] := by
  decide +kernel

end Etracker.Basic
