import Etracker.Foundation.Base64
import Mathlib.Data.List.GetD

namespace Etracker.Basic

open Foundation Foundation.CString

def symbols : List UInt8 :=
  ascii "ABCDEFGHIJKLMNOPQRSTUVWXYZabcdefghijklmnopqrstuvwxyz0123456789+/="

def endSymbolIndex : UInt8 := 64

def getIndex (block : List UInt8) (index : Nat) : UInt8 :=
  if index ≥ block.length then 0 else block.getD index 0

def indexString (input : List UInt8) (offset : Nat) : Nat → UInt8
  | 0 => input.getD offset 0 >>> 2
  | 1 => (input.getD offset 0 <<< 4 ||| getIndex input (offset + 1) >>> 4) &&& 63
  | 2 =>
      if offset + 2 > input.length then endSymbolIndex
      else (getIndex input (offset + 1) <<< 2 ||| getIndex input (offset + 2) >>> 6) &&& 63
  | 3 =>
      if offset + 3 > input.length then endSymbolIndex
      else getIndex input (offset + 2) &&& 63
  | _ => 0

def base64_encode (input : List UInt8) : List UInt8 :=
  (List.range ((input.length + 2) / 3)).flatMap fun sourceBlockIndex =>
    (List.range 4).map fun resultIndex =>
      symbols.getD (indexString input (sourceBlockIndex * 3) resultIndex).toNat 0

theorem and_63_le (byte : UInt8) : (byte &&& 63).toNat ≤ 64 := by
  rw [UInt8.toNat_and]
  exact Nat.le_succ_of_le Nat.and_le_right

theorem indexString_le (input : List UInt8) (offset resultIndex : Nat) :
    (indexString input offset resultIndex).toNat ≤ 64 := by
  unfold indexString
  split
  · rw [UInt8.toNat_shiftRight]
    have bound := UInt8.toNat_lt (input.getD offset 0)
    have shift : (2 : UInt8).toNat % 8 = 2 := rfl
    rw [shift, Nat.shiftRight_eq_div_pow]
    omega
  · exact and_63_le _
  · split_ifs
    · exact Nat.le_refl _
    · exact and_63_le _
  · split_ifs
    · exact Nat.le_refl _
    · exact and_63_le _
  · exact Nat.zero_le _

theorem mem_symbols {input : List UInt8} {symbol : UInt8} (member : symbol ∈ base64_encode input) :
    symbol ∈ symbols := by
  obtain ⟨sourceBlockIndex, _, block⟩ := List.mem_flatMap.mp member
  obtain ⟨resultIndex, _, rfl⟩ := List.mem_map.mp block
  have within : (indexString input (sourceBlockIndex * 3) resultIndex).toNat < symbols.length :=
    Nat.lt_of_le_of_lt (indexString_le _ _ _) (by decide)
  rw [List.getD_eq_getElem _ _ within]
  exact List.getElem_mem within

theorem not_mem_base64_encode (input : List UInt8) {letter : UInt8} (other : letter ∉ symbols) :
    letter ∉ base64_encode input :=
  fun member => other (mem_symbols member)

theorem length_base64_encode (input : List UInt8) :
    (base64_encode input).length = (input.length + 2) / 3 * 4 := by
  simp only [base64_encode, List.length_flatMap, List.length_map, List.length_range,
    List.map_const', List.sum_replicate_nat]

theorem symbols_getD {index : UInt8} {number : Nat} (same : index.toNat = number)
    (small : number < 64) : symbols.getD index.toNat 0 = Base64.digit number := by
  have all : ∀ index : Fin 64, symbols.getD index.val 0 = Base64.digit index.val := by
    decide +kernel
  rw [same]
  exact all ⟨number, small⟩

theorem symbols_end : symbols.getD endSymbolIndex.toNat 0 = Base64.pad := by decide +kernel

theorem joined_toNat (left right : Nat) {low : Nat} (most : low ≤ 6) (inByte : right < 256) :
    (left <<< low % 256 ||| right >>> (8 - low)) % 64 =
      left % 2 ^ (6 - low) * 2 ^ low + right / 2 ^ (8 - low) := by
  have small : right / 2 ^ (8 - low) < 2 ^ low := by
    apply Nat.div_lt_of_lt_mul
    rw [← Nat.pow_add, Nat.sub_add_cancel (by omega)]
    exact inByte
  have fits : 2 ^ low ≤ 2 ^ 6 := Nat.pow_le_pow_right (by decide) most
  have high : left <<< low % 256 % 64 = (left % 2 ^ (6 - low)) <<< low := by
    rw [Nat.mod_mod_of_dvd _ (show 64 ∣ 256 by decide), Nat.shiftLeft_eq, Nat.shiftLeft_eq,
      ← Nat.mul_mod_mul_right, ← Nat.pow_add, Nat.sub_add_cancel most]
  calc
    (left <<< low % 256 ||| right >>> (8 - low)) % 64
        = left <<< low % 256 % 64 ||| right >>> (8 - low) % 64 :=
      @Nat.or_mod_two_pow _ _ 6
    _ = (left % 2 ^ (6 - low)) <<< low ||| right / 2 ^ (8 - low) := by
      rw [high, Nat.shiftRight_eq_div_pow, Nat.mod_eq_of_lt (show _ < 64 by omega)]
    _ = (left % 2 ^ (6 - low)) <<< low + right / 2 ^ (8 - low) :=
      (Nat.shiftLeft_add_eq_or_of_lt small _).symm
    _ = left % 2 ^ (6 - low) * 2 ^ low + right / 2 ^ (8 - low) := by rw [Nat.shiftLeft_eq]

section Quantum

variable (first second third : UInt8)

theorem shifted_quantum :
    (first >>> 2).toNat = Base64.quantum first second third / 262144 := by
  have bound' := second.toNat_lt
  have bound'' := third.toNat_lt
  rw [UInt8.toNat_shiftRight, Base64.quantum]
  show first.toNat >>> 2 = _
  rw [Nat.shiftRight_eq_div_pow]
  omega

theorem joined_first_quantum : ((first <<< 4 ||| second >>> 4) &&& 63).toNat =
    Base64.quantum first second third / 4096 % 64 := by
  have bound' := second.toNat_lt
  have bound'' := third.toNat_lt
  rw [UInt8.toNat_and, UInt8.toNat_or, UInt8.toNat_shiftLeft, UInt8.toNat_shiftRight,
    Base64.quantum]
  calc
    (first.toNat <<< 4 % 256 ||| second.toNat >>> 4) &&& 2 ^ 6 - 1
        = (first.toNat <<< 4 % 256 ||| second.toNat >>> 4) % 64 :=
      Nat.and_two_pow_sub_one_eq_mod _ 6
    _ = first.toNat % 4 * 16 + second.toNat / 16 :=
      joined_toNat first.toNat second.toNat (by decide) second.toNat_lt
    _ = (first.toNat * 65536 + second.toNat * 256 + third.toNat) / 4096 % 64 := by omega

theorem joined_second_quantum : ((second <<< 2 ||| third >>> 6) &&& 63).toNat =
    Base64.quantum first second third / 64 % 64 := by
  have bound'' := third.toNat_lt
  rw [UInt8.toNat_and, UInt8.toNat_or, UInt8.toNat_shiftLeft, UInt8.toNat_shiftRight,
    Base64.quantum]
  calc
    (second.toNat <<< 2 % 256 ||| third.toNat >>> 6) &&& 2 ^ 6 - 1
        = (second.toNat <<< 2 % 256 ||| third.toNat >>> 6) % 64 :=
      Nat.and_two_pow_sub_one_eq_mod _ 6
    _ = second.toNat % 16 * 4 + third.toNat / 64 :=
      joined_toNat second.toNat third.toNat (by decide) third.toNat_lt
    _ = (first.toNat * 65536 + second.toNat * 256 + third.toNat) / 64 % 64 := by omega

theorem masked_quantum : (third &&& 63).toNat = Base64.quantum first second third % 64 := by
  rw [UInt8.toNat_and, Base64.quantum]
  calc
    third.toNat &&& 2 ^ 6 - 1 = third.toNat % 64 := Nat.and_two_pow_sub_one_eq_mod _ 6
    _ = (first.toNat * 65536 + second.toNat * 256 + third.toNat) % 64 := by omega

end Quantum

def blockSymbols (input : List UInt8) (offset : Nat) : List UInt8 :=
  (List.range 4).map fun resultIndex =>
    symbols.getD (indexString input offset resultIndex).toNat 0

theorem base64_encode_block {input : List UInt8} (single : (input.length + 2) / 3 = 1) :
    base64_encode input = blockSymbols input 0 := by
  rw [base64_encode, single]
  exact List.append_nil (blockSymbols input 0)

theorem base64_encode_cons (first second third : UInt8) (rest : List UInt8) :
    base64_encode (first :: second :: third :: rest) =
      blockSymbols (first :: second :: third :: rest) 0 ++ base64_encode rest := by
  have count : ((first :: second :: third :: rest).length + 2) / 3 = (rest.length + 2) / 3 + 1 := by
    simp only [List.length_cons]
    omega
  have later : ∀ offset resultIndex,
      indexString (first :: second :: third :: rest) (offset + 3) resultIndex =
        indexString rest offset resultIndex := by
    intro offset resultIndex
    have next : offset + 3 + 1 = offset + 1 + 3 := by omega
    have last : offset + 3 + 2 = offset + 2 + 3 := by omega
    unfold indexString getIndex
    simp only [next, last, List.length_cons, List.getD_cons_succ, ge_iff_le,
      Nat.add_le_add_iff_right, gt_iff_lt, Nat.add_lt_add_iff_right]
  calc
    base64_encode (first :: second :: third :: rest)
        = (List.range ((rest.length + 2) / 3 + 1)).flatMap fun sourceBlockIndex =>
            blockSymbols (first :: second :: third :: rest) (sourceBlockIndex * 3) := by
      rw [base64_encode, count]
      rfl
    _ = blockSymbols (first :: second :: third :: rest) 0 ++
          (List.range ((rest.length + 2) / 3)).flatMap fun sourceBlockIndex =>
            blockSymbols (first :: second :: third :: rest) (sourceBlockIndex * 3 + 3) := by
      rw [List.range_succ_eq_map, List.flatMap_cons, List.flatMap_map, Nat.zero_mul]
      simp only [Nat.succ_mul]
    _ = blockSymbols (first :: second :: third :: rest) 0 ++ base64_encode rest := by
      simp only [blockSymbols, later]
      rfl

theorem base64_encode_eq (input : List UInt8) : base64_encode input = Base64.encode input := by
  induction input using Base64.encode.induct with
  | case1 => rfl
  | case2 first =>
      rw [base64_encode_block (by simp), Base64.encode,
        ← symbols_getD (shifted_quantum first 0 0) (Base64.quantum_div_lt first 0 0),
        ← symbols_getD (joined_first_quantum first 0 0) (Nat.mod_lt _ (by decide)), ← symbols_end]
      rfl
  | case3 first second =>
      rw [base64_encode_block (by simp), Base64.encode,
        ← symbols_getD (shifted_quantum first second 0) (Base64.quantum_div_lt first second 0),
        ← symbols_getD (joined_first_quantum first second 0) (Nat.mod_lt _ (by decide)),
        ← symbols_getD (joined_second_quantum first second 0) (Nat.mod_lt _ (by decide)),
        ← symbols_end]
      rfl
  | case4 first second third rest ih =>
      rw [base64_encode_cons, Base64.encode, ← ih,
        ← symbols_getD (shifted_quantum first second third)
          (Base64.quantum_div_lt first second third),
        ← symbols_getD (joined_first_quantum first second third) (Nat.mod_lt _ (by decide)),
        ← symbols_getD (joined_second_quantum first second third) (Nat.mod_lt _ (by decide)),
        ← symbols_getD (masked_quantum first second third) (Nat.mod_lt _ (by decide))]
      rfl

/-- The encoding of any bytes is the padded one, of which the standard decoder gives them back. -/
theorem base64_encode_decodes :
    (∀ input : List UInt8, base64_encode input = Base64.encode input ∧
      (base64_encode input).length = 4 * ((input.length + 2) / 3) ∧
      Base64.decode (base64_encode input) = some input) ∧
    Function.Injective base64_encode := by
  constructor
  · intro input
    rw [base64_encode_eq]
    exact ⟨rfl, Base64.encode_length input, Base64.decode_encode input⟩
  · intro left right same
    rw [base64_encode_eq, base64_encode_eq] at same
    exact Base64.encode_injective same

end Etracker.Basic
