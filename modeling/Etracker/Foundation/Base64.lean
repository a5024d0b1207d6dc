import Etracker.Foundation.CString

/-! The padded base 64 encoding and the strict decoder of it. -/

namespace Foundation.Base64

open Foundation.CString

def alphabet : List UInt8 :=
  ascii "ABCDEFGHIJKLMNOPQRSTUVWXYZabcdefghijklmnopqrstuvwxyz0123456789+/"

def pad : UInt8 := 61

def digit (number : Nat) : UInt8 := alphabet.getD number 0

def value (letter : UInt8) : Option Nat := alphabet.idxOf? letter

def quantum (first second third : UInt8) : Nat :=
  first.toNat * 65536 + second.toNat * 256 + third.toNat

/-- Every six bits of a number make a letter. What is missing of the last three bytes is padded. -/
def encode : List UInt8 → List UInt8
  | [] => []
  | [first] =>
      [digit (quantum first 0 0 / 262144), digit (quantum first 0 0 / 4096 % 64), pad, pad]
  | [first, second] =>
      [digit (quantum first second 0 / 262144), digit (quantum first second 0 / 4096 % 64),
        digit (quantum first second 0 / 64 % 64), pad]
  | first :: second :: third :: rest =>
      digit (quantum first second third / 262144) ::
        digit (quantum first second third / 4096 % 64) ::
        digit (quantum first second third / 64 % 64) ::
        digit (quantum first second third % 64) :: encode rest

/-- Padding stands only behind the last letters, and the bits in front of it are zero. -/
def decode : List UInt8 → Option (List UInt8)
  | [] => some []
  | first :: second :: third :: fourth :: rest => do
      let high ← value first
      let next ← value second
      if third = pad then
        if fourth = pad ∧ rest = [] ∧ next % 16 = 0 then
          pure [UInt8.ofNat (high * 4 + next / 16)]
        else none
      else
        let low ← value third
        let start := [UInt8.ofNat (high * 4 + next / 16), UInt8.ofNat (next * 16 + low / 4)]
        if fourth = pad then
          if rest = [] ∧ low % 4 = 0 then pure start else none
        else
          let last ← value fourth
          let more ← decode rest
          pure (start ++ UInt8.ofNat (low * 64 + last) :: more)
  | _ => none

theorem value_digit {number : Nat} (small : number < 64) : value (digit number) = some number := by
  have all : ∀ index : Fin 64, value (digit index.val) = some index.val := by decide +kernel
  exact all ⟨number, small⟩

theorem digit_ne_pad {number : Nat} (small : number < 64) : digit number ≠ pad := by
  have all : ∀ index : Fin 64, digit index.val ≠ pad := by decide +kernel
  exact all ⟨number, small⟩

theorem ofNat_eq {byte : UInt8} {number : Nat} (same : number % 256 = byte.toNat) :
    UInt8.ofNat number = byte := by
  apply UInt8.toNat_inj.mp
  rw [UInt8.toNat_ofNat']
  exact same

section Quantum

variable (first second third : UInt8)

theorem quantum_div_lt : quantum first second third / 262144 < 64 := by
  have bound := first.toNat_lt
  have bound' := second.toNat_lt
  have bound'' := third.toNat_lt
  rw [quantum]
  omega

theorem quantum_first : UInt8.ofNat (quantum first second third / 262144 * 4 +
    quantum first second third / 4096 % 64 / 16) = first := by
  have bound := first.toNat_lt
  have bound' := second.toNat_lt
  have bound'' := third.toNat_lt
  apply ofNat_eq
  rw [quantum]
  omega

theorem quantum_second : UInt8.ofNat (quantum first second third / 4096 % 64 * 16 +
    quantum first second third / 64 % 64 / 4) = second := by
  have bound' := second.toNat_lt
  have bound'' := third.toNat_lt
  apply ofNat_eq
  rw [quantum]
  omega

theorem quantum_third : UInt8.ofNat (quantum first second third / 64 % 64 * 64 +
    quantum first second third % 64) = third := by
  have bound'' := third.toNat_lt
  apply ofNat_eq
  rw [quantum]
  omega

theorem quantum_pad : quantum first second 0 / 64 % 64 % 4 = 0 ∧
    quantum first 0 0 / 4096 % 64 % 16 = 0 := by
  have zero : (0 : UInt8).toNat = 0 := rfl
  rw [quantum, quantum, zero]
  omega

end Quantum

theorem value_digit_mod (number : Nat) : value (digit (number % 64)) = some (number % 64) :=
  value_digit (Nat.mod_lt number (by decide))

theorem digit_mod_ne_pad (number : Nat) : digit (number % 64) ≠ pad :=
  digit_ne_pad (Nat.mod_lt number (by decide))

theorem decode_encode (bytes : List UInt8) : decode (encode bytes) = some bytes := by
  induction bytes using encode.induct with
  | case1 => rfl
  | case2 first =>
      rw [encode, decode, value_digit (quantum_div_lt first 0 0), value_digit_mod]
      simp only [Option.bind_eq_bind, Option.bind_some, if_true, true_and,
        (quantum_pad first 0).2, quantum_first]
      rfl
  | case3 first second =>
      rw [encode, decode, value_digit (quantum_div_lt first second 0), value_digit_mod,
        value_digit_mod]
      simp only [Option.bind_eq_bind, Option.bind_some, if_neg (digit_mod_ne_pad _), if_true,
        true_and, (quantum_pad first second).1, quantum_first, quantum_second]
      rfl
  | case4 first second third rest ih =>
      rw [encode, decode, value_digit (quantum_div_lt first second third), value_digit_mod,
        value_digit_mod, value_digit_mod]
      simp only [Option.bind_eq_bind, Option.bind_some, if_neg (digit_mod_ne_pad _), ih,
        quantum_first, quantum_second, quantum_third]
      rfl

theorem encode_injective : Function.Injective encode := by
  intro left right same
  have decoded := congrArg decode same
  rw [decode_encode, decode_encode] at decoded
  exact Option.some.inj decoded

theorem encode_length (bytes : List UInt8) :
    (encode bytes).length = 4 * ((bytes.length + 2) / 3) := by
  induction bytes using encode.induct with
  | case1 => rfl
  | case2 | case3 => simp [encode]
  | case4 first second third rest ih =>
      simp only [encode, List.length_cons, ih]
      omega

end Foundation.Base64
