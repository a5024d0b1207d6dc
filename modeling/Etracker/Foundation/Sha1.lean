import Mathlib.Tactic.Common

/-! SHA-1 as FIPS 180-4 defines it, for messages of whole bytes. -/

namespace Foundation.Sha1

abbrev Word := BitVec 32

def zeros (length : Nat) : Nat := (119 - length % 64) % 64

theorem zeros_least (length : Nat) : (length + 1 + zeros length + 8) % 64 = 0 ∧
    ∀ count, (length + 1 + count + 8) % 64 = 0 → zeros length ≤ count := by
  unfold zeros
  constructor
  · omega
  · intro count whole
    omega

theorem eq_zeros {length count : Nat} (small : count < 64)
    (whole : (length + 1 + count + 8) % 64 = 0) : count = zeros length := by
  obtain ⟨whole', least⟩ := zeros_least length
  have least := least count whole
  omega

def bigEndian (bytes : Nat) (number : BitVec (8 * bytes)) : List UInt8 :=
  (List.range bytes).map fun place => ⟨number.extractLsb' (8 * (bytes - 1 - place)) 8⟩

theorem bigEndian_halves (number : BitVec 64) : bigEndian 8 number =
    bigEndian 4 (number.extractLsb' 32 32) ++ bigEndian 4 (number.extractLsb' 0 32) := by
  have byte : ∀ start low, low + 8 ≤ 32 →
      (number.extractLsb' start 32).extractLsb' low 8 = number.extractLsb' (start + low) 8 := by
    intro start low inside
    apply BitVec.eq_of_getLsbD_eq
    intro bit bound
    simp [bound, show low + bit < 32 by omega, Nat.add_assoc]
  simp [bigEndian, List.range_succ, byte]

def padded (message : List UInt8) : List UInt8 :=
  message ++ 0x80 :: List.replicate (zeros message.length) 0 ++
    bigEndian 8 (BitVec.ofNat 64 (8 * message.length))

theorem padded_length (message : List UInt8) :
    (padded message).length = message.length + 1 + zeros message.length + 8 := by
  simp only [padded, bigEndian, List.length_append, List.length_cons, List.length_replicate,
    List.length_map, List.length_range]
  omega

def word (bytes : List UInt8) (offset : Nat) : Word :=
  (bytes.getD offset 0).toBitVec ++ (bytes.getD (offset + 1) 0).toBitVec ++
    (bytes.getD (offset + 2) 0).toBitVec ++ (bytes.getD (offset + 3) 0).toBitVec

section Functions

variable (x y z : Word)

def choose : Word := (x &&& y) ^^^ (~~~x &&& z)

def parity : Word := x ^^^ y ^^^ z

def majority : Word := (x &&& y) ^^^ (x &&& z) ^^^ (y &&& z)

def logical (round : Nat) : Word :=
  if round < 20 then choose x y z
  else if round < 40 then parity x y z
  else if round < 60 then majority x y z
  else parity x y z

end Functions

def constant (round : Nat) : Word :=
  if round < 20 then 0x5a827999#32
  else if round < 40 then 0x6ed9eba1#32
  else if round < 60 then 0x8f1bbcdc#32
  else 0xca62c1d6#32

/-- The words of the rounds: those of the block, then each out of four earlier ones. -/
def schedule (block : Nat → Word) : Nat → Word
  | round =>
      if round < 16 then block round
      else (schedule block (round - 3) ^^^ schedule block (round - 8) ^^^
        schedule block (round - 14) ^^^ schedule block (round - 16)).rotateLeft 1

structure Value where
  a : Word
  b : Word
  c : Word
  d : Word
  e : Word

def initial : Value where
  a := 0x67452301#32
  b := 0xefcdab89#32
  c := 0x98badcfe#32
  d := 0x10325476#32
  e := 0xc3d2e1f0#32

namespace Value

def round (words : Nat → Word) (value : Value) (number : Nat) : Value where
  a := value.a.rotateLeft 5 + logical value.b value.c value.d number +
    value.e + constant number + words number
  b := value.a
  c := value.b.rotateLeft 30
  d := value.c
  e := value.d

def add (left right : Value) : Value :=
  ⟨left.a + right.a, left.b + right.b, left.c + right.c, left.d + right.d, left.e + right.e⟩

def compress (value : Value) (block : Nat → Word) : Value :=
  value.add ((List.range 80).foldl (round (schedule block)) value)

def digest (value : Value) : List UInt8 :=
  bigEndian 4 value.a ++ bigEndian 4 value.b ++ bigEndian 4 value.c ++
    bigEndian 4 value.d ++ bigEndian 4 value.e

end Value

def blockWord (bytes : List UInt8) (block round : Nat) : Word :=
  word bytes (64 * block + 4 * round)

def hash (message : List UInt8) : List UInt8 :=
  let bytes := padded message
  ((List.range (bytes.length / 64)).foldl
    (fun value block => value.compress (blockWord bytes block)) initial).digest

theorem hash_length (message : List UInt8) : (hash message).length = 20 := by
  simp [hash, Value.digest, bigEndian]

end Foundation.Sha1
