import Etracker.Foundation.CString

namespace Foundation.CString

theorem uint8OfInt_natCast (value : Nat) : UInt8.ofInt (value : Int) = UInt8.ofNat value := by
  rw [UInt8.ofInt, ← UInt8.toNat_inj]
  simp
  omega

theorem uint16OfInt_toNat (value : UInt16) : UInt16.ofInt (value.toNat : Int) = value := by
  have bound := value.toNat_lt
  rw [UInt16.ofInt, ← UInt16.toNat_inj]
  simp
  omega

theorem uint32OfInt_toNat (value : UInt32) : UInt32.ofInt (value.toNat : Int) = value := by
  have bound := value.toNat_lt
  rw [UInt32.ofInt, ← UInt32.toNat_inj]
  simp
  omega

def IsDecimal (text : List UInt8) (number : Nat) : Prop :=
  (∀ letter ∈ text, 48 ≤ letter ∧ letter ≤ 57) ∧
    text.foldl (fun value letter => value * 10 + (letter.toNat - 48)) 0 = number

def decimalDigits : Nat → Nat → List UInt8
  | 0, _ => []
  | count + 1, number => decimalDigits count (number / 10) ++ [UInt8.ofNat (48 + number % 10)]

@[simp] theorem decimalDigits_length (count number : Nat) :
    (decimalDigits count number).length = count := by
  induction count generalizing number with
  | zero => rfl
  | succ count ih => simp [decimalDigits, ih]

theorem decimalDigits_isDecimal {count number : Nat} (fits : number < 10 ^ count) :
    IsDecimal (decimalDigits count number) number := by
  induction count generalizing number with
  | zero =>
      have zero : number = 0 := by simpa using fits
      simp [IsDecimal, decimalDigits, zero]
  | succ count ih =>
      have smaller : number / 10 < 10 ^ count := by
        rw [Nat.pow_succ] at fits
        omega
      obtain ⟨figures, value⟩ := ih smaller
      have bound : number % 10 < 10 := Nat.mod_lt _ (by decide)
      have figure : (UInt8.ofNat (48 + number % 10)).toNat = 48 + number % 10 := by
        rw [UInt8.toNat_ofNat']
        omega
      constructor
      · intro letter member
        rcases List.mem_append.mp member with inRest | last
        · exact figures letter inRest
        · rw [List.mem_singleton.mp last, UInt8.le_iff_toNat_le, UInt8.le_iff_toNat_le, figure]
          simp only [UInt8.reduceToNat]
          omega
      · rw [decimalDigits, List.foldl_append, value, List.foldl_cons, List.foldl_nil, figure]
        omega

theorem digitValue_decimal {letter : UInt8} (digit : 48 ≤ letter ∧ letter ≤ 57) :
    digitValue 10 letter = some (letter.toNat - 48) := by
  have above : letter.toNat ≤ 57 := UInt8.le_iff_toNat_le.mp digit.2
  have small : letter.toNat - 48 < 10 := by omega
  simp [digitValue, digit, small]

theorem digitValue_range {base : Nat} {letter : UInt8} {digit : Nat}
    (value : digitValue base letter = some digit) :
    48 ≤ letter.toNat ∧ letter.toNat ≤ 57 ∨ 65 ≤ letter.toNat := by
  unfold digitValue at value
  dsimp only at value
  simp only [UInt8.le_iff_toNat_le, UInt8.reduceToNat] at value
  split_ifs at value <;> first | omega | cases value

theorem digitValue_lt {base : Nat} {letter : UInt8} {digit : Nat}
    (value : digitValue base letter = some digit) : digit < base := by
  have kept := (Option.filter_eq_some_iff.mp value).2
  simpa using kept

theorem signed_digit {base : Nat} {letter : UInt8} {digit : Nat} (rest : List UInt8)
    (value : digitValue base letter = some digit) :
    signed ((letter :: rest).dropWhile isSpace) = (false, letter :: rest) := by
  have range := digitValue_range value
  have visible : isSpace letter = false := by
    have notBlank : letter ≠ 32 := by
      rintro rfl
      simp at range
    have notControl : ¬ (9 ≤ letter ∧ letter ≤ 13) := by
      simp only [UInt8.le_iff_toNat_le, UInt8.reduceToNat]
      omega
    simp [isSpace, notBlank, notControl]
  have notMinus : letter ≠ 45 := by
    rintro rfl
    simp at range
  have notPlus : letter ≠ 43 := by
    rintro rfl
    simp at range
  rw [List.dropWhile_cons_of_neg (by simp [visible])]
  unfold signed
  split
  · rename_i same
    exact absurd (List.cons.inj same).1 notMinus
  · rename_i same
    exact absurd (List.cons.inj same).1 notPlus
  · rfl

theorem digits_decimal {text : List UInt8} (decimal : ∀ letter ∈ text, 48 ≤ letter ∧ letter ≤ 57)
    (value : Nat) :
    digits 10 text value =
      text.foldl (fun value letter => value * 10 + (letter.toNat - 48)) value := by
  induction text generalizing value with
  | nil => rfl
  | cons letter rest ih =>
      have digit := digitValue_decimal (decimal letter (by simp))
      rw [digits, digit, List.foldl_cons]
      exact ih (fun other member => decimal other (by simp [member])) _

theorem strtol_decimal {text : List UInt8} {number : Nat} (decimal : IsDecimal text number)
    (fits : number < 2 ^ 63) : strtol text 10 = number := by
  obtain ⟨figures, value⟩ := decimal
  have asDigits : digits 10 text 0 = number := by rw [digits_decimal figures, value]
  have unsignedText : signed (text.dropWhile isSpace) = (false, text) := by
    cases text with
    | nil => rfl
    | cons letter rest => exact signed_digit rest (digitValue_decimal (figures letter (by simp)))
  have noBase : unprefixed 10 text = text := by
    unfold unprefixed
    split <;> simp
  simp only [strtol, unsignedText, noBase, asDigits, Bool.false_eq_true, if_false]
  omega

theorem atoi_decimal {text : List UInt8} {number : Nat} (decimal : IsDecimal text number)
    (fits : number < 2 ^ 31) : atoi text = number := by
  rw [atoi, strtol_decimal decimal (by omega)]
  exact Int.bmod_eq_of_le (by omega) (by omega)

theorem uint32_atoi_decimal {text : List UInt8} {number : Nat} (decimal : IsDecimal text number)
    (fits : number < 2 ^ 63) : UInt32.ofInt (atoi text) = UInt32.ofNat number := by
  have wrapped : (number : Int).bmod (2 ^ 32) % 2 ^ 32 = (number : Int) % 2 ^ 32 := Int.bmod_emod
  rw [atoi, strtol_decimal decimal fits, UInt32.ofInt, wrapped, ← UInt32.toNat_inj]
  simp only [UInt32.toNat_ofNat']
  omega

theorem strtol_hexadecimal {high low : UInt8} {upper lower : Nat}
    (first : digitValue 16 high = some upper) (second : digitValue 16 low = some lower) :
    strtol [high, low] 16 = (upper * 16 + lower : Nat) := by
  have asDigits : digits 16 [high, low] 0 = upper * 16 + lower := by
    simp [digits, first, second]
  have whole : unprefixed 16 [high, low] = [high, low] := by
    unfold unprefixed
    split
    · rename_i same
      simp at same
    · rfl
  have upperBound := digitValue_lt first
  have lowerBound := digitValue_lt second
  simp only [strtol, signed_digit [low] first, whole, asDigits, Bool.false_eq_true, if_false]
  omega

end Foundation.CString
