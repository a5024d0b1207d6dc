import Etracker.Foundation.Numerals
import Mathlib.Data.Int.Basic

/-! Bencode: the texts of integers, byte strings, lists and dictionaries, and a strict decoder. -/

namespace Foundation.Bencode

open CString

inductive Value
  | integer (number : Int)
  | string (bytes : List UInt8)
  | list (values : List Value)
  | dict (entries : List (List UInt8 × Value))

def numberText (number : Int) : List UInt8 := ascii (toString number)

def stringText (bytes : List UInt8) : List UInt8 := numberText bytes.length ++ 58 :: bytes

mutual

def encode : Value → List UInt8
  | .integer number => 105 :: (numberText number ++ [101])
  | .string bytes => stringText bytes
  | .list values => 108 :: (encodeValues values ++ [101])
  | .dict entries => 100 :: (encodeEntries entries ++ [101])

def encodeValues : List Value → List UInt8
  | [] => []
  | value :: rest => encode value ++ encodeValues rest

def encodeEntries : List (List UInt8 × Value) → List UInt8
  | [] => []
  | (key, value) :: rest => stringText key ++ encode value ++ encodeEntries rest

end

def figures (text : List UInt8) : Nat :=
  text.foldl (fun value letter => value * 10 + (letter.toNat - 48)) 0

def numberOf : List UInt8 → Int
  | 45 :: text => -figures text
  | text => figures text

/-- A number up to the letter that ends it. No other text of it than its own is accepted. -/
def readNumber (ends : UInt8) (text : List UInt8) : Option (Int × List UInt8) :=
  let written := text.takeWhile (· ≠ ends)
  match text.dropWhile (· ≠ ends) with
  | [] => none
  | _ :: rest => if numberText (numberOf written) = written then some (numberOf written, rest) else none

def readString (text : List UInt8) : Option (List UInt8 × List UInt8) := do
  let (length, rest) ← readNumber 58 text
  if 0 ≤ length ∧ length ≤ rest.length then
    pure (rest.take length.toNat, rest.drop length.toNat)
  else none

mutual

def read : Nat → List UInt8 → Option (Value × List UInt8)
  | 0, _ => none
  | _ + 1, [] => none
  | fuel + 1, letter :: rest =>
      if letter = 105 then do
        let (number, rest) ← readNumber 101 rest
        pure (.integer number, rest)
      else if letter = 108 then do
        let (values, rest) ← readValues fuel rest
        pure (.list values, rest)
      else if letter = 100 then do
        let (entries, rest) ← readEntries fuel rest
        pure (.dict entries, rest)
      else do
        let (bytes, rest) ← readString (letter :: rest)
        pure (.string bytes, rest)

def readValues : Nat → List UInt8 → Option (List Value × List UInt8)
  | 0, _ => none
  | _ + 1, [] => none
  | fuel + 1, letter :: rest =>
      if letter = 101 then pure ([], rest)
      else do
        let (value, rest) ← read fuel (letter :: rest)
        let (values, rest) ← readValues fuel rest
        pure (value :: values, rest)

def readEntries : Nat → List UInt8 → Option (List (List UInt8 × Value) × List UInt8)
  | 0, _ => none
  | _ + 1, [] => none
  | fuel + 1, letter :: rest =>
      if letter = 101 then pure ([], rest)
      else do
        let (key, rest) ← readString (letter :: rest)
        let (value, rest) ← read fuel rest
        let (entries, rest) ← readEntries fuel rest
        pure ((key, value) :: entries, rest)

end

/-- The value that a text is, with nothing behind it. Each letter begins one value at most. -/
def decode (text : List UInt8) : Option Value :=
  match read (text.length + 1) text with
  | some (value, []) => some value
  | _ => none

section Number

theorem numberText_natCast (number : Nat) :
    numberText number = (Nat.toDigits 10 number).map fun letter => UInt8.ofNat letter.toNat := by
  rw [← Nat.toList_repr]
  rfl

theorem numberText_neg {number : Int} (negative : number < 0) :
    numberText number = 45 :: numberText number.natAbs := by
  have split : toString number = "-" ++ toString number.natAbs := by
    rw [Int.toString_eq_repr, Int.repr_eq_if, if_neg (Int.not_le.mpr negative)]
    have magnitude : (-number).toNat = number.natAbs := by omega
    rw [magnitude]
    rfl
  rw [numberText, split, ascii, String.toList_append, List.map_append]
  rfl

theorem toDigits_figure {number : Nat} {letter : Char} (member : letter ∈ Nat.toDigits 10 number) :
    48 ≤ letter.toNat ∧ letter.toNat ≤ 57 := by
  have figure : letter.isDigit = true := Nat.isDigit_of_mem_toDigits (by decide) (by decide) member
  simp only [Char.isDigit, Bool.and_eq_true, decide_eq_true_eq, UInt32.le_iff_toNat_le] at figure
  exact figure

theorem numberText_isDecimal (number : Nat) : IsDecimal (numberText number) number := by
  rw [numberText_natCast]
  constructor
  · intro letter member
    obtain ⟨digit, inside, rfl⟩ := List.mem_map.mp member
    have figure := toDigits_figure inside
    rw [UInt8.le_iff_toNat_le, UInt8.le_iff_toNat_le, UInt8.toNat_ofNat']
    simp only [UInt8.reduceToNat]
    omega
  · rw [List.foldl_map]
    have same : ∀ (digits : List Char) (start : Nat),
        (∀ digit ∈ digits, 48 ≤ digit.toNat ∧ digit.toNat ≤ 57) →
        digits.foldl (fun value digit => value * 10 + ((UInt8.ofNat digit.toNat).toNat - 48)) start =
          Nat.ofDigitChars 10 digits start := by
      intro digits start all
      induction digits generalizing start with
      | nil => rw [Nat.ofDigitChars_nil, List.foldl_nil]
      | cons digit rest ih =>
          have bound := all digit (by simp)
          have whole : (UInt8.ofNat digit.toNat).toNat = digit.toNat := by
            rw [UInt8.toNat_ofNat']
            omega
          rw [List.foldl_cons, Nat.ofDigitChars_cons, whole, Nat.mul_comm]
          exact ih _ fun other member => all other (by simp [member])
    rw [same _ _ fun digit => toDigits_figure]
    exact Nat.ofDigitChars_ten_toDigits

theorem numberText_ne_nil (number : Nat) : numberText number ≠ [] := by
  rw [numberText_natCast]
  simp

theorem numberText_length_le {number digits : Nat} (positive : 0 < digits)
    (small : number < 10 ^ digits) : (numberText number).length ≤ digits := by
  rw [numberText_natCast, List.length_map]
  exact (Nat.length_toDigits_le_iff (by decide) positive).mpr small

theorem mem_numberText {letter : UInt8} {number : Int} (member : letter ∈ numberText number) :
    letter = 45 ∨ 48 ≤ letter ∧ letter ≤ 57 := by
  cases number with
  | ofNat magnitude => exact .inr ((numberText_isDecimal magnitude).1 letter member)
  | negSucc magnitude =>
      rw [numberText_neg (Int.negSucc_lt_zero magnitude), List.mem_cons] at member
      exact member.imp_right ((numberText_isDecimal _).1 letter)

theorem not_mem_numberText {letter : UInt8} (other : ¬(letter = 45 ∨ 48 ≤ letter ∧ letter ≤ 57))
    (number : Int) : letter ∉ numberText number :=
  fun member => other (mem_numberText member)

theorem numberOf_numberText (number : Int) : numberOf (numberText number) = number := by
  have value : ∀ magnitude : Nat, figures (numberText magnitude) = magnitude :=
    fun magnitude => (numberText_isDecimal magnitude).2
  cases number with
  | ofNat magnitude =>
      have unsignedText : numberOf (numberText magnitude) = figures (numberText magnitude) := by
        unfold numberOf
        split
        · rename_i text written
          have sign := ((numberText_isDecimal magnitude).1 45 (by simp [written])).1
          exact absurd sign (by decide)
        · rfl
      exact unsignedText.trans (congrArg Int.ofNat (value magnitude))
  | negSucc magnitude =>
      rw [numberText_neg (Int.negSucc_lt_zero magnitude), numberOf, value]
      rfl

theorem readNumber_numberText (ends : UInt8) (other : ¬(ends = 45 ∨ 48 ≤ ends ∧ ends ≤ 57))
    (number : Int) (rest : List UInt8) :
    readNumber ends (numberText number ++ ends :: rest) = some (number, rest) := by
  have within : ∀ letter ∈ numberText number, decide (letter ≠ ends) = true := by
    rintro letter member
    rw [decide_eq_true_eq]
    rintro rfl
    exact not_mem_numberText other number member
  have written : (numberText number ++ ends :: rest).takeWhile (· ≠ ends) = numberText number := by
    rw [List.takeWhile_append_of_pos within, List.takeWhile_cons_of_neg (by simp), List.append_nil]
  have behind : (numberText number ++ ends :: rest).dropWhile (· ≠ ends) = ends :: rest := by
    rw [List.dropWhile_append_of_pos within, List.dropWhile_cons_of_neg (by simp)]
  simp only [readNumber, written, behind, numberOf_numberText, if_true]

theorem readString_stringText (bytes rest : List UInt8) :
    readString (stringText bytes ++ rest) = some (bytes, rest) := by
  have number := readNumber_numberText 58 (by decide) bytes.length (bytes ++ rest)
  have enough : 0 ≤ (bytes.length : Int) ∧ (bytes.length : Int) ≤ (bytes ++ rest).length := by
    rw [List.length_append]
    omega
  rw [stringText, List.append_assoc, List.cons_append, readString, number, Option.bind_eq_bind,
    Option.bind_some]
  dsimp only
  rw [if_pos enough, Int.toNat_natCast, List.take_left, List.drop_left]
  rfl

theorem stringText_head (bytes : List UInt8) :
    ∃ letter rest, stringText bytes = letter :: rest ∧ 48 ≤ letter ∧ letter ≤ 57 := by
  obtain ⟨letter, rest, written⟩ := List.exists_cons_of_ne_nil (numberText_ne_nil bytes.length)
  have figure := (numberText_isDecimal bytes.length).1 letter (by simp [written])
  exact ⟨letter, rest ++ 58 :: bytes, by rw [stringText, written, List.cons_append], figure⟩

end Number

theorem encode_head (value : Value) :
    ∃ letter rest, encode value = letter :: rest ∧ letter ≠ 101 := by
  cases value with
  | integer number => exact ⟨105, _, by rw [encode], by decide⟩
  | string bytes =>
      obtain ⟨letter, rest, begins, _, figure⟩ := stringText_head bytes
      refine ⟨letter, rest, by rw [encode, begins], ?_⟩
      rintro rfl
      exact absurd figure (by decide)
  | list values => exact ⟨108, _, by rw [encode], by decide⟩
  | dict entries => exact ⟨100, _, by rw [encode], by decide⟩

mutual

theorem read_encode : ∀ (value : Value) (fuel : Nat) (rest : List UInt8),
    (encode value).length < fuel → read fuel (encode value ++ rest) = some (value, rest)
  | _, 0, _, enough => absurd enough (Nat.not_lt_zero _)
  | .integer number, fuel + 1, rest, _ => by
      have number := readNumber_numberText 101 (by decide) number rest
      rw [encode, List.cons_append, List.append_assoc, read, if_pos rfl, List.singleton_append,
        number]
      rfl
  | .string bytes, fuel + 1, rest, _ => by
      obtain ⟨letter, others, begins, above, below⟩ := stringText_head bytes
      have string := readString_stringText bytes rest
      rw [encode]
      rw [begins, List.cons_append] at string ⊢
      rw [read, if_neg, if_neg, if_neg, string]
      · rfl
      all_goals
        rintro rfl
        exact absurd below (by decide)
  | .list values, fuel + 1, rest, enough => by
      rw [encode, List.length_cons, List.length_append, List.length_singleton] at enough
      have values := readValues_encode values fuel rest (by omega)
      rw [encode, List.cons_append, List.append_assoc, List.singleton_append, read,
        if_neg (by decide), if_pos rfl, values]
      rfl
  | .dict entries, fuel + 1, rest, enough => by
      rw [encode, List.length_cons, List.length_append, List.length_singleton] at enough
      have entries := readEntries_encode entries fuel rest (by omega)
      rw [encode, List.cons_append, List.append_assoc, List.singleton_append, read,
        if_neg (by decide), if_neg (by decide), if_pos rfl, entries]
      rfl

theorem readValues_encode : ∀ (values : List Value) (fuel : Nat) (rest : List UInt8),
    (encodeValues values).length + 1 < fuel →
      readValues fuel (encodeValues values ++ 101 :: rest) = some (values, rest)
  | _, 0, _, enough => absurd enough (Nat.not_lt_zero _)
  | [], fuel + 1, rest, _ => by
      rw [encodeValues, List.nil_append, readValues, if_pos rfl]
      rfl
  | value :: values, fuel + 1, rest, enough => by
      obtain ⟨letter, others, begins, goesOn⟩ := encode_head value
      have occupied : 0 < (encode value).length := by
        rw [begins]
        exact Nat.succ_pos _
      rw [encodeValues, List.length_append] at enough
      have first := read_encode value fuel (encodeValues values ++ 101 :: rest) (by omega)
      have following := readValues_encode values fuel rest (by omega)
      rw [encodeValues, List.append_assoc]
      rw [begins, List.cons_append] at first ⊢
      rw [readValues, if_neg goesOn, first, Option.bind_eq_bind, Option.bind_some]
      dsimp only
      rw [following]
      rfl

theorem readEntries_encode : ∀ (entries : List (List UInt8 × Value)) (fuel : Nat)
    (rest : List UInt8), (encodeEntries entries).length + 1 < fuel →
      readEntries fuel (encodeEntries entries ++ 101 :: rest) = some (entries, rest)
  | _, 0, _, enough => absurd enough (Nat.not_lt_zero _)
  | [], fuel + 1, rest, _ => by
      rw [encodeEntries, List.nil_append, readEntries, if_pos rfl]
      rfl
  | (key, value) :: entries, fuel + 1, rest, enough => by
      obtain ⟨letter, others, begins, _, below⟩ := stringText_head key
      have goesOn : letter ≠ 101 := by
        rintro rfl
        exact absurd below (by decide)
      have occupied : 0 < (stringText key).length := by
        rw [begins]
        exact Nat.succ_pos _
      rw [encodeEntries, List.length_append, List.length_append] at enough
      have first := readString_stringText key
        (encode value ++ (encodeEntries entries ++ 101 :: rest))
      have second := read_encode value fuel (encodeEntries entries ++ 101 :: rest) (by omega)
      have following := readEntries_encode entries fuel rest (by omega)
      rw [encodeEntries, List.append_assoc, List.append_assoc]
      rw [begins, List.cons_append] at first ⊢
      rw [readEntries, if_neg goesOn, first, Option.bind_eq_bind, Option.bind_some]
      dsimp only
      rw [second, Option.bind_eq_bind, Option.bind_some]
      dsimp only
      rw [following]
      rfl

end

theorem decode_encode (value : Value) : decode (encode value) = some value := by
  have whole := read_encode value _ [] (Nat.lt_succ_self _)
  rw [List.append_nil] at whole
  rw [decode, whole]

namespace Value

def number : Value → Option Int
  | .integer number => some number
  | _ => none

def bytes : Value → Option (List UInt8)
  | .string bytes => some bytes
  | _ => none

def get : Value → List UInt8 → Option Value
  | .dict entries, key => entries.lookup key
  | _, _ => none

end Value

end Foundation.Bencode
