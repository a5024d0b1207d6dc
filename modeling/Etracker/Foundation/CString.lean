import Mathlib.Algebra.Group.Int.Defs
import Mathlib.Algebra.Group.Nat.Defs
import Mathlib.Data.List.TakeWhile
import Mathlib.Data.UInt
import Mathlib.Tactic.Common

/-! Byte strings as C's standard library reads them.

A byte string is a list of bytes. A C string inside it ends before its first
zero byte, or at the end of the list. -/

namespace Foundation.CString

def ascii (text : String) : List UInt8 := text.toList.map fun letter => UInt8.ofNat letter.toNat

def cString (buffer : List UInt8) : List UInt8 := buffer.takeWhile (· ≠ 0)

/-- Sign of the comparison of the first `count` bytes, read as unsigned. -/
def memcmp : List UInt8 → List UInt8 → Nat → Ordering
  | a :: as, b :: bs, count + 1 =>
      if a < b then .lt else if b < a then .gt else memcmp as bs count
  | _, _, _ => .eq

def startsWith (start string : List UInt8) : Bool := start.isPrefixOf string

def strstr : List UInt8 → List UInt8 → Option Nat
  | [], needle => if needle.isEmpty then some 0 else none
  | letter :: rest, needle =>
      if needle.isPrefixOf (letter :: rest) then some 0
      else (strstr rest needle).map (· + 1)

theorem strstr_append_ne_none (before needle after : List UInt8) :
    strstr (before ++ (needle ++ after)) needle ≠ none := by
  have starts : needle.isPrefixOf (needle ++ after) = true :=
    List.isPrefixOf_iff_prefix.mpr (List.prefix_append needle after)
  induction before with
  | nil =>
      rw [List.nil_append]
      cases whole : needle ++ after with
      | nil => simp [strstr, (List.append_eq_nil_iff.mp whole).1]
      | cons letter rest =>
          rw [whole] at starts
          simp [strstr, starts]
  | cons letter rest ih =>
      rw [List.cons_append, strstr]
      split_ifs
      · simp
      · simpa using ih

theorem strstr_le {text needle : List UInt8} {offset : Nat}
    (found : strstr text needle = some offset) : offset + needle.length ≤ text.length := by
  induction text generalizing offset with
  | nil =>
      rw [strstr] at found
      split_ifs at found with empty
      cases found
      rw [List.isEmpty_iff.mp empty]
      exact Nat.le_refl _
  | cons letter rest ih =>
      rw [strstr] at found
      split_ifs at found with starts
      · cases found
        rw [Nat.zero_add]
        exact (List.isPrefixOf_iff_prefix.mp starts).length_le
      · obtain ⟨earlier, found', rfl⟩ := Option.map_eq_some_iff.mp found
        have within := ih found'
        rw [List.length_cons]
        omega

theorem strstr_append {text needle : List UInt8} {offset : Nat}
    (found : strstr text needle = some offset) (behind : List UInt8) :
    strstr (text ++ behind) needle = some offset := by
  induction text generalizing offset with
  | nil =>
      rw [strstr] at found
      split_ifs at found with empty
      cases found
      rw [List.isEmpty_iff.mp empty]
      cases behind <;> rfl
  | cons letter rest ih =>
      have within := strstr_le found
      rw [strstr] at found
      rw [List.cons_append, strstr]
      split_ifs at found with starts
      · cases found
        have longer := (List.isPrefixOf_iff_prefix.mp starts).trans
          (List.prefix_append (letter :: rest) behind)
        exact if_pos (List.isPrefixOf_iff_prefix.mpr longer)
      · obtain ⟨earlier, found', rfl⟩ := Option.map_eq_some_iff.mp found
        have shorter : ¬needle.isPrefixOf (letter :: (rest ++ behind)) = true := by
          intro longer
          apply starts
          apply List.isPrefixOf_iff_prefix.mpr
          exact List.prefix_of_prefix_length_le (List.isPrefixOf_iff_prefix.mp longer)
            (List.prefix_append (letter :: rest) behind) (by omega)
        rw [if_neg shorter, ih found']
        rfl

theorem infix_of_strstr {text needle : List UInt8} {offset : Nat}
    (found : strstr text needle = some offset) : needle <:+: text := by
  induction text generalizing offset with
  | nil =>
      rw [strstr] at found
      split_ifs at found with empty
      have nothing := List.isEmpty_iff.mp empty
      exact nothing ▸ List.nil_infix
  | cons letter rest ih =>
      rw [strstr] at found
      split_ifs at found with starts
      · exact (List.isPrefixOf_iff_prefix.mp starts).isInfix
      · obtain ⟨earlier, found', _⟩ := Option.map_eq_some_iff.mp found
        exact (ih found').trans (List.suffix_cons letter rest).isInfix

theorem cString_of_not_mem {text : List UInt8} (noZero : 0 ∉ text) : cString text = text := by
  apply List.takeWhile_eq_self_iff.mpr
  intro letter member
  have other : letter ≠ 0 := fun zero => noZero (zero ▸ member)
  simpa using other

theorem cString_append_zeros (text : List UInt8) (count : Nat) :
    cString (text ++ List.replicate count 0) = cString text := by
  induction text with
  | nil => cases count <;> simp [cString, List.replicate_succ]
  | cons letter rest ih =>
      by_cases zero : letter = 0
      · simp [cString, zero]
      · simpa [cString, zero] using ih

def isSpace (letter : UInt8) : Bool := letter = 32 ∨ 9 ≤ letter ∧ letter ≤ 13

def digitValue (base : Nat) (letter : UInt8) : Option Nat :=
  let value :=
    if 48 ≤ letter ∧ letter ≤ 57 then some (letter.toNat - 48)
    else if 97 ≤ letter ∧ letter ≤ 122 then some (letter.toNat - 87)
    else if 65 ≤ letter ∧ letter ≤ 90 then some (letter.toNat - 55)
    else none
  value.filter (· < base)

def digits (base : Nat) : List UInt8 → Nat → Nat
  | [], value => value
  | letter :: rest, value =>
      match digitValue base letter with
      | none => value
      | some digit => digits base rest (value * base + digit)

def signed : List UInt8 → Bool × List UInt8
  | 45 :: rest => (true, rest)
  | 43 :: rest => (false, rest)
  | text => (false, text)

def unprefixed (base : Nat) (text : List UInt8) : List UInt8 :=
  match text with
  | 48 :: letter :: digit :: rest =>
      if base = 16 ∧ (letter = 120 ∨ letter = 88) ∧ (digitValue 16 digit).isSome then
        digit :: rest
      else text
  | _ => text

/-- `strtol` with a 64-bit `long`: the value saturates at the ends of the type. -/
def strtol (text : List UInt8) (base : Nat) : Int :=
  let (negative, text) := signed (text.dropWhile isSpace)
  let value : Int := digits base (unprefixed base text) 0
  if negative then max (-value) (-2 ^ 63) else min value (2 ^ 63 - 1)

/-- `(int) strtol(text, NULL, 10)`. -/
def atoi (text : List UInt8) : Int := (strtol text 10).bmod (2 ^ 32)

@[simp] theorem memcmp_self (bytes : List UInt8) (count : Nat) :
    memcmp bytes bytes count = .eq := by
  induction bytes generalizing count with
  | nil => rfl
  | cons byte rest ih =>
      cases count with
      | zero => rfl
      | succ count => simp [memcmp, ih]

theorem memcmp_eq_iff {left right : List UInt8} {count : Nat}
    (leftLength : left.length = count) (rightLength : right.length = count) :
    memcmp left right count = .eq ↔ left = right := by
  constructor
  · induction left generalizing right count with
    | nil =>
        intro _
        rw [← leftLength] at rightLength
        exact (List.length_eq_zero_iff.mp rightLength).symm
    | cons a as ih =>
        cases right with
        | nil => simp [← leftLength] at rightLength
        | cons b bs =>
            cases count with
            | zero => simp at leftLength
            | succ count =>
                intro same
                simp only [memcmp] at same
                by_cases below : a < b
                · simp [below] at same
                · by_cases above : b < a
                  · simp [below, above] at same
                  · simp only [below, above, if_false] at same
                    have heads : a = b := by grind
                    have tails : as = bs :=
                      ih (by simpa using leftLength) (by simpa using rightLength) same
                    rw [heads, tails]
  · rintro rfl
    exact memcmp_self left count

theorem memcmp_gt_iff (left right : List UInt8) (count : Nat) :
    memcmp left right count = .gt ↔ memcmp right left count = .lt := by
  induction left generalizing right count with
  | nil => cases right <;> simp [memcmp]
  | cons a as ih =>
      cases right with
      | nil => simp [memcmp]
      | cons b bs =>
          cases count with
          | zero => simp [memcmp]
          | succ count =>
              simp only [memcmp]
              by_cases below : a < b
              · have above : ¬ b < a := by grind
                simp [below, above]
              · by_cases above : b < a
                · simp [below, above]
                · simp only [below, above, if_false, ih]

theorem memcmp_lt_trans {first second third : List UInt8} {count : Nat}
    (left : memcmp first second count = .lt) (right : memcmp second third count = .lt) :
    memcmp first third count = .lt := by
  induction first generalizing second third count with
  | nil => cases second <;> simp [memcmp] at left
  | cons a as ih =>
      cases second with
      | nil => simp [memcmp] at left
      | cons b bs =>
          cases third with
          | nil => simp [memcmp] at right
          | cons c cs =>
              cases count with
              | zero => simp [memcmp] at left
              | succ count =>
                  simp only [memcmp] at left right ⊢
                  by_cases ab : a < b
                  · by_cases cb : c < b
                    · have bc : ¬ b < c := by grind
                      simp [bc, cb] at right
                    · have ac : a < c := by grind
                      simp [ac]
                  · by_cases ba : b < a
                    · simp [ab, ba] at left
                    · have same : a = b := by grind
                      subst same
                      by_cases ac : a < c
                      · simp [ac]
                      · by_cases ca : c < a
                        · simp [ac, ca] at right
                        · simp only [ab, ac, ca, if_false] at left right ⊢
                          exact ih left right

end Foundation.CString
