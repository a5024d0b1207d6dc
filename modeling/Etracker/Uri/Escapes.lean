import Etracker.Uri.Model

namespace Etracker

open Foundation Foundation.CString

/-- What a text leaves open when it ends: a percent sign, or also the digit behind it. -/
inductive Escape
  | closed
  | percent
  | digit (high : UInt8)
  deriving DecidableEq

def escapedByte (high low : UInt8) : UInt8 := UInt8.ofInt (strtol [high, low] 16)

/-- The bytes that a text stands for, as far as there is room, and the escape it leaves open. -/
def readValue : Escape → Nat → List UInt8 → List UInt8 × Escape
  | escape, 0, _ => ([], escape)
  | escape, _ + 1, [] => ([], escape)
  | escape, room + 1, letter :: rest =>
      if letter = 37 then readValue .percent (room + 1) rest
      else match escape with
      | .closed =>
          let (bytes, left) := readValue .closed room rest
          (letter :: bytes, left)
      | .percent => readValue (.digit letter) (room + 1) rest
      | .digit high =>
          let (bytes, left) := readValue .closed room rest
          (escapedByte high letter :: bytes, left)

/-- The values of texts that follow one another: the bytes of the last one, and what they leave
open. -/
def readAll (values : List (List UInt8)) : List UInt8 × Escape :=
  values.foldl (fun before value => readValue before.2 uriParamValueLength value) ([], .closed)

def valueTexts (text : List UInt8) : List (List UInt8) := (text.splitOn 61).tail

theorem exists_valueTexts (text : List UInt8) : ∃ name, text.splitOn 61 = name :: valueTexts text ∧
    61 ∉ name ∧ (∀ value ∈ valueTexts text, 61 ∉ value) ∧
    text = name ++ (valueTexts text).flatMap (61 :: ·) := by
  induction text with
  | nil => exact ⟨[], rfl, List.not_mem_nil, by simp [valueTexts], rfl⟩
  | cons letter rest ih =>
      obtain ⟨name, parts, noEquals, noEquals', joined⟩ := ih
      by_cases equals : letter = 61
      · have values : valueTexts (letter :: rest) = name :: valueTexts rest := by
          rw [valueTexts, List.splitOn_cons_eq_if_modifyHead, if_pos (by simpa using equals), parts]
          rfl
        refine ⟨[], ?_, List.not_mem_nil, ?_, ?_⟩
        · rw [List.splitOn_cons_eq_if_modifyHead, if_pos (by simpa using equals), parts, values]
        · rw [values]
          exact List.forall_mem_cons.mpr ⟨noEquals, noEquals'⟩
        · rw [values, List.flatMap_cons, List.nil_append, List.cons_append, ← joined, equals]
      · have split : (letter :: rest).splitOn 61 = (letter :: name) :: valueTexts rest := by
          rw [List.splitOn_cons_eq_if_modifyHead, if_neg (by simpa using equals), parts]
          rfl
        have values : valueTexts (letter :: rest) = valueTexts rest := by
          rw [valueTexts, split, List.tail_cons]
        refine ⟨letter :: name, ?_, ?_, ?_, ?_⟩
        · rw [split, values]
        · exact List.not_mem_cons_of_ne_of_not_mem (Ne.symm equals) noEquals
        · rwa [values]
        · rw [values, List.cons_append, ← joined]

theorem valueTexts_eq_nil {text : List UInt8} (noEquals : 61 ∉ text) : valueTexts text = [] := by
  rw [valueTexts, List.splitOn_eq_singleton noEquals, List.tail_cons]

theorem mem_of_mem_valueTexts {text value : List UInt8} (member : value ∈ valueTexts text)
    {letter : UInt8} (inside : letter ∈ value) : letter ∈ text := by
  obtain ⟨name, -, -, -, joined⟩ := exists_valueTexts text
  rw [joined]
  refine List.mem_append_right _ (List.mem_flatMap.mpr ⟨value, member, ?_⟩)
  exact List.mem_cons_of_mem _ inside

inductive Harmless : Escape → List UInt8 → Prop
  | closed (value) : Harmless .closed value
  | empty (escape) : Harmless escape []
  | again (escape rest) : Harmless escape (37 :: rest)
  | digit {high low} (rest) : escapedByte high low = low → Harmless (.digit high) (low :: rest)
  | row {letter rest} :
      (readValue .percent uriParamValueLength rest).1 = List.replicate uriParamValueLength letter →
      Harmless .percent (letter :: 37 :: rest)
  | rows {high low rest} : low ≠ 37 → escapedByte high low = high →
      (readValue .closed (uriParamValueLength - 1) rest).1 =
        List.replicate (uriParamValueLength - 1) low →
      Harmless .percent (high :: low :: rest)

theorem readValue_percent (escape : Escape) (room : Nat) (rest : List UInt8) :
    readValue escape (room + 1) (37 :: rest) = readValue .percent (room + 1) rest := by
  simp [readValue]

section Letters

variable (room : Nat) {letter : UInt8} (other : letter ≠ 37) (rest : List UInt8)
include other

theorem readValue_letter : readValue .closed (room + 1) (letter :: rest) =
    (letter :: (readValue .closed room rest).1, (readValue .closed room rest).2) := by
  simp [readValue, other]

theorem readValue_high : readValue .percent (room + 1) (letter :: rest) =
    readValue (.digit letter) (room + 1) rest := by
  simp [readValue, other]

theorem readValue_low (high : UInt8) : readValue (.digit high) (room + 1) (letter :: rest) =
    (escapedByte high letter :: (readValue .closed room rest).1,
      (readValue .closed room rest).2) := by
  simp [readValue, other]

end Letters

theorem readValue_length (escape : Escape) (room : Nat) (value : List UInt8) :
    (readValue escape room value).1.length ≤ room := by
  fun_induction readValue escape room value with
  | case1 => simp
  | case2 => simp
  | case3 _ _ _ ih => exact ih
  | case4 room letter rest _ bytes left same ih =>
      rw [same] at ih
      simpa using ih
  | case5 _ _ _ _ ih => exact ih
  | case6 room letter rest _ high bytes left same ih =>
      rw [same] at ih
      simpa using ih

theorem readValue_take (escape : Escape) (room more : Nat) (value : List UInt8) :
    (readValue escape room value).1 = (readValue escape (room + more) value).1.take room := by
  fun_induction readValue escape room value with
  | case1 => simp
  | case2 escape room =>
      rw [Nat.succ_add, readValue]
      rfl
  | case3 escape room rest ih =>
      rw [Nat.succ_add] at ih ⊢
      rw [readValue_percent, ih]
  | case4 room letter rest other bytes left same ih =>
      rw [same] at ih
      rw [Nat.succ_add, readValue_letter _ other]
      exact congrArg (letter :: ·) ih
  | case5 room letter rest other ih =>
      rw [Nat.succ_add] at ih ⊢
      rw [readValue_high _ other, ih]
  | case6 room letter rest other high bytes left same ih =>
      rw [same] at ih
      rw [Nat.succ_add, readValue_low _ other]
      exact congrArg (escapedByte high letter :: ·) ih

theorem readValue_left {open' alone : Escape} {room : Nat} (more : Nat) (value : List UInt8)
    (begins : alone = .closed ∨ open' = alone ∧ 0 < room) :
    (readValue open' (room + more) value).2 = (readValue alone room value).2 ∨
      (readValue alone room value).2 = .closed := by
  induction value generalizing open' alone room more with
  | nil =>
      cases room with
      | zero => exact Or.inr (begins.resolve_right fun same => absurd same.2 (by decide))
      | succ room =>
          rw [Nat.succ_add, readValue, readValue]
          exact begins.symm.imp_left And.left
  | cons letter rest ih =>
      cases room with
      | zero => exact Or.inr (begins.resolve_right fun same => absurd same.2 (by decide))
      | succ room =>
          rw [Nat.succ_add]
          by_cases isPercent : letter = 37
          · have later := @ih .percent .percent (room + 1) more (Or.inr ⟨rfl, Nat.succ_pos _⟩)
            rw [Nat.succ_add] at later
            rwa [isPercent, readValue_percent, readValue_percent]
          -- An open escape takes this letter, and behind it both texts go on alike.
          · rcases begins with rfl | ⟨rfl, -⟩
            · rw [readValue_letter _ isPercent]
              cases open' with
              | closed =>
                  rw [readValue_letter _ isPercent]
                  exact ih more (Or.inl rfl)
              | percent =>
                  rw [readValue_high _ isPercent]
                  exact ih (more + 1) (Or.inl rfl)
              | digit high =>
                  rw [readValue_low _ isPercent]
                  exact ih more (Or.inl rfl)
            · cases open' with
              | closed =>
                  rw [readValue_letter _ isPercent, readValue_letter _ isPercent]
                  exact ih more (Or.inl rfl)
              | percent =>
                  have later := @ih (.digit letter) (.digit letter) (room + 1) more
                    (Or.inr ⟨rfl, Nat.succ_pos _⟩)
                  rw [Nat.succ_add] at later
                  rwa [readValue_high _ isPercent, readValue_high _ isPercent]
              | digit high =>
                  rw [readValue_low _ isPercent, readValue_low _ isPercent]
                  exact ih more (Or.inl rfl)

theorem readAll_append (before values : List (List UInt8)) :
    readAll (before ++ values) = values.foldl
      (fun before value => readValue before.2 uriParamValueLength value) (readAll before) :=
  List.foldl_append

theorem readAll_concat (values : List (List UInt8)) (value : List UInt8) :
    readAll (values ++ [value]) = readValue (readAll values).2 uriParamValueLength value := by
  rw [readAll_append]
  rfl

theorem readAll_length (values : List (List UInt8)) :
    (readAll values).1.length ≤ uriParamValueLength := by
  induction values using List.reverseRecOn with
  | nil => exact Nat.zero_le _
  | append_singleton values value ih =>
      rw [readAll_concat]
      exact readValue_length _ _ _

/-- The values in front of other values matter to what these leave open only where they leave
nothing open by themselves. -/
theorem readAll_left (before values : List (List UInt8)) :
    (readAll (before ++ values)).2 = (readAll values).2 ∨ (readAll values).2 = .closed := by
  induction values using List.reverseRecOn with
  | nil => exact Or.inr rfl
  | append_singleton values value ih =>
      rw [← List.append_assoc, readAll_concat, readAll_concat]
      exact readValue_left 0 value (ih.symm.imp_right fun same => ⟨same, by decide⟩)

theorem takeD_shifted {bytes : List UInt8} {room : Nat} {letter : UInt8}
    (fits : bytes.length ≤ room) (shown : letter ≠ 0) :
    bytes.takeD room 0 = (letter :: bytes.take (room - 1)).takeD room 0 ↔
      bytes = List.replicate room letter := by
  induction room generalizing bytes with
  | zero => simpa using List.length_eq_zero_iff.mp (Nat.le_zero.mp fits)
  | succ room ih =>
      cases bytes with
      | nil =>
          have differs : (0 : UInt8) ≠ letter := shown.symm
          simp [differs, List.replicate_succ]
      | cons first rest =>
          have fits' : rest.length ≤ room := Nat.le_of_succ_le_succ fits
          rw [List.takeD_succ, List.takeD_succ, List.replicate_succ, List.cons_eq_cons,
            List.cons_eq_cons, ← ih fits']
          cases room with
          | zero => simp
          | succ room =>
              constructor
              · rintro ⟨rfl, later⟩
                exact ⟨rfl, later⟩
              · rintro ⟨rfl, later⟩
                exact ⟨rfl, later⟩

theorem takeD_cons (byte : UInt8) (bytes : List UInt8) (room : Nat) :
    (byte :: bytes).takeD (room + 1) 0 = byte :: bytes.takeD room 0 := rfl

def readBuffer (escape : Escape) (value : List UInt8) : ParamValue :=
  Bytes.ofList uriParamValueLength (readValue escape uriParamValueLength value).1

theorem readBuffer_eq_iff {left right : Escape} {value other : List UInt8} :
    readBuffer left value = readBuffer right other ↔
      (readValue left (19 + 1) value).1.takeD (19 + 1) 0 =
        (readValue right (19 + 1) other).1.takeD (19 + 1) 0 :=
  ⟨congrArg Bytes.list, fun same => Bytes.ext same⟩

theorem readBuffer_digit (high : UInt8) {low : UInt8} (other : low ≠ 37) (rest : List UInt8) :
    readBuffer (.digit high) (low :: rest) = readBuffer .closed (low :: rest) ↔
      escapedByte high low = low := by
  rw [readBuffer_eq_iff, readValue_letter _ other, readValue_low _ other, takeD_cons, takeD_cons,
    List.cons_eq_cons]
  exact and_iff_left rfl

theorem readBuffer_high (letter : UInt8) (other : letter ≠ 37) (shown : letter ≠ 0) :
    readBuffer .percent [letter] ≠ readBuffer .closed [letter] := by
  rw [Ne, readBuffer_eq_iff, readValue_letter _ other, readValue_high _ other, takeD_cons]
  intro same
  exact shown (List.cons_eq_cons.mp same).1.symm

theorem readBuffer_row {letter : UInt8} (other : letter ≠ 37) (shown : letter ≠ 0)
    (rest : List UInt8) :
    readBuffer .percent (letter :: 37 :: rest) = readBuffer .closed (letter :: 37 :: rest) ↔
      (readValue .percent uriParamValueLength rest).1 =
        List.replicate uriParamValueLength letter := by
  have cut := readValue_take .percent 19 1 rest
  rw [readBuffer_eq_iff, readValue_letter _ other, readValue_high _ other, readValue_percent,
    readValue_percent, cut]
  exact takeD_shifted (readValue_length _ _ _) shown

theorem readBuffer_rows {high low : UInt8} (other : high ≠ 37) (other' : low ≠ 37)
    (shown : low ≠ 0) (rest : List UInt8) :
    readBuffer .percent (high :: low :: rest) = readBuffer .closed (high :: low :: rest) ↔
      escapedByte high low = high ∧ (readValue .closed (uriParamValueLength - 1) rest).1 =
        List.replicate (uriParamValueLength - 1) low := by
  have cut := readValue_take .closed 18 1 rest
  rw [readBuffer_eq_iff, readValue_letter _ other, readValue_high _ other, readValue_letter _ other',
    readValue_low _ other', takeD_cons, takeD_cons, List.cons_eq_cons, cut]
  exact and_congr_right fun _ => takeD_shifted (readValue_length _ _ _) shown

theorem readBuffer_again (left right : Escape) (rest : List UInt8) :
    readBuffer left (37 :: rest) = readBuffer right (37 :: rest) := by
  rw [readBuffer_eq_iff, readValue_percent, readValue_percent]

/-- Exactly the harmless texts fill the buffer as if nothing were open in front of them. -/
theorem readBuffer_harmless {escape : Escape} {value : List UInt8}
    (shown : ∀ letter ∈ value, letter ≠ 0) :
    readBuffer escape value = readBuffer .closed value ↔ Harmless escape value := by
  constructor
  · intro same
    rcases value with _ | ⟨letter, rest⟩
    · exact .empty _
    · by_cases isPercent : letter = 37
      · exact isPercent ▸ .again _ _
      · cases escape with
        | closed => exact .closed _
        | digit high => exact .digit rest ((readBuffer_digit high isPercent rest).mp same)
        | percent =>
            have notZero := shown letter List.mem_cons_self
            rcases rest with _ | ⟨low, rest⟩
            · exact absurd same (readBuffer_high letter isPercent notZero)
            · by_cases isPercent' : low = 37
              · subst isPercent'
                exact .row ((readBuffer_row isPercent notZero rest).mp same)
              · have notZero' := shown low (List.mem_cons_of_mem _ List.mem_cons_self)
                have rows := (readBuffer_rows isPercent isPercent' notZero' rest).mp same
                exact .rows isPercent' rows.1 rows.2
  · intro harmless
    cases harmless with
    | closed => rfl
    | empty => rfl
    | again => exact readBuffer_again _ _ _
    | @digit high low rest same =>
        by_cases isPercent : low = 37
        · exact isPercent ▸ readBuffer_again _ _ _
        · exact (readBuffer_digit high isPercent rest).mpr same
    | @row letter rest same =>
        by_cases isPercent : letter = 37
        · rw [isPercent]
          exact readBuffer_again _ _ _
        · exact (readBuffer_row isPercent (shown letter List.mem_cons_self) rest).mpr same
    | @rows high low rest other same same' =>
        by_cases isPercent : high = 37
        · exact isPercent ▸ readBuffer_again _ _ _
        · have notZero := shown low (List.mem_cons_of_mem _ List.mem_cons_self)
          exact (readBuffer_rows isPercent other notZero rest).mpr ⟨same, same'⟩

end Etracker
