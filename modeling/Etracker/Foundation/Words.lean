import Etracker.Foundation.Occurrence

/-! The words of a text, where they start, and the numbers that they are read as. -/

namespace Foundation.CString

theorem cString_append_of_mem {text : List UInt8} (zero : 0 ∈ text) (behind : List UInt8) :
    cString (text ++ behind) = cString text := by
  induction text with
  | nil => cases zero
  | cons first rest ih =>
      by_cases here : first = 0
      · simp [cString, here]
      · have later : 0 ∈ rest := (List.mem_cons.mp zero).resolve_left (Ne.symm here)
        simpa [cString, here] using ih later

theorem cString_append {text : List UInt8} (noZero : 0 ∉ text) (behind : List UInt8) :
    cString (text ++ behind) = text ++ cString behind := by
  apply List.takeWhile_append_of_pos
  intro letter member
  have other : letter ≠ 0 := fun zero => noZero (zero ▸ member)
  simpa using other

theorem cString_cons {letter : UInt8} (other : letter ≠ 0) (text : List UInt8) :
    cString (letter :: text) = letter :: cString text :=
  List.takeWhile_cons_of_pos (by simpa using other)

section Words

variable {separates : UInt8 → Bool} {letter : UInt8}

/-- A text is split at its separators one by one. -/
theorem separated_induction {motive : List UInt8 → Prop}
    (last : ∀ piece, (∀ letter ∈ piece, separates letter = false) → motive piece)
    (step : ∀ piece letter rest, (∀ letter ∈ piece, separates letter = false) →
      separates letter = true → motive rest → motive (piece ++ letter :: rest))
    (text : List UInt8) : motive text := by
  by_cases whole : ∀ letter ∈ text, separates letter = false
  · exact last text whole
  · have separated : text.dropWhile (!separates ·) ≠ [] := by
      intro nothing
      apply whole
      simpa using nothing
    cases behind : text.dropWhile (!separates ·) with
    | nil => exact absurd behind separated
    | cons letter rest =>
        have split : text.takeWhile (!separates ·) ++ letter :: rest = text :=
          behind ▸ List.takeWhile_append_dropWhile
        have shorter : rest.length < text.length := by
          rw [← split, List.length_append, List.length_cons]
          omega
        rw [← split]
        apply step
        · intro letter member
          simpa using List.mem_takeWhile_imp member
        · have first := List.head_dropWhile_not (!separates ·) separated
          simpa [behind] using first
        · exact separated_induction last step rest
termination_by text.length

theorem words_append (separator : separates letter = true) (before behind : List UInt8) :
    words separates (before ++ letter :: behind) =
      words separates before ++ words separates behind := by
  rw [words, List.splitOnP_append_cons _ _ separator, List.filter_append]
  rfl

theorem words_cons (separator : separates letter = true) (text : List UInt8) :
    words separates (letter :: text) = words separates text :=
  words_append separator [] text

theorem words_piece {piece : List UInt8} (whole : ∀ letter ∈ piece, separates letter = false) :
    words separates piece = if piece = [] then [] else [piece] := by
  rw [words, List.splitOnP_eq_singleton whole]
  by_cases empty : piece = [] <;> simp [empty]

theorem words_eq_nil_iff {text : List UInt8} :
    words separates text = [] ↔ ∀ letter ∈ text, separates letter = true := by
  induction text using @separated_induction separates with
  | last piece whole =>
      rw [words_piece whole]
      cases piece with
      | nil => simp
      | cons first others => simp [whole first List.mem_cons_self]
  | step piece letter rest whole separator ih =>
      rw [words_append separator, words_piece whole, List.append_eq_nil_iff, ih,
        List.forall_mem_append, List.forall_mem_cons, and_iff_right separator]
      apply and_congr_left'
      cases piece with
      | nil => simp
      | cons first others => simp [whole first List.mem_cons_self]

theorem words_congr {other : UInt8 → Bool} {text : List UInt8}
    (same : ∀ letter ∈ text, separates letter = other letter) :
    words separates text = words other text := by
  have pieces : text.splitOnP separates = text.splitOnP other := by
    induction text with
    | nil => rfl
    | cons first rest ih =>
        obtain ⟨sameFirst, sameRest⟩ := List.forall_mem_cons.mp same
        rw [List.splitOnP_cons_eq_if_modifyHead, List.splitOnP_cons_eq_if_modifyHead, sameFirst,
          ih sameRest]
  rw [words, words, pieces]

end Words

section WordsAt

variable {separates : UInt8 → Bool} {letter : UInt8}

def placed : Nat → List (List UInt8) → List (Nat × List UInt8)
  | _, [] => []
  | offset, piece :: rest => (offset, piece) :: placed (offset + piece.length + 1) rest

/-- The words of a text that starts at an offset, with the offsets that they start at. -/
def wordsAt (separates : UInt8 → Bool) (offset : Nat) (text : List UInt8) :
    List (Nat × List UInt8) :=
  (placed offset (text.splitOnP separates)).filter (·.2 ≠ [])

theorem map_wordsAt (offset : Nat) (text : List UInt8) :
    (wordsAt separates offset text).map Prod.snd = words separates text := by
  rw [wordsAt, words]
  induction text.splitOnP separates generalizing offset with
  | nil => rfl
  | cons piece rest ih =>
      rw [placed]
      by_cases empty : piece = []
      · simpa [empty] using ih _
      · simpa [empty] using ih _

theorem wordsAt_piece {piece : List UInt8} (whole : ∀ letter ∈ piece, separates letter = false)
    (offset : Nat) :
    wordsAt separates offset piece = if piece = [] then [] else [(offset, piece)] := by
  rw [wordsAt, List.splitOnP_eq_singleton whole]
  by_cases empty : piece = [] <;> simp [placed, empty]

theorem wordsAt_step {piece rest : List UInt8} (whole : ∀ letter ∈ piece, separates letter = false)
    (separator : separates letter = true) (offset : Nat) :
    wordsAt separates offset (piece ++ letter :: rest) =
      (if piece = [] then [] else [(offset, piece)]) ++
        wordsAt separates (offset + piece.length + 1) rest := by
  rw [wordsAt, List.splitOnP_append_cons_of_forall_mem whole _ separator]
  by_cases empty : piece = [] <;> simp [placed, wordsAt, empty]

theorem wordsAt_append (separator : separates letter = true) (offset : Nat)
    (before behind : List UInt8) :
    wordsAt separates offset (before ++ letter :: behind) =
      wordsAt separates offset before ++ wordsAt separates (offset + before.length + 1) behind := by
  induction before using @separated_induction separates generalizing offset with
  | last piece whole => rw [wordsAt_step whole separator, wordsAt_piece whole]
  | step piece other rest whole separator' ih =>
      have lengths : offset + piece.length + 1 + rest.length + 1 =
          offset + (piece ++ other :: rest).length + 1 := by
        rw [List.length_append, List.length_cons]
        omega
      rw [List.append_assoc, List.cons_append, wordsAt_step whole separator', ih,
        wordsAt_step whole separator', List.append_assoc, lengths]

theorem wordsAt_bounds {offset : Nat} {text : List UInt8} {word : Nat × List UInt8}
    (member : word ∈ wordsAt separates offset text) :
    offset ≤ word.1 ∧ word.1 < offset + text.length := by
  induction text using @separated_induction separates generalizing offset with
  | last piece whole =>
      rw [wordsAt_piece whole] at member
      cases piece with
      | nil => cases member
      | cons first others =>
          cases List.mem_singleton.mp member
          exact ⟨Nat.le_refl _, Nat.lt_add_of_pos_right (Nat.succ_pos _)⟩
  | step piece letter rest whole separator ih =>
      rw [wordsAt_step whole separator] at member
      have lengths : (piece ++ letter :: rest).length = piece.length + (rest.length + 1) :=
        List.length_append
      rcases List.mem_append.mp member with here | behind
      · cases piece with
        | nil => cases here
        | cons first others =>
            cases List.mem_singleton.mp here
            exact ⟨Nat.le_refl _, Nat.lt_add_of_pos_right (Nat.succ_pos _)⟩
      · have bounds := ih behind
        omega

theorem wordsAt_start_iff {offset place : Nat} {text word : List UInt8} :
    (wordsAt separates offset text)[place]? = some (offset, word) ↔
      place = 0 ∧ (∃ first rest, text = first :: rest ∧ separates first = false) ∧
        word = text.takeWhile (!separates ·) := by
  have later : ∀ {further : Nat} {rest : List UInt8} {place : Nat}, offset < further →
      (wordsAt separates further rest)[place]? ≠ some (offset, word) := by
    intro further rest place after present
    have bounds := wordsAt_bounds (List.mem_of_getElem? present)
    omega
  induction text using @separated_induction separates with
  | last piece whole =>
      have self : piece.takeWhile (!separates ·) = piece :=
        List.takeWhile_eq_self_iff.mpr fun letter member => by simp [whole letter member]
      rw [wordsAt_piece whole, self]
      cases piece with
      | nil => simp
      | cons first others =>
          have starts := whole first List.mem_cons_self
          cases place with
          | zero => simpa [starts] using eq_comm
          | succ place => simp
  | step piece letter rest whole separator _ =>
      have self : (piece ++ letter :: rest).takeWhile (!separates ·) = piece := by
        rw [List.takeWhile_append_of_pos fun letter member => by simp [whole letter member]]
        simp [separator]
      rw [wordsAt_step whole separator, self]
      cases piece with
      | nil =>
          constructor
          · intro present
            exact absurd present (later (Nat.lt_succ_self _))
          · intro given
            obtain ⟨_, ⟨first, rest', same, starts⟩, _⟩ := given
            cases same
            exact absurd (separator.symm.trans starts) (by decide)
      | cons first others =>
          have starts := whole first List.mem_cons_self
          cases place with
          | zero => simpa [starts] using eq_comm
          | succ place =>
              constructor
              · intro present
                exact absurd present (later (by omega))
              · intro given
                exact absurd given.1 (Nat.succ_ne_zero _)

/-- A word of a C string starts behind a separator, and is the one of that number, exactly if
the C string goes on there and so many words are in front. -/
theorem wordsAt_cString_iff (separator : separates letter = true) (other : letter ≠ 0)
    {place : Nat} {before behind word : List UInt8} :
    (wordsAt separates 0 (cString (before ++ letter :: behind)))[place]? =
        some (before.length + 1, word) ↔
      0 ∉ before ∧ (words separates before).length = place ∧
        (∃ first rest, behind = first :: rest ∧ first ≠ 0 ∧ separates first = false) ∧
          word = (cString behind).takeWhile (!separates ·) := by
  by_cases cut : 0 ∈ before
  · have shorter : cString (before ++ letter :: behind) = cString before := cString_append_of_mem cut _
    rw [shorter]
    constructor
    · intro present
      have bounds := wordsAt_bounds (List.mem_of_getElem? present)
      have short : (cString before).length ≤ before.length := (List.takeWhile_prefix _).length_le
      omega
    · intro given
      exact absurd cut given.1
  · have longer : cString (before ++ letter :: behind) = before ++ letter :: cString behind := by
      rw [cString_append cut, cString_cons other]
    have count : (wordsAt separates 0 before).length = (words separates before).length := by
      rw [← map_wordsAt 0, List.length_map]
    have goesOn : (∃ first rest, cString behind = first :: rest ∧ separates first = false) ↔
        ∃ first rest, behind = first :: rest ∧ first ≠ 0 ∧ separates first = false := by
      cases behind with
      | nil => simp [cString]
      | cons first rest => by_cases zero : first = 0 <;> simp [cString, zero]
    rw [longer, wordsAt_append separator, and_iff_right cut, ← count, ← goesOn]
    by_cases inFront : place < (wordsAt separates 0 before).length
    · rw [List.getElem?_append_left inFront]
      constructor
      · intro present
        have bounds := wordsAt_bounds (List.mem_of_getElem? present)
        omega
      · intro given
        omega
    · rw [List.getElem?_append_right (Nat.not_lt.mp inFront), Nat.zero_add, wordsAt_start_iff]
      apply and_congr_left'
      omega

end WordsAt

section Numbers

structure EndsNumber (letter : UInt8) : Prop where
  space : isSpace letter = false
  sign : letter ≠ 43 ∧ letter ≠ 45
  digit : digitValue 10 letter = none

variable {letter : UInt8}

theorem digits_append (ends : EndsNumber letter) (before behind : List UInt8) (value : Nat) :
    digits 10 (before ++ letter :: behind) value = digits 10 before value := by
  induction before generalizing value with
  | nil => simp [digits, ends.digit]
  | cons first rest ih =>
      rw [List.cons_append, digits, digits]
      cases digitValue 10 first with
      | none => rfl
      | some digit => exact ih _

theorem signed_append (ends : EndsNumber letter) (before behind : List UInt8) :
    signed (before ++ letter :: behind) = ((signed before).1, (signed before).2 ++ letter :: behind) := by
  cases before with
  | nil =>
      rw [List.nil_append, signed]
      · rfl
      · intro rest same
        cases same
        exact absurd rfl ends.sign.2
      · intro rest same
        cases same
        exact absurd rfl ends.sign.1
  | cons first rest =>
      rw [List.cons_append]
      by_cases minus : first = 45
      · subst minus
        rfl
      · by_cases plus : first = 43
        · subst plus
          rfl
        · have unsigned : ∀ others, signed (first :: others) = (false, first :: others) := by
            intro others
            rw [signed]
            · intro rest same
              cases same
              exact minus rfl
            · intro rest same
              cases same
              exact plus rfl
          rw [unsigned, unsigned]
          rfl

theorem atoi_append (ends : EndsNumber letter) (before behind : List UInt8) :
    atoi (before ++ letter :: behind) = atoi before := by
  have spaces : (before ++ letter :: behind).dropWhile isSpace =
      before.dropWhile isSpace ++ letter :: behind := by
    rw [List.dropWhile_append]
    cases before.dropWhile isSpace with
    | nil => simp [ends.space]
    | cons first rest => rfl
  have decimal : ∀ text, unprefixed 10 text = text := by
    intro text
    rw [unprefixed.eq_def]
    split
    · exact if_neg fun given => absurd given.1 (by decide)
    · rfl
  simp only [atoi, strtol, spaces, signed_append ends, decimal, digits_append ends]

theorem atoi_takeWhile (ends : EndsNumber letter) (text : List UInt8) :
    atoi (text.takeWhile (· ≠ letter)) = atoi text := by
  have split : text.takeWhile (· ≠ letter) ++ text.dropWhile (· ≠ letter) = text :=
    List.takeWhile_append_dropWhile
  cases behind : text.dropWhile (· ≠ letter) with
  | nil => rw [behind, List.append_nil] at split; rw [split]
  | cons first rest =>
      have stops : first = letter := by
        have occupied : text.dropWhile (· ≠ letter) ≠ [] := behind ▸ List.cons_ne_nil _ _
        have head := List.head_dropWhile_not (· ≠ letter) occupied
        simp only [behind, List.head_cons] at head
        simpa using head
      rw [behind, stops] at split
      calc
        atoi (text.takeWhile (· ≠ letter)) = atoi (text.takeWhile (· ≠ letter) ++ letter :: rest) :=
          (atoi_append ends _ rest).symm
        _ = atoi text := by rw [split]

end Numbers

end Foundation.CString
