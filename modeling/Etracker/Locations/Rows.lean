import Etracker.Locations.Origin

namespace Etracker.Locations

open Foundation.CString Foundation.Latest

def quoted (field : List UInt8) : List UInt8 := 34 :: (field ++ [34])

def csvLine (fields : List (List UInt8)) (ending : List UInt8) : List UInt8 :=
  [44].intercalate (fields.map quoted) ++ ending

/-- A row of a file of comma-separated values, as `getline` returns it. -/
structure Row where
  fields : List (List UInt8)
  ending : List UInt8
  enough : 8 ≤ fields.length
  unquoted : ∀ field ∈ fields, 34 ∉ field
  ends : ending = [] ∨ ending = [10] ∨ ending = [13, 10]

def positions : List UInt8 :=
  [geoipPositionStartIpGeoip, geoipPositionEndIpGeoip, geoipPositionLatGeoip, geoipPositionLonGeoip]

theorem forall_positions {property : UInt8 → Prop} :
    (∀ position ∈ positions, property position) ↔
      property geoipPositionStartIpGeoip ∧ property geoipPositionEndIpGeoip ∧
        property geoipPositionLatGeoip ∧ property geoipPositionLonGeoip := by
  simp [positions]

def pieces (field : List UInt8) : Nat := (words (· = 44) field).length

def piecesFrom (ending : List UInt8) : List (List UInt8) → Nat
  | [] => if ending = [] then 0 else 1
  | field :: rest =>
      if 0 ∈ field then pieces (cString field) else pieces field + piecesFrom ending rest

namespace Row

variable (row : Row)

def line : List UInt8 := csvLine row.fields row.ending

def field (position : UInt8) : List UInt8 := row.fields.getD (position.toNat - 1) []

def front (position : UInt8) : List UInt8 :=
  (row.fields.take (position.toNat - 1)).flatMap (quoted · ++ [44])

def offset (position : UInt8) : Nat := (row.front position).length + 1

def text (position : UInt8) : List UInt8 := cString (row.field position)

/-- The cells of the row stand where the fields do: each of the fields 1, 2, 7 and 8 starts with
a letter, no zero byte stands in front of the eighth, the fields in front of each of the four
have as many pieces as they are, and `position` does not wrap around. -/
structure Unshifted : Prop where
  starts : ∀ position ∈ positions, ∃ letter rest, row.field position = letter :: rest ∧
    letter ≠ 44 ∧ letter ≠ 0
  whole : ∀ field ∈ row.fields.take 7, 0 ∉ field
  counted : ∀ position ∈ positions,
    ((row.fields.take (position.toNat - 1)).map pieces).sum = position.toNat - 1
  few : piecesFrom row.ending row.fields ≤ 256

end Row

section Fields

variable {ending : List UInt8}

theorem csvLine_singleton (field ending : List UInt8) :
    csvLine [field] ending = 34 :: (field ++ 34 :: ending) := by
  simp [csvLine, quoted]

theorem csvLine_cons (field : List UInt8) {rest : List (List UInt8)} (more : rest ≠ [])
    (ending : List UInt8) :
    csvLine (field :: rest) ending = 34 :: (field ++ 34 :: 44 :: csvLine rest ending) := by
  have others : rest.map quoted ≠ [] := mt List.map_eq_nil_iff.mp more
  rw [csvLine, List.map_cons, List.intercalate_cons_of_ne_nil others]
  simp [csvLine, quoted]

theorem csvLine_split {fields : List (List UInt8)} {place : Nat} {field : List UInt8}
    (present : fields[place]? = some field) (ending : List UInt8) :
    ∃ behind, csvLine fields ending =
      (fields.take place).flatMap (quoted · ++ [44]) ++ 34 :: (field ++ 34 :: behind) := by
  induction fields generalizing place with
  | nil => cases present
  | cons first rest ih =>
      by_cases last : rest = []
      · subst last
        cases place with
        | zero =>
            cases present
            exact ⟨ending, csvLine_singleton field ending⟩
        | succ place => cases present
      · rw [csvLine_cons first last]
        cases place with
        | zero =>
            cases present
            exact ⟨44 :: csvLine rest ending, rfl⟩
        | succ place =>
            obtain ⟨behind, split⟩ := ih present
            refine ⟨behind, ?_⟩
            rw [split, List.take_succ_cons, List.flatMap_cons]
            simp [quoted]

theorem words_field {field : List UInt8} (unquoted : 34 ∉ field) :
    words (fun letter => letter = 44 ∨ letter = 34) field = words (· = 44) field := by
  apply words_congr
  intro letter member
  have other : letter ≠ 34 := fun same => unquoted (same ▸ member)
  simp [other]

theorem words_quoted {field : List UInt8} (unquoted : 34 ∉ field) (behind : List UInt8) :
    words (fun letter => letter = 44 ∨ letter = 34) (34 :: (field ++ 34 :: behind)) =
      words (· = 44) field ++ words (fun letter => letter = 44 ∨ letter = 34) behind := by
  rw [words_cons (by decide), words_append (by decide), words_field unquoted]

theorem words_front {fields : List (List UInt8)} (unquoted : ∀ field ∈ fields, 34 ∉ field) :
    (words (fun letter => letter = 44 ∨ letter = 34)
      (fields.flatMap (quoted · ++ [44]))).length = (fields.map pieces).sum := by
  induction fields with
  | nil => rfl
  | cons first rest ih =>
      obtain ⟨here, later⟩ := List.forall_mem_cons.mp unquoted
      have split : (first :: rest).flatMap (quoted · ++ [44]) =
          34 :: (first ++ 34 :: 44 :: rest.flatMap (quoted · ++ [44])) := by
        simp [quoted]
      rw [split, words_quoted here, words_cons (by decide), List.length_append, ih later,
        List.map_cons, List.sum_cons]
      rfl

theorem zero_mem_front {fields : List (List UInt8)} :
    0 ∉ fields.flatMap (quoted · ++ [44]) ↔ ∀ field ∈ fields, 0 ∉ field := by
  simp [quoted]

theorem cells_quoted {field : List UInt8} (unquoted : 34 ∉ field) (behind : List UInt8) :
    (cells (34 :: (field ++ 34 :: behind))).length =
      if 0 ∈ field then pieces (cString field) else pieces field + (cells behind).length := by
  rw [cells, cString_cons (by decide)]
  by_cases cut : 0 ∈ field
  · have unquoted' : 34 ∉ cString field := fun member => unquoted ((List.takeWhile_prefix _).subset member)
    rw [if_pos cut, cString_append_of_mem cut, words_cons (by decide), words_field unquoted']
    rfl
  · rw [if_neg cut, cString_append cut, cString_cons (by decide), words_quoted unquoted,
      List.length_append]
    rfl

theorem cells_comma (text : List UInt8) : cells (44 :: text) = cells text := by
  rw [cells, cString_cons (by decide), words_cons (by decide)]
  rfl

theorem cells_csvLine {fields : List (List UInt8)} (occupied : fields ≠ [])
    (unquoted : ∀ field ∈ fields, 34 ∉ field)
    (ends : ending = [] ∨ ending = [10] ∨ ending = [13, 10]) :
    (cells (csvLine fields ending)).length = piecesFrom ending fields := by
  induction fields with
  | nil => exact absurd rfl occupied
  | cons first rest ih =>
      obtain ⟨here, later⟩ := List.forall_mem_cons.mp unquoted
      rw [piecesFrom]
      by_cases last : rest = []
      · have final : (cells ending).length = if ending = [] then 0 else 1 := by
          rcases ends with rfl | rfl | rfl <;> rfl
        rw [last, csvLine_singleton, cells_quoted here, final]
        rfl
      · rw [csvLine_cons first last, cells_quoted here, cells_comma, ih last later]

end Fields

section Taken

variable {line : List UInt8} {wanted : UInt8} {cell : Nat × List UInt8}

theorem position_iff (number : Nat) : UInt8.ofNat number = wanted ↔ number % 256 = wanted.toNat := by
  rw [← UInt8.toNat_inj, UInt8.toNat_ofNat']

theorem taken_eq_get (few : (cellsAt line).length ≤ 256) (given : wanted ≠ 0) :
    taken wanted line = (cellsAt line)[wanted.toNat - 1]? := by
  have positive : wanted.toNat ≠ 0 := fun zero => given (UInt8.toNat_inj.mp zero)
  have bounded := UInt8.toNat_lt wanted
  have unique : ∀ place, place < 256 →
      (UInt8.ofNat (1 + place) = wanted ↔ place = wanted.toNat - 1) := by
    intro place below
    rw [position_iff]
    omega
  apply Option.ext
  intro cell
  rw [taken, latest_eq_some_iff]
  constructor
  · intro found
    obtain ⟨place, item, present, answered, _⟩ := found
    have below := (List.getElem?_eq_some_iff.mp present).1
    split_ifs at answered with here
    cases answered
    rw [← (unique place (by omega)).mp here]
    exact present
  · intro present
    have below := (List.getElem?_eq_some_iff.mp present).1
    have here := (unique (wanted.toNat - 1) (by omega)).mpr rfl
    refine ⟨wanted.toNat - 1, cell, present, if_pos here, ?_⟩
    intro later other present'
    rw [List.getElem?_drop] at present'
    have below' := (List.getElem?_eq_some_iff.mp present').1
    have apart := (unique (wanted.toNat - 1 + 1 + later) (by omega)).not.mpr (by omega)
    rw [Nat.add_assoc 1]
    exact if_neg apart

theorem few_of_taken_first {behind text : List UInt8}
    (first : taken geoipPositionStartIpGeoip (34 :: behind) = some (1, text)) :
    (cellsAt (34 :: behind)).length ≤ 256 := by
  obtain ⟨place, item, present, answered, silent⟩ := latest_eq_some_iff.mp first
  split_ifs at answered with here
  cases answered
  have starts := @wordsAt_cString_iff (fun letter => letter = 44 ∨ letter = 34) 34 (by decide)
    (by decide) place [] behind text
  have isFirst : 0 = place := (starts.mp present).2.1
  subst isFirst
  by_contra many
  obtain ⟨cell, wrapped⟩ : ∃ cell, (cellsAt (34 :: behind))[256]? = some cell :=
    ⟨_, List.getElem?_eq_getElem (by omega)⟩
  have answered := silent 255 cell (by rw [List.getElem?_drop]; exact wrapped)
  have here : UInt8.ofNat (1 + (0 + 1) + 255) = geoipPositionStartIpGeoip := rfl
  cases (if_pos here).symm.trans answered

end Taken

theorem positions_bounded : ∀ position ∈ positions,
    position ≠ 0 ∧ 0 < position.toNat ∧ position.toNat ≤ 8 :=
  forall_positions.mpr (by decide)

theorem first_piece {field : List UInt8} (unquoted : 34 ∉ field) (behind : List UInt8) :
    (cString (field ++ 34 :: behind)).takeWhile
        (fun letter => !decide (letter = 44 ∨ letter = 34)) =
      (cString field).takeWhile (· ≠ 44) := by
  induction field with
  | nil => simp [cString]
  | cons first rest ih =>
      have here : first ≠ 34 := fun same => unquoted (same ▸ List.mem_cons_self)
      have later : 34 ∉ rest := fun member => unquoted (List.mem_cons_of_mem _ member)
      by_cases zero : first = 0
      · simp [cString, zero]
      · rw [List.cons_append, cString_cons zero, cString_cons zero]
        by_cases comma : first = 44
        · simp [comma]
        · rw [List.takeWhile_cons_of_pos, List.takeWhile_cons_of_pos, ih later]
          · simpa using comma
          · simpa [comma] using here

namespace Row

variable {row : Row} {position : UInt8}

theorem field_eq (stored : position ∈ positions) :
    row.fields[position.toNat - 1]? = some (row.field position) := by
  have enough := row.enough
  have bounded := positions_bounded position stored
  have inside : position.toNat - 1 < row.fields.length := by omega
  rw [field, List.getD_eq_getElem?_getD, List.getElem?_eq_getElem inside]
  rfl

theorem field_unquoted (stored : position ∈ positions) : 34 ∉ row.field position :=
  row.unquoted _ (List.mem_of_getElem? (field_eq stored))

theorem cell_iff (stored : position ∈ positions) {place : Nat} {text : List UInt8} :
    (cellsAt row.line)[place]? = some (row.offset position, text) ↔
      (∀ field ∈ row.fields.take (position.toNat - 1), 0 ∉ field) ∧
        ((row.fields.take (position.toNat - 1)).map pieces).sum = place ∧
        (∃ letter rest, row.field position = letter :: rest ∧ letter ≠ 44 ∧ letter ≠ 0) ∧
          text = (row.text position).takeWhile (· ≠ 44) := by
  have inRow : row.fields[position.toNat - 1]? = some (row.field position) := field_eq stored
  obtain ⟨behind, split⟩ := csvLine_split inRow row.ending
  have unquoted : 34 ∉ row.field position := field_unquoted stored
  have unquoted' : ∀ field ∈ row.fields.take (position.toNat - 1), 34 ∉ field :=
    fun field member => row.unquoted field (List.mem_of_mem_take member)
  have starts : (∃ first rest, row.field position ++ 34 :: behind = first :: rest ∧ first ≠ 0 ∧
        decide (first = 44 ∨ first = 34) = false) ↔
      ∃ letter rest, row.field position = letter :: rest ∧ letter ≠ 44 ∧ letter ≠ 0 := by
    cases isField : row.field position with
    | nil => simp
    | cons first rest =>
        have other : first ≠ 34 := fun same => unquoted (isField ▸ same ▸ List.mem_cons_self)
        simp [other, and_comm]
  rw [cellsAt, line, split, offset, front, wordsAt_cString_iff (by decide) (by decide),
    zero_mem_front, words_front unquoted', starts, first_piece unquoted]
  rfl

theorem cells_length (row : Row) :
    (cellsAt row.line).length = piecesFrom row.ending row.fields := by
  have occupied : row.fields ≠ [] := by
    intro nothing
    have enough := row.enough
    rw [nothing] at enough
    exact absurd enough (by decide)
  rw [← cells_csvLine occupied row.unquoted row.ends, ← map_cellsAt, List.length_map]
  rfl

/-- The four cells stand where their fields start exactly if the row is not shifted. -/
theorem taken_iff :
    (∀ position ∈ positions, ∃ text,
      taken position row.line = some (row.offset position, text)) ↔ row.Unshifted := by
  have get : piecesFrom row.ending row.fields ≤ 256 → ∀ position ∈ positions,
      taken position row.line = (cellsAt row.line)[position.toNat - 1]? := by
    intro few position stored
    exact taken_eq_get (row.cells_length ▸ few) (positions_bounded position stored).1
  constructor
  · intro places
    have isFirst : geoipPositionStartIpGeoip ∈ positions := by decide
    have few : piecesFrom row.ending row.fields ≤ 256 := by
      obtain ⟨text, first⟩ := places _ isFirst
      have inRow : row.fields[0]? = some (row.field geoipPositionStartIpGeoip) := field_eq isFirst
      obtain ⟨behind, split⟩ := csvLine_split inRow row.ending
      rw [← row.cells_length, line, split]
      rw [line, split] at first
      exact few_of_taken_first first
    have cellOf : ∀ position ∈ positions, ∃ text,
        (cellsAt row.line)[position.toNat - 1]? = some (row.offset position, text) := by
      intro position stored
      rw [← get few position stored]
      exact places position stored
    refine ⟨?_, ?_, ?_, few⟩
    · intro position stored
      obtain ⟨text, cell⟩ := cellOf position stored
      exact ((cell_iff stored).mp cell).2.2.1
    · obtain ⟨text, cell⟩ := cellOf geoipPositionLonGeoip (by decide)
      exact ((cell_iff (by decide)).mp cell).1
    · intro position stored
      obtain ⟨text, cell⟩ := cellOf position stored
      exact ((cell_iff stored).mp cell).2.1
  · intro unshifted position stored
    refine ⟨(row.text position).takeWhile (· ≠ 44), ?_⟩
    rw [get unshifted.few position stored, cell_iff stored]
    refine ⟨?_, unshifted.counted position stored, unshifted.starts position stored, rfl⟩
    intro field member
    have bounded := positions_bounded position stored
    exact unshifted.whole field ((List.take_subset_take_left _ (by omega)) member)

end Row

section Takes

variable {Degrees : Type} {atof : List UInt8 → Degrees}

/-- The numbers of a record are the ones that the fields 1, 2, 7 and 8 of a row are read as, and
each of them was read from the start of its field in that row. -/
structure TakesFields (atof : List UInt8 → Degrees) (lines : List (List UInt8)) (number : Nat)
    (row : Row) (geoip : Table Degrees) : Prop where
  places : ∀ position ∈ positions, ∃ text,
    origin lines (UInt32.ofNat number) position = some ⟨number, row.offset position, text⟩
  values : geoip[(UInt32.ofNat number).toNat]? = some
    ⟨UInt32.ofInt (atoi (row.text geoipPositionStartIpGeoip)),
      UInt32.ofInt (atoi (row.text geoipPositionEndIpGeoip)),
      atof (row.text geoipPositionLatGeoip), atof (row.text geoipPositionLonGeoip)⟩

/-- No cell of a later line is stored in the record: `lineNumber` wraps around. -/
def Kept (lines : List (List UInt8)) (number : Nat) : Prop :=
  ∀ later line, number < later → lines[later]? = some line → later % 2 ^ 32 = number % 2 ^ 32 →
    ∀ letter ∈ cString line, letter = 44 ∨ letter = 34

/-- A field is read as the same number without what follows a comma in it. -/
def ReadAlike (atof : List UInt8 → Degrees) (text : List UInt8) : Prop :=
  atof (text.takeWhile (· ≠ 44)) = atof text

theorem cellsAt_eq_nil_iff {line : List UInt8} :
    cellsAt line = [] ↔ ∀ letter ∈ cString line, letter = 44 ∨ letter = 34 := by
  rw [← List.map_eq_nil_iff, map_cellsAt, cells, words_eq_nil_iff]
  simp

theorem taken_first_eq_none_iff {line : List UInt8} :
    taken geoipPositionStartIpGeoip line = none ↔ cellsAt line = [] := by
  constructor
  · intro nothing
    cases isCells : cellsAt line with
    | nil => rfl
    | cons cell rest =>
        rw [taken, isCells, latest_eq_none_iff] at nothing
        exact absurd (nothing 0 cell rfl) (by simp [geoipPositionStartIpGeoip])
  · intro empty
    rw [taken, empty]
    rfl

theorem lineNumber_iff {later number : Nat} :
    UInt32.ofNat later = UInt32.ofNat number ↔ later % 2 ^ 32 = number % 2 ^ 32 := by
  rw [← UInt32.toNat_inj, UInt32.toNat_ofNat', UInt32.toNat_ofNat']

theorem origin_eq_some_iff {lines : List (List UInt8)} {number : Nat} {line : List UInt8}
    (present : lines[number]? = some line) {position : UInt8} {offset : Nat} {text : List UInt8} :
    origin lines (UInt32.ofNat number) position = some ⟨number, offset, text⟩ ↔
      taken position line = some (offset, text) ∧
        ∀ later other, number < later → lines[later]? = some other →
          later % 2 ^ 32 = number % 2 ^ 32 → taken position other = none := by
  rw [origin, latest_eq_some_iff]
  constructor
  · intro found
    obtain ⟨place, line', present', answered, silent⟩ := found
    rw [lineOrigin] at answered
    split_ifs at answered with here
    obtain ⟨cell, isCell, same⟩ := Option.map_eq_some_iff.mp answered
    simp only [Nat.zero_add, Origin.mk.injEq] at same
    obtain ⟨rfl, rfl, rfl⟩ := same
    rw [present] at present'
    cases present'
    refine ⟨isCell, ?_⟩
    intro later other behind present' again
    have dropped : (lines.drop (place + 1))[later - (place + 1)]? = some other := by
      rw [List.getElem?_drop, Nat.add_sub_cancel' behind]
      exact present'
    have nothing := silent (later - (place + 1)) other dropped
    rw [Nat.zero_add, Nat.add_sub_cancel' behind, lineOrigin,
      if_pos (lineNumber_iff.mpr again)] at nothing
    exact Option.map_eq_none_iff.mp nothing
  · intro given
    refine ⟨number, line, present, ?_, ?_⟩
    · rw [Nat.zero_add, lineOrigin, if_pos rfl, given.1]
      rfl
    · intro place other present'
      rw [List.getElem?_drop] at present'
      rw [Nat.zero_add, lineOrigin]
      split_ifs with here
      · rw [given.2 _ other (by omega) present' (lineNumber_iff.mp here)]
        rfl
      · rfl

theorem origin_iff {lines : List (List UInt8)} {number : Nat} {row : Row}
    (present : lines[number]? = some row.line) :
    (∀ position ∈ positions, ∃ text,
      origin lines (UInt32.ofNat number) position = some ⟨number, row.offset position, text⟩) ↔
      (∀ position ∈ positions, ∃ text,
        taken position row.line = some (row.offset position, text)) ∧ Kept lines number := by
  constructor
  · intro places
    constructor
    · intro position stored
      obtain ⟨text, found⟩ := places position stored
      exact ⟨text, ((origin_eq_some_iff present).mp found).1⟩
    · intro later line behind present' again
      obtain ⟨text, found⟩ := places geoipPositionStartIpGeoip (by decide)
      have nothing := ((origin_eq_some_iff present).mp found).2 later line behind present' again
      exact cellsAt_eq_nil_iff.mp (taken_first_eq_none_iff.mp nothing)
  · intro given position stored
    obtain ⟨text, cell⟩ := given.1 position stored
    refine ⟨text, (origin_eq_some_iff present).mpr ⟨cell, ?_⟩⟩
    intro later other behind present' again
    have empty := cellsAt_eq_nil_iff.mpr (given.2 later other behind present' again)
    rw [taken, empty]
    rfl

theorem Row.taken_text {row : Row} {position : UInt8} (stored : position ∈ positions)
    {text : List UInt8} (found : taken position row.line = some (row.offset position, text)) :
    text = (row.text position).takeWhile (· ≠ 44) := by
  obtain ⟨place, item, present, answered, _⟩ := latest_eq_some_iff.mp found
  split_ifs at answered with here
  cases answered
  exact ((cell_iff stored).mp present).2.2.2

theorem stored_record {geoip geoip' : Table Degrees} {content : List UInt8}
    (loaded : loadGeoipHandler atof geoip (some content) = .ok geoip') {number : Nat} {row : Row}
    (present : (getLines content)[number]? = some row.line)
    (places : ∀ position ∈ positions, ∃ text, origin (getLines content) (UInt32.ofNat number)
      position = some ⟨number, row.offset position, text⟩) :
    geoip'[(UInt32.ofNat number).toNat]? = some
      ⟨UInt32.ofInt (atoi (row.text geoipPositionStartIpGeoip)),
        UInt32.ofInt (atoi (row.text geoipPositionEndIpGeoip)),
        atof ((row.text geoipPositionLatGeoip).takeWhile (· ≠ 44)),
        atof ((row.text geoipPositionLonGeoip).takeWhile (· ≠ 44))⟩ := by
  have comma : EndsNumber 44 := ⟨by decide, by decide, by decide⟩
  have text : ∀ position ∈ positions, (origin (getLines content) (UInt32.ofNat number)
      position).map Origin.text = some ((row.text position).takeWhile (· ≠ 44)) := by
    intro position stored
    obtain ⟨text, found⟩ := places position stored
    have cell := ((origin_eq_some_iff present).mp found).1
    rw [found, Option.map_some, Row.taken_text stored cell]
  have occupied : cells row.line ≠ [] := by
    obtain ⟨text, found⟩ := places geoipPositionStartIpGeoip (by decide)
    have cell := ((origin_eq_some_iff present).mp found).1
    intro empty
    rw [← map_cellsAt, List.map_eq_nil_iff] at empty
    rw [taken_first_eq_none_iff.mpr empty] at cell
    cases cell
  obtain ⟨old, there⟩ := Option.ne_none_iff_exists'.mp
    (@loadLines_present _ atof _ _ _ _ 0 loaded _ _ present occupied)
  rw [Nat.zero_add] at there
  rw [loadGeoipHandler_stores loaded, there, Option.map_some, Geoip.store]
  rw [text _ (by decide), text _ (by decide), text _ (by decide), text _ (by decide)]
  simp only [Option.map_some, Option.getD_some, atoi_takeWhile comma]

/-- A row of a file that was loaded has its fields 1, 2, 7 and 8 in the record exactly if the
row is not shifted, the commas in the last two change no number and the record is kept. -/
theorem loadGeoipHandler_takes_iff {geoip geoip' : Table Degrees} {content : List UInt8}
    (loaded : loadGeoipHandler atof geoip (some content) = .ok geoip') {number : Nat} {row : Row}
    (present : (getLines content)[number]? = some row.line) :
    TakesFields atof (getLines content) number row geoip' ↔
      row.Unshifted ∧ ReadAlike atof (row.text geoipPositionLatGeoip) ∧
        ReadAlike atof (row.text geoipPositionLonGeoip) ∧ Kept (getLines content) number := by
  constructor
  · intro takes
    have values := (stored_record loaded present takes.places).symm.trans takes.values
    simp only [Option.some.injEq, Geoip.mk.injEq] at values
    have given := (origin_iff present).mp takes.places
    exact ⟨Row.taken_iff.mp given.1, values.2.2.1, values.2.2.2, given.2⟩
  · intro given
    obtain ⟨unshifted, lat, lon, kept⟩ := given
    have places := (origin_iff present).mpr ⟨Row.taken_iff.mpr unshifted, kept⟩
    refine ⟨places, ?_⟩
    rw [stored_record loaded present places, lat, lon]

theorem loadGeoipHandler_single [Zero Degrees] [OfNat Degrees 1000] (atof : List UInt8 → Degrees)
    {line : List UInt8} (single : getLines line = [line]) {startIp : UInt32}
    (starts : lineStartIps line = [startIp]) :
    ∃ geoip', loadGeoipHandler atof (initGeoip false) (some line) = .ok geoip' := by
  have inside : (0 : UInt32).toNat < (initGeoip false : Table Degrees).size := by
    rw [initGeoip_size]
    decide
  rcases loadCells_inside atof (cells line) inside 0 0 with ⟨_, geoip', _, stored⟩ | ⟨outOfOrder, _⟩
  · refine ⟨geoip', ?_⟩
    rw [loadGeoipHandler, single, loadLines, stored]
    rfl
  · have inOrder : Ascending (lineStartIps line) := starts ▸ .singleton startIp
    exact absurd (ascending_zero.mpr inOrder) outOfOrder

end Takes

section Seoul

def seoul (country : List UInt8) (unquoted : 34 ∉ country) : Row where
  fields := [ascii "1", ascii "2", ascii "KR", country, ascii "Seoul", ascii "Seoul", ascii "37",
    ascii "126"]
  ending := [10]
  enough := Nat.le_refl _
  unquoted := by
    intro field member
    simp only [List.mem_cons, List.not_mem_nil, or_false] at member
    rcases member with rfl | rfl | rfl | rfl | rfl | rfl | rfl | rfl
    case inr.inr.inr.inl => exact unquoted
    all_goals decide
  ends := .inr (.inl rfl)

def korea : Row := seoul (ascii "Korea") (by decide)

def republicOfKorea : Row := seoul (ascii "Korea, Republic of") (by decide)

theorem korea_unshifted : korea.Unshifted := by
  refine ⟨forall_positions.mpr ⟨?_, ?_, ?_, ?_⟩, by decide, forall_positions.mpr (by decide),
    by decide⟩
  · exact ⟨49, [], rfl, by decide⟩
  · exact ⟨50, [], rfl, by decide⟩
  · exact ⟨51, [55], rfl, by decide⟩
  · exact ⟨49, [50, 54], rfl, by decide⟩

theorem loadGeoipHandler_takes_korea :
    ∃ geoip', loadGeoipHandler atoi (initGeoip false) (some korea.line) = .ok geoip' ∧
      TakesFields atoi (getLines korea.line) 0 korea geoip' := by
  have single : getLines korea.line = [korea.line] := by decide
  have starts : lineStartIps korea.line = [1] := by decide
  obtain ⟨geoip', loaded⟩ := loadGeoipHandler_single atoi single starts
  have present : (getLines korea.line)[0]? = some korea.line := by rw [single]; rfl
  refine ⟨geoip', loaded, (loadGeoipHandler_takes_iff loaded present).mpr ?_⟩
  refine ⟨korea_unshifted, by unfold ReadAlike; decide, by unfold ReadAlike; decide, ?_⟩
  intro later line behind present'
  rw [single] at present'
  have inside := (List.getElem?_eq_some_iff.mp present').1
  exact absurd behind (Nat.not_lt.mpr (Nat.le_of_lt_succ inside))

/-- The comma in the country's name ends a cell: the latitude is read from the name of a city. -/
theorem loadGeoipHandler_takes_city :
    ∃ geoip', loadGeoipHandler atoi (initGeoip false) (some republicOfKorea.line) = .ok geoip' ∧
      (getLines republicOfKorea.line)[0]? = some republicOfKorea.line ∧
      geoip'[0]?.map Geoip.lat = some 0 ∧
      atoi (republicOfKorea.text geoipPositionLatGeoip) = 37 ∧
      ¬TakesFields atoi (getLines republicOfKorea.line) 0 republicOfKorea geoip' := by
  have single : getLines republicOfKorea.line = [republicOfKorea.line] := by decide
  have starts : lineStartIps republicOfKorea.line = [1] := by decide
  obtain ⟨geoip', loaded⟩ := loadGeoipHandler_single atoi single starts
  have present : (getLines republicOfKorea.line)[0]? = some republicOfKorea.line := by
    rw [single]
    rfl
  have city : origin (getLines republicOfKorea.line) 0 geoipPositionLatGeoip =
      some ⟨0, 43, ascii "Seoul"⟩ := by decide
  have field : atoi (republicOfKorea.text geoipPositionLatGeoip) = 37 := by decide
  obtain ⟨old, there⟩ := Option.ne_none_iff_exists'.mp
    (@loadLines_present _ atoi _ _ _ _ 0 loaded _ _ present (by decide))
  have lat : geoip'[0]?.map Geoip.lat = some 0 := by
    have stored := (loadGeoipHandler_stores loaded 0).trans (congrArg (Option.map _) there)
    calc
      geoip'[0]?.map Geoip.lat = some (old.store atoi fun wanted =>
          (origin (getLines republicOfKorea.line) 0 wanted).map Origin.text).lat :=
        congrArg (Option.map Geoip.lat) stored
      _ = some (atoi (ascii "Seoul")) := by rw [Geoip.store, city]; rfl
      _ = some 0 := by decide
  refine ⟨geoip', loaded, present, lat, field, ?_⟩
  intro takes
  have isField := (congrArg (Option.map Geoip.lat) takes.values).symm.trans lat
  rw [Option.map_some, field] at isField
  cases isField

end Seoul

end Etracker.Locations
