import Etracker.Foundation.Halving
import Etracker.Foundation.Outcome
import Etracker.Locations.Model

namespace Etracker.Locations

open Foundation.Halving Foundation.Outcome

section Covered

variable {Degrees : Type}

def told (geoip : Table Degrees) (ip : UInt32) (index : Nat) : Probe :=
  match geoip[index]? with
  | none => .here
  | some record =>
      if record.startIp > ip then .left else if record.endIp < ip then .right else .here

theorem told_eq {geoip : Table Degrees} {index : Nat} {record : Geoip Degrees}
    (present : geoip[index]? = some record) (ip : UInt32) :
    told geoip ip index =
      if record.startIp > ip then .left else if record.endIp < ip then .right else .here := by
  rw [told, present]

theorem told_left {geoip : Table Degrees} {ip : UInt32} {index : Nat}
    (left : told geoip ip index = .left) :
    ∃ record, geoip[index]? = some record ∧ ip < record.startIp := by
  unfold told at left
  split at left
  · cases left
  · split_ifs at left with above
    exact ⟨_, ‹_›, above⟩

theorem told_right {geoip : Table Degrees} {ip : UInt32} {index : Nat}
    (right : told geoip ip index = .right) :
    ∃ record, geoip[index]? = some record ∧ record.startIp ≤ ip := by
  unfold told at right
  split at right
  · cases right
  · split_ifs at right with above below
    exact ⟨_, ‹_›, UInt32.not_lt.mp above⟩

/-- All records are loaded, and no address lies between two of them. -/
structure Contiguous [OfNat Degrees 1000] (geoip : Table Degrees) : Prop where
  lines : geoip.size = geoipFileLines
  firstStart : ∀ record, geoip[0]? = some record → record.startIp = 0
  firstEnd : ∀ record, geoip[0]? = some record → record.endIp ≠ 0
  next : ∀ index record record', geoip[index]? = some record → geoip[index + 1]? = some record' →
    record'.startIp = record.endIp + 1
  lastEnd : ∀ record, geoip[geoipFileLines - 1]? = some record → record.endIp = 4294967295
  loaded : ∀ record, geoip[geoipFileLines - 1]? = some record → record.lat ≠ geoipNotLoading

theorem add_one_le {left right : UInt32} (below : left < right) : left + 1 ≤ right := by
  rw [UInt32.le_iff_toNat_le, UInt32.toNat_add]
  have bound := right.toNat_lt
  have below' := UInt32.lt_iff_toNat_lt.mp below
  simp only [UInt32.reduceToNat]
  omega

variable [OfNat Degrees 1000] {geoip : Table Degrees}

/-- From a record that does not start too late on, one of the records in front of the next that
does contains the address. -/
theorem Contiguous.covered (contiguous : Contiguous geoip) {ip : UInt32} {first high : Nat}
    (before : first < high) (inside : high ≤ geoipFileLines)
    (starts : ∃ record, geoip[first]? = some record ∧ record.startIp ≤ ip)
    (ends : high = geoipFileLines ∨ told geoip ip high = .left) :
    ∃ found, first ≤ found ∧ found < high ∧ told geoip ip found = .here := by
  obtain ⟨distance, apart⟩ := Nat.exists_eq_add_of_lt before
  induction distance generalizing first with
  | zero =>
      obtain ⟨record, present, starts⟩ := starts
      refine ⟨first, Nat.le_refl _, before, ?_⟩
      rw [told_eq present, if_neg (UInt32.not_lt.mpr starts), if_neg]
      intro short
      rcases ends with last | left
      · have atEnd : first = geoipFileLines - 1 := by omega
        have whole := contiguous.lastEnd record (atEnd ▸ present)
        rw [whole, UInt32.lt_iff_toNat_lt] at short
        have bound := ip.toNat_lt
        simp only [UInt32.reduceToNat] at short
        omega
      · obtain ⟨record', present', above⟩ := told_left left
        have isNext : high = first + 1 := by omega
        have follows := contiguous.next first record record' present (isNext ▸ present')
        exact absurd (add_one_le short) (UInt32.not_le.mpr (follows ▸ above))
  | succ distance ih =>
      obtain ⟨record, present, starts⟩ := starts
      by_cases short : record.endIp < ip
      · have further : first + 1 < geoip.size := by
          rw [contiguous.lines]
          omega
        have present' := Array.getElem?_eq_getElem further
        have follows := contiguous.next first record _ present present'
        have starts' := follows ▸ add_one_le short
        obtain ⟨found, above, below, here⟩ :=
          @ih (first + 1) (by omega) ⟨_, present', starts'⟩ (by omega)
        exact ⟨found, by omega, below, here⟩
      · refine ⟨first, Nat.le_refl _, before, ?_⟩
        rw [told_eq present, if_neg (UInt32.not_lt.mpr starts), if_neg short]

theorem Contiguous.guided (contiguous : Contiguous geoip) (ip : UInt32) :
    Guided (told geoip ip) geoipFileLines where
  left := by
    intro low index left inside le atLow
    rcases Nat.eq_zero_or_pos low with rfl | positive
    · have notFirst : 0 < index := by
        rcases Nat.eq_zero_or_pos index with rfl | positive
        · obtain ⟨record, present, above⟩ := told_left left
          rw [contiguous.firstStart record present, UInt32.lt_iff_toNat_lt] at above
          exact absurd above (Nat.not_lt_zero _)
        · exact positive
      have occupied : 0 < geoip.size := by
        rw [contiguous.lines]
        decide
      have present := Array.getElem?_eq_getElem occupied
      have starts : geoip[0].startIp ≤ ip := by
        rw [contiguous.firstStart _ present, UInt32.le_iff_toNat_le]
        exact Nat.zero_le _
      exact contiguous.covered notFirst (by omega) ⟨_, present, starts⟩ (.inr left)
    · have right := atLow.resolve_left (by omega)
      obtain ⟨found, above, below, here⟩ :=
        contiguous.covered (by omega) (by omega) (told_right right) (.inr left)
      refine ⟨found, ?_, below, here⟩
      have other : found ≠ low - 1 := by
        rintro rfl
        rw [here] at right
        cases right
      omega
  right := by
    intro index high right before inside atHigh
    obtain ⟨found, above, below, here⟩ :=
      contiguous.covered before inside (told_right right) atHigh
    refine ⟨found, ?_, below, here⟩
    have other : found ≠ index := by
      rintro rfl
      rw [here] at right
      cases right
    omega

end Covered

theorem strideOf_toNat (delimiter : UInt64) :
    (strideOf delimiter).toNat = geoipFileLines / delimiter.toNat := by
  have bound : geoipFileLines / delimiter.toNat ≤ geoipFileLines := Nat.div_le_self _ _
  have lines : geoipFileLines = 2912124 := rfl
  rw [strideOf, UInt64.toNat_toUInt32, UInt64.toNat_div, UInt64.toNat_ofNat']
  rw [Nat.mod_eq_of_lt (show geoipFileLines < 2 ^ 64 by decide), Nat.mod_eq_of_lt (by omega)]

theorem stepDown_toNat {index : UInt32} {delimiter : UInt64} {reach : Nat}
    (half : reach / 2 = geoipFileLines / delimiter.toNat) (fits : stride reach ≤ index.toNat) :
    (stepDown index delimiter).toNat = index.toNat - stride reach := by
  have moves := strideOf_toNat delimiter
  unfold stride at fits ⊢
  have below : strideOf delimiter ≤ index := by
    rw [UInt32.le_iff_toNat_le]
    omega
  have moved := UInt32.toNat_sub_of_le _ _ below
  unfold stepDown
  dsimp only
  split_ifs with other
  · have notSame : index.toNat ≠ (index - strideOf delimiter).toNat :=
      fun same => other (UInt32.toNat_inj.mp same)
    omega
  · have same := not_not.mp other
    have one : (1 : UInt32) ≤ index := by
      rw [UInt32.le_iff_toNat_le]
      simp only [UInt32.reduceToNat]
      omega
    rw [← same] at moved ⊢
    rw [UInt32.toNat_sub_of_le _ _ one]
    simp only [UInt32.reduceToNat]
    omega

theorem stepUp_toNat {index : UInt32} {delimiter : UInt64} {reach : Nat}
    (half : reach / 2 = geoipFileLines / delimiter.toNat)
    (fits : index.toNat + stride reach < 2 ^ 32) :
    (stepUp index delimiter).toNat = index.toNat + stride reach := by
  have moves := strideOf_toNat delimiter
  unfold stride at fits ⊢
  have moved : (index + strideOf delimiter).toNat = index.toNat + geoipFileLines / delimiter.toNat := by
    rw [UInt32.toNat_add, moves]
    omega
  unfold stepUp
  dsimp only
  split_ifs with other
  · have notSame : index.toNat ≠ (index + strideOf delimiter).toNat :=
      fun same => other (UInt32.toNat_inj.mp same)
    omega
  · have same := not_not.mp other
    rw [← same] at moved ⊢
    rw [UInt32.toNat_add]
    simp only [UInt32.reduceToNat]
    omega

variable {Degrees : Type} [OfNat Degrees 1000] {geoip : Table Degrees}

/-- The record that contains an address, found in time. -/
structure Finds (geoip : Table Degrees) (ip : UInt32) (found : Found) : Prop where
  within : found.iterations ≤ geoipMaxIteration
  notTooMany : found.tooMany = false
  contains : ∃ record, geoip[found.index.toNat]? = some record ∧ record.startIp ≤ ip ∧
    ip ≤ record.endIp

omit [OfNat Degrees 1000] in
theorem findGeoipFrom_here {ip : UInt32} {delimiter : UInt64} {index : UInt32}
    {currentIterations : Nat} {record : Geoip Degrees}
    (present : geoip[index.toNat]? = some record) (read : geoip.read index = .ok record)
    (notAbove : ¬record.startIp > ip) (notBelow : ¬record.endIp < ip)
    (within : currentIterations ≤ geoipMaxIteration) :
    ∃ found, findGeoipFrom geoip ip delimiter index currentIterations = .ok found ∧
      Finds geoip ip found := by
  have finds : Finds geoip ip ⟨index, currentIterations, false⟩ :=
    ⟨within, rfl, record, present, UInt32.not_lt.mp notAbove, UInt32.not_lt.mp notBelow⟩
  refine ⟨_, ?_, finds⟩
  rw [findGeoipFrom, read, ok_bind, if_neg (not_or.mpr ⟨notAbove, notBelow⟩)]
  rfl

theorem findGeoipFrom_finds (contiguous : Contiguous geoip) (ip : UInt32) (rounds : Nat)
    (delimiter : UInt64) (index : UInt32) (currentIterations : Nat)
    (inTime : currentIterations + rounds = geoipMaxIteration)
    (doubled : delimiter.toNat = 2 ^ (currentIterations + 1))
    (searching : Searching (told geoip ip) geoipFileLines (geoipFileLines / delimiter.toNat)
      index.toNat rounds) :
    ∃ found, findGeoipFrom geoip ip delimiter index currentIterations = .ok found ∧
      Finds geoip ip found := by
  have guided := contiguous.guided ip
  have lines : geoipFileLines = 2912124 := rfl
  have limit : geoipMaxIteration = 50 := rfl
  -- `delimiter` doubles from round to round, so the reach is half of the one before.
  induction rounds generalizing delimiter index currentIterations with
  | zero =>
      have inside : index.toNat < geoip.size := by
        rw [contiguous.lines]
        exact searching.inside
      obtain ⟨record, present, read⟩ := Table.read_inside inside
      have answer := told_eq present ip
      split_ifs at answer with above below
      · exact absurd (searching.left guided answer).2.2 (Nat.lt_irrefl 0)
      · exact absurd (searching.right guided answer).2 (Nat.lt_irrefl 0)
      · exact findGeoipFrom_here present read above below inTime.le
  | succ rounds ih =>
      have inside : index.toNat < geoip.size := by
        rw [contiguous.lines]
        exact searching.inside
      obtain ⟨record, present, read⟩ := Table.read_inside inside
      have answer := told_eq present ip
      have goesOn : ¬currentIterations + 1 > geoipMaxIteration := by omega
      have power : (2 : Nat) ^ (currentIterations + 1) ≤ 2 ^ 51 :=
        Nat.pow_le_pow_right (by decide) (by omega)
      have twice : (delimiter * 2).toNat = delimiter.toNat * 2 := by
        rw [UInt64.toNat_mul]
        simp only [UInt64.reduceToNat]
        omega
      have doubled' : (delimiter * 2).toNat = 2 ^ (currentIterations + 1 + 1) := by
        rw [twice, doubled, ← Nat.pow_succ]
      have half : geoipFileLines / delimiter.toNat / 2 = geoipFileLines / (delimiter * 2).toNat := by
        rw [twice, Nat.div_div_eq_div_mul]
      split_ifs at answer with above below
      · obtain ⟨searching', fits, _⟩ := searching.left guided answer
        rw [← stepDown_toNat half fits, half, Nat.add_sub_cancel] at searching'
        obtain ⟨found, completed, finds⟩ :=
          ih (delimiter * 2) _ (currentIterations + 1) (by omega) doubled' searching'
        refine ⟨found, ?_, finds⟩
        rw [findGeoipFrom, read, ok_bind, if_pos (.inl above), if_neg goesOn]
        simpa only [if_pos above] using completed
      · obtain ⟨searching', _⟩ := searching.right guided answer
        have short := searching'.inside
        rw [← stepUp_toNat half (by omega), half, Nat.add_sub_cancel] at searching'
        obtain ⟨found, completed, finds⟩ :=
          ih (delimiter * 2) _ (currentIterations + 1) (by omega) doubled' searching'
        refine ⟨found, ?_, finds⟩
        rw [findGeoipFrom, read, ok_bind, if_pos (.inr below), if_neg goesOn]
        simpa only [if_neg above] using completed
      · exact findGeoipFrom_here present read above below (by omega)

theorem Contiguous.finds [DecidableEq Degrees] (contiguous : Contiguous geoip) (ip : UInt32) :
    ∃ found, findGeoip geoip ip = .ok found ∧ Finds geoip ip found := by
  have lines : geoipFileLines = 2912124 := rfl
  have inside : ∀ index : UInt32, index.toNat < geoipFileLines → index.toNat < geoip.size := by
    intro index inside
    rw [contiguous.lines]
    exact inside
  obtain ⟨first, atFirst, readFirst⟩ := Table.read_inside (inside 0 (by decide))
  obtain ⟨last, atLast, readLast⟩ :=
    Table.read_inside (inside (UInt32.ofNat (geoipFileLines - 1)) (by decide))
  have rounds : 2 * Nat.log 2 geoipFileLines ≤ geoipMaxIteration := by
    have small : Nat.log 2 geoipFileLines < 22 := Nat.log_lt_of_lt_pow (by decide) (by decide)
    have limit : geoipMaxIteration = 50 := rfl
    omega
  have middle : (strideOf 2).toNat = geoipFileLines / 2 := strideOf_toNat 2
  have start : Searching (told geoip ip) geoipFileLines (geoipFileLines / (2 : UInt64).toNat)
      (strideOf 2).toNat geoipMaxIteration := by
    rw [middle]
    exact (Searching.start (by decide)).mono rounds
  obtain ⟨found, completed, finds⟩ :=
    findGeoipFrom_finds contiguous ip geoipMaxIteration 2 (strideOf 2) 0 (Nat.zero_add _) rfl start
  refine ⟨found, ?_, finds⟩
  rw [findGeoip, readFirst, ok_bind, if_neg (contiguous.firstEnd first atFirst), readLast, ok_bind,
    if_neg (contiguous.loaded last atLast), completed]

/-- In every table that is fully loaded, the search finds the record of every address. -/
theorem findGeoip_finds [DecidableEq Degrees] (contiguous : Contiguous geoip) (ip : UInt32) :
    ∃ found, findGeoip geoip ip = .ok found ∧ Finds geoip ip found :=
  contiguous.finds ip

def pairRecord (index : Nat) : Geoip Nat where
  startIp := UInt32.ofNat (2 * index)
  endIp := if index = geoipFileLines - 1 then 4294967295 else UInt32.ofNat (2 * index + 1)
  lat := 0
  lon := 0

def pairTable : Table Nat := Array.ofFn fun index : Fin geoipFileLines => pairRecord index

theorem pairTable_get {index : Nat} {record : Geoip Nat} (present : pairTable[index]? = some record) :
    index < geoipFileLines ∧ record = pairRecord index := by
  rw [pairTable, Array.getElem?_ofFn] at present
  by_cases inside : index < geoipFileLines
  · rw [dif_pos inside] at present
    exact ⟨inside, (Option.some.inj present).symm⟩
  · rw [dif_neg inside] at present
    cases present

theorem pairTable_contiguous : Contiguous pairTable where
  lines := Array.size_ofFn
  firstStart := by
    intro record present
    rw [(pairTable_get present).2]
    rfl
  firstEnd := by
    intro record present
    rw [(pairTable_get present).2]
    decide
  next := by
    intro index record record' present present'
    obtain ⟨further, isNext⟩ := pairTable_get present'
    have notLast : index ≠ geoipFileLines - 1 := by omega
    rw [isNext, (pairTable_get present).2, pairRecord, pairRecord, if_neg notLast]
    exact UInt32.ofNat_add (2 * index + 1) 1
  lastEnd := by
    intro record present
    rw [(pairTable_get present).2, pairRecord, if_pos rfl]
  loaded := by
    intro record present
    rw [(pairTable_get present).2]
    decide

theorem findGeoip_finds_pair :
    ∃ found, findGeoip pairTable 1570630176 = .ok found ∧ Finds pairTable 1570630176 found :=
  findGeoip_finds pairTable_contiguous 1570630176

end Etracker.Locations
