import Etracker.Foundation.Numerals
import Etracker.Locations.Rows
import Etracker.Locations.Search

/-! The table while another thread loads it.

`loadGeoipHandler` runs in a thread of its own, and nothing keeps the workers from searching the
table before it is done. -/

namespace Etracker.Locations

open Foundation.CString Foundation.Halving Foundation.Latest Foundation.Outcome

section Ready

variable {Degrees : Type} [OfNat Degrees 1000] {geoip : Table Degrees}

/-- A table that can be searched: nothing is loaded, the last record is not, or all are. -/
inductive Ready (geoip : Table Degrees) : Prop
  | unloaded {first : Geoip Degrees} : geoip[0]? = some first → first.endIp = 0 → Ready geoip
  | loading {last : Geoip Degrees} : geoip[geoipFileLines - 1]? = some last →
      last.lat = geoipNotLoading → Ready geoip
  | loaded : Contiguous geoip → Ready geoip

omit [OfNat Degrees 1000] in
theorem Table.read_eq {index : UInt32} {record : Geoip Degrees}
    (present : geoip[index.toNat]? = some record) : geoip.read index = .ok record := by
  rw [Table.read, present]
  rfl

theorem Contiguous.searched [DecidableEq Degrees] (contiguous : Contiguous geoip) (ip : UInt32) :
    ∃ found record, findGeoip geoip ip = .ok found ∧ geoip[found.index.toNat]? = some record ∧
      record.startIp ≤ ip ∧ ip ≤ record.endIp := by
  obtain ⟨found, completed, finds⟩ := contiguous.finds ip
  obtain ⟨record, present, starts, ends⟩ := finds.contains
  exact ⟨found, record, completed, present, starts, ends⟩

theorem Ready.finds [DecidableEq Degrees] (ready : Ready geoip) (ip : UInt32) :
    ∃ found record, findGeoip geoip ip = .ok found ∧ geoip[found.index.toNat]? = some record ∧
      (found = ⟨0, 0, false⟩ ∨ Contiguous geoip ∧ record.startIp ≤ ip ∧ ip ≤ record.endIp) := by
  cases ready with
  | @unloaded first present nothing =>
      refine ⟨⟨0, 0, false⟩, first, ?_, present, .inl rfl⟩
      rw [findGeoip, Table.read_eq present, ok_bind, if_pos nothing]
      rfl
  | @loading last present unfinished =>
      have inside := (Array.getElem?_eq_some_iff.mp present).1
      obtain ⟨first, present', read⟩ :=
        Table.read_inside (show (0 : UInt32).toNat < geoip.size from Nat.zero_lt_of_lt inside)
      have read' : geoip.read (UInt32.ofNat (geoipFileLines - 1)) = .ok last :=
        Table.read_eq present
      refine ⟨⟨0, 0, false⟩, first, ?_, present', .inl rfl⟩
      rw [findGeoip, read, ok_bind, read', ok_bind]
      split_ifs
      · rfl
      · rfl
  | loaded contiguous =>
      obtain ⟨found, record, completed, present, contains⟩ := contiguous.searched ip
      exact ⟨found, record, completed, present, .inr ⟨contiguous, contains⟩⟩

end Ready

section Seen

variable {Degrees : Type} {atof : List UInt8 → Degrees}

/-- The tables that other threads can come across while lines are loaded: each cell is stored
by itself. -/
inductive Seen (atof : List UInt8 → Degrees) (seen : Table Degrees) :
    List (List UInt8) → UInt32 → Table Degrees → UInt32 → Prop
  | inLine {line : List UInt8} {rest : List (List UInt8)} {lineNumber startIp startIp' : UInt32}
      {geoip : Table Degrees} {front back : List (List UInt8)} : cells line = front ++ back →
      loadCells atof lineNumber front 0 geoip startIp = .ok (seen, startIp') →
      Seen atof seen (line :: rest) lineNumber geoip startIp
  | later {line : List UInt8} {rest : List (List UInt8)} {lineNumber startIp startIp' : UInt32}
      {geoip geoip' : Table Degrees} :
      loadCells atof lineNumber (cells line) 0 geoip startIp = .ok (geoip', startIp') →
      Seen atof seen rest (lineNumber + 1) geoip' startIp' →
      Seen atof seen (line :: rest) lineNumber geoip startIp

theorem loadCells_append (lineNumber : UInt32) (front back : List (List UInt8)) (number : Nat)
    (geoip : Table Degrees) (startIp : UInt32) :
    loadCells atof lineNumber (front ++ back) (UInt8.ofNat number) geoip startIp =
      loadCells atof lineNumber front (UInt8.ofNat number) geoip startIp >>= fun loaded =>
        loadCells atof lineNumber back (UInt8.ofNat (number + front.length)) loaded.1 loaded.2 := by
  induction front generalizing number geoip startIp with
  | nil => rfl
  | cons cell rest ih =>
      have next : UInt8.ofNat number + 1 = UInt8.ofNat (number + 1) :=
        (UInt8.ofNat_add number 1).symm
      have count : number + (rest.length + 1) = number + 1 + rest.length := by omega
      rw [List.cons_append, loadCells, loadCells, next, List.length_cons, count]
      cases loadCell atof lineNumber geoip startIp (UInt8.ofNat (number + 1)) cell with
      | error fault => rfl
      | ok stored => exact ih (number + 1) stored.1 stored.2

theorem cellTexts_missed {lineNumber index : UInt32} {number : Nat} {cells : List (List UInt8)}
    {wanted : UInt8} (missed : ∀ place, place < cells.length →
      UInt8.ofNat (number + place) ≠ wanted) :
    cellTexts lineNumber index number cells wanted = none := by
  refine latest_eq_none_iff.mpr ?_
  intro place cell present
  have inside := (List.getElem?_eq_some_iff.mp present).1
  exact if_neg fun given => missed place inside given.2

theorem loadCells_apart {lineNumber index : UInt32} (apart : lineNumber ≠ index)
    {cells : List (List UInt8)} {geoip geoip' : Table Degrees} {startIp startIp' : UInt32}
    (loaded : loadCells atof lineNumber cells 0 geoip startIp = .ok (geoip', startIp')) :
    geoip'[index.toNat]? = geoip[index.toNat]? := by
  have stored := @loadCells_stores _ atof _ index _ _ _ _ _ 0 loaded
  have nothing : cellTexts lineNumber index (0 + 1) cells = fun _ => none :=
    funext (cellTexts_apart apart cells)
  rw [stored, nothing]
  simp only [Geoip.store_none, Option.map_id']

def Geoip.sought (record : Geoip Degrees) : UInt32 × UInt32 × Degrees :=
  (record.startIp, record.endIp, record.lat)

def lastRecord : UInt32 := UInt32.ofNat (geoipFileLines - 1)

structure Nearly (seen final : Table Degrees) : Prop where
  sought : ∀ index : UInt32,
    seen[index.toNat]?.map Geoip.sought = final[index.toNat]?.map Geoip.sought
  others : ∀ index : UInt32, index ≠ lastRecord → seen[index.toNat]? = final[index.toNat]?

theorem Geoip.sought_store {texts : UInt8 → Option (List UInt8)}
    (starts : texts geoipPositionStartIpGeoip = none) (ends : texts geoipPositionEndIpGeoip = none)
    (lat : texts geoipPositionLatGeoip = none) (record : Geoip Degrees) :
    (record.store atof texts).sought = record.sought := by
  simp [Geoip.sought, Geoip.store, starts, ends, lat]

/-- The cells of the last line are stored in order: as long as its latitude is missing the
record keeps the old one, and behind it only the longitude is missing. -/
theorem lastLine_seen {lineNumber : UInt32} (isLast : lineNumber = lastRecord)
    {front back : List (List UInt8)} (few : (front ++ back).length ≤ 256)
    {geoip seen final : Table Degrees} {startIp startIp' startIp'' : UInt32}
    (stored : loadCells atof lineNumber front 0 geoip startIp = .ok (seen, startIp'))
    (loaded : loadCells atof lineNumber (front ++ back) 0 geoip startIp =
      .ok (final, startIp'')) :
    seen[lastRecord.toNat]?.map Geoip.lat = geoip[lastRecord.toNat]?.map Geoip.lat ∨
      Nearly seen final := by
  rw [List.length_append] at few
  by_cases early : front.length < 7
  · left
    have missed : cellTexts lineNumber lastRecord (0 + 1) front geoipPositionLatGeoip = none := by
      apply cellTexts_missed
      intro place inside same
      have sum := (position_iff (0 + 1 + place)).mp same
      have lat : geoipPositionLatGeoip.toNat = 7 := rfl
      omega
    have lats : ∀ record : Geoip Degrees,
        (record.store atof (cellTexts lineNumber lastRecord (0 + 1) front)).lat = record.lat := by
      intro record
      simp [Geoip.store, missed]
    rw [@loadCells_stores _ atof _ lastRecord _ _ _ _ _ 0 stored, Option.map_map]
    congr 1
    funext record
    exact lats record
  · right
    have whole := (loadCells_append lineNumber front back 0 geoip startIp).symm.trans loaded
    obtain ⟨⟨middle, startIp'''⟩, first, behind⟩ := bind_eq_ok whole
    rw [show UInt8.ofNat 0 = 0 from rfl, stored] at first
    cases first
    rw [Nat.zero_add] at behind
    have missed : ∀ index wanted, wanted = 1 ∨ wanted = 2 ∨ wanted = 7 →
        cellTexts lineNumber index (front.length + 1) back wanted = none := by
      intro index wanted given
      apply cellTexts_missed
      intro place inside same
      have sum := (position_iff (front.length + 1 + place)).mp same
      rcases given with rfl | rfl | rfl
      · rw [show (1 : UInt8).toNat = 1 from rfl] at sum
        omega
      · rw [show (2 : UInt8).toNat = 2 from rfl] at sum
        omega
      · rw [show (7 : UInt8).toNat = 7 from rfl] at sum
        omega
    constructor
    · intro index
      rw [@loadCells_stores _ atof _ index _ _ _ _ _ front.length behind, Option.map_map]
      congr 1
      funext record
      exact (Geoip.sought_store (missed index _ (.inl rfl)) (missed index _ (.inr (.inl rfl)))
        (missed index _ (.inr (.inr rfl))) record).symm
    · intro index other
      have stored' := @loadCells_stores _ atof _ index _ _ _ _ _ front.length behind
      have nothing : cellTexts lineNumber index (front.length + 1) back = fun _ => none := by
        funext wanted
        refine latest_eq_none_iff.mpr ?_
        intro place cell _
        exact if_neg fun given => other (given.1.symm.trans isLast)
      rw [stored', nothing]
      simp only [Geoip.store_none, Option.map_id']

/-- While the lines of a full file are loaded, the last latitude is the one from before, or all
is there but the last longitude. -/
theorem Seen.late {seen : Table Degrees} {lines : List (List UInt8)} {number : Nat}
    {geoip final : Table Degrees} {startIp : UInt32}
    (during : Seen atof seen lines (UInt32.ofNat number) geoip startIp)
    (loaded : loadLines atof lines (UInt32.ofNat number) geoip startIp = .ok final)
    (count : number + lines.length = geoipFileLines)
    (few : ∀ line ∈ lines, (cells line).length ≤ 256) :
    seen[lastRecord.toNat]?.map Geoip.lat = geoip[lastRecord.toNat]?.map Geoip.lat ∨
      Nearly seen final := by
  induction lines generalizing number geoip startIp with
  | nil => cases during
  | cons line rest ih =>
      have lines : geoipFileLines = 2912124 := rfl
      rw [List.length_cons] at count
      rw [loadLines] at loaded
      obtain ⟨⟨geoip', startIp'⟩, here, behind⟩ := bind_eq_ok loaded
      have apart : rest ≠ [] → UInt32.ofNat number ≠ lastRecord := by
        intro more same
        have positive := List.length_pos_of_ne_nil more
        have equal := congrArg UInt32.toNat same
        rw [lastRecord, UInt32.toNat_ofNat', UInt32.toNat_ofNat'] at equal
        omega
      cases during with
      | @inLine _ _ _ _ startIp'' _ front back split stored =>
          by_cases last : rest = []
          · subst last
            have isLast : UInt32.ofNat number = lastRecord := by
              rw [lastRecord, show number = geoipFileLines - 1 by
                rw [List.length_nil] at count
                omega]
            cases behind
            rw [split] at here
            have few' := few line List.mem_cons_self
            rw [split] at few'
            exact lastLine_seen isLast few' stored here
          · left
            rw [loadCells_apart (apart last) stored]
      | later here' during' =>
          cases here.symm.trans here'
          have next : UInt32.ofNat number + 1 = UInt32.ofNat (number + 1) :=
            (UInt32.ofNat_add number 1).symm
          rw [next] at during' behind
          by_cases last : rest = []
          · subst last
            cases during'
          · rw [← loadCells_apart (apart last) here]
            exact ih during' behind (by omega) fun other member =>
              few other (List.mem_cons_of_mem _ member)

end Seen

section Complete

variable {Degrees : Type}

namespace Row

def startIp (row : Row) : UInt32 := UInt32.ofInt (atoi (row.text geoipPositionStartIpGeoip))

def endIp (row : Row) : UInt32 := UInt32.ofInt (atoi (row.text geoipPositionEndIpGeoip))

def record (atof : List UInt8 → Degrees) (row : Row) : Geoip Degrees where
  startIp := row.startIp
  endIp := row.endIp
  lat := atof (row.text geoipPositionLatGeoip)
  lon := atof (row.text geoipPositionLonGeoip)

end Row

/-- The rows of a full file: one for each record of the table, each with the addresses behind
the row before, and together with all addresses. -/
structure Complete [OfNat Degrees 1000] (atof : List UInt8 → Degrees) (rows : List Row) :
    Prop where
  lines : rows.length = geoipFileLines
  unshifted : ∀ row ∈ rows, row.Unshifted
  alike : ∀ row ∈ rows, ReadAlike atof (row.text geoipPositionLatGeoip) ∧
    ReadAlike atof (row.text geoipPositionLonGeoip)
  ordered : ∀ row ∈ rows, row.startIp ≤ row.endIp
  firstStart : ∀ row, rows[0]? = some row → row.startIp = 0
  firstEnd : ∀ row, rows[0]? = some row → row.endIp ≠ 0
  next : ∀ index row row', rows[index]? = some row → rows[index + 1]? = some row' →
    row.endIp < row'.startIp ∧ row'.startIp = row.endIp + 1
  lastEnd : ∀ row, rows[geoipFileLines - 1]? = some row → row.endIp = 4294967295
  located : ∀ row, rows[geoipFileLines - 1]? = some row →
    atof (row.text geoipPositionLatGeoip) ≠ geoipNotLoading

theorem startIps_behind {cells : List (List UInt8)} {number : Nat} (behind : 1 ≤ number)
    (few : number + cells.length ≤ 256) : startIps cells (UInt8.ofNat number) = [] := by
  induction cells generalizing number with
  | nil => rfl
  | cons cell rest ih =>
      rw [List.length_cons] at few
      have next : UInt8.ofNat number + 1 = UInt8.ofNat (number + 1) :=
        (UInt8.ofNat_add number 1).symm
      have other : UInt8.ofNat (number + 1) ≠ geoipPositionStartIpGeoip := by
        intro same
        have sum := (position_iff (number + 1)).mp same
        rw [show geoipPositionStartIpGeoip.toNat = 1 from rfl] at sum
        omega
      rw [startIps, next, if_neg other]
      exact ih (by omega) (by omega)

theorem Row.Unshifted.few_cells {row : Row} (unshifted : row.Unshifted) :
    (cells row.line).length ≤ 256 := by
  rw [← map_cellsAt, List.length_map, row.cells_length]
  exact unshifted.few

theorem Row.Unshifted.lineStartIps {row : Row} (unshifted : row.Unshifted) :
    lineStartIps row.line = [row.startIp] := by
  have comma : EndsNumber 44 := ⟨by decide, by decide, by decide⟩
  have few := unshifted.few_cells
  have stored : geoipPositionStartIpGeoip ∈ positions := by decide
  obtain ⟨text, found⟩ := Row.taken_iff.mpr unshifted _ stored
  have isText := Row.taken_text stored found
  have few' : (cellsAt row.line).length ≤ 256 := row.cells_length ▸ unshifted.few
  rw [taken_eq_get few' (by decide)] at found
  have first : (cells row.line)[0]? = some text := by
    rw [← map_cellsAt, List.getElem?_map, show (cellsAt row.line)[0]? = _ from found]
    rfl
  cases areCells : cells row.line with
  | nil =>
      rw [areCells] at first
      cases first
  | cons cell rest =>
      rw [areCells] at first few
      cases first
      have behind : startIps rest (UInt8.ofNat 1) = [] :=
        startIps_behind (Nat.le_refl 1) (by rw [List.length_cons] at few; omega)
      have value : UInt32.ofInt (atoi text) = row.startIp := by
        rw [isText, atoi_takeWhile comma]
        rfl
      have position : (0 : UInt8) + 1 = geoipPositionStartIpGeoip := rfl
      rw [Locations.lineStartIps, areCells, startIps, if_pos position, value]
      exact congrArg (row.startIp :: ·) behind

theorem loadLines_ascending (atof : List UInt8 → Degrees) {lines : List (List UInt8)}
    {number : Nat} {geoip : Table Degrees} {startIp : UInt32} (size : geoip.size = geoipFileLines)
    (count : number + lines.length ≤ geoipFileLines)
    (inOrder : Ascending (startIp :: lines.flatMap lineStartIps)) :
    ∃ geoip', loadLines atof lines (UInt32.ofNat number) geoip startIp = .ok geoip' := by
  induction lines generalizing number geoip startIp with
  | nil => exact ⟨geoip, rfl⟩
  | cons line rest ih =>
      have many : geoipFileLines = 2912124 := rfl
      rw [List.length_cons] at count
      rw [List.flatMap_cons] at inOrder
      have inside : (UInt32.ofNat number).toNat < geoip.size := by
        rw [UInt32.toNat_ofNat', size]
        omega
      rcases loadCells_inside atof (cells line) inside startIp 0 with
        ⟨inOrder', geoip', size', stored⟩ | ⟨outOfOrder, _⟩
      · have next : UInt32.ofNat number + 1 = UInt32.ofNat (number + 1) :=
          (UInt32.ofNat_add number 1).symm
        rw [loadLines, stored, ok_bind, next]
        exact ih (size'.trans size) (by omega) ((ascending_append _ inOrder').mp inOrder)
      · exact absurd (ascending_of_append inOrder) outOfOrder

theorem row_stored {atof : List UInt8 → Degrees} {geoip geoip' : Table Degrees}
    {content : List UInt8} (loaded : loadGeoipHandler atof geoip (some content) = .ok geoip')
    {number : Nat} {row : Row} (present : (getLines content)[number]? = some row.line)
    (unshifted : row.Unshifted) (alike : ReadAlike atof (row.text geoipPositionLatGeoip) ∧
      ReadAlike atof (row.text geoipPositionLonGeoip)) (kept : Kept (getLines content) number) :
    geoip'[(UInt32.ofNat number).toNat]? = some (row.record atof) := by
  have places := (origin_iff present).mpr ⟨Row.taken_iff.mpr unshifted, kept⟩
  rw [stored_record loaded present places, Row.record]
  exact congrArg some (congrArg₂ (Geoip.mk _ _) alike.1 alike.2)

section File

variable [Zero Degrees] [OfNat Degrees 1000] {atof : List UInt8 → Degrees} {rows : List Row}
  {content : List UInt8}

omit [Zero Degrees] in
theorem Complete.ascending (complete : Complete atof rows) :
    Ascending (rows.map Row.startIp) := by
  refine List.isChain_iff_getElem.mpr ?_
  intro index inside
  rw [List.length_map] at inside
  have present : rows[index]? = some rows[index] := List.getElem?_eq_getElem (by omega)
  have present' : rows[index + 1]? = some rows[index + 1] := List.getElem?_eq_getElem inside
  rw [List.getElem_map, List.getElem_map]
  calc rows[index].startIp
      ≤ rows[index].endIp := complete.ordered _ (List.mem_of_getElem? present)
    _ ≤ rows[index + 1].startIp := UInt32.le_of_lt (complete.next index _ _ present present').1

theorem loadGeoipHandler_complete (complete : Complete atof rows)
    (isFile : getLines content = rows.map Row.line) :
    ∃ geoip', loadGeoipHandler atof (initGeoip false) (some content) = .ok geoip' ∧
      ∀ index : Nat, geoip'[index]? = rows[index]?.map (Row.record atof) := by
  have many : geoipFileLines = 2912124 := rfl
  have starts : (getLines content).flatMap lineStartIps = rows.map Row.startIp := by
    rw [isFile, List.flatMap_map, List.map_eq_flatMap]
    exact List.flatMap_congr fun row member => (complete.unshifted row member).lineStartIps
  obtain ⟨geoip', loaded⟩ := @loadLines_ascending _ atof (getLines content) 0 (initGeoip false) 0
    initGeoip_size (by rw [isFile, List.length_map, complete.lines, Nat.zero_add])
    (by rw [starts]; exact ascending_zero.mpr complete.ascending)
  refine ⟨geoip', loaded, ?_⟩
  have inFile : ∀ number : Nat, (getLines content)[number]? = rows[number]?.map Row.line := by
    intro number
    rw [isFile, List.getElem?_map]
  have size : geoip'.size = geoipFileLines := by
    have inside := (loadLines_inside_iff atof (getLines content) 0 initGeoip_size 0).mpr ?_
    · rcases inside with ⟨geoip'', loaded', size⟩ | left
      · cases loaded.symm.trans loaded'
        exact size
      · cases loaded.symm.trans left
    · intro number line present _ many'
      have below := (List.getElem?_eq_some_iff.mp present).1
      rw [isFile, List.length_map, complete.lines] at below
      rw [UInt32.zero_add, UInt32.toNat_ofNat'] at many'
      omega
  intro index
  cases present : rows[index]? with
  | none =>
      have behind := List.getElem?_eq_none_iff.mp present
      rw [complete.lines, ← size] at behind
      exact Array.getElem?_eq_none_iff.mpr behind
  | some row =>
      have below := (List.getElem?_eq_some_iff.mp present).1
      rw [complete.lines] at below
      have member := List.mem_of_getElem? present
      have values := row_stored loaded (by rw [inFile, present]; rfl)
        (complete.unshifted row member) (complete.alike row member) ?_
      · have number : (UInt32.ofNat index).toNat = index := by
          rw [UInt32.toNat_ofNat']
          omega
        rw [number] at values
        exact values
      · intro later line behind present' again
        have below' := (List.getElem?_eq_some_iff.mp present').1
        rw [isFile, List.length_map, complete.lines] at below'
        omega

omit [Zero Degrees] in
theorem Complete.contiguous (complete : Complete atof rows) {geoip : Table Degrees}
    (stored : ∀ index : Nat, geoip[index]? = rows[index]?.map (Row.record atof)) :
    Contiguous geoip := by
  have rowOf : ∀ {index : Nat} {record : Geoip Degrees}, geoip[index]? = some record →
      ∃ row, rows[index]? = some row ∧ row.record atof = record := by
    intro index record present
    rw [stored] at present
    exact Option.map_eq_some_iff.mp present
  have lines : geoip.size = rows.length := by
    apply Nat.le_antisymm
    · apply Nat.le_of_not_lt
      intro more
      have inside := Array.getElem?_eq_getElem more
      obtain ⟨row, present, _⟩ := rowOf inside
      exact absurd (List.getElem?_eq_some_iff.mp present).1 (Nat.lt_irrefl _)
    · apply Nat.le_of_not_lt
      intro more
      have inside := stored geoip.size
      rw [Array.getElem?_eq_none (Nat.le_refl _), List.getElem?_eq_getElem more] at inside
      cases inside
  constructor
  · exact lines.trans complete.lines
  · intro record present
    obtain ⟨row, present', rfl⟩ := rowOf present
    exact complete.firstStart row present'
  · intro record present
    obtain ⟨row, present', rfl⟩ := rowOf present
    exact complete.firstEnd row present'
  · intro index record record' present present'
    obtain ⟨row, inRows, rfl⟩ := rowOf present
    obtain ⟨row', inRows', rfl⟩ := rowOf present'
    exact (complete.next index row row' inRows inRows').2
  · intro record present
    obtain ⟨row, present', rfl⟩ := rowOf present
    exact complete.lastEnd row present'
  · intro record present
    obtain ⟨row, present', rfl⟩ := rowOf present
    exact complete.located row present'

omit [Zero Degrees] in
theorem Nearly.contiguous {seen final : Table Degrees} (nearly : Nearly seen final)
    (contiguous : Contiguous final) : Contiguous seen := by
  have many : geoipFileLines = 2912124 := rfl
  have small : ∀ {index : Nat}, index ≤ geoipFileLines → (UInt32.ofNat index).toNat = index := by
    intro index below
    rw [UInt32.toNat_ofNat']
    omega
  have sought : ∀ index, index ≤ geoipFileLines →
      seen[index]?.map Geoip.sought = final[index]?.map Geoip.sought := by
    intro index below
    have same := nearly.sought (UInt32.ofNat index)
    rw [small below] at same
    exact same
  -- In both tables the last record is there, and none behind it.
  have size : seen.size = geoipFileLines := by
    have behind := sought geoipFileLines (Nat.le_refl _)
    have last := sought (geoipFileLines - 1) (Nat.sub_le _ _)
    rw [Array.getElem?_eq_none (Nat.le_of_eq contiguous.lines), Option.map_none,
      Option.map_eq_none_iff, Array.getElem?_eq_none_iff] at behind
    have inside : geoipFileLines - 1 < final.size := by
      rw [contiguous.lines]
      omega
    rw [Array.getElem?_eq_getElem inside, Option.map_some] at last
    obtain ⟨record, present, _⟩ := Option.map_eq_some_iff.mp last
    have below := (Array.getElem?_eq_some_iff.mp present).1
    omega
  have recordOf : ∀ {index : Nat} {record : Geoip Degrees}, seen[index]? = some record →
      ∃ record', final[index]? = some record' ∧ record'.sought = record.sought := by
    intro index record present
    have below := (Array.getElem?_eq_some_iff.mp present).1
    have same := sought index (by omega)
    rw [present, Option.map_some] at same
    exact Option.map_eq_some_iff.mp same.symm
  have starts : ∀ {record record' : Geoip Degrees}, record'.sought = record.sought →
      record.startIp = record'.startIp := fun same => (congrArg (·.1) same).symm
  have ends : ∀ {record record' : Geoip Degrees}, record'.sought = record.sought →
      record.endIp = record'.endIp := fun same => (congrArg (·.2.1) same).symm
  have lats : ∀ {record record' : Geoip Degrees}, record'.sought = record.sought →
      record.lat = record'.lat := fun same => (congrArg (·.2.2) same).symm
  constructor
  · exact size
  · intro record present
    obtain ⟨record', present', same⟩ := recordOf present
    rw [starts same]
    exact contiguous.firstStart record' present'
  · intro record present
    obtain ⟨record', present', same⟩ := recordOf present
    rw [ends same]
    exact contiguous.firstEnd record' present'
  · intro index record other present present'
    obtain ⟨record', inFinal, same⟩ := recordOf present
    obtain ⟨other', inFinal', same'⟩ := recordOf present'
    rw [starts same', ends same]
    exact contiguous.next index record' other' inFinal inFinal'
  · intro record present
    obtain ⟨record', present', same⟩ := recordOf present
    rw [ends same]
    exact contiguous.lastEnd record' present'
  · intro record present
    obtain ⟨record', present', same⟩ := recordOf present
    rw [lats same]
    exact contiguous.loaded record' present'

/-- Every table that comes up while a full file is loaded can be searched. -/
theorem Seen.ready (complete : Complete atof rows) (isFile : getLines content = rows.map Row.line)
    {final : Table Degrees}
    (loaded : loadGeoipHandler atof (initGeoip false) (some content) = .ok final)
    (stored : ∀ index : Nat, final[index]? = rows[index]?.map (Row.record atof))
    {seen : Table Degrees} (during : Seen atof seen (getLines content) 0 (initGeoip false) 0) :
    Ready seen ∧ (Contiguous seen → Nearly seen final) := by
  have count : 0 + (getLines content).length = geoipFileLines := by
    rw [isFile, List.length_map, complete.lines, Nat.zero_add]
  have few : ∀ line ∈ getLines content, (cells line).length ≤ 256 := by
    intro line member
    rw [isFile] at member
    obtain ⟨row, inRows, rfl⟩ := List.mem_map.mp member
    exact (complete.unshifted row inRows).few_cells
  rcases @Seen.late _ atof seen _ 0 _ _ _ during loaded count few with before | nearly
  · have last : lastRecord.toNat = geoipFileLines - 1 := by decide
    have unfinished : (initGeoip false : Table Degrees)[geoipFileLines - 1]?.map Geoip.lat =
        some geoipNotLoading := by
      have many : geoipFileLines - 1 < geoipFileLines := by decide
      rw [initGeoip, if_neg Bool.false_ne_true, if_neg Bool.false_ne_true,
        Array.getElem?_modify, if_pos rfl, Array.getElem?_replicate, if_pos many]
      rfl
    rw [last, unfinished] at before
    obtain ⟨record, present, lat⟩ := Option.map_eq_some_iff.mp before
    refine ⟨.loading present lat, ?_⟩
    intro contiguous
    exact absurd lat (contiguous.loaded record present)
  · exact ⟨.loaded (nearly.contiguous (complete.contiguous stored)), fun _ => nearly⟩

/-- After a full file is loaded, the row of every address is found, and its location. While it
is loaded, a search answers with the first record, or finds the row of the address with its
latitude, and with its longitude unless that is the last one. -/
theorem loadGeoipHandler_finds [DecidableEq Degrees] (complete : Complete atof rows)
    (isFile : getLines content = rows.map Row.line) :
    ∃ geoip', loadGeoipHandler atof (initGeoip false) (some content) = .ok geoip' ∧
      (∀ ip, ∃ found row, findGeoip geoip' ip = .ok found ∧
        rows[found.index.toNat]? = some row ∧ row.startIp ≤ ip ∧ ip ≤ row.endIp ∧
        geoip'[found.index.toNat]? = some (row.record atof)) ∧
      ∀ seen, Seen atof seen (getLines content) 0 (initGeoip false) 0 → ∀ ip,
        ∃ found record, findGeoip seen ip = .ok found ∧
          seen[found.index.toNat]? = some record ∧ (found = ⟨0, 0, false⟩ ∨
          ∃ row, rows[found.index.toNat]? = some row ∧ row.startIp ≤ ip ∧ ip ≤ row.endIp ∧
            record.lat = atof (row.text geoipPositionLatGeoip) ∧
            (found.index ≠ lastRecord → record = row.record atof)) := by
  obtain ⟨geoip', loaded, stored⟩ := loadGeoipHandler_complete complete isFile
  have contiguous := complete.contiguous stored
  refine ⟨geoip', loaded, ?_, ?_⟩
  · intro ip
    obtain ⟨found, record, completed, present, starts, ends⟩ := contiguous.searched ip
    rw [stored] at present
    obtain ⟨row, inRows, rfl⟩ := Option.map_eq_some_iff.mp present
    exact ⟨found, row, completed, inRows, starts, ends, by rw [stored, inRows]; rfl⟩
  · intro seen during ip
    obtain ⟨ready, late⟩ := Seen.ready complete isFile loaded stored during
    obtain ⟨found, record, completed, present, first | ⟨contiguous', starts, ends⟩⟩ :=
      ready.finds ip
    · exact ⟨found, record, completed, present, .inl first⟩
    · refine ⟨found, record, completed, present, .inr ?_⟩
      have nearly := late contiguous'
      have sought := nearly.sought found.index
      rw [present, stored, Option.map_some] at sought
      obtain ⟨final, inFinal, same⟩ := Option.map_eq_some_iff.mp sought.symm
      obtain ⟨row, inRows, rfl⟩ := Option.map_eq_some_iff.mp inFinal
      have isStart : row.startIp = record.startIp := congrArg (·.1) same
      have isEnd : row.endIp = record.endIp := congrArg (·.2.1) same
      refine ⟨row, inRows, isStart ▸ starts, isEnd ▸ ends, (congrArg (·.2.2) same).symm, ?_⟩
      intro notLast
      have whole := nearly.others found.index notLast
      rw [present, stored, inRows] at whole
      exact Option.some.inj whole

end File

end Complete

section Pairs

/-- A field that is one cell. -/
def Plain (field : List UInt8) : Prop := field ≠ [] ∧ ∀ letter ∈ field, letter ≠ 0 ∧ letter ≠ 44

theorem Plain.pieces {field : List UInt8} (plain : Plain field) : pieces field = 1 := by
  have whole : ∀ letter ∈ field, decide (letter = 44) = false := fun letter member =>
    decide_eq_false (plain.2 letter member).2
  rw [Locations.pieces, words_piece whole, if_neg plain.1]
  rfl

theorem Plain.zero {field : List UInt8} (plain : Plain field) : 0 ∉ field :=
  fun member => (plain.2 0 member).1 rfl

theorem piecesFrom_plain (ending : List UInt8) {fields : List (List UInt8)}
    (plain : ∀ field ∈ fields, Plain field) : piecesFrom ending fields ≤ fields.length + 1 := by
  induction fields with
  | nil => rw [piecesFrom]; split_ifs <;> simp
  | cons field rest ih =>
      have first := plain field List.mem_cons_self
      have others := ih fun other member => plain other (List.mem_cons_of_mem _ member)
      rw [piecesFrom, if_neg first.zero, first.pieces, List.length_cons]
      omega

theorem pieces_plain {fields : List (List UInt8)} (plain : ∀ field ∈ fields, Plain field) :
    (fields.map pieces).sum = fields.length := by
  induction fields with
  | nil => rfl
  | cons field rest ih =>
      have first := plain field List.mem_cons_self
      have others := ih fun other member => plain other (List.mem_cons_of_mem _ member)
      rw [List.map_cons, List.sum_cons, others, first.pieces, List.length_cons]
      omega

theorem Row.unshifted_of_plain {row : Row} (plain : ∀ field ∈ row.fields, Plain field)
    (few : row.fields.length ≤ 255) : row.Unshifted := by
  have enough := row.enough
  constructor
  · intro position stored
    have isField := plain _ (List.mem_of_getElem? (Row.field_eq stored))
    cases letters : row.field position with
    | nil => exact absurd letters isField.1
    | cons letter rest =>
        rw [letters] at isField
        have first := isField.2 letter List.mem_cons_self
        exact ⟨letter, rest, rfl, first.2, first.1⟩
  · intro field member
    exact (plain field (List.mem_of_mem_take member)).zero
  · intro position stored
    have bounded := positions_bounded position stored
    rw [pieces_plain fun field member => plain field (List.mem_of_mem_take member),
      List.length_take]
    omega
  · exact Nat.le_trans (piecesFrom_plain row.ending plain) (by omega)

theorem getLines_line {text : List UInt8} (whole : 10 ∉ text) (rest : List UInt8) :
    getLines (text ++ 10 :: rest) = (text ++ [10]) :: getLines rest := by
  induction text with
  | nil => rw [List.nil_append, getLines, if_pos rfl, List.nil_append]
  | cons letter more ih =>
      have other : letter ≠ 10 := fun same => whole (same ▸ List.mem_cons_self)
      rw [List.cons_append, getLines, if_neg other,
        ih fun member => whole (List.mem_cons_of_mem _ member)]
      rfl

def Figures (field : List UInt8) : Prop := field ≠ [] ∧ ∀ letter ∈ field, 45 ≤ letter ∧ letter ≤ 57

theorem Figures.not_mem {field : List UInt8} (figures : Figures field) {letter : UInt8}
    (below : letter < 45) : letter ∉ field :=
  fun member => absurd (figures.2 letter member).1 (UInt8.not_le.mpr below)

theorem Figures.plain {field : List UInt8} (figures : Figures field) : Plain field :=
  ⟨figures.1, fun _ member => ⟨fun zero => figures.not_mem (by decide) (zero ▸ member),
    fun comma => figures.not_mem (by decide) (comma ▸ member)⟩⟩

theorem figures_decimal {count number : Nat} (positive : count ≠ 0) (fits : number < 10 ^ count) :
    Figures (decimalDigits count number) := by
  have figures := (decimalDigits_isDecimal fits).1
  refine ⟨List.ne_nil_of_length_pos ?_, ?_⟩
  · rw [decimalDigits_length]
    exact Nat.pos_of_ne_zero positive
  · intro letter member
    have figure := figures letter member
    exact ⟨UInt8.le_trans (by decide) figure.1, figure.2⟩

def pairEnd (index : Nat) : Nat := if index = geoipFileLines - 1 then 4294967295 else 2 * index + 1

def pairFields (index : Nat) : List (List UInt8) :=
  [decimalDigits 10 (2 * index), decimalDigits 10 (pairEnd index), ascii "-", ascii "-", ascii "-",
    ascii "-", ascii "0", ascii "0"]

theorem pair_small {index : Nat} (inside : index < geoipFileLines) :
    2 * index < 2 ^ 32 ∧ pairEnd index < 2 ^ 32 := by
  have many : geoipFileLines = 2912124 := rfl
  rw [pairEnd]
  split_ifs <;> omega

theorem pairFields_figures {index : Nat} (inside : index < geoipFileLines) :
    ∀ field ∈ pairFields index, Figures field := by
  have small := pair_small inside
  have dash : Figures (ascii "-") := ⟨by decide, List.forall_mem_singleton.mpr (by decide)⟩
  have zero : Figures (ascii "0") := ⟨by decide, List.forall_mem_singleton.mpr (by decide)⟩
  intro field member
  simp only [pairFields, List.mem_cons, List.not_mem_nil, or_false] at member
  rcases member with rfl | rfl | rfl | rfl | rfl | rfl | rfl | rfl
  · exact figures_decimal (by decide) (by omega)
  · exact figures_decimal (by decide) (by omega)
  all_goals assumption

theorem pairFields_unquoted (index : Fin geoipFileLines) :
    ∀ field ∈ pairFields index, 34 ∉ field :=
  fun field member => (pairFields_figures index.isLt field member).not_mem (by decide)

theorem pairFields_enough (index : Fin geoipFileLines) : 8 ≤ (pairFields index).length :=
  Nat.le_refl _

theorem feed_ends : ([10] : List UInt8) = [] ∨ ([10] : List UInt8) = [10] ∨
    ([10] : List UInt8) = [13, 10] :=
  .inr (.inl rfl)

def pairRow (index : Fin geoipFileLines) : Row where
  fields := pairFields index
  ending := [10]
  enough := pairFields_enough index
  unquoted := pairFields_unquoted index
  ends := feed_ends

def pairRows : List Row := List.ofFn pairRow

theorem pairRows_get {index : Nat} {row : Row} (present : pairRows[index]? = some row) :
    ∃ inside : index < geoipFileLines, pairRow ⟨index, inside⟩ = row := by
  rw [pairRows, List.getElem?_ofFn] at present
  split_ifs at present with inside
  exact ⟨inside, Option.some.inj present⟩

theorem pairRow_startIp (index : Fin geoipFileLines) :
    (pairRow index).startIp = UInt32.ofNat (2 * index) := by
  have small := (pair_small index.isLt).1
  have figures : Figures (decimalDigits 10 (2 * index)) :=
    figures_decimal (by decide) (by omega)
  have text : (pairRow index).text geoipPositionStartIpGeoip = decimalDigits 10 (2 * index) :=
    cString_of_not_mem figures.plain.zero
  rw [Row.startIp, text]
  exact uint32_atoi_decimal (decimalDigits_isDecimal (by omega)) (by omega)

theorem pairRow_endIp (index : Fin geoipFileLines) :
    (pairRow index).endIp = UInt32.ofNat (pairEnd index) := by
  have small := (pair_small index.isLt).2
  have figures : Figures (decimalDigits 10 (pairEnd index)) :=
    figures_decimal (by decide) (by omega)
  have text : (pairRow index).text geoipPositionEndIpGeoip = decimalDigits 10 (pairEnd index) :=
    cString_of_not_mem figures.plain.zero
  rw [Row.endIp, text]
  exact uint32_atoi_decimal (decimalDigits_isDecimal (by omega)) (by omega)

theorem pairRows_complete : Complete atoi pairRows where
  lines := List.length_ofFn
  unshifted row member := by
    obtain ⟨index, rfl⟩ := List.mem_ofFn.mp member
    exact Row.unshifted_of_plain
      (fun field inRow => (pairFields_figures index.isLt field inRow).plain)
      (show 8 ≤ 255 by decide)
  alike row member := by
    obtain ⟨index, rfl⟩ := List.mem_ofFn.mp member
    exact ⟨rfl, rfl⟩
  ordered row member := by
    obtain ⟨index, rfl⟩ := List.mem_ofFn.mp member
    have small := pair_small index.isLt
    have inside := index.isLt
    have many : geoipFileLines = 2912124 := rfl
    rw [pairRow_startIp, pairRow_endIp, UInt32.le_iff_toNat_le, UInt32.toNat_ofNat',
      UInt32.toNat_ofNat', Nat.mod_eq_of_lt small.1, Nat.mod_eq_of_lt small.2, pairEnd]
    split_ifs <;> omega
  firstStart row present := by
    obtain ⟨inside, rfl⟩ := pairRows_get present
    rw [pairRow_startIp]
    rfl
  firstEnd row present := by
    obtain ⟨inside, rfl⟩ := pairRows_get present
    rw [pairRow_endIp]
    exact show UInt32.ofNat (pairEnd 0) ≠ 0 by decide
  next index row row' present present' := by
    obtain ⟨inside, rfl⟩ := pairRows_get present
    obtain ⟨inside', rfl⟩ := pairRows_get present'
    have notLast : index ≠ geoipFileLines - 1 := by omega
    have small := pair_small inside
    have small' := pair_small inside'
    rw [pairEnd, if_neg notLast] at small
    rw [pairRow_startIp, pairRow_endIp, pairEnd, if_neg notLast, UInt32.lt_iff_toNat_lt,
      UInt32.toNat_ofNat', UInt32.toNat_ofNat', Nat.mod_eq_of_lt small.2, Nat.mod_eq_of_lt small'.1]
    exact ⟨by omega, UInt32.ofNat_add (2 * index + 1) 1⟩
  lastEnd row present := by
    obtain ⟨inside, rfl⟩ := pairRows_get present
    rw [pairRow_endIp, pairEnd, if_pos rfl]
    rfl
  located row present := by
    obtain ⟨inside, rfl⟩ := pairRows_get present
    exact show atoi (cString (ascii "0")) ≠ (1000 : Int) by decide

def pairFile : List UInt8 := pairRows.flatMap Row.line

theorem not_mem_csvLine {letter : UInt8} (notComma : letter ≠ 44) (notQuote : letter ≠ 34)
    {fields : List (List UInt8)} (others : ∀ field ∈ fields, letter ∉ field) :
    letter ∉ csvLine fields [] := by
  induction fields with
  | nil => exact List.not_mem_nil
  | cons field rest ih =>
      have first := others field List.mem_cons_self
      by_cases last : rest = []
      · rw [last, csvLine_singleton]
        simp [notQuote, first]
      · have behind := ih fun other member => others other (List.mem_cons_of_mem _ member)
        rw [csvLine_cons field last]
        simp [notComma, notQuote, first, behind]

theorem pairRow_line (index : Fin geoipFileLines) :
    ∃ text, (pairRow index).line = text ++ [10] ∧ 10 ∉ text := by
  refine ⟨csvLine (pairFields index) [], ?_, not_mem_csvLine (by decide) (by decide) ?_⟩
  · rw [csvLine, List.append_nil]
    rfl
  · intro field member
    exact (pairFields_figures index.isLt field member).not_mem (by decide)

theorem pairFile_lines : getLines pairFile = pairRows.map Row.line := by
  have each : ∀ rows : List Row,
      (∀ row ∈ rows, ∃ text, row.line = text ++ [10] ∧ 10 ∉ text) →
      getLines (rows.flatMap Row.line) = rows.map Row.line := by
    intro rows ended
    induction rows with
    | nil => rfl
    | cons row rest ih =>
        obtain ⟨text, isLine, whole⟩ := ended row List.mem_cons_self
        rw [List.flatMap_cons, List.map_cons, isLine, List.append_assoc, List.singleton_append,
          getLines_line whole, ih fun other member => ended other (List.mem_cons_of_mem _ member)]
  refine each pairRows ?_
  intro row member
  obtain ⟨index, rfl⟩ := List.mem_ofFn.mp member
  exact pairRow_line index

theorem loadGeoipHandler_finds_pair :
    ∃ geoip', loadGeoipHandler atoi (initGeoip false) (some pairFile) = .ok geoip' ∧
      ∃ found row, findGeoip geoip' 1570630176 = .ok found ∧
        pairRows[found.index.toNat]? = some row ∧ row.startIp ≤ 1570630176 ∧
        1570630176 ≤ row.endIp ∧ geoip'[found.index.toNat]? = some (row.record atoi) := by
  obtain ⟨geoip', loaded, finds, _⟩ := loadGeoipHandler_finds pairRows_complete pairFile_lines
  exact ⟨geoip', loaded, finds 1570630176⟩

end Pairs

end Etracker.Locations
