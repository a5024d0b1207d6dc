import Etracker.Foundation.Words
import Etracker.Locations.Load

/-! Where the numbers of a record come from: the line of the file, and the byte in it that
`strtok` points to. -/

namespace Etracker.Locations

open Foundation.CString Foundation.Latest Foundation.Outcome

section Stored

variable {Degrees : Type} (atof : List UInt8 → Degrees)

def Geoip.store (record : Geoip Degrees) (texts : UInt8 → Option (List UInt8)) :
    Geoip Degrees where
  startIp := ((texts geoipPositionStartIpGeoip).map (UInt32.ofInt <| atoi ·)).getD record.startIp
  endIp := ((texts geoipPositionEndIpGeoip).map (UInt32.ofInt <| atoi ·)).getD record.endIp
  lat := ((texts geoipPositionLatGeoip).map atof).getD record.lat
  lon := ((texts geoipPositionLonGeoip).map atof).getD record.lon

@[simp] theorem Geoip.store_none (record : Geoip Degrees) :
    record.store atof (fun _ => none) = record := rfl

theorem Geoip.store_store (record : Geoip Degrees) (first second : UInt8 → Option (List UInt8)) :
    (record.store atof first).store atof second =
      record.store atof fun position => (second position).or (first position) := by
  have later : ∀ {Value : Type} (value : List UInt8 → Value) (old : Value) (position : UInt8),
      ((second position).map value).getD (((first position).map value).getD old) =
        (((second position).or (first position)).map value).getD old := by
    intro Value value old position
    cases second position <;> rfl
  simp only [Geoip.store, later]

variable {lineNumber index : UInt32} {geoip geoip' : Table Degrees} {startIp startIp' : UInt32}

theorem write_getElem? {change : Geoip Degrees → Geoip Degrees}
    (written : geoip.write lineNumber change = .ok geoip') :
    geoip'[index.toNat]? =
      geoip[index.toNat]?.map fun record => if lineNumber = index then change record else record := by
  rw [Table.write] at written
  split_ifs at written with inside
  · cases written
    rw [Array.getElem?_modify]
    by_cases same : lineNumber = index
    · rw [if_pos (congrArg UInt32.toNat same)]
      simp only [if_pos same]
    · have apart : lineNumber.toNat ≠ index.toNat := fun equal => same (UInt32.toNat_inj.mp equal)
      rw [if_neg apart]
      simp only [if_neg same, Option.map_id']

def cellText (lineNumber index : UInt32) (position : UInt8) (cell : List UInt8) (wanted : UInt8) :
    Option (List UInt8) :=
  if lineNumber = index ∧ position = wanted then some cell else none

theorem store_cellText (record : Geoip Degrees) (position : UInt8) (cell : List UInt8) :
    record.store atof (cellText index index position cell) =
      { startIp := if position = 1 then UInt32.ofInt (atoi cell) else record.startIp
        endIp := if position = 2 then UInt32.ofInt (atoi cell) else record.endIp
        lat := if position = 7 then atof cell else record.lat
        lon := if position = 8 then atof cell else record.lon } := by
  simp only [Geoip.store, cellText, true_and, geoipPositionStartIpGeoip, geoipPositionEndIpGeoip,
    geoipPositionLatGeoip, geoipPositionLonGeoip]
  split_ifs <;> rfl

theorem loadCell_writes {position : UInt8} {cell : List UInt8}
    (loaded : loadCell atof lineNumber geoip startIp position cell = .ok (geoip', startIp')) :
    geoip.write lineNumber (·.store atof (cellText lineNumber lineNumber position cell)) =
        .ok geoip' ∨
      geoip' = geoip ∧ ∀ record : Geoip Degrees,
        record.store atof (cellText lineNumber index position cell) = record := by
  have writes : ∀ {change : Geoip Degrees → Geoip Degrees} {written : Table Degrees},
      geoip.write lineNumber change = .ok written →
      (∀ record, record.store atof (cellText lineNumber lineNumber position cell) = change record) →
      geoip.write lineNumber (·.store atof (cellText lineNumber lineNumber position cell)) =
        .ok written := by
    intro change written done same
    rw [funext same]
    exact done
  rw [loadCell] at loaded
  by_cases isStart : position = geoipPositionStartIpGeoip
  · rw [if_pos isStart] at loaded
    obtain ⟨written, done, stored⟩ := bind_eq_ok loaded
    split_ifs at stored with falls
    cases stored
    exact .inl (writes done fun record => isStart ▸ store_cellText atof record _ cell)
  · rw [if_neg isStart] at loaded
    by_cases isEnd : position = geoipPositionEndIpGeoip
    · rw [if_pos isEnd] at loaded
      obtain ⟨written, done, stored⟩ := bind_eq_ok loaded
      cases stored
      exact .inl (writes done fun record => isEnd ▸ store_cellText atof record _ cell)
    · rw [if_neg isEnd] at loaded
      by_cases isLat : position = geoipPositionLatGeoip
      · rw [if_pos isLat] at loaded
        obtain ⟨written, done, stored⟩ := bind_eq_ok loaded
        cases stored
        exact .inl (writes done fun record => isLat ▸ store_cellText atof record _ cell)
      · rw [if_neg isLat] at loaded
        by_cases isLon : position = geoipPositionLonGeoip
        · rw [if_pos isLon] at loaded
          obtain ⟨written, done, stored⟩ := bind_eq_ok loaded
          cases stored
          exact .inl (writes done fun record => isLon ▸ store_cellText atof record _ cell)
        · rw [if_neg isLon] at loaded
          cases loaded
          refine .inr ⟨rfl, ?_⟩
          intro record
          simp [Geoip.store, cellText, isStart, isEnd, isLat, isLon]

theorem loadCell_stores {position : UInt8} {cell : List UInt8}
    (loaded : loadCell atof lineNumber geoip startIp position cell = .ok (geoip', startIp')) :
    geoip'[index.toNat]? =
      geoip[index.toNat]?.map (·.store atof (cellText lineNumber index position cell)) := by
  rcases @loadCell_writes _ atof _ index _ _ _ _ _ _ loaded with written | ⟨rfl, nothing⟩
  · rw [write_getElem? written]
    congr 1
    funext record
    by_cases here : lineNumber = index
    · rw [if_pos here, here]
    · have nothing : cellText lineNumber index position cell = fun _ => none := by
        funext wanted
        exact if_neg fun given => here given.1
      rw [if_neg here, nothing, Geoip.store_none]
  · simp only [nothing, Option.map_id']

def cellTexts (lineNumber index : UInt32) (number : Nat) (cells : List (List UInt8))
    (wanted : UInt8) : Option (List UInt8) :=
  latest (fun number cell => cellText lineNumber index (UInt8.ofNat number) cell wanted) number cells

theorem loadCells_stores {cells : List (List UInt8)} {number : Nat}
    (loaded : loadCells atof lineNumber cells (UInt8.ofNat number) geoip startIp =
      .ok (geoip', startIp')) :
    geoip'[index.toNat]? =
      geoip[index.toNat]?.map (·.store atof (cellTexts lineNumber index (number + 1) cells)) := by
  induction cells generalizing number geoip startIp with
  | nil =>
      cases loaded
      exact Option.map_id'.symm
  | cons cell rest ih =>
      rw [loadCells] at loaded
      obtain ⟨⟨middle, startIp''⟩, first, later⟩ := bind_eq_ok loaded
      have next : UInt8.ofNat number + 1 = UInt8.ofNat (number + 1) := (UInt8.ofNat_add number 1).symm
      rw [next] at first later
      rw [ih later, loadCell_stores atof first, Option.map_map]
      congr 1
      funext record
      exact Geoip.store_store atof record _ _

def lineTexts (index : UInt32) (number : Nat) (lines : List (List UInt8)) (wanted : UInt8) :
    Option (List UInt8) :=
  latest (fun number line => cellTexts (UInt32.ofNat number) index 1 (cells line) wanted) number lines

theorem loadLines_stores {lines : List (List UInt8)} {number : Nat}
    (loaded : loadLines atof lines (UInt32.ofNat number) geoip startIp = .ok geoip') :
    geoip'[index.toNat]? =
      geoip[index.toNat]?.map (·.store atof (lineTexts index number lines)) := by
  induction lines generalizing number geoip startIp with
  | nil =>
      cases loaded
      exact Option.map_id'.symm
  | cons line rest ih =>
      rw [loadLines] at loaded
      obtain ⟨⟨middle, startIp''⟩, first, later⟩ := bind_eq_ok loaded
      have next : UInt32.ofNat number + 1 = UInt32.ofNat (number + 1) :=
        (UInt32.ofNat_add number 1).symm
      rw [next] at later
      rw [ih later, @loadCells_stores _ atof _ _ _ _ _ _ _ 0 first, Option.map_map]
      congr 1
      funext record
      exact Geoip.store_store atof record _ _

theorem loadLines_present {lines : List (List UInt8)} {number : Nat}
    (loaded : loadLines atof lines (UInt32.ofNat number) geoip startIp = .ok geoip') {place : Nat}
    {line : List UInt8} (present : lines[place]? = some line) (occupied : cells line ≠ []) :
    geoip[(UInt32.ofNat (number + place)).toNat]? ≠ none := by
  induction lines generalizing number place geoip startIp with
  | nil => cases present
  | cons first rest ih =>
      rw [loadLines] at loaded
      obtain ⟨⟨middle, startIp''⟩, here, later⟩ := bind_eq_ok loaded
      cases place with
      | zero =>
          cases present
          intro outside
          have behind : geoip.size ≤ (UInt32.ofNat number).toNat := Array.getElem?_eq_none_iff.mp outside
          rw [loadCells_outside atof occupied behind] at here
          cases here
      | succ place =>
          have next : UInt32.ofNat number + 1 = UInt32.ofNat (number + 1) :=
            (UInt32.ofNat_add number 1).symm
          have shift : number + (place + 1) = number + 1 + place := by omega
          rw [next] at later
          rw [shift]
          intro outside
          apply ih later present
          rw [@loadCells_stores _ atof _ _ _ _ _ _ _ 0 here, outside]
          rfl

end Stored

section Origin

def cellsAt (line : List UInt8) : List (Nat × List UInt8) :=
  wordsAt (fun letter => letter = 44 ∨ letter = 34) 0 (cString line)

theorem map_cellsAt (line : List UInt8) : (cellsAt line).map Prod.snd = cells line :=
  map_wordsAt 0 (cString line)

def taken (wanted : UInt8) (line : List UInt8) : Option (Nat × List UInt8) :=
  latest (fun place cell => if UInt8.ofNat place = wanted then some cell else none) 1 (cellsAt line)

structure Origin where
  number : Nat
  offset : Nat
  text : List UInt8
  deriving DecidableEq

def lineOrigin (index : UInt32) (wanted : UInt8) (number : Nat) (line : List UInt8) :
    Option Origin :=
  if UInt32.ofNat number = index then (taken wanted line).map fun cell => ⟨number, cell.1, cell.2⟩
  else none

def origin (lines : List (List UInt8)) (index : UInt32) (wanted : UInt8) : Option Origin :=
  latest (lineOrigin index wanted) 0 lines

theorem cellTexts_self (index : UInt32) (line : List UInt8) (wanted : UInt8) :
    cellTexts index index 1 (cells line) wanted = (taken wanted line).map Prod.snd := by
  rw [cellTexts, taken, ← map_cellsAt, latest_map, map_latest]
  congr 1
  funext place cell
  by_cases here : UInt8.ofNat place = wanted <;> simp [cellText, here]

theorem cellTexts_apart {lineNumber index : UInt32} (apart : lineNumber ≠ index)
    (cells : List (List UInt8)) (wanted : UInt8) :
    cellTexts lineNumber index 1 cells wanted = none :=
  latest_eq_none_iff.mpr fun _ _ _ => if_neg fun given => apart given.1

theorem lineTexts_eq_origin (lines : List (List UInt8)) (index : UInt32) (wanted : UInt8) :
    lineTexts index 0 lines wanted = (origin lines index wanted).map Origin.text := by
  rw [lineTexts, origin, map_latest]
  congr 1
  funext number line
  rw [lineOrigin]
  by_cases here : UInt32.ofNat number = index
  · rw [here, if_pos rfl, cellTexts_self, Option.map_map]
    rfl
  · rw [if_neg here, cellTexts_apart here]
    rfl

theorem loadGeoipHandler_stores {Degrees : Type} {atof : List UInt8 → Degrees}
    {geoip geoip' : Table Degrees} {content : List UInt8}
    (loaded : loadGeoipHandler atof geoip (some content) = .ok geoip') (index : UInt32) :
    geoip'[index.toNat]? = geoip[index.toNat]?.map (·.store atof fun wanted =>
      (origin (getLines content) index wanted).map Origin.text) := by
  have stored := @loadLines_stores _ atof index _ _ _ _ 0 loaded
  simp only [← lineTexts_eq_origin]
  exact stored

end Origin

end Etracker.Locations
