import Etracker.Foundation.Occurrence

/-! The table of locations of `geoip.c`.

Latitudes and longitudes are `float` numbers. They are values of a type parameter: nothing
but `atof` makes them and nothing but a comparison reads them. -/

namespace Etracker.Locations

open Foundation.CString

def geoipFileLines : Nat := 2912124
def geoipPositionStartIpGeoip : UInt8 := 1
def geoipPositionEndIpGeoip : UInt8 := 2
def geoipPositionLatGeoip : UInt8 := 7
def geoipPositionLonGeoip : UInt8 := 8
def geoipMaxIteration : Nat := 50
def exitCodeGeoipWrongData : Nat := 226

structure Geoip (Degrees : Type) where
  startIp : UInt32
  endIp : UInt32
  lat : Degrees
  lon : Degrees

inductive GeoipFault
  /-- A record outside the allocated table. -/
  | outside (index : Nat)
  | exit (code : Nat)
  deriving DecidableEq, Repr

/-- The allocated records. -/
abbrev Table (Degrees : Type) := Array (Geoip Degrees)

section Table

variable {Degrees : Type}

def Table.read (geoip : Table Degrees) (index : UInt32) : Except GeoipFault (Geoip Degrees) :=
  match geoip[index.toNat]? with
  | none => throw (.outside index.toNat)
  | some record => pure record

def Table.write (geoip : Table Degrees) (index : UInt32)
    (change : Geoip Degrees → Geoip Degrees) : Except GeoipFault (Table Degrees) :=
  if index.toNat < geoip.size then pure (geoip.modify index.toNat change)
  else throw (.outside index.toNat)

theorem Table.read_inside {geoip : Table Degrees} {index : UInt32}
    (inside : index.toNat < geoip.size) : ∃ record, geoip[index.toNat]? = some record ∧
      geoip.read index = .ok record := by
  have present := Array.getElem?_eq_getElem inside
  refine ⟨_, present, ?_⟩
  rw [Table.read, present]
  rfl

end Table

section Init

variable {Degrees : Type} [Zero Degrees] [OfNat Degrees 1000]

def geoipNotLoading : Degrees := 1000

def initGeoip (noLocations : Bool) : Table Degrees :=
  let geoip := Array.replicate (if noLocations = true then 1 else geoipFileLines) ⟨0, 0, 0, 0⟩
  if noLocations = true then geoip
  else geoip.modify (geoipFileLines - 1) fun record => { record with lat := geoipNotLoading }

@[simp] theorem initGeoip_size :
    (initGeoip false : Table Degrees).size = geoipFileLines := by
  simp [initGeoip]

end Init

section Find

variable {Degrees : Type} [OfNat Degrees 1000] [DecidableEq Degrees]

/-- The record that `findGeoip` points to, and how it came there. -/
structure Found where
  index : UInt32
  iterations : Nat
  tooMany : Bool
  deriving DecidableEq, Repr

/-- `GEOIP_FILE_LINES / delimiter`, cut down to an `unsigned int`. -/
def strideOf (delimiter : UInt64) : UInt32 := (UInt64.ofNat geoipFileLines / delimiter).toUInt32

def stepDown (index : UInt32) (delimiter : UInt64) : UInt32 :=
  let newIndex := index - strideOf delimiter
  if index ≠ newIndex then newIndex else newIndex - 1

def stepUp (index : UInt32) (delimiter : UInt64) : UInt32 :=
  let newIndex := index + strideOf delimiter
  if index ≠ newIndex then newIndex else newIndex + 1

def findGeoipFrom (geoip : Table Degrees) (ip : UInt32) (delimiter : UInt64) (index : UInt32)
    (currentIterations : Nat) : Except GeoipFault Found := do
  let middle ← geoip.read index
  if middle.startIp > ip ∨ middle.endIp < ip then
    let delimiter := delimiter * 2
    let index := if middle.startIp > ip then stepDown index delimiter else stepUp index delimiter
    if currentIterations + 1 > geoipMaxIteration then pure ⟨index, currentIterations + 1, true⟩
    else findGeoipFrom geoip ip delimiter index (currentIterations + 1)
  else pure ⟨index, currentIterations, false⟩
termination_by geoipMaxIteration - currentIterations

/-- A table that is not loaded answers with its first record. What is printed about the number
of rounds is left out. -/
def findGeoip (geoip : Table Degrees) (ip : UInt32) : Except GeoipFault Found := do
  let first ← geoip.read 0
  if first.endIp = 0 then pure ⟨0, 0, false⟩
  else
    let last ← geoip.read (UInt32.ofNat (geoipFileLines - 1))
    if last.lat = geoipNotLoading then pure ⟨0, 0, false⟩
    else findGeoipFrom geoip ip 2 (strideOf 2) 0

end Find

section Load

variable {Degrees : Type} (atof : List UInt8 → Degrees)

/-- A line that `getline` returns keeps its line feed. -/
def getLines : List UInt8 → List (List UInt8)
  | [] => []
  | letter :: rest =>
      if letter = 10 then [letter] :: getLines rest
      else match getLines rest with
      | [] => [[letter]]
      | line :: more => (letter :: line) :: more

/-- What `strtok` finds between commas and quotation marks. -/
def cells (line : List UInt8) : List (List UInt8) :=
  words (fun letter => letter = 44 ∨ letter = 34) (cString line)

def loadCell (lineNumber : UInt32) (geoip : Table Degrees) (startIp : UInt32) (position : UInt8)
    (cell : List UInt8) : Except GeoipFault (Table Degrees × UInt32) :=
  let value := UInt32.ofInt (atoi cell)
  if position = geoipPositionStartIpGeoip then do
    let geoip ← geoip.write lineNumber fun record => { record with startIp := value }
    if startIp > value then throw (.exit exitCodeGeoipWrongData)
    else pure (geoip, value)
  else if position = geoipPositionEndIpGeoip then do
    let geoip ← geoip.write lineNumber fun record => { record with endIp := value }
    pure (geoip, startIp)
  else if position = geoipPositionLatGeoip then do
    let geoip ← geoip.write lineNumber fun record => { record with lat := atof cell }
    pure (geoip, startIp)
  else if position = geoipPositionLonGeoip then do
    let geoip ← geoip.write lineNumber fun record => { record with lon := atof cell }
    pure (geoip, startIp)
  else pure (geoip, startIp)

/-- The cells of one line; `position` counts those in front of them and wraps around. -/
def loadCells (lineNumber : UInt32) : List (List UInt8) → UInt8 → Table Degrees → UInt32 →
    Except GeoipFault (Table Degrees × UInt32)
  | [], _, geoip, startIp => pure (geoip, startIp)
  | cell :: rest, position, geoip, startIp => do
      let (geoip, startIp) ← loadCell atof lineNumber geoip startIp (position + 1) cell
      loadCells lineNumber rest (position + 1) geoip startIp

def loadLines : List (List UInt8) → UInt32 → Table Degrees → UInt32 →
    Except GeoipFault (Table Degrees)
  | [], _, geoip, _ => pure geoip
  | line :: rest, lineNumber, geoip, startIp => do
      let (geoip, startIp) ← loadCells atof lineNumber (cells line) 0 geoip startIp
      loadLines rest (lineNumber + 1) geoip startIp

/-- `content` is missing when the file cannot be opened. -/
def loadGeoipHandler (geoip : Table Degrees) (content : Option (List UInt8)) :
    Except GeoipFault (Table Degrees) :=
  match content with
  | none => pure geoip
  | some content => loadLines atof (getLines content) 0 geoip 0

end Load

end Etracker.Locations
