import Etracker.Foundation.Latest
import Etracker.Foundation.Outcome
import Etracker.Locations.Model
import Mathlib.Data.List.Chain

namespace Etracker.Locations

open Foundation.CString Foundation.Latest Foundation.Outcome

variable {Degrees : Type}

def startIps : List (List UInt8) → UInt8 → List UInt32
  | [], _ => []
  | cell :: rest, position =>
      if position + 1 = geoipPositionStartIpGeoip then
        UInt32.ofInt (atoi cell) :: startIps rest (position + 1)
      else startIps rest (position + 1)

def lineStartIps (line : List UInt8) : List UInt32 := startIps (cells line) 0

def Ascending (startIps : List UInt32) : Prop := startIps.IsChain (· ≤ ·)

/-- Of the lines that are too many for the table, those with cells come too late: a start
address in front of them is out of order. -/
def FitsTable (lines : List (List UInt8)) : Prop :=
  ∀ number line, lines[number]? = some line → cells line ≠ [] →
    geoipFileLines ≤ number % 2 ^ 32 → ¬Ascending ((lines.take number).flatMap lineStartIps)

/-- The table is loaded, or the program left because of wrong data. -/
def StaysInside (outcome : Except GeoipFault (Table Degrees)) : Prop :=
  (∃ geoip, outcome = .ok geoip ∧ geoip.size = geoipFileLines) ∨
    outcome = .error (.exit exitCodeGeoipWrongData)

theorem ascending_cons_cons {first second : UInt32} {rest : List UInt32} :
    Ascending (first :: second :: rest) ↔ first ≤ second ∧ Ascending (second :: rest) :=
  List.isChain_cons_cons

theorem ascending_append {first : UInt32} {front : List UInt32} (back : List UInt32)
    (inOrder : Ascending (first :: front)) :
    Ascending (first :: (front ++ back)) ↔ Ascending (front.getLastD first :: back) := by
  induction front generalizing first with
  | nil => rfl
  | cons second rest ih =>
      obtain ⟨le, inOrder⟩ := ascending_cons_cons.mp inOrder
      rw [List.cons_append, ascending_cons_cons, List.getLastD_cons, ← ih inOrder]
      exact and_iff_right le

theorem ascending_of_append {first : UInt32} {front back : List UInt32}
    (inOrder : Ascending (first :: (front ++ back))) : Ascending (first :: front) :=
  List.IsChain.left_of_append (List.cons_append ▸ inOrder)

theorem ascending_zero {startIps : List UInt32} : Ascending (0 :: startIps) ↔ Ascending startIps := by
  cases startIps with
  | nil => exact ⟨fun _ => .nil, fun _ => .singleton 0⟩
  | cons first rest =>
      rw [ascending_cons_cons]
      exact and_iff_right (UInt32.le_iff_toNat_le.mpr (Nat.zero_le _))

theorem write_inside {geoip : Table Degrees} {index : UInt32} (inside : index.toNat < geoip.size)
    (change : Geoip Degrees → Geoip Degrees) :
    ∃ geoip', geoip.write index change = .ok geoip' ∧ geoip'.size = geoip.size := by
  refine ⟨geoip.modify index.toNat change, ?_, Array.size_modify⟩
  rw [Table.write, if_pos inside]
  rfl

section Cells

variable (atof : List UInt8 → Degrees) {lineNumber : UInt32}

theorem loadCell_inside {geoip : Table Degrees} (inside : lineNumber.toNat < geoip.size)
    (startIp : UInt32) (position : UInt8) (cell : List UInt8) :
    (position = geoipPositionStartIpGeoip ∧ startIp > UInt32.ofInt (atoi cell) ∧
      loadCell atof lineNumber geoip startIp position cell =
        .error (.exit exitCodeGeoipWrongData)) ∨
    ∃ geoip', geoip'.size = geoip.size ∧
      (position = geoipPositionStartIpGeoip → startIp ≤ UInt32.ofInt (atoi cell)) ∧
      loadCell atof lineNumber geoip startIp position cell =
        .ok (geoip', if position = geoipPositionStartIpGeoip then UInt32.ofInt (atoi cell)
          else startIp) := by
  by_cases isStart : position = geoipPositionStartIpGeoip
  · obtain ⟨geoip', written, size⟩ := write_inside inside
      fun record => { record with startIp := UInt32.ofInt (atoi cell) }
    simp only [loadCell, if_pos isStart, written, ok_bind]
    by_cases falls : startIp > UInt32.ofInt (atoi cell)
    · rw [if_pos falls]
      exact .inl ⟨isStart, falls, rfl⟩
    · rw [if_neg falls]
      exact .inr ⟨geoip', size, fun _ => UInt32.not_lt.mp falls, rfl⟩
  · refine .inr ?_
    have stores : ∀ change : Geoip Degrees → Geoip Degrees, ∃ geoip', geoip'.size = geoip.size ∧
        (position = geoipPositionStartIpGeoip → startIp ≤ UInt32.ofInt (atoi cell)) ∧
        (geoip.write lineNumber change >>= fun geoip => pure (geoip, startIp)) =
          (.ok (geoip', startIp) : Except GeoipFault (Table Degrees × UInt32)) := by
      intro change
      obtain ⟨geoip', written, size⟩ := write_inside inside change
      exact ⟨geoip', size, fun isStart' => absurd isStart' isStart, by rw [written]; rfl⟩
    simp only [loadCell, if_neg isStart]
    split_ifs
    · exact stores _
    · exact stores _
    · exact stores _
    · exact ⟨geoip, rfl, fun isStart' => absurd isStart' isStart, rfl⟩

theorem loadCells_inside (cells : List (List UInt8)) {geoip : Table Degrees}
    (inside : lineNumber.toNat < geoip.size) (startIp : UInt32) (position : UInt8) :
    (Ascending (startIp :: startIps cells position) ∧ ∃ geoip', geoip'.size = geoip.size ∧
      loadCells atof lineNumber cells position geoip startIp =
        .ok (geoip', (startIps cells position).getLastD startIp)) ∨
    ¬Ascending (startIp :: startIps cells position) ∧
      loadCells atof lineNumber cells position geoip startIp =
        .error (.exit exitCodeGeoipWrongData) := by
  induction cells generalizing geoip startIp position with
  | nil => exact .inl ⟨.singleton startIp, geoip, rfl, rfl⟩
  | cons cell rest ih =>
      rw [loadCells, startIps]
      rcases loadCell_inside atof inside startIp (position + 1) cell with
        ⟨isStart, falls, stops⟩ | ⟨geoip', size, rises, stored⟩
      · right
        rw [if_pos isStart, stops]
        refine ⟨?_, rfl⟩
        intro inOrder
        exact absurd (ascending_cons_cons.mp inOrder).1 (UInt32.not_le.mpr falls)
      · rw [stored, ok_bind]
        by_cases isStart : position + 1 = geoipPositionStartIpGeoip
        · simp only [if_pos isStart, ascending_cons_cons, List.getLastD_cons]
          rw [and_iff_right (rises isStart), ← size]
          exact ih (size ▸ inside) _ _
        · simp only [if_neg isStart]
          rw [← size]
          exact ih (size ▸ inside) _ _

theorem loadCells_outside {cells : List (List UInt8)} (occupied : cells ≠ [])
    {geoip : Table Degrees} (outside : geoip.size ≤ lineNumber.toNat) (startIp : UInt32) :
    loadCells atof lineNumber cells 0 geoip startIp = .error (.outside lineNumber.toNat) := by
  cases cells with
  | nil => exact absurd rfl occupied
  | cons cell rest =>
      have first : (0 : UInt8) + 1 = geoipPositionStartIpGeoip := rfl
      rw [loadCells, loadCell, if_pos first, Table.write, if_neg (Nat.not_lt.mpr outside)]
      rfl

end Cells

theorem not_staysInside_outside (index : Nat) :
    ¬StaysInside (.error (.outside index) : Except GeoipFault (Table Degrees)) := by
  intro inside
  rcases inside with ⟨geoip, loaded, _⟩ | left
  · cases loaded
  · cases left

theorem loadLines_inside_iff (atof : List UInt8 → Degrees) (lines : List (List UInt8))
    (lineNumber : UInt32) {geoip : Table Degrees} (size : geoip.size = geoipFileLines)
    (startIp : UInt32) :
    StaysInside (loadLines atof lines lineNumber geoip startIp) ↔
      ∀ number line, lines[number]? = some line → cells line ≠ [] →
        geoipFileLines ≤ (lineNumber + UInt32.ofNat number).toNat →
          ¬Ascending (startIp :: (lines.take number).flatMap lineStartIps) := by
  induction lines generalizing lineNumber geoip startIp with
  | nil =>
      constructor
      · intro _ number line present
        cases present
      · intro _
        exact .inl ⟨geoip, rfl, size⟩
  | cons line rest ih =>
      have zero : lineNumber + UInt32.ofNat 0 = lineNumber := UInt32.add_zero _
      have later : ∀ number, lineNumber + UInt32.ofNat (number + 1) =
          lineNumber + 1 + UInt32.ofNat number := by
        intro number
        rw [UInt32.ofNat_add, UInt32.add_assoc, UInt32.add_comm 1]
        rfl
      rw [loadLines, forall_getElem?_cons]
      simp only [zero, later, List.take_succ_cons, List.flatMap_cons, List.take_zero,
        List.flatMap_nil]
      by_cases inside : lineNumber.toNat < geoip.size
      · have here : cells line ≠ [] → geoipFileLines ≤ lineNumber.toNat →
            ¬Ascending [startIp] := fun _ outside => by omega
        rw [and_iff_right here]
        rcases loadCells_inside atof (cells line) inside startIp 0 with
          ⟨inOrder, geoip', size', stored⟩ | ⟨outOfOrder, stops⟩
        · rw [stored, ok_bind, ih (lineNumber + 1) (size'.trans size)]
          simp only [lineStartIps, ascending_append _ inOrder]
        · rw [stops]
          refine iff_of_true (.inr rfl) ?_
          intro number other _ _ _ inOrder
          exact outOfOrder (ascending_of_append inOrder)
      · by_cases occupied : cells line = []
        · have unchanged : loadCells atof lineNumber (cells line) 0 geoip startIp =
              .ok (geoip, startIp) := by
            rw [occupied]
            rfl
          have none : lineStartIps line = [] := by
            rw [lineStartIps, occupied]
            rfl
          rw [unchanged, ok_bind, ih (lineNumber + 1) size, none,
            and_iff_right fun occupied' => absurd occupied occupied']
          rfl
        · rw [loadCells_outside atof occupied (Nat.not_lt.mp inside)]
          refine iff_of_false (not_staysInside_outside lineNumber.toNat) ?_
          intro fits
          exact fits.1 occupied (by omega) (.singleton startIp)

/-- A file is loaded inside the table exactly if its lines fit. -/
theorem loadGeoipHandler_inside_iff [Zero Degrees] [OfNat Degrees 1000]
    (atof : List UInt8 → Degrees) (content : List UInt8) :
    StaysInside (loadGeoipHandler atof (initGeoip false) (some content)) ↔
      FitsTable (getLines content) := by
  rw [loadGeoipHandler, loadLines_inside_iff atof _ 0 initGeoip_size]
  simp only [ascending_zero, UInt32.zero_add, UInt32.toNat_ofNat']
  rfl

def tooManyLines : List UInt8 := List.replicate (geoipFileLines + 1) 10

theorem getLines_replicate (count : Nat) :
    getLines (List.replicate count 10) = List.replicate count [10] := by
  induction count with
  | zero => rfl
  | succ count ih => rw [List.replicate_succ, getLines, if_pos rfl, ih, List.replicate_succ]

/-- Lines without an address load as the address zero; the last one is written behind the
table. -/
theorem loadGeoipHandler_outside :
    ¬StaysInside (loadGeoipHandler (fun _ => (0 : Nat)) (initGeoip false) (some tooManyLines)) := by
  rw [loadGeoipHandler, loadLines_inside_iff _ _ 0 initGeoip_size, tooManyLines, getLines_replicate]
  intro fits
  have last : (List.replicate (geoipFileLines + 1) [(10 : UInt8)])[geoipFileLines]? = some [10] := by
    rw [List.getElem?_replicate, if_pos (Nat.lt_succ_self _)]
  have outside : geoipFileLines ≤ ((0 : UInt32) + UInt32.ofNat geoipFileLines).toNat := by decide
  apply fits geoipFileLines [10] last (by decide) outside
  have one : lineStartIps [10] = [0] := by decide
  have starts : ∀ count, (List.replicate count [(10 : UInt8)]).flatMap lineStartIps =
      List.replicate count 0 := by
    intro count
    induction count with
    | zero => rfl
    | succ count ih => rw [List.replicate_succ, List.flatMap_cons, ih, one, List.replicate_succ]; rfl
  rw [ascending_zero, List.take_replicate, starts]
  exact List.isChain_replicate_of_rel _ (UInt32.le_refl 0)

end Etracker.Locations
