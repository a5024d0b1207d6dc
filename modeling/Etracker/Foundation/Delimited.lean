import Mathlib.Data.List.Infix

namespace Foundation.Delimited

variable {Letter Source Value : Type}

/-- Cuts a value off the front of a text that begins with all of it. -/
abbrev Reader (Letter Value : Type) := List Letter → Option (Value × List Letter)

def Stable (reader : Reader Letter Value) : Prop :=
  ∀ {text rest value}, reader text = some (value, rest) →
    ∀ behind, reader (text ++ behind) = some (value, rest ++ behind)

def readAll (reader : Reader Letter Value) : Nat → List Letter → List Value × List Letter
  | 0, text => ([], text)
  | fuel + 1, text =>
      match reader text with
      | none => ([], text)
      | some (value, rest) =>
          let (values, left) := readAll reader fuel rest
          (value :: values, left)

section Texts

variable {reader : Reader Letter Value} {write : Source → List Letter} {value : Source → Value}
  {source : Source} (stable : Stable reader)
  (read : reader (write source) = some (value source, []))

include stable read

theorem reader_cut {part : List Letter} (inFront : part <+: write source)
    (cut : part ≠ write source) : reader part = none := by
  obtain ⟨rest, whole⟩ := inFront
  cases reads : reader part with
  | none => rfl
  | some result =>
      have more := stable reads rest
      rw [whole, read] at more
      have nothing := (Prod.mk.inj (Option.some.inj more)).2
      rw [(List.append_eq_nil_iff.mp nothing.symm).2, List.append_nil] at whole
      exact absurd whole cut

theorem reader_whole (behind : List Letter) :
    reader (write source ++ behind) = some (value source, behind) :=
  stable read behind

end Texts

/-- The texts in front of a cut, and the part of the next one. -/
structure CutAt (write : Source → List Letter) (sources whole : List Source)
    (received part : List Letter) : Prop where
  received : received = whole.flatMap write ++ part
  next : sources = whole ∧ part = [] ∨
    ∃ next rest, sources = whole ++ next :: rest ∧ part <+: write next ∧ part ≠ write next

/-- Wherever a row of texts is cut, all that came before the cut is read, and nothing else. -/
theorem readAll_cut {reader : Reader Letter Value} (stable : Stable reader)
    (nothing : reader [] = none) {write : Source → List Letter} {value : Source → Value}
    {sources : List Source}
    (read : ∀ source ∈ sources, reader (write source) = some (value source, []))
    {received : List Letter} (cut : received <+: sources.flatMap write) {fuel : Nat}
    (enough : received.length ≤ fuel) :
    ∃ whole part, CutAt write sources whole received part ∧
      readAll reader fuel received = (whole.map value, part) := by
  induction sources generalizing received fuel with
  | nil =>
      rw [List.flatMap_nil, List.prefix_nil] at cut
      subst cut
      refine ⟨[], [], ⟨rfl, .inl ⟨rfl, rfl⟩⟩, ?_⟩
      cases fuel with
      | zero => rfl
      | succ fuel => rw [readAll, nothing, List.map_nil]
  | cons source rest ih =>
      have readFirst := read source List.mem_cons_self
      rw [List.flatMap_cons] at cut
      by_cases short : received.length < (write source).length
      · have inFront : received <+: write source :=
          List.prefix_of_prefix_length_le cut (List.prefix_append _ _) short.le
        have differs : received ≠ write source := fun same => short.ne (congrArg List.length same)
        refine ⟨[], received, ⟨rfl, .inr ⟨source, rest, rfl, inFront, differs⟩⟩, ?_⟩
        cases fuel with
        | zero => rfl
        | succ fuel => rw [readAll, reader_cut stable readFirst inFront differs, List.map_nil]
      · have inFront : write source <+: received :=
          List.prefix_of_prefix_length_le (List.prefix_append _ _) cut (Nat.le_of_not_lt short)
        obtain ⟨received', rfl⟩ := inFront
        rw [List.prefix_append_right_inj] at cut
        have occupied : (write source).length ≠ 0 := by
          intro none
          rw [List.length_eq_zero_iff.mp none, nothing] at readFirst
          cases readFirst
        cases fuel with
        | zero =>
            rw [List.length_append] at enough
            omega
        | succ fuel =>
            rw [List.length_append] at enough
            obtain ⟨whole, part, cutAt, reads⟩ := @ih
              (fun other member => read other (List.mem_cons_of_mem _ member)) received' cut fuel
              (by omega)
            refine ⟨source :: whole, part, ⟨?_, ?_⟩, ?_⟩
            · rw [cutAt.received, List.flatMap_cons, List.append_assoc]
            · rcases cutAt.next with ⟨rfl, none⟩ | ⟨next, later, rfl, isPart, differs⟩
              · exact .inl ⟨rfl, none⟩
              · exact .inr ⟨next, later, rfl, isPart, differs⟩
            · rw [readAll, reader_whole stable readFirst]
              dsimp only
              rw [reads, List.map_cons]

end Foundation.Delimited
