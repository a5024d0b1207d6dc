import Mathlib.Tactic.Common

namespace Foundation.Latest

theorem forall_getElem?_cons {Item : Type} {property : Nat → Item → Prop} {first : Item}
    {rest : List Item} :
    (∀ number item, (first :: rest)[number]? = some item → property number item) ↔
      property 0 first ∧ ∀ number item, rest[number]? = some item → property (number + 1) item := by
  constructor
  · intro all
    exact ⟨all 0 first rfl, fun number item present => all (number + 1) item present⟩
  · intro given number item present
    cases number with
    | zero =>
        cases present
        exact given.1
    | succ number => exact given.2 number item present

section Latest

variable {Item Answer : Type} {answer : Nat → Item → Option Answer}

def latest (answer : Nat → Item → Option Answer) : Nat → List Item → Option Answer
  | _, [] => none
  | number, item :: rest => (latest answer (number + 1) rest).or (answer number item)

def Silent (answer : Nat → Item → Option Answer) (number : Nat) (items : List Item) : Prop :=
  ∀ place item, items[place]? = some item → answer (number + place) item = none

theorem silent_cons {number : Nat} {first : Item} {rest : List Item} :
    Silent answer number (first :: rest) ↔
      answer number first = none ∧ Silent answer (number + 1) rest := by
  have shift : ∀ place item, answer (number + (place + 1)) item = answer (number + 1 + place) item :=
    fun place item => by rw [Nat.add_right_comm, Nat.add_assoc]
  rw [Silent, forall_getElem?_cons]
  simp only [shift]
  rfl

theorem latest_eq_none_iff {number : Nat} {items : List Item} :
    latest answer number items = none ↔ Silent answer number items := by
  induction items generalizing number with
  | nil => simp [latest, Silent]
  | cons first rest ih => rw [latest, Option.or_eq_none_iff, ih, silent_cons, and_comm]

theorem latest_eq_some_iff {number : Nat} {items : List Item} {found : Answer} :
    latest answer number items = some found ↔
      ∃ place item, items[place]? = some item ∧ answer (number + place) item = some found ∧
        Silent answer (number + (place + 1)) (items.drop (place + 1)) := by
  induction items generalizing number with
  | nil => simp [latest]
  | cons first rest ih =>
      have shift : ∀ place, number + 1 + place = number + (place + 1) := fun place => by omega
      rw [latest, Option.or_eq_some_iff, ih, latest_eq_none_iff]
      constructor
      · intro given
        rcases given with ⟨place, item, present, answered, silent⟩ | ⟨silent, answered⟩
        · exact ⟨place + 1, item, present, shift place ▸ answered, shift (place + 1) ▸ silent⟩
        · exact ⟨0, first, rfl, answered, silent⟩
      · intro given
        obtain ⟨place, item, present, answered, silent⟩ := given
        cases place with
        | zero =>
            cases present
            exact .inr ⟨silent, answered⟩
        | succ place =>
            refine .inl ⟨place, item, present, ?_, ?_⟩
            · exact (shift place).symm ▸ answered
            · exact (shift (place + 1)).symm ▸ silent

theorem latest_map {Source : Type} (value : Source → Item) {number : Nat} {sources : List Source} :
    latest answer number (sources.map value) =
      latest (fun number source => answer number (value source)) number sources := by
  induction sources generalizing number with
  | nil => rfl
  | cons first rest ih => rw [List.map_cons, latest, latest, ih]

theorem map_latest {Result : Type} (result : Answer → Result) {number : Nat} {items : List Item} :
    (latest answer number items).map result =
      latest (fun number item => (answer number item).map result) number items := by
  induction items generalizing number with
  | nil => rfl
  | cons first rest ih => rw [latest, latest, Option.map_or, ih]

end Latest

end Foundation.Latest
