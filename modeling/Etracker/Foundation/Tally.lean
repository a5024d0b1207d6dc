import Mathlib.Algebra.Order.BigOperators.Group.List
import Mathlib.Algebra.Order.Group.Nat
import Mathlib.Algebra.Order.Ring.Nat

namespace Foundation.Tally

variable {State Item : Type} {step : State → Item → State} (figure : State → UInt32)

theorem foldl_add (amount : Item → Nat) {items : List Item}
    (adds : ∀ state, ∀ item ∈ items,
      figure (step state item) = figure state + UInt32.ofNat (amount item))
    (state : State) :
    figure (items.foldl step state) =
      figure state + UInt32.ofNat ((items.map amount).sum) := by
  induction items generalizing state with
  | nil => simp
  | cons item rest ih =>
      rw [List.foldl_cons, ih fun state other member => adds state other (by simp [member]),
        adds state item List.mem_cons_self, List.map_cons, List.sum_cons, UInt32.ofNat_add,
        UInt32.add_assoc]

def largest (numbers : List Nat) : Nat := numbers.foldr max 0

theorem foldl_largest (amount : Item → Nat) {items : List Item}
    (keeps : ∀ state, ∀ item ∈ items,
      (figure (step state item)).toNat = max (figure state).toNat (amount item))
    (state : State) :
    (figure (items.foldl step state)).toNat =
      max (figure state).toNat (largest (items.map amount)) := by
  induction items generalizing state with
  | nil => exact (Nat.max_zero _).symm
  | cons item rest ih =>
      rw [List.foldl_cons, ih fun state other member => keeps state other (by simp [member]),
        keeps state item List.mem_cons_self, Nat.max_assoc]
      rfl

theorem sum_indicator (test : Item → Bool) (items : List Item) :
    (items.map fun item => if test item then 1 else 0).sum = items.countP test := by
  induction items with
  | nil => rfl
  | cons item rest ih =>
      rw [List.map_cons, List.sum_cons, ih, List.countP_cons, Nat.add_comm]

theorem toNat_ofNat_eq_iff (number : Nat) :
    (UInt32.ofNat number).toNat = number ↔ number < 2 ^ 32 := by
  rw [UInt32.toNat_ofNat']
  exact ⟨fun same => same ▸ Nat.mod_lt _ (by decide), Nat.mod_eq_of_lt⟩

theorem le_sum_of_mem {amount : Item → Nat} {items : List Item} {item : Item}
    (member : item ∈ items) : amount item ≤ (items.map amount).sum :=
  List.le_sum_of_mem (List.mem_map_of_mem member)

theorem sum_filter {amount : Item → Nat} {test : Item → Bool} {items : List Item}
    (nothing : ∀ item ∈ items, test item = false → amount item = 0) :
    ((items.filter test).map amount).sum = (items.map amount).sum := by
  induction items with
  | nil => rfl
  | cons item rest ih =>
      have later := ih fun other member => nothing other (List.mem_cons_of_mem _ member)
      cases kept : test item with
      | true =>
          rw [List.filter_cons_of_pos kept, List.map_cons, List.map_cons, List.sum_cons,
            List.sum_cons, later]
      | false =>
          rw [List.filter_cons_of_neg (by simp [kept]), List.map_cons, List.sum_cons, later,
            nothing item List.mem_cons_self kept, Nat.zero_add]

theorem largest_filter {amount : Item → Nat} {test : Item → Bool} {items : List Item}
    (nothing : ∀ item ∈ items, test item = false → amount item = 0) :
    largest ((items.filter test).map amount) = largest (items.map amount) := by
  induction items with
  | nil => rfl
  | cons item rest ih =>
      have later := ih fun other member => nothing other (List.mem_cons_of_mem _ member)
      cases kept : test item with
      | true =>
          rw [List.filter_cons_of_pos kept]
          exact congrArg (max (amount item)) later
      | false =>
          rw [List.filter_cons_of_neg (by simp [kept]), later]
          have zero := nothing item List.mem_cons_self kept
          show _ = max (amount item) _
          rw [zero, Nat.zero_max]
          rfl

theorem countP_le_sum (amount : Item → Nat) (items : List Item) :
    (items.countP fun item => amount item ≠ 0) ≤ (items.map amount).sum := by
  induction items with
  | nil => exact Nat.le_refl _
  | cons item rest ih =>
      rw [List.countP_cons, List.map_cons, List.sum_cons]
      by_cases nothing : amount item = 0
      · simp only [nothing]
        simpa using ih
      · have something : decide (amount item ≠ 0) = true := decide_eq_true nothing
        rw [if_pos something]
        omega

theorem countP_split (test other : Item → Bool) (items : List Item) :
    items.countP test = (items.countP fun item => test item && other item) +
      items.countP fun item => test item && !other item := by
  induction items with
  | nil => rfl
  | cons item rest ih =>
      rw [List.countP_cons, List.countP_cons, List.countP_cons, ih]
      cases test item <;> cases other item <;> simp <;> omega

end Foundation.Tally
