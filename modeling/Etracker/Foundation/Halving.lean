import Mathlib.Data.Nat.Log

/-! A search that keeps no bounds. Its reach is halved in every round, and once the reach
is used up it goes on by single positions. -/

namespace Foundation.Halving

inductive Probe
  | left
  | here
  | right
  deriving DecidableEq, Repr

/-- Where the answers point there is something to be found, and it lies in front of the
next answer that points back. -/
structure Guided (probe : Nat → Probe) (lines : Nat) : Prop where
  left : ∀ low index, probe index = .left → index < lines → low ≤ index →
    low = 0 ∨ probe (low - 1) = .right →
      ∃ found, low ≤ found ∧ found < index ∧ probe found = .here
  right : ∀ index high, probe index = .right → index < high → high ≤ lines →
    high = lines ∨ probe high = .left →
      ∃ found, index < found ∧ found < high ∧ probe found = .here

def stride (reach : Nat) : Nat := max (reach / 2) 1

def need (reach slack : Nat) : Nat := if reach = 0 then slack else 2 * Nat.log 2 reach + slack + 1

/-- The positions that the answers so far have left, and how the reach compares with them. -/
structure Window (probe : Nat → Probe) (lines reach index rounds low high slack : Nat) : Prop where
  low_le : low ≤ index
  lt_high : index < high
  high_le : high ≤ lines
  atLow : low = 0 ∨ probe (low - 1) = .right
  atHigh : high = lines ∨ probe high = .left
  reach_below : reach ≤ index + 1 - low
  reach_above : reach ≤ high - index
  below_le : index + 1 - low ≤ reach + slack
  above_le : high - index ≤ reach + slack
  enough : need reach slack ≤ rounds

variable {probe : Nat → Probe} {lines reach index rounds : Nat}

def Searching (probe : Nat → Probe) (lines reach index rounds : Nat) : Prop :=
  ∃ low high slack, Window probe lines reach index rounds low high slack

theorem Searching.inside (searching : Searching probe lines reach index rounds) :
    index < lines := by
  obtain ⟨low, high, slack, window⟩ := searching
  exact Nat.lt_of_lt_of_le window.lt_high window.high_le

theorem Searching.mono {more : Nat} (searching : Searching probe lines reach index rounds)
    (le : rounds ≤ more) : Searching probe lines reach index more := by
  obtain ⟨low, high, slack, window⟩ := searching
  exact ⟨low, high, slack, { window with enough := window.enough.trans le }⟩

theorem Searching.start (several : 2 ≤ lines) :
    Searching probe lines (lines / 2) (lines / 2) (2 * Nat.log 2 lines) := by
  refine ⟨0, lines, 1, ?_⟩
  have half : Nat.log 2 (lines / 2) = Nat.log 2 lines - 1 := Nat.log_div_base 2 lines
  have positive : 0 < Nat.log 2 lines := Nat.log_pos (by decide) several
  constructor
  case atLow => exact .inl rfl
  case atHigh => exact .inl rfl
  case enough =>
    rw [need, if_neg (by omega), half]
    omega
  all_goals omega

theorem need_half {slack : Nat} (wide : 2 ≤ reach) :
    need (reach / 2) (slack + 1) + 1 = need reach slack := by
  have half : Nat.log 2 (reach / 2) = Nat.log 2 reach - 1 := Nat.log_div_base 2 reach
  have positive : 0 < Nat.log 2 reach := Nat.log_pos (by decide) wide
  rw [need, need, if_neg (by omega), if_neg (by omega), half]
  omega

theorem need_single {slack : Nat} (narrow : reach < 2) : need reach slack = reach + slack := by
  rcases (by omega : reach = 0 ∨ reach = 1) with rfl | rfl
  · simp [need]
  · rw [need, if_neg (by decide), Nat.log_one_right]
    omega

theorem Window.left {low high slack : Nat} (window : Window probe lines reach index rounds low high slack)
    (guided : Guided probe lines) (told : probe index = .left) :
    ∃ slack', Window probe lines (reach / 2) (index - stride reach) (rounds - 1) low index slack' ∧
      stride reach ≤ index ∧ 0 < rounds := by
  obtain ⟨low_le, lt_high, high_le, atLow, atHigh, reachBelow, reachAbove, below, above, enough⟩ :=
    window
  obtain ⟨found, low_le_found, found_lt, _⟩ :=
    guided.left low index told (by omega) low_le atLow
  by_cases wide : 2 ≤ reach
  · have half := @need_half reach slack wide
    have far : stride reach = reach / 2 := by
      unfold stride
      omega
    rw [far]
    refine ⟨slack + 1, ⟨?_, ?_, ?_, atLow, .inr told, ?_, ?_, ?_, ?_, ?_⟩, ?_, ?_⟩
    all_goals omega
  · have single := @need_single reach slack (by omega)
    have near : stride reach = 1 := by
      unfold stride
      omega
    have used : reach / 2 = 0 := by omega
    have none := @need_single 0 (reach + slack - 1) (by decide)
    rw [near, used]
    refine ⟨reach + slack - 1, ⟨?_, ?_, ?_, atLow, .inr told, ?_, ?_, ?_, ?_, ?_⟩, ?_, ?_⟩
    all_goals omega

theorem Window.right {low high slack : Nat} (window : Window probe lines reach index rounds low high slack)
    (guided : Guided probe lines) (told : probe index = .right) :
    ∃ slack', Window probe lines (reach / 2) (index + stride reach) (rounds - 1) (index + 1) high
      slack' ∧ 0 < rounds := by
  obtain ⟨low_le, lt_high, high_le, atLow, atHigh, reachBelow, reachAbove, below, above, enough⟩ :=
    window
  obtain ⟨found, lt_found, found_lt, _⟩ :=
    guided.right index high told lt_high high_le atHigh
  have atIndex : index + 1 = 0 ∨ probe (index + 1 - 1) = .right := .inr told
  by_cases wide : 2 ≤ reach
  · have half := @need_half reach slack wide
    have far : stride reach = reach / 2 := by
      unfold stride
      omega
    rw [far]
    refine ⟨slack + 1, ⟨?_, ?_, high_le, atIndex, atHigh, ?_, ?_, ?_, ?_, ?_⟩, ?_⟩
    all_goals omega
  · have single := @need_single reach slack (by omega)
    have near : stride reach = 1 := by
      unfold stride
      omega
    have used : reach / 2 = 0 := by omega
    have none := @need_single 0 (reach + slack - 1) (by decide)
    rw [near, used]
    refine ⟨reach + slack - 1, ⟨?_, ?_, high_le, atIndex, atHigh, ?_, ?_, ?_, ?_, ?_⟩, ?_⟩
    all_goals omega

theorem Searching.left (searching : Searching probe lines reach index rounds)
    (guided : Guided probe lines) (told : probe index = .left) :
    Searching probe lines (reach / 2) (index - stride reach) (rounds - 1) ∧
      stride reach ≤ index ∧ 0 < rounds := by
  obtain ⟨low, high, slack, window⟩ := searching
  obtain ⟨slack', window', fits, more⟩ := window.left guided told
  exact ⟨⟨low, index, slack', window'⟩, fits, more⟩

theorem Searching.right (searching : Searching probe lines reach index rounds)
    (guided : Guided probe lines) (told : probe index = .right) :
    Searching probe lines (reach / 2) (index + stride reach) (rounds - 1) ∧ 0 < rounds := by
  obtain ⟨low, high, slack, window⟩ := searching
  obtain ⟨slack', window', more⟩ := window.right guided told
  exact ⟨⟨index + 1, high, slack', window'⟩, more⟩

end Foundation.Halving
