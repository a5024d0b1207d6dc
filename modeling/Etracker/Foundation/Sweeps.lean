import Mathlib.Data.Set.Piecewise
import Mathlib.Logic.Relation
import Mathlib.Tactic.Common

/-! A store whose keys are changed one at a time while a sweep goes over all of them.

A sweep that takes the keys in parts, with other changes in between, is as good as a sweep
that takes all of them at once: the changes can be put in an order in which the sweep is one
step and in which the changes of each key keep their order. -/

namespace Foundation.Sweeps

/-- What a deed does to its key, and what a sweep does to each key. -/
structure Rules (Key Value Deed Sweep : Type) where
  key : Deed → Key
  does : Deed → Value → Value → Prop
  sweeps : Sweep → Value → Value → Prop

structure State (Key Value Deed Sweep : Type) where
  value : Key → Value
  /-- The sweep that is under way, with the keys it has behind it. -/
  sweeping : Option (Sweep × Set Key)
  log : List (Deed ⊕ Sweep)

namespace Rules

variable {Key Value Deed Sweep : Type} [DecidableEq Key] (rules : Rules Key Value Deed Sweep)

/-- A deed may be done at any time. A sweep takes keys that it has not behind it. -/
inductive Step : State Key Value Deed Sweep → State Key Value Deed Sweep → Prop
  | deed {state : State Key Value Deed Sweep} {deed : Deed} {after : Value} :
      rules.does deed (state.value (rules.key deed)) after →
      Step state
        { state with
          value := Function.update state.value (rules.key deed) after
          log := state.log ++ [.inl deed] }
  | begins {state : State Key Value Deed Sweep} (sweep : Sweep) : state.sweeping = none →
      Step state { state with sweeping := some (sweep, ∅) }
  | sweeps {state : State Key Value Deed Sweep} {sweep : Sweep} {swept keys : Set Key}
      {after : Key → Value} : state.sweeping = some (sweep, swept) →
      (∀ key ∈ keys, key ∉ swept ∧ rules.sweeps sweep (state.value key) (after key)) →
      (∀ key ∉ keys, after key = state.value key) →
      Step state { state with value := after, sweeping := some (sweep, swept ∪ keys) }
  | ends {state : State Key Value Deed Sweep} {sweep : Sweep} :
      state.sweeping = some (sweep, Set.univ) →
      Step state { state with sweeping := none, log := state.log ++ [.inr sweep] }

def about : Deed ⊕ Sweep → Option Key
  | .inl deed => some (rules.key deed)
  | .inr _ => none

/-- Two logs tell the same of each key, and the same sweeps, each in the same order. -/
def Alike (first second : List (Deed ⊕ Sweep)) : Prop :=
  ∀ which, first.filter (fun entry => rules.about entry = which) =
    second.filter fun entry => rules.about entry = which

inductive Serial (start : Key → Value) : List (Deed ⊕ Sweep) → (Key → Value) → Prop
  | start : Serial start [] start
  | deed {log : List (Deed ⊕ Sweep)} {value : Key → Value} {deed : Deed} {after : Value} :
      Serial start log value → rules.does deed (value (rules.key deed)) after →
      Serial start (log ++ [.inl deed]) (Function.update value (rules.key deed) after)
  | sweep {log : List (Deed ⊕ Sweep)} {value after : Key → Value} {sweep : Sweep} :
      Serial start log value → (∀ key, rules.sweeps sweep (value key) (after key)) →
      Serial start (log ++ [.inr sweep]) after

inductive Follows : List Deed → (Key → Value) → (Key → Value) → Prop
  | nil (value : Key → Value) : Follows [] value value
  | snoc {deeds : List Deed} {first value : Key → Value} {deed : Deed} {after : Value} :
      Follows deeds first value → rules.does deed (value (rules.key deed)) after →
      Follows (deeds ++ [deed]) first (Function.update value (rules.key deed) after)

variable {rules}

theorem Alike.refl (log : List (Deed ⊕ Sweep)) : rules.Alike log log := fun _ => rfl

theorem Alike.append {first second later later' : List (Deed ⊕ Sweep)}
    (alike : rules.Alike first second) (alike' : rules.Alike later later') :
    rules.Alike (first ++ later) (second ++ later') := by
  intro which
  rw [List.filter_append, List.filter_append, alike which, alike' which]

theorem Alike.trans {first second third : List (Deed ⊕ Sweep)}
    (alike : rules.Alike first second) (alike' : rules.Alike second third) :
    rules.Alike first third :=
  fun which => (alike which).trans (alike' which)

theorem Alike.moves {deed : Deed} {later : List Deed}
    (apart : ∀ other ∈ later, rules.key other ≠ rules.key deed) :
    rules.Alike ((.inl deed : Deed ⊕ Sweep) :: later.map .inl) (later.map .inl ++ [.inl deed]) := by
  intro which
  by_cases here : rules.about (.inl deed : Deed ⊕ Sweep) = which
  · have none : (later.map (.inl : Deed → Deed ⊕ Sweep)).filter
        (fun entry => rules.about entry = which) = [] := by
      rw [List.filter_eq_nil_iff]
      intro entry member same
      obtain ⟨other, among, rfl⟩ := List.mem_map.mp member
      have keys : some (rules.key other) = which := of_decide_eq_true same
      rw [← here] at keys
      exact apart other among (Option.some.inj keys)
    rw [List.filter_cons_of_pos (by simp [here]), List.filter_append, none]
    simp [here]
  · rw [List.filter_cons_of_neg (by simp [here]), List.filter_append]
    simp [here]

theorem Alike.moves_sweep (sweep : Sweep) (later : List Deed) :
    rules.Alike (.inr sweep :: later.map .inl) (later.map .inl ++ [.inr sweep]) := by
  have none : (later.map (.inl : Deed → Deed ⊕ Sweep)).filter
      (fun entry => rules.about entry = Option.none) = [] := by
    rw [List.filter_eq_nil_iff]
    intro entry member same
    obtain ⟨other, _, rfl⟩ := List.mem_map.mp member
    exact Option.some_ne_none _ (of_decide_eq_true same)
  intro which
  cases which with
  | none =>
      rw [List.filter_cons_of_pos (by simp [about]), List.filter_append, none]
      simp [about]
  | some key =>
      rw [List.filter_cons_of_neg (by simp [about]), List.filter_append]
      simp [about]

theorem Serial.follow {start value after : Key → Value} {log : List (Deed ⊕ Sweep)}
    {later : List Deed} (serial : rules.Serial start log value)
    (follows : rules.Follows later value after) :
    rules.Serial start (log ++ later.map .inl) after := by
  induction follows with
  | nil => rwa [List.map_nil, List.append_nil]
  | snoc _ does ih =>
      rw [List.map_append, ← List.append_assoc]
      exact (ih serial).deed does

open Classical in
theorem update_piecewise {keys : Set Key} (changed value : Key → Value) {key : Key} (after : Value)
    (outside : key ∉ keys) :
    Function.update (keys.piecewise changed value) key after =
      keys.piecewise changed (Function.update value key after) := by
  funext other
  by_cases same : other = key
  · subst same
    rw [Function.update_self, Set.piecewise_eq_of_notMem _ _ _ outside, Function.update_self]
  · rw [Function.update_of_ne same]
    by_cases inside : other ∈ keys
    · rw [Set.piecewise_eq_of_mem _ _ _ inside, Set.piecewise_eq_of_mem _ _ _ inside]
    · rw [Set.piecewise_eq_of_notMem _ _ _ inside, Set.piecewise_eq_of_notMem _ _ _ inside,
        Function.update_of_ne same]

open Classical in
theorem Follows.change {later : List Deed} {first value : Key → Value}
    (follows : rules.Follows later first value) {keys : Set Key} (changed : Key → Value)
    (apart : ∀ deed ∈ later, rules.key deed ∉ keys) :
    rules.Follows later (keys.piecewise changed first) (keys.piecewise changed value) := by
  induction follows with
  | nil => exact .nil _
  | @snoc deeds first value deed after _ does ih =>
      have outside : rules.key deed ∉ keys := apart deed (by simp)
      have same : keys.piecewise changed value (rules.key deed) = value (rules.key deed) :=
        Set.piecewise_eq_of_notMem _ _ _ outside
      have before := ih fun other member => apart other (List.mem_append_left _ member)
      rw [← same] at does
      have next := before.snoc does
      rwa [update_piecewise changed value after outside] at next

variable (rules) in
/-- A sweep under way has behind it a run to the time it began, and then, for the keys it has
taken, itself and the deeds about them. -/
structure Halfway (start value : Key → Value) (told : List (Deed ⊕ Sweep)) (sweep : Sweep)
    (swept : Set Key) (log : List (Deed ⊕ Sweep)) (base : Key → Value) (later : List Deed)
    (middle current : Key → Value) : Prop where
  serial : rules.Serial start log base
  follows : rules.Follows later middle current
  inside : ∀ deed ∈ later, rules.key deed ∈ swept
  sweeps : ∀ key ∈ swept, rules.sweeps sweep (base key) (middle key)
  taken : ∀ key ∈ swept, value key = current key
  waiting : ∀ key ∉ swept, value key = base key
  alike : rules.Alike (log ++ later.map .inl) told

variable (rules) in
inductive Explained (start : Key → Value) : State Key Value Deed Sweep → Prop
  | settled {state : State Key Value Deed Sweep} {log : List (Deed ⊕ Sweep)} :
      state.sweeping = none → rules.Serial start log state.value → rules.Alike log state.log →
      Explained start state
  | halfway {state : State Key Value Deed Sweep} {sweep : Sweep} {swept : Set Key}
      {log : List (Deed ⊕ Sweep)} {base middle current : Key → Value} {later : List Deed} :
      state.sweeping = some (sweep, swept) →
      rules.Halfway start state.value state.log sweep swept log base later middle current →
      Explained start state

section Steps

variable {start value : Key → Value} {told : List (Deed ⊕ Sweep)} {sweep : Sweep}
  {swept : Set Key} {log : List (Deed ⊕ Sweep)} {base middle current : Key → Value}
  {later : List Deed}

namespace Halfway

variable (half : rules.Halfway start value told sweep swept log base later middle current)

include half

theorem deed_taken {deed : Deed} {after : Value} (behind : rules.key deed ∈ swept)
    (does : rules.does deed (value (rules.key deed)) after) :
    rules.Halfway start (Function.update value (rules.key deed) after) (told ++ [.inl deed]) sweep
      swept log base (later ++ [deed]) middle
      (Function.update current (rules.key deed) after) where
  serial := half.serial
  follows := by
    rw [half.taken _ behind] at does
    exact half.follows.snoc does
  inside := by
    intro other member
    rcases List.mem_append.mp member with old | new
    · exact half.inside other old
    · rw [List.mem_singleton.mp new]
      exact behind
  sweeps := half.sweeps
  taken := by
    intro key member
    by_cases same : key = rules.key deed
    · subst same
      rw [Function.update_self, Function.update_self]
    · rw [Function.update_of_ne same, Function.update_of_ne same, half.taken key member]
  waiting := by
    intro key missing
    have differs : key ≠ rules.key deed := fun same => missing (same ▸ behind)
    rw [Function.update_of_ne differs, half.waiting key missing]
  alike := by
    rw [List.map_append, ← List.append_assoc]
    exact half.alike.append (.refl _)

theorem deed_waiting {deed : Deed} {after : Value} (ahead : rules.key deed ∉ swept)
    (does : rules.does deed (value (rules.key deed)) after) :
    rules.Halfway start (Function.update value (rules.key deed) after) (told ++ [.inl deed]) sweep
      swept (log ++ [.inl deed]) (Function.update base (rules.key deed) after) later middle
      current where
  serial := by
    rw [half.waiting _ ahead] at does
    exact half.serial.deed does
  follows := half.follows
  inside := half.inside
  sweeps := by
    intro key member
    have differs : key ≠ rules.key deed := fun same => ahead (same ▸ member)
    rw [Function.update_of_ne differs]
    exact half.sweeps key member
  taken := by
    intro key member
    have differs : key ≠ rules.key deed := fun same => ahead (same ▸ member)
    rw [Function.update_of_ne differs, half.taken key member]
  waiting := by
    intro key missing
    by_cases same : key = rules.key deed
    · subst same
      rw [Function.update_self, Function.update_self]
    · rw [Function.update_of_ne same, Function.update_of_ne same, half.waiting key missing]
  alike := by
    have apart : ∀ other ∈ later, rules.key other ≠ rules.key deed :=
      fun other member same => ahead (same ▸ half.inside other member)
    have moved := (Alike.refl log).append (.moves apart)
    rw [List.append_assoc, List.singleton_append]
    apply moved.trans
    rw [← List.append_assoc]
    exact half.alike.append (.refl _)

open Classical in
theorem take {keys : Set Key} {after : Key → Value}
    (takes : ∀ key ∈ keys, key ∉ swept ∧ rules.sweeps sweep (value key) (after key))
    (leaves : ∀ key ∉ keys, after key = value key) :
    rules.Halfway start after told sweep (swept ∪ keys) log base later
      (keys.piecewise after middle) (keys.piecewise after current) where
  serial := half.serial
  follows := by
    apply half.follows.change
    intro deed member inside
    exact (takes _ inside).1 (half.inside deed member)
  inside := fun deed member => Or.inl (half.inside deed member)
  sweeps := by
    intro key member
    by_cases new : key ∈ keys
    · rw [Set.piecewise_eq_of_mem _ _ _ new, ← half.waiting key (takes key new).1]
      exact (takes key new).2
    · rw [Set.piecewise_eq_of_notMem _ _ _ new]
      exact half.sweeps key (member.resolve_right new)
  taken := by
    intro key member
    by_cases new : key ∈ keys
    · rw [Set.piecewise_eq_of_mem _ _ _ new]
    · rw [Set.piecewise_eq_of_notMem _ _ _ new, leaves key new]
      exact half.taken key (member.resolve_right new)
  waiting := by
    intro key missing
    have outside : key ∉ keys := fun new => missing (Or.inr new)
    rw [leaves key outside]
    exact half.waiting key fun old => missing (Or.inl old)
  alike := half.alike

theorem finish (all : swept = Set.univ) : ∃ final, rules.Serial start final value ∧
    rules.Alike final (told ++ [.inr sweep]) := by
  have everywhere : ∀ key, key ∈ swept := fun key => all ▸ Set.mem_univ key
  have serial : rules.Serial start (log ++ [.inr sweep]) middle :=
    half.serial.sweep fun key => half.sweeps key (everywhere key)
  have reached : value = current := funext fun key => half.taken key (everywhere key)
  refine ⟨_, reached ▸ serial.follow half.follows, ?_⟩
  rw [List.append_assoc, List.singleton_append]
  apply ((Alike.refl log).append (.moves_sweep sweep later)).trans
  rw [← List.append_assoc]
  exact half.alike.append (.refl _)

end Halfway

theorem Explained.step {before after : State Key Value Deed Sweep}
    (explained : rules.Explained start before) (taken : rules.Step before after) :
    rules.Explained start after := by
  cases taken with
  | @deed deed _ does =>
      cases explained with
      | settled idle serial alike => exact .settled idle (serial.deed does) (alike.append (.refl _))
      | @halfway sweep swept log base middle current later busy half =>
          by_cases behind : rules.key deed ∈ swept
          · exact .halfway busy (half.deed_taken behind does)
          · exact .halfway busy (half.deed_waiting behind does)
  | begins sweep idle =>
      cases explained with
      | settled _ serial alike =>
          have half : rules.Halfway start before.value before.log sweep ∅ _ before.value []
              before.value before.value :=
            ⟨serial, .nil _, nofun, nofun, nofun, fun _ _ => rfl, by
              rwa [List.map_nil, List.append_nil]⟩
          exact .halfway rfl half
      | halfway busy _ =>
          rw [idle] at busy
          cases busy
  | sweeps busy takes leaves =>
      cases explained with
      | settled idle _ _ =>
          rw [idle] at busy
          cases busy
      | halfway busy' half =>
          rw [busy] at busy'
          cases busy'
          exact .halfway rfl (half.take takes leaves)
  | ends busy =>
      cases explained with
      | settled idle _ _ =>
          rw [idle] at busy
          cases busy
      | halfway busy' half =>
          rw [busy] at busy'
          cases busy'
          obtain ⟨final, serial, alike⟩ := half.finish rfl
          exact .settled rfl serial alike

/-- Every run is explained by one in which the sweeps are single steps. -/
theorem explained_of_reached {state : State Key Value Deed Sweep}
    (reached : Relation.ReflTransGen rules.Step ⟨start, none, []⟩ state) :
    rules.Explained start state := by
  induction reached with
  | refl => exact .settled rfl .start (.refl _)
  | tail _ taken ih => exact ih.step taken

/-- Between two sweeps the store is one that a run with single sweeps reaches, and the logs of
the two runs are alike. -/
theorem serializable {state : State Key Value Deed Sweep}
    (reached : Relation.ReflTransGen rules.Step ⟨start, none, []⟩ state)
    (idle : state.sweeping = none) :
    ∃ log, rules.Serial start log state.value ∧ rules.Alike log state.log := by
  cases explained_of_reached reached with
  | settled _ serial alike => exact ⟨_, serial, alike⟩
  | halfway busy _ =>
      rw [idle] at busy
      cases busy

end Steps

end Rules

end Foundation.Sweeps
