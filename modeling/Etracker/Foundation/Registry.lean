import Etracker.Foundation.Keyed
import Mathlib.Algebra.BigOperators.Group.Finset.Piecewise
import Mathlib.Algebra.Order.Group.Multiset
import Mathlib.Data.Fintype.Card
import Mathlib.Tactic.Abel

/-! Registries of handles that a system hands out again once they are released.

A table says who owns each handle. Each of several places registers handles, and with
each one the owner that it was registered for. A handle is released first and taken off
the place's entries later, so that it may get a new owner while it is still entered. -/

namespace Foundation

open Keyed

structure Registry (Handle Owner Place : Type) where
  table : Handle → Option Owner
  entries : Place → List (Handle × Owner)
  /-- Released from the place and still entered there. -/
  leaving : Place → Option Handle
  /-- Handed out and not yet entered. -/
  pending : Option (Handle × Owner × Place)
  entered : List Owner
  /-- The owner a handle was registered for, and the one it had when it was released. -/
  released : List (Owner × Option Owner)

namespace Registry

variable {Handle Owner Place : Type}

def empty : Registry Handle Owner Place := ⟨fun _ => none, fun _ => [], fun _ => none, none, [], []⟩

section Live

variable [DecidableEq Handle]

def staying (leaving : Option Handle) (entries : List (Handle × Owner)) : List (Handle × Owner) :=
  entries.filter fun entry => leaving ≠ some entry.1

def live (registry : Registry Handle Owner Place) (place : Place) : List (Handle × Owner) :=
  staying (registry.leaving place) (registry.entries place)

def owners (registry : Registry Handle Owner Place) (place : Place) : Multiset Owner :=
  ((registry.live place).map Prod.snd : List Owner)

theorem mem_live {registry : Registry Handle Owner Place} {place : Place} {entry : Handle × Owner} :
    entry ∈ registry.live place ↔
      entry ∈ registry.entries place ∧ registry.leaving place ≠ some entry.1 := by
  simp [live, staying]

@[simp] theorem staying_none (entries : List (Handle × Owner)) : staying none entries = entries := by
  simp [staying]

theorem staying_some (handle : Handle) (entries : List (Handle × Owner)) :
    staying (some handle) entries = entries.filter fun entry => entry.1 ≠ handle := by
  simp [staying, eq_comm]

theorem live_of_stays {registry : Registry Handle Owner Place} {place : Place}
    (stays : registry.leaving place = none) : registry.live place = registry.entries place := by
  rw [live, stays, staying_none]

end Live

section Change

variable [DecidableEq Handle] [DecidableEq Place] (registry : Registry Handle Owner Place)

def acquire (handle : Handle) (owner : Owner) (pending : Option (Handle × Owner × Place)) :
    Registry Handle Owner Place :=
  { registry with
    table := Function.update registry.table handle (some owner)
    pending := pending }

def enter (handle : Handle) (owner : Owner) (place : Place) : Registry Handle Owner Place :=
  { registry with
    entries := Function.update registry.entries place (registry.entries place ++ [(handle, owner)])
    pending := none
    entered := owner :: registry.entered }

def release (place : Place) (entry : Handle × Owner) : Registry Handle Owner Place :=
  { registry with
    table := Function.update registry.table entry.1 none
    leaving := Function.update registry.leaving place (some entry.1)
    released := (entry.2, registry.table entry.1) :: registry.released }

def remove (place : Place) (handle : Handle) : Registry Handle Owner Place :=
  { registry with
    entries := Function.update registry.entries place
      ((registry.entries place).filter fun entry => entry.1 ≠ handle)
    leaving := Function.update registry.leaving place none }

/-- What may happen to a registry. An owner that is handed a handle is a new one. -/
inductive Step : Registry Handle Owner Place → Registry Handle Owner Place → Prop
  | acquire {registry : Registry Handle Owner Place} {handle : Handle} {owner : Owner}
      {place : Place} : registry.pending = none → registry.table handle = none →
      owner ∉ registry.entered → (∀ other, registry.table other ≠ some owner) →
      Step registry (registry.acquire handle owner (some (handle, owner, place)))
  | forget {registry : Registry Handle Owner Place} {handle : Handle} {owner : Owner} :
      registry.pending = none → registry.table handle = none → owner ∉ registry.entered →
      (∀ other, registry.table other ≠ some owner) →
      Step registry (registry.acquire handle owner none)
  | enter {registry : Registry Handle Owner Place} {handle : Handle} {owner : Owner}
      {place : Place} : registry.pending = some (handle, owner, place) →
      registry.leaving place ≠ some handle → Step registry (registry.enter handle owner place)
  | release {registry : Registry Handle Owner Place} {place : Place} {entry : Handle × Owner} :
      entry ∈ registry.entries place → registry.leaving place = none →
      Step registry (registry.release place entry)
  | remove {registry : Registry Handle Owner Place} {place : Place} {handle : Handle} :
      registry.leaving place = some handle → Step registry (registry.remove place handle)

variable {registry : Registry Handle Owner Place}

theorem enter_live {handle : Handle} (owner : Owner) {place : Place}
    (stays : registry.leaving place ≠ some handle) :
    (registry.enter handle owner place).live =
      Function.update registry.live place (registry.live place ++ [(handle, owner)]) := by
  funext other
  by_cases same : other = place
  · subst same
    have kept : staying (registry.leaving other) [(handle, owner)] = [(handle, owner)] := by
      simp [staying, stays]
    simp only [live, enter, Function.update_self]
    rw [staying, List.filter_append]
    exact congrArg (staying (registry.leaving other) (registry.entries other) ++ ·) kept
  · simp only [live, enter, Function.update_of_ne same]

theorem release_live (entry : Handle × Owner) {place : Place}
    (stays : registry.leaving place = none) :
    (registry.release place entry).live = Function.update registry.live place
      ((registry.live place).filter fun other => other.1 ≠ entry.1) := by
  funext other
  by_cases same : other = place
  · subst same
    simp only [live, release, Function.update_self, stays, staying_none, staying_some]
  · simp only [live, release, Function.update_of_ne same]

theorem remove_live {handle : Handle} {place : Place}
    (leaves : registry.leaving place = some handle) :
    (registry.remove place handle).live = registry.live := by
  funext other
  by_cases same : other = place
  · subst same
    simp only [live, remove, Function.update_self, leaves, staying_none, staying_some]
  · simp only [live, remove, Function.update_of_ne same]

theorem owners_of_live {changed : Registry Handle Owner Place} {place : Place}
    {entries : List (Handle × Owner)}
    (live : changed.live = Function.update registry.live place entries) :
    changed.owners = Function.update registry.owners place
      ((entries.map Prod.snd : List Owner) : Multiset Owner) := by
  funext other
  by_cases same : other = place
  · subst same
    simp [owners, live]
  · simp [owners, live, Function.update_of_ne same]

end Change

variable [DecidableEq Handle]

/-- The entries name the owners of their handles, no handle is entered twice, and every
owner that was ever entered is entered or released. -/
structure Sound [Fintype Place] (registry : Registry Handle Owner Place) : Prop where
  single : ∀ handle other owner, registry.table handle = some owner →
    registry.table other = some owner → handle = other
  named : ∀ place, ∀ entry ∈ registry.live place, registry.table entry.1 = some entry.2
  keyed : ∀ place, ((registry.live place).map Prod.fst).Nodup
  apart : ∀ place other, place ≠ other → ∀ entry ∈ registry.live place,
    ∀ entry' ∈ registry.live other, entry.1 ≠ entry'.1
  pending : ∀ handle owner place, registry.pending = some (handle, owner, place) →
    registry.table handle = some owner ∧ owner ∉ registry.entered
  distinct : registry.entered.Nodup
  books : (registry.entered : Multiset Owner) =
    (registry.released.map Prod.fst : List Owner) + ∑ place, registry.owners place
  own : ∀ release ∈ registry.released, release.2 = some release.1

variable {registry : Registry Handle Owner Place}

variable [Fintype Place]

theorem sound_empty : (empty : Registry Handle Owner Place).Sound where
  single _ _ _ owned _ := nomatch owned
  named _ _ member := nomatch member
  keyed _ := List.nodup_nil
  apart _ _ _ _ member := nomatch member
  pending _ _ _ pending := nomatch pending
  distinct := List.nodup_nil
  books := by simp [empty, owners, live]
  own _ member := nomatch member

namespace Sound

theorem mem_entered (sound : registry.Sound) {place : Place} {entry : Handle × Owner}
    (member : entry ∈ registry.live place) : entry.2 ∈ registry.entered := by
  have counted : entry.2 ∈ ∑ place, registry.owners place := by
    rw [Multiset.mem_sum]
    exact ⟨place, Finset.mem_univ _, List.mem_map_of_mem member⟩
  have booked : entry.2 ∈ (registry.entered : Multiset Owner) := by
    rw [sound.books]
    exact Multiset.mem_add.mpr (Or.inr counted)
  exact booked

theorem unentered (sound : registry.Sound) {handle : Handle} {owner : Owner} {place : Place}
    (waits : registry.pending = some (handle, owner, place)) {other : Place}
    {entry : Handle × Owner} (member : entry ∈ registry.live other) : entry.1 ≠ handle := by
  intro same
  obtain ⟨owned, new⟩ := sound.pending _ _ _ waits
  have named := sound.named _ _ member
  rw [same, owned] at named
  exact new (Option.some.inj named ▸ sound.mem_entered member)

theorem unique (sound : registry.Sound) {place other : Place} {entry entry' : Handle × Owner}
    (member : entry ∈ registry.live place) (member' : entry' ∈ registry.live other)
    (same : entry.1 = entry'.1) : place = other ∧ entry = entry' := by
  have places : place = other := by
    by_contra differ
    exact sound.apart _ _ differ _ member _ member' same
  have named := sound.named _ _ member
  rw [same, sound.named _ _ member'] at named
  exact ⟨places, Prod.ext same (Option.some.inj named).symm⟩

theorem acquire (sound : registry.Sound) {handle : Handle} {owner : Owner}
    {pending : Option (Handle × Owner × Place)} (free : registry.table handle = none)
    (new : owner ∉ registry.entered) (unowned : ∀ other, registry.table other ≠ some owner)
    (waits : ∀ waiting, pending = some waiting → waiting.1 = handle ∧ waiting.2.1 = owner) :
    (registry.acquire handle owner pending).Sound where
  single first second shared owned owned' := by
    simp only [Registry.acquire, Function.update_apply] at owned owned'
    split_ifs at owned owned' with atFirst atSecond atSecond
    · rw [atFirst, atSecond]
    · exact absurd (owned'.trans owned.symm) (unowned second)
    · exact absurd (owned.trans owned'.symm) (unowned first)
    · exact sound.single _ _ _ owned owned'
  named place entry member := by
    have named := sound.named place entry member
    have other : entry.1 ≠ handle := by
      intro same
      rw [same, free] at named
      exact nomatch named
    simpa [Registry.acquire, Function.update_of_ne other] using named
  keyed := sound.keyed
  apart := sound.apart
  pending first second place holds := by
    obtain ⟨rfl, rfl⟩ := waits _ holds
    exact ⟨Function.update_self _ _ _, new⟩
  distinct := sound.distinct
  books := sound.books
  own := sound.own

/-- Whatever was entered is live or has been released once. -/
theorem accounted [DecidableEq Owner] (sound : registry.Sound) {owner : Owner}
    (entered : owner ∈ registry.entered) :
    (registry.released.map Prod.fst).count owner = 0 ∧
        (∃ place, ∃ entry ∈ registry.live place, entry.2 = owner) ∨
      (registry.released.map Prod.fst).count owner = 1 ∧
        ¬∃ place, ∃ entry ∈ registry.live place, entry.2 = owner := by
  have distinct : (registry.entered : Multiset Owner).Nodup := sound.distinct
  have booked : owner ∈ (registry.entered : Multiset Owner) := entered
  rw [sound.books] at distinct booked
  obtain ⟨once, _, disjoint⟩ := Multiset.nodup_add.mp distinct
  have listed : owner ∈ ∑ place, registry.owners place ↔
      ∃ place, ∃ entry ∈ registry.live place, entry.2 = owner := by
    simp only [Multiset.mem_sum, Finset.mem_univ, true_and, owners, Multiset.mem_coe, List.mem_map]
  by_cases released : owner ∈ registry.released.map Prod.fst
  · refine Or.inr ⟨List.count_eq_one_of_mem once released, ?_⟩
    rw [← listed]
    exact Multiset.disjoint_left.mp disjoint released
  · refine Or.inl ⟨List.count_eq_zero_of_not_mem released, ?_⟩
    rw [← listed]
    exact (Multiset.mem_add.mp booked).resolve_left released

theorem length_entered (sound : registry.Sound) :
    registry.entered.length =
      registry.released.length + ∑ place, (registry.live place).length := by
  have sizes := congrArg Multiset.card sound.books
  simpa [owners] using sizes

theorem sum_length_live_le [Fintype Handle] (sound : registry.Sound) :
    ∑ place, (registry.live place).length ≤ Fintype.card Handle := by
  have sizes : ∀ place, (registry.live place).length =
      ((registry.live place).map Prod.fst).toFinset.card := by
    intro place
    rw [List.toFinset_card_of_nodup (sound.keyed place), List.length_map]
  have disjoint : (↑(Finset.univ : Finset Place) : Set Place).PairwiseDisjoint fun place =>
      ((registry.live place).map Prod.fst).toFinset := by
    intro place _ other _ differ
    rw [Function.onFun, Finset.disjoint_left]
    intro handle here there
    obtain ⟨entry, member, rfl⟩ := List.mem_map.mp (List.mem_toFinset.mp here)
    obtain ⟨entry', member', same⟩ := List.mem_map.mp (List.mem_toFinset.mp there)
    exact sound.apart _ _ differ _ member _ member' same.symm
  calc ∑ place, (registry.live place).length
      = (Finset.univ.biUnion fun place =>
          ((registry.live place).map Prod.fst).toFinset).card := by
        rw [Finset.card_biUnion disjoint]
        exact Finset.sum_congr rfl fun place _ => sizes place
    _ ≤ Fintype.card Handle := Finset.card_le_univ _

end Sound

variable [DecidableEq Place]

theorem sum_update (amounts : Place → Multiset Owner) (place : Place)
    (amount : Multiset Owner) :
    ∑ other, Function.update amounts place amount other + amounts place =
      amount + ∑ other, amounts other := by
  rw [Finset.sum_update_of_mem (Finset.mem_univ place),
    Finset.sum_eq_sum_sdiff_singleton_add (Finset.mem_univ place) amounts, add_assoc]

namespace Sound

theorem enter (sound : registry.Sound) {handle : Handle} {owner : Owner} {place : Place}
    (waits : registry.pending = some (handle, owner, place))
    (stays : registry.leaving place ≠ some handle) :
    (registry.enter handle owner place).Sound := by
  obtain ⟨owned, new⟩ := sound.pending _ _ _ waits
  have live := enter_live owner stays
  have members : ∀ other entry, entry ∈ (registry.enter handle owner place).live other →
      entry ∈ registry.live other ∨ other = place ∧ entry = (handle, owner) := by
    intro other entry member
    rw [live] at member
    by_cases same : other = place
    · subst same
      rw [Function.update_self, List.mem_append, List.mem_singleton] at member
      exact member.imp_right fun equal => ⟨rfl, equal⟩
    · rw [Function.update_of_ne same] at member
      exact Or.inl member
  refine ⟨sound.single, ?_, ?_, ?_, nofun, List.nodup_cons.mpr ⟨new, sound.distinct⟩, ?_, sound.own⟩
  · intro other entry member
    rcases members _ _ member with old | ⟨_, rfl⟩
    · exact sound.named _ _ old
    · exact owned
  · intro other
    rw [live]
    by_cases same : other = place
    · subst same
      rw [Function.update_self, List.map_append, List.nodup_append]
      refine ⟨sound.keyed _, List.nodup_singleton _, ?_⟩
      intro first inOld second inNew
      obtain ⟨entry, member, rfl⟩ := List.mem_map.mp inOld
      rw [List.map_singleton, List.mem_singleton] at inNew
      rw [inNew]
      exact sound.unentered waits member
    · rw [Function.update_of_ne same]
      exact sound.keyed _
  · intro first second differ entry member entry' member'
    rcases members _ _ member with old | ⟨rfl, rfl⟩
    · rcases members _ _ member' with old' | ⟨rfl, rfl⟩
      · exact sound.apart _ _ differ _ old _ old'
      · exact sound.unentered waits old
    · rcases members _ _ member' with old' | ⟨same, _⟩
      · exact (sound.unentered waits old').symm
      · exact absurd same.symm differ
  · have sums := sum_update registry.owners place
      (((registry.live place ++ [(handle, owner)]).map Prod.snd : List Owner) : Multiset Owner)
    rw [← owners_of_live live] at sums
    have total : ∑ other, (registry.enter handle owner place).owners other =
        {owner} + ∑ other, registry.owners other := by
      refine add_right_cancel (sums.trans ?_)
      rw [List.map_append, ← Multiset.coe_add]
      show registry.owners place + {owner} + _ = _
      abel
    rw [total]
    show (owner ::ₘ (registry.entered : Multiset Owner)) = _
    rw [sound.books, ← Multiset.singleton_add]
    show _ = ((registry.released.map Prod.fst : List Owner) : Multiset Owner) + _
    abel

theorem release (sound : registry.Sound) {place : Place} {entry : Handle × Owner}
    (member : entry ∈ registry.entries place) (stays : registry.leaving place = none) :
    (registry.release place entry).Sound := by
  have live := release_live entry stays
  have alive : entry ∈ registry.live place := by
    rw [live_of_stays stays]
    exact member
  have named := sound.named _ _ alive
  -- What is live afterwards was live before, for another handle.
  have members : ∀ other entry', entry' ∈ (registry.release place entry).live other →
      entry' ∈ registry.live other ∧ entry'.1 ≠ entry.1 := by
    intro other entry' member'
    rw [live] at member'
    by_cases same : other = place
    · subst same
      rw [Function.update_self, List.mem_filter] at member'
      exact ⟨member'.1, of_decide_eq_true member'.2⟩
    · rw [Function.update_of_ne same] at member'
      exact ⟨member', sound.apart _ _ same _ member' _ alive⟩
  refine ⟨?_, ?_, ?_, ?_, ?_, sound.distinct, ?_, ?_⟩
  · intro first second shared owned owned'
    simp only [Registry.release, Function.update_apply] at owned owned'
    split_ifs at owned owned'
    exact sound.single _ _ _ owned owned'
  · intro other entry' member'
    obtain ⟨old, differs⟩ := members _ _ member'
    simpa [Registry.release, Function.update_of_ne differs] using sound.named _ _ old
  · intro other
    rw [live]
    by_cases same : other = place
    · subst same
      rw [Function.update_self]
      exact ((List.filter_sublist).map Prod.fst).nodup (sound.keyed _)
    · rw [Function.update_of_ne same]
      exact sound.keyed _
  · intro first second differ stored member' stored' member''
    exact sound.apart _ _ differ _ (members _ _ member').1 _ (members _ _ member'').1
  · intro handle owner other waits
    obtain ⟨owned, new⟩ := sound.pending _ _ _ waits
    have differs : handle ≠ entry.1 := (sound.unentered waits alive).symm
    exact ⟨by simpa [Registry.release, Function.update_of_ne differs] using owned, new⟩
  · have sums := sum_update registry.owners place
      ((((registry.live place).filter fun other => other.1 ≠ entry.1).map Prod.snd : List Owner) :
        Multiset Owner)
    rw [← owners_of_live live] at sums
    have others : (((registry.live place).filter fun other => other.1 ≠ entry.1).map Prod.snd :
        List Owner) + ({entry.2} : Multiset Owner) = registry.owners place := by
      have perm := perm_filter_remove (sound.keyed place) alive
      rw [owners, Multiset.coe_eq_coe.mpr (perm.map Prod.snd), List.map_cons, ← Multiset.cons_coe,
        ← Multiset.singleton_add, add_comm]
    have total : ∑ other, (registry.release place entry).owners other + {entry.2} =
        ∑ other, registry.owners other := by
      have swapped := congrArg (· + {entry.2}) sums
      refine add_right_cancel (b := registry.owners place) ?_
      rw [add_right_comm, sums, add_right_comm, others, add_comm]
    show (registry.entered : Multiset Owner) =
      (entry.2 ::ₘ ((registry.released.map Prod.fst : List Owner) : Multiset Owner)) + _
    rw [sound.books, ← total, ← Multiset.singleton_add]
    abel
  · intro released logged
    rcases List.mem_cons.mp logged with rfl | old
    · exact named
    · exact sound.own _ old

theorem remove (sound : registry.Sound) {place : Place} {handle : Handle}
    (leaves : registry.leaving place = some handle) : (registry.remove place handle).Sound := by
  have live := remove_live leaves
  have owners : (registry.remove place handle).owners = registry.owners := by
    funext other
    rw [Registry.owners, Registry.owners, live]
  refine ⟨sound.single, ?_, ?_, ?_, sound.pending, sound.distinct, ?_, sound.own⟩
  · rw [live]
    exact sound.named
  · rw [live]
    exact sound.keyed
  · rw [live]
    exact sound.apart
  · rw [owners]
    exact sound.books

theorem step (sound : registry.Sound) {changed : Registry Handle Owner Place}
    (taken : Step registry changed) : changed.Sound := by
  cases taken with
  | acquire _ free new unowned =>
      apply sound.acquire free new unowned
      intro waiting same
      cases same
      exact ⟨rfl, rfl⟩
  | forget _ free new unowned => exact sound.acquire free new unowned nofun
  | enter waits stays => exact sound.enter waits stays
  | release member stays => exact sound.release member stays
  | remove leaves => exact sound.remove leaves

end Sound

end Registry

end Foundation
