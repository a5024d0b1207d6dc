import Mathlib.Data.List.Nodup
import Mathlib.Data.List.Perm.Basic
import Mathlib.Logic.Function.Basic

namespace Foundation.Keyed

variable {Key Element : Type} [DecidableEq Key] (key : Element → Key)

def findKey (elements : List Element) (wanted : Key) : Option Element :=
  elements.find? fun element => key element = wanted

variable {key}

theorem findKey_eq_none_iff {elements : List Element} {wanted : Key} :
    findKey key elements wanted = none ↔ ∀ element ∈ elements, key element ≠ wanted := by
  simp [findKey]

theorem findKey_mem {elements : List Element} {wanted : Key} {element : Element}
    (found : findKey key elements wanted = some element) :
    element ∈ elements ∧ key element = wanted :=
  ⟨List.mem_of_find?_eq_some found, by simpa using List.find?_some found⟩

theorem findKey_eq_some_iff {elements : List Element} (distinct : (elements.map key).Nodup)
    {wanted : Key} {element : Element} :
    findKey key elements wanted = some element ↔ element ∈ elements ∧ key element = wanted := by
  constructor
  · exact findKey_mem
  · rintro ⟨member, same⟩
    cases found : findKey key elements wanted with
    | none => exact absurd same (findKey_eq_none_iff.mp found element member)
    | some other =>
        obtain ⟨otherMember, otherSame⟩ := findKey_mem found
        rw [List.inj_on_of_nodup_map distinct otherMember member (otherSame.trans same.symm)]

theorem findKey_insert {front back : List Element} {element : Element}
    (distinct : ((front ++ element :: back).map key).Nodup) :
    findKey key (front ++ element :: back) =
      Function.update (findKey key (front ++ back)) (key element) (some element) := by
  have parts := distinct
  rw [List.map_append, List.map_cons, List.nodup_middle, ← List.map_append] at parts
  obtain ⟨_, rest⟩ := List.nodup_cons.mp parts
  funext wanted
  apply Option.ext
  intro other
  rw [findKey_eq_some_iff distinct]
  by_cases here : wanted = key element
  · subst here
    rw [Function.update_self]
    constructor
    · rintro ⟨member, same⟩
      have member' : element ∈ front ++ element :: back := by simp
      rw [List.inj_on_of_nodup_map distinct member member' same]
    · intro same
      cases same
      simp
  · rw [Function.update_of_ne here, findKey_eq_some_iff rest]
    simp only [List.mem_append, List.mem_cons]
    constructor
    · rintro ⟨left | rfl | right, same⟩
      · exact ⟨Or.inl left, same⟩
      · exact absurd same.symm here
      · exact ⟨Or.inr right, same⟩
    · rintro ⟨left | right, same⟩
      · exact ⟨Or.inl left, same⟩
      · exact ⟨Or.inr (Or.inr right), same⟩

theorem findKey_remove {front back : List Element} {element : Element}
    (distinct : ((front ++ element :: back).map key).Nodup) :
    findKey key (front ++ back) =
      Function.update (findKey key (front ++ element :: back)) (key element) none := by
  rw [findKey_insert distinct, Function.update_idem]
  have parts := distinct
  rw [List.map_append, List.map_cons, List.nodup_middle, ← List.map_append] at parts
  have absent : findKey key (front ++ back) (key element) = none := by
    apply findKey_eq_none_iff.mpr
    intro other member same
    exact (List.nodup_cons.mp parts).1 (same ▸ List.mem_map_of_mem member)
  rw [← absent, Function.update_eq_self]

theorem filter_remove {front back : List Element} {element : Element}
    (distinct : ((front ++ element :: back).map key).Nodup) :
    (front ++ element :: back).filter (fun other => key other ≠ key element) = front ++ back := by
  have parts := distinct
  rw [List.map_append, List.map_cons, List.nodup_middle, ← List.map_append] at parts
  have kept : ∀ other ∈ front ++ back, key other ≠ key element := by
    intro other member same
    exact (List.nodup_cons.mp parts).1 (same ▸ List.mem_map_of_mem member)
  rw [List.filter_append, List.filter_cons_of_neg (by simp), ← List.filter_append]
  apply List.filter_eq_self.mpr
  intro other member
  exact decide_eq_true (kept other member)

theorem perm_filter_remove {elements : List Element} (distinct : (elements.map key).Nodup)
    {element : Element} (member : element ∈ elements) :
    elements.Perm (element :: elements.filter fun other => key other ≠ key element) := by
  obtain ⟨front, back, rfl⟩ := List.append_of_mem member
  rw [filter_remove distinct]
  exact List.perm_middle

/-- Changes that each element makes at its own key happen once at each key. -/
theorem foldl_pointwise {Value : Type} {change : Element → Value → Value} {elements : List Element}
    (distinct : (elements.map key).Nodup) (view : Key → Value) (wanted : Key) :
    elements.foldl (fun view element other =>
        if key element = other then change element (view other) else view other) view wanted =
      (findKey key elements wanted).elim (view wanted) fun element =>
        change element (view wanted) := by
  induction elements generalizing view with
  | nil => rfl
  | cons element rest ih =>
      obtain ⟨fresh, apart⟩ := List.nodup_cons.mp distinct
      rw [List.foldl_cons, ih apart]
      by_cases here : key element = wanted
      · have absent : findKey key rest wanted = none := by
          apply findKey_eq_none_iff.mpr
          intro other member same
          exact fresh (List.mem_map.mpr ⟨other, member, same.trans here.symm⟩)
        rw [absent, if_pos here, findKey, List.find?_cons_of_pos (by simp [here])]
        rfl
      · rw [if_neg here, findKey, findKey, List.find?_cons_of_neg (by simp [here])]

end Foundation.Keyed
