import Mathlib.Data.List.Nodup
import Mathlib.Logic.Function.Basic

namespace Foundation.Splice

variable {Index Element : Type}

theorem flatMap_update [DecidableEq Index] (indices : List Index) (distinct : indices.Nodup)
    (part : Index → List Element) (index : Index) (member : index ∈ indices) :
    ∃ front back, ∀ replacement,
      indices.flatMap (Function.update part index replacement) = front ++ replacement ++ back := by
  obtain ⟨before, behind, rfl⟩ := List.append_of_mem member
  refine ⟨before.flatMap part, behind.flatMap part, ?_⟩
  intro replacement
  have apart : index ∉ before ++ behind := by
    rw [List.nodup_middle] at distinct
    exact (List.nodup_cons.mp distinct).1
  have agree (others : List Index) (outside : index ∉ others) :
      others.flatMap (Function.update part index replacement) = others.flatMap part := by
    apply List.flatMap_congr
    intro other inside
    exact Function.update_of_ne (ne_of_mem_of_not_mem inside outside) _ _
  rw [List.mem_append, not_or] at apart
  simp [List.flatMap_append, agree before apart.1, agree behind apart.2]

end Foundation.Splice
