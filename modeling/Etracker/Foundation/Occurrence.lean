import Etracker.Foundation.CString
import Mathlib.Data.List.Infix

namespace Foundation.CString

/-- An occurrence does not lie across a letter that it does not have. -/
theorem prefix_of_letter {α : Type} {needle before rest : List α} {letter : α}
    (lacks : letter ∉ needle) (starts : needle <+: before ++ letter :: rest) :
    needle <+: before := by
  induction before generalizing needle with
  | nil =>
      cases needle with
      | nil => exact List.prefix_rfl
      | cons first others =>
          have same := (List.cons_prefix_cons.mp starts).1
          exact absurd (same ▸ List.mem_cons_self) lacks
  | cons head tail ih =>
      cases needle with
      | nil => exact List.nil_prefix
      | cons first others =>
          obtain ⟨same, starts'⟩ := List.cons_prefix_cons.mp starts
          rw [same, List.prefix_cons_inj]
          exact ih (fun member => lacks (List.mem_cons_of_mem _ member)) starts'

section Occurrence

variable {needle front rest : List UInt8} {letter : UInt8}

theorem strstr_starts (starts : needle <+: front) : strstr front needle = some 0 := by
  have starts' := List.isPrefixOf_iff_prefix.mpr starts
  cases front with
  | nil =>
      rw [List.prefix_nil.mp starts]
      rfl
  | cons first others => rw [strstr, if_pos starts']

theorem strstr_skip
    (absent : ∀ suffix, suffix ≠ [] → suffix <:+ front → ¬needle <+: suffix ++ rest) :
    strstr (front ++ rest) needle = (strstr rest needle).map (· + front.length) := by
  induction front with
  | nil => simp
  | cons first others ih =>
      have notHere := absent (first :: others) (List.cons_ne_nil _ _) List.suffix_rfl
      rw [List.cons_append] at notHere ⊢
      rw [strstr, if_neg (mt List.isPrefixOf_iff_prefix.mp notHere), ih, Option.map_map]
      · rfl
      · intro suffix occupied behind
        exact absent suffix occupied (behind.trans (List.suffix_cons _ _))

theorem strstr_infix_ne_none (inside : needle <:+: front) : strstr front needle ≠ none := by
  obtain ⟨before, after, rfl⟩ := inside
  rw [List.append_assoc]
  exact strstr_append_ne_none before needle after

theorem strstr_piece (lacks : letter ∉ needle)
    (absent : ¬needle <:+: front) :
    strstr (front ++ letter :: rest) needle = (strstr rest needle).map (· + (front.length + 1)) := by
  rw [List.append_cons, strstr_skip, List.length_append, List.length_singleton]
  intro suffix _ behind starts
  rcases List.suffix_concat_iff.mp behind with rfl | ⟨piece, rfl, behind'⟩
  · contradiction
  · rw [List.append_assoc, List.singleton_append] at starts
    exact absent ((prefix_of_letter lacks starts).isInfix.trans behind'.isInfix)

theorem strstr_letter (lacks : letter ∉ front) (rest : List UInt8) :
    strstr (front ++ letter :: rest) [letter] = some front.length := by
  rw [strstr_skip, strstr_starts (List.cons_prefix_cons.mpr ⟨rfl, List.nil_prefix⟩)]
  · exact congrArg some (Nat.zero_add _)
  · intro suffix occupied behind starts
    cases suffix with
    | nil => exact occupied rfl
    | cons first others =>
        have same := (List.cons_prefix_cons.mp starts).1
        exact lacks (behind.subset (same ▸ List.mem_cons_self))

theorem strstr_letter_eq_none_iff {text : List UInt8} : strstr text [letter] = none ↔ letter ∉ text := by
  constructor
  · intro missing member
    exact strstr_infix_ne_none ((List.singleton_infix_iff letter text).mpr member) missing
  · intro lacks
    cases found : strstr text [letter] with
    | none => rfl
    | some offset => exact absurd ((List.singleton_infix_iff letter text).mp (infix_of_strstr found)) lacks

end Occurrence

section Lines

def crlf : List UInt8 := [13, 10]

def blank : List UInt8 := crlf ++ crlf

variable {line rest : List UInt8}

theorem not_crlf_starts (whole : ¬crlf <:+: line) {suffix : List UInt8} (occupied : suffix ≠ [])
    (behind : suffix <:+ line) : ¬crlf <+: suffix ++ (crlf ++ rest) := by
  intro starts
  cases suffix with
  | nil => exact occupied rfl
  | cons first others =>
      cases others with
      | nil =>
          have second := (List.cons_prefix_cons.mp (List.cons_prefix_cons.mp starts).2).1
          exact absurd second (by decide)
      | cons second others =>
          obtain ⟨isFirst, starts'⟩ := List.cons_prefix_cons.mp starts
          have isSecond := (List.cons_prefix_cons.mp starts').1
          subst isFirst isSecond
          exact whole (List.IsInfix.trans ⟨[], others, rfl⟩ behind.isInfix)

theorem strstr_crlf (whole : ¬crlf <:+: line) (rest : List UInt8) :
    strstr (line ++ (crlf ++ rest)) crlf = some line.length := by
  rw [strstr_skip, strstr_starts (List.prefix_append _ _)]
  · exact congrArg some (Nat.zero_add _)
  · intro suffix occupied behind
    exact not_crlf_starts whole occupied behind

theorem strstr_line {needle : List UInt8} (noReturn : 13 ∉ needle) (noFeed : 10 ∉ needle)
    (absent : ¬needle <:+: line) (rest : List UInt8) :
    strstr (line ++ (crlf ++ rest)) needle =
      (strstr rest needle).map (· + (line.length + crlf.length)) := by
  have nowhere : ¬needle <:+: [] := fun inside => absent (inside.trans (List.nil_infix))
  have feed : strstr ([] ++ 10 :: rest) needle = (strstr rest needle).map (· + 1) :=
    strstr_piece noFeed nowhere
  rw [List.nil_append] at feed
  have whole : strstr (line ++ 13 :: 10 :: rest) needle = _ := strstr_piece noReturn absent
  rw [feed, Option.map_map] at whole
  refine whole.trans (congrArg (Option.map · _) ?_)
  funext offset
  simp only [Function.comp, crlf, List.length_cons, List.length_nil]
  omega

theorem strstr_blank (whole : ¬crlf <:+: line) (follows : ¬crlf <+: rest) :
    strstr (line ++ (crlf ++ rest)) blank =
      (strstr rest blank).map (· + (line.length + crlf.length)) := by
  have isCrlf : ∀ text, blank <+: text → crlf <+: text :=
    fun text starts => (List.prefix_append crlf crlf).trans starts
  have behind : strstr (crlf ++ rest) blank = (strstr rest blank).map (· + crlf.length) := by
    rw [strstr_skip]
    intro suffix occupied behind starts
    rcases List.suffix_cons_iff.mp behind with rfl | behind
    · exact follows ((List.prefix_append_right_inj crlf).mp starts)
    · rcases List.suffix_cons_iff.mp behind with rfl | behind
      · exact absurd (List.cons_prefix_cons.mp starts).1 (by decide)
      · exact occupied (List.suffix_nil.mp behind)
  rw [strstr_skip, behind, Option.map_map]
  · congr 1
    funext offset
    simp only [Function.comp]
    omega
  · intro suffix occupied behind starts
    exact not_crlf_starts whole occupied behind (isCrlf _ starts)

def ended (lines : List (List UInt8)) : List UInt8 := lines.flatMap (· ++ crlf)

theorem ended_cons (line : List UInt8) (lines : List (List UInt8)) (rest : List UInt8) :
    ended (line :: lines) ++ rest = line ++ (crlf ++ (ended lines ++ rest)) := by
  simp [ended]

theorem strstr_ended {needle : List UInt8} (noReturn : 13 ∉ needle) (noFeed : 10 ∉ needle)
    {lines : List (List UInt8)} (absent : ∀ line ∈ lines, ¬needle <:+: line)
    (rest : List UInt8) :
    strstr (ended lines ++ rest) needle = (strstr rest needle).map (· + (ended lines).length) := by
  induction lines with
  | nil => exact Option.map_id'.symm
  | cons line lines ih =>
      obtain ⟨here, later⟩ := List.forall_mem_cons.mp absent
      have length : (ended (line :: lines)).length =
          (ended lines).length + (line.length + crlf.length) := by
        simp only [ended, List.flatMap_cons, List.length_append]
        omega
      rw [ended_cons, strstr_line noReturn noFeed here, ih later, Option.map_map, length]
      refine congrArg (Option.map · _) ?_
      funext offset
      exact Nat.add_assoc _ _ _

theorem strstr_blank_ended {lines : List (List UInt8)}
    (whole : ∀ line ∈ lines, line ≠ [] ∧ ¬crlf <:+: line) {first : List UInt8}
    (wholeFirst : ¬crlf <:+: first) (rest : List UInt8) :
    strstr (first ++ (crlf ++ (ended lines ++ (crlf ++ rest)))) blank =
      some (first.length + (ended lines).length) := by
  induction lines generalizing first with
  | nil =>
      rw [strstr_skip, strstr_starts]
      · rw [Option.map_some, Nat.zero_add]
        rfl
      · exact ⟨rest, List.append_assoc crlf crlf rest⟩
      · intro suffix occupied behind starts
        exact not_crlf_starts wholeFirst occupied behind
          ((List.prefix_append crlf crlf).trans starts)
  | cons line lines ih =>
      obtain ⟨⟨occupied, wholeLine⟩, later⟩ := List.forall_mem_cons.mp whole
      rw [ended_cons, strstr_blank wholeFirst (not_crlf_starts wholeLine occupied List.suffix_rfl),
        ih later wholeLine, Option.map_some]
      simp only [ended, List.flatMap_cons, List.length_append]
      congr 1
      omega

end Lines

section Words

variable {separates : UInt8 → Bool}

def words (separates : UInt8 → Bool) (text : List UInt8) : List (List UInt8) :=
  (text.splitOnP separates).filter (· ≠ [])

end Words

end Foundation.CString
