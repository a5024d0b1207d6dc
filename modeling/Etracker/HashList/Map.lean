import Etracker.Foundation.Traversal
import Etracker.HashList.Update

/-! `mapList` visits the entries in order, also when its callback deletes or
rewrites the item it is called for. -/

namespace Etracker

open Foundation Foundation.CString Foundation.Chain Foundation.Outcome Foundation.Traversal

variable {α σ : Type}

def ListReturn.ofStop (stop : Bool) : ListReturn := if stop then .listBreak else .listContinue

abbrev EntryStep (α σ : Type) := Entry α → σ → Except Fault (Visit (Entry α) α σ)

/-- A run on lists answers as a visit of entries does and frees the same data;
`related` says what its list has to do with the entries kept. -/
def Simulates (list : HashList α) (outcome : Except Fault (ListReturn × HashList α × σ))
    (visited : Except Fault (Visit (Entry α) α σ))
    (related : HashList α → List (Entry α) → Prop) : Prop :=
  match visited with
  | .error fault => outcome = .error fault
  | .ok visit => ∃ list', outcome = .ok (ListReturn.ofStop visit.stop, list', visit.state) ∧
      list'.freed = list.freed ++ visit.freed ∧ related list' visit.kept

def Implements (callback : Callback α σ) (step : EntryStep α σ) : Prop :=
  ∀ (list : HashList α) (leaf : Path) (front back : List (Entry α)) (entry : Entry α) (args : σ),
    Linked list → list.leafEntries leaf = front ++ entry :: back →
      Simulates list (callback leaf entry.1 (list, args)) (step entry args)
        fun list' kept => Rewritten list list' leaf (front ++ kept ++ back)

abbrev EntryVisits (α σ : Type) := Entry α → σ → Except Fault (Visit (Entry α) α σ) → Prop

def Realizes (list : HashList α) (outcome : Except Fault (ListReturn × HashList α × σ))
    (visits : Except Fault (Visit (Entry α) α σ) → Prop)
    (related : HashList α → List (Entry α) → Prop) : Prop :=
  ∃ visited, visits visited ∧ Simulates list outcome visited related

/-- The callback only touches the item it is called for, in one of the ways in `visits`. What
it does may depend on the whole list. -/
def Allowed (callback : Callback α σ) (visits : EntryVisits α σ) : Prop :=
  ∀ (list : HashList α) (leaf : Path) (front back : List (Entry α)) (entry : Entry α) (args : σ),
    Linked list → list.leafEntries leaf = front ++ entry :: back →
      Realizes list (callback leaf entry.1 (list, args)) (visits entry args)
        fun list' kept => Rewritten list list' leaf (front ++ kept ++ back)

theorem Rewritten.refl {list : HashList α} (linked : Linked list) (leaf : Path) :
    Rewritten list list leaf (list.leafEntries leaf) := by
  refine ⟨SameFrame.refl list, ?_⟩
  rw [Function.update_eq_self]
  exact linked

theorem Rewritten.trans {first second third : HashList α} {leaf : Path}
    {middle final : List (Entry α)} (left : Rewritten first second leaf middle)
    (right : Rewritten second third leaf final) : Rewritten first third leaf final := by
  refine ⟨left.frame.trans right.frame, ?_⟩
  have represents := right.represents
  rw [left.leafEntries, Function.update_idem] at represents
  exact represents

theorem simulates_mono {list : HashList α} {outcome : Except Fault (ListReturn × HashList α × σ)}
    {visited : Except Fault (Visit (Entry α) α σ)}
    {related related' : HashList α → List (Entry α) → Prop}
    (simulates : Simulates list outcome visited related)
    (weaker : ∀ list' kept, related list' kept → related' list' kept) :
    Simulates list outcome visited related' := by
  cases visited with
  | error fault => exact simulates
  | ok visit =>
      obtain ⟨list', completed, freed, kept⟩ := simulates
      exact ⟨list', completed, freed, weaker list' visit.kept kept⟩

theorem realizes_mono {list : HashList α} {outcome : Except Fault (ListReturn × HashList α × σ)}
    {visits : Except Fault (Visit (Entry α) α σ) → Prop}
    {related related' : HashList α → List (Entry α) → Prop}
    (realizes : Realizes list outcome visits related)
    (weaker : ∀ list' kept, related list' kept → related' list' kept) :
    Realizes list outcome visits related' := by
  obtain ⟨visited, visit, simulates⟩ := realizes
  exact ⟨visited, visit, simulates_mono simulates weaker⟩

theorem realizes_sequence {list : HashList α}
    {first : Except Fault (ListReturn × HashList α × σ)}
    {next : HashList α × σ → Except Fault (ListReturn × HashList α × σ)}
    {visits : Except Fault (Visit (Entry α) α σ) → Prop} {rest : List (Entry α)}
    {later : σ → Except Fault (Visit (Entry α) α σ) → Prop}
    {relatedFirst related : HashList α → List (Entry α) → Prop}
    (lead : Realizes list first visits relatedFirst)
    (stopped : ∀ list' kept, relatedFirst list' kept → related list' (kept ++ rest))
    (continued : ∀ list' kept args, relatedFirst list' kept →
      Realizes list' (next (list', args)) (later args)
        fun list'' kept' => related list'' (kept ++ kept')) :
    Realizes list
      (first >>= fun result =>
        if result.1 = .listBreak then pure (.listBreak, result.2) else next result.2)
      (Follows visits rest later) related := by
  obtain ⟨visited, visit, simulates⟩ := lead
  cases visited with
  | error fault =>
      have failed : first = .error fault := simulates
      rw [failed]
      exact ⟨.error fault, .failed visit, rfl⟩
  | ok visit' =>
      obtain ⟨list', completed, freed, relation⟩ := simulates
      rw [completed, ok_bind]
      cases stop : visit'.stop with
      | true =>
          refine ⟨_, .stopped visit stop, list', ?_, freed, stopped _ _ relation⟩
          simp [ListReturn.ofStop, stop]
      | false =>
          obtain ⟨reached, onward, follow⟩ := continued list' visit'.kept visit'.state relation
          cases reached with
          | error fault => exact ⟨.error fault, .failedLater visit stop onward, follow⟩
          | ok second =>
              obtain ⟨list'', completed', freed', relation'⟩ := follow
              refine ⟨_, .continued visit stop onward, list'', ?_, ?_, relation'⟩
              · simpa [ListReturn.ofStop, stop] using completed'
              · rw [freed', freed, List.append_assoc]

theorem realizes_append {list : HashList α} {first : Except Fault (ListReturn × HashList α × σ)}
    {next : HashList α × σ → Except Fault (ListReturn × HashList α × σ)}
    {visits : EntryVisits α σ} {front back : List (Entry α)} {args : σ}
    {relatedFirst related : HashList α → List (Entry α) → Prop}
    (lead : Realizes list first (Traverses visits front args) relatedFirst)
    (stopped : ∀ list' kept, relatedFirst list' kept → related list' (kept ++ back))
    (continued : ∀ list' kept args, relatedFirst list' kept →
      Realizes list' (next (list', args)) (Traverses visits back args)
        fun list'' kept' => related list'' (kept ++ kept')) :
    Realizes list
      (first >>= fun result =>
        if result.1 = .listBreak then pure (.listBreak, result.2) else next result.2)
      (Traverses visits (front ++ back) args) related := by
  obtain ⟨visited, row, simulates⟩ := realizes_sequence lead stopped continued
  exact ⟨visited, traverses_append row, simulates⟩

section Traverse

variable {callback : Callback α σ} {visits : EntryVisits α σ}

theorem mapItems_realizes (allowed : Allowed callback visits) (leaf : Path)
    {entries : List (Entry α)} {list : HashList α} {front : List (Entry α)} {fuel : Nat}
    (linked : Linked list) (split : list.leafEntries leaf = front ++ entries)
    (enough : entries.length ≤ fuel) (args : σ) :
    Realizes list (mapItems callback leaf fuel (head none entries) (list, args))
      (Traverses visits entries args)
      fun list' kept => Rewritten list list' leaf (front ++ kept) := by
  induction entries generalizing list front fuel args with
  | nil =>
      have whole : mapItems callback leaf fuel (head none ([] : List (Entry α))) (list, args) =
          .ok (.listContinue, list, args) := by cases fuel <;> rfl
      rw [whole]
      refine ⟨_, rfl, list, rfl, by simp, ?_⟩
      have unchanged := Rewritten.refl linked leaf
      rw [split] at unchanged
      exact unchanged
  | cons entry rest ih =>
      cases fuel with
      | zero => simp at enough
      | succ fuel =>
          have chain := linked.linked leaf
          rw [split] at chain
          obtain ⟨current, present, _, forwardLink, _⟩ := segment_middle chain
          have nextIs : current.nextInLeaf = head none rest := forwardLink
          simp only [mapItems, head, HashList.deref, present, pure_eq_ok, ok_bind, nextIs]
          refine realizes_sequence (allowed list leaf front rest entry args linked split) ?_ ?_
          · intro list' kept rewritten
            rw [← List.append_assoc]
            exact rewritten
          · intro list' kept args' rewritten
            have split' : list'.leafEntries leaf = (front ++ kept) ++ rest := by
              rw [rewritten.leafEntries, Function.update_self]
            refine realizes_mono (ih rewritten.linked split' (by simpa using enough) args') ?_
            intro list'' kept' rewritten'
            rw [← List.append_assoc]
            exact rewritten.trans rewritten'

theorem waitSemaphoreLeaf_ok {list : HashList α} {leaf : Path} (inv : Inv list)
    (atLeaf : leaf.length = list.level) :
    ∃ semaphore, waitSemaphoreLeaf list leaf = .ok { list with semaphore := semaphore } ∧
      ∀ list' : HashList α, list'.toListHeader = list.toListHeader →
        list'.semaphore = semaphore →
        postSemaphoreLeaf list' leaf = .ok { list' with semaphore := list.semaphore } := by
  by_cases enabled : list.semaphoreEnabled.leaf = true ∨ list.semaphoreEnabled.global = true
  · have leafEnabled : list.semaphoreEnabled.leaf = true := enabled.elim id inv.leafSemaphore
    have value : list.semaphore leaf = some 1 := by
      rw [inv.semaphores]
      exact if_pos (Or.inl ⟨atLeaf, leafEnabled⟩)
    refine ⟨Function.update list.semaphore leaf (some 0), ?_, ?_⟩
    · simp [waitSemaphoreLeaf, enabled, value]
    · intro list' header semaphore
      have restored : Function.update list.semaphore leaf (some 1) = list.semaphore := by
        rw [← value, Function.update_eq_self]
      simp [postSemaphoreLeaf, header, enabled, semaphore, restored]
  · refine ⟨list.semaphore, ?_, ?_⟩
    · simp [waitSemaphoreLeaf, enabled]
    · intro list' header semaphore
      rw [← header] at enabled
      rw [postSemaphoreLeaf, if_neg enabled, ← semaphore]
      rfl

theorem mapLeaf_realizes (allowed : Allowed callback visits) {list : HashList α} {leaf : Path}
    (inv : Inv list) (atLeaf : leaf.length = list.level) (args : σ) :
    Realizes list (mapLeaf callback leaf (list, args))
      (Traverses visits (list.leafEntries leaf) args)
      fun list' kept => Rewritten list list' leaf kept := by
  by_cases absent : list.firstItem leaf = none
  · have empty := (firstItem_eq_none_iff inv.linked leaf).mp absent
    have unchanged := Rewritten.refl inv.linked leaf
    simp only [mapLeaf, if_pos absent]
    rw [empty] at unchanged ⊢
    exact ⟨_, rfl, list, rfl, by simp, unchanged⟩
  · obtain ⟨semaphore, waited, posted⟩ := waitSemaphoreLeaf_ok inv atLeaf
    have linked : Linked { list with semaphore := semaphore } :=
      ⟨inv.linked.linked, inv.linked.sorted, inv.linked.routed, inv.linked.allocated⟩
    have run : Realizes { list with semaphore := semaphore }
        (mapItems callback leaf list.fresh (list.firstItem leaf)
          ({ list with semaphore := semaphore }, args))
        (Traverses visits (list.leafEntries leaf) args)
        fun list' kept => Rewritten { list with semaphore := semaphore } list' leaf kept := by
      rw [segment_head (inv.linked.linked leaf)]
      have whole : ({ list with semaphore := semaphore } : HashList α).leafEntries leaf =
          [] ++ list.leafEntries leaf := rfl
      exact mapItems_realizes allowed leaf linked whole
        (Represents.length_le inv.linked leaf) args
    simp only [mapLeaf, if_neg absent, waited, ok_bind]
    obtain ⟨visited, visit, simulates⟩ := run
    refine ⟨visited, visit, ?_⟩
    cases visited with
    | error fault =>
        have failed : mapItems _ _ _ _ _ = .error fault := simulates
        rw [failed]
        rfl
    | ok visit =>
        obtain ⟨list', completed, freed, rewritten⟩ := simulates
        have gaveBack := posted list' rewritten.frame.header rewritten.frame.semaphore
        have represents := rewritten.represents
        simp only [completed, ok_bind, gaveBack, pure_eq_ok]
        refine ⟨{ list' with semaphore := list.semaphore }, rfl, freed, ⟨?_, rfl⟩, ?_⟩
        · exact rewritten.frame.header
        · exact ⟨represents.linked, represents.sorted, represents.routed, represents.allocated⟩

theorem mapBranches_realizes (allowed : Allowed callback visits) {paths : List Path}
    {list : HashList α} (inv : Inv list) (leaves : ∀ path ∈ paths, path.length = list.level)
    (distinct : paths.Nodup) (args : σ) :
    Realizes list (mapBranches (mapLeaf callback) paths (list, args))
      (Traverses visits (paths.flatMap list.leafEntries) args)
      fun list' kept => Linked list' ∧ SameFrame list list' ∧
        paths.flatMap list'.leafEntries = kept ∧
        ∀ path, path ∉ paths → list'.leafEntries path = list.leafEntries path := by
  induction paths generalizing list args with
  | nil =>
      exact ⟨_, rfl, list, rfl, by simp, inv.linked, SameFrame.refl list, rfl, fun _ _ => rfl⟩
  | cons path rest ih =>
      obtain ⟨outside, distinct⟩ := List.nodup_cons.mp distinct
      have lead := mapLeaf_realizes allowed inv (leaves path (by simp)) args
      have elsewhere : ∀ {list' : HashList α} {kept : List (Entry α)},
          Rewritten list list' path kept → ∀ other, other ≠ path →
            list'.leafEntries other = list.leafEntries other := by
        intro list' kept rewritten other differs
        rw [rewritten.leafEntries, Function.update_of_ne differs]
      have untouched : ∀ {list' : HashList α} {kept : List (Entry α)},
          Rewritten list list' path kept →
            rest.flatMap list'.leafEntries = rest.flatMap list.leafEntries := by
        intro list' kept rewritten
        apply List.flatMap_congr
        intro other member
        exact elsewhere rewritten other (ne_of_mem_of_not_mem member outside)
      rw [List.flatMap_cons]
      refine realizes_append lead ?_ ?_
      · intro list' kept rewritten
        refine ⟨rewritten.linked, rewritten.frame, ?_, ?_⟩
        · rw [List.flatMap_cons, untouched rewritten, rewritten.leafEntries, Function.update_self]
        · intro other apart
          exact elsewhere rewritten other (fun same => apart (by simp [same]))
      · intro list' kept args' rewritten
        have inv' := inv.of_frame rewritten.frame rewritten.linked
        have leaves' : ∀ other ∈ rest, other.length = list'.level := by
          intro other member
          rw [rewritten.frame.header]
          exact leaves other (by simp [member])
        have later := ih inv' leaves' distinct args'
        rw [untouched rewritten] at later
        refine realizes_mono later ?_
        rintro list'' kept' ⟨linked, frame, stretch, others⟩
        refine ⟨linked, rewritten.frame.trans frame, ?_, ?_⟩
        · rw [List.flatMap_cons, stretch, others path outside, rewritten.leafEntries,
            Function.update_self]
        · intro other apart
          rw [List.mem_cons, not_or] at apart
          rw [others other apart.2, elsewhere rewritten other apart.1]

theorem mapBranches_append {β state : Type} (visit : β → state → Except Fault (ListReturn × state))
    (front back : List β) (current : state) :
    mapBranches visit (front ++ back) current =
      mapBranches visit front current >>= fun result =>
        if result.1 = .listBreak then pure (.listBreak, result.2)
        else mapBranches visit back result.2 := by
  induction front generalizing current with
  | nil => rfl
  | cons branch rest ih =>
      simp only [mapBranches, List.cons_append]
      cases visited : visit branch current with
      | error fault => rfl
      | ok result =>
          obtain ⟨test, reached⟩ := result
          cases test with
          | listBreak => rfl
          | listContinue => exact ih reached

theorem mapListFrom_eq (callback : Callback α σ) (level : Nat) (path : Path)
    (state : HashList α × σ) :
    mapListFrom callback level path state =
      mapBranches (mapLeaf callback) (leafPaths level path) state := by
  induction level generalizing path state with
  | zero =>
      simp only [mapListFrom, leafPaths, mapBranches]
      cases visited : mapLeaf callback path state with
      | error fault => rfl
      | ok result =>
          obtain ⟨test, reached⟩ := result
          cases test <;> rfl
  | succ level ih =>
      simp only [mapListFrom, leafPaths]
      generalize branches = indices
      induction indices generalizing state with
      | nil => rfl
      | cons index rest ihIndices =>
          rw [List.flatMap_cons, mapBranches_append, mapBranches, ih]
          cases visited : mapBranches (mapLeaf callback) (leafPaths level (path ++ [index])) state with
          | error fault => rfl
          | ok result =>
              obtain ⟨test, reached⟩ := result
              cases test with
              | listBreak => rfl
              | listContinue => exact ihIndices reached

/-- The traversal of a list is a traversal of its entries. -/
theorem mapList_realizes (allowed : Allowed callback visits) {list : HashList α} (inv : Inv list)
    (args : σ) :
    Realizes list (mapList list args callback) (Traverses visits list.entries args)
      fun list' kept => Inv list' ∧ SameFrame list list' ∧ list'.entries = kept := by
  have leaves : ∀ path ∈ leafPaths list.level [], path.length = list.level := by
    intro path member
    obtain ⟨suffix, same, length⟩ := mem_leafPaths.mp member
    rw [same, List.nil_append, length]
  rw [mapList, mapListFrom_eq]
  refine realizes_mono (mapBranches_realizes allowed inv leaves (leafPaths_nodup _ _) args) ?_
  rintro list' kept ⟨linked, frame, stretch, _⟩
  refine ⟨inv.of_frame frame linked, frame, ?_⟩
  rw [HashList.entries, frame.header]
  exact stretch

/-- What the callback does to an entry alone, it does to the entries of the list. -/
theorem mapList_simulates {step : EntryStep α σ} (implements : Implements callback step)
    {list : HashList α} (inv : Inv list) (args : σ) :
    Simulates list (mapList list args callback) (traverse step list.entries args)
      fun list' kept => Inv list' ∧ SameFrame list list' ∧ list'.entries = kept := by
  have allowed : Allowed callback fun entry args visited => step entry args = visited :=
    fun list leaf front back entry args linked split =>
      ⟨_, rfl, implements list leaf front back entry args linked split⟩
  obtain ⟨visited, traverses, simulates⟩ := mapList_realizes allowed inv args
  rw [traverse_of_traverses traverses]
  exact simulates

end Traverse

end Etracker
