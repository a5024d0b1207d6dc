import Etracker.Foundation.Keyed
import Etracker.Foundation.Outcome

/-! Traversals of a list that may drop or replace the element they visit, thread
a state through the visits, record what they freed, stop early or fail. -/

namespace Foundation.Traversal

open Foundation.Keyed Foundation.Outcome

structure Visit (Element Freed State : Type) where
  stop : Bool
  kept : List Element
  freed : List Freed
  state : State

variable {Element Freed State Error : Type}

def Visit.andThen (first : Visit Element Freed State) (rest : List Element)
    (next : State → Except Error (Visit Element Freed State)) :
    Except Error (Visit Element Freed State) :=
  if first.stop then .ok { first with kept := first.kept ++ rest }
  else next first.state >>= fun second =>
    .ok { second with kept := first.kept ++ second.kept, freed := first.freed ++ second.freed }

def traverse (step : Element → State → Except Error (Visit Element Freed State)) :
    List Element → State → Except Error (Visit Element Freed State)
  | [], state => .ok ⟨false, [], [], state⟩
  | element :: rest, state =>
      step element state >>= fun visit => visit.andThen rest (traverse step rest)

variable {step : Element → State → Except Error (Visit Element Freed State)}

theorem andThen_stop {first : Visit Element Freed State} (stopped : first.stop = true)
    (rest : List Element) (next : State → Except Error (Visit Element Freed State)) :
    first.andThen rest next = .ok { first with kept := first.kept ++ rest } := by
  simp [Visit.andThen, stopped]

theorem andThen_continue {first : Visit Element Freed State} (continued : first.stop = false)
    (rest : List Element) (next : State → Except Error (Visit Element Freed State)) :
    first.andThen rest next = next first.state >>= fun second =>
      .ok { second with
        kept := first.kept ++ second.kept, freed := first.freed ++ second.freed } := by
  simp [Visit.andThen, continued]

/-- What a visit out of `first` leaves behind and, unless it stopped, the visits after it. -/
inductive Follows (first : Except Error (Visit Element Freed State) → Prop) (rest : List Element)
    (later : State → Except Error (Visit Element Freed State) → Prop) :
    Except Error (Visit Element Freed State) → Prop
  | failed {error : Error} : first (.error error) → Follows first rest later (.error error)
  | stopped {visit : Visit Element Freed State} : first (.ok visit) → visit.stop = true →
      Follows first rest later (.ok { visit with kept := visit.kept ++ rest })
  | failedLater {visit : Visit Element Freed State} {error : Error} : first (.ok visit) →
      visit.stop = false → later visit.state (.error error) →
      Follows first rest later (.error error)
  | continued {visit second : Visit Element Freed State} : first (.ok visit) →
      visit.stop = false → later visit.state (.ok second) →
      Follows first rest later (.ok { second with
        kept := visit.kept ++ second.kept, freed := visit.freed ++ second.freed })

/-- The traversals whose single visits are among those that `visits` allows. -/
def Traverses (visits : Element → State → Except Error (Visit Element Freed State) → Prop) :
    List Element → State → Except Error (Visit Element Freed State) → Prop
  | [], state => fun outcome => outcome = .ok ⟨false, [], [], state⟩
  | element :: rest, state => Follows (visits element state) rest (Traverses visits rest)

theorem traverses_append
    {visits : Element → State → Except Error (Visit Element Freed State) → Prop}
    {front back : List Element} {state : State} {outcome : Except Error (Visit Element Freed State)}
    (row : Follows (Traverses visits front state) back (Traverses visits back) outcome) :
    Traverses visits (front ++ back) state outcome := by
  induction front generalizing state outcome with
  | nil =>
      cases row with
      | failed lead => cases lead
      | stopped lead stop =>
          cases lead
          cases stop
      | failedLater lead _ later =>
          cases lead
          exact later
      | continued lead _ later =>
          cases lead
          exact later
  | cons element rest ih =>
      cases row with
      | failed lead =>
          cases lead with
          | failed here => exact .failed here
          | failedLater here goesOn later => exact .failedLater here goesOn (ih (.failed later))
      | stopped lead stop =>
          generalize isVisit : Except.ok _ = visited at lead
          cases lead with
          | failed | failedLater => cases isVisit
          | stopped here stop' =>
              cases isVisit
              simp only [List.append_assoc]
              exact .stopped here stop'
          | continued here goesOn later =>
              cases isVisit
              simp only [List.append_assoc]
              exact .continued here goesOn (ih (.stopped later stop))
      | failedLater lead goesOn last =>
          generalize isVisit : Except.ok _ = visited at lead
          cases lead with
          | failed | failedLater => cases isVisit
          | stopped here stop' =>
              cases isVisit
              cases stop'.symm.trans goesOn
          | continued here goesOn' later =>
              cases isVisit
              exact .failedLater here goesOn' (ih (.failedLater later goesOn last))
      | continued lead goesOn last =>
          generalize isVisit : Except.ok _ = visited at lead
          cases lead with
          | failed | failedLater => cases isVisit
          | stopped here stop' =>
              cases isVisit
              cases stop'.symm.trans goesOn
          | continued here goesOn' later =>
              cases isVisit
              simp only [List.append_assoc]
              exact .continued here goesOn' (ih (.continued later goesOn last))

/-- Where every visit does what `step` does, so does the traversal. -/
theorem traverse_of_traverses {elements : List Element} {state : State}
    {outcome : Except Error (Visit Element Freed State)}
    (traverses : Traverses (fun element state visited => step element state = visited) elements state
      outcome) : traverse step elements state = outcome := by
  induction elements generalizing state outcome with
  | nil => exact traverses.symm
  | cons element rest ih =>
      rw [traverse]
      cases traverses with
      | failed here =>
          rw [here]
          rfl
      | stopped here stop => rw [here, ok_bind, andThen_stop stop]
      | failedLater here goesOn later =>
          rw [here, ok_bind, andThen_continue goesOn, ih later]
          rfl
      | continued here goesOn later =>
          rw [here, ok_bind, andThen_continue goesOn, ih later]
          rfl

theorem traverse_each {View : Type} {good : State → Prop} {view : State → View}
    {kept : Element → List Element} {effect : Element → View → View} {elements : List Element}
    (each : ∀ element ∈ elements, ∀ state, good state → ∃ visit, step element state = .ok visit ∧
      visit.stop = false ∧ visit.kept = kept element ∧ good visit.state ∧
      view visit.state = effect element (view state)) {state : State} (first : good state) :
    ∃ visit, traverse step elements state = .ok visit ∧ visit.stop = false ∧
      visit.kept = elements.flatMap kept ∧ good visit.state ∧
      view visit.state = elements.foldl (fun current element => effect element current)
        (view state) := by
  induction elements generalizing state with
  | nil => exact ⟨_, rfl, rfl, rfl, first, rfl⟩
  | cons element rest ih =>
      obtain ⟨visit, visited, goesOn, keeps, good', seen⟩ :=
        each element List.mem_cons_self state first
      obtain ⟨second, run, goesOn', keeps', good'', seen'⟩ :=
        ih (fun other member => each other (List.mem_cons_of_mem _ member)) good'
      rw [seen] at seen'
      rw [traverse, visited, ok_bind, andThen_continue goesOn, run, ok_bind]
      refine ⟨_, rfl, goesOn', ?_, good'', seen'⟩
      rw [List.flatMap_cons, ← keeps, ← keeps']

/-- Visits that change what is seen at their own key alone change it once at each key. -/
theorem traverse_pointwise {Key View : Type} [DecidableEq Key] {good : State → Prop}
    {view : State → Key → View} {key : Element → Key} {kept : Element → List Element}
    {change : Element → View → View} {elements : List Element}
    (distinct : (elements.map key).Nodup)
    (each : ∀ element ∈ elements, ∀ state, good state → ∃ visit, step element state = .ok visit ∧
      visit.stop = false ∧ visit.kept = kept element ∧ good visit.state ∧
      ∀ other, view visit.state other =
        if key element = other then change element (view state other) else view state other)
    {state : State} (first : good state) :
    ∃ visit, traverse step elements state = .ok visit ∧ visit.stop = false ∧
      visit.kept = elements.flatMap kept ∧ good visit.state ∧
      ∀ wanted, view visit.state wanted =
        (findKey key elements wanted).elim (view state wanted) fun element =>
          change element (view state wanted) := by
  obtain ⟨visit, run, goesOn, keeps, good', seen⟩ :=
    @traverse_each _ _ _ _ step _ good view kept
      (fun element view other =>
        if key element = other then change element (view other) else view other) elements
      (fun element member state isGood =>
        have ⟨visit, visited, goesOn, keeps, good', seen⟩ := each element member state isGood
        ⟨visit, visited, goesOn, keeps, good', funext seen⟩) state first
  refine ⟨visit, run, goesOn, keeps, good', ?_⟩
  intro wanted
  rw [seen, foldl_pointwise distinct]

end Foundation.Traversal
