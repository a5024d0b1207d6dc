import Etracker.HashList.Entries
import Etracker.HashList.FiniteMap
import Etracker.HashList.Map
import Mathlib.Data.List.GetD

namespace Etracker

open Foundation Foundation.CString Foundation.Chain Foundation.Outcome Foundation.Traversal

variable {α σ : Type}

/-- The callback returns. It has kept its item, changed the data of it or deleted it, and has
touched no other item. -/
def ActsOnItem (callback : Callback α σ) : Prop :=
  ∀ (list : HashList α) (leaf : Path) (front back : List (Entry α)) (entry : Entry α) (args : σ),
    Linked list → list.leafEntries leaf = front ++ entry :: back →
      ∃ answer list' args' kept freed,
        callback leaf entry.1 (list, args) = .ok (answer, list', args') ∧
        (kept = [] ∨ ∃ data, kept = [(entry.1, { entry.2 with data := data })]) ∧
        list'.freed = list.freed ++ freed ∧ Rewritten list list' leaf (front ++ kept ++ back)

def deletingCallback (decision : Path → Address → HashList α × σ → ListReturn × Bool × σ) :
    Callback α σ
  | leaf, item, (list, args) => do
      let (answer, deletes, args) := decision leaf item (list, args)
      let list ← if deletes then deleteItem list item else pure list
      pure (answer, list, args)

theorem deletingCallback_actsOnItem
    (decision : Path → Address → HashList α × σ → ListReturn × Bool × σ) :
    ActsOnItem (deletingCallback decision) := by
  intro list leaf front back entry args linked split
  simp only [deletingCallback]
  generalize decision leaf entry.1 (list, args) = decided
  obtain ⟨answer, deletes, args'⟩ := decided
  cases deletes with
  | true =>
      obtain ⟨list', deleted, rewritten, freed⟩ := deleteItem_eq linked split
      refine ⟨answer, list', args', [], _, ?_, Or.inl rfl, freed, by simpa using rewritten⟩
      simp [deleted]
  | false =>
      have unchanged := Rewritten.refl linked leaf
      rw [split] at unchanged
      exact ⟨answer, list, args', [entry], [], rfl, Or.inr ⟨entry.2.data, rfl⟩, by simp,
        by simpa using unchanged⟩

/-- One call of a callback. -/
structure Call where
  leaf : Path
  item : Address
  answer : ListReturn

def recorded (callback : Callback α σ) : Callback α (σ × List Call)
  | leaf, item, (list, args, calls) => do
      let (answer, list, args) ← callback leaf item (list, args)
      pure (answer, list, args, calls ++ [⟨leaf, item, answer⟩])

section Forget

variable (callback : Callback α σ)

def forget (result : ListReturn × HashList α × σ × List Call) : ListReturn × HashList α × σ :=
  (result.1, result.2.1, result.2.2.1)

theorem mapItems_forget (leaf : Path) (fuel : Nat) (item : Option Address) (list : HashList α)
    (args : σ) (calls : List Call) :
    (mapItems (recorded callback) leaf fuel item (list, args, calls)).map forget =
      mapItems callback leaf fuel item (list, args) := by
  induction fuel generalizing item list args calls with
  | zero => cases item <;> rfl
  | succ fuel ih =>
      cases item with
      | none => rfl
      | some item =>
          simp only [mapItems, recorded]
          cases list.deref item with
          | error fault => rfl
          | ok current =>
              simp only [ok_bind]
              cases callback leaf item (list, args) with
              | error fault => rfl
              | ok result =>
                  obtain ⟨answer, list', args'⟩ := result
                  cases answer with
                  | listBreak => rfl
                  | listContinue => exact ih current.nextInLeaf list' args' _

theorem mapLeaf_forget (leaf : Path) (list : HashList α) (args : σ) (calls : List Call) :
    (mapLeaf (recorded callback) leaf (list, args, calls)).map forget =
      mapLeaf callback leaf (list, args) := by
  simp only [mapLeaf]
  by_cases absent : list.firstItem leaf = none
  · rw [if_pos absent, if_pos absent]
    rfl
  · rw [if_neg absent, if_neg absent]
    cases waitSemaphoreLeaf list leaf with
    | error fault => rfl
    | ok waited =>
        simp only [ok_bind]
        rw [← mapItems_forget callback leaf _ _ waited args calls]
        cases mapItems (recorded callback) leaf waited.fresh (waited.firstItem leaf)
            (waited, args, calls) with
        | error fault => rfl
        | ok result =>
            obtain ⟨answer, list', args', calls'⟩ := result
            show Except.map forget (postSemaphoreLeaf list' leaf >>= _) =
              postSemaphoreLeaf list' leaf >>= _
            cases postSemaphoreLeaf list' leaf with
            | error fault => rfl
            | ok posted => rfl

theorem mapBranches_forget (paths : List Path) (list : HashList α) (args : σ)
    (calls : List Call) :
    (mapBranches (mapLeaf (recorded callback)) paths (list, args, calls)).map forget =
      mapBranches (mapLeaf callback) paths (list, args) := by
  induction paths generalizing list args calls with
  | nil => rfl
  | cons path rest ih =>
      simp only [mapBranches]
      rw [← mapLeaf_forget callback path list args calls]
      cases mapLeaf (recorded callback) path (list, args, calls) with
      | error fault => rfl
      | ok result =>
          obtain ⟨answer, list', args', calls'⟩ := result
          cases answer with
          | listBreak => rfl
          | listContinue => exact ih list' args' calls'

theorem mapList_forget (list : HashList α) (args : σ) (calls : List Call) :
    (mapList list (args, calls) (recorded callback)).map forget = mapList list args callback := by
  rw [mapList, mapList, mapListFrom_eq, mapListFrom_eq]
  exact mapBranches_forget callback _ list args calls

end Forget

section Calls

variable {callback : Callback α σ}

def recordedVisits : EntryVisits α (σ × List Call) :=
  fun entry state outcome => ∃ answer kept freed args, outcome =
    .ok ⟨answer = .listBreak, kept, freed, args, state.2 ++ [⟨entry.2.leaf, entry.1, answer⟩]⟩

theorem ofStop_answer (answer : ListReturn) :
    ListReturn.ofStop (answer = .listBreak) = answer := by
  cases answer <;> rfl

theorem recorded_allowed (acts : ActsOnItem callback) :
    Allowed (recorded callback) recordedVisits := by
  intro list leaf front back entry state linked split
  obtain ⟨args, calls⟩ := state
  obtain ⟨answer, list', args', kept, freed, completed, _, extended, rewritten⟩ :=
    acts list leaf front back entry args linked split
  have routed := (linked.routed leaf entry (by simp [split])).2.1
  refine ⟨_, ⟨answer, kept, freed, args', rfl⟩, list', ?_, extended, rewritten⟩
  simp only [recorded, completed, ok_bind, pure_eq_ok, ofStop_answer, routed]

structure CallsOf (entries : List (Entry α)) (stop : Bool) (calls : List Call) : Prop where
  items : calls.map (fun call => (call.leaf, call.item)) <+:
    entries.map fun entry => (entry.2.leaf, entry.1)
  stops : calls.Pairwise fun earlier _ => earlier.answer = .listContinue
  answers : stop = true ↔ ∃ call ∈ calls, call.answer = .listBreak
  all : stop = false → calls.length = entries.length

theorem CallsOf.cons {entry : Entry α} {rest : List (Entry α)} {stop : Bool} {calls : List Call}
    (later : CallsOf rest stop calls) :
    CallsOf (entry :: rest) stop (⟨entry.2.leaf, entry.1, .listContinue⟩ :: calls) where
  items := by
    rw [List.map_cons, List.map_cons]
    exact List.cons_prefix_cons.mpr ⟨rfl, later.items⟩
  stops := List.pairwise_cons.mpr ⟨fun _ _ => rfl, later.stops⟩
  answers := by simp [later.answers]
  all := fun goesOn => congrArg (· + 1) (later.all goesOn)

theorem CallsOf.single (entry : Entry α) (rest : List (Entry α)) :
    CallsOf (entry :: rest) true [⟨entry.2.leaf, entry.1, .listBreak⟩] where
  items := by
    rw [List.map_cons, List.map_cons]
    exact List.cons_prefix_cons.mpr ⟨rfl, List.nil_prefix⟩
  stops := List.pairwise_singleton _ _
  answers := by simp
  all := nofun

theorem traverses_calls {entries : List (Entry α)} {state : σ × List Call}
    {outcome : Except Fault (Visit (Entry α) α (σ × List Call))}
    (traverses : Traverses recordedVisits entries state outcome) :
    ∃ visit calls, outcome = .ok visit ∧ visit.state.2 = state.2 ++ calls ∧
      CallsOf entries visit.stop calls := by
  induction entries generalizing state outcome with
  | nil =>
      refine ⟨_, [], traverses, (List.append_nil _).symm, ⟨List.nil_prefix, .nil, ?_, fun _ => rfl⟩⟩
      simp
  | cons entry rest ih =>
      have answered : ∀ {visit : Visit (Entry α) α (σ × List Call)},
          recordedVisits entry state (.ok visit) → ∃ answer, visit.stop = decide (answer = .listBreak) ∧
            visit.state.2 = state.2 ++ [⟨entry.2.leaf, entry.1, answer⟩] := by
        intro visit allowed
        obtain ⟨answer, kept, freed, args, same⟩ := allowed
        cases same
        exact ⟨answer, rfl, rfl⟩
      cases traverses with
      | failed here =>
          obtain ⟨_, _, _, _, same⟩ := here
          cases same
      | stopped here stop =>
          obtain ⟨answer, stops, calls⟩ := answered here
          have broke : answer = .listBreak := of_decide_eq_true (stops.symm.trans stop)
          refine ⟨_, _, rfl, calls, ?_⟩
          rw [broke, stop]
          exact .single entry rest
      | failedLater here goesOn later =>
          obtain ⟨_, _, failed, _⟩ := ih later
          cases failed
      | continued here goesOn later =>
          obtain ⟨answer, stops, calls⟩ := answered here
          obtain ⟨_, calls', completed, record, callsOf⟩ := ih later
          cases completed
          have went : answer = .listContinue := by
            cases answer with
            | listContinue => rfl
            | listBreak => cases stops.symm.trans goesOn
          refine ⟨_, ⟨entry.2.leaf, entry.1, .listContinue⟩ :: calls', rfl, ?_, callsOf.cons⟩
          refine Eq.trans record ?_
          rw [calls, went, List.append_assoc]
          rfl

end Calls

section Order

/-- The order of the routing bytes and, behind the same ones, of the hashes. -/
def InOrder (list : HashList α) (left right : Entry α) : Prop :=
  memcmp (list.getLeaf left.2.hash) (list.getLeaf right.2.hash) list.level = .lt ∨
    list.getLeaf left.2.hash = list.getLeaf right.2.hash ∧ Before list.hashLength left right

theorem branches_sorted : branches.Pairwise (· < ·) := by
  rw [branches, List.pairwise_map]
  have bytes : (List.range listByteSize).Pairwise fun left right => left < right ∧ right < 256 := by
    apply List.Pairwise.imp_of_mem _ List.pairwise_lt_range
    intro left right _ member less
    exact ⟨less, List.mem_range.mp member⟩
  refine bytes.imp ?_
  intro left right ⟨less, small⟩
  rw [UInt8.lt_iff_toNat_lt, UInt8.toNat_ofNat', UInt8.toNat_ofNat', Nat.mod_eq_of_lt small,
    Nat.mod_eq_of_lt (by omega)]
  exact less

theorem memcmp_append (start left right : List UInt8) (count : Nat) :
    memcmp (start ++ left) (start ++ right) (start.length + count) = memcmp left right count := by
  induction start with
  | nil => rw [List.nil_append, List.nil_append, List.length_nil, Nat.zero_add]
  | cons byte rest ih =>
      have longer : (byte :: rest).length + count = rest.length + count + 1 := by
        rw [List.length_cons]
        omega
      rw [List.cons_append, List.cons_append, longer, memcmp, if_neg (UInt8.lt_irrefl byte),
        if_neg (UInt8.lt_irrefl byte), ih]

theorem leafPaths_sorted (level : Nat) (path : Path) :
    (leafPaths level path).Pairwise fun left right =>
      memcmp left right (path.length + level) = .lt := by
  induction level generalizing path with
  | zero => exact List.pairwise_singleton _ _
  | succ level ih =>
      rw [leafPaths, List.pairwise_flatMap]
      constructor
      · intro index _
        have below := ih (path ++ [index])
        rw [List.length_append, List.length_singleton, Nat.add_assoc, Nat.add_comm 1] at below
        exact below
      · refine branches_sorted.imp ?_
        intro left right less leaf inLeft leaf' inRight
        obtain ⟨suffix, same, _⟩ := mem_leafPaths.mp inLeft
        obtain ⟨suffix', same', _⟩ := mem_leafPaths.mp inRight
        rw [same, same', List.append_assoc, List.append_assoc, memcmp_append]
        simp [memcmp, less]

theorem entries_inOrder {list : HashList α} (linked : Linked list) :
    list.entries.Pairwise (InOrder list) := by
  have routed : ∀ {path : Path} {entry : Entry α}, entry ∈ list.leafEntries path →
      list.getLeaf entry.2.hash = path := fun member => (linked.routed _ _ member).2.2
  rw [HashList.entries, List.pairwise_flatMap]
  constructor
  · intro path _
    apply List.Pairwise.imp_of_mem _ (linked.sorted path)
    intro left right inLeft inRight before
    exact Or.inr ⟨(routed inLeft).trans (routed inRight).symm, before⟩
  · have sorted := leafPaths_sorted list.level []
    rw [List.length_nil, Nat.zero_add] at sorted
    refine sorted.imp ?_
    intro path path' less left inLeft right inRight
    refine Or.inl ?_
    rw [routed inLeft, routed inRight]
    exact less

theorem getLeafFrom_littleEndian {header : ListHeader} (little : header.endianness = .littleEndian)
    {hash : Hash} {level nest : Nat} (enough : nest + level ≤ hash.length) (path : Path) :
    header.getLeafFrom hash level nest path = path ++ (hash.drop nest).take level := by
  induction level generalizing nest path with
  | zero => exact (List.append_nil path).symm
  | succ level ih =>
      have within : nest < hash.length := by omega
      rw [ListHeader.getLeafFrom, little, ih (by omega), List.append_assoc,
        List.drop_eq_getElem_cons within, List.take_succ_cons, List.getD_eq_getElem _ _ within]
      rfl

theorem getLeaf_littleEndian {header : ListHeader} (little : header.endianness = .littleEndian)
    {hash : Hash} (enough : header.level ≤ hash.length) :
    header.getLeaf hash = hash.take header.level := by
  rw [ListHeader.getLeaf, getLeafFrom_littleEndian little (by omega)]
  rfl

theorem memcmp_lt_of_take {left right : List UInt8} {few count : Nat} (most : few ≤ count)
    (less : memcmp (left.take few) (right.take few) few = .lt) :
    memcmp left right count = .lt := by
  induction left generalizing right few count with
  | nil => simp [memcmp] at less
  | cons byte rest ih =>
      cases right with
      | nil => cases few <;> simp [memcmp] at less
      | cons byte' rest' =>
          cases few with
          | zero => simp at less
          | succ few =>
              obtain ⟨count, rfl⟩ : ∃ larger, count = larger + 1 := ⟨count - 1, by omega⟩
              simp only [List.take_succ_cons, memcmp] at less ⊢
              split_ifs at less ⊢
              · rfl
              · exact ih (by omega) less

theorem before_of_inOrder {list : HashList α} (inv : Inv list)
    (little : list.endianness = .littleEndian) {left right : Entry α} (inLeft : left ∈ list.entries)
    (inRight : right ∈ list.entries) (order : InOrder list left right) :
    Before list.hashLength left right := by
  rcases order with less | ⟨_, before⟩
  · have length := (entry_facts inv.linked inLeft).1
    have length' := (entry_facts inv.linked inRight).1
    have fits := inv.level_hash
    rw [getLeaf_littleEndian little (by omega), getLeaf_littleEndian little (by omega)] at less
    exact memcmp_lt_of_take fits less
  · exact before

end Order

theorem entries_items_nodup {list : HashList α} (linked : Linked list) :
    (list.entries.map Prod.fst).Nodup := by
  refine List.Nodup.map_on ?_ (entries_nodup linked)
  intro left inLeft right inRight same
  obtain ⟨item, found, hashIs, _⟩ := entry_stored linked inLeft
  obtain ⟨item', found', hashIs', _⟩ := entry_stored linked inRight
  rw [same, found'] at found
  cases found
  exact List.inj_on_of_nodup_map (entries_hash_nodup linked) inLeft inRight
    (hashIs.symm.trans hashIs')

/-- A traversal calls the callback for the entries from the first one on, each once, up to the
first that asks to stop, and answers as the last call did. The entries lie in the order of their
routing bytes and hashes, which for little-endian lists is the order of the hashes. Every
semaphore is left as it was. -/
theorem mapList_visits {list : HashList α} (inv : Inv list) {callback : Callback α σ}
    (acts : ActsOnItem callback) (args : σ) :
    ∃ answer list' args' calls called rest,
      mapList list args callback = .ok (answer, list', args') ∧
      mapList list (args, []) (recorded callback) = .ok (answer, list', args', calls) ∧
      list.entries = called ++ rest ∧
      calls.map (fun call => (call.leaf, call.item)) =
        called.map (fun entry => (entry.2.leaf, entry.1)) ∧
      (calls.map Call.item).Nodup ∧
      (calls.Pairwise fun earlier _ => earlier.answer = .listContinue) ∧
      ((∀ call ∈ calls, call.answer = .listContinue) → rest = []) ∧
      (answer = .listBreak ↔ ∃ call ∈ calls, call.answer = .listBreak) ∧
      list.entries.Pairwise (InOrder list) ∧
      (list.endianness = .littleEndian → list.entries.Pairwise (Before list.hashLength)) ∧
      list'.semaphore = list.semaphore ∧ Inv list' := by
  obtain ⟨visited, traverses, simulates⟩ := mapList_realizes (recorded_allowed acts) inv (args, [])
  obtain ⟨visit, calls, rfl, record, callsOf⟩ := traverses_calls traverses
  obtain ⟨list', completed, _, inv', frame, _⟩ := simulates
  rw [List.nil_append] at record
  obtain ⟨behind, split⟩ := callsOf.items
  have lengths := congrArg List.length split
  rw [List.length_append, List.length_map, List.length_map] at lengths
  have called : calls.map (fun call => (call.leaf, call.item)) =
      (list.entries.take calls.length).map fun entry => (entry.2.leaf, entry.1) := by
    rw [List.map_take, ← split, List.take_left' (List.length_map _)]
  have items : calls.map Call.item = (list.entries.take calls.length).map Prod.fst := by
    have seconds := congrArg (List.map Prod.snd) called
    rw [List.map_map, List.map_map] at seconds
    exact seconds
  have answered : visit.stop = true ↔ ListReturn.ofStop visit.stop = .listBreak := by
    cases visit.stop <;> simp [ListReturn.ofStop]
  have inOrder := entries_inOrder inv.linked
  refine ⟨ListReturn.ofStop visit.stop, list', visit.state.1, calls,
    list.entries.take calls.length, list.entries.drop calls.length, ?_, ?_, ?_, called, ?_,
    callsOf.stops, ?_, ?_, inOrder, ?_, frame.semaphore, inv'⟩
  · rw [← mapList_forget callback list args [], completed]
    rfl
  · rw [completed, ← record]
  · exact (List.take_append_drop _ _).symm
  · rw [items]
    exact (entries_items_nodup inv.linked).sublist ((List.take_sublist _ _).map _)
  · intro goesOn
    apply List.drop_eq_nil_of_le
    refine Nat.le_of_eq (callsOf.all ?_).symm
    cases stop : visit.stop with
    | false => rfl
    | true =>
        obtain ⟨call, member, broke⟩ := callsOf.answers.mp stop
        rw [goesOn call member] at broke
        cases broke
  · rw [← answered]
    exact callsOf.answers
  · intro little
    apply List.Pairwise.imp_of_mem _ inOrder
    intro left right inLeft inRight order
    exact before_of_inOrder inv little inLeft inRight order

def thirdStops : Path → Address → HashList Nat × Unit → ListReturn × Bool × Unit
  | _, item, _ => (if item = 2 then .listBreak else .listContinue, item = 1, ())

theorem mapList_visits_third :
    ∃ list answers list' calls,
      performAll (ListHeader.newList ⟨.littleEndian, 2, 1, listSemaphoreEnableLeaf⟩) sampleCalls =
        .ok (list, answers) ∧
      mapList list ((), []) (recorded (deletingCallback thirdStops)) =
        .ok (.listBreak, list', (), calls) ∧
      calls.map Call.item = [3, 1, 2] ∧ list'.entries.map entryHash = [[1, 1], [2, 1], [3, 1]] ∧
      calls.Pairwise (fun earlier _ => earlier.answer = .listContinue) ∧
      list.entries.Pairwise (Before list.hashLength) ∧ list'.semaphore = list.semaphore ∧
      Inv list' := by
  have start : Inv (ListHeader.newList ⟨.littleEndian, 2, 1, listSemaphoreEnableLeaf⟩ :
      HashList Nat) := newList_inv _ (by decide) (by decide) (fun _ => rfl)
  obtain ⟨list, answers, performed, header, inv⟩ := sampleCalls_inv start
    ⟨rfl, rfl, rfl, rfl, rfl, rfl, rfl, rfl, trivial⟩
  obtain ⟨answer, list', _, calls, _, _, _, completed, _, _, _, stops, _, _, _, ordered, semaphore,
    inv'⟩ := mapList_visits inv (deletingCallback_actsOnItem thirdStops) ()
  have run : ((performAll (ListHeader.newList ⟨.littleEndian, 2, 1, listSemaphoreEnableLeaf⟩)
      sampleCalls).bind fun result => mapList result.1 ((), []) (recorded (deletingCallback
        thirdStops))).toOption.map (fun result => (result.1, result.2.2.2.map Call.item,
          result.2.1.entries.map entryHash)) =
      some (.listBreak, [3, 1, 2], [[1, 1], [2, 1], [3, 1]]) := by
    decide +kernel
  rw [performed] at run
  change (mapList list ((), []) (recorded (deletingCallback thirdStops))).toOption.map _ = _ at run
  rw [completed] at run
  change some (answer, _, _) = _ at run
  simp only [Option.some.injEq, Prod.mk.injEq] at run
  obtain ⟨rfl, items, left⟩ := run
  exact ⟨list, answers, list', calls, performed, completed, items, left, stops,
    ordered (by rw [header]), semaphore, inv'⟩

end Etracker
