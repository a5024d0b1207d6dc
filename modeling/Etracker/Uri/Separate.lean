import Etracker.Uri.Escapes
import Etracker.Uri.Parameters

namespace Etracker

open Foundation Foundation.CString

def Query.withPath (query : Query) (path : List UInt8) : Query := { query with path := path }

theorem getParam_withPath (query : Query) (path param : List UInt8) (value : ParamValue) :
    getParam (query.withPath path) param value = (getParam query param value).withPath path := by
  unfold getParam
  dsimp only
  simp only [apply_ite (Query.withPath · path)]
  rfl

namespace UriState

/-- The names and values that the loop hands to `getParam`. -/
def calls (state : UriState) : List UInt8 → List (List UInt8 × ParamValue)
  | [] => []
  | current :: rest =>
      if current = 32 then [(state.param, state.value)]
      else if current = 38 ∧ state.status ≠ .path then
        (state.param, state.value) :: (state.step current).calls rest
      else (state.step current).calls rest

theorem step_query (state : UriState) (current : UInt8) :
    if current = 38 ∧ state.status ≠ .path then
      (state.step current).query = state.callGetParam.query ∧
        (state.step current).hashesBlock = state.callGetParam.hashesBlock
    else (∃ path, (state.step current).query = state.query.withPath path) ∧
      (state.step current).hashesBlock = state.hashesBlock := by
  cases status : state.status with
  | path =>
      simp only [step, status, putPath, ne_eq, not_true_eq_false, and_false, if_false]
      split_ifs <;> exact ⟨⟨_, rfl⟩, rfl⟩
  | param =>
      by_cases ampersand : current = 38
      · simp [step, status, ampersand]
      · simp only [step, status, ampersand, putParam, if_false, false_and, if_true]
        split_ifs <;> exact ⟨⟨_, rfl⟩, rfl⟩
  | value =>
      by_cases ampersand : current = 38
      · simp [step, status, ampersand]
      · simp only [step, status, ampersand, putValue, writeValue, if_false, false_and, reduceCtorEq]
        split_ifs <;> exact ⟨⟨_, rfl⟩, rfl⟩

/-- A run stores what it hands to `getParam`, in order, and nothing else. -/
theorem run_calls (state : UriState) (text : List UInt8) :
    (∃ path, (state.run text).query = (state.calls text).foldl
      (fun query call => getParam query call.1 call.2) (state.query.withPath path)) ∧
    (state.run text).hashesBlock = (state.calls text).foldl
      (fun hashes call => addHash hashes call.1 call.2) state.hashesBlock := by
  induction text generalizing state with
  | nil => exact ⟨⟨_, rfl⟩, rfl⟩
  | cons current rest ih =>
      have round := step_query state current
      obtain ⟨⟨path, later⟩, hashes⟩ := ih (state.step current)
      rw [run, calls]
      by_cases isBlank : current = 32
      · rw [if_pos isBlank, if_pos isBlank]
        exact ⟨⟨state.query.path, rfl⟩, rfl⟩
      · rw [if_neg isBlank, if_neg isBlank, later, hashes]
        by_cases hands : current = 38 ∧ state.status ≠ .path
        · rw [if_pos hands] at round ⊢
          rw [round.1, round.2]
          refine ⟨⟨path, ?_⟩, rfl⟩
          rw [List.foldl_cons, getParam_withPath]
          rfl
        · rw [if_neg hands] at round ⊢
          obtain ⟨⟨path', isQuery⟩, isHashes⟩ := round
          rw [isQuery, isHashes]
          exact ⟨⟨path, rfl⟩, rfl⟩

theorem calls_append (state : UriState) {front : List UInt8}
    (visible : ∀ letter ∈ front, letter ≠ 32) (rest : List UInt8) :
    state.calls (front ++ rest) = state.calls front ++ (state.run front).calls rest := by
  induction front generalizing state with
  | nil => rfl
  | cons letter others ih =>
      obtain ⟨notBlank, later⟩ := List.forall_mem_cons.mp visible
      rw [List.cons_append, calls, calls, run, if_neg notBlank, if_neg notBlank, if_neg notBlank,
        ih _ later]
      split_ifs <;> rfl

theorem run_append (state : UriState) {front : List UInt8}
    (visible : ∀ letter ∈ front, letter ≠ 32) (rest : List UInt8) :
    state.run (front ++ rest) = (state.run front).run rest := by
  have alone := state.run_visible visible []
  rw [List.append_nil] at alone
  rw [run_visible state visible, alone]
  rfl

end UriState

def InParameter (letter : UInt8) : Prop := letter ≠ 0 ∧ letter ≠ 32 ∧ letter ≠ 38

/-- What stands in front of a parameter: the path and the parameters before it. -/
structure UriFront where
  path : List UInt8
  others : List (List UInt8)
  walks : ∀ letter ∈ path, letter ≠ 0 ∧ letter ≠ 32 ∧ letter ≠ 63
  letters : ∀ other ∈ others, ∀ letter ∈ other, InParameter letter

def UriFront.bytes (front : UriFront) : List UInt8 :=
  front.path ++ 63 :: front.others.flatMap (· ++ [38])

namespace UriState

theorem putParam_frame (state : UriState) (letter : UInt8) :
    ∃ len param, state.putParam letter = { state with len := len, param := param } := by
  unfold putParam
  dsimp only
  split_ifs <;> exact ⟨_, _, rfl⟩

theorem putValue_status (state : UriState) (letter : UInt8) :
    (state.putValue letter).status = state.status := by
  unfold putValue writeValue
  split_ifs <;> rfl

theorem step_equals (state : UriState) (inside : state.status ≠ .path) : state.step 61 =
    { state with value := Bytes.zero _, status := .value, len := 0 } := by
  cases status : state.status with
  | path => exact absurd status inside
  | param => simp [step, status]
  | value => simp [step, status]

theorem step_status (state : UriState) (inside : state.status ≠ .path) {letter : UInt8}
    (other : InParameter letter) :
    (state.step letter).status = if letter = 61 then .value else state.status := by
  have notAmpersand := other.2.2
  by_cases equals : letter = 61
  · rw [if_pos equals, equals, step_equals state inside]
  · rw [if_neg equals]
    cases status : state.status with
    | path => exact absurd status inside
    | param =>
        obtain ⟨_, _, put⟩ := putParam_frame state letter
        simp [step, status, equals, notAmpersand, put]
    | value => simp [step, status, equals, notAmpersand, putValue_status]

theorem run_status (state : UriState) (inside : state.status ≠ .path) {text : List UInt8}
    (letters : ∀ letter ∈ text, InParameter letter) :
    (state.run text).status = if 61 ∈ text then .value else state.status := by
  induction text generalizing state with
  | nil => rfl
  | cons letter rest ih =>
      obtain ⟨other, later⟩ := List.forall_mem_cons.mp letters
      have round := step_status state inside other
      have stays : (state.step letter).status ≠ .path := by
        rw [round]
        split_ifs
        · simp
        · exact inside
      rw [run, if_neg other.2.1, ih _ stays later, round]
      by_cases inRest : 61 ∈ rest
      · rw [if_pos inRest, if_pos (List.mem_cons_of_mem _ inRest)]
      · rw [if_neg inRest]
        by_cases equals : letter = 61
        · rw [if_pos equals, if_pos (equals ▸ List.mem_cons_self)]
        · rw [if_neg equals, if_neg]
          intro member
          rcases List.mem_cons.mp member with same | behind
          · exact equals same.symm
          · exact inRest behind

theorem run_equals (state : UriState) (inside : state.status ≠ .path) (rest : List UInt8) :
    state.run (61 :: rest) =
      { state with value := Bytes.zero _, status := .value, len := 0 : UriState }.run rest := by
  rw [run, if_neg (by decide), step_equals state inside]

def Marks (state : UriState) : Escape → Prop
  | .closed => state.percent = 0
  | .percent => state.percent = 1
  | .digit high => state.percent = 2 ∧ state.percentChars.1 = high

/-- What the loop keeps from the parameters that it has read. -/
structure Reads (state : UriState) (before : List UInt8 × Escape) : Prop where
  value : state.value = Bytes.ofList _ before.1
  marks : state.Marks before.2

/-- The loop inside a value of which it has written these bytes and has this much room. -/
structure Fills (state : UriState) (written : List UInt8) (room : Nat) (escape : Escape) : Prop
    extends Reads state (written, escape) where
  status : state.status = .value
  len : state.len = written.length
  fits : written.length + room = uriParamValueLength

theorem Reads.equals {state : UriState} {before : List UInt8 × Escape} (reads : Reads state before) :
    Fills { state with value := Bytes.zero _, status := .value, len := 0 } []
      uriParamValueLength before.2 where
  value := Bytes.ofList_nil.symm
  marks := reads.marks
  status := rfl
  len := rfl
  fits := Nat.zero_add _

theorem Reads.name {state : UriState} {before : List UInt8 × Escape} (reads : Reads state before)
    (naming : state.status = .param) {text : List UInt8}
    (letters : ∀ letter ∈ text, InParameter letter) (noEquals : 61 ∉ text) :
    Reads (state.run text) before := by
  induction text generalizing state with
  | nil => exact reads
  | cons letter rest ih =>
      obtain ⟨⟨_, notBlank, notAmpersand⟩, later⟩ := List.forall_mem_cons.mp letters
      rw [List.mem_cons, not_or] at noEquals
      have notEquals : letter ≠ 61 := fun same => noEquals.1 same.symm
      obtain ⟨len, param, put⟩ := putParam_frame state letter
      have round : state.step letter = { state with len := len, param := param } := by
        simp [step, naming, notAmpersand, notEquals, put]
      rw [run, if_neg notBlank, round]
      exact ih ⟨reads.value, reads.marks⟩ naming later noEquals.2

section Fills

variable {state : UriState} {written : List UInt8} {room : Nat} {escape : Escape}

theorem Fills.write (fills : Fills state written (room + 1) escape) (closed : state.percent = 0)
    (letter : UInt8) : Fills (state.writeValue letter) (written ++ [letter]) room .closed where
  value := by
    have value : state.value = Bytes.ofList _ written := fills.value
    have within : written.length < uriParamValueLength := by
      have fits := fills.fits
      omega
    rw [writeValue, fills.len, value]
    exact Bytes.ofList_concat_of_lt letter within
  marks := closed
  status := fills.status
  len := by
    rw [writeValue, fills.len, List.length_append, List.length_singleton]
  fits := by
    rw [List.length_append, List.length_singleton, ← fills.fits]
    omega

theorem Fills.within (fills : Fills state written (room + 1) escape) :
    state.len < uriParamValueLength := by
  have fits := fills.fits
  rw [fills.len]
  omega

theorem Fills.percent (fills : Fills state written (room + 1) escape) :
    Fills (state.putValue 37) written (room + 1) .percent := by
  rw [putValue, if_pos fills.within, if_pos rfl]
  exact ⟨⟨fills.value, rfl⟩, fills.status, fills.len, fills.fits⟩

theorem Fills.letter (fills : Fills state written (room + 1) .closed) {letter : UInt8}
    (other : letter ≠ 37) :
    Fills (state.putValue letter) (written ++ [letter]) room .closed := by
  have none : state.percent = 0 := fills.marks
  rw [putValue, if_pos fills.within, if_neg other, if_neg (by omega), if_neg (by omega)]
  exact fills.write none letter

theorem Fills.high (fills : Fills state written (room + 1) .percent) {letter : UInt8}
    (other : letter ≠ 37) : Fills (state.putValue letter) written (room + 1) (.digit letter) := by
  have one : state.percent = 1 := fills.marks
  rw [putValue, if_pos fills.within, if_neg other, if_pos one]
  exact ⟨⟨fills.value, rfl, rfl⟩, fills.status, fills.len, fills.fits⟩

theorem Fills.low {high : UInt8} (fills : Fills state written (room + 1) (.digit high))
    {letter : UInt8} (other : letter ≠ 37) :
    Fills (state.putValue letter) (written ++ [escapedByte high letter]) room .closed := by
  obtain ⟨two, rfl⟩ : state.percent = 2 ∧ state.percentChars.1 = high := fills.marks
  have begun : Fills { state with percent := 0, percentChars := (state.percentChars.1, letter) }
      written (room + 1) .closed :=
    ⟨⟨fills.value, rfl⟩, fills.status, fills.len, fills.fits⟩
  rw [putValue, if_pos fills.within, if_neg other, if_neg (by omega), if_pos two]
  exact begun.write rfl _

theorem Fills.full (fills : Fills state written 0 escape) (letter : UInt8) :
    state.putValue letter = state := by
  have full : ¬state.len < uriParamValueLength := by
    rw [fills.len, ← fills.fits]
    omega
  rw [UriState.putValue, if_neg full]

theorem Fills.run (fills : Fills state written room escape) {text : List UInt8}
    (letters : ∀ letter ∈ text, InParameter letter) (noEquals : 61 ∉ text) :
    Reads (state.run text)
      (written ++ (readValue escape room text).1, (readValue escape room text).2) := by
  induction text generalizing state written room escape with
  | nil =>
      have none : readValue escape room [] = ([], escape) := by cases room <;> rfl
      rw [none, List.append_nil]
      exact fills.toReads
  | cons letter rest ih =>
      obtain ⟨⟨_, notBlank, notAmpersand⟩, later⟩ := List.forall_mem_cons.mp letters
      rw [List.mem_cons, not_or] at noEquals
      have notEquals : letter ≠ 61 := fun same => noEquals.1 same.symm
      have round : state.step letter = state.putValue letter := by
        simp [step, fills.status, notAmpersand, notEquals]
      rw [UriState.run, if_neg notBlank, round]
      cases room with
      | zero =>
          have whole := ih fills later noEquals.2
          rw [fills.full]
          rwa [readValue] at whole ⊢
      | succ room =>
          by_cases isPercent : letter = 37
          · rw [isPercent, readValue_percent]
            exact ih fills.percent later noEquals.2
          · cases escape with
            | closed =>
                have whole := ih (fills.letter isPercent) later noEquals.2
                rw [readValue_letter _ isPercent]
                rwa [List.append_assoc, List.singleton_append] at whole
            | percent =>
                rw [readValue_high _ isPercent]
                exact ih (fills.high isPercent) later noEquals.2
            | digit high =>
                have whole := ih (fills.low isPercent) later noEquals.2
                rw [readValue_low _ isPercent]
                rwa [List.append_assoc, List.singleton_append] at whole

end Fills

theorem Reads.values {state : UriState} {before : List UInt8 × Escape} (reads : Reads state before)
    (inside : state.status ≠ .path) {values : List (List UInt8)}
    (letters : ∀ value ∈ values, ∀ letter ∈ value, InParameter letter)
    (noEquals : ∀ value ∈ values, 61 ∉ value) :
    Reads (state.run (values.flatMap (61 :: ·))) (values.foldl
      (fun before value => readValue before.2 uriParamValueLength value) before) := by
  induction values generalizing state before with
  | nil => exact reads
  | cons value rest ih =>
      obtain ⟨here, later⟩ := List.forall_mem_cons.mp letters
      obtain ⟨noEquals, noEquals'⟩ := List.forall_mem_cons.mp noEquals
      have visible : ∀ letter ∈ value, letter ≠ 32 := fun letter member => (here letter member).2.1
      have stays : ({ state with value := Bytes.zero _, status := .value, len := 0 : UriState }.run
          value).status ≠ .path := by
        rw [run_status _ (by simp) here, ite_self]
        simp
      rw [List.flatMap_cons, List.cons_append, run_equals state inside, run_append _ visible]
      exact ih (reads.equals.run here noEquals) stays later noEquals'

theorem Reads.parameter {state : UriState} {before : List UInt8 × Escape}
    (reads : Reads state before) (begins : state.status = .param) {text : List UInt8}
    (letters : ∀ letter ∈ text, InParameter letter) :
    Reads (state.run text) ((valueTexts text).foldl
      (fun before value => readValue before.2 uriParamValueLength value) before) := by
  obtain ⟨name, -, noEquals, noEquals', joined⟩ := exists_valueTexts text
  have inName : ∀ letter ∈ name, InParameter letter := by
    intro letter member
    refine letters letter ?_
    rw [joined]
    exact List.mem_append_left _ member
  have inside : state.status ≠ .path := by simp [begins]
  have stays : (state.run name).status ≠ .path := by
    rw [run_status _ inside inName, if_neg noEquals]
    exact inside
  have whole : Reads (state.run (name ++ (valueTexts text).flatMap (61 :: ·)))
      ((valueTexts text).foldl
        (fun before value => readValue before.2 uriParamValueLength value) before) := by
    rw [run_append _ fun letter member => (inName letter member).2.1]
    refine (reads.name begins inName noEquals).values stays ?_ noEquals'
    intro value member letter inValue
    exact letters letter (mem_of_mem_valueTexts member inValue)
  rwa [← joined] at whole

theorem calls_inside (state : UriState) (inside : state.status ≠ .path) {text : List UInt8}
    (letters : ∀ letter ∈ text, InParameter letter) : state.calls text = [] := by
  induction text generalizing state with
  | nil => rfl
  | cons letter rest ih =>
      obtain ⟨other, later⟩ := List.forall_mem_cons.mp letters
      have stays : (state.step letter).status ≠ .path := by
        rw [step_status state inside other]
        split_ifs
        · simp
        · exact inside
      rw [calls, if_neg other.2.1, if_neg fun hands => other.2.2 hands.1]
      exact ih _ stays later

theorem calls_end (state : UriState) (inside : state.status ≠ .path) {terminator : UInt8}
    (ends : terminator = 32 ∨ terminator = 38) (rest : List UInt8) :
    ∃ later, state.calls (terminator :: rest) = (state.param, state.value) :: later := by
  rcases ends with rfl | rfl
  · exact ⟨[], rfl⟩
  · rw [calls, if_neg (by decide), if_pos ⟨rfl, inside⟩]
    exact ⟨_, rfl⟩

theorem Reads.path {state : UriState} {before : List UInt8 × Escape} (reads : Reads state before)
    (walking : state.status = .path) {path : List UInt8}
    (walks : ∀ letter ∈ path, letter ≠ 0 ∧ letter ≠ 32 ∧ letter ≠ 63) :
    (state.run (path ++ [63])).status = .param ∧ state.calls (path ++ [63]) = [] ∧
      Reads (state.run (path ++ [63])) before := by
  induction path generalizing state with
  | nil =>
      have round : state.step 63 = { state with status := .param } := by simp [step, walking]
      rw [List.nil_append, run, calls, if_neg (by decide), if_neg (by decide),
        if_neg fun hands => hands.2 walking, round]
      exact ⟨rfl, rfl, reads.value, reads.marks⟩
  | cons letter rest ih =>
      obtain ⟨⟨_, notBlank, notQuestion⟩, later⟩ := List.forall_mem_cons.mp walks
      have round : (state.step letter).status = .path ∧ Reads (state.step letter) before := by
        simp only [step, walking, notQuestion, putPath, if_false]
        split_ifs <;> exact ⟨rfl, reads.value, reads.marks⟩
      rw [List.cons_append, run, calls, if_neg notBlank, if_neg notBlank,
        if_neg fun hands => hands.2 walking]
      exact ih round.2 round.1 later

/-- Every parameter in front of an ampersand is read and handed over, and then the next one
begins. -/
theorem Reads.others {state : UriState} {before : List UInt8 × Escape} (reads : Reads state before)
    (begins : state.status = .param) {others : List (List UInt8)}
    (letters : ∀ other ∈ others, ∀ letter ∈ other, InParameter letter) :
    (state.run (others.flatMap (· ++ [38]))).status = .param ∧
      (state.calls (others.flatMap (· ++ [38]))).length = others.length ∧
      Reads (state.run (others.flatMap (· ++ [38]))) ((others.flatMap valueTexts).foldl
        (fun before value => readValue before.2 uriParamValueLength value) before) := by
  induction others generalizing state before with
  | nil => exact ⟨begins, rfl, reads⟩
  | cons other rest ih =>
      obtain ⟨here, later⟩ := List.forall_mem_cons.mp letters
      have inside : state.status ≠ .path := by simp [begins]
      have visible : ∀ letter ∈ other, letter ≠ 32 := fun letter member => (here letter member).2.1
      have inside' : (state.run other).status ≠ .path := by
        rw [run_status state inside here]
        split_ifs
        · simp
        · exact inside
      have read := reads.parameter begins here
      have next : (state.run other).step 38 =
          { (state.run other).callGetParam with param := [], status := .param } := by
        cases status : (state.run other).status with
        | path => exact absurd status inside'
        | param => simp [step, status]
        | value => simp [step, status]
      have read' : Reads ((state.run other).step 38) ((valueTexts other).foldl
          (fun before value => readValue before.2 uriParamValueLength value) before) := by
        rw [next]
        exact ⟨read.value, read.marks⟩
      obtain ⟨ends, count, readRest⟩ := ih read' (by rw [next]) later
      rw [List.flatMap_cons, List.append_assoc, List.singleton_append, run_append state visible,
        calls_append state visible, calls_inside state inside here, run, calls,
        if_neg (by decide), if_neg (by decide), if_pos ⟨rfl, inside'⟩, List.flatMap_cons,
        List.foldl_append]
      exact ⟨ends, congrArg (· + 1) count, readRest⟩

end UriState

namespace UriFront

variable (front : UriFront) (query : Query) (hashesBlock : Option (List UInt8))

def state : UriState := (UriState.start query hashesBlock).run front.bytes

theorem visible : ∀ letter ∈ front.bytes, letter ≠ 0 ∧ letter ≠ 32 := by
  intro letter member
  rcases List.mem_append.mp member with inPath | behind
  · exact ⟨(front.walks letter inPath).1, (front.walks letter inPath).2.1⟩
  · rcases List.mem_cons.mp behind with rfl | inOthers
    · decide
    · obtain ⟨other, isOther, inOther⟩ := List.mem_flatMap.mp inOthers
      rcases List.mem_append.mp inOther with inText | ampersand
      · have inParameter := front.letters other isOther letter inText
        exact ⟨inParameter.1, inParameter.2.1⟩
      · rw [List.mem_singleton.mp ampersand]
        decide

def values : List (List UInt8) := front.others.flatMap valueTexts

theorem begins : (front.state query hashesBlock).status = .param ∧
    ((UriState.start query hashesBlock).calls front.bytes).length = front.others.length ∧
    (front.state query hashesBlock).Reads (readAll front.values) := by
  have started : (UriState.start query hashesBlock).Reads ([], .closed) := ⟨Bytes.ofList_nil.symm, rfl⟩
  obtain ⟨begun, none, read⟩ := started.path rfl front.walks
  have visible : ∀ letter ∈ front.path ++ [63], letter ≠ 32 := by
    intro letter member
    rcases List.mem_append.mp member with inPath | question
    · exact (front.walks letter inPath).2.1
    · rw [List.mem_singleton.mp question]
      decide
  have others := read.others begun front.letters
  have split : front.bytes = (front.path ++ [63]) ++ front.others.flatMap (· ++ [38]) := by
    simp [bytes]
  rw [state, split, UriState.run_append _ visible, UriState.calls_append _ visible, none]
  exact others

end UriFront

/-- The text of a parameter, up to the next ampersand or blank. -/
abbrev ParameterText := { text : List UInt8 // ∀ letter ∈ text, InParameter letter }

def UriFront.message (front : UriFront) (text : ParameterText) (rest : List UInt8) : List UInt8 :=
  ascii "GET " ++ (front.bytes ++ (text.val ++ rest))

def handedCalls (query : Query) (hashesBlock : Option (List UInt8)) (message : List UInt8) :
    List (List UInt8 × ParamValue) :=
  (UriState.start query hashesBlock).calls ((cString message).drop 4)

def UriFront.handed (front : UriFront) (query : Query) (hashesBlock : Option (List UInt8))
    (text : ParameterText) (rest : List UInt8) : Option ParamValue :=
  ((handedCalls query hashesBlock (front.message text rest))[front.others.length]?).map Prod.snd

/-- What is handed over are the bytes that the values stand for, up to the last one. -/
theorem UriFront.handed_eq (front : UriFront) (query : Query) (hashesBlock : Option (List UInt8))
    (text : ParameterText) {terminator : UInt8} (ends : terminator = 32 ∨ terminator = 38)
    (rest : List UInt8) : front.handed query hashesBlock text (terminator :: rest) =
      some (Bytes.ofList _ (readAll (front.values ++ valueTexts text.val)).1) := by
  obtain ⟨begun, count, read⟩ := front.begins query hashesBlock
  have frontVisible := fun letter member => (front.visible letter member).2
  have textVisible := fun letter member => (text.property letter member).2.1
  have inside : (front.state query hashesBlock).status ≠ .path := by simp [begun]
  have inside' : ((front.state query hashesBlock).run text.val).status ≠ .path := by
    rw [UriState.run_status _ inside text.property]
    split_ifs
    · simp
    · exact inside
  have shown : terminator ≠ 0 := by
    rcases ends with rfl | rfl <;> decide
  have method : ∀ letter ∈ ascii "GET ", letter ≠ 0 := by decide +kernel
  have target : (cString (front.message text (terminator :: rest))).drop 4 =
      front.bytes ++ (text.val ++ terminator :: cString rest) := by
    rw [cString, message,
      List.takeWhile_append_of_pos fun letter member => by simpa using method letter member,
      List.takeWhile_append_of_pos fun letter member => by
        simpa using (front.visible letter member).1,
      List.takeWhile_append_of_pos fun letter member => by
        simpa using (text.property letter member).1,
      List.takeWhile_cons_of_pos (by simpa using shown)]
    exact List.drop_left' (by decide)
  obtain ⟨later, handed⟩ := UriState.calls_end _ inside' ends (cString rest)
  have isState : (UriState.start query hashesBlock).run front.bytes =
    front.state query hashesBlock := rfl
  have value := (read.parameter begun text.property).value
  rw [← readAll_append] at value
  rw [UriFront.handed, handedCalls, target, UriState.calls_append _ frontVisible,
    UriState.calls_append _ textVisible, isState, UriState.calls_inside _ inside text.property,
    List.nil_append, handed, ← count, List.getElem?_append_right (Nat.le_refl _), Nat.sub_self]
  exact congrArg some value

def UriFront.first : UriFront := ⟨[], [], by simp, by simp⟩

def aloneValue (text : ParameterText) : ParamValue :=
  ((UriFront.first.state Query.empty none).run text.val).value

theorem aloneValue_eq (text : ParameterText) :
    aloneValue text = Bytes.ofList _ (readAll (valueTexts text.val)).1 := by
  obtain ⟨begun, -, read⟩ := UriFront.first.begins Query.empty none
  exact (read.parameter begun text.property).value

/-- The texts of the parameters in front spare the parameter: behind what they leave open its last
value stands for the bytes that it stands for by itself, and if it has none, their last value is
made of zeros. -/
def UriFront.Spares (front : UriFront) (text : ParameterText) : Prop :=
  match (valueTexts text.val).getLast? with
  | none => ∀ byte ∈ (readAll front.values).1, byte = 0
  | some value =>
      let before := (valueTexts text.val).dropLast
      (readAll (front.values ++ before)).2 = (readAll before).2 ∨
        Harmless (readAll (front.values ++ before)).2 value

theorem ofList_eq_zero_iff {bytes : List UInt8} {count : Nat} (fits : bytes.length ≤ count) :
    Bytes.ofList count bytes = Bytes.zero _ ↔ ∀ byte ∈ bytes, byte = 0 := by
  constructor
  · intro same byte member
    have inside : byte ∈ (Bytes.ofList count bytes).list := by
      rw [Bytes.ofList_list, List.take_of_length_le fits]
      exact List.mem_append_left _ member
    rw [same] at inside
    exact List.eq_of_mem_replicate inside
  · intro zeros
    apply Bytes.ext
    rw [Bytes.ofList_list, List.take_of_length_le fits, List.eq_replicate_of_mem zeros,
      List.length_replicate, List.replicate_append_replicate, Bytes.zero_list]
    congr 1
    omega

def secondFront (other : List UInt8) (letters : ∀ letter ∈ other, InParameter letter) :
    UriFront where
  path := ascii "announce"
  others := [other]
  walks := by decide +kernel
  letters := List.forall_mem_singleton.mpr letters

instance decidableInParameter (letter : UInt8) : Decidable (InParameter letter) :=
  inferInstanceAs (Decidable (letter ≠ 0 ∧ letter ≠ 32 ∧ letter ≠ 38))

/-- The value of a parameter is the one that it has when it stands first exactly where the texts in
front of it spare it; without an equals sign that value is empty. -/
theorem UriFront.handed_alone_iff (front : UriFront) (query : Query)
    (hashesBlock : Option (List UInt8)) (text : ParameterText) {terminator : UInt8}
    (ends : terminator = 32 ∨ terminator = 38) (rest : List UInt8) :
    (front.handed query hashesBlock text (terminator :: rest) = some (aloneValue text) ↔
      front.Spares text) ∧
    (61 ∉ text.val → aloneValue text = Bytes.zero _) := by
  rw [front.handed_eq _ _ _ ends, Option.some.injEq, aloneValue_eq]
  constructor
  · rcases List.eq_nil_or_concat' (valueTexts text.val) with none | ⟨before, value, values⟩
    · have empty : Bytes.ofList uriParamValueLength (readAll []).1 = Bytes.zero _ :=
        Bytes.ofList_nil
      rw [Spares, none, List.append_nil, empty]
      exact ofList_eq_zero_iff (readAll_length _)
    · have shown : ∀ letter ∈ value, letter ≠ 0 := by
        intro letter member
        refine (text.property letter (mem_of_mem_valueTexts ?_ member)).1
        rw [values]
        exact List.mem_append_right _ List.mem_cons_self
      rw [Spares, values, List.getLast?_concat, List.dropLast_concat, ← List.append_assoc,
        readAll_concat, readAll_concat]
      show readBuffer _ value = readBuffer _ value ↔ _
      rcases readAll_left front.values before with same | closed
      · rw [same]
        exact iff_of_true rfl (Or.inl same)
      · rw [closed, readBuffer_harmless shown]
        refine ⟨Or.inr, fun spared => spared.elim (fun same => ?_) id⟩
        rw [same, closed]
        exact .closed _
  · intro noEquals
    rw [valueTexts_eq_nil noEquals]
    rfl

/-- In `a=%&b=%41` the second value is read right, and in `a=%&b=41` it is not. -/
theorem UriFront.handed_alone_iff_escaped :
    (secondFront (ascii "a=%") (by decide +kernel)).handed Query.empty none
        ⟨ascii "b=%41", by decide +kernel⟩ [32] =
      some (aloneValue ⟨ascii "b=%41", by decide +kernel⟩) ∧
    (secondFront (ascii "a=%") (by decide +kernel)).handed Query.empty none
        ⟨ascii "b=41", by decide +kernel⟩ [32] ≠
      some (aloneValue ⟨ascii "b=41", by decide +kernel⟩) := by
  constructor
  · exact (UriFront.handed_alone_iff _ _ _ _ (Or.inl rfl) []).1.mpr (Or.inr (.again _ _))
  · intro same
    have spares := (UriFront.handed_alone_iff _ _ _ _ (Or.inl rfl) []).1.mp same
    rcases spares with same | harmless
    · exact absurd same (by decide +kernel)
    · change Harmless .percent [52, 49] at harmless
      cases harmless with
      | rows _ high _ => exact absurd high (by decide +kernel)

theorem UriState.Naming.closed {state : UriState} {query : Query} {hashes : Option (List UInt8)}
    (naming : Naming state query hashes []) (parameters : List Parameter) :
    (state.run (parameters.flatMap fun parameter => parameter.bytes ++ [38])).percent = 0 := by
  induction parameters generalizing state query hashes with
  | nil => exact naming.percent
  | cons parameter rest ih =>
      have visible := fun letter member => (parameter.bytes_visible letter member).2
      rw [List.flatMap_cons, List.append_assoc, List.singleton_append, run_visible state visible,
        run, if_neg (by decide)]
      exact ih (naming.parameter parameter).ampersand

theorem UriFront.closed (front : UriFront) {parameters : List Parameter}
    (encoded : front.others = parameters.map Parameter.bytes) :
    (readAll front.values).2 = .closed := by
  have walks := fun letter member => (front.walks letter member).2
  have begun : UriState.Walking (UriState.start Query.empty none) Query.empty none :=
    ⟨rfl, rfl, ⟨_, rfl, rfl⟩, rfl⟩
  obtain ⟨path, naming⟩ := (begun.letters fun letter member => (walks letter member).2).question
  have rest := naming.closed parameters
  have marks := (front.begins Query.empty none).2.2.marks
  have none : (front.state Query.empty none).percent = 0 := by
    rw [state, bytes, encoded, List.flatMap_map,
      UriState.run_visible _ fun letter member => (walks letter member).1, UriState.run,
      if_neg (by decide)]
    exact rest
  cases opened : (readAll front.values).2 with
  | closed => rfl
  | percent =>
      rw [opened] at marks
      exact absurd (none.symm.trans marks) (by decide)
  | digit high =>
      rw [opened] at marks
      exact absurd (none.symm.trans marks.1) (by decide)

theorem UriFront.spares (front : UriFront) {parameters : List Parameter}
    (encoded : front.others = parameters.map Parameter.bytes) (text : ParameterText)
    (equals : 61 ∈ text.val) : front.Spares text := by
  rcases List.eq_nil_or_concat' (valueTexts text.val) with none | ⟨before, value, values⟩
  · obtain ⟨name, -, noEquals, -, joined⟩ := exists_valueTexts text.val
    rw [none, List.flatMap_nil, List.append_nil] at joined
    exact absurd (joined ▸ equals) noEquals
  · rw [Spares, values, List.getLast?_concat, List.dropLast_concat]
    refine Or.inl ?_
    clear values
    induction before using List.reverseRecOn with
    | nil => rw [List.append_nil, front.closed encoded]; rfl
    | append_singleton before value ih =>
        rw [← List.append_assoc, readAll_concat, readAll_concat, ih]

/-- In `a=%&b=41` the second value is read as an escape; in `port=1&event` it is the first one. -/
theorem handed_leaks :
    (¬∀ (front : UriFront) (query : Query) (hashesBlock : Option (List UInt8))
      (text : ParameterText) (terminator : UInt8) (rest : List UInt8), 61 ∈ text.val →
      terminator = 32 ∨ terminator = 38 →
      front.handed query hashesBlock text (terminator :: rest) = some (aloneValue text)) ∧
    ¬∀ (front : UriFront) (query : Query) (hashesBlock : Option (List UInt8))
      (text : ParameterText) (terminator : UInt8) (rest : List UInt8), 61 ∉ text.val →
      terminator = 32 ∨ terminator = 38 →
      front.handed query hashesBlock text (terminator :: rest) = some (Bytes.zero _) := by
  constructor
  · intro alone
    have same := alone (secondFront (ascii "a=%") (by decide +kernel)) Query.empty none
      ⟨ascii "b=41", by decide +kernel⟩ 32 [] (by decide +kernel) (Or.inl rfl)
    exact absurd same (by decide +kernel)
  · intro empty
    have same := empty (secondFront (ascii "port=1") (by decide +kernel)) Query.empty none
      ⟨ascii "event", by decide +kernel⟩ 32 [] (by decide +kernel) (Or.inl rfl)
    exact absurd same (by decide +kernel)

end Etracker
