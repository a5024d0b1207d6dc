import Etracker.Foundation.Numerals
import Etracker.Uri.Model

namespace Etracker

open Foundation Foundation.CString

structure NameLetter (letter : UInt8) : Prop where
  notZero : letter ≠ 0
  notBlank : letter ≠ 32
  notAmpersand : letter ≠ 38
  notEquals : letter ≠ 61

/-- A letter that stands for itself in a value. -/
structure Plain (letter : UInt8) : Prop extends NameLetter letter where
  notPercent : letter ≠ 37

theorem plain_of_digit {base digit : Nat} {letter : UInt8}
    (value : digitValue base letter = some digit) : Plain letter := by
  have range := digitValue_range value
  refine ⟨⟨?_, ?_, ?_, ?_⟩, ?_⟩ <;> rintro rfl <;> simp at range

inductive Encodes : List UInt8 → List UInt8 → Prop
  | nil : Encodes [] []
  | literal {letter : UInt8} {text bytes : List UInt8} : Plain letter → Encodes text bytes →
      Encodes (letter :: text) (letter :: bytes)
  | escaped {high low : UInt8} {upper lower : Nat} {text bytes : List UInt8} :
      digitValue 16 high = some upper → digitValue 16 low = some lower → Encodes text bytes →
      Encodes (37 :: high :: low :: text) (UInt8.ofNat (upper * 16 + lower) :: bytes)

theorem Encodes.visible {text bytes : List UInt8} (encodes : Encodes text bytes) :
    ∀ letter ∈ text, letter ≠ 0 ∧ letter ≠ 32 := by
  induction encodes with
  | nil => simp
  | literal plain _ ih => exact List.forall_mem_cons.mpr ⟨⟨plain.notZero, plain.notBlank⟩, ih⟩
  | escaped first second _ ih =>
      have high := plain_of_digit first
      have low := plain_of_digit second
      simp only [List.forall_mem_cons]
      exact ⟨by decide, ⟨high.notZero, high.notBlank⟩, ⟨low.notZero, low.notBlank⟩, ih⟩

/-- One `name=value` of a request line. -/
structure Parameter where
  name : List UInt8
  text : List UInt8
  value : List UInt8
  named : ∀ letter ∈ name, NameLetter letter
  encodes : Encodes text value

namespace Parameter

def bytes (parameter : Parameter) : List UInt8 := parameter.name ++ 61 :: parameter.text

def line : List Parameter → List UInt8
  | [] => []
  | [parameter] => parameter.bytes
  | parameter :: rest => parameter.bytes ++ 38 :: line rest

theorem bytes_visible (parameter : Parameter) :
    ∀ letter ∈ parameter.bytes, letter ≠ 0 ∧ letter ≠ 32 := by
  intro letter member
  simp only [bytes, List.mem_append, List.mem_cons] at member
  rcases member with inName | rfl | inText
  · exact ⟨(parameter.named letter inName).notZero, (parameter.named letter inName).notBlank⟩
  · decide
  · exact parameter.encodes.visible letter inText

theorem line_visible (parameters : List Parameter) :
    ∀ letter ∈ line parameters, letter ≠ 0 ∧ letter ≠ 32 := by
  fun_induction line parameters with
  | case1 => simp
  | case2 parameter => exact parameter.bytes_visible
  | case3 parameter rest _ ih =>
      intro letter member
      simp only [List.mem_append, List.mem_cons] at member
      rcases member with inFirst | rfl | inRest
      · exact parameter.bytes_visible letter inFirst
      · decide
      · exact ih letter inRest

/-- What `getParam` is called with: names and values are cut off after 20 bytes. -/
def store (query : Query) (parameter : Parameter) : Query :=
  getParam query (parameter.name.take uriParamValueLength)
    (Bytes.ofList uriParamValueLength parameter.value)

def storeHash (hashesBlock : Option (List UInt8)) (parameter : Parameter) : Option (List UInt8) :=
  addHash hashesBlock (parameter.name.take uriParamValueLength)
    (Bytes.ofList uriParamValueLength parameter.value)

end Parameter

namespace UriState

abbrev Holds (state : UriState) (query : Query) (hashes : Option (List UInt8)) : Prop :=
  state.query = query ∧ state.hashesBlock = hashes

/-- The loop has read a part of the path, for which only the path was changed. -/
structure Walking (state : UriState) (query : Query) (hashes : Option (List UInt8)) : Prop where
  status : state.status = .path
  percent : state.percent = 0
  stored : ∃ path, Holds state { query with path := path } hashes
  param : state.param = []

structure Naming (state : UriState) (query : Query) (hashes : Option (List UInt8))
    (name : List UInt8) : Prop where
  status : state.status = .param
  percent : state.percent = 0
  stored : Holds state query hashes
  param : state.param = name.take uriParamValueLength

structure Reading (state : UriState) (query : Query) (hashes : Option (List UInt8))
    (name value : List UInt8) : Prop where
  status : state.status = .value
  percent : state.percent = 0
  stored : Holds state query hashes
  param : state.param = name.take uriParamValueLength
  buffer : state.value = Bytes.ofList uriParamValueLength value
  len : state.len = min uriParamValueLength value.length

variable {state : UriState} {query : Query} {hashes : Option (List UInt8)}
  {name value : List UInt8}

theorem Walking.letter (walking : Walking state query hashes) {letter : UInt8}
    (walks : letter ≠ 63) : Walking (state.step letter) query hashes := by
  obtain ⟨status, percent, ⟨path, isQuery, isHashes⟩, param⟩ := walking
  have taken : state.step letter = state.putPath letter := by
    simp [step, status, walks]
  rw [taken, putPath, isQuery]
  dsimp only
  split_ifs
  · exact ⟨status, percent, ⟨_, rfl, isHashes⟩, param⟩
  · exact ⟨status, percent, ⟨path, rfl, isHashes⟩, param⟩

theorem Walking.letters (walking : Walking state query hashes) {letters : List UInt8}
    (walks : ∀ letter ∈ letters, letter ≠ 63) :
    Walking (letters.foldl step state) query hashes := by
  induction letters generalizing state with
  | nil => exact walking
  | cons letter rest ih =>
      obtain ⟨first, others⟩ := List.forall_mem_cons.mp walks
      exact ih (walking.letter first) others

theorem Walking.question (walking : Walking state query hashes) :
    ∃ path, Naming (state.step 63) { query with path := path } hashes [] := by
  obtain ⟨status, percent, ⟨path, isQuery, isHashes⟩, param⟩ := walking
  have taken : state.step 63 = { state with status := .param } := by
    simp [step, status]
  rw [taken]
  exact ⟨path, rfl, percent, ⟨isQuery, isHashes⟩, param⟩

theorem Naming.letter (naming : Naming state query hashes name) {letter : UInt8}
    (plain : NameLetter letter) :
    Naming (state.step letter) query hashes (name ++ [letter]) := by
  obtain ⟨status, percent, stored, param⟩ := naming
  have taken : state.step letter = state.putParam letter := by
    simp [step, status, plain.notEquals, plain.notAmpersand]
  rw [taken, putParam, param]
  have cut : (name.take uriParamValueLength).length = min uriParamValueLength name.length :=
    List.length_take
  split_ifs with room
  · refine ⟨status, percent, stored, ?_⟩
    have short : name.length < uriParamValueLength := by omega
    rw [List.take_of_length_le (by omega), List.take_of_length_le]
    simp only [List.length_append, List.length_singleton]
    omega
  · refine ⟨status, percent, stored, ?_⟩
    have long : uriParamValueLength ≤ name.length := by omega
    rw [List.take_append_of_le_length long]

theorem Naming.equals (naming : Naming state query hashes name) :
    Reading (state.step 61) query hashes name [] := by
  obtain ⟨status, percent, stored, param⟩ := naming
  have taken : state.step 61 = { state with value := Bytes.zero _, status := .value, len := 0 } := by
    simp [step, status]
  rw [taken]
  exact ⟨rfl, percent, stored, param, Bytes.ofList_nil.symm, rfl⟩

theorem Reading.write (reading : Reading state query hashes name value) (letter : UInt8)
    (room : value.length < uriParamValueLength) :
    Reading (state.writeValue letter) query hashes name (value ++ [letter]) := by
  obtain ⟨status, percent, stored, param, buffer, len⟩ := reading
  have place : state.len = value.length := by omega
  refine ⟨status, percent, stored, param, ?_, ?_⟩
  · rw [writeValue, buffer, place, Bytes.ofList_concat_of_lt letter room]
  · simp only [writeValue, place, List.length_append, List.length_singleton]
    omega

theorem Reading.overflow (reading : Reading state query hashes name value) (letter : UInt8)
    (full : uriParamValueLength ≤ value.length) :
    Reading state query hashes name (value ++ [letter]) := by
  obtain ⟨status, percent, stored, param, buffer, len⟩ := reading
  refine ⟨status, percent, stored, param, ?_, ?_⟩
  · rw [buffer, Bytes.ofList_concat_of_le letter full]
  · rw [List.length_append]
    omega

theorem Reading.step_eq (reading : Reading state query hashes name value) {letter : UInt8}
    (notEquals : letter ≠ 61) (notAmpersand : letter ≠ 38) :
    state.step letter = state.putValue letter := by
  simp [step, reading.status, notEquals, notAmpersand]

theorem Reading.step_full (reading : Reading state query hashes name value)
    (full : uriParamValueLength ≤ value.length) {letter : UInt8} (notEquals : letter ≠ 61)
    (notAmpersand : letter ≠ 38) : state.step letter = state := by
  rw [reading.step_eq notEquals notAmpersand, putValue, reading.len]
  apply if_neg
  omega

theorem Reading.letter (reading : Reading state query hashes name value) {letter : UInt8}
    (plain : Plain letter) : Reading (state.step letter) query hashes name (value ++ [letter]) := by
  by_cases room : value.length < uriParamValueLength
  · have hasRoom : min uriParamValueLength value.length < uriParamValueLength := by omega
    have percent := reading.percent
    rw [reading.step_eq plain.notEquals plain.notAmpersand, putValue, reading.len, if_pos hasRoom,
      if_neg plain.notPercent, if_neg (by omega), if_neg (by omega)]
    exact reading.write letter room
  · rw [reading.step_full (by omega) plain.notEquals plain.notAmpersand]
    exact reading.overflow letter (by omega)

theorem Reading.escaped (reading : Reading state query hashes name value) {high low : UInt8}
    {upper lower : Nat} (first : digitValue 16 high = some upper)
    (second : digitValue 16 low = some lower) :
    Reading (((state.step 37).step high).step low) query hashes name
      (value ++ [UInt8.ofNat (upper * 16 + lower)]) := by
  have high' := plain_of_digit first
  have low' := plain_of_digit second
  by_cases room : value.length < uriParamValueLength
  · have percent := reading.percent
    have hasRoom : state.len < uriParamValueLength := by
      rw [reading.len]
      omega
    have atPercent : state.step 37 = { state with percent := 1 } := by
      rw [reading.step_eq (by decide) (by decide), putValue, if_pos hasRoom, if_pos rfl]
    have atHigh : { state with percent := 1 }.step high =
        { state with percent := 2, percentChars := (high, state.percentChars.2) } := by
      simp [step, putValue, reading.status, hasRoom, high'.notEquals, high'.notAmpersand,
        high'.notPercent]
    have atLow :
        { state with percent := 2, percentChars := (high, state.percentChars.2) }.step low =
          { state with percentChars := (high, low) }.writeValue
            (UInt8.ofNat (upper * 16 + lower)) := by
      have decoded : UInt8.ofInt (strtol [high, low] 16) = UInt8.ofNat (upper * 16 + lower) := by
        rw [strtol_hexadecimal first second]
        exact uint8OfInt_natCast _
      rw [← decoded]
      simp [step, putValue, reading.status, hasRoom, low'.notEquals, low'.notAmpersand,
        low'.notPercent, percent]
    have unchanged : Reading { state with percentChars := (high, low) } query hashes name value :=
      ⟨reading.status, percent, reading.stored, reading.param, reading.buffer, reading.len⟩
    rw [atPercent, atHigh, atLow]
    exact unchanged.write _ room
  · have full : uriParamValueLength ≤ value.length := by omega
    rw [reading.step_full full (by decide) (by decide),
      reading.step_full full high'.notEquals high'.notAmpersand,
      reading.step_full full low'.notEquals low'.notAmpersand]
    exact reading.overflow _ full

theorem Reading.encoded {text bytes : List UInt8} (encodes : Encodes text bytes)
    (reading : Reading state query hashes name value) :
    Reading (text.foldl step state) query hashes name (value ++ bytes) := by
  induction encodes generalizing state value with
  | nil => simpa using reading
  | literal plain _ ih =>
      have rest := ih (reading.letter plain)
      rw [List.append_assoc, List.singleton_append] at rest
      exact rest
  | escaped first second _ ih =>
      have rest := ih (reading.escaped first second)
      rw [List.append_assoc, List.singleton_append] at rest
      exact rest

theorem Naming.letters (naming : Naming state query hashes name) {letters : List UInt8}
    (plain : ∀ letter ∈ letters, NameLetter letter) :
    Naming (letters.foldl step state) query hashes (name ++ letters) := by
  induction letters generalizing state name with
  | nil => simpa using naming
  | cons letter rest ih =>
      obtain ⟨first, others⟩ := List.forall_mem_cons.mp plain
      have later := ih (naming.letter first) others
      rw [List.append_assoc, List.singleton_append] at later
      exact later

theorem Naming.parameter (naming : Naming state query hashes []) (parameter : Parameter) :
    Reading (parameter.bytes.foldl step state) query hashes parameter.name parameter.value := by
  have named := naming.letters parameter.named
  rw [List.nil_append] at named
  rw [Parameter.bytes, List.foldl_append, List.foldl_cons]
  exact named.equals.encoded parameter.encodes

theorem Reading.callGetParam_holds {parameter : Parameter}
    (reading : Reading state query hashes parameter.name parameter.value) :
    Holds state.callGetParam (parameter.store query) (parameter.storeHash hashes) := by
  obtain ⟨_, _, ⟨isQuery, isHashes⟩, param, buffer, _⟩ := reading
  constructor
  · rw [callGetParam, isQuery, param, buffer, Parameter.store]
  · rw [callGetParam, isHashes, param, buffer, Parameter.storeHash]

theorem Reading.ampersand {parameter : Parameter}
    (reading : Reading state query hashes parameter.name parameter.value) :
    Naming (state.step 38) (parameter.store query) (parameter.storeHash hashes) [] := by
  have taken : state.step 38 = { state.callGetParam with param := [], status := .param } := by
    simp [step, reading.status]
  obtain ⟨isQuery, isHashes⟩ := reading.callGetParam_holds
  rw [taken]
  exact ⟨rfl, reading.percent, ⟨isQuery, isHashes⟩, rfl⟩

theorem run_visible (state : UriState) {text : List UInt8} (visible : ∀ letter ∈ text, letter ≠ 32)
    (rest : List UInt8) : state.run (text ++ rest) = (text.foldl step state).run rest := by
  induction text generalizing state with
  | nil => rfl
  | cons letter others ih =>
      obtain ⟨notBlank, later⟩ := List.forall_mem_cons.mp visible
      rw [List.cons_append, run, if_neg notBlank, List.foldl_cons]
      exact ih (state.step letter) later

theorem Naming.callGetParam_holds (naming : Naming state query hashes []) :
    Holds state.callGetParam query hashes := by
  obtain ⟨_, _, ⟨isQuery, isHashes⟩, param⟩ := naming
  constructor
  · rw [callGetParam, isQuery, param]
    rfl
  · rw [callGetParam, isHashes, param]
    rfl

theorem Naming.line (naming : Naming state query hashes []) (parameters : List Parameter)
    (rest : List UInt8) :
    Holds (state.run (Parameter.line parameters ++ 32 :: rest))
      (parameters.foldl Parameter.store query)
      (parameters.foldl Parameter.storeHash hashes) := by
  fun_induction Parameter.line parameters generalizing state query hashes with
  | case1 =>
      rw [List.nil_append, run, if_pos rfl]
      exact naming.callGetParam_holds
  | case2 parameter =>
      rw [run_visible state fun letter member => (parameter.bytes_visible letter member).2, run,
        if_pos rfl]
      exact (naming.parameter parameter).callGetParam_holds
  | case3 parameter others occupied ih =>
      have next := (naming.parameter parameter).ampersand
      rw [List.append_assoc, List.cons_append,
        run_visible state fun letter member => (parameter.bytes_visible letter member).2, run,
        if_neg (by decide), List.foldl_cons, List.foldl_cons]
      exact ih next

theorem run_target (query : Query) (hashes : Option (List UInt8)) {path : List UInt8}
    (walks : ∀ letter ∈ path, letter ≠ 32 ∧ letter ≠ 63) (parameters : List Parameter)
    (rest : List UInt8) :
    ∃ path', Holds ((start query hashes).run (path ++ 63 :: (Parameter.line parameters ++ 32 :: rest)))
      (parameters.foldl Parameter.store { query with path := path' })
      (parameters.foldl Parameter.storeHash hashes) := by
  have begun : Walking (start query hashes) query hashes := ⟨rfl, rfl, ⟨_, rfl, rfl⟩, rfl⟩
  obtain ⟨path', naming⟩ :=
    (begun.letters fun letter member => (walks letter member).2).question
  refine ⟨path', ?_⟩
  rw [run_visible _ fun letter member => (walks letter member).1, run, if_neg (by decide)]
  exact naming.line parameters rest

end UriState

/-- A request line whose target has parameters; `rest` stands behind the target. -/
def requestText (path : List UInt8) (parameters : List Parameter) (rest : List UInt8) :
    List UInt8 :=
  ascii "GET " ++ (path ++ 63 :: (Parameter.line parameters ++ 32 :: rest))

theorem cString_requestText {path : List UInt8} (noZero : ∀ letter ∈ path, letter ≠ 0)
    (parameters : List Parameter) (rest : List UInt8) :
    cString (requestText path parameters rest) =
      requestText path parameters (cString rest) := by
  have method : ∀ letter ∈ ascii "GET ", letter ≠ 0 := by decide +kernel
  have line : ∀ letter ∈ Parameter.line parameters, letter ≠ 0 :=
    fun letter member => (Parameter.line_visible _ letter member).1
  rw [cString, requestText,
    List.takeWhile_append_of_pos fun letter member => by simpa using method letter member,
    List.takeWhile_append_of_pos fun letter member => by simpa using noZero letter member,
    List.takeWhile_cons_of_pos (by decide),
    List.takeWhile_append_of_pos fun letter member => by simpa using line letter member]
  rfl

/-- The parser stores all parameters of a request line, in order. -/
theorem parseUri_requestText (inetPton : InetPton) (query : Query)
    (hashesBlock : Option (List UInt8)) (hasForwardedForBlock : Bool) {path : List UInt8}
    (letters : ∀ letter ∈ path, letter ≠ 0 ∧ letter ≠ 32 ∧ letter ≠ 63)
    (parameters : List Parameter) (rest : List UInt8) :
    ∃ path', parseUri inetPton query hashesBlock hasForwardedForBlock
        (requestText path parameters rest) =
      (parseXForwardedFor inetPton
          (parameters.foldl Parameter.store { query with path := path' })
          (requestText path parameters (cString rest)) hasForwardedForBlock,
        parameters.foldl Parameter.storeHash hashesBlock) := by
  obtain ⟨path', isQuery, isHashes⟩ := UriState.run_target query hashesBlock
    (fun letter member => (letters letter member).2) parameters (cString rest)
  refine ⟨path', ?_⟩
  have noZero := fun letter member => (letters letter member).1
  have target : (requestText path parameters (cString rest)).drop 4 =
      path ++ 63 :: (Parameter.line parameters ++ 32 :: cString rest) :=
    List.drop_left' (by decide)
  rw [parseUri, cString_requestText noZero, target, isQuery, isHashes]

end Etracker
