import Etracker.Basic.Model

/-! Who changes the settings. The workers test the size of the header block and not
whether it is finished. -/

namespace Etracker.Basic

open Foundation Foundation.CString Foundation.Runs

variable {workers : Nat} {inetPton : InetPton}

def basicHeader (password : List UInt8) : List UInt8 :=
  authorizationName ++ credentials password ++ [13]

def Finished (text : List UInt8) : Prop :=
  ∃ before encoded after, text = before ++ (authorizationName ++ encoded ++ [13]) ++ after ∧
    encoded.length = 40 ∧ 32 ∉ encoded

/-- Whenever a request is let through, the header block holds a finished header before its
first zero byte. -/
def FinishedWhenMatched : SetTurn workers → Authorization workers → Prop
  | .checks worker, state => ∀ readBuffer, state.place worker = .checks readBuffer →
      authorized state.authorizationHeader readBuffer = true →
      Finished (cString state.authorizationHeader)
  | .tests _ _ _, _ | .appends _, _ => True

theorem length_randomString (randomBytes : Bytes basicPasswordLength) :
    (randomString randomBytes).length = 20 := by
  rw [randomString, List.length_map, List.length_reverse, Bytes.length_eq]
  rfl

theorem length_credentials {password : List UInt8} (length : password.length = 20) :
    (credentials password).length = 40 := by
  rw [credentials, length_base64_encode, List.length_append, length]
  rfl

theorem blank_not_mem_credentials (password : List UInt8) : 32 ∉ credentials password :=
  not_mem_base64_encode _ (by decide)

def Word (passwords : List (List UInt8)) (piece : List UInt8) : Prop :=
  piece = authorizationName ∨ ∃ password ∈ passwords, piece = credentials password

def Piece (passwords : List (List UInt8)) (piece : List UInt8) : Prop :=
  Word passwords piece ∨ piece = [13, 0]

section Words

variable {passwords : List (List UInt8)} {piece : List UInt8}

theorem Word.not_mem {letter : UInt8} (word : Word passwords piece)
    (name : letter ∉ authorizationName) (symbol : letter ∉ symbols) : letter ∉ piece := by
  rcases word with rfl | ⟨password, _, rfl⟩
  · exact name
  · exact not_mem_base64_encode _ symbol

theorem Word.mono {more : List (List UInt8)} (subset : passwords ⊆ more)
    (word : Word passwords piece) : Word more piece := by
  rcases word with rfl | ⟨password, among, rfl⟩
  · exact .inl rfl
  · exact .inr ⟨password, subset among, rfl⟩

theorem Piece.mono {more : List (List UInt8)} (subset : passwords ⊆ more)
    (given : Piece passwords piece) : Piece more piece := by
  rcases given with word | rfl
  · exact .inl (word.mono subset)
  · exact .inr rfl

theorem cString_pieces {pieces : List (List UInt8)}
    (given : ∀ piece ∈ pieces, Piece passwords piece) :
    ∃ (words : List (List UInt8)) (ending : List UInt8), cString pieces.flatten = words.flatten ++ ending ∧
      (∀ word ∈ words, Word passwords word) ∧ (ending = [] ∨ ending = [13]) := by
  induction pieces with
  | nil => exact ⟨[], [], rfl, nofun, .inl rfl⟩
  | cons piece pieces ih =>
      rw [List.flatten_cons]
      rcases given piece List.mem_cons_self with word | rfl
      · obtain ⟨words, ending, text, all, final⟩ :=
          ih fun other member => given other (List.mem_cons_of_mem _ member)
        refine ⟨piece :: words, ending, ?_, ?_, final⟩
        · have noZero : ∀ letter ∈ piece, letter ≠ 0 := by
            rintro letter member rfl
            exact word.not_mem (by decide) (by decide) member
          rw [cString, List.takeWhile_append_of_pos fun letter member => by
            simpa using noZero letter member, List.flatten_cons, List.append_assoc]
          exact congrArg _ text
        · intro other member
          rcases List.mem_cons.mp member with rfl | later
          · exact word
          · exact all other later
      · exact ⟨[], [13], rfl, nofun, .inr rfl⟩

theorem append_eq_of_not_mem {Letter : Type} {letter : Letter} {first second after : List Letter}
    (absent : letter ∉ first) (same : first ++ [letter] = second ++ letter :: after) :
    first = second := by
  rcases List.append_eq_append_iff.mp same with ⟨between, rfl, rest⟩ | ⟨between, rfl, rest⟩
  · cases between with
    | nil => exact (List.append_nil _).symm
    | cons other between => simp at rest
  · cases between with
    | nil => exact List.append_nil _
    | cons other between =>
        rw [List.cons_append, List.cons.injEq] at rest
        obtain ⟨rfl, _⟩ := rest
        exact absurd (List.mem_append_right _ List.mem_cons_self) absent

theorem last_word {words : List (List UInt8)} (all : ∀ word ∈ words, Word passwords word)
    (lengths : ∀ password ∈ passwords, password.length = 20) {before encoded : List UInt8}
    (whole : words.flatten = before ++ encoded) (length : encoded.length = 40)
    (blank : 32 ∉ encoded) : ∃ password ∈ passwords, encoded = credentials password := by
  have suffix : encoded <:+ words.flatten := ⟨before, whole.symm⟩
  rcases List.eq_nil_or_concat words with rfl | ⟨front, last, rfl⟩
  · have none := suffix.length_le
    rw [length] at none
    exact absurd none (by decide)
  · rw [List.concat_eq_append] at suffix all
    have ends : last <:+ (front ++ [last]).flatten := ⟨front.flatten, by simp⟩
    rcases all last (by simp) with rfl | ⟨password, among, rfl⟩
    · have shorter : authorizationName.length ≤ encoded.length := by
        rw [length]
        decide
      have within := List.suffix_of_suffix_length_le ends suffix shorter
      exact absurd (within.subset (by decide : (32 : UInt8) ∈ authorizationName)) blank
    · have same : (credentials password).length = encoded.length := by
        rw [length, length_credentials (lengths password among)]
      exact ⟨password, among,
        ((List.suffix_of_suffix_length_le ends suffix same.le).eq_of_length same).symm⟩

theorem Finished.password {pieces : List (List UInt8)}
    (given : ∀ piece ∈ pieces, Piece passwords piece)
    (lengths : ∀ password ∈ passwords, password.length = 20)
    (finished : Finished (cString pieces.flatten)) :
    ∃ password ∈ passwords, basicHeader password <:+: cString pieces.flatten := by
  obtain ⟨before, encoded, after, whole, length, blank⟩ := finished
  obtain ⟨words, ending, text, all, final⟩ := cString_pieces given
  have noReturn : 13 ∉ words.flatten := by
    intro member
    obtain ⟨word, among, inside⟩ := List.mem_flatten.mp member
    exact (all word among).not_mem (by decide) (by decide) inside
  have same : words.flatten ++ ending = (before ++ authorizationName ++ encoded) ++ 13 :: after := by
    rw [← text, whole]
    simp only [List.append_assoc, List.singleton_append]
  rcases final with rfl | rfl
  · rw [List.append_nil] at same
    rw [same] at noReturn
    exact absurd (List.mem_append_right _ List.mem_cons_self) noReturn
  · obtain ⟨password, among, rfl⟩ :=
      last_word all lengths (append_eq_of_not_mem noReturn same) length blank
    exact ⟨password, among, before, after, whole.symm⟩

end Words

theorem infix_of_authorized {authorizationHeader readBuffer : List UInt8}
    (authorizes : authorized authorizationHeader readBuffer = true) :
    cString authorizationHeader <:+: cString readBuffer := by
  obtain ⟨_, basic⟩ := of_decide_eq_true authorizes
  obtain ⟨offset, found⟩ := Option.isSome_iff_exists.mp basic
  exact infix_of_strstr found

namespace Authorization

structure Pieced (inetPton : InetPton) (settings : ServerSettings)
    (state : Authorization workers) : Prop where
  pieces : ∃ pieces : List (List UInt8), state.authorizationHeader = pieces.flatten ∧
    ∀ piece ∈ pieces, Piece state.passwords piece
  encoded : ∀ worker readBuffer encoded appended,
    state.place worker = .generates readBuffer encoded appended →
      ∃ password ∈ state.passwords, encoded = credentials password
  lengths : ∀ password ∈ state.passwords, password.length = 20
  settings : state.settings = state.changed.foldr
    (fun readBuffer settings => changeSettings inetPton settings readBuffer) settings
  changed : ∀ readBuffer ∈ state.changed, ∃ password ∈ state.passwords,
    basicHeader password <:+: cString readBuffer

variable {settings : ServerSettings} {state after : Authorization workers}
  {turn : SetTurn workers}

theorem Pieced.next (pieced : state.Pieced inetPton settings) {worker : Fin workers}
    {readBuffer encoded : List UInt8} {appended : Appended}
    (generates : state.place worker = .generates readBuffer encoded appended) :
    Piece state.passwords (appended.next encoded) := by
  cases appended with
  | nothing => exact .inl (.inl rfl)
  | name => exact .inl (.inr (pieced.encoded worker readBuffer encoded .name generates))
  | credentials => exact .inr rfl

theorem Pieced.encoded_update (pieced : state.Pieced inetPton settings) {worker : Fin workers}
    {place : WorkerAt} {passwords : List (List UInt8)} (subset : state.passwords ⊆ passwords)
    (moved : ∀ readBuffer encoded appended, place = .generates readBuffer encoded appended →
      ∃ password ∈ passwords, encoded = credentials password) :
    ∀ other readBuffer encoded appended,
      Function.update state.place worker place other = .generates readBuffer encoded appended →
        ∃ password ∈ passwords, encoded = credentials password := by
  intro other readBuffer encoded appended generates
  by_cases same : other = worker
  · rw [same, Function.update_self] at generates
    exact moved readBuffer encoded appended generates
  · rw [Function.update_of_ne same] at generates
    obtain ⟨password, among, content⟩ := pieced.encoded other readBuffer encoded appended generates
    exact ⟨password, subset among, content⟩

theorem Pieced.tests (pieced : state.Pieced inetPton settings) (worker : Fin workers)
    (readBuffer : List UInt8) (randomBytes : Bytes basicPasswordLength) :
    (state.tests worker readBuffer randomBytes).Pieced inetPton settings := by
  unfold Authorization.tests
  -- The password is generated before anything is appended for it.
  split_ifs with empty
  · have subset : state.passwords ⊆ randomString randomBytes :: state.passwords :=
      List.subset_cons_self _ _
    refine ⟨?_, ?_, ?_, pieced.settings, ?_⟩
    · obtain ⟨pieces, whole, given⟩ := pieced.pieces
      exact ⟨pieces, whole, fun piece member => (given piece member).mono subset⟩
    · apply pieced.encoded_update subset
      intro readBuffer' encoded appended generates
      cases generates
      exact ⟨_, List.mem_cons_self, rfl⟩
    · intro password member
      rcases List.mem_cons.mp member with rfl | old
      · exact length_randomString randomBytes
      · exact pieced.lengths password old
    · intro request member
      obtain ⟨password, among, inside⟩ := pieced.changed request member
      exact ⟨password, subset among, inside⟩
  · refine ⟨pieced.pieces, ?_, pieced.lengths, pieced.settings, pieced.changed⟩
    apply pieced.encoded_update (List.Subset.refl _)
    intro readBuffer' encoded appended generates
    cases generates

theorem Pieced.appends (pieced : state.Pieced inetPton settings) {worker : Fin workers}
    {readBuffer encoded : List UInt8} {appended : Appended}
    (generates : state.place worker = .generates readBuffer encoded appended) :
    (state.appends worker readBuffer encoded appended).Pieced inetPton settings := by
  refine ⟨?_, ?_, pieced.lengths, pieced.settings, pieced.changed⟩
  · obtain ⟨pieces, whole, given⟩ := pieced.pieces
    refine ⟨pieces ++ [appended.next encoded], ?_, ?_⟩
    · simp only [Authorization.appends, whole, List.flatten_append, List.flatten_singleton]
    · intro piece member
      rcases List.mem_append.mp member with old | new
      · exact given piece old
      · rw [List.mem_singleton.mp new]
        exact pieced.next generates
  · have old := pieced.encoded worker readBuffer encoded appended generates
    apply pieced.encoded_update (List.Subset.refl _)
    intro readBuffer' encoded' appended' moved
    cases appended with
    | nothing | name =>
        cases moved
        exact old
    | credentials => cases moved

theorem Pieced.checks (pieced : state.Pieced inetPton settings) {worker : Fin workers}
    {readBuffer : List UInt8}
    (finished : authorized state.authorizationHeader readBuffer = true →
      Finished (cString state.authorizationHeader)) :
    (state.checks inetPton worker readBuffer).Pieced inetPton settings := by
  refine ⟨pieced.pieces, ?_, pieced.lengths, ?_, ?_⟩
  · apply pieced.encoded_update (List.Subset.refl _)
    intro readBuffer' encoded appended generates
    cases generates
  · simp only [Authorization.checks, apiSet_settings]
    split_ifs
    · rw [List.foldr_cons, ← pieced.settings]
    · exact pieced.settings
  · intro request member
    simp only [Authorization.checks] at member
    split_ifs at member with authorizes
    · rcases List.mem_cons.mp member with rfl | old
      · obtain ⟨pieces, whole, given⟩ := pieced.pieces
        have text := finished authorizes
        rw [whole] at text
        obtain ⟨password, among, inside⟩ := text.password given pieced.lengths
        refine ⟨password, among, inside.trans ?_⟩
        rw [← whole]
        exact infix_of_authorized authorizes
      · exact pieced.changed request old
    · exact pieced.changed request member

theorem Pieced.step (pieced : state.Pieced inetPton settings)
    (finished : FinishedWhenMatched turn state) (taken : SetStep inetPton turn state after) :
    after.Pieced inetPton settings := by
  cases taken with
  | @tests _ worker readBuffer randomBytes _ _ => exact pieced.tests worker readBuffer randomBytes
  | @appends _ worker readBuffer encoded appended generates => exact pieced.appends generates
  | @checks _ worker readBuffer checks => exact pieced.checks (finished readBuffer checks)

end Authorization

/-- In every run in which requests are let through only by a finished header, the settings
have changed only because of requests with the header of a generated password. -/
theorem changed_with_password {settings : ServerSettings} {state : Authorization workers}
    (reached : Reached (SetStep inetPton) FinishedWhenMatched (.start workers settings) state) :
    state.settings = state.changed.foldr
        (fun readBuffer settings => changeSettings inetPton settings readBuffer) settings ∧
      ∀ readBuffer ∈ state.changed, ∃ password ∈ state.passwords,
        basicHeader password <:+: cString readBuffer := by
  have pieced : state.Pieced inetPton settings := by
    apply reached.invariant (Authorization.Pieced inetPton settings)
    · exact ⟨⟨[], rfl, nofun⟩, nofun, nofun, rfl, nofun⟩
    · intro turn before after pieced finished taken
      exact pieced.step finished taken
  exact ⟨pieced.settings, pieced.changed⟩

/-- A header block without a finished header holds the header of no password, so that what it
lets through needs none. -/
theorem finished_of_password {text password : List UInt8} (length : password.length = 20)
    (inside : basicHeader password <:+: text) : Finished text := by
  obtain ⟨before, after, whole⟩ := inside
  exact ⟨before, credentials password, after, whole.symm, length_credentials length,
    blank_not_mem_credentials password⟩

def setRequest (lines : List UInt8) : List UInt8 :=
  ascii "GET /api/set?keep_alive=2 HTTP/1.1\r\nX-Requested-With: XMLHttpRequest\r\n" ++ lines ++
    ascii "\n\r\n"

def noAddress : InetPton := fun _ _ _ => (0, Bytes.zero _)

def initialSettings : ServerSettings := ⟨⟨1799, 1799, 1799, 1799, 239⟩, 50, 65, true⟩

def firstPassword : List UInt8 := randomString (Bytes.zero _)

/-- One worker generates the password, and a client that knows it is let through. -/
theorem changed_with_password_known :
    ∃ state : Authorization 1, state.changed = [setRequest (basicHeader firstPassword)] ∧
      ∀ readBuffer ∈ state.changed, ∃ password ∈ state.passwords,
        basicHeader password <:+: cString readBuffer := by
  let readBuffer := setRequest (basicHeader firstPassword)
  let encoded := credentials firstPassword
  let empty := Authorization.start 1 initialSettings
  let generating := empty.tests 0 readBuffer (Bytes.zero _)
  let named := generating.appends 0 readBuffer encoded .nothing
  let encoding := named.appends 0 readBuffer encoded .name
  let checking := encoding.appends 0 readBuffer encoded .credentials
  have starts : startsWith (ascii "GET /api/set") (cString readBuffer) = true := by decide +kernel
  have first : SetStep noAddress (.tests 0 readBuffer (Bytes.zero _)) empty generating :=
    .tests rfl starts
  have second : SetStep noAddress (.appends 0) generating named := .appends rfl
  have third : SetStep noAddress (.appends 0) named encoding := .appends rfl
  have fourth : SetStep noAddress (.appends 0) encoding checking := .appends rfl
  have fifth : SetStep noAddress (.checks 0) checking (checking.checks noAddress 0 readBuffer) :=
    .checks rfl
  have finished : Finished (cString checking.authorizationHeader) :=
    ⟨[], encoded, [], by decide +kernel, by decide +kernel, by decide +kernel⟩
  have matched : FinishedWhenMatched (.checks 0) checking := fun _ _ _ => finished
  have reached : Reached (SetStep noAddress) FinishedWhenMatched empty checking := by
    refine .next (.next (.next (.next .start ?_ first) ?_ second) ?_ third) ?_ fourth
    all_goals exact trivial
  have changed := changed_with_password (reached.next matched fifth)
  exact ⟨_, by decide +kernel, changed.2⟩

/-- Between the first two appends of one worker, another one lets a request through without
any password. -/
theorem changed_without_password :
    ∃ state : Authorization 2,
      Reached (SetStep noAddress) (fun _ _ => True) (.start 2 initialSettings) state ∧
      state.changed = [setRequest (authorizationName ++ [13])] ∧
      state.settings ≠ initialSettings ∧
      ∀ password ∈ state.passwords,
        ¬basicHeader password <:+: cString (setRequest (authorizationName ++ [13])) := by
  let readBuffer := setRequest (authorizationName ++ [13])
  let empty := Authorization.start 2 initialSettings
  let generating := empty.tests 0 readBuffer (Bytes.zero _)
  let named := generating.appends 0 readBuffer (credentials firstPassword) .nothing
  let checking := named.tests 1 readBuffer (Bytes.zero _)
  have starts : startsWith (ascii "GET /api/set") (cString readBuffer) = true := by decide +kernel
  have first : SetStep noAddress _ empty generating := .tests rfl starts
  have second : SetStep noAddress _ generating named := .appends rfl
  have third : SetStep noAddress _ named checking := .tests rfl starts
  have fourth : SetStep noAddress _ checking (checking.checks noAddress 1 readBuffer) := .checks rfl
  refine ⟨_, .next (.next (.next (.next .start trivial first) trivial second) trivial third) trivial
    fourth, ?_, ?_, ?_⟩
  · decide +kernel
  · decide +kernel
  · intro password member inside
    rw [show password = firstPassword from List.mem_singleton.mp member] at inside
    have letter : (90 : UInt8) ∈ basicHeader firstPassword := by decide +kernel
    have absent : (90 : UInt8) ∉ cString readBuffer := by decide +kernel
    exact absent (inside.subset letter)

end Etracker.Basic
