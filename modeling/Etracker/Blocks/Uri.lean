import Etracker.Blocks.Format
import Etracker.Uri.Forwarded

/-! `parseUri` with the two blocks that its callers may give it: one for the hashes of a scrape,
and one for the address that a proxy forwards. -/

namespace Etracker.Blocks

open Foundation Foundation.CString Foundation.Outcome

section Model

variable (found : Nat → UInt8)

def addHash (hashesBlock : Option Block) (param : List UInt8) (value : ParamValue) :
    Except BlockFault (Option Block) :=
  match hashesBlock with
  | none => pure none
  | some block =>
      if param = ascii "info_hash" then do
        let block ← block.addString found value.list 20
        pure (some block)
      else pure (some block)

/-- The loop of `parseUri`; what it knows besides the block is as before. -/
def runUri : UriState → Option Block → List UInt8 → Except BlockFault (UriState × Option Block)
  | state, hashesBlock, [] => pure (state, hashesBlock)
  | state, hashesBlock, current :: rest =>
      if current = 32 then do
        let hashesBlock ← addHash found hashesBlock state.param state.value
        pure (state.callGetParam, hashesBlock)
      else if state.status ≠ .path ∧ current = 38 then do
        let hashesBlock ← addHash found hashesBlock state.param state.value
        runUri (state.step current) hashesBlock rest
      else runUri (state.step current) hashesBlock rest

/-- The value of the header that names the forwarded address, if `parseXForwardedFor` gets to
it. -/
def forwardedValue (xForwardedFor : Option (List UInt8)) (message : List UInt8) :
    Option (List UInt8) :=
  match xForwardedFor with
  | none => none
  | some header =>
      match strstr message (ascii "\r\n"), strstr message header,
          strstr message (ascii "\r\n\r\n") with
      | some endOfFirstLine, some xForwardedFor, some endOfHeaders =>
          if xForwardedFor < endOfFirstLine then none
          else if endOfHeaders < xForwardedFor then none
          else
            let line := message.drop xForwardedFor
            match strstr line (ascii ":"), strstr line (ascii "\r\n") with
            | some endName, some endValue =>
                if endValue < endName + 1 then none
                else some ((line.take endValue).drop (endName + 1))
            | _, _ => none
      | _, _, _ => none

/-- The loop of `parseXForwardedFor`, which begins a word in an empty block. -/
def lastToken : List UInt8 → Bool → Block → Except BlockFault Block
  | [], _, block => pure block
  | currentChar :: rest, reset, block =>
      if currentChar = 32 ∨ currentChar = 44 then lastToken rest true block
      else if reset = true then do
        let block ← resetBlock found (some block)
        let block ← block.addString found [currentChar] 1
        lastToken rest false block
      else do
        let block ← block.addString found [currentChar] 1
        lastToken rest false block

def setForwardedIp (inetPton : InetPton) (query : Query) (block : Block) :
    Except BlockFault (Query × Block) :=
  let text := cString block.data.list
  if strstr text (ascii ":") = none then do
    let (returned, ip) := inetPton .inet text (Bytes.zero _)
    let block ← resetBlock found (some block)
    if returned < 0 then pure (query, block)
    else if ip.list.take 4 = [0, 0, 0, 0] then pure (query, block)
    else do
      let block ← block.addString found v4MappedPrefix 12
      let block ← block.addString found ip.list 4
      pure ({ query with
        ip := Bytes.ofList 16 block.data.list
        ipVersion := socketVersionIpv4Bit }, block)
  else do
    let (returned, ip) := inetPton .inet6 text (Bytes.zero _)
    let block ← resetBlock found (some block)
    if returned < 0 then pure (query, block)
    else do
      let block ← block.addString found ip.list 16
      pure ({ query with
        ip := Bytes.ofList 16 block.data.list
        ipVersion := socketVersionIpv6Bit }, block)

def parseXForwardedFor (inetPton : InetPton) (query : Query) (message : List UInt8)
    (forwardedForBlock : Option Block) : Except BlockFault (Query × Option Block) :=
  match forwardedForBlock with
  | none => pure (query, none)
  | some block =>
      match forwardedValue query.xForwardedFor message with
      | none => pure (query, some block)
      | some value => do
          let block ← resetBlock found (some block)
          let block ← lastToken found value true block
          let (query, block) ← setForwardedIp found inetPton query block
          pure (query, some block)

def parseUri (inetPton : InetPton) (query : Query)
    (hashesBlock forwardedForBlock : Option Block) (message : List UInt8) :
    Except BlockFault (Query × Option Block × Option Block) := do
  let text := cString message
  let (state, hashesBlock) ← runUri found (UriState.start query none) hashesBlock (text.drop 4)
  let (query, forwardedForBlock) ←
    parseXForwardedFor found inetPton state.query text forwardedForBlock
  pure (query, hashesBlock, forwardedForBlock)

end Model

variable (found : Nat → UInt8) {limit : Nat}

abbrev KeepsAny (limit : Nat) (block : Option Block) (held : Option (List UInt8)) : Prop :=
  Option.Rel (Block.Keeps limit) block held

def bare (state : UriState) : UriState := { state with hashesBlock := none }

section Bare

variable (state : UriState) (current : UInt8)

theorem bare_callGetParam : bare state.callGetParam = (bare state).callGetParam := by
  have nothing : Etracker.addHash none state.param state.value = none := by
    unfold Etracker.addHash
    split_ifs <;> rfl
  unfold bare UriState.callGetParam
  rw [nothing]

theorem bare_putPath : bare (state.putPath current) = (bare state).putPath current := by
  unfold UriState.putPath bare
  dsimp only
  split_ifs <;> rfl

theorem bare_putParam : bare (state.putParam current) = (bare state).putParam current := by
  unfold UriState.putParam bare
  dsimp only
  split_ifs <;> rfl

theorem bare_putValue : bare (state.putValue current) = (bare state).putValue current := by
  unfold UriState.putValue bare
  dsimp only
  split_ifs <;> rfl

theorem bare_step : bare (state.step current) = (bare state).step current := by
  have same : (bare state).status = state.status := rfl
  unfold UriState.step
  rw [same]
  cases state.status with
  | path =>
      dsimp only
      split_ifs
      · rfl
      · exact bare_putPath state current
  | param | value =>
      dsimp only
      split_ifs
      · rfl
      · rw [← bare_callGetParam]
        rfl
      · exact bare_putParam state current
      · exact bare_putValue state current

theorem put_hashesBlock : (state.putPath current).hashesBlock = state.hashesBlock ∧
    (state.putParam current).hashesBlock = state.hashesBlock ∧
    (state.putValue current).hashesBlock = state.hashesBlock := by
  refine ⟨?_, ?_, ?_⟩
  · unfold UriState.putPath
    dsimp only
    split_ifs <;> rfl
  · unfold UriState.putParam
    dsimp only
    split_ifs <;> rfl
  · unfold UriState.putValue
    dsimp only
    split_ifs <;> rfl

theorem step_hashesBlock : (state.step current).hashesBlock =
    if state.status ≠ .path ∧ current = 38 then
      Etracker.addHash state.hashesBlock state.param state.value
    else state.hashesBlock := by
  have separate : (61 : UInt8) ≠ 38 := by decide
  obtain ⟨path, param, value⟩ := put_hashesBlock state current
  unfold UriState.step
  cases status : state.status with
  | path =>
      simp only [ne_eq, not_true_eq_false, false_and, if_false]
      split_ifs
      · rfl
      · exact path
  | param | value =>
      simp only [ne_eq, reduceCtorEq, not_false_eq_true, true_and, if_true, if_false]
      by_cases equals : current = 61
      · rw [if_pos equals, if_neg (equals ▸ separate)]
      · rw [if_neg equals]
        split_ifs
        · rfl
        · assumption

end Bare

theorem addHash_keeps (small : limit ≤ 2 ^ 30) {block : Option Block} {held : Option (List UInt8)}
    (keeps : KeepsAny limit block held) (param : List UInt8) (value : ParamValue)
    (within : ∀ hashes, held = some hashes → hashes.length + 20 ≤ limit) :
    ∃ after, addHash found block param value = .ok after ∧
      KeepsAny limit after (Etracker.addHash held param value) := by
  cases keeps with
  | none =>
      refine ⟨none, rfl, ?_⟩
      rw [Etracker.addHash, Option.map_none, ite_self]
      exact .none
  | some keeps =>
      unfold addHash Etracker.addHash
      by_cases isHash : param = ascii "info_hash"
      · have sized : (20 : UInt32).toNat = value.list.length := value.length_eq.symm
        obtain ⟨after, added, keeps'⟩ :=
          (Appends.whole found sized).keeps small keeps (within _ rfl)
        refine ⟨some after, ?_, ?_⟩
        · simp only [if_pos isHash, added, ok_bind, pure_eq_ok]
        · rw [if_pos isHash]
          exact .some keeps'
      · refine ⟨_, if_neg isHash, ?_⟩
        rw [if_neg isHash]
        exact .some keeps

theorem addHash_length_le {held : Option (List UInt8)} {param : List UInt8} {value : ParamValue}
    {most : Nat} (short : ∀ hashes, held = some hashes → hashes.length ≤ most) :
    ∀ hashes, Etracker.addHash held param value = some hashes → hashes.length ≤ most + 20 := by
  intro hashes added
  cases held with
  | none =>
      unfold Etracker.addHash at added
      split_ifs at added
      cases added
  | some hashes' =>
      have short' := short hashes' rfl
      have width : value.list.length = 20 := value.length_eq
      unfold Etracker.addHash at added
      split_ifs at added with isHash
      · cases added
        rw [List.length_append]
        omega
      · cases added
        omega

/-- The loop does to the block what it is said to do to the hashes: each character makes it longer
by one hash at most. -/
theorem runUri_keeps (small : limit ≤ 2 ^ 30) (text : List UInt8) (state : UriState)
    {block : Option Block} (keeps : KeepsAny limit block state.hashesBlock) {most : Nat}
    (short : ∀ hashes, state.hashesBlock = some hashes → hashes.length ≤ most)
    (within : most + 20 * text.length ≤ limit) :
    ∃ after, runUri found (bare state) block text = .ok (bare (state.run text), after) ∧
      KeepsAny limit after (state.run text).hashesBlock := by
  induction text generalizing state block most with
  | nil => exact ⟨block, rfl, keeps⟩
  | cons current rest ih =>
      rw [List.length_cons] at within
      have room : ∀ hashes, state.hashesBlock = some hashes → hashes.length + 20 ≤ limit := by
        intro hashes held
        have short' := short hashes held
        omega
      obtain ⟨added, adds, keeps'⟩ := addHash_keeps found small keeps state.param state.value room
      have paramIs : (bare state).param = state.param := rfl
      have valueIs : (bare state).value = state.value := rfl
      have statusIs : (bare state).status = state.status := rfl
      rw [runUri, UriState.run, paramIs, valueIs, statusIs]
      by_cases blank : current = 32
      · rw [if_pos blank, if_pos blank, adds, ok_bind, bare_callGetParam]
        exact ⟨added, rfl, keeps'⟩
      · rw [if_neg blank, if_neg blank, ← bare_step]
        have hashes := step_hashesBlock state current
        by_cases ends : state.status ≠ .path ∧ current = 38
        · rw [if_pos ends] at hashes
          rw [if_pos ends, adds, ok_bind]
          rw [← hashes] at keeps'
          apply ih (state.step current) keeps'
          · rw [hashes]
            exact addHash_length_le short
          · omega
        · rw [if_neg ends] at hashes
          rw [if_neg ends]
          rw [← hashes] at keeps
          apply ih (state.step current) keeps
          · rw [hashes]
            exact short
          · omega

theorem lastToken_noZero {text token : List UInt8} (noZero : 0 ∉ text) (noZero' : 0 ∉ token)
    (reset : Bool) : 0 ∉ Etracker.lastToken text reset token := by
  induction text generalizing reset token with
  | nil => exact noZero'
  | cons currentChar rest ih =>
      rw [List.mem_cons, not_or] at noZero
      rw [Etracker.lastToken]
      split_ifs with separates resets
      · exact ih noZero.2 noZero' true
      · apply ih noZero.2
        rw [List.nil_append, List.mem_singleton]
        exact noZero.1
      · apply ih noZero.2
        rw [List.mem_append, List.mem_singleton, not_or]
        exact ⟨noZero', noZero.1⟩

theorem lastToken_keeps (small : limit ≤ 2 ^ 30) {text token : List UInt8} {block : Block}
    (keeps : block.Keeps limit token) (within : token.length + text.length ≤ limit)
    (reset : Bool) :
    ∃ after, lastToken found text reset block = .ok after ∧
      after.Keeps limit (Etracker.lastToken text reset token) := by
  induction text generalizing reset token block with
  | nil => exact ⟨block, rfl, keeps⟩
  | cons currentChar rest ih =>
      rw [List.length_cons] at within
      have letter : Appends (fun block => block.addString found [currentChar] 1) [currentChar] 1 :=
        Appends.whole found rfl
      rw [lastToken, Etracker.lastToken]
      by_cases separates : currentChar = 32 ∨ currentChar = 44
      · rw [if_pos separates, if_pos separates]
        exact ih keeps (by omega) true
      · rw [if_neg separates, if_neg separates]
        cases reset with
        | true =>
            obtain ⟨empty, resets, keepsNone⟩ := keeps.reset found
            obtain ⟨added, adds, keeps'⟩ := letter.keeps small keepsNone (by
              rw [List.length_nil]
              omega)
            simp only [if_true, resets, ok_bind, adds]
            exact ih keeps' (by
              rw [List.length_append, List.length_nil, List.length_singleton]
              omega) false
        | false =>
            obtain ⟨added, adds, keeps'⟩ := letter.keeps small keeps (by omega)
            simp only [Bool.false_eq_true, if_false, ok_bind, adds]
            exact ih keeps' (by
              rw [List.length_append, List.length_singleton]
              omega) false

theorem ofList_inFront {count : Nat} {held memory : List UInt8} (inFront : held <+: memory)
    (enough : count ≤ held.length) : Bytes.ofList count memory = Bytes.ofList count held := by
  obtain ⟨rest, rfl⟩ := inFront
  have none : count - held.length = 0 := Nat.sub_eq_zero_of_le enough
  have none' : count - (held ++ rest).length = 0 := by
    rw [List.length_append]
    omega
  apply Bytes.ext
  rw [Bytes.ofList_list, Bytes.ofList_list, none, none', List.take_append_of_le_length enough]

theorem setForwardedIp_keeps (small : limit ≤ 2 ^ 30) (enough : 16 ≤ limit) (inetPton : InetPton)
    (query : Query) {token : List UInt8} (noZero : 0 ∉ token) {block : Block}
    (keeps : block.Keeps limit token) :
    ∃ after held, setForwardedIp found inetPton query block =
        .ok (Etracker.setForwardedIp inetPton query token, after) ∧ after.Keeps limit held := by
  have text : cString block.data.list = token :=
    keeps.cString.trans (cString_of_not_mem noZero)
  obtain ⟨empty, resets, keepsNone⟩ := keeps.reset found
  unfold setForwardedIp Etracker.setForwardedIp
  rw [text]
  dsimp only
  by_cases v4 : strstr token (ascii ":") = none
  · rw [if_pos v4, if_pos v4]
    generalize inetPton .inet token (Bytes.zero _) = answer
    obtain ⟨returned, ip⟩ := answer
    simp only [resets, ok_bind, pure_eq_ok]
    by_cases failed : returned < 0
    · rw [if_pos failed, if_pos failed]
      exact ⟨empty, [], rfl, keepsNone⟩
    · rw [if_neg failed, if_neg failed]
      by_cases zero : ip.list.take 4 = [0, 0, 0, 0]
      · rw [if_pos zero, if_pos zero]
        exact ⟨empty, [], rfl, keepsNone⟩
      · have sized : (4 : UInt32).toNat ≤ ip.list.length := by
          rw [ip.length_eq]
          decide
        have space : (12 : UInt32).toNat + (4 : UInt32).toNat = 16 := rfl
        have address : (v4MappedPrefix ++ ip.list.take 4).length = 16 := by
          rw [List.length_append, List.length_take, ip.length_eq]
          rfl
        have mapped : Appends (fun block => block.addString found v4MappedPrefix 12)
            v4MappedPrefix (12 : UInt32).toNat := Appends.whole found rfl
        obtain ⟨after, both, keeps'⟩ := (mapped.bind (Appends.string found sized)).keeps small
          keepsNone (by rw [space]; exact (Nat.zero_add 16).trans_le enough)
        obtain ⟨middle, first, second⟩ := bind_eq_ok both
        rw [List.nil_append] at keeps'
        rw [if_neg zero, if_neg zero, first, ok_bind, second, ok_bind,
          ofList_inFront keeps'.holds.inFront (Nat.le_of_eq address.symm)]
        exact ⟨after, _, rfl, keeps'⟩
  · rw [if_neg v4, if_neg v4]
    generalize inetPton .inet6 token (Bytes.zero _) = answer
    obtain ⟨returned, ip⟩ := answer
    simp only [resets, ok_bind, pure_eq_ok]
    by_cases failed : returned < 0
    · rw [if_pos failed, if_pos failed]
      exact ⟨empty, [], rfl, keepsNone⟩
    · have sized : (16 : UInt32).toNat ≤ ip.list.length := by
        rw [ip.length_eq]
        decide
      have address : (ip.list.take 16).length = 16 := by
        rw [List.length_take, ip.length_eq]
        rfl
      obtain ⟨after, added, keeps'⟩ := (Appends.string found sized).keeps small keepsNone
        ((Nat.zero_add 16).trans_le enough)
      have whole := ofList_inFront (List.take_prefix 16 ip.list) (Nat.le_of_eq address.symm)
      rw [List.nil_append] at keeps'
      rw [if_neg failed, if_neg failed, added, ok_bind,
        ofList_inFront keeps'.holds.inFront (Nat.le_of_eq address.symm), whole]
      exact ⟨after, _, rfl, keeps'⟩

theorem forwardedToken_eq (xForwardedFor : Option (List UInt8)) (message : List UInt8) :
    forwardedToken xForwardedFor message true =
      (forwardedValue xForwardedFor message).map fun value =>
        Etracker.lastToken value true [] := by
  have colon : ascii ":" = [58] := by decide
  have newline : ascii "\r\n" = crlf := by decide
  have twice : ascii "\r\n\r\n" = blank := by decide
  unfold forwardedToken forwardedValue
  rw [colon, newline, twice, if_neg (by decide)]
  cases xForwardedFor with
  | none => rfl
  | some header =>
      dsimp only
      cases strstr message crlf with
      | none => rfl
      | some endOfFirstLine =>
          cases strstr message header with
          | none => rfl
          | some xForwardedFor =>
              cases strstr message blank with
              | none => rfl
              | some endOfHeaders =>
                  dsimp only
                  cases strstr (message.drop xForwardedFor) [58] with
                  | none => split_ifs <;> rfl
                  | some endName =>
                      cases strstr (message.drop xForwardedFor) crlf with
                      | none => split_ifs <;> rfl
                      | some endValue =>
                          dsimp only
                          split_ifs <;> rfl

theorem forwardedValue_infix {xForwardedFor : Option (List UInt8)} {message value : List UInt8}
    (isValue : forwardedValue xForwardedFor message = some value) : value <:+: message := by
  have part (offset endName endValue : Nat) :
      ((message.drop offset).take endValue).drop (endName + 1) <:+: message :=
    (List.drop_suffix _ _).isInfix.trans
      ((List.take_prefix _ _).isInfix.trans (List.drop_suffix _ _).isInfix)
  unfold forwardedValue at isValue
  dsimp only at isValue
  split at isValue
  · cases isValue
  · split at isValue
    · split_ifs at isValue
      split at isValue
      · split_ifs at isValue
        cases isValue
        exact part _ _ _
      · cases isValue
    · cases isValue

theorem parseXForwardedFor_keeps (small : limit ≤ 2 ^ 30) (inetPton : InetPton) (query : Query)
    {message : List UInt8} (noZero : 0 ∉ message) (enough : 16 ≤ limit)
    (within : message.length ≤ limit) {block : Option Block} {held : Option (List UInt8)}
    (keeps : KeepsAny limit block held) :
    ∃ after held', parseXForwardedFor found inetPton query message block =
        .ok (Etracker.parseXForwardedFor inetPton query message held.isSome, after) ∧
      KeepsAny limit after held' ∧ held'.isSome = held.isSome := by
  cases keeps with
  | none => exact ⟨none, none, rfl, .none, rfl⟩
  | some keeps =>
      rw [parseXForwardedFor_eq, Option.isSome_some, forwardedToken_eq]
      unfold parseXForwardedFor
      cases isValue : forwardedValue query.xForwardedFor message with
      | none => exact ⟨_, _, rfl, .some keeps, rfl⟩
      | some value =>
          have part := forwardedValue_infix isValue
          have noZero' : 0 ∉ value := fun zero => noZero (part.subset zero)
          have short := part.length_le
          obtain ⟨empty, resets, keepsNone⟩ := keeps.reset found
          have room : ([] : List UInt8).length + value.length ≤ limit := by
            rw [List.length_nil, Nat.zero_add]
            exact short.trans within
          obtain ⟨word, takes, keepsWord⟩ := lastToken_keeps found small keepsNone room true
          obtain ⟨after, held', sets, keeps'⟩ := setForwardedIp_keeps found small enough inetPton
            query (lastToken_noZero noZero' List.not_mem_nil true) keepsWord
          refine ⟨some after, some held', ?_, .some keeps', rfl⟩
          simp only [resets, ok_bind, takes, sets, pure_eq_ok, Option.map_some]

theorem parseUri_keeps (small : limit ≤ 2 ^ 30) (inetPton : InetPton) (query : Query)
    (message : List UInt8) (within : 16 + 20 * message.length ≤ limit)
    {hashesBlock forwardedForBlock : Option Block} {hashes forwarded : Option (List UInt8)}
    (keepsHashes : KeepsAny limit hashesBlock hashes)
    (empty : ∀ held, hashes = some held → held = [])
    (keepsForwarded : KeepsAny limit forwardedForBlock forwarded) :
    ∃ hashesBlock' forwardedForBlock' forwarded',
      parseUri found inetPton query hashesBlock forwardedForBlock message =
        .ok ((Etracker.parseUri inetPton query hashes forwarded.isSome message).1, hashesBlock',
          forwardedForBlock') ∧
      KeepsAny limit hashesBlock'
        (Etracker.parseUri inetPton query hashes forwarded.isSome message).2 ∧
      KeepsAny limit forwardedForBlock' forwarded' ∧ forwarded'.isSome = forwarded.isSome := by
  have shorter : (cString message).length ≤ message.length := (List.takeWhile_prefix _).length_le
  have noZero : 0 ∉ cString message := fun zero => absurd (List.mem_takeWhile_imp zero) (by decide)
  have rest : ((cString message).drop 4).length ≤ message.length := by
    rw [List.length_drop]
    omega
  obtain ⟨hashesBlock', runs, keepsHashes'⟩ := runUri_keeps found small ((cString message).drop 4)
    (UriState.start query hashes) keepsHashes
    (fun held isHeld => (congrArg List.length (empty held isHeld)).le) (by
      rw [List.length_nil]
      omega)
  obtain ⟨forwardedForBlock', forwarded', parses, keepsForwarded', same⟩ :=
    parseXForwardedFor_keeps found small inetPton
      ((UriState.start query hashes).run ((cString message).drop 4)).query noZero (by omega)
      (by omega) keepsForwarded
  refine ⟨hashesBlock', forwardedForBlock', forwarded', ?_, keepsHashes', keepsForwarded', same⟩
  have start : bare (UriState.start query hashes) = UriState.start query none := rfl
  rw [start] at runs
  rw [parseUri]
  dsimp only
  rw [runs, ok_bind]
  dsimp only [bare]
  rw [parses, ok_bind]
  rfl

end Etracker.Blocks
