import Etracker.Foundation.Occurrence
import Etracker.Uri.Fields

namespace Etracker

open Foundation Foundation.CString

/-- The word that `parseXForwardedFor` hands to `inet_pton`, if it comes so far. -/
def forwardedToken (xForwardedFor : Option (List UInt8)) (message : List UInt8)
    (hasForwardedForBlock : Bool) : Option (List UInt8) :=
  if hasForwardedForBlock = false then none
  else match xForwardedFor with
  | none => none
  | some header =>
      match strstr message crlf, strstr message header, strstr message blank with
      | some endOfFirstLine, some xForwardedFor, some endOfHeaders =>
          if xForwardedFor < endOfFirstLine then none
          else if endOfHeaders < xForwardedFor then none
          else
            let line := message.drop xForwardedFor
            match strstr line [58], strstr line crlf with
            | some endName, some endValue =>
                if endValue < endName + 1 then none
                else some (lastToken ((line.take endValue).drop (endName + 1)) true [])
            | _, _ => none
      | _, _, _ => none

theorem parseXForwardedFor_eq (inetPton : InetPton) (query : Query) (message : List UInt8)
    (hasForwardedForBlock : Bool) :
    parseXForwardedFor inetPton query message hasForwardedForBlock =
      match forwardedToken query.xForwardedFor message hasForwardedForBlock with
      | none => query
      | some token => setForwardedIp inetPton query token := by
  have colon : ascii ":" = [58] := by decide
  have newline : ascii "\r\n" = crlf := by decide
  have twice : ascii "\r\n\r\n" = blank := by decide
  unfold parseXForwardedFor forwardedToken
  rw [colon, newline, twice]
  split
  · rfl
  · cases query.xForwardedFor with
    | none => rfl
    | some header =>
        dsimp only
        cases strstr message crlf with
        | none => rfl
        | some endOfFirstLine =>
            cases strstr message header with
            | none => rfl
            | some xForwardedFor =>
                cases strstr message blank with
                | none => rfl
                | some endOfHeaders =>
                    dsimp only
                    cases strstr (message.drop xForwardedFor) [58] with
                    | none => split_ifs <;> rfl
                    | some endName =>
                        cases strstr (message.drop xForwardedFor) crlf with
                        | none => split_ifs <;> rfl
                        | some endValue =>
                            dsimp only
                            split_ifs <;> rfl

def addressWords (value : List UInt8) : List (List UInt8) :=
  words (fun letter => letter = 32 ∨ letter = 44) value

def lastWord (value : List UInt8) : List UInt8 := (addressWords value).getLastD []

theorem addressWords_separator {letter : UInt8} (separates : letter = 32 ∨ letter = 44)
    (rest : List UInt8) : addressWords (letter :: rest) = addressWords rest := by
  simp [addressWords, words, List.splitOnP_cons_eq_if_modifyHead, separates]

def openWords (token text : List UInt8) : List (List UInt8) :=
  ((text.splitOnP fun letter => letter = 32 ∨ letter = 44).modifyHead (token ++ ·)).filter (· ≠ [])

theorem openWords_separator {letter : UInt8} (separates : letter = 32 ∨ letter = 44)
    {token : List UInt8} (occupied : token ≠ []) (rest : List UInt8) :
    openWords token (letter :: rest) = token :: addressWords rest := by
  simp [openWords, addressWords, words, List.splitOnP_cons_eq_if_modifyHead, separates, occupied]

theorem openWords_letter {letter : UInt8} (other : ¬(letter = 32 ∨ letter = 44))
    (token rest : List UInt8) :
    openWords token (letter :: rest) = openWords (token ++ [letter]) rest := by
  simp [openWords, List.splitOnP_cons_eq_if_modifyHead, other, List.modifyHead_modifyHead,
    Function.comp_def]

theorem addressWords_letter {letter : UInt8} (other : ¬(letter = 32 ∨ letter = 44))
    (rest : List UInt8) : addressWords (letter :: rest) = openWords [letter] rest := by
  simp [addressWords, words, openWords, List.splitOnP_cons_eq_if_modifyHead, other]

theorem openWords_default {token : List UInt8} (occupied : token ≠ [])
    (text default : List UInt8) :
    (openWords token text).getLastD default = (openWords token text).getLastD token := by
  obtain ⟨first, others, pieces⟩ :=
    List.exists_cons_of_ne_nil (List.splitOnP_ne_nil (fun letter : UInt8 => letter = 32 ∨ letter = 44) text)
  have kept : openWords token text = (token ++ first) :: others.filter (· ≠ []) := by
    rw [openWords, pieces]
    exact List.filter_cons_of_pos (by simp [occupied])
  rw [kept, List.getLastD_cons, List.getLastD_cons]

theorem lastToken_eq_words (text token : List UInt8) :
    lastToken text true token = (addressWords text).getLastD token ∧
      (token ≠ [] → lastToken text false token = (openWords token text).getLastD token) := by
  induction text generalizing token with
  | nil =>
      constructor
      · simp [lastToken, addressWords, words]
      · intro occupied
        simp [lastToken, openWords, occupied]
  | cons letter rest ih =>
      by_cases separates : letter = 32 ∨ letter = 44
      · rw [lastToken, lastToken, if_pos separates, if_pos separates,
          addressWords_separator separates]
        refine ⟨(ih token).1, ?_⟩
        intro occupied
        rw [openWords_separator separates occupied, (ih token).1, List.getLastD_cons]
      · rw [lastToken, lastToken, if_neg separates, if_neg separates, addressWords_letter separates,
          openWords_letter separates]
        constructor
        · rw [openWords_default (List.cons_ne_nil _ _)]
          exact (ih [letter]).2 (List.cons_ne_nil _ _)
        · intro _
          have occupied := List.concat_ne_nil letter token
          rw [openWords_default occupied]
          exact (ih (token ++ [letter])).2 occupied

theorem lastToken_eq (value : List UInt8) : lastToken value true [] = lastWord value :=
  (lastToken_eq_words value []).1

structure HeaderName (header : List UInt8) : Prop where
  occupied : header ≠ []
  letters : ∀ letter ∈ header, letter ≠ 13 ∧ letter ≠ 10 ∧ letter ≠ 58

/-- A request with one header line of the name, which occurs in no other header line. -/
structure ForwardedRequest (header : List UInt8) where
  line : List UInt8
  front : List (List UInt8)
  value : List UInt8
  back : List (List UInt8)
  body : List UInt8
  named : HeaderName header
  oneLine : ¬crlf <:+: line
  ownLine : ¬crlf <:+: header ++ 58 :: value
  others : ∀ field ∈ front ++ back, field ≠ [] ∧ ¬crlf <:+: field ∧ ¬header <:+: field

namespace ForwardedRequest

variable {header : List UInt8} (request : ForwardedRequest header)

def fields : List (List UInt8) := request.front ++ (header ++ 58 :: request.value) :: request.back

def head : List UInt8 := request.line ++ (crlf ++ (ended request.fields ++ crlf))

def bytes : List UInt8 := request.head ++ request.body

theorem fields_line : ∀ field ∈ request.fields, field ≠ [] ∧ ¬crlf <:+: field := by
  intro field member
  rcases List.mem_append.mp member with inFront | behind
  · have other := request.others field (List.mem_append_left _ inFront)
    exact ⟨other.1, other.2.1⟩
  · rcases List.mem_cons.mp behind with rfl | inBack
    · exact ⟨List.append_ne_nil_of_left_ne_nil request.named.occupied _, request.ownLine⟩
    · have other := request.others field (List.mem_append_right _ inBack)
      exact ⟨other.1, other.2.1⟩

end ForwardedRequest

namespace ForwardedRequest

variable {header : List UInt8} (request : ForwardedRequest header)

theorem head_append (rest : List UInt8) : request.head ++ rest =
    request.line ++ (crlf ++ (ended request.fields ++ (crlf ++ rest))) := by
  simp only [head, List.append_assoc]

theorem fields_append (rest : List UInt8) : ended request.fields ++ rest = ended request.front ++
    (header ++ 58 :: (request.value ++ (crlf ++ (ended request.back ++ rest)))) := by
  simp [fields, ended]

theorem strstr_blank_head (rest : List UInt8) : strstr (request.head ++ rest) blank =
    some (request.line.length + (ended request.fields).length) := by
  rw [head_append]
  exact strstr_blank_ended request.fields_line request.oneLine rest

theorem head_length : request.head.length =
    request.line.length + (ended request.fields).length + blank.length := by
  simp only [head, blank, List.length_append]
  omega

theorem forwardedToken_zero (zero : 0 ∈ request.head) (hasForwardedForBlock : Bool) :
    forwardedToken (some header) (cString request.bytes) hasForwardedForBlock = none := by
  have isCut : cString request.head ≠ request.head := by
    intro same
    have noZero := List.takeWhile_eq_self_iff.mp same 0 zero
    exact absurd noZero (by decide)
  have cut : cString request.bytes = cString request.head := by
    rw [cString, bytes, List.takeWhile_append]
    exact if_neg fun same => isCut ((List.takeWhile_prefix _).eq_of_length same)
  have shorter : (cString request.head).length < request.head.length :=
    Nat.lt_of_le_of_ne (List.takeWhile_prefix _).length_le
      fun same => isCut ((List.takeWhile_prefix _).eq_of_length same)
  have endless : strstr (cString request.bytes) blank = none := by
    cases found : strstr (cString request.bytes) blank with
    | none => rfl
    | some offset =>
        have within := strstr_le found
        obtain ⟨behind, whole⟩ := List.takeWhile_prefix (l := request.head) (· ≠ 0)
        rw [cut] at found within
        have again := strstr_append found behind
        rw [cString, whole] at again
        have known := request.strstr_blank_head []
        rw [List.append_nil, again] at known
        have length := request.head_length
        cases known
        omega
  unfold forwardedToken
  rw [endless]
  split_ifs
  · rfl
  · dsimp only
    cases strstr (cString request.bytes) crlf with
    | none => rfl
    | some endOfFirstLine => cases strstr (cString request.bytes) header <;> rfl

theorem cString_bytes (noZero : 0 ∉ request.head) :
    cString request.bytes = request.head ++ cString request.body := by
  apply List.takeWhile_append_of_pos
  intro letter member
  have other : letter ≠ 0 := fun zero => noZero (zero ▸ member)
  simpa using other

/-- A name in the request line hides the header. -/
theorem forwardedToken_hidden (inside : header <:+: request.line) (rest : List UInt8)
    (hasForwardedForBlock : Bool) :
    forwardedToken (some header) (request.head ++ rest) hasForwardedForBlock = none := by
  obtain ⟨offset, found⟩ := Option.ne_none_iff_exists'.mp (strstr_infix_ne_none inside)
  have within := strstr_le found
  have occupied := List.length_pos_iff.mpr request.named.occupied
  have before : offset < request.line.length := by omega
  have foundToo : strstr (request.head ++ rest) header = some offset := by
    rw [head_append]
    exact strstr_append found _
  have endOfFirstLine : strstr (request.head ++ rest) crlf = some request.line.length := by
    rw [head_append, strstr_crlf request.oneLine]
  simp only [forwardedToken, foundToo, endOfFirstLine, request.strstr_blank_head]
  rw [if_pos before, ite_self]

theorem forwardedToken_found (absent : ¬header <:+: request.line) (rest : List UInt8) :
    forwardedToken (some header) (request.head ++ rest) true = some (lastWord request.value) := by
  have noReturn : 13 ∉ header := fun member => (request.named.letters 13 member).1 rfl
  have noFeed : 10 ∉ header := fun member => (request.named.letters 10 member).2.1 rfl
  have noColon : 58 ∉ header := fun member => (request.named.letters 58 member).2.2 rfl
  have front : ∀ line ∈ request.front, ¬header <:+: line :=
    fun line member => (request.others line (List.mem_append_left _ member)).2.2
  let line := header ++ 58 :: (request.value ++ (crlf ++ (ended request.back ++ (crlf ++ rest))))
  have whole : request.head ++ rest = request.line ++ (crlf ++ (ended request.front ++ line)) := by
    rw [head_append, fields_append]
  have found : strstr (request.head ++ rest) header =
      some ((ended request.front).length + (request.line.length + crlf.length)) := by
    rw [whole, strstr_line noReturn noFeed absent, strstr_ended noReturn noFeed front,
      strstr_starts (List.prefix_append _ _), Option.map_some, Option.map_some, Nat.zero_add]
  have endOfFirstLine : strstr (request.head ++ rest) crlf = some request.line.length := by
    rw [whole, strstr_crlf request.oneLine]
  have behind : (request.head ++ rest).drop
      ((ended request.front).length + (request.line.length + crlf.length)) = line := by
    rw [whole, ← List.append_assoc, ← List.append_assoc]
    apply List.drop_left'
    simp only [List.length_append]
    omega
  have endName : strstr line [58] = some header.length := strstr_letter noColon _
  have endValue : strstr line crlf = some (header.length + (request.value.length + 1)) := by
    have ends := strstr_crlf request.ownLine (ended request.back ++ (crlf ++ rest))
    rw [List.append_assoc, List.cons_append, List.length_append, List.length_cons] at ends
    exact ends
  have valueOf : (line.take (header.length + (request.value.length + 1))).drop (header.length + 1) =
      request.value := by
    simp only [line, List.take_length_add_append, List.drop_length_add_append, List.take_succ_cons,
      List.take_left', List.drop_succ_cons, List.drop_zero]
  have fieldsLength : (ended request.fields).length = (ended request.front).length +
      (header.length + (request.value.length + 1) + crlf.length + (ended request.back).length) := by
    have lengths := congrArg List.length (request.fields_append rest)
    simp only [List.length_append, List.length_cons] at lengths
    omega
  simp only [forwardedToken, found, endOfFirstLine, request.strstr_blank_head, behind, endName,
    endValue, valueOf, lastToken_eq]
  rw [if_neg (by decide), if_neg (by omega), if_neg (by omega), if_neg (by omega)]

end ForwardedRequest

def anyAddress : InetPton := fun _ _ _ => (1, Bytes.ofList 17 [1])

theorem setForwardedIp_anyAddress (query : Query) (token : List UInt8) :
    (setForwardedIp anyAddress query token).ipVersion ≠ 0 := by
  unfold setForwardedIp
  by_cases isVersion4 : strstr token (ascii ":") = none
  · rw [if_pos isVersion4]
    exact (by decide : socketVersionIpv4Bit ≠ 0)
  · rw [if_neg isVersion4]
    exact (by decide : socketVersionIpv6Bit ≠ 0)

/-- What a proxy forwards is the last word of its header exactly where the request line does not
have the name of the header. -/
theorem parseXForwardedFor_last_iff {header : List UInt8} (request : ForwardedRequest header) :
    (∀ inetPton query, query.xForwardedFor = some header →
        parseXForwardedFor inetPton query (cString request.bytes) true =
          setForwardedIp inetPton query (lastWord request.value)) ↔
      0 ∉ request.head ∧ ¬header <:+: request.line := by
  have ignored (missing : forwardedToken (some header) (cString request.bytes) true = none) :
      ¬∀ inetPton query, query.xForwardedFor = some header →
        parseXForwardedFor inetPton query (cString request.bytes) true =
          setForwardedIp inetPton query (lastWord request.value) := by
    intro hands
    have handed := hands anyAddress { Query.empty with xForwardedFor := some header } rfl
    rw [parseXForwardedFor_eq, missing] at handed
    exact setForwardedIp_anyAddress _ _ (congrArg Query.ipVersion handed).symm
  constructor
  · intro hands
    have noZero : 0 ∉ request.head :=
      fun zero => ignored (request.forwardedToken_zero zero true) hands
    refine ⟨noZero, ?_⟩
    intro inside
    apply ignored _ hands
    rw [request.cString_bytes noZero]
    exact request.forwardedToken_hidden inside _ true
  · intro ⟨noZero, absent⟩ inetPton query configured
    rw [parseXForwardedFor_eq, configured, request.cString_bytes noZero,
      request.forwardedToken_found absent]

def hiddenRequest : ForwardedRequest (ascii "xxx") where
  line := ascii "GET /announce?xxx HTTP/1.1"
  front := []
  value := ascii " 1.2.3.4"
  back := []
  body := []
  named := ⟨by decide, by decide +kernel⟩
  oneLine := by decide +kernel
  ownLine := by decide +kernel
  others := by decide

theorem parseXForwardedFor_hidden :
    ¬∀ (header : List UInt8) (request : ForwardedRequest header) (inetPton : InetPton)
      (query : Query), query.xForwardedFor = some header →
        parseXForwardedFor inetPton query (cString request.bytes) true =
          setForwardedIp inetPton query (lastWord request.value) := by
  intro hands
  have handed := hands (ascii "xxx") hiddenRequest anyAddress
    { Query.empty with xForwardedFor := some (ascii "xxx") } rfl
  revert handed
  decide +kernel

theorem setForwardedIp_unread {inetPton : InetPton} {token : List UInt8}
    (unread : ∀ family buffer, inetPton family token buffer = (0, buffer)) (query : Query) :
    setForwardedIp inetPton query token =
      if 58 ∈ token then { query with ip := Bytes.zero _, ipVersion := socketVersionIpv6Bit }
      else query := by
  have colon : ascii ":" = [58] := by decide
  unfold setForwardedIp
  rw [colon, unread, unread]
  by_cases member : 58 ∈ token
  · rw [if_pos member, if_neg (mt strstr_letter_eq_none_iff.mp (not_not_intro member))]
    rfl
  · rw [if_neg member, if_pos (strstr_letter_eq_none_iff.mpr member)]
    rfl

theorem UriState.run_kept {β : Type} {field : Query → β}
    (kept : ∀ query param value, field (getParam query param value) = field query)
    (walked : ∀ query path, field { query with path := path } = field query)
    (state : UriState) (text : List UInt8) : field (state.run text).query = field state.query := by
  have steps : ∀ (state : UriState) (current : UInt8),
      field (state.step current).query = field state.query := by
    intro state current
    cases status : state.status with
    | path =>
        simp only [step, status, putPath]
        split_ifs
        · rfl
        · exact walked _ _
        · rfl
    | param =>
        simp only [step, status, putParam, if_true]
        split_ifs
        · rfl
        · exact kept _ _ _
        · rfl
        · rfl
    | value =>
        simp only [step, status, putValue, writeValue, reduceCtorEq, if_false]
        split_ifs
        · rfl
        · exact kept _ _ _
        all_goals rfl
  induction text generalizing state with
  | nil => rfl
  | cons current rest ih =>
      rw [run]
      split_ifs
      · exact kept _ _ _
      · rw [ih, steps]

theorem UriState.run_connection (query : Query) (hashesBlock : Option (List UInt8))
    (text : List UInt8) :
    ((start query hashesBlock).run text).query.ip = query.ip ∧
    ((start query hashesBlock).run text).query.ipVersion = query.ipVersion ∧
    ((start query hashesBlock).run text).query.xForwardedFor = query.xForwardedFor := by
  refine ⟨?_, ?_, ?_⟩
  · exact run_kept (fun query param value => (getParam_connection query param value).1)
      (fun _ _ => rfl) _ text
  · exact run_kept (fun query param value => (getParam_connection query param value).2.1)
      (fun _ _ => rfl) _ text
  · exact run_kept (fun query param value => (getParam_connection query param value).2.2.2)
      (fun _ _ => rfl) _ text

/-- A forwarded word that is no address leaves the address as it was, unless it has a colon. -/
theorem parseUri_unread_iff (inetPton : InetPton) (query : Query)
    (hashesBlock : Option (List UInt8)) (hasForwardedForBlock : Bool) (message : List UInt8)
    {token : List UInt8}
    (forwarded : forwardedToken query.xForwardedFor (cString message) hasForwardedForBlock =
      some token)
    (unread : ∀ family buffer, inetPton family token buffer = (0, buffer)) :
    ((parseUri inetPton query hashesBlock hasForwardedForBlock message).1.ip = query.ip ∧
        (parseUri inetPton query hashesBlock hasForwardedForBlock message).1.ipVersion =
          query.ipVersion) ↔
      58 ∉ token ∨ query.ip = Bytes.zero _ ∧ query.ipVersion = socketVersionIpv6Bit := by
  let state := (UriState.start query hashesBlock).run ((cString message).drop 4)
  obtain ⟨ip, ipVersion, configured⟩ :=
    UriState.run_connection query hashesBlock ((cString message).drop 4)
  have handed : parseXForwardedFor inetPton state.query (cString message) hasForwardedForBlock =
      setForwardedIp inetPton state.query token := by
    rw [parseXForwardedFor_eq, configured, forwarded]
  have parsed : (parseUri inetPton query hashesBlock hasForwardedForBlock message).1 =
      if 58 ∈ token then
        { state.query with ip := Bytes.zero _, ipVersion := socketVersionIpv6Bit }
      else state.query :=
    handed.trans (setForwardedIp_unread unread state.query)
  rw [parsed]
  by_cases member : 58 ∈ token
  · rw [if_pos member]
    constructor
    · intro ⟨isIp, isVersion⟩
      exact Or.inr ⟨isIp.symm, isVersion.symm⟩
    · intro kept
      rcases kept with absent | ⟨isIp, isVersion⟩
      · exact absurd member absent
      · exact ⟨isIp.symm, isVersion.symm⟩
  · rw [if_neg member]
    exact ⟨fun _ => Or.inl member, fun _ => ⟨ip, ipVersion⟩⟩

def noAddress : InetPton := fun _ _ buffer => (0, buffer)

def forwardingMessage (value : String) : List UInt8 :=
  ascii "GET /announce HTTP/1.1\r\nxxx: " ++ ascii value ++ ascii "\r\n\r\n"

/-- A query of a client with the address `1.1.1.1` to a tracker behind a proxy. -/
def forwardedQuery : Query :=
  { Query.empty with
    ip := Bytes.ofList _ (v4MappedPrefix ++ [1, 1, 1, 1])
    ipVersion := socketVersionIpv4Bit
    xForwardedFor := some (ascii "xxx") }

theorem parseUri_unread_fail :
    ((parseUri noAddress forwardedQuery none true (forwardingMessage "eeee::, 2.3.4.5  , fail")).1.ip =
        forwardedQuery.ip ∧
      (parseUri noAddress forwardedQuery none true (forwardingMessage "eeee::, 2.3.4.5  , fail")).1.ipVersion =
        forwardedQuery.ipVersion) ↔
      58 ∉ ascii "fail" ∨
        forwardedQuery.ip = Bytes.zero _ ∧ forwardedQuery.ipVersion = socketVersionIpv6Bit :=
  parseUri_unread_iff noAddress forwardedQuery none true _ (by decide +kernel) fun _ _ => rfl

/-- An address with a port is no address, yet it replaces the one of the client. -/
theorem parseUri_unread_port :
    ¬∀ (inetPton : InetPton) (query : Query) (hashesBlock : Option (List UInt8))
      (hasForwardedForBlock : Bool) (message token : List UInt8),
      forwardedToken query.xForwardedFor (cString message) hasForwardedForBlock = some token →
      (∀ family buffer, inetPton family token buffer = (0, buffer)) →
      (parseUri inetPton query hashesBlock hasForwardedForBlock message).1.ip = query.ip ∧
        (parseUri inetPton query hashesBlock hasForwardedForBlock message).1.ipVersion =
          query.ipVersion := by
  intro keeps
  have kept := keeps noAddress forwardedQuery none true (forwardingMessage "1.2.3.4:80")
    (ascii "1.2.3.4:80") (by decide +kernel) fun _ _ => rfl
  exact absurd kept.2 (by decide +kernel)

end Etracker
