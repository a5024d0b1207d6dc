import Etracker.Foundation.Delimited
import Etracker.Http.Respond

namespace Etracker.Http

open Foundation.Bencode Foundation.CString Foundation.Delimited Foundation.Outcome

def readResponse (received : List UInt8) : Option (List UInt8 × List UInt8) := do
  let behind ← bodyOf received
  let length ← contentLengthOf received
  let size := (numberOf length).toNat
  if size ≤ behind.length then pure (behind.take size, behind.drop size) else none

theorem bodyOf_append {received body : List UInt8} (read : bodyOf received = some body)
    (behind : List UInt8) : bodyOf (received ++ behind) = some (body ++ behind) := by
  obtain ⟨offset, found, rfl⟩ := Option.map_eq_some_iff.mp read
  rw [bodyOf, strstr_append found, Option.map_some,
    List.drop_append_of_le_length (strstr_le found)]

theorem contentLengthOf_append {received length : List UInt8}
    (read : contentLengthOf received = some length) (behind : List UInt8) :
    contentLengthOf (received ++ behind) = some length := by
  unfold contentLengthOf at read ⊢
  obtain ⟨name, found, read'⟩ := Option.bind_eq_some_iff.mp read
  obtain ⟨ends, found', same⟩ := Option.bind_eq_some_iff.mp read'
  cases same
  have within := strstr_le found
  have within' := strstr_le found'
  rw [strstr_append found]
  dsimp only [Option.bind_eq_bind, Option.bind_some] at within' ⊢
  rw [List.drop_append_of_le_length within, strstr_append found', Option.bind_some,
    List.take_append_of_le_length (by omega)]
  rfl

theorem readResponse_stable : Stable readResponse := by
  intro received rest body read behind
  unfold readResponse at read ⊢
  obtain ⟨all, found, read'⟩ := Option.bind_eq_some_iff.mp read
  obtain ⟨length, told, read''⟩ := Option.bind_eq_some_iff.mp read'
  rw [bodyOf_append found, contentLengthOf_append told]
  dsimp only [Option.bind_eq_bind, Option.bind_some] at read'' ⊢
  split_ifs at read'' with fits
  cases read''
  rw [List.length_append, if_pos (fits.trans (Nat.le_add_right _ _)),
    List.take_append_of_le_length fits, List.drop_append_of_le_length fits]
  rfl

section Lines

/-- A text that neither ends a line nor looks like the name of a header. -/
abbrev Plain (text : List UInt8) : Prop := 13 ∉ text ∧ 58 ∉ text

theorem Plain.append {text text' : List UInt8} (plain : Plain text) (plain' : Plain text') :
    Plain (text ++ text') := by
  rw [Plain, List.mem_append, List.mem_append, not_or, not_or]
  exact ⟨⟨plain.1, plain'.1⟩, plain.2, plain'.2⟩

theorem suffix_of_letter {left right front back : List UInt8} {letter : UInt8}
    (inFront : letter ∉ front) (behind : letter ∉ back)
    (inside : left ++ letter :: right <:+: front ++ letter :: back) : left <:+ front := by
  obtain ⟨before, after, same⟩ := inside
  rw [List.append_assoc, List.append_assoc, List.cons_append, ← List.append_assoc] at same
  have both := (List.append_cons_inj_of_notMem inFront behind).mp same.symm
  exact ⟨before, both.1.symm⟩

theorem headLine_field {name value : List UInt8} (noReturn : 13 ∉ name) (noColon : 58 ∉ name)
    (other : ¬ascii "Content-Length" <:+ name) (plain : Plain value) :
    HeadLine (name ++ 58 :: value) := by
  refine ⟨?_, ?_, ?_⟩
  · exact List.append_ne_nil_of_right_ne_nil _ (List.cons_ne_nil _ _)
  · intro ends
    have inLine := ends.subset (List.mem_cons_self : (13 : UInt8) ∈ crlf)
    rcases List.mem_append.mp inLine with inName | inValue
    · exact noReturn inName
    · rcases List.mem_cons.mp inValue with absurdity | inValue
      · cases absurdity
      · exact plain.1 inValue
  · intro inside
    have split : contentLengthName = ascii "Content-Length" ++ 58 :: [32] := by decide
    rw [split] at inside
    exact other (suffix_of_letter noColon plain.2 inside)

end Lines

theorem connectionLines_lines (render : Render) :
    ∃ lines, render.connectionLines = ended lines ∧ ∀ line ∈ lines, HeadLine line := by
  by_cases noKey : render.websocketKey = none
  · exact Render.connectionLines_ended noKey
  · exact ⟨[], if_neg noKey, List.forall_mem_nil _⟩

structure Render.Clean (render : Render) : Prop where
  contentType : ∀ contentType, render.contentType = some contentType → Plain (cString contentType)
  charset : ∀ charset, render.charset = some charset → Plain (cString charset)
  websocketKey : ∀ key, render.websocketKey = some key → Plain (cString key)
  size : render.fails = false → render.size ≤ render.message.length

namespace Render.Clean

variable {render : Render} (clean : render.Clean)

include clean

theorem body_length : render.body.length = render.bodySize := by
  unfold body bodySize
  cases fails : render.fails with
  | false =>
      have code : ¬(render.code ≠ 200 ∧ render.code ≠ 101) := of_decide_eq_false fails
      rw [if_pos (by tauto), if_neg Bool.false_ne_true, addStringBlock,
        List.length_take_of_le (clean.size fails)]
  | true =>
      have code : render.code ≠ 200 ∧ render.code ≠ 101 := of_decide_eq_true fails
      rw [if_neg (by tauto), if_pos rfl]

theorem contentTypeLine_ended :
    ∃ line, render.contentTypeLine = ended [line] ∧ HeadLine line := by
  have field : ∀ value, Plain value → HeadLine (ascii "Content-Type" ++ 58 :: value) :=
    fun value => headLine_field (by decide) (by decide) (by decide)
  have opens : ascii "Content-Type: " = ascii "Content-Type" ++ 58 :: [32] := by decide
  have text : ascii "Content-Type: text/plain; charset=" =
      ascii "Content-Type" ++ 58 :: ascii " text/plain; charset=" := by decide
  have ends : ascii "\r\n" = crlf := rfl
  have space : Plain [32] := by decide
  have plainCharset : Plain (ascii "; charset=") := by decide
  have plainText : Plain (ascii " text/plain; charset=") := by decide
  unfold contentTypeLine
  cases isCharset : render.charset with
  | none =>
      cases isType : render.contentType with
      | none => exact ⟨ascii "Content-Type: text/plain", by decide, by decide +kernel⟩
      | some contentType =>
          have plain := space.append (clean.contentType contentType isType)
          refine ⟨_, ?_, field _ plain⟩
          simp only [opens, ends, ended, List.flatMap_cons, List.flatMap_nil, List.append_assoc,
            List.cons_append, List.append_nil]
  | some charset =>
      have plain := clean.charset charset isCharset
      cases isType : render.contentType with
      | none =>
          refine ⟨_, ?_, field _ (plainText.append plain)⟩
          simp only [text, ends, ended, List.flatMap_cons, List.flatMap_nil, List.append_assoc,
            List.cons_append, List.append_nil]
      | some contentType =>
          have plainType := space.append (clean.contentType contentType isType)
          refine ⟨_, ?_, field _ ((plainType.append plainCharset).append plain)⟩
          simp only [opens, ends, ended, List.flatMap_cons, List.flatMap_nil, List.append_assoc,
            List.cons_append, List.append_nil]

theorem firstLine_ended : ∃ first others,
    firstLine render.code (cString (render.websocketKey.getD [])) = ended (first :: others) ∧
      ∀ line ∈ first :: others, HeadLine line := by
  by_cases switches : render.code = 101
  · have plain : Plain (cString (render.websocketKey.getD [])) := by
      cases isKey : render.websocketKey with
      | none => decide
      | some key => exact clean.websocketKey key isKey
    generalize cString (render.websocketKey.getD []) = key at plain
    have space : Plain [32] := by decide
    have accept : HeadLine (ascii "Sec-WebSocket-Accept" ++ 58 :: ([32] ++ key)) :=
      headLine_field (by decide) (by decide) (by decide) (space.append plain)
    have opens :
        ascii "HTTP/1.1 101 Switching Protocols\r\nUpgrade: websocket\r\nConnection: Upgrade\r\n" =
          ended [ascii "HTTP/1.1 101 Switching Protocols", ascii "Upgrade: websocket",
            ascii "Connection: Upgrade"] := by decide +kernel
    have name : ascii "Sec-WebSocket-Accept: " = ascii "Sec-WebSocket-Accept" ++ 58 :: [32] := by
      decide
    have ends : ascii "\r\n" = crlf := rfl
    have protocols : HeadLine (ascii "HTTP/1.1 101 Switching Protocols") := by decide +kernel
    have upgrade : HeadLine (ascii "Upgrade: websocket") := by decide +kernel
    have connection : HeadLine (ascii "Connection: Upgrade") := by decide +kernel
    refine ⟨_, [_, _, _], ?_, List.forall_mem_cons.mpr ⟨protocols, List.forall_mem_cons.mpr
      ⟨upgrade, List.forall_mem_cons.mpr ⟨connection, List.forall_mem_singleton.mpr accept⟩⟩⟩⟩
    rw [switches, firstLine, opens, name, ends]
    simp only [ended, List.flatMap_cons, List.flatMap_nil, List.append_assoc, List.cons_append,
      List.append_nil]
  · exact Http.firstLine_ended switches _

theorem response : ∃ first others, (∀ line ∈ first :: others, HeadLine line) ∧
    renderHttpMessage render = Http.response (first :: others) render.bodySize render.body := by
  obtain ⟨first, others, begins, firstLines⟩ := clean.firstLine_ended
  obtain ⟨lines, connection, connectionLines⟩ := connectionLines_lines render
  obtain ⟨line, contentType, headLine⟩ := clean.contentTypeLine_ended
  have server : ascii "\r\nServer: github.com/truekenny/etracker\r\n\r\n" =
      crlf ++ (serverLine ++ (crlf ++ crlf)) := by decide +kernel
  refine ⟨first, others ++ (lines ++ [line]), ?_, ?_⟩
  · intro other member
    rw [List.mem_cons, List.mem_append, List.mem_append, ← or_assoc, ← List.mem_cons] at member
    rcases member with inFirst | inConnection | last
    · exact firstLines other inFirst
    · exact connectionLines other inConnection
    · exact List.mem_singleton.mp last ▸ headLine
  · rw [renderHttpMessage, begins, connection, contentType, server]
    simp only [Http.response, contentLengthName, ended, List.flatMap_cons, List.flatMap_append,
      List.flatMap_nil, List.append_assoc, List.append_nil]

/-- A client reads the body of a response, and all of it. -/
theorem readResponse_render : readResponse (renderHttpMessage render) = some (render.body, []) := by
  obtain ⟨first, others, lines, whole⟩ := clean.response
  rw [whole, readResponse, bodyOf_response lines, contentLengthOf_response lines]
  have size : (numberOf (decimal render.bodySize)).toNat = render.body.length := by
    rw [clean.body_length]
    exact congrArg Int.toNat (numberOf_numberText render.bodySize)
  dsimp only [Option.bind_eq_bind, Option.bind_some]
  rw [size, if_pos (Nat.le_refl _), List.take_length, List.drop_length]
  rfl

end Render.Clean

namespace Server

variable {server : Server} {canKeepAlive : Bool} {code : Nat} {message : List UInt8}

theorem render_clean {size : Nat} (readable : size ≤ message.length)
    {contentType charset : Option (List UInt8)}
    (plainType : ∀ text, contentType = some text → Plain (cString text))
    (plainCharset : ∀ text, charset = some text → Plain (cString text)) :
    Render.Clean { server.render code message size canKeepAlive with
      contentType := contentType
      charset := charset } where
  contentType := plainType
  charset := plainCharset
  websocketKey := fun _ absurdity => by cases absurdity
  size := fun _ => readable

theorem untyped : ∀ text, (none : Option (List UInt8)) = some text → Plain (cString text) :=
  fun _ absurdity => by cases absurdity

theorem typed {text : List UInt8} (plain : Plain (cString text)) :
    ∀ text', some text = some text' → Plain (cString text') :=
  fun _ same => Option.some.inj same ▸ plain

theorem typeFile_plain (absolute : List UInt8) : Plain (cString (typeFile absolute)) := by
  unfold typeFile
  split_ifs <;> decide

variable (server)

theorem apiSet_clean (readBuffer : List UInt8) :
    (server.apiSet readBuffer canKeepAlive).2.Clean := by
  unfold apiSet Basic.apiSet
  split_ifs
  · exact render_clean (by decide) untyped untyped
  · exact render_clean (Nat.le_refl _) (typed (by decide)) untyped
  · exact render_clean (by decide) untyped untyped

theorem websocket_clean (readBuffer : List UInt8) :
    (server.websocket readBuffer canKeepAlive).Clean := by
  unfold websocket
  cases websocketKey readBuffer readBuffer.length with
  | none => exact render_clean (by decide) untyped untyped
  | some key =>
      refine ⟨untyped, untyped, ?_, fun _ => Nat.zero_le _⟩
      intro encoded same
      cases same
      have cut : ∀ letter ∉ Basic.symbols, letter ∉ cString
          (Basic.base64_encode (server.sha1 (key ++ websocketGuid))) :=
        fun letter other member => Basic.not_mem_base64_encode _ other
          ((List.takeWhile_prefix _).subset member)
      exact ⟨cut 13 (by decide), cut 58 (by decide)⟩

theorem file_clean (readBuffer : List UInt8) : (server.file readBuffer canKeepAlive).Clean := by
  unfold file
  dsimp only
  split
  · exact render_clean (Nat.le_refl _) untyped untyped
  · split_ifs
    · exact render_clean (by decide) untyped untyped
    · split
      · exact render_clean (Nat.le_refl _) untyped untyped
      · split_ifs
        · exact render_clean (by decide) untyped untyped
        · exact render_clean (by decide) untyped untyped
        · exact render_clean (Nat.le_refl _) (typed (typeFile_plain _)) untyped

variable {server} (plain : ∀ charset, server.charset = some charset → Plain (cString charset))
  {readBuffer : List UInt8} {after : Server} {render : Render}

include plain

theorem answer_clean (answered : server.answer readBuffer canKeepAlive = .ok (after, render)) :
    render.Clean := by
  unfold answer at answered
  dsimp only at answered
  split_ifs at answered
  · cases answered
    exact render_clean (Nat.le_refl _) untyped untyped
  · have rendered : (server.apiSet readBuffer canKeepAlive).2 = render :=
      congrArg Prod.snd (Except.ok.inj answered)
    exact rendered ▸ server.apiSet_clean readBuffer
  · cases answered
    exact server.websocket_clean readBuffer
  · cases answered
    exact render_clean (Nat.le_refl _) (typed (by decide)) plain
  · cases answered
    exact render_clean (by decide) untyped untyped
  · unfold scrape at answered
    dsimp only at answered
    split_ifs at answered
    · cases answered
      exact render_clean (by decide) untyped untyped
    · obtain ⟨⟨torrentList, body⟩, _, rest⟩ := bind_eq_ok answered
      cases rest
      exact render_clean (Nat.le_refl _) untyped untyped
  · cases answered
    exact server.file_clean readBuffer

theorem processRead_clean {clientAddr : In6Addr} {now : Int}
    (answered : server.processRead clientAddr readBuffer now = .ok (after, some render)) :
    render.Clean := by
  unfold processRead Etracker.processRead at answered
  dsimp only at answered
  split_ifs at answered
  · cases answered
    exact render_clean (by decide) untyped untyped
  · cases answered
  · cases answered
  · cases answered
    exact render_clean (by decide) untyped untyped
  · cases answered
    exact render_clean (by decide) untyped untyped
  · obtain ⟨⟨torrentList, reply⟩, announced, rest⟩ := bind_eq_ok answered
    obtain ⟨⟨torrentList', body⟩, _, rest'⟩ := bind_eq_ok announced
    cases rest'
    cases rest
    exact render_clean (Nat.le_refl _) untyped untyped
  · rw [pure_eq_ok, ok_bind] at answered
    obtain ⟨⟨after', render'⟩, replied, rest⟩ := bind_eq_ok answered
    cases rest
    exact answer_clean plain replied

end Server

/-- What is sent over a connection until a websocket is made of it. -/
inductive Responded (charset : Option (List UInt8)) : Render → Prop
  | answer {server after : Server} {clientAddr : In6Addr} {readBuffer : List UInt8} {now : Int}
      {render : Render} : server.charset = charset →
      server.processRead clientAddr readBuffer now = .ok (after, some render) →
      Responded charset render
  | timeout : Responded charset timeoutRender

theorem Responded.clean {charset : Option (List UInt8)} {render : Render}
    (plain : ∀ text, charset = some text → Plain (cString text))
    (responded : Responded charset render) : render.Clean := by
  cases responded with
  | answer same answered => exact Server.processRead_clean (same ▸ plain) answered
  | timeout =>
      exact ⟨Server.untyped, Server.untyped, Server.untyped, fun _ => by decide⟩

/-- Wherever the responses of a connection are cut, a client reads the bodies of those that came
before the cut, and of no others. -/
theorem responses_delimited {charset : Option (List UInt8)}
    (plain : ∀ text, charset = some text → Plain (cString text)) {renders : List Render}
    (responded : ∀ render ∈ renders, Responded charset render) {received : List UInt8}
    (cut : received <+: renders.flatMap renderHttpMessage) :
    ∃ whole part, CutAt renderHttpMessage renders whole received part ∧
      readAll readResponse received.length received = (whole.map Render.body, part) :=
  readAll_cut readResponse_stable rfl
    (fun render member => ((responded render member).clean plain).readResponse_render) cut
    (Nat.le_refl _)

def missedRenders : List Render :=
  [freshServer.render 404 (ascii "Page not found: 2: No such file or directory") 44 false,
    timeoutRender]

theorem responses_delimited_missed :
    ∃ whole part, CutAt renderHttpMessage missedRenders whole
        ((missedRenders.flatMap renderHttpMessage).take 300) part ∧
      readAll readResponse ((missedRenders.flatMap renderHttpMessage).take 300).length
        ((missedRenders.flatMap renderHttpMessage).take 300) = (whole.map Render.body, part) := by
  have answered : freshServer.processRead (Foundation.Bytes.zero 16)
      (ascii "GET /x HTTP/1.1\r\n\r\n") 0 = .ok (freshServer, some (freshServer.render 404
        (ascii "Page not found: 2: No such file or directory") 44 false)) := rfl
  have responded : ∀ render ∈ missedRenders, Responded none render :=
    List.forall_mem_cons.mpr ⟨.answer rfl answered, List.forall_mem_singleton.mpr .timeout⟩
  exact responses_delimited Server.untyped responded (List.take_prefix 300 _)

end Etracker.Http
