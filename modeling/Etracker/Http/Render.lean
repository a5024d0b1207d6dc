import Etracker.Data.Announce
import Etracker.Foundation.Bencode
import Etracker.Foundation.Occurrence

namespace Etracker.Http

open Foundation Foundation.CString Foundation.Bencode

/-- `struct render`. A null pointer to a string is `none`; `size` is passed apart from the message. -/
structure Render where
  code : Nat
  message : List UInt8
  size : Nat
  canKeepAlive : Bool
  socketTimeout : UInt16
  charset : Option (List UInt8)
  contentType : Option (List UInt8)
  websocketKey : Option (List UInt8)

def addStringBlock (string : List UInt8) (requiredSpace : Nat) : List UInt8 :=
  string.take requiredSpace

def firstLine (code : Nat) (websocketKey : List UInt8) : List UInt8 :=
  match code with
  | 101 => ascii "HTTP/1.1 101 Switching Protocols\r\nUpgrade: websocket\r\nConnection: Upgrade\r\n" ++
      ascii "Sec-WebSocket-Accept: " ++ websocketKey ++ ascii "\r\n"
  | 400 => addStringBlock (ascii "HTTP/1.0 400 Invalid Request\r\n") 30
  | 401 => addStringBlock (ascii "HTTP/1.0 401 Unauthorized\r\n") 27 ++
      addStringBlock (ascii "WWW-Authenticate: Basic realm=\"etracker\"\r\n") 42
  | 403 => addStringBlock (ascii "HTTP/1.0 403 Forbidden\r\n") 24
  | 404 => addStringBlock (ascii "HTTP/1.0 404 Not Found\r\n") 24
  | 405 => addStringBlock (ascii "HTTP/1.0 405 Method Not Allowed\r\n") 33
  | 408 => addStringBlock (ascii "HTTP/1.0 408 Request Timeout\r\n") 30
  | 413 => addStringBlock (ascii "HTTP/1.0 413 Request Entity Too Large\r\n") 39
  | 507 => addStringBlock (ascii "HTTP/1.0 507 Insufficient Storage\r\n") 35
  | _ => addStringBlock (ascii "HTTP/1.1 200 OK\r\n") 17

/-- `%s` prints the message up to its first zero byte. -/
def failureBody (size : Nat) (message : List UInt8) : List UInt8 :=
  ascii "d14:failure reason" ++ decimal size ++ ascii ":" ++ cString message ++ ascii "e"

namespace Render

variable (render : Render)

def fails : Bool := render.code ≠ 200 ∧ render.code ≠ 101

def bodySize : Nat :=
  if render.fails = true then (failureBody render.size render.message).length else render.size

def connectionLines : List UInt8 :=
  if render.websocketKey = none then
    if render.canKeepAlive = true then
      addStringBlock (ascii "Connection: Keep-Alive\r\n") 24 ++
        (ascii "Keep-Alive: timeout=" ++ decimal render.socketTimeout.toNat ++
          ascii ", max=1000\r\n")
    else addStringBlock (ascii "Connection: Close\r\n") 19
  else []

def contentTypeLine : List UInt8 :=
  match render.charset, render.contentType with
  | none, none => ascii "Content-Type: text/plain\r\n"
  | none, some contentType => ascii "Content-Type: " ++ cString contentType ++ ascii "\r\n"
  | some charset, none =>
      ascii "Content-Type: text/plain; charset=" ++ cString charset ++ ascii "\r\n"
  | some charset, some contentType =>
      ascii "Content-Type: " ++ cString contentType ++ ascii "; charset=" ++ cString charset ++
        ascii "\r\n"

def body : List UInt8 :=
  if render.code = 200 ∨ render.code = 101 then addStringBlock render.message render.size
  else failureBody render.size render.message

end Render

def renderHttpMessage (render : Render) : List UInt8 :=
  firstLine render.code (cString (render.websocketKey.getD [])) ++ render.connectionLines ++
    render.contentTypeLine ++
    (ascii "Content-Length: " ++ decimal render.bodySize ++
      ascii "\r\nServer: github.com/truekenny/etracker\r\n\r\n") ++ render.body

def bodyOf (response : List UInt8) : Option (List UInt8) :=
  (strstr response blank).map fun offset => response.drop (offset + blank.length)

def contentLengthName : List UInt8 := ascii "Content-Length: "

def contentLengthOf (response : List UInt8) : Option (List UInt8) := do
  let name ← strstr response contentLengthName
  let behind := response.drop (name + contentLengthName.length)
  let ends ← strstr behind crlf
  pure (behind.take ends)

def failureText (message : List UInt8) : List UInt8 :=
  ascii "d14:failure reason" ++ decimal message.length ++ ascii ":" ++ message ++ ascii "e"

/-- A client reads the message out of the response, and how long the body is. -/
structure Tells (response message : List UInt8) : Prop where
  body : bodyOf response = some (failureText message)
  decodes : (bodyOf response).bind decode =
    some (.dict [(ascii "failure reason", .string message)])
  contentLength : contentLengthOf response = some (decimal (failureText message).length)

theorem failureText_eq (message : List UInt8) :
    failureText message = encode (.dict [(ascii "failure reason", .string message)]) := by
  have key : stringText (ascii "failure reason") = ascii "14:failure reason" := by decide +kernel
  have opening : ascii "d14:failure reason" = 100 :: ascii "14:failure reason" := by decide
  rw [encode, encodeEntries, encodeEntries, encode, key, stringText, failureText, opening]
  simp only [List.append_assoc, List.cons_append, List.append_nil]
  rfl

abbrev HeadLine (line : List UInt8) : Prop :=
  line ≠ [] ∧ ¬crlf <:+: line ∧ ¬contentLengthName <:+: line

def serverLine : List UInt8 := ascii "Server: github.com/truekenny/etracker"

def response (head : List (List UInt8)) (length : Int) (body : List UInt8) : List UInt8 :=
  ended head ++ (contentLengthName ++ (decimal length ++
    (crlf ++ (serverLine ++ (crlf ++ (crlf ++ body))))))

section Head

variable {first : List UInt8} {others : List (List UInt8)}
  (lines : ∀ line ∈ first :: others, HeadLine line) (length : Int) (body : List UInt8)

include lines

theorem bodyOf_response : bodyOf (response (first :: others) length body) = some body := by
  have noReturn : 13 ∉ contentLengthName ++ decimal length := by
    rw [List.mem_append, not_or]
    exact ⟨by decide, not_mem_numberText (by decide) length⟩
  generalize lengthLine : contentLengthName ++ decimal length = line at noReturn
  have whole : ∀ field ∈ others ++ [line, serverLine], field ≠ [] ∧ ¬crlf <:+: field := by
    intro field member
    rcases List.mem_append.mp member with inHead | last
    · have headLine := lines field (List.mem_cons_of_mem _ inHead)
      exact ⟨headLine.1, headLine.2.1⟩
    · rcases List.mem_pair.mp last with rfl | rfl
      · refine ⟨?_, fun inside => noReturn (inside.subset (by decide))⟩
        rw [← lengthLine]
        exact List.append_ne_nil_of_left_ne_nil (by decide) _
      · decide +kernel
  have split : response (first :: others) length body = first ++ (crlf ++
      (ended (others ++ [line, serverLine]) ++ (crlf ++ body))) := by
    simp only [response, ← lengthLine, ended, List.flatMap_cons, List.flatMap_append,
      List.flatMap_nil, List.append_assoc, List.append_nil]
  have position := strstr_blank_ended whole (lines first List.mem_cons_self).2.1 body
  have behind : first.length + (ended (others ++ [line, serverLine])).length + blank.length =
      (first ++ (crlf ++ (ended (others ++ [line, serverLine]) ++ crlf))).length := by
    simp only [blank, List.length_append]
    omega
  have split' : first ++ (crlf ++ (ended (others ++ [line, serverLine]) ++ (crlf ++ body))) =
      first ++ (crlf ++ (ended (others ++ [line, serverLine]) ++ crlf)) ++ body := by
    simp only [List.append_assoc]
  rw [bodyOf, split, position, Option.map_some, behind, split', List.drop_left]

theorem contentLengthOf_response :
    contentLengthOf (response (first :: others) length body) = some (decimal length) := by
  have absent : ∀ line ∈ first :: others, ¬contentLengthName <:+: line :=
    fun line member => (lines line member).2.2
  have whole : ¬crlf <:+: decimal length :=
    fun inside => not_mem_numberText (by decide) length (inside.subset (by decide : 13 ∈ crlf))
  have name := strstr_ended (by decide) (by decide) absent
    (contentLengthName ++ (decimal length ++ (crlf ++ (serverLine ++ (crlf ++ (crlf ++ body))))))
  rw [strstr_starts (List.prefix_append _ _), Option.map_some, Nat.zero_add] at name
  rw [contentLengthOf, response, name, Option.bind_eq_bind, Option.bind_some, ← List.drop_drop,
    List.drop_left, List.drop_left]
  dsimp only
  rw [strstr_crlf whole, Option.bind_some, List.take_left]
  rfl

end Head

theorem firstLine_ended {code : Nat} (other : code ≠ 101) (websocketKey : List UInt8) :
    ∃ first others, firstLine code websocketKey = ended (first :: others) ∧
      ∀ line ∈ first :: others, HeadLine line := by
  unfold firstLine
  split
  · contradiction
  · exact ⟨ascii "HTTP/1.0 400 Invalid Request", [], by decide, by decide +kernel⟩
  · exact ⟨ascii "HTTP/1.0 401 Unauthorized", [ascii "WWW-Authenticate: Basic realm=\"etracker\""],
      by decide +kernel, by decide +kernel⟩
  · exact ⟨ascii "HTTP/1.0 403 Forbidden", [], by decide, by decide +kernel⟩
  · exact ⟨ascii "HTTP/1.0 404 Not Found", [], by decide, by decide +kernel⟩
  · exact ⟨ascii "HTTP/1.0 405 Method Not Allowed", [], by decide, by decide +kernel⟩
  · exact ⟨ascii "HTTP/1.0 408 Request Timeout", [], by decide, by decide +kernel⟩
  · exact ⟨ascii "HTTP/1.0 413 Request Entity Too Large", [], by decide, by decide +kernel⟩
  · exact ⟨ascii "HTTP/1.0 507 Insufficient Storage", [], by decide, by decide +kernel⟩
  · exact ⟨ascii "HTTP/1.1 200 OK", [], by decide, by decide +kernel⟩

theorem keepAliveLine (socketTimeout : UInt16) :
    HeadLine (ascii "Keep-Alive: timeout=" ++ decimal socketTimeout.toNat ++
      ascii ", max=1000") := by
  have lacks : ∀ letter : UInt8, letter = 13 ∨ letter = 67 →
      letter ∉ ascii "Keep-Alive: timeout=" ++ decimal socketTimeout.toNat ++ ascii ", max=1000" := by
    intro letter isOne
    rw [List.mem_append, List.mem_append, not_or, not_or]
    rcases isOne with rfl | rfl
    · exact ⟨⟨by decide, not_mem_numberText (by decide) _⟩, by decide⟩
    · exact ⟨⟨by decide, not_mem_numberText (by decide) _⟩, by decide⟩
  refine ⟨?_, ?_, ?_⟩
  · rw [List.append_assoc]
    exact List.append_ne_nil_of_left_ne_nil (by decide) _
  · exact fun inside => lacks 13 (.inl rfl) (inside.subset (by decide))
  · exact fun inside => lacks 67 (.inr rfl) (inside.subset (by decide))

namespace Render

variable {render : Render}

structure Rejects (render : Render) : Prop where
  fails : render.fails = true
  charset : render.charset = none
  contentType : render.contentType = none
  websocketKey : render.websocketKey = none

theorem connectionLines_ended (noKey : render.websocketKey = none) :
    ∃ lines, render.connectionLines = ended lines ∧ ∀ line ∈ lines, HeadLine line := by
  unfold connectionLines
  rw [if_pos noKey]
  split_ifs with keeps
  · refine ⟨[ascii "Connection: Keep-Alive", _], ?_,
      List.forall_mem_cons.mpr ⟨by decide +kernel,
        List.forall_mem_singleton.mpr (keepAliveLine render.socketTimeout)⟩⟩
    have first : addStringBlock (ascii "Connection: Keep-Alive\r\n") 24 =
        ascii "Connection: Keep-Alive" ++ crlf := by decide
    have last : ascii ", max=1000\r\n" = ascii ", max=1000" ++ crlf := by decide
    simp only [first, last, ended, List.flatMap_cons, List.flatMap_nil, List.append_assoc,
      List.append_nil]
  · exact ⟨[ascii "Connection: Close"], by decide, by decide +kernel⟩

theorem Rejects.response (rejects : render.Rejects) :
    ∃ first others, (∀ line ∈ first :: others, HeadLine line) ∧
      renderHttpMessage render =
        response (first :: others) (failureBody render.size render.message).length
          (failureBody render.size render.message) := by
  have fails := rejects.fails
  simp only [Render.fails, decide_eq_true_eq] at fails
  obtain ⟨first, others, begins, firstLines⟩ :=
    firstLine_ended fails.2 (cString (render.websocketKey.getD []))
  obtain ⟨lines, connection, connectionLines⟩ := connectionLines_ended rejects.websocketKey
  have contentType : render.contentTypeLine = ended [ascii "Content-Type: text/plain"] := by
    rw [contentTypeLine, rejects.charset, rejects.contentType]
    decide
  have server : ascii "\r\nServer: github.com/truekenny/etracker\r\n\r\n" =
      crlf ++ (serverLine ++ (crlf ++ crlf)) := by decide +kernel
  have size : render.bodySize = (failureBody render.size render.message).length := by
    rw [bodySize, if_pos rejects.fails]
  have body : render.body = failureBody render.size render.message := by
    rw [Render.body, if_neg (not_or.mpr fails)]
  refine ⟨first, others ++ (lines ++ [ascii "Content-Type: text/plain"]), ?_, ?_⟩
  · intro line member
    rw [List.mem_cons, List.mem_append, List.mem_append, ← or_assoc, ← List.mem_cons] at member
    rcases member with inFirst | inConnection | last
    · exact firstLines line inFirst
    · exact connectionLines line inConnection
    · rw [List.mem_singleton.mp last]
      decide +kernel
  · rw [renderHttpMessage, begins, connection, contentType, size, body, server]
    simp only [Http.response, contentLengthName, ended, List.flatMap_cons, List.flatMap_append,
      List.flatMap_nil, List.append_assoc, List.append_nil]

/-- A rejection tells its message exactly if the size that is passed is the length of the
message, and no zero byte cuts the message off. -/
theorem Rejects.tells_iff (rejects : render.Rejects) (message : List UInt8) :
    Tells (renderHttpMessage render) message ↔
      render.size = message.length ∧ cString render.message = message := by
  obtain ⟨first, others, lines, whole⟩ := rejects.response
  have body := bodyOf_response lines (failureBody render.size render.message).length
    (failureBody render.size render.message)
  have length := contentLengthOf_response lines (failureBody render.size render.message).length
    (failureBody render.size render.message)
  rw [← whole] at body length
  constructor
  · intro tells
    have same := body.symm.trans tells.body
    simp only [failureBody, failureText, Option.some.injEq, List.append_assoc,
      List.append_cancel_left_eq] at same
    have sizes := readNumber_numberText 58 (by decide) render.size
      (cString render.message ++ ascii "e")
    have lengths := readNumber_numberText 58 (by decide) message.length
      (message ++ ascii "e")
    have texts : numberText render.size ++ 58 :: (cString render.message ++ ascii "e") =
        numberText message.length ++ 58 :: (message ++ ascii "e") := same
    rw [texts, lengths] at sizes
    simp only [Option.some.injEq, Prod.mk.injEq, List.append_cancel_right_eq] at sizes
    exact ⟨by exact_mod_cast sizes.1.symm, sizes.2.symm⟩
  · intro ⟨size, text⟩
    have told : failureBody render.size render.message = failureText message := by
      rw [failureBody, size, text, failureText]
    rw [told] at body length
    refine ⟨body, ?_, length⟩
    rw [body, Option.bind_some, failureText_eq]
    exact decode_encode _

end Render

end Etracker.Http
