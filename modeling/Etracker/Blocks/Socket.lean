import Etracker.Blocks.Format
import Etracker.Blocks.Replies

namespace Etracker.Blocks

open Foundation Foundation.CString Foundation.Outcome Http

section Model

variable (found : Nat → UInt8) (render : Render)

def addFirstLine (block : Block) : Except BlockFault Block :=
  match render.code with
  | 101 => block.addFormat found 1000
      (ascii "HTTP/1.1 101 Switching Protocols\r\nUpgrade: websocket\r\nConnection: Upgrade\r\n" ++
        ascii "Sec-WebSocket-Accept: " ++ cString (render.websocketKey.getD []) ++ ascii "\r\n")
  | 400 => block.addString found (ascii "HTTP/1.0 400 Invalid Request\r\n") 30
  | 401 => do
      let block ← block.addString found (ascii "HTTP/1.0 401 Unauthorized\r\n") 27
      block.addString found (ascii "WWW-Authenticate: Basic realm=\"etracker\"\r\n") 42
  | 403 => block.addString found (ascii "HTTP/1.0 403 Forbidden\r\n") 24
  | 404 => block.addString found (ascii "HTTP/1.0 404 Not Found\r\n") 24
  | 405 => block.addString found (ascii "HTTP/1.0 405 Method Not Allowed\r\n") 33
  | 408 => block.addString found (ascii "HTTP/1.0 408 Request Timeout\r\n") 30
  | 413 => block.addString found (ascii "HTTP/1.0 413 Request Entity Too Large\r\n") 39
  | 507 => block.addString found (ascii "HTTP/1.0 507 Insufficient Storage\r\n") 35
  | _ => block.addString found (ascii "HTTP/1.1 200 OK\r\n") 17

def failureBlock : Except BlockFault (Option Block) :=
  if render.fails = true then do
    let body ← initBlock found
    let body ← body.addFormat found (UInt32.ofNat (render.size + 1000))
      (failureBody render.size render.message)
    pure (some body)
  else pure none

def addConnection (block : Block) : Except BlockFault Block :=
  if render.websocketKey = none then
    if render.canKeepAlive = true then do
      let block ← block.addString found (ascii "Connection: Keep-Alive\r\n") 24
      block.addFormat found 100 (ascii "Keep-Alive: timeout=" ++
        decimal render.socketTimeout.toNat ++ ascii ", max=1000\r\n")
    else block.addString found (ascii "Connection: Close\r\n") 19
  else pure block

def addContentLength (size : Nat) (block : Block) : Except BlockFault Block :=
  block.addFormat found 1000 (ascii "Content-Length: " ++ decimal size ++
    ascii "\r\nServer: github.com/truekenny/etracker\r\n\r\n")

def addBody (body : Option Block) (block : Block) : Except BlockFault Block :=
  match body with
  | none => block.addString found render.message (UInt32.ofNat render.size)
  | some body => block.addString found body.data.list body.size

def renderHttpMessage (block : Block) : Except BlockFault Block := do
  let block ← addFirstLine found render block
  let body ← failureBlock found render
  let block ← addConnection found render block
  let block ← block.addFormat found 1000 render.contentTypeLine
  let block ← addContentLength found
    ((body.map fun body => body.size.toNat).getD render.size) block
  addBody found render body block

end Model

structure Fits (render : Render) : Prop where
  size : render.size ≤ 2 ^ 22
  /-- A body is as long as it is said to be, and a message at most 500 bytes longer. -/
  message : if render.fails = true then (cString render.message).length ≤ render.size + 500
    else render.size ≤ render.message.length
  websocketKey : ∀ key, render.websocketKey = some key → (cString key).length ≤ 500
  charset : ∀ charset, render.charset = some charset → (cString charset).length ≤ 450
  contentType : ∀ contentType, render.contentType = some contentType →
    (cString contentType).length ≤ 450

variable (found : Nat → UInt8) {render : Render}

def namedCodes : List Nat := [101, 400, 401, 403, 404, 405, 408, 413, 507]

theorem firstLine_other {code : Nat} (other : code ∉ namedCodes) (key : List UInt8) :
    firstLine code key = Http.addStringBlock (ascii "HTTP/1.1 200 OK\r\n") 17 := by
  unfold firstLine
  split
  case h_10 => rfl
  all_goals exact absurd (by decide) other

theorem addFirstLine_other (other : render.code ∉ namedCodes) (block : Block) :
    addFirstLine found render block =
      block.addString found (ascii "HTTP/1.1 200 OK\r\n") 17 := by
  unfold addFirstLine
  generalize render.code = code at other
  split
  case h_10 => rfl
  all_goals exact absurd (by decide) other

theorem addFirstLine_appends (fits : Fits render) :
    Appends (addFirstLine found render)
      (firstLine render.code (cString (render.websocketKey.getD []))) 1000 := by
  have key : (cString (render.websocketKey.getD [])).length ≤ 500 := by
    cases isKey : render.websocketKey with
    | none => exact Nat.zero_le _
    | some key => exact fits.websocketKey key isKey
  have line {text : List UInt8} {space : UInt32} (readable : space.toNat ≤ text.length)
      (small : space.toNat ≤ 1000) :
      Appends (fun block => block.addString found text space)
        (Http.addStringBlock text space.toNat) 1000 :=
    (Appends.string found readable).change rfl small
  by_cases other : render.code ∉ namedCodes
  · rw [firstLine_other other, funext (addFirstLine_other found other)]
    exact line (by decide) (by decide)
  rw [not_not] at other
  unfold addFirstLine
  generalize cString (render.websocketKey.getD []) = key at key
  generalize render.code = code at other
  simp only [namedCodes, List.mem_cons, List.not_mem_nil, or_false] at other
  rcases other with rfl | rfl | rfl | rfl | rfl | rfl | rfl | rfl | rfl
  · refine (Appends.format found ?_).change rfl (by decide)
    change _ ≤ 1000
    simp only [List.length_append, ascii, List.length_map, String.reduceToList,
      List.length_cons, List.length_nil]
    omega
  · exact line (by decide) (by decide)
  · exact ((Appends.string found (by decide)).bind (Appends.string found (by decide))).change rfl
      (by decide)
  · exact line (by decide) (by decide)
  · exact line (by decide) (by decide)
  · exact line (by decide) (by decide)
  · exact line (by decide) (by decide)
  · exact line (by decide) (by decide)
  · exact line (by decide) (by decide)

theorem addConnection_appends :
    Appends (addConnection found render) render.connectionLines 124 := by
  have seconds : (decimal render.socketTimeout.toNat).length ≤ 5 :=
    decimal_length_le (by decide) (render.socketTimeout.toNat_lt.trans (by decide))
  unfold addConnection Render.connectionLines
  by_cases plain : render.websocketKey = none
  · simp only [if_pos plain]
    by_cases stays : render.canKeepAlive = true
    · have timeout : (ascii "Keep-Alive: timeout=" ++ decimal render.socketTimeout.toNat ++
          ascii ", max=1000\r\n").length ≤ (100 : UInt32).toNat := by
        change _ ≤ 100
        simp only [List.length_append, ascii, List.length_map, String.reduceToList,
          List.length_cons, List.length_nil]
        omega
      simp only [if_pos stays]
      exact ((Appends.string found (by decide)).bind (Appends.format found timeout)).change rfl
        (by decide)
    · simp only [if_neg stays]
      exact (Appends.string found (by decide)).change rfl (by decide)
  · simp only [if_neg plain]
    exact Appends.nothing.change rfl (Nat.zero_le _)

theorem contentTypeLine_length_le (fits : Fits render) : render.contentTypeLine.length ≤ 1000 := by
  unfold Render.contentTypeLine
  cases isCharset : render.charset with
  | none =>
      cases isType : render.contentType with
      | none => decide
      | some contentType =>
          have short := fits.contentType contentType isType
          simp only [List.length_append, ascii, List.length_map, String.reduceToList,
            List.length_cons, List.length_nil]
          omega
  | some charset =>
      have short := fits.charset charset isCharset
      cases isType : render.contentType with
      | none =>
          simp only [List.length_append, ascii, List.length_map, String.reduceToList,
            List.length_cons, List.length_nil]
          omega
      | some contentType =>
          have short' := fits.contentType contentType isType
          simp only [List.length_append, ascii, List.length_map, String.reduceToList,
            List.length_cons, List.length_nil]
          omega

theorem failureBody_length_le {size : Nat} (small : size ≤ 2 ^ 22) {message : List UInt8}
    (short : (cString message).length ≤ size + 500) :
    (failureBody size message).length ≤ size + 1000 := by
  have figures : (decimal size).length ≤ 7 := decimal_length_le (by decide) (by omega)
  simp only [failureBody, List.length_append, ascii, List.length_map, String.reduceToList,
    List.length_cons, List.length_nil]
  omega

theorem failureBlock_keeps (fits : Fits render) :
    (render.fails = false ∧ failureBlock found render = .ok none) ∨
      render.fails = true ∧ ∃ limit body, failureBlock found render = .ok (some body) ∧
        body.Keeps limit (failureBody render.size render.message) := by
  have message := fits.message
  unfold failureBlock
  cases fails : render.fails with
  | false => exact Or.inl ⟨rfl, rfl⟩
  | true =>
      rw [fails, if_pos rfl] at message
      have small := fits.size
      have space : (UInt32.ofNat (render.size + 1000)).toNat = render.size + 1000 := by
        rw [UInt32.toNat_ofNat']
        omega
      obtain ⟨empty, initial, keepsNone⟩ := initBlock_keeps found (render.size + 1000)
      obtain ⟨body, added, keeps⟩ := (Appends.format found
        ((failureBody_length_le small message).trans space.ge)).keeps (by omega) keepsNone (by
          rw [List.length_nil, Nat.zero_add, space])
      refine Or.inr ⟨rfl, _, body, ?_, keeps⟩
      simp only [if_true, initial, ok_bind, added, pure_eq_ok]

theorem addContentLength_appends {size : Nat} (small : size ≤ 2 ^ 23) :
    Appends (addContentLength found size) (ascii "Content-Length: " ++ decimal size ++
      ascii "\r\nServer: github.com/truekenny/etracker\r\n\r\n") 1000 := by
  have figures : (decimal size).length ≤ 7 := decimal_length_le (by decide) (by omega)
  refine (Appends.format found ?_).change rfl (by decide)
  change _ ≤ 1000
  simp only [List.length_append, ascii, List.length_map, String.reduceToList,
    List.length_cons, List.length_nil]
  omega

theorem renderHttpMessage_appends (fits : Fits render) :
    Appends (renderHttpMessage found render) (Http.renderHttpMessage render)
      (3124 + render.bodySize) := by
  have small := fits.size
  have message := fits.message
  have first := addFirstLine_appends found fits
  have connection := @addConnection_appends found render
  have contentType : Appends (fun block => block.addFormat found 1000 render.contentTypeLine)
      render.contentTypeLine 1000 :=
    (Appends.format found (contentTypeLine_length_le fits)).change rfl (by decide)
  unfold renderHttpMessage
  rcases failureBlock_keeps found fits with ⟨passes, done⟩ | ⟨fails, limit, body, done, keeps⟩
  · have told : render.bodySize = render.size := by
      rw [Render.bodySize, passes]
      rfl
    have isBody : render.body = Http.addStringBlock render.message render.size := by
      have code : ¬(render.code ≠ 200 ∧ render.code ≠ 101) := of_decide_eq_false passes
      rw [Render.body, if_pos (by tauto)]
    have size : (UInt32.ofNat render.size).toNat = render.size := by
      rw [UInt32.toNat_ofNat']
      omega
    have whole : Appends (fun block => block.addString found render.message
        (UInt32.ofNat render.size)) render.body render.size := by
      rw [passes, if_neg Bool.false_ne_true, ← size] at message
      exact (Appends.string found message).change (by rw [isBody, size]; rfl) size.le
    have length := @addContentLength_appends found render.size (small.trans (by decide))
    simp only [done, ok_bind]
    rw [told]
    refine (first.bind (connection.bind (contentType.bind (length.bind whole)))).change ?_
      (by omega)
    simp only [Http.renderHttpMessage, told, List.append_assoc]
  · have told : render.bodySize = (failureBody render.size render.message).length := by
      rw [Render.bodySize, fails]
      rfl
    have isBody : render.body = failureBody render.size render.message := by
      have code : render.code ≠ 200 ∧ render.code ≠ 101 := of_decide_eq_true fails
      rw [Render.body, if_neg (by tauto)]
    have whole := keeps.copies found
    rw [fails, if_pos rfl] at message
    have short := failureBody_length_le small message
    have length := @addContentLength_appends found render.bodySize (by rw [told]; omega)
    have size : body.size.toNat = render.bodySize := keeps.holds.size.trans told.symm
    simp only [done, ok_bind, Option.map_some, Option.getD_some, size]
    refine (first.bind (connection.bind (contentType.bind (length.bind whole)))).change ?_ ?_
    · simp only [Http.renderHttpMessage, isBody, List.append_assoc]
    · rw [told]
      omega

end Etracker.Blocks
