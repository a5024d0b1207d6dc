import Etracker.Basic.Model
import Etracker.Data.Scrape
import Etracker.Http.Model
import Etracker.Http.Render

/-! What `processRead` renders for a request, and the rejections among it. -/

namespace Etracker.Http

open Foundation.CString Foundation.Bencode Foundation.Outcome

def threadClientTcpMaxFileSize : Nat := 2000000

def websocketGuid : List UInt8 := ascii "258EAFA5-E914-47DA-95CA-C5AB0DC85B11"

structure FileStat where
  isRegular : Bool
  size : Nat

/-- The files, as the C library tells of them; an error is an `errno`. -/
structure Files where
  realpath : List UInt8 → Except Int (List UInt8)
  stat : List UInt8 → Except Int FileStat
  /-- What `fread` can get out of a file, and the `errno` if that is too little. -/
  fopen : List UInt8 → Except Int (List UInt8 × Int)
  strerror : Int → List UInt8

structure Server where
  host : Host
  torrentList : TorrentList
  settings : Basic.ServerSettings
  xForwardedFor : Option (List UInt8)
  /-- The header block, which is filled before it is read. -/
  authorizationHeader : List UInt8
  charset : Option (List UInt8)
  webRoot : List UInt8
  files : Files
  /-- What `formatStats` prints. -/
  statsPage : List UInt8
  sha1 : List UInt8 → List UInt8

def Files.errorText (files : Files) (errno : Int) : List UInt8 :=
  decimal errno ++ ascii ": " ++ cString (files.strerror errno)

def Files.addFileBlock (files : Files) (requiredSpace : Nat) (filename : List UInt8) :
    List UInt8 :=
  match files.fopen filename with
  | .error errno => ascii "fopen failed: " ++ files.errorText errno
  | .ok (content, errno) =>
      if requiredSpace ≤ content.length then content.take requiredSpace
      else ascii "fread failed: " ++ files.errorText errno

def endsWith (suffix string : List UInt8) : Bool := suffix.isSuffixOf string

def typeFile (absolute : List UInt8) : List UInt8 :=
  if endsWith (ascii ".ico") absolute = true then ascii "image/x-icon"
  else if endsWith (ascii ".png") absolute = true then ascii "image/png"
  else if endsWith (ascii ".html") absolute = true then ascii "text/html"
  else if endsWith (ascii ".js") absolute = true then ascii "application/javascript"
  else if endsWith (ascii ".css") absolute = true then ascii "text/css"
  else if endsWith (ascii ".jpg") absolute = true then ascii "image/jpeg"
  else ascii "text/plain"

namespace Server

variable (server : Server)

def announceSettings : Settings where
  maxPeersPerResponse := server.settings.maxPeersPerResponse
  interval := server.settings.interval.interval
  xForwardedFor := server.xForwardedFor

def render (code : Nat) (message : List UInt8) (size : Nat) (canKeepAlive : Bool) : Render where
  code := code
  message := message
  size := size
  canKeepAlive := canKeepAlive
  socketTimeout := server.settings.socketTimeout
  charset := none
  contentType := none
  websocketKey := none

def apiSet (readBuffer : List UInt8) (canKeepAlive : Bool) : Server × Render :=
  let (settings, reply) := Basic.apiSet server.host.inetPton server.authorizationHeader
    server.settings readBuffer
  let server := { server with settings := settings }
  match reply with
  | .rejected code message size => (server, server.render code message size canKeepAlive)
  | .done body =>
      (server, { server.render 200 body body.length canKeepAlive with
        contentType := some (ascii "application/json") })

def websocket (readBuffer : List UInt8) (canKeepAlive : Bool) : Render :=
  match websocketKey readBuffer readBuffer.length with
  | none => server.render 400 (ascii "Websocket Failed") 16 canKeepAlive
  | some key =>
      { server.render 101 [] 0 true with
        websocketKey := some (Basic.base64_encode (server.sha1 (key ++ websocketGuid))) }

def scrapedHashes (readBuffer : List UInt8) : List UInt8 :=
  (parseUri server.host.inetPton Query.empty (some []) false readBuffer).2.getD []

def scrape (readBuffer : List UInt8) (canKeepAlive : Bool) : Except Fault (Server × Render) :=
  let query := (parseUri server.host.inetPton Query.empty (some []) false readBuffer).1
  let hashesBlock := server.scrapedHashes readBuffer
  if hashesBlock.length = 0 then
    pure (server, server.render 403 (ascii "Forbidden (Full Scrape Disabled)") 32 canKeepAlive)
  else do
    let (torrentList, body) ← renderScrapeTorrentsPublic server.torrentList hashesBlock query
    pure ({ server with torrentList := torrentList },
      server.render 200 body body.length canKeepAlive)

def file (readBuffer : List UInt8) (canKeepAlive : Bool) : Render :=
  let query := (parseUri server.host.inetPton Query.empty none false readBuffer).1
  match server.files.realpath query.path with
  | .error errno =>
      let text := ascii "Page not found: " ++ server.files.errorText errno
      server.render 404 text text.length canKeepAlive
  | .ok absolute =>
      if startsWith server.webRoot absolute = false then
        server.render 404 (ascii "Page not found: Secure error") 28 canKeepAlive
      else match server.files.stat absolute with
      | .error errno =>
          let text := ascii "Page not found: Stat failed: " ++ server.files.errorText errno
          server.render 404 text text.length canKeepAlive
      | .ok statFile =>
          if statFile.isRegular = false then
            server.render 404 (ascii "Page not found: Not a file") 26 canKeepAlive
          else if statFile.size > threadClientTcpMaxFileSize then
            server.render 507 (ascii "File size exceeds the allowed limit") 35 canKeepAlive
          else
            let content := server.files.addFileBlock statFile.size absolute
            { server.render 200 content content.length canKeepAlive with
              contentType := some (typeFile absolute) }

def answer (readBuffer : List UInt8) (canKeepAlive : Bool) : Except Fault (Server × Render) :=
  let text := cString readBuffer
  if isHttp readBuffer = false then
    pure (server, server.render 405 readBuffer readBuffer.length canKeepAlive)
  else if startsWith (ascii "GET /api/set") text = true then
    pure (server.apiSet readBuffer canKeepAlive)
  else if startsWith (ascii "GET /api/websocket") text = true then
    pure (server, server.websocket readBuffer canKeepAlive)
  else if startsWith (ascii "GET /stats.html") text = true then
    pure (server, { server.render 200 server.statsPage server.statsPage.length canKeepAlive with
      charset := server.charset
      contentType := some (ascii "text/html") })
  else if startsWith (ascii "GET / ") text = true then
    pure (server, server.render 200
      (ascii "github.com/truekenny/etracker - open-source BitTorrent tracker\n") 63 canKeepAlive)
  else if startsWith (ascii "GET /scrape") text = true then server.scrape readBuffer canKeepAlive
  else pure (server, server.file readBuffer canKeepAlive)

def processRead (clientAddr : In6Addr) (readBuffer : List UInt8) (now : Int) :
    Except Fault (Server × Option Render) := do
  let (torrentList, reply) ← Etracker.processRead server.host server.announceSettings
    server.torrentList clientAddr readBuffer now
  let server := { server with torrentList := torrentList }
  let canKeepAlive := canKeepAlive server.settings.keepAlive readBuffer
  match reply with
  | .closed => pure (server, none)
  | .incomplete => pure (server, none)
  | .rejected code message size =>
      -- The response 413 is rendered before the headers are looked at.
      pure (server, some (server.render code message size (code ≠ 413 && canKeepAlive)))
  | .announced body => pure (server, some (server.render 200 body body.length canKeepAlive))
  | .other => do
      let (server, render) ← server.answer readBuffer canKeepAlive
      pure (server, some render)

end Server

def timeoutRender : Render := ⟨408, ascii "Request Timeout", 15, false, 0, none, none, none⟩

/-- A message is passed with its length, and no zero byte is in it. -/
structure Render.Sound (render : Render) : Prop where
  rejects : render.Rejects
  size : render.size = render.message.length
  noZero : 0 ∉ render.message

theorem Render.Sound.tells {render : Render} (sound : render.Sound) :
    Tells (renderHttpMessage render) render.message :=
  (sound.rejects.tells_iff render.message).mpr ⟨sound.size, cString_of_not_mem sound.noZero⟩

theorem Render.Rejects.untold_of_size {render : Render} (rejects : render.Rejects)
    (size : render.size ≠ render.message.length) (noZero : 0 ∉ render.message)
    (message : List UInt8) : ¬Tells (renderHttpMessage render) message := by
  intro tells
  obtain ⟨same, text⟩ := (rejects.tells_iff message).mp tells
  rw [cString_of_not_mem noZero] at text
  rw [text] at size
  exact size same

theorem Render.Rejects.untold_of_zero {render : Render} (rejects : render.Rejects)
    (size : render.size = render.message.length) (zero : 0 ∈ render.message)
    (message : List UInt8) : ¬Tells (renderHttpMessage render) message := by
  intro tells
  obtain ⟨same, text⟩ := (rejects.tells_iff message).mp tells
  have length : (cString render.message).length = render.message.length := by
    rw [text, ← same, size]
  have whole := (List.takeWhile_prefix _).eq_of_length length
  have letter := List.takeWhile_eq_self_iff.mp whole 0 zero
  exact absurd letter (by decide)

theorem Files.errorText_noZero (files : Files) (errno : Int) : 0 ∉ files.errorText errno := by
  have noZero : 0 ∉ cString (files.strerror errno) := by
    intro zero
    exact absurd (List.mem_takeWhile_imp zero) (by decide)
  rw [errorText, List.mem_append, List.mem_append, not_or, not_or]
  exact ⟨⟨not_mem_numberText (by decide) errno, by decide⟩, noZero⟩

namespace Server

variable (server : Server) (readBuffer : List UInt8) (canKeepAlive : Bool)

theorem render_rejects {code : Nat} (message : List UInt8) (size : Nat)
    (fails : code ≠ 200 ∧ code ≠ 101) : (server.render code message size canKeepAlive).Rejects :=
  ⟨decide_eq_true fails, rfl, rfl, rfl⟩

theorem render_sound {code : Nat} (message : List UInt8) (fails : code ≠ 200 ∧ code ≠ 101)
    (noZero : 0 ∉ message) : (server.render code message message.length canKeepAlive).Sound :=
  ⟨server.render_rejects canKeepAlive message message.length fails, rfl, noZero⟩

theorem infoHash_untold : ∀ message, ¬Tells (renderHttpMessage
    (server.render 400 (ascii "Field 'info_hash' must be filled") 25 canKeepAlive)) message :=
  (server.render_rejects canKeepAlive _ 25 (by decide)).untold_of_size
    (by change 25 ≠ (ascii "Field 'info_hash' must be filled").length; decide)
    (by change 0 ∉ ascii "Field 'info_hash' must be filled"; decide)

theorem port_untold : ∀ message, ¬Tells (renderHttpMessage
    (server.render 400 (ascii "Field 'port' must be filled") 25 canKeepAlive)) message :=
  (server.render_rejects canKeepAlive _ 25 (by decide)).untold_of_size
    (by change 25 ≠ (ascii "Field 'port' must be filled").length; decide)
    (by change 0 ∉ ascii "Field 'port' must be filled"; decide)

variable {readBuffer} in
theorem method_untold (zero : 0 ∈ readBuffer) : ∀ message, ¬Tells (renderHttpMessage
    (server.render 405 readBuffer readBuffer.length canKeepAlive)) message :=
  (server.render_rejects canKeepAlive _ _ (by decide)).untold_of_zero rfl zero

theorem apiSet_sound (rejected : (server.apiSet readBuffer canKeepAlive).2.fails = true) :
    (server.apiSet readBuffer canKeepAlive).2.Sound := by
  unfold apiSet Basic.apiSet at rejected ⊢
  split_ifs at rejected ⊢ with ajax basic
  · exact render_sound _ canKeepAlive (ascii "Request should be ajax") (by decide)
      (by decide)
  · cases rejected
  · exact render_sound _ canKeepAlive (ascii "Authorization Failure") (by decide)
      (by decide)

theorem websocket_sound (rejected : (server.websocket readBuffer canKeepAlive).fails = true) :
    (server.websocket readBuffer canKeepAlive).Sound := by
  unfold websocket at rejected ⊢
  cases key : websocketKey readBuffer readBuffer.length with
  | none =>
      exact server.render_sound canKeepAlive (ascii "Websocket Failed") (by decide)
        (by decide)
  | some key' =>
      rw [key] at rejected
      cases rejected

theorem file_sound (rejected : (server.file readBuffer canKeepAlive).fails = true) :
    (server.file readBuffer canKeepAlive).Sound := by
  have noError : ∀ (text : List UInt8) (errno : Int), 0 ∉ text →
      0 ∉ text ++ server.files.errorText errno := by
    intro text errno noZero
    rw [List.mem_append, not_or]
    exact ⟨noZero, server.files.errorText_noZero errno⟩
  unfold file at rejected ⊢
  dsimp only at rejected ⊢
  cases found : server.files.realpath
      (parseUri server.host.inetPton Query.empty none false readBuffer).1.path with
  | error errno => exact server.render_sound canKeepAlive _ (by decide) (noError _ errno (by decide))
  | ok absolute =>
      simp only [found] at rejected ⊢
      split_ifs at rejected ⊢ with outside
      · exact server.render_sound canKeepAlive (ascii "Page not found: Secure error")
          (by decide) (by decide)
      · cases told : server.files.stat absolute with
        | error errno =>
            exact server.render_sound canKeepAlive _ (by decide) (noError _ errno (by decide))
        | ok statFile =>
            simp only [told] at rejected ⊢
            split_ifs at rejected ⊢ with special large
            · exact server.render_sound canKeepAlive (ascii "Page not found: Not a file")
                (by decide) (by decide)
            · exact server.render_sound canKeepAlive
                (ascii "File size exceeds the allowed limit") (by decide) (by decide)
            · cases rejected

theorem scrape_sound {after : Server} {render : Render}
    (answered : server.scrape readBuffer canKeepAlive = .ok (after, render))
    (rejected : render.fails = true) : render.Sound := by
  unfold scrape at answered
  dsimp only at answered
  split_ifs at answered with nothing
  · cases answered
    exact server.render_sound canKeepAlive (ascii "Forbidden (Full Scrape Disabled)")
      (by decide) (by decide)
  · obtain ⟨⟨torrentList, body⟩, _, rest⟩ := bind_eq_ok answered
    cases rest
    cases rejected

theorem answer_sound (http : isHttp readBuffer = true) {after : Server} {render : Render}
    (answered : server.answer readBuffer canKeepAlive = .ok (after, render))
    (rejected : render.fails = true) : render.Sound := by
  unfold answer at answered
  dsimp only at answered
  split_ifs at answered with other isSet isWebsocket isStats isRoot isScrape
  · exact absurd http (Bool.eq_false_iff.mp other)
  · have rendered : (server.apiSet readBuffer canKeepAlive).2 = render :=
      congrArg Prod.snd (Except.ok.inj answered)
    rw [← rendered] at rejected ⊢
    exact server.apiSet_sound readBuffer canKeepAlive rejected
  · cases answered
    exact server.websocket_sound readBuffer canKeepAlive rejected
  · cases answered
    cases rejected
  · cases answered
    cases rejected
  · exact server.scrape_sound readBuffer canKeepAlive answered rejected
  · cases answered
    exact server.file_sound readBuffer canKeepAlive rejected

/-- The requests whose rejections are passed with a wrong size or with a zero byte in the message. -/
def Misleads (clientAddr : In6Addr) : Prop :=
  let query := httpQuery server.host server.announceSettings clientAddr readBuffer
  readBuffer.length < threadClientTcpReceivedMessageLength ∧
    (startsWith (ascii "GET /announce") (cString readBuffer) = true ∧
        (query.hasInfoHash = false ∨ query.port = 0) ∨
      isHttp readBuffer = false ∧ 0 ∈ readBuffer)

inductive Rejection (clientAddr : In6Addr) (render : Render) : Prop
  | sound : ¬server.Misleads readBuffer clientAddr → render.Sound →
      Rejection clientAddr render
  | untold : server.Misleads readBuffer clientAddr →
      (∀ message, ¬Tells (renderHttpMessage render) message) → Rejection clientAddr render

variable {server readBuffer}

theorem processRead_rejection {clientAddr : In6Addr} {now : Int} {after : Server} {render : Render}
    (answered : server.processRead clientAddr readBuffer now = .ok (after, some render))
    (rejected : render.fails = true) : server.Rejection readBuffer clientAddr render := by
  unfold processRead Etracker.processRead at answered
  dsimp only at answered
  split_ifs at answered with long empty incomplete announces noHash noPort
  · cases answered
    refine .sound (fun misleads => Nat.not_le_of_lt misleads.1 long) ?_
    exact render_sound _ _ (ascii "Request Entity Too Large") (by decide) (by decide)
  · cases answered
  · cases answered
  · cases answered
    exact .untold ⟨Nat.lt_of_not_le long, .inl ⟨announces, .inl noHash⟩⟩
      (server.infoHash_untold _)
  · cases answered
    exact .untold ⟨Nat.lt_of_not_le long, .inl ⟨announces, .inr noPort⟩⟩ (server.port_untold _)
  · obtain ⟨⟨torrentList, reply⟩, announced, rest⟩ := bind_eq_ok answered
    obtain ⟨⟨torrentList', body⟩, _, rest'⟩ := bind_eq_ok announced
    cases rest'
    cases rest
    cases rejected
  · rw [pure_eq_ok, ok_bind] at answered
    obtain ⟨⟨after', render'⟩, replied, rest⟩ := bind_eq_ok answered
    cases rest
    by_cases http : isHttp readBuffer = true
    · refine .sound ?_ (answer_sound _ readBuffer _ http replied rejected)
      intro ⟨_, misleads⟩
      rcases misleads with ⟨announces', _⟩ | ⟨other, _⟩
      · exact announces announces'
      · exact absurd http (Bool.eq_false_iff.mp other)
    · rw [Bool.not_eq_true] at http
      unfold answer at replied
      rw [if_pos http] at replied
      cases replied
      by_cases zero : 0 ∈ readBuffer
      · exact .untold ⟨Nat.lt_of_not_le long, .inr ⟨http, zero⟩⟩ (method_untold _ _ zero)
      · refine .sound ?_ (render_sound _ _ _ (by decide) zero)
        intro ⟨_, misleads⟩
        rcases misleads with ⟨announces', _⟩ | ⟨_, zero'⟩
        · exact announces announces'
        · exact zero zero'

end Server

/-- Rejections and timeouts tell their messages, except those that mislead. -/
theorem rejections_tell_iff (server : Server) (clientAddr : In6Addr) (readBuffer : List UInt8)
    (now : Int) {after : Server} {render : Render}
    (answered : server.processRead clientAddr readBuffer now = .ok (after, some render))
    (rejected : render.code ≠ 200 ∧ render.code ≠ 101) :
    (Tells (renderHttpMessage render) render.message ↔ ¬server.Misleads readBuffer clientAddr) ∧
      (∀ message, Tells (renderHttpMessage render) message → message = render.message) ∧
      Tells (renderHttpMessage timeoutRender) timeoutRender.message := by
  have timeout : timeoutRender.Sound := ⟨⟨by decide, rfl, rfl, rfl⟩, by decide, by decide⟩
  cases Server.processRead_rejection answered (decide_eq_true rejected) with
  | sound right sound =>
      refine ⟨iff_of_true sound.tells right, ?_, timeout.tells⟩
      intro message tells
      have text := ((sound.rejects.tells_iff message).mp tells).2
      rwa [cString_of_not_mem sound.noZero, eq_comm] at text
  | untold misleads never =>
      exact ⟨iff_of_false (never _) (not_not_intro misleads), fun message tells =>
        absurd tells (never message), timeout.tells⟩

def freshServer : Server where
  host := ⟨fun _ _ buffer => (0, buffer), fun _ _ => ascii "10.0.0.1"⟩
  torrentList := emptyTorrentList
  settings := ⟨⟨1799, 1799, 1799, 1799, 239⟩, 60, 3, false⟩
  xForwardedFor := none
  authorizationHeader := ascii "Authorization: Basic"
  charset := none
  webRoot := ascii "/web/"
  files := ⟨fun _ => .error 2, fun _ => .error 2, fun _ => .error 2,
    fun _ => ascii "No such file or directory"⟩
  statsPage := []
  sha1 := id

theorem rejections_tell_iff_missing :
    ∃ after render, freshServer.processRead (Foundation.Bytes.zero 16)
        (ascii "GET /x HTTP/1.1\r\n\r\n") 0 = .ok (after, some render) ∧ render.code = 404 ∧
      Tells (renderHttpMessage render) (ascii "Page not found: 2: No such file or directory") := by
  have answered : freshServer.processRead (Foundation.Bytes.zero 16)
      (ascii "GET /x HTTP/1.1\r\n\r\n") 0 = .ok (freshServer,
        some (freshServer.render 404 (ascii "Page not found: 2: No such file or directory") 44 false)) := by
    rfl
  have told := rejections_tell_iff freshServer _ _ 0 answered (by decide)
  refine ⟨_, _, answered, rfl, told.1.mpr ?_⟩
  intro ⟨_, misleads⟩
  revert misleads
  decide +kernel

/-- An announce without a hash is told a text of 32 letters as one of 25, which nothing decodes;
a zero byte behind the head of another request is cut off and counted. -/
theorem rejections_mislead :
    (∃ after render, freshServer.processRead (Foundation.Bytes.zero 16)
        (ascii "GET /announce HTTP/1.1\r\n\r\n") 0 = .ok (after, some render) ∧
      render.code = 400 ∧
      render.body = ascii "d14:failure reason25:Field 'info_hash' must be fillede" ∧
      ∀ message, ¬Tells (renderHttpMessage render) message) ∧
    ∃ after render, freshServer.processRead (Foundation.Bytes.zero 16)
        (ascii "POST / HTTP/1.1\r\n\r\n\x00x") 0 = .ok (after, some render) ∧
      render.code = 405 ∧
      render.body = ascii "d14:failure reason21:POST / HTTP/1.1\r\n\r\ne" ∧
      ∀ message, ¬Tells (renderHttpMessage render) message := by
  have missing : freshServer.processRead (Foundation.Bytes.zero 16)
      (ascii "GET /announce HTTP/1.1\r\n\r\n") 0 = .ok (freshServer,
        some (freshServer.render 400 (ascii "Field 'info_hash' must be filled") 25 false)) := by
    rfl
  have method : freshServer.processRead (Foundation.Bytes.zero 16)
      (ascii "POST / HTTP/1.1\r\n\r\n\x00x") 0 = .ok (freshServer,
        some (freshServer.render 405 (ascii "POST / HTTP/1.1\r\n\r\n\x00x") 21 false)) := by
    rfl
  exact ⟨⟨_, _, missing, rfl, by decide +kernel, freshServer.infoHash_untold false⟩,
    _, _, method, rfl, by decide +kernel, freshServer.method_untold false (by decide +kernel)⟩

end Etracker.Http
