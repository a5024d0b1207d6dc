import Etracker.Http.Respond

namespace Etracker.Http

open Foundation.CString Foundation.Outcome

/-- Files that are the same below the web root. A path leads out of it in both or in none, but it
may lead to another place there, and what is no regular file or is too large may have any
content. -/
structure SameBelow (webRoot : List UInt8) (files files' : Files) : Prop where
  realpath : ∀ path, files'.realpath path = files.realpath path ∨
    ∃ absolute absolute', files.realpath path = .ok absolute ∧
      files'.realpath path = .ok absolute' ∧ startsWith webRoot absolute = false ∧
      startsWith webRoot absolute' = false
  stat : ∀ absolute, startsWith webRoot absolute = true →
    files'.stat absolute = files.stat absolute
  fopen : ∀ absolute statFile, startsWith webRoot absolute = true →
    files.stat absolute = .ok statFile → statFile.isRegular = true →
    statFile.size ≤ threadClientTcpMaxFileSize → files'.fopen absolute = files.fopen absolute
  strerror : files'.strerror = files.strerror

namespace Server

abbrev withFiles (server : Server) (files : Files) : Server := { server with files := files }

def processReads (server : Server) : List (In6Addr × List UInt8 × Int) →
    Except Fault (Server × List (Option (List UInt8)))
  | [] => pure (server, [])
  | (clientAddr, readBuffer, now) :: rest => do
      let (server, render) ← server.processRead clientAddr readBuffer now
      let (server, sent) ← server.processReads rest
      pure (server, render.map renderHttpMessage :: sent)

variable {server : Server} {files : Files} (readBuffer : List UInt8) (canKeepAlive : Bool)

theorem scrape_confined : (server.withFiles files).scrape readBuffer canKeepAlive =
    (server.scrape readBuffer canKeepAlive).map fun result =>
      (result.1.withFiles files, result.2) := by
  unfold scrape scrapedHashes
  dsimp only [withFiles]
  split_ifs
  · rfl
  · generalize renderScrapeTorrentsPublic server.torrentList _ _ = rendered
    cases rendered with
    | error fault => rfl
    | ok result => rfl

theorem apiSet_confined : (server.withFiles files).apiSet readBuffer canKeepAlive =
    ((server.apiSet readBuffer canKeepAlive).1.withFiles files,
      (server.apiSet readBuffer canKeepAlive).2) := by
  unfold apiSet
  dsimp only [withFiles]
  generalize Basic.apiSet server.host.inetPton server.authorizationHeader server.settings
    readBuffer = result
  obtain ⟨settings, reply⟩ := result
  cases reply with
  | rejected code message size => rfl
  | done body => rfl

section Alike

variable (same : SameBelow server.webRoot server.files files)

include same

theorem file_confined :
    (server.withFiles files).file readBuffer canKeepAlive =
      server.file readBuffer canKeepAlive := by
  have errorText : ∀ errno, files.errorText errno = server.files.errorText errno := by
    intro errno
    rw [Files.errorText, Files.errorText, same.strerror]
  have rendered : (server.withFiles files).render = server.render := rfl
  unfold file
  rw [rendered]
  dsimp only [withFiles]
  generalize (parseUri server.host.inetPton Query.empty none false readBuffer).1.path = path
  rcases same.realpath path with agrees | ⟨absolute, absolute', leads, leads', outside, outside'⟩
  · rw [agrees]
    cases server.files.realpath path with
    | error errno => simp only [errorText]
    | ok absolute =>
        by_cases outside : startsWith server.webRoot absolute = false
        · simp only [outside, if_true]
        rw [Bool.not_eq_false] at outside
        simp only [outside, Bool.true_eq_false, if_false, same.stat absolute outside]
        cases stats : server.files.stat absolute with
        | error errno => simp only [errorText]
        | ok statFile =>
            by_cases special : statFile.isRegular = false
            · simp only [special, if_true]
            by_cases large : statFile.size > threadClientTcpMaxFileSize
            · simp only [if_neg special, if_pos large]
            rw [Bool.not_eq_false] at special
            have opened := same.fopen absolute statFile outside stats special
              (Nat.le_of_not_lt large)
            have content : files.addFileBlock statFile.size absolute =
                server.files.addFileBlock statFile.size absolute := by
              simp only [Files.addFileBlock, opened, errorText]
            simp only [special, Bool.true_eq_false, if_false, if_neg large, content]
  · simp only [leads, leads', outside, outside', if_true]

theorem answer_confined : (server.withFiles files).answer readBuffer canKeepAlive =
    (server.answer readBuffer canKeepAlive).map fun result =>
      (result.1.withFiles files, result.2) := by
  unfold answer
  dsimp only
  rw [file_confined _ _ same, scrape_confined, apiSet_confined]
  split_ifs
  all_goals rfl

theorem processRead_confined (clientAddr : In6Addr) (now : Int) :
    (server.withFiles files).processRead clientAddr readBuffer now =
      (server.processRead clientAddr readBuffer now).map fun result =>
        (result.1.withFiles files, result.2) := by
  have front : Etracker.processRead (server.withFiles files).host
      (server.withFiles files).announceSettings (server.withFiles files).torrentList clientAddr
      readBuffer now = Etracker.processRead server.host server.announceSettings
        server.torrentList clientAddr readBuffer now := rfl
  rw [processRead, processRead, front]
  cases Etracker.processRead server.host server.announceSettings server.torrentList clientAddr
    readBuffer now with
  | error fault => rfl
  | ok result =>
      obtain ⟨torrentList, reply⟩ := result
      cases reply with
      | other =>
          have answered := @answer_confined { server with torrentList := torrentList } files
            readBuffer (Http.canKeepAlive server.settings.keepAlive readBuffer) same
          dsimp only [withFiles, ok_bind] at answered ⊢
          rw [answered]
          generalize Server.answer _ readBuffer _ = result
          cases result with
          | error fault => rfl
          | ok result => rfl
      | _ => rfl

end Alike

variable {readBuffer canKeepAlive} {after : Server}

theorem answer_kept {render : Render}
    (answered : server.answer readBuffer canKeepAlive = .ok (after, render)) :
    after.files = server.files ∧ after.webRoot = server.webRoot := by
  unfold answer at answered
  dsimp only at answered
  split_ifs at answered
  · cases answered
    exact ⟨rfl, rfl⟩
  · have isAfter : (server.apiSet readBuffer canKeepAlive).1 = after :=
      congrArg Prod.fst (Except.ok.inj answered)
    rw [← isAfter, apiSet]
    generalize Basic.apiSet server.host.inetPton server.authorizationHeader server.settings
      readBuffer = result
    obtain ⟨settings, reply⟩ := result
    cases reply with
    | rejected code message size => exact ⟨rfl, rfl⟩
    | done body => exact ⟨rfl, rfl⟩
  · cases answered
    exact ⟨rfl, rfl⟩
  · cases answered
    exact ⟨rfl, rfl⟩
  · cases answered
    exact ⟨rfl, rfl⟩
  · unfold scrape at answered
    dsimp only at answered
    split_ifs at answered
    · cases answered
      exact ⟨rfl, rfl⟩
    · obtain ⟨⟨torrentList, body⟩, _, rest⟩ := bind_eq_ok answered
      cases rest
      exact ⟨rfl, rfl⟩
  · cases answered
    exact ⟨rfl, rfl⟩

theorem processRead_kept {clientAddr : In6Addr} {now : Int} {render : Option Render}
    (answered : server.processRead clientAddr readBuffer now = .ok (after, render)) :
    after.files = server.files ∧ after.webRoot = server.webRoot := by
  rw [processRead] at answered
  obtain ⟨⟨torrentList, reply⟩, _, rest⟩ := bind_eq_ok answered
  cases reply with
  | other =>
      obtain ⟨⟨after', render'⟩, replied, rest'⟩ := bind_eq_ok rest
      cases rest'
      exact @answer_kept { server with torrentList := torrentList } _ _ _ _ replied
  | _ =>
      cases rest
      exact ⟨rfl, rfl⟩

def outsideFiles (absolute content : List UInt8) : Files where
  realpath path :=
    if endsWith (ascii "page") path = true then .ok (ascii "/web/page")
    else if endsWith (ascii "link") path = true then .ok absolute
    else .error 2
  stat path := .ok (if path = ascii "/web/page" then ⟨true, 4⟩ else ⟨false, content.length⟩)
  fopen path := .ok (if path = ascii "/web/page" then ascii "text" else content, 0)
  strerror := fun _ => ascii "No such file or directory"

theorem outsideFiles_same {absolute absolute' content content' : List UInt8}
    (outside : startsWith (ascii "/web/") absolute = false)
    (outside' : startsWith (ascii "/web/") absolute' = false)
    (length : content'.length = content.length) :
    SameBelow (ascii "/web/") (outsideFiles absolute content) (outsideFiles absolute' content') where
  realpath := by
    intro path
    dsimp only [outsideFiles]
    split_ifs
    · exact .inl rfl
    · exact .inr ⟨absolute, absolute', rfl, rfl, outside, outside'⟩
    · exact .inl rfl
  stat := by
    intro path _
    rw [outsideFiles, outsideFiles, length]
  fopen := by
    intro path statFile _ found isRegular _
    dsimp only [outsideFiles] at found ⊢
    by_cases page : path = ascii "/web/page"
    · rw [if_pos page, if_pos page]
    · rw [if_neg page] at found
      cases found
      cases isRegular
  strerror := rfl

def passwordServer : Server :=
  freshServer.withFiles (outsideFiles (ascii "/etc/passwd") (ascii "root:x:0"))

def confinedRequests : List (In6Addr × List UInt8 × Int) :=
  [(Foundation.Bytes.zero 16, ascii "GET /page HTTP/1.1\r\n\r\n", 0),
    (Foundation.Bytes.zero 16, ascii "GET /link HTTP/1.1\r\n\r\n", 1),
    (Foundation.Bytes.zero 16, ascii "GET /x HTTP/1.1\r\n\r\n", 2)]

end Server

end Etracker.Http
