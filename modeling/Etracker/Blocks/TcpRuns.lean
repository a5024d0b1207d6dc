import Etracker.Basic.Sha1
import Etracker.Blocks.TcpWorker
import Etracker.Data.Decoded

/-! Whatever requests a worker is sent, its blocks have room for what it does with them, and it
sends what `processRead` is said to render. -/

namespace Etracker.Blocks

open Foundation Foundation.CString Foundation.Outcome Foundation.Runs Http

structure TcpBlocks.Keeps (limit : Nat) (blocks : TcpBlocks) : Prop where
  sendBlock : ∃ held, blocks.sendBlock.Keeps limit held
  dataBlock : ∃ held, blocks.dataBlock.Keeps limit held
  announceBlock : ∃ held, blocks.announceBlock.Keeps limit held
  scrapeBlock : ∃ held, blocks.scrapeBlock.Keeps limit held
  hashesBlock : ∃ held, blocks.hashesBlock.Keeps limit held
  forwardedForBlock : ∃ held, blocks.forwardedForBlock.Keeps limit held

def tcpLimit : Nat := 2100000

/-- What a server is started with and finds on its host. -/
structure Sensible (server : Server) (stats : Stats) : Prop where
  table : TableInv server.torrentList
  inetNtop : ShortAddresses server.host.inetNtop
  errors : ShortErrors server.files
  charset : ∀ charset, server.charset = some charset → (cString charset).length ≤ 450
  sha1 : ∀ data, (server.sha1 data).length = 20
  statsPage : server.statsPage = stats.page
  short : stats.Short

structure Answered (answer : Server × TcpBlocks × Render) (answer' : Server × Render) : Prop where
  server : answer.1 = answer'.1
  keeps : answer.2.1.Keeps tcpLimit
  empty : answer.2.1.sendBlock.Keeps tcpLimit []
  fits : Fits answer.2.2
  room : 3124 + answer.2.2.bodySize ≤ tcpLimit
  response : Http.renderHttpMessage answer.2.2 = Http.renderHttpMessage answer'.2

section Renders

theorem Fits.bodySize_le {render : Render} (fits : Fits render) :
    render.bodySize ≤ render.size + 1000 := by
  have message := fits.message
  unfold Render.bodySize
  cases fails : render.fails with
  | true =>
      rw [fails, if_pos rfl] at message
      exact failureBody_length_le fits.size message
  | false => exact Nat.le_add_right _ _

variable {server : Server} {canKeepAlive : Bool}

theorem render_fits {code : Nat} {message : List UInt8} {size : Nat} (small : size ≤ 2 ^ 22)
    (readable : size ≤ message.length) (short : (cString message).length ≤ size + 500) :
    Fits (server.render code message size canKeepAlive) where
  size := small
  message := by
    split_ifs
    · exact short
    · exact readable
  websocketKey := fun _ absurdity => by cases absurdity
  charset := fun _ absurdity => by cases absurdity
  contentType := fun _ absurdity => by cases absurdity

section Held

variable {limit : Nat} {block : Block} {held : List UInt8} (keeps : block.Keeps limit held)

include keeps

theorem renderBlock_fits (small : held.length ≤ 2 ^ 22) (code : Nat)
    {contentType charset : Option (List UInt8)}
    (shortType : ∀ name, contentType = some name → (cString name).length ≤ 450)
    (shortCharset : ∀ name, charset = some name → (cString name).length ≤ 450) :
    Fits { renderBlock server canKeepAlive code block with
      contentType := contentType
      charset := charset } where
  size := by
    change block.size.toNat ≤ 2 ^ 22
    rw [keeps.holds.size]
    exact small
  message := by
    change if _ then (cString block.data.list).length ≤ block.size.toNat + 500
      else block.size.toNat ≤ block.data.list.length
    rw [keeps.cString, keeps.holds.size]
    split_ifs
    · exact ((List.takeWhile_prefix _).length_le).trans (Nat.le_add_right _ _)
    · exact keeps.holds.inFront.length_le
  websocketKey := fun _ absurdity => by cases absurdity
  charset := shortCharset
  contentType := shortType

theorem renderHttpMessage_block {render : Render} (message : render.message = block.data.list)
    (size : render.size = block.size.toNat) :
    Http.renderHttpMessage render =
      Http.renderHttpMessage { render with message := held, size := held.length } := by
  have length := size.trans keeps.holds.size
  have failure : failureBody render.size render.message = failureBody held.length held := by
    rw [failureBody, failureBody, length, message, keeps.cString]
  have whole : Http.addStringBlock render.message render.size =
      Http.addStringBlock held held.length := by
    rw [Http.addStringBlock, Http.addStringBlock, message, size, keeps.content, List.take_length]
  have bodySize : render.bodySize =
      Render.bodySize { render with message := held, size := held.length } := by
    unfold Render.bodySize
    rw [failure, length]
    rfl
  have body : render.body = Render.body { render with message := held, size := held.length } := by
    unfold Render.body
    rw [failure, whole]
  unfold Http.renderHttpMessage
  rw [bodySize, body]
  rfl

end Held

end Renders

section Branches

theorem unnamed : ∀ name, (none : Option (List UInt8)) = some name →
    (cString name).length ≤ 450 :=
  fun _ absurdity => by cases absurdity

theorem named {text : List UInt8} (short : (cString text).length ≤ 450) :
    ∀ name, some text = some name → (cString name).length ≤ 450 := by
  intro name same
  cases same
  exact short

variable {server : Server} {blocks : TcpBlocks} {canKeepAlive : Bool}
  (keeps : blocks.Keeps tcpLimit) (empty : blocks.sendBlock.Keeps tcpLimit [])

include keeps empty

theorem answered_text {render : Render} (fits : Fits render) (small : render.size ≤ 5000) :
    Answered (server, blocks, render) (server, render) where
  server := rfl
  keeps := keeps
  empty := empty
  fits := fits
  room := by
    have length := fits.bodySize_le
    have limit : tcpLimit = 2100000 := rfl
    dsimp only
    omega
  response := rfl

theorem answered_said {code : Nat} {message : List UInt8} {size : Nat} (small : size ≤ 5000)
    (readable : size ≤ message.length) (short : (cString message).length ≤ size + 500) :
    Answered (server, blocks, server.render code message size canKeepAlive)
      (server, server.render code message size canKeepAlive) :=
  answered_text keeps empty (render_fits (small.trans (by decide)) readable short) small

theorem answered_block (after : Server) {block : Block} {held : List UInt8}
    (keepsBlock : block.Keeps tcpLimit held)
    (small : held.length ≤ 2050000) (code : Nat) {contentType charset : Option (List UInt8)}
    (shortType : ∀ name, contentType = some name → (cString name).length ≤ 450)
    (shortCharset : ∀ name, charset = some name → (cString name).length ≤ 450) :
    Answered
      (after, blocks, { renderBlock server canKeepAlive code block with
        contentType := contentType
        charset := charset })
      (after, { server.render code held held.length canKeepAlive with
        contentType := contentType
        charset := charset }) where
  server := rfl
  keeps := keeps
  empty := empty
  fits := renderBlock_fits keepsBlock (small.trans (by decide)) code shortType shortCharset
  room := by
    have length := (@renderBlock_fits server canKeepAlive _ _ _ keepsBlock
      (small.trans (by decide)) code _ _ shortType shortCharset).bodySize_le
    have size := keepsBlock.holds.size
    have limit : tcpLimit = 2100000 := rfl
    have said : (renderBlock server canKeepAlive code block).size = block.size.toNat := rfl
    dsimp only at length ⊢
    omega
  response := renderHttpMessage_block keepsBlock rfl rfl

end Branches

def announced (server : Server) (readBuffer : List UInt8) (canKeepAlive : Bool)
    (clientAddr : In6Addr) (now : Int) : Except Fault (Server × Render) :=
  let query := httpQuery server.host server.announceSettings clientAddr readBuffer
  if query.hasInfoHash = false then
    pure (server, server.render 400 (ascii "Field 'info_hash' must be filled") 25 canKeepAlive)
  else if query.port = 0 then
    pure (server, server.render 400 (ascii "Field 'port' must be filled") 25 canKeepAlive)
  else do
    let (torrentList, body) ← Etracker.announce server.host.inetNtop server.torrentList query
      dataStructurePeerProtocolTcpBit server.settings.interval.interval now
    pure ({ server with torrentList := torrentList },
      server.render 200 body body.length canKeepAlive)

theorem processRead_whole (server : Server) {readBuffer : List UInt8}
    (short : readBuffer.length < threadClientTcpReceivedMessageLength)
    (filled : readBuffer.length ≠ 0)
    (whole : strstr (cString readBuffer) (ascii "\r\n\r\n") ≠ none) (clientAddr : In6Addr)
    (now : Int) :
    server.processRead clientAddr readBuffer now =
      (if startsWith (ascii "GET /announce") (cString readBuffer) = true then
        announced server readBuffer (Http.canKeepAlive server.settings.keepAlive readBuffer)
          clientAddr now
      else server.answer readBuffer (Http.canKeepAlive server.settings.keepAlive readBuffer)) >>=
        fun (server, render) => pure (server, some render) := by
  rw [Server.processRead, Etracker.processRead, if_neg (Nat.not_le_of_lt short), if_neg filled,
    if_neg whole]
  by_cases announces : startsWith (ascii "GET /announce") (cString readBuffer) = true
  · rw [if_pos announces, if_pos announces, announced]
    dsimp only
    split_ifs
    · rfl
    · rfl
    · rw [bind_assoc, bind_assoc]
      rfl
  · rw [if_neg announces, if_neg announces]
    rfl

theorem TcpBlocks.Keeps.data {limit : Nat} {blocks : TcpBlocks} (keeps : blocks.Keeps limit)
    {dataBlock : Block} {held : List UInt8} (keepsData : dataBlock.Keeps limit held) :
    TcpBlocks.Keeps limit { blocks with dataBlock := dataBlock } :=
  { keeps with dataBlock := ⟨_, keepsData⟩ }

theorem settingsBody_length_le (settings : Basic.ServerSettings) :
    (Basic.settingsBody settings).length ≤ 500 := by
  have bit : settings.keepAlive.toNat < 10 := (Bool.toNat_lt _).trans (by decide)
  have keepAlive := decimal_length_le (by decide : 0 < 1) bit
  have interval := decimal_length_le (by decide : 0 < 10)
    (settings.interval.interval.toNat_lt.trans (by decide))
  have most := decimal_length_le (by decide : 0 < 10)
    (settings.maxPeersPerResponse.toNat_lt.trans (by decide))
  have timeout := decimal_length_le (by decide : 0 < 5)
    (settings.socketTimeout.toNat_lt.trans (by decide))
  simp only [Basic.settingsBody, List.length_append, ascii, List.length_map, String.reduceToList,
    List.length_cons, List.length_nil]
  omega

theorem readBuffer_within {readBuffer : List UInt8}
    (short : readBuffer.length < threadClientTcpReceivedMessageLength) :
    16 + 20 * readBuffer.length ≤ tcpLimit := by
  have most : threadClientTcpReceivedMessageLength = 4000 := rfl
  have limit : tcpLimit = 2100000 := rfl
  omega

theorem typeFile_length_le (absolute : List UInt8) :
    (cString (typeFile absolute)).length ≤ 450 := by
  unfold typeFile
  split_ifs <;> decide

theorem addFile_keeps (found : Nat → UInt8) {dataBlock : Block}
    (keepsNone : dataBlock.Keeps tcpLimit []) {files : Files}
    (told : ShortErrors files) (absolute : List UInt8) {size : Nat}
    (allowed : size ≤ threadClientTcpMaxFileSize) :
    ∃ after, dataBlock.addFile found files (UInt32.ofNat size) absolute = .ok after ∧
      after.Keeps tcpLimit (files.addFileBlock size absolute) ∧
      (files.addFileBlock size absolute).length ≤ 2050000 := by
  have most : threadClientTcpMaxFileSize = 2000000 := rfl
  have limit : tcpLimit = 2100000 := rfl
  have space : (UInt32.ofNat size).toNat = size := by
    rw [UInt32.toNat_ofNat']
    omega
  have within : ([] : List UInt8).length + (UInt32.ofNat size).toNat + 300 ≤ tcpLimit := by
    rw [List.length_nil, space]
    omega
  obtain ⟨after, added, keeps⟩ :=
    keepsNone.fileBlock found (by decide) within files told absolute
  rw [space, List.nil_append] at keeps
  refine ⟨after, ?_, keeps, ?_⟩
  · rw [Block.addFile, added]
    rfl
  · have short : ∀ title : List UInt8, title.length = 14 → ∀ errno, FileError files errno →
        (title ++ files.errorText errno).length ≤ 2050000 := by
      intro title length errno given
      have said := told errno given
      rw [List.length_append]
      omega
    unfold Files.addFileBlock
    cases opens : files.fopen absolute with
    | error errno => exact short (ascii "fopen failed: ") rfl errno (.fopen opens)
    | ok opened =>
        dsimp only
        split_ifs
        · exact (List.length_take_le _ _).trans (by omega)
        · exact short (ascii "fread failed: ") rfl _ (.fread opens)

section Answers

variable (found : Nat → UInt8) {server : Server} {stats : Stats}
  {blocks : TcpBlocks} (keeps : blocks.Keeps tcpLimit)
  (empty : blocks.sendBlock.Keeps tcpLimit []) {readBuffer : List UInt8} (canKeepAlive : Bool)

include keeps empty

theorem announceRequest_agrees (sensible : Sensible server stats)
    (short : readBuffer.length < threadClientTcpReceivedMessageLength) (clientAddr : In6Addr)
    (now : Int) :
    Agree Answered
      (announceRequest found server blocks readBuffer canKeepAlive clientAddr now)
      (announced server readBuffer canKeepAlive clientAddr now) := by
  have small : tcpLimit ≤ 2 ^ 30 := by decide
  obtain ⟨forwarded, keepsForwarded⟩ := keeps.forwardedForBlock
  obtain ⟨hashesBlock, forwardedForBlock, forwarded', parsed, _, keepsForwarded', _⟩ :=
    parseUri_keeps found small server.host.inetPton
      (httpDefaults server.announceSettings clientAddr) readBuffer (readBuffer_within short)
      .none (fun _ absurdity => by cases absurdity) (.some keepsForwarded)
  have keepsAfter : ∃ held,
      (forwardedForBlock.getD blocks.forwardedForBlock).Keeps tcpLimit held := by
    cases keepsForwarded' with
    | none => exact keeps.forwardedForBlock
    | some keepsAfter => exact ⟨_, keepsAfter⟩
  have keeps' : TcpBlocks.Keeps tcpLimit
      { blocks with forwardedForBlock := forwardedForBlock.getD blocks.forwardedForBlock } :=
    { keeps with forwardedForBlock := keepsAfter }
  have isQuery : (Etracker.parseUri server.host.inetPton
      (httpDefaults server.announceSettings clientAddr) none (some forwarded).isSome
      readBuffer).1.limitNumwant server.settings.maxPeersPerResponse =
        httpQuery server.host server.announceSettings clientAddr readBuffer := rfl
  rw [announceRequest, announced, parsed, ofBlock_ok, ok_bind]
  dsimp only
  rw [isQuery]
  generalize httpQuery server.host server.announceSettings clientAddr readBuffer = query
  by_cases noHash : query.hasInfoHash = false
  · rw [if_pos noHash, if_pos noHash]
    exact .done (answered_said keeps' empty (by decide) (by decide) (by decide))
  rw [if_neg noHash, if_neg noHash]
  by_cases noPort : query.port = 0
  · rw [if_pos noPort, if_pos noPort]
    exact .done (answered_said keeps' empty (by decide) (by decide) (by decide))
  rw [if_neg noPort, if_neg noPort]
  obtain ⟨data, keepsData⟩ := keeps.dataBlock
  obtain ⟨peers, keepsPeers⟩ := keeps.announceBlock
  obtain ⟨dataBlock, resets, keepsNone⟩ := keepsData.reset found
  have within : ([] : List UInt8).length + announceSpace ≤ tcpLimit := by decide
  obtain ⟨torrentList, dataBlock', announceBlock, reply, peers', done, done', _, keepsReply,
    keepsPeers', length⟩ := announce_keeps found small sensible.inetNtop sensible.table query
      dataStructurePeerProtocolTcpBit server.settings.interval.interval now keepsNone keepsPeers
      within
  have keepsAfter : TcpBlocks.Keeps tcpLimit
      { blocks with
        dataBlock := dataBlock'
        announceBlock := announceBlock
        forwardedForBlock := forwardedForBlock.getD blocks.forwardedForBlock } :=
    { keeps' with dataBlock := ⟨_, keepsReply⟩, announceBlock := ⟨_, keepsPeers'⟩ }
  rw [resets, ofBlock_ok, ok_bind, done, ok_bind, done', ok_bind]
  exact .done (answered_block keepsAfter empty { server with torrentList := torrentList }
    keepsReply (length.trans (by decide)) 200 unnamed unnamed)

theorem setRequest_agrees :
    Agree Answered (setRequest found server blocks readBuffer canKeepAlive)
      (pure (server.apiSet readBuffer canKeepAlive)) := by
  obtain ⟨data, keepsData⟩ := keeps.dataBlock
  obtain ⟨dataBlock, resets, keepsNone⟩ := keepsData.reset found
  rw [setRequest, Server.apiSet, Basic.apiSet]
  split_ifs with other basic
  · exact .done (answered_said keeps empty (by decide) (by decide) (by decide))
  · have fits := settingsBody_length_le
      (Basic.changeSettings server.host.inetPton server.settings readBuffer)
    have appends : Appends (fun block => block.addFormat found 500 (Basic.settingsBody
        (Basic.changeSettings server.host.inetPton server.settings readBuffer))) _ _ :=
      Appends.format found fits
    obtain ⟨dataBlock', added, keepsBody⟩ := appends.keeps (by decide) keepsNone (by decide)
    simp only [resets, ofBlock_ok, ok_bind, added]
    exact .done (answered_block (keeps.data keepsBody) empty _ keepsBody
      (fits.trans (by decide)) 200 (named (by decide)) unnamed)
  · exact .done (answered_said keeps empty (by decide) (by decide) (by decide))

theorem statsRequest_agrees (sensible : Sensible server stats) :
    Agree Answered (statsRequest found server stats blocks canKeepAlive)
      (pure (server, { server.render 200 server.statsPage server.statsPage.length canKeepAlive with
        charset := server.charset
        contentType := some (ascii "text/html") })) := by
  obtain ⟨data, keepsData⟩ := keeps.dataBlock
  obtain ⟨dataBlock, resets, keepsNone⟩ := keepsData.reset found
  have appends := sensible.short.formatStats_appends found
  rw [← sensible.statsPage] at appends
  obtain ⟨dataBlock', added, keepsPage⟩ := appends.keeps (by decide) keepsNone (by decide)
  have fits := appends.fits
  simp only [statsRequest, resets, ofBlock_ok, ok_bind, added]
  exact .done (answered_block (keeps.data keepsPage) empty server keepsPage
    (fits.trans (by decide)) 200 (named (by decide)) sensible.charset)

theorem websocket_agrees (sensible : Sensible server stats) :
    Answered (server, blocks, server.websocket readBuffer canKeepAlive)
      (server, server.websocket readBuffer canKeepAlive) := by
  unfold Server.websocket
  cases websocketKey readBuffer readBuffer.length with
  | none =>
      exact answered_said keeps empty (by decide) (by decide) (by decide)
  | some key =>
      have digits : (Basic.base64_encode (server.sha1 (key ++ websocketGuid))).length = 28 := by
        rw [Basic.length_base64_encode, sensible.sha1]
      refine answered_text keeps empty
        ⟨Nat.zero_le _, Nat.zero_le _, ?_, unnamed, unnamed⟩ (Nat.zero_le _)
      intro encoded same
      cases same
      exact ((List.takeWhile_prefix _).length_le.trans digits.le).trans (by decide)

theorem scrapeRequest_agrees
    (short : readBuffer.length < threadClientTcpReceivedMessageLength) :
    Agree Answered (scrapeRequest found server blocks readBuffer canKeepAlive)
      (server.scrape readBuffer canKeepAlive) := by
  have small : tcpLimit ≤ 2 ^ 30 := by decide
  obtain ⟨data, keepsData⟩ := keeps.dataBlock
  obtain ⟨dataBlock, resets, keepsNone⟩ := keepsData.reset found
  obtain ⟨asked, keepsHashes⟩ := keeps.hashesBlock
  obtain ⟨noHashes, resetsHashes, keepsNoHashes⟩ := keepsHashes.reset found
  obtain ⟨torrents, keepsTorrents⟩ := keeps.scrapeBlock
  obtain ⟨hashesBlock, forwardedForBlock, forwarded', parsed, keepsAsked, _, _⟩ :=
    parseUri_keeps found small server.host.inetPton Query.empty readBuffer
      (readBuffer_within short) (.some keepsNoHashes)
      (fun _ same => (Option.some.inj same).symm) .none
  have hashesAre : (Etracker.parseUri server.host.inetPton Query.empty (some []) false
      readBuffer).2 = some (server.scrapedHashes readBuffer) := by
    rw [Server.scrapedHashes, parseUri_hashes, Option.getD_some]
  rw [Option.isSome_none, hashesAre] at keepsAsked
  cases keepsAsked with
  | @some hashes _ keepsAsked =>
      have within : ([] : List UInt8).length + scrapeSpace ≤ tcpLimit := by decide
      have size := keepsAsked.holds.size
      have keeps' : TcpBlocks.Keeps tcpLimit
          { blocks with dataBlock := dataBlock, hashesBlock := hashes } :=
        { keeps with dataBlock := ⟨_, keepsNone⟩, hashesBlock := ⟨_, keepsAsked⟩ }
      simp only [scrapeRequest, Server.scrape, resetsHashes, resets, parsed, ofBlock_ok, ok_bind,
        Option.getD_some]
      by_cases full : (server.scrapedHashes readBuffer).length = 0
      · have noSize : hashes.size = 0 := UInt32.toNat_inj.mp (size.trans full)
        rw [if_pos noSize, if_pos full]
        exact .done (answered_said keeps' empty (by decide) (by decide) (by decide))
      · have someSize : hashes.size ≠ 0 := by
          intro noSize
          rw [noSize] at size
          exact full size.symm
        rw [if_neg someSize, if_neg full]
        apply (renderScrapeTorrentsPublic_agrees found small keepsAsked server.torrentList _
          keepsNone keepsTorrents within).bind
        intro result result' alike
        obtain ⟨torrentList, dataBlock', scrapeBlock⟩ := result
        obtain ⟨torrentList', body⟩ := result'
        obtain ⟨same, keepsBody, keepsScrape, length⟩ := alike
        cases same
        have keepsAfter : TcpBlocks.Keeps tcpLimit
            ⟨blocks.sendBlock, dataBlock', blocks.announceBlock, scrapeBlock, hashes,
              blocks.forwardedForBlock⟩ :=
          { keeps' with dataBlock := ⟨_, keepsBody⟩, scrapeBlock := keepsScrape }
        exact .done (answered_block keepsAfter empty { server with torrentList := torrentList }
          keepsBody (length.trans (by decide)) 200 unnamed unnamed)

theorem notFound_agrees {dataBlock : Block} (keepsNone : dataBlock.Keeps tcpLimit [])
    {text : List UInt8} (fits : text.length ≤ 1000) :
    Agree Answered (notFound found server blocks canKeepAlive dataBlock text)
      (pure (server, server.render 404 text text.length canKeepAlive)) := by
  have appends : Appends (fun block => block.addFormat found 1000 text) _ _ :=
    Appends.format found fits
  obtain ⟨dataBlock', added, keepsText⟩ := appends.keeps (by decide) keepsNone (by decide)
  simp only [notFound, added, ofBlock_ok, ok_bind]
  exact .done (answered_block (keeps.data keepsText) empty server keepsText
    (fits.trans (by decide)) 404 unnamed unnamed)

theorem fileRequest_agrees (sensible : Sensible server stats)
    (short : readBuffer.length < threadClientTcpReceivedMessageLength) :
    Agree Answered (fileRequest found server blocks readBuffer canKeepAlive)
      (pure (server, server.file readBuffer canKeepAlive)) := by
  have small : tcpLimit ≤ 2 ^ 30 := by decide
  obtain ⟨data, keepsData⟩ := keeps.dataBlock
  obtain ⟨dataBlock, resets, keepsNone⟩ := keepsData.reset found
  obtain ⟨hashesBlock, forwardedForBlock, forwarded', parsed, _, _, _⟩ :=
    parseUri_keeps found small server.host.inetPton Query.empty readBuffer
      (readBuffer_within short) .none (fun _ absurdity => by cases absurdity) .none
  have told : ∀ title : List UInt8, title.length ≤ 500 → ∀ errno, FileError server.files errno →
      (title ++ server.files.errorText errno).length ≤ 1000 := by
    intro title length errno given
    have said := sensible.errors errno given
    rw [List.length_append]
    omega
  have keepsEmpty := keeps.data keepsNone
  rw [Option.isSome_none] at parsed
  rw [fileRequest, Server.file, resets, ofBlock_ok, ok_bind, parsed, ofBlock_ok, ok_bind]
  dsimp only
  generalize (Etracker.parseUri server.host.inetPton Query.empty none false readBuffer).1 = query
  cases resolves : server.files.realpath query.path with
  | error errno =>
      exact notFound_agrees found keeps empty canKeepAlive keepsNone
        (told _ (by decide) errno (.realpath resolves))
  | ok absolute =>
      by_cases outside : startsWith server.webRoot absolute = false
      · simp only [if_pos outside]
        exact .done (answered_said keepsEmpty empty (by decide) (by decide) (by decide))
      simp only [if_neg outside]
      cases stats : server.files.stat absolute with
      | error errno =>
          exact notFound_agrees found keeps empty canKeepAlive keepsNone
            (told _ (by decide) errno (.stat stats))
      | ok statFile =>
          by_cases special : statFile.isRegular = false
          · simp only [if_pos special]
            exact .done (answered_said keepsEmpty empty (by decide) (by decide) (by decide))
          simp only [if_neg special]
          by_cases large : statFile.size > threadClientTcpMaxFileSize
          · simp only [if_pos large]
            exact .done (answered_said keepsEmpty empty (by decide) (by decide) (by decide))
          simp only [if_neg large]
          obtain ⟨dataBlock', added, keepsFile, length⟩ := addFile_keeps found keepsNone
            sensible.errors absolute (Nat.le_of_not_lt large)
          simp only [added, ofBlock_ok, ok_bind]
          exact .done (answered_block (keeps.data keepsFile) empty server keepsFile length 200
            (named (typeFile_length_le absolute)) unnamed)

theorem answer_agrees (sensible : Sensible server stats)
    (short : readBuffer.length < threadClientTcpReceivedMessageLength) (clientAddr : In6Addr)
    (now : Int) :
    Agree Answered
      (answer found server stats blocks readBuffer canKeepAlive clientAddr now)
      (if startsWith (ascii "GET /announce") (cString readBuffer) = true then
        announced server readBuffer canKeepAlive clientAddr now
      else server.answer readBuffer canKeepAlive) := by
  have most : threadClientTcpReceivedMessageLength = 4000 := rfl
  unfold answer Server.answer
  dsimp only
  split_ifs
  · exact announceRequest_agrees found keeps empty canKeepAlive sensible short clientAddr now
  · have cut : (cString readBuffer).length ≤ readBuffer.length :=
      (List.takeWhile_prefix _).length_le
    exact .done (answered_said keeps empty (by omega) (Nat.le_refl _)
      (cut.trans (Nat.le_add_right _ _)))
  · exact setRequest_agrees found keeps empty canKeepAlive
  · exact .done (websocket_agrees keeps empty canKeepAlive sensible)
  · exact statsRequest_agrees found keeps empty canKeepAlive sensible
  · exact .done (answered_said keeps empty (by decide) (by decide) (by decide))
  · exact scrapeRequest_agrees found keeps empty canKeepAlive short
  · exact fileRequest_agrees found keeps empty canKeepAlive sensible short

end Answers

structure Sends (result : Server × TcpBlocks × Option (List UInt8))
    (result' : Server × Option Render) : Prop where
  server : result.1 = result'.1
  keeps : result.2.1.Keeps tcpLimit
  sent : result.2.2 = result'.2.map Http.renderHttpMessage

/-- The worker does over its blocks what it is said to do. -/
theorem processRead_agrees (found : Nat → UInt8) {server : Server}
    {stats : Stats} (sensible : Sensible server stats)
    {blocks : TcpBlocks} (keeps : blocks.Keeps tcpLimit) (readBuffer : List UInt8)
    (clientAddr : In6Addr) (now : Int) :
    Agree Sends (processRead found server stats blocks readBuffer clientAddr now)
      (server.processRead clientAddr readBuffer now) := by
  have small : tcpLimit ≤ 2 ^ 30 := by decide
  rw [processRead]
  by_cases long : readBuffer.length ≥ threadClientTcpReceivedMessageLength
  · obtain ⟨data, keepsData⟩ := keeps.dataBlock
    obtain ⟨dataBlock, resets, keepsNone⟩ := keepsData.reset found
    have fits : Fits (server.render 413 (ascii "Request Entity Too Large") 24 false) :=
      render_fits (by decide) (by decide) (by decide)
    have length := fits.bodySize_le
    have within : ([] : List UInt8).length + (3124 + Render.bodySize
        (server.render 413 (ascii "Request Entity Too Large") 24 false)) ≤ tcpLimit := by
      have limit : tcpLimit = 2100000 := rfl
      have size : (server.render 413 (ascii "Request Entity Too Large") 24 false).size = 24 := rfl
      rw [List.length_nil]
      omega
    obtain ⟨dataBlock', rendered, keepsSent⟩ := (renderHttpMessage_appends found fits).keeps small
      keepsNone within
    rw [if_pos long, Server.processRead, Etracker.processRead, if_pos long, resets, ofBlock_ok,
      ok_bind, rendered, ofBlock_ok, ok_bind]
    exact .done ⟨rfl, keeps.data keepsSent, congrArg some keepsSent.content⟩
  rw [if_neg long]
  by_cases empty : readBuffer.length = 0
  · rw [if_pos empty, Server.processRead, Etracker.processRead, if_neg long, if_pos empty]
    exact .done ⟨rfl, keeps, rfl⟩
  rw [if_neg empty]
  by_cases incomplete : strstr (cString readBuffer) (ascii "\r\n\r\n") = none
  · rw [if_pos incomplete, Server.processRead, Etracker.processRead, if_neg long, if_neg empty,
      if_pos incomplete]
    exact .done ⟨rfl, keeps, rfl⟩
  obtain ⟨sent, keepsSend⟩ := keeps.sendBlock
  obtain ⟨sendBlock, resets, keepsNone⟩ := keepsSend.reset found
  have keeps' : TcpBlocks.Keeps tcpLimit { blocks with sendBlock := sendBlock } :=
    { keeps with sendBlock := ⟨_, keepsNone⟩ }
  rw [if_neg incomplete, processRead_whole server (Nat.lt_of_not_le long) empty incomplete, respond,
    resets, ofBlock_ok, ok_bind]
  apply (answer_agrees found keeps' keepsNone _ sensible (Nat.lt_of_not_le long) clientAddr
    now).bind
  intro result result' answered
  obtain ⟨server', blocks', render⟩ := result
  obtain ⟨server'', render'⟩ := result'
  cases answered.server
  obtain ⟨sendBlock', rendered, keepsSent⟩ := (renderHttpMessage_appends found answered.fits).keeps
    small answered.empty (by
      rw [List.length_nil, Nat.zero_add]
      exact answered.room)
  dsimp only at rendered ⊢
  rw [rendered, ofBlock_ok, ok_bind]
  refine .done ⟨rfl, { answered.keeps with sendBlock := ⟨_, keepsSent⟩ }, congrArg some ?_⟩
  exact keepsSent.content.trans answered.response

/-- Every request is handled, and nothing but the table and the settings is changed. -/
theorem processRead_completes (server : Server) (table : TableInv server.torrentList)
    (clientAddr : In6Addr) (readBuffer : List UInt8) (now : Int) :
    ∃ torrentList settings render, server.processRead clientAddr readBuffer now =
        .ok ({ server with torrentList := torrentList, settings := settings }, render) ∧
      TableInv torrentList := by
  by_cases long : readBuffer.length ≥ threadClientTcpReceivedMessageLength
  · rw [Server.processRead, Etracker.processRead, if_pos long]
    exact ⟨_, _, _, rfl, table⟩
  by_cases empty : readBuffer.length = 0
  · rw [Server.processRead, Etracker.processRead, if_neg long, if_pos empty]
    exact ⟨_, _, _, rfl, table⟩
  by_cases incomplete : strstr (cString readBuffer) (ascii "\r\n\r\n") = none
  · rw [Server.processRead, Etracker.processRead, if_neg long, if_neg empty, if_pos incomplete]
    exact ⟨_, _, _, rfl, table⟩
  rw [processRead_whole server (Nat.lt_of_not_le long) empty incomplete, announced, Server.answer]
  dsimp only
  split_ifs
  · exact ⟨_, _, _, rfl, table⟩
  · exact ⟨_, _, _, rfl, table⟩
  · obtain ⟨torrentList, after, completed, table', _⟩ := announce_spec server.host.inetNtop table
      (httpQuery server.host server.announceSettings clientAddr readBuffer)
      dataStructurePeerProtocolTcpBit server.settings.interval.interval now
    rw [completed]
    exact ⟨torrentList, _, _, rfl, table'⟩
  · exact ⟨_, _, _, rfl, table⟩
  · rw [Server.apiSet, Basic.apiSet]
    split_ifs
    · exact ⟨_, _, _, rfl, table⟩
    · exact ⟨_, _, _, rfl, table⟩
    · exact ⟨_, _, _, rfl, table⟩
  · exact ⟨_, _, _, rfl, table⟩
  · exact ⟨_, _, _, rfl, table⟩
  · exact ⟨_, _, _, rfl, table⟩
  · have bounded := requestedHashes_length readBuffer
    have most : threadClientTcpReceivedMessageLength = 4000 := rfl
    have packet : dataMaxPacketSize = 64000 := rfl
    have room : 100 * (requestedHashes readBuffer).length < dataMaxPacketSize := by omega
    have rendered := renderScrapeTorrentsPublic_encodes table
      (parseUri_tcp server.host.inetPton readBuffer) (fun hash => requestedHashes_sized) room
    rw [Server.scrape, Server.scrapedHashes, parseUri_hashes, Option.getD_some]
    dsimp only
    split_ifs
    · exact ⟨_, _, _, rfl, table⟩
    · rw [rendered]
      exact ⟨_, _, _, rfl, table⟩
  · exact ⟨_, _, _, rfl, table⟩

/-- A request that a worker of the server reads. The server is as the workers have left it. -/
structure TcpTurn where
  found : Nat → UInt8
  server : Server
  stats : Stats
  clientAddr : In6Addr
  readBuffer : List UInt8
  now : Int

def TcpTurn.Sound (turn : TcpTurn) : Prop := Sensible turn.server turn.stats

def TcpTurn.Takes (turn : TcpTurn) (before after : TcpBlocks) : Prop :=
  ∃ server sent, processRead turn.found turn.server turn.stats before turn.readBuffer
    turn.clientAddr turn.now = .ok (server, after, sent)

theorem initTcpBlocks_keeps (found : Nat → UInt8) :
    ∃ blocks, initTcpBlocks found = .ok blocks ∧ blocks.Keeps tcpLimit := by
  obtain ⟨block, initial, keeps⟩ := initBlock_keeps found tcpLimit
  refine ⟨⟨block, block, block, block, block, block⟩, ?_,
    ⟨_, keeps⟩, ⟨_, keeps⟩, ⟨_, keeps⟩, ⟨_, keeps⟩, ⟨_, keeps⟩, ⟨_, keeps⟩⟩
  simp only [initTcpBlocks, initial, ok_bind, pure_eq_ok]

theorem TcpTurn.Sound.serves {turn : TcpTurn} (sound : turn.Sound) {before : TcpBlocks}
    (keeps : before.Keeps tcpLimit) :
    ∃ server after render, processRead turn.found turn.server turn.stats before
        turn.readBuffer turn.clientAddr turn.now =
          .ok (server, after, render.map Http.renderHttpMessage) ∧
      turn.server.processRead turn.clientAddr turn.readBuffer turn.now = .ok (server, render) ∧
      Sensible server turn.stats ∧ after.Keeps tcpLimit := by
  obtain ⟨torrentList, settings, render, completed, table⟩ := processRead_completes turn.server
    sound.table turn.clientAddr turn.readBuffer turn.now
  have agree := processRead_agrees turn.found sound keeps turn.readBuffer turn.clientAddr turn.now
  rw [completed] at agree
  obtain ⟨result, done, sends⟩ := agree.of_ok
  obtain ⟨server, after, sent⟩ := result
  cases sends.server
  cases sends.sent
  exact ⟨_, after, render, done, completed, { sound with table := table }, sends.keeps⟩

/-- Whatever a worker was sent before, it never writes outside of a block, its blocks stay small,
and it sends the response that is said to be rendered, if one is. -/
theorem tcpWorker_sends (found : Nat → UInt8) :
    ∃ blocks, initTcpBlocks found = .ok blocks ∧ ∀ blocks',
      Reached TcpTurn.Takes (fun turn _ => turn.Sound) blocks blocks' →
      (∀ block ∈ [blocks'.sendBlock, blocks'.dataBlock, blocks'.announceBlock,
        blocks'.scrapeBlock, blocks'.hashesBlock, blocks'.forwardedForBlock],
        block.allocated.toNat ≤ 4202000) ∧
      ∀ turn : TcpTurn, turn.Sound → ∃ server after render,
        processRead turn.found turn.server turn.stats blocks' turn.readBuffer
          turn.clientAddr turn.now = .ok (server, after, render.map Http.renderHttpMessage) ∧
        turn.server.processRead turn.clientAddr turn.readBuffer turn.now = .ok (server, render) ∧
        Sensible server turn.stats := by
  obtain ⟨blocks, initial, first⟩ := initTcpBlocks_keeps found
  refine ⟨blocks, initial, ?_⟩
  intro blocks' reached
  have keeps : blocks'.Keeps tcpLimit := by
    apply reached.invariant (TcpBlocks.Keeps tcpLimit) first
    intro turn before after keeps sound taken
    obtain ⟨server, sent, done⟩ := taken
    obtain ⟨_, _, _, done', _, _, keeps'⟩ := sound.serves keeps
    rw [done'] at done
    cases done
    exact keeps'
  constructor
  · have bounded : ∀ block : Block, (∃ held, block.Keeps tcpLimit held) →
        block.allocated.toNat ≤ 4202000 :=
      fun block keeps => keeps.elim fun _ keeps => keeps.bounded
    simp only [List.forall_mem_cons]
    exact ⟨bounded _ keeps.sendBlock, bounded _ keeps.dataBlock, bounded _ keeps.announceBlock,
      bounded _ keeps.scrapeBlock, bounded _ keeps.hashesBlock,
      bounded _ keeps.forwardedForBlock, List.forall_mem_nil _⟩
  · intro turn sound
    obtain ⟨server, after, render, done, completed, sensible, _⟩ := sound.serves keeps
    exact ⟨server, after, render, done, completed, sensible⟩

section Missing

def sampleStats : Stats where
  failed := 0
  printed := fun _ => ascii "0"
  grouped := fun number => decimal number
  strerror := fun _ => ascii "Bad file descriptor"
  closeErrno := fun errno => if errno = 9 then 1 else 0
  sendErrno := fun _ => 0
  recvErrno := fun _ => 0
  acceptErrno := fun _ => 0
  sendErrnoUdp := fun _ => 0
  recvErrnoUdp := fun _ => 0

theorem sampleStats_short : sampleStats.Short where
  printed := fun _ => (by decide : (ascii "0").length ≤ 34)
  grouped := fun _ small => decimal_length_le (by decide) (small.trans (by decide))
  strerror := fun _ => (by decide : (ascii "Bad file descriptor").length ≤ 900)

def emptyServer : Server :=
  { freshServer with statsPage := sampleStats.page, sha1 := Basic.sha1 }

def sampleTurn (readBuffer : List UInt8) : TcpTurn where
  found := fun _ => 7
  server := emptyServer
  stats := sampleStats
  clientAddr := Bytes.zero 16
  readBuffer := readBuffer
  now := 1000

theorem sampleTurn_sound (readBuffer : List UInt8) : (sampleTurn readBuffer).Sound where
  table := emptyTorrentList_inv
  inetNtop := fun _ _ => (by decide : (ascii "10.0.0.1").length < 46)
  errors := by
    intro errno given
    have isMissing : errno = 2 := by
      cases given with
      | realpath fails => cases fails; rfl
      | stat fails => cases fails; rfl
      | fopen fails => cases fails; rfl
      | fread opens => cases opens
    rw [isMissing]
    exact (by decide : (emptyServer.files.errorText 2).length ≤ 286)
  charset := fun _ absurdity => by cases absurdity
  sha1 := fun _ => rfl
  statsPage := rfl
  short := sampleStats_short

def missingTurn : TcpTurn := sampleTurn (ascii "GET /x HTTP/1.1\r\n\r\n")

/-- A worker that has sent the statistics answers as a fresh one. -/
theorem tcpWorker_sends_missing : ∃ blocks blocks', initTcpBlocks (fun _ => 7) = .ok blocks ∧
    (sampleTurn (ascii "GET /stats.html HTTP/1.1\r\n\r\n")).Takes blocks blocks' ∧
    ∃ server after, processRead missingTurn.found missingTurn.server missingTurn.stats blocks'
      missingTurn.readBuffer missingTurn.clientAddr missingTurn.now = .ok (server, after,
        some (Http.renderHttpMessage (emptyServer.render 404
          (ascii "Page not found: 2: No such file or directory") 44 false))) := by
  obtain ⟨blocks, initial, sends⟩ := tcpWorker_sends fun _ => 7
  obtain ⟨_, serves⟩ := sends blocks .start
  have sound := sampleTurn_sound (ascii "GET /stats.html HTTP/1.1\r\n\r\n")
  obtain ⟨server, blocks', render, done, _⟩ := serves _ sound
  have reached : Reached TcpTurn.Takes (fun turn _ => turn.Sound) blocks blocks' :=
    Reached.start.next sound ⟨server, _, done⟩
  obtain ⟨_, serves'⟩ := sends blocks' reached
  obtain ⟨server', after, render', done', completed, _⟩ := serves' missingTurn (sampleTurn_sound _)
  have answered : missingTurn.server.processRead missingTurn.clientAddr missingTurn.readBuffer
      missingTurn.now = .ok (emptyServer, some (emptyServer.render 404
        (ascii "Page not found: 2: No such file or directory") 44 false)) := rfl
  cases answered.symm.trans completed
  exact ⟨blocks, blocks', initial, ⟨server, _, done⟩, emptyServer, after, done'⟩

end Missing

end Etracker.Blocks
