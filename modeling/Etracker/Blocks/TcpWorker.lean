import Etracker.Blocks.Socket
import Etracker.Blocks.Stats
import Etracker.Blocks.UdpWorker
import Etracker.Blocks.Uri

namespace Etracker.Blocks

open Foundation Foundation.CString Foundation.Outcome Foundation.Runs Http

structure TcpBlocks where
  sendBlock : Block
  dataBlock : Block
  announceBlock : Block
  scrapeBlock : Block
  hashesBlock : Block
  forwardedForBlock : Block

section Model

variable (found : Nat → UInt8)

def initTcpBlocks : Except BlockFault TcpBlocks := do
  let sendBlock ← initBlock found
  let dataBlock ← initBlock found
  let announceBlock ← initBlock found
  let scrapeBlock ← initBlock found
  let hashesBlock ← initBlock found
  let forwardedForBlock ← initBlock found
  pure ⟨sendBlock, dataBlock, announceBlock, scrapeBlock, hashesBlock, forwardedForBlock⟩

section Branches

variable (server : Server) (stats : Stats) (blocks : TcpBlocks) (readBuffer : List UInt8)
  (canKeepAlive : Bool)

def renderBlock (code : Nat) (block : Block) : Render :=
  server.render code block.data.list block.size.toNat canKeepAlive

def announceRequest (clientAddr : In6Addr) (now : Int) :
    Except Fault (Server × TcpBlocks × Render) := do
  let (query, _, forwardedForBlock) ← ofBlock (parseUri found server.host.inetPton
    (httpDefaults server.announceSettings clientAddr) none (some blocks.forwardedForBlock)
    readBuffer)
  let blocks :=
    { blocks with forwardedForBlock := forwardedForBlock.getD blocks.forwardedForBlock }
  let query := query.limitNumwant server.settings.maxPeersPerResponse
  if query.hasInfoHash = false then
    pure (server, blocks,
      server.render 400 (ascii "Field 'info_hash' must be filled") 25 canKeepAlive)
  else if query.port = 0 then
    pure (server, blocks,
      server.render 400 (ascii "Field 'port' must be filled") 25 canKeepAlive)
  else do
    let dataBlock ← ofBlock (resetBlock found (some blocks.dataBlock))
    let (torrentList, dataBlock, announceBlock) ← announce found server.host.inetNtop dataBlock
      blocks.announceBlock server.torrentList query dataStructurePeerProtocolTcpBit
      server.settings.interval.interval now
    pure ({ server with torrentList := torrentList },
      { blocks with dataBlock := dataBlock, announceBlock := announceBlock },
      renderBlock server canKeepAlive 200 dataBlock)

def setRequest : Except Fault (Server × TcpBlocks × Render) :=
  let (settings, reply) := Basic.apiSet server.host.inetPton server.authorizationHeader
    server.settings readBuffer
  let server := { server with settings := settings }
  match reply with
  | .rejected code message size =>
      pure (server, blocks, server.render code message size canKeepAlive)
  | .done body => do
      let dataBlock ← ofBlock (resetBlock found (some blocks.dataBlock))
      let dataBlock ← ofBlock (dataBlock.addFormat found 500 body)
      pure (server, { blocks with dataBlock := dataBlock },
        { renderBlock server canKeepAlive 200 dataBlock with
          contentType := some (ascii "application/json") })

def statsRequest : Except Fault (Server × TcpBlocks × Render) := do
  let dataBlock ← ofBlock (resetBlock found (some blocks.dataBlock))
  let dataBlock ← ofBlock (stats.formatStats found dataBlock)
  pure (server, { blocks with dataBlock := dataBlock },
    { renderBlock server canKeepAlive 200 dataBlock with
      charset := server.charset
      contentType := some (ascii "text/html") })

def scrapeRequest : Except Fault (Server × TcpBlocks × Render) := do
  let hashesBlock ← ofBlock (resetBlock found (some blocks.hashesBlock))
  let dataBlock ← ofBlock (resetBlock found (some blocks.dataBlock))
  let (query, hashesBlock, _) ← ofBlock (parseUri found server.host.inetPton Query.empty
    (some hashesBlock) none readBuffer)
  let hashesBlock := hashesBlock.getD blocks.hashesBlock
  let blocks := { blocks with dataBlock := dataBlock, hashesBlock := hashesBlock }
  if hashesBlock.size = 0 then
    pure (server, blocks,
      server.render 403 (ascii "Forbidden (Full Scrape Disabled)") 32 canKeepAlive)
  else do
    let (torrentList, dataBlock, scrapeBlock) ← renderScrapeTorrentsPublic found dataBlock
      blocks.scrapeBlock server.torrentList hashesBlock query
    pure ({ server with torrentList := torrentList },
      { blocks with dataBlock := dataBlock, scrapeBlock := scrapeBlock },
      renderBlock server canKeepAlive 200 dataBlock)

def notFound (dataBlock : Block) (text : List UInt8) :
    Except Fault (Server × TcpBlocks × Render) := do
  let dataBlock ← ofBlock (dataBlock.addFormat found 1000 text)
  pure (server, { blocks with dataBlock := dataBlock },
    renderBlock server canKeepAlive 404 dataBlock)

def fileRequest : Except Fault (Server × TcpBlocks × Render) := do
  let dataBlock ← ofBlock (resetBlock found (some blocks.dataBlock))
  let (query, _, _) ←
    ofBlock (parseUri found server.host.inetPton Query.empty none none readBuffer)
  match server.files.realpath query.path with
  | .error errno =>
      notFound found server blocks canKeepAlive dataBlock
        (ascii "Page not found: " ++ server.files.errorText errno)
  | .ok absolute =>
      if startsWith server.webRoot absolute = false then
        pure (server, { blocks with dataBlock := dataBlock },
          server.render 404 (ascii "Page not found: Secure error") 28 canKeepAlive)
      else match server.files.stat absolute with
      | .error errno =>
          notFound found server blocks canKeepAlive dataBlock
            (ascii "Page not found: Stat failed: " ++ server.files.errorText errno)
      | .ok statFile =>
          if statFile.isRegular = false then
            pure (server, { blocks with dataBlock := dataBlock },
              server.render 404 (ascii "Page not found: Not a file") 26 canKeepAlive)
          else if statFile.size > threadClientTcpMaxFileSize then
            pure (server, { blocks with dataBlock := dataBlock },
              server.render 507 (ascii "File size exceeds the allowed limit") 35 canKeepAlive)
          else do
            let dataBlock ← ofBlock
              (dataBlock.addFile found server.files (UInt32.ofNat statFile.size) absolute)
            pure (server, { blocks with dataBlock := dataBlock },
              { renderBlock server canKeepAlive 200 dataBlock with
                contentType := some (typeFile absolute) })

def answer (clientAddr : In6Addr) (now : Int) : Except Fault (Server × TcpBlocks × Render) :=
  let text := cString readBuffer
  if startsWith (ascii "GET /announce") text = true then
    announceRequest found server blocks readBuffer canKeepAlive clientAddr now
  else if isHttp readBuffer = false then
    pure (server, blocks, server.render 405 readBuffer readBuffer.length canKeepAlive)
  else if startsWith (ascii "GET /api/set") text = true then
    setRequest found server blocks readBuffer canKeepAlive
  else if startsWith (ascii "GET /api/websocket") text = true then
    pure (server, blocks, server.websocket readBuffer canKeepAlive)
  else if startsWith (ascii "GET /stats.html") text = true then
    statsRequest found server stats blocks canKeepAlive
  else if startsWith (ascii "GET / ") text = true then
    pure (server, blocks, server.render 200
      (ascii "github.com/truekenny/etracker - open-source BitTorrent tracker\n") 63 canKeepAlive)
  else if startsWith (ascii "GET /scrape") text = true then
    scrapeRequest found server blocks readBuffer canKeepAlive
  else fileRequest found server blocks readBuffer canKeepAlive

/-- Every branch ends with a response in `sendBlock`, which is sent. -/
def respond (clientAddr : In6Addr) (now : Int) :
    Except Fault (Server × TcpBlocks × Option (List UInt8)) := do
  let sendBlock ← ofBlock (resetBlock found (some blocks.sendBlock))
  let (server, blocks, render) ← answer found server stats
    { blocks with sendBlock := sendBlock } readBuffer
    (Http.canKeepAlive server.settings.keepAlive readBuffer) clientAddr now
  let sendBlock ← ofBlock (renderHttpMessage found render blocks.sendBlock)
  pure (server, { blocks with sendBlock := sendBlock }, some sendBlock.sent)

def processRead (clientAddr : In6Addr) (now : Int) :
    Except Fault (Server × TcpBlocks × Option (List UInt8)) :=
  if readBuffer.length ≥ threadClientTcpReceivedMessageLength then do
    let dataBlock ← ofBlock (resetBlock found (some blocks.dataBlock))
    let dataBlock ← ofBlock (renderHttpMessage found
      (server.render 413 (ascii "Request Entity Too Large") 24 false) dataBlock)
    pure (server, { blocks with dataBlock := dataBlock }, some dataBlock.sent)
  else if readBuffer.length = 0 then pure (server, blocks, none)
  else if strstr (cString readBuffer) (ascii "\r\n\r\n") = none then pure (server, blocks, none)
  else respond found server stats blocks readBuffer clientAddr now

end Branches

end Model

end Etracker.Blocks
