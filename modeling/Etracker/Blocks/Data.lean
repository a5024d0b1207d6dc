import Etracker.Blocks.Format

namespace Etracker.Blocks

open Foundation Foundation.CString Foundation.Outcome

def ofBlock {Result : Type} (result : Except BlockFault Result) : Except Fault Result :=
  result.mapError fun _ => .dangling

@[simp] theorem ofBlock_ok {Result : Type} (value : Result) :
    ofBlock (.ok value) = .ok value := rfl

section Model

variable (found : Nat → UInt8) (inetNtop : InetNtop)

def addPeer (query : Query) (hash : Hash) (peerDataL : PeerData) (peerBlock : Block) :
    Except BlockFault Block :=
  let ip := int2ip inetNtop (addressOf query peerDataL) query.ipVersion
  let port := decimal (htons peerDataL.port).toNat
  if query.compact = true ∨ query.protocol = .udp then do
    let peerBlock ← if query.ipVersion &&& socketVersionIpv4Bit ≠ 0 then
        peerBlock.addString found (peerDataL.ip4.list.drop 12) 4
      else peerBlock.addString found peerDataL.ip6.list 16
    peerBlock.addString found (shortBytes peerDataL.port) 2
  else if query.noPeerId = true then
    peerBlock.addFormat found 500 (ascii "d4:porti" ++ port ++ ascii "e2:ip" ++
      decimal ip.length ++ ascii ":" ++ ip ++ ascii "e")
  else do
    let peerBlock ← peerBlock.addFormat found 500 (ascii "d4:porti" ++ port ++
      ascii "e7:peer id" ++ decimal uriParamValueLength ++ ascii ":")
    let peerBlock ← peerBlock.addString found hash 20
    peerBlock.addFormat found 500 (ascii "2:ip" ++ decimal ip.length ++ ascii ":" ++ ip ++
      ascii "e")

/-- `args` is the block and `leftPeers`. -/
def renderAnnouncePeersCallback (query : Query) : Callback PeerData (Block × UInt32)
  | _, peer, (list, peerBlock, leftPeers) =>
      if peerBlock.size.toNat ≥ dataMaxPacketSize then
        pure (.listBreak, list, peerBlock, leftPeers)
      else do
        let stored ← list.deref peer
        let peerDataL ← list.dataOf peer
        if query.ipVersion &&& peerDataL.ipVersion = 0 then
          pure (.listContinue, list, peerBlock, leftPeers)
        else
          let peerBlock ← ofBlock (addPeer found inetNtop query stored.hash peerDataL peerBlock)
          let leftPeers := leftPeers - 1
          pure (if leftPeers ≤ 0 then .listBreak else .listContinue, list, peerBlock, leftPeers)

def renderAnnouncePeersL (block : Block) (peerList : Option (HashList PeerData)) (query : Query) :
    Except Fault Block :=
  match peerList with
  | none => pure block
  | some peerList => do
      let (_, _, block, _) ←
        mapList peerList (block, query.numwant) (renderAnnouncePeersCallback found inetNtop query)
      pure block

def announceCounters (torrent : TorrentCounters) (query : Query) (interval : UInt32) :
    List UInt8 :=
  ascii "d8:completei" ++ decimalOfUnsigned torrent.complete ++
    ascii "e10:incompletei" ++ decimalOfUnsigned torrent.incomplete ++
    ascii "e10:downloadedi" ++ decimalOfUnsigned torrent.downloaded ++
    ascii "e8:intervali" ++ decimalOfUnsigned interval ++ ascii "e" ++
    (if query.ipVersion &&& socketVersionIpv4Bit ≠ 0 then ascii "5:peers" else ascii "6:peers6")

/-- What `renderAnnounceTorrentL` puts around the peers. -/
def aroundPeers (block announceBlock : Block) (torrent : TorrentCounters) (query : Query)
    (interval : UInt32) : Except BlockFault Block := do
  let block ←
    if query.protocol = .udp then pure block
    else if query.compact = true then
      block.addFormat found 500 (announceCounters torrent query interval ++
        decimalOfUnsigned announceBlock.size ++ ascii ":")
    else block.addFormat found 500 (announceCounters torrent query interval ++ ascii "l")
  let block ← block.addString found announceBlock.data.list announceBlock.size
  if query.protocol = .tcp then
    let block ← if query.compact = false then block.addString found (ascii "e") 1 else pure block
    block.addString found (ascii "e") 1
  else pure block

def copyTorrent (torrentList : TorrentList) : Option Address → Except Fault (Option TorrentData)
  | none => pure none
  | some torrent => do
      let torrentDataL ← torrentList.dataOf torrent
      pure (some torrentDataL)

def countersOf (torrentDataL : Option TorrentData) : TorrentCounters :=
  (torrentDataL.map TorrentData.toTorrentCounters).getD ⟨0, 0, 0⟩

def renderAnnounceTorrentL (block announceBlock : Block) (torrentDataL : Option TorrentData)
    (query : Query) (interval : UInt32) : Except Fault (Block × Block) := do
  let announceBlock ← ofBlock (resetBlock found (some announceBlock))
  let announceBlock ← renderAnnouncePeersL found inetNtop announceBlock
    (torrentDataL.map TorrentData.peerList) query
  let block ← ofBlock
    (aroundPeers found block announceBlock (countersOf torrentDataL) query interval)
  pure (block, announceBlock)

def announceHeadResponse (torrent : TorrentCounters) (query : Query) (interval : UInt32) :
    List UInt8 :=
  bigEndianBytes socketUdpStructureActionAnnounce ++ littleEndianBytes query.transactionId ++
    bigEndianBytes interval ++ bigEndianBytes torrent.incomplete ++ bigEndianBytes torrent.complete

def headResponse (block : Block) (torrent : TorrentCounters) (query : Query) (interval : UInt32) :
    Except BlockFault Block :=
  if query.protocol = .udp then
    block.addString found (announceHeadResponse torrent query interval) 20
  else pure block

def renderAnnouncePublic (block announceBlock : Block) (torrentList : TorrentList)
    (torrent : Option Address) (query : Query) (interval : UInt32) :
    Except Fault (Block × Block) := do
  let torrentDataL ← copyTorrent torrentList torrent
  let block ← ofBlock (headResponse found block (countersOf torrentDataL) query interval)
  renderAnnounceTorrentL found inetNtop block announceBlock torrentDataL query interval

def announce (block announceBlock : Block) (torrentList : TorrentList) (query : Query)
    (protocol : UInt8) (interval : UInt32) (now : Int) :
    Except Fault (TorrentList × Block × Block) := do
  let leaf := torrentList.getLeaf query.infoHash.list
  let torrentList ← waitSemaphoreLeaf torrentList leaf
  let (torrentList, torrent) ← updatePeers torrentList query protocol now
  let (block, announceBlock) ← renderAnnouncePublic found inetNtop block announceBlock torrentList
    torrent query interval
  let torrentList ← postSemaphoreLeaf torrentList leaf
  pure (torrentList, block, announceBlock)

end Model

section Model

variable (found : Nat → UInt8)

def renderScrapeTorrentL (torrentDataL : TorrentCounters) (hash : ParamValue) (protocol : Protocol)
    (block : Block) : Except BlockFault Block :=
  match protocol with
  | .udp => block.addString found (scrapeTorrentResponse torrentDataL) 12
  | .tcp => do
      let block ← block.addString found (ascii "20:") 3
      let block ← block.addString found hash.list 20
      block.addFormat found 1000 (ascii "d8:completei" ++
        decimalOfUnsigned torrentDataL.complete ++ ascii "e10:incompletei" ++
        decimalOfUnsigned torrentDataL.incomplete ++ ascii "e10:downloadedi" ++
        decimalOfUnsigned torrentDataL.downloaded ++ ascii "ee")

/-- The loop of `renderScrapeTorrentsPublic`. The hashes are read out of the memory of their
block. -/
def renderScrapeHashes (hashes : Block) (protocol : Protocol) :
    List Nat → TorrentList → Block → Except Fault (TorrentList × Block)
  | [], torrentList, scrapeBlock => pure (torrentList, scrapeBlock)
  | index :: rest, torrentList, scrapeBlock => do
      let hash ← hashAt hashes.data.list index
      let leaf := torrentList.getLeaf hash.list
      let torrentList ← waitSemaphoreLeaf torrentList leaf
      let torrent ← getHash torrentList hash.list
      let torrentDataL ← scrapeCounters torrentList torrent
      let scrapeBlock ← ofBlock (renderScrapeTorrentL found torrentDataL hash protocol scrapeBlock)
      let torrentList ← postSemaphoreLeaf torrentList leaf
      if scrapeBlock.size.toNat ≥ dataMaxPacketSize then pure (torrentList, scrapeBlock)
      else renderScrapeHashes hashes protocol rest torrentList scrapeBlock

def aroundTorrents (query : Query) (block scrapeBlock : Block) : Except BlockFault Block := do
  let block ← block.addString found scrapeBlock.data.list scrapeBlock.size
  match query.protocol with
  | .udp => pure block
  | .tcp => block.addString found (ascii "ee") 2

def scrapeHeadBlock (query : Query) (block : Block) : Except BlockFault Block :=
  match query.protocol with
  | .udp => block.addString found (bigEndianBytes socketUdpStructureActionScrape ++
      littleEndianBytes query.transactionId) 8
  | .tcp => block.addString found (ascii "d5:filesd") 9

def renderScrapeTorrentsPublic (block scrapeBlock : Block) (torrentList : TorrentList)
    (hashes : Block) (query : Query) : Except Fault (TorrentList × Block × Block) := do
  let scrapeBlock ← ofBlock (resetBlock found (some scrapeBlock))
  let block ← ofBlock (scrapeHeadBlock found query block)
  let (torrentList, scrapeBlock) ← renderScrapeHashes found hashes query.protocol
    (List.range (hashes.size.toNat / uriParamValueLength)) torrentList scrapeBlock
  let block ← ofBlock (aroundTorrents found query block scrapeBlock)
  pure (torrentList, block, scrapeBlock)

end Model

end Etracker.Blocks
