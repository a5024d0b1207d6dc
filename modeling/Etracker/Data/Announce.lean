import Etracker.Data.Model

/-! The announce of `data.c` and of its two callers, `processRead` in
`thread_client_tcp.c` and `clientUdpHandler` in `thread_client_udp.c`. -/

namespace Etracker

open Foundation Foundation.CString

def dataMaxPacketSize : Nat := 64000
def threadClientTcpReceivedMessageLength : Nat := 4000
def socketUdpStructureActionAnnounce : UInt32 := 1
def connectRequestSize : Nat := 16
def announceRequestSize : Nat := 98

/-- `inet_ntop`: the text of an address. -/
abbrev InetNtop := AddressFamily → List UInt8 → List UInt8

def decimal (value : Int) : List UInt8 := ascii (toString value)

/-- An `unsigned int` given to `%d` is printed as a signed number. -/
def decimalOfUnsigned (value : UInt32) : List UInt8 := decimal ((value.toNat : Int).bmod (2 ^ 32))

def littleEndianBytes (value : UInt32) : List UInt8 :=
  [value.toUInt8, (value >>> 8).toUInt8, (value >>> 16).toUInt8, (value >>> 24).toUInt8]

def bigEndianBytes (value : UInt32) : List UInt8 := (littleEndianBytes value).reverse

def shortBytes (value : UInt16) : List UInt8 := [value.toUInt8, (value >>> 8).toUInt8]

def readBigEndian (buffer : List UInt8) (offset : Nat) : UInt32 :=
  (buffer.getD offset 0).toUInt32 <<< 24 ||| (buffer.getD (offset + 1) 0).toUInt32 <<< 16 |||
    (buffer.getD (offset + 2) 0).toUInt32 <<< 8 ||| (buffer.getD (offset + 3) 0).toUInt32

def readLittleEndian (buffer : List UInt8) (offset : Nat) : UInt32 :=
  (buffer.getD (offset + 3) 0).toUInt32 <<< 24 ||| (buffer.getD (offset + 2) 0).toUInt32 <<< 16 |||
    (buffer.getD (offset + 1) 0).toUInt32 <<< 8 ||| (buffer.getD offset 0).toUInt32

def readShort (buffer : List UInt8) (offset : Nat) : UInt16 :=
  (buffer.getD (offset + 1) 0).toUInt16 <<< 8 ||| (buffer.getD offset 0).toUInt16

section Render

variable (inetNtop : InetNtop)

def int2ip (source : In6Addr) (ipVersion : UInt8) : List UInt8 :=
  if ipVersion &&& socketVersionIpv4Bit ≠ 0 then inetNtop .inet (source.list.drop 12)
  else inetNtop .inet6 source.list

def addressOf (query : Query) (peerDataL : PeerData) : In6Addr :=
  if query.ipVersion &&& socketVersionIpv4Bit ≠ 0 then peerDataL.ip4 else peerDataL.ip6

def renderPeer (query : Query) (hash : Hash) (peerDataL : PeerData) : List UInt8 :=
  let ip := int2ip inetNtop (addressOf query peerDataL) query.ipVersion
  let port := decimal (htons peerDataL.port).toNat
  if query.compact = true ∨ query.protocol = .udp then
    (if query.ipVersion &&& socketVersionIpv4Bit ≠ 0 then peerDataL.ip4.list.drop 12
      else peerDataL.ip6.list) ++ shortBytes peerDataL.port
  else if query.noPeerId = true then
    ascii "d4:porti" ++ port ++ ascii "e2:ip" ++ decimal ip.length ++ ascii ":" ++ ip ++ ascii "e"
  else
    ascii "d4:porti" ++ port ++ ascii "e7:peer id" ++ decimal uriParamValueLength ++ ascii ":" ++
      hash.take uriParamValueLength ++ ascii "2:ip" ++ decimal ip.length ++ ascii ":" ++ ip ++
      ascii "e"

/-- `args` is the block and `leftPeers`. Both kinds of clients are served together:
`DATA_SEPARATE_TCP_AND_UDP_CLIENTS` is off. -/
def renderAnnouncePeersCallback (query : Query) : Callback PeerData (List UInt8 × UInt32)
  | _, peer, (list, block, leftPeers) =>
      if block.length ≥ dataMaxPacketSize then pure (.listBreak, list, block, leftPeers)
      else do
        let stored ← list.deref peer
        let peerDataL ← list.dataOf peer
        if query.ipVersion &&& peerDataL.ipVersion = 0 then
          pure (.listContinue, list, block, leftPeers)
        else
          let block := block ++ renderPeer inetNtop query stored.hash peerDataL
          let leftPeers := leftPeers - 1
          pure (if leftPeers ≤ 0 then .listBreak else .listContinue, list, block, leftPeers)

def renderAnnouncePeersL (peerList : HashList PeerData) (query : Query) :
    Except Fault (List UInt8) := do
  let (_, _, block, _) ←
    mapList peerList ([], query.numwant) (renderAnnouncePeersCallback inetNtop query)
  pure block

def announceHead (torrent : TorrentCounters) (query : Query) (interval : UInt32)
    (announceBlockSize : Nat) : List UInt8 :=
  let counters := ascii "d8:completei" ++ decimalOfUnsigned torrent.complete ++
    ascii "e10:incompletei" ++ decimalOfUnsigned torrent.incomplete ++
    ascii "e10:downloadedi" ++ decimalOfUnsigned torrent.downloaded ++
    ascii "e8:intervali" ++ decimalOfUnsigned interval ++ ascii "e" ++
    (if query.ipVersion &&& socketVersionIpv4Bit ≠ 0 then ascii "5:peers" else ascii "6:peers6")
  if query.protocol = .udp then
    bigEndianBytes socketUdpStructureActionAnnounce ++ littleEndianBytes query.transactionId ++
      bigEndianBytes interval ++ bigEndianBytes torrent.incomplete ++
      bigEndianBytes torrent.complete
  else if query.compact = true then
    counters ++ decimalOfUnsigned (UInt32.ofNat announceBlockSize) ++ ascii ":"
  else counters ++ ascii "l"

def announceTail (query : Query) : List UInt8 :=
  if query.protocol = .udp then []
  else if query.compact = true then ascii "e"
  else ascii "ee"

/-- The reply to an announce: the counters of the torrent and some of its peers. A
null torrent has no list to visit. -/
def renderAnnouncePublic (torrentList : TorrentList) (torrent : Option Address) (query : Query)
    (interval : UInt32) : Except Fault (List UInt8) :=
  match torrent with
  | none => pure (announceHead ⟨0, 0, 0⟩ query interval 0 ++ announceTail query)
  | some torrent => do
      let torrentDataL ← torrentList.dataOf torrent
      let announceBlock ← renderAnnouncePeersL inetNtop torrentDataL.peerList query
      pure (announceHead torrentDataL.toTorrentCounters query interval announceBlock.length ++
        announceBlock ++ announceTail query)

def updatePeers (torrentList : TorrentList) (query : Query) (protocol : UInt8) (now : Int) :
    Except Fault (TorrentList × Option Address) :=
  if query.event = uriEventIdStopped then deletePeerPublic torrentList query
  else do
    let (torrentList, torrent, _) ← setPeerPublic torrentList query protocol now
    pure (torrentList, some torrent)

def announce (torrentList : TorrentList) (query : Query) (protocol : UInt8) (interval : UInt32)
    (now : Int) : Except Fault (TorrentList × List UInt8) := do
  let leaf := torrentList.getLeaf query.infoHash.list
  let torrentList ← waitSemaphoreLeaf torrentList leaf
  let (torrentList, torrent) ← updatePeers torrentList query protocol now
  let block ← renderAnnouncePublic inetNtop torrentList torrent query interval
  let torrentList ← postSemaphoreLeaf torrentList leaf
  pure (torrentList, block)

end Render

/-- What the handlers read of the configuration and of the interval. -/
structure Settings where
  maxPeersPerResponse : UInt32
  interval : UInt32
  xForwardedFor : Option (List UInt8)

/-- The address functions of the C library. -/
structure Host where
  inetPton : InetPton
  inetNtop : InetNtop

def Query.limitNumwant (query : Query) (maxPeersPerResponse : UInt32) : Query :=
  if query.numwant > maxPeersPerResponse then { query with numwant := maxPeersPerResponse }
  else query

section LimitNumwant

variable (query : Query) (maxPeersPerResponse : UInt32)

@[simp] theorem Query.limitNumwant_event :
    (query.limitNumwant maxPeersPerResponse).event = query.event := by
  unfold Query.limitNumwant
  split_ifs <;> rfl

@[simp] theorem Query.limitNumwant_infoHash :
    (query.limitNumwant maxPeersPerResponse).infoHash = query.infoHash := by
  unfold Query.limitNumwant
  split_ifs <;> rfl

@[simp] theorem Query.limitNumwant_peerId :
    (query.limitNumwant maxPeersPerResponse).peerId = query.peerId := by
  unfold Query.limitNumwant
  split_ifs <;> rfl

@[simp] theorem Query.limitNumwant_protocol :
    (query.limitNumwant maxPeersPerResponse).protocol = query.protocol := by
  unfold Query.limitNumwant
  split_ifs <;> rfl

@[simp] theorem Query.limitNumwant_ipVersion :
    (query.limitNumwant maxPeersPerResponse).ipVersion = query.ipVersion := by
  unfold Query.limitNumwant
  split_ifs <;> rfl

@[simp] theorem Query.limitNumwant_ip :
    (query.limitNumwant maxPeersPerResponse).ip = query.ip := by
  unfold Query.limitNumwant
  split_ifs <;> rfl

@[simp] theorem Query.limitNumwant_port :
    (query.limitNumwant maxPeersPerResponse).port = query.port := by
  unfold Query.limitNumwant
  split_ifs <;> rfl

@[simp] theorem Query.limitNumwant_transactionId :
    (query.limitNumwant maxPeersPerResponse).transactionId = query.transactionId := by
  unfold Query.limitNumwant
  split_ifs <;> rfl

end LimitNumwant

def httpDefaults (settings : Settings) (clientAddr : In6Addr) : Query :=
  { Query.empty with
    ip := clientAddr
    ipVersion := getIpVersion clientAddr
    numwant := uriDefaultNumWant
    event := uriEventIdStarted
    compact := true
    xForwardedFor := settings.xForwardedFor }

def httpQuery (host : Host) (settings : Settings) (clientAddr : In6Addr)
    (readBuffer : List UInt8) : Query :=
  (parseUri host.inetPton (httpDefaults settings clientAddr) none true readBuffer).1.limitNumwant
    settings.maxPeersPerResponse

/-- What `processRead` answers. `other` stands for requests that leave the torrent
table alone. -/
inductive HttpReply
  | closed
  | incomplete
  | rejected (code : Nat) (message : List UInt8) (size : Nat)
  | announced (body : List UInt8)
  | other
  deriving DecidableEq

def processRead (host : Host) (settings : Settings) (torrentList : TorrentList)
    (clientAddr : In6Addr) (readBuffer : List UInt8) (now : Int) :
    Except Fault (TorrentList × HttpReply) :=
  if readBuffer.length ≥ threadClientTcpReceivedMessageLength then
    pure (torrentList, .rejected 413 (ascii "Request Entity Too Large") 24)
  else if readBuffer.length = 0 then pure (torrentList, .closed)
  else if strstr (cString readBuffer) (ascii "\r\n\r\n") = none then
    pure (torrentList, .incomplete)
  else if startsWith (ascii "GET /announce") (cString readBuffer) = true then
    let query := httpQuery host settings clientAddr readBuffer
    if query.hasInfoHash = false then
      pure (torrentList, .rejected 400 (ascii "Field 'info_hash' must be filled") 25)
    else if query.port = 0 then
      pure (torrentList, .rejected 400 (ascii "Field 'port' must be filled") 25)
    else do
      let (torrentList, body) ← announce host.inetNtop torrentList query
        dataStructurePeerProtocolTcpBit settings.interval now
      pure (torrentList, .announced body)
  else pure (torrentList, .other)

/-- The fields of a `struct announceRequest` that the handler reads. The event is
cut down to the one byte `struct query` has for it. -/
def udpQuery (settings : Settings) (clientAddr : In6Addr) (datagram : List UInt8) : Query :=
  { Query.empty with
    protocol := .udp
    port := readShort datagram 96
    event := (readBigEndian datagram 80).toUInt8
    infoHash := Bytes.ofList _ (datagram.drop 16)
    peerId := Bytes.ofList _ (datagram.drop 36)
    numwant := readBigEndian datagram 92
    ip := clientAddr
    ipVersion := getIpVersion clientAddr
    transactionId := readLittleEndian datagram 12 : Query }.limitNumwant
      settings.maxPeersPerResponse

inductive UdpReply
  | announced (packet : List UInt8)
  | other
  deriving DecidableEq

def isUdpAnnounce (datagram : List UInt8) : Bool :=
  datagram.length ≠ connectRequestSize ∧ announceRequestSize ≤ datagram.length ∧
    readBigEndian datagram 8 = socketUdpStructureActionAnnounce

def clientUdpHandler (host : Host) (settings : Settings) (torrentList : TorrentList)
    (clientAddr : In6Addr) (datagram : List UInt8) (now : Int) :
    Except Fault (TorrentList × UdpReply) :=
  if isUdpAnnounce datagram = true then do
    let (torrentList, packet) ← announce host.inetNtop torrentList
      (udpQuery settings clientAddr datagram) dataStructurePeerProtocolUdpBit settings.interval now
    pure (torrentList, .announced packet)
  else pure (torrentList, .other)

end Etracker
