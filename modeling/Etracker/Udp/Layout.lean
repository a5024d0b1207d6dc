import Etracker.Data.Scrape

namespace Etracker.Udp

open Foundation Foundation.Records

theorem readBigEndian_append (value : UInt32) (rest : List UInt8) (offset : Nat) :
    readBigEndian (bigEndianBytes value ++ rest) (offset + 4) = readBigEndian rest offset := by
  rw [readBigEndian_drop, Nat.add_comm, ← List.drop_drop,
    List.drop_left' (bigEndianBytes_length value), ← readBigEndian_drop]

structure ConnectResponse where
  action : UInt32
  transactionId : UInt32
  connectionId : List UInt8
  deriving DecidableEq

namespace ConnectResponse

def decode (packet : List UInt8) : ConnectResponse where
  action := readBigEndian packet 0
  transactionId := readBigEndian packet 4
  connectionId := (packet.drop 8).take 8

def bytes (response : ConnectResponse) : List UInt8 :=
  bigEndianBytes response.action ++ (bigEndianBytes response.transactionId ++
    response.connectionId)

theorem decode_bytes {response : ConnectResponse} (whole : response.connectionId.length = 8) :
    decode response.bytes = response := by
  have transactionId : readBigEndian response.bytes 4 = response.transactionId := by
    rw [bytes, readBigEndian_append _ _ 0, readBigEndian_bytes]
  have connectionId : response.bytes.drop 8 = response.connectionId := by
    rw [bytes, ← List.append_assoc]
    exact List.drop_left' rfl
  rw [decode, transactionId, connectionId, bytes, readBigEndian_bytes,
    List.take_of_length_le whole.le]

theorem bytes_length {response : ConnectResponse} (whole : response.connectionId.length = 8) :
    response.bytes.length = 16 := by
  simp [bytes, whole]

end ConnectResponse

structure AnnouncePeerResponse where
  ip : List UInt8
  port : UInt16
  deriving DecidableEq

namespace AnnouncePeerResponse

def decode (entry : List UInt8) : AnnouncePeerResponse where
  ip := entry.take (entry.length - 2)
  port := htons (readShort entry (entry.length - 2))

def bytes (peer : AnnouncePeerResponse) : List UInt8 := peer.ip ++ shortBytes (htons peer.port)

theorem bytes_length (peer : AnnouncePeerResponse) : peer.bytes.length = peer.ip.length + 2 := by
  simp [bytes]

theorem decode_bytes (peer : AnnouncePeerResponse) : decode peer.bytes = peer := by
  have front : peer.bytes.length - 2 = peer.ip.length := by
    rw [bytes_length]
    omega
  have port : readShort peer.bytes peer.ip.length = htons peer.port := by
    rw [readShort_drop, bytes, List.drop_left, readShort_bytes]
  rw [decode, front, port, htons_htons, bytes, List.take_left]

def ofPeer (ipVersion : UInt8) (peerDataL : PeerData) : AnnouncePeerResponse where
  ip := if ipVersion &&& socketVersionIpv4Bit ≠ 0 then peerDataL.ip4.list.drop 12
    else peerDataL.ip6.list
  port := htons peerDataL.port

def size (ipVersion : UInt8) : Nat := if ipVersion &&& socketVersionIpv4Bit ≠ 0 then 6 else 18

theorem size_pos (ipVersion : UInt8) : 0 < size ipVersion := by
  unfold size
  split_ifs <;> decide

theorem ofPeer_size (ipVersion : UInt8) (peerDataL : PeerData) :
    (ofPeer ipVersion peerDataL).ip.length + 2 = size ipVersion := by
  unfold ofPeer size
  dsimp only
  split_ifs
  · rw [List.length_drop, peerDataL.ip4.length_eq]
  · rw [peerDataL.ip6.length_eq]

theorem renderPeer_udp (inetNtop : InetNtop) {query : Query} (udp : query.protocol = .udp)
    (hash : Hash) (peerDataL : PeerData) :
    renderPeer inetNtop query hash peerDataL = (ofPeer query.ipVersion peerDataL).bytes := by
  simp only [renderPeer, udp, or_true, if_true, bytes, ofPeer, htons_htons]

end AnnouncePeerResponse

structure AnnounceResponse where
  action : UInt32
  transactionId : UInt32
  interval : UInt32
  leechers : UInt32
  seeders : UInt32
  peers : List AnnouncePeerResponse
  deriving DecidableEq

namespace AnnounceResponse

/-- `peerSize` is what one peer takes in the address family of the client. -/
def decode (peerSize : Nat) (packet : List UInt8) : AnnounceResponse where
  action := readBigEndian packet 0
  transactionId := readBigEndian packet 4
  interval := readBigEndian packet 8
  leechers := readBigEndian packet 12
  seeders := readBigEndian packet 16
  peers := (records peerSize ((packet.length - 20) / peerSize) (packet.drop 20)).map
    AnnouncePeerResponse.decode

def head (response : AnnounceResponse) : List UInt8 :=
  bigEndianBytes response.action ++ (bigEndianBytes response.transactionId ++
    (bigEndianBytes response.interval ++ (bigEndianBytes response.leechers ++
      bigEndianBytes response.seeders)))

def bytes (response : AnnounceResponse) : List UInt8 :=
  response.head ++ (response.peers.map AnnouncePeerResponse.bytes).flatten

variable {response : AnnounceResponse} {peerSize : Nat}

theorem sized_bytes (sized : ∀ peer ∈ response.peers, peer.ip.length + 2 = peerSize) :
    ∀ entry ∈ response.peers.map AnnouncePeerResponse.bytes, entry.length = peerSize := by
  intro entry member
  obtain ⟨peer, inside, rfl⟩ := List.mem_map.mp member
  rw [peer.bytes_length]
  exact sized peer inside

theorem bytes_length (sized : ∀ peer ∈ response.peers, peer.ip.length + 2 = peerSize) :
    response.bytes.length = 20 + peerSize * response.peers.length := by
  rw [bytes, List.length_append, length_flatten_of_sized (sized_bytes sized), List.length_map]
  rfl

theorem decode_bytes (positive : 0 < peerSize)
    (sized : ∀ peer ∈ response.peers, peer.ip.length + 2 = peerSize) :
    decode peerSize response.bytes = response := by
  have count : (response.bytes.length - 20) / peerSize = response.peers.length := by
    rw [bytes_length sized, Nat.add_sub_cancel_left, Nat.mul_div_cancel_left _ positive]
  have entries : response.bytes.drop 20 =
      (response.peers.map AnnouncePeerResponse.bytes).flatten := List.drop_left' rfl
  have whole := records_flatten (sized_bytes sized) []
  rw [List.append_nil, List.length_map] at whole
  have read : (response.peers.map AnnouncePeerResponse.bytes).map AnnouncePeerResponse.decode =
      response.peers := by
    rw [List.map_map]
    exact List.map_id'' AnnouncePeerResponse.decode_bytes _
  rw [decode, count, entries, whole, read]
  simp only [bytes, head, List.append_assoc, readBigEndian_append _ _ 0, readBigEndian_append _ _ 4,
    readBigEndian_append _ _ 8, readBigEndian_append _ _ 12, readBigEndian_bytes]

end AnnounceResponse

structure ScrapeTorrentResponse where
  seeders : UInt32
  completed : UInt32
  leechers : UInt32
  deriving DecidableEq

namespace ScrapeTorrentResponse

def decode (entry : List UInt8) : ScrapeTorrentResponse where
  seeders := readBigEndian entry 0
  completed := readBigEndian entry 4
  leechers := readBigEndian entry 8

def bytes (torrent : ScrapeTorrentResponse) : List UInt8 :=
  bigEndianBytes torrent.seeders ++ bigEndianBytes torrent.completed ++
    bigEndianBytes torrent.leechers

@[simp] theorem bytes_length (torrent : ScrapeTorrentResponse) : torrent.bytes.length = 12 := rfl

theorem decode_bytes (torrent : ScrapeTorrentResponse) : decode torrent.bytes = torrent := by
  have last := readBigEndian_bytes torrent.leechers []
  rw [List.append_nil] at last
  simp only [decode, bytes, List.append_assoc, readBigEndian_append _ _ 0,
    readBigEndian_append _ _ 4, readBigEndian_bytes, last]

def ofCounters (torrentDataL : TorrentCounters) : ScrapeTorrentResponse where
  seeders := torrentDataL.complete
  completed := torrentDataL.downloaded
  leechers := torrentDataL.incomplete

end ScrapeTorrentResponse

structure ScrapeResponse where
  action : UInt32
  transactionId : UInt32
  torrents : List ScrapeTorrentResponse
  deriving DecidableEq

namespace ScrapeResponse

def decode (packet : List UInt8) : ScrapeResponse where
  action := readBigEndian packet 0
  transactionId := readBigEndian packet 4
  torrents := (records 12 ((packet.length - 8) / 12) (packet.drop 8)).map
    ScrapeTorrentResponse.decode

def bytes (response : ScrapeResponse) : List UInt8 :=
  bigEndianBytes response.action ++ (bigEndianBytes response.transactionId ++
    (response.torrents.map ScrapeTorrentResponse.bytes).flatten)

variable (response : ScrapeResponse)

theorem sized_bytes :
    ∀ entry ∈ response.torrents.map ScrapeTorrentResponse.bytes, entry.length = 12 := by
  intro entry member
  obtain ⟨torrent, _, rfl⟩ := List.mem_map.mp member
  exact torrent.bytes_length

theorem bytes_length : response.bytes.length = 8 + 12 * response.torrents.length := by
  rw [bytes, List.length_append, List.length_append, length_flatten_of_sized response.sized_bytes,
    List.length_map, bigEndianBytes_length, bigEndianBytes_length]
  omega

theorem decode_bytes : decode response.bytes = response := by
  have count : (response.bytes.length - 8) / 12 = response.torrents.length := by
    rw [bytes_length]
    omega
  have entries : response.bytes.drop 8 =
      (response.torrents.map ScrapeTorrentResponse.bytes).flatten := by
    rw [bytes, ← List.append_assoc]
    exact List.drop_left' rfl
  have whole := records_flatten response.sized_bytes []
  rw [List.append_nil, List.length_map] at whole
  have read : (response.torrents.map ScrapeTorrentResponse.bytes).map
      ScrapeTorrentResponse.decode = response.torrents := by
    rw [List.map_map]
    exact List.map_id'' ScrapeTorrentResponse.decode_bytes _
  rw [decode, count, entries, whole, read]
  simp only [bytes, readBigEndian_append _ _ 0, readBigEndian_bytes]

end ScrapeResponse

end Etracker.Udp
