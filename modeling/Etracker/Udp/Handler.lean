import Etracker.Data.Scrape
import Etracker.Tracker.Step
import Etracker.Udp.Queue
import Mathlib.Data.Nat.Digits.Defs

/-! What a worker of `clientUdpHandler` does with one datagram: three packed structures are
laid over the received bytes, and every field is read at its offset. -/

namespace Etracker.Udp

open Foundation Foundation.Outcome Foundation.Records

def socketUdpStructureActionConnect : UInt32 := 0
def socketUdpStructureProtocolId : Nat := 0x8019102717040000
def scrapeRequestSize : Nat := 16

inductive DatagramFault
  /-- A field is read that was not received. -/
  | outside
  | table (fault : Fault)

def field (block : List UInt8) (offset count : Nat) : Except DatagramFault (Bytes count) :=
  match Bytes.readAt block offset count with
  | none => throw .outside
  | some bytes => pure bytes

def networkInt (block : List UInt8) (offset : Nat) : Except DatagramFault UInt32 := do
  let bytes ← field block offset 4
  pure (readBigEndian bytes.list 0)

def hostInt (block : List UInt8) (offset : Nat) : Except DatagramFault UInt32 := do
  let bytes ← field block offset 4
  pure (readLittleEndian bytes.list 0)

def hostLong (block : List UInt8) (offset : Nat) : Except DatagramFault Nat := do
  let bytes ← field block offset 8
  pure (Nat.ofDigits 256 (bytes.list.map UInt8.toNat))

/-- The bytes of an `unsigned long` that was assigned an `unsigned int`. -/
def longBytes (value : UInt32) : List UInt8 := littleEndianBytes value ++ littleEndianBytes 0

def ofTable {α : Type} (result : Except Fault α) : Except DatagramFault α :=
  result.mapError .table

def connectReply (block : List UInt8) (receiveCount : UInt32) :
    Except DatagramFault (Option (List UInt8)) := do
  let protocolId ← hostLong block 0
  if protocolId = socketUdpStructureProtocolId then
    let action ← hostInt block 8
    if action = socketUdpStructureActionConnect then
      let transactionId ← hostInt block 12
      pure (some (littleEndianBytes socketUdpStructureActionConnect ++
        littleEndianBytes transactionId ++ longBytes receiveCount))
    else pure none
  else pure none

def announceRequestQuery (settings : Settings) (clientAddr : In6Addr) (block : List UInt8) :
    Except DatagramFault Query := do
  let port ← field block 96 2
  let event ← networkInt block 80
  let infoHash ← field block 16 uriParamValueLength
  let peerId ← field block 36 uriParamValueLength
  let numwant ← networkInt block 92
  let transactionId ← hostInt block 12
  let query := { Query.empty with
    protocol := .udp
    port := readShort port.list 0
    event := event.toUInt8
    infoHash := infoHash
    peerId := peerId
    numwant := numwant
    ip := clientAddr
    ipVersion := getIpVersion clientAddr
    transactionId := transactionId }
  pure (query.limitNumwant settings.maxPeersPerResponse)

def scrapeRequestQuery (block : List UInt8) : Except DatagramFault Query := do
  let transactionId ← hostInt block 12
  pure { Query.empty with
    protocol := .udp
    transactionId := transactionId }

def scrapeHashes (block : List UInt8) : Except DatagramFault (List UInt8) := do
  let hashCount := (block.length - scrapeRequestSize) / uriParamValueLength
  let hashes ← field block scrapeRequestSize (hashCount * uriParamValueLength)
  pure hashes.list

def isAction (block : List UInt8) (action : UInt32) (longEnough : Prop) [Decidable longEnough] :
    Except DatagramFault Bool :=
  if longEnough then do
    let received ← networkInt block 8
    pure (received = action)
  else pure false

def clientUdpHandler (host : Host) (settings : Settings) (torrentList : TorrentList)
    (udpRequest : UdpRequest) (now : Int) :
    Except DatagramFault (TorrentList × Option (List UInt8)) := do
  let block := udpRequest.block
  if block.length = connectRequestSize then
    let reply ← connectReply block udpRequest.receiveCount
    pure (torrentList, reply)
  else if ← isAction block socketUdpStructureActionAnnounce
      (block.length ≥ announceRequestSize) then
    let query ← announceRequestQuery settings udpRequest.clientAddr block
    let (torrentList, packet) ← ofTable (announce host.inetNtop torrentList query
      dataStructurePeerProtocolUdpBit settings.interval now)
    pure (torrentList, some packet)
  else if ← isAction block socketUdpStructureActionScrape (block.length > scrapeRequestSize) then
    let hashes ← scrapeHashes block
    let query ← scrapeRequestQuery block
    let (torrentList, packet) ← ofTable (renderScrapeTorrentsPublic torrentList hashes query)
    pure (torrentList, some packet)
  else pure (torrentList, none)

section Fields

variable {block : List UInt8} {offset count : Nat}

theorem field_eq (enough : offset + count ≤ block.length) :
    ∃ bytes : Bytes count, field block offset count = .ok bytes ∧
      bytes.list = (block.drop offset).take count := by
  obtain ⟨bytes, received, content⟩ := Bytes.readAt_eq enough
  exact ⟨bytes, by rw [field, received]; rfl, content⟩

theorem readBigEndian_take (buffer : List UInt8) :
    readBigEndian (buffer.take 4) 0 = readBigEndian buffer 0 := by
  simp [readBigEndian, List.getD_eq_getElem?_getD]

theorem readLittleEndian_take (buffer : List UInt8) :
    readLittleEndian (buffer.take 4) 0 = readLittleEndian buffer 0 := by
  simp [readLittleEndian, List.getD_eq_getElem?_getD]

theorem readLittleEndian_drop (buffer : List UInt8) (offset : Nat) :
    readLittleEndian buffer offset = readLittleEndian (buffer.drop offset) 0 := by
  simp [readLittleEndian]

theorem readShort_take (buffer : List UInt8) :
    readShort (buffer.take 2) 0 = readShort buffer 0 := by
  simp [readShort, List.getD_eq_getElem?_getD]

theorem networkInt_eq (enough : offset + 4 ≤ block.length) :
    networkInt block offset = .ok (readBigEndian block offset) := by
  obtain ⟨bytes, received, content⟩ := field_eq enough
  rw [networkInt, received, ok_bind, content, readBigEndian_take, ← readBigEndian_drop]
  rfl

theorem hostInt_eq (enough : offset + 4 ≤ block.length) :
    hostInt block offset = .ok (readLittleEndian block offset) := by
  obtain ⟨bytes, received, content⟩ := field_eq enough
  rw [hostInt, received, ok_bind, content, readLittleEndian_take, ← readLittleEndian_drop]
  rfl

theorem hostLong_eq (enough : offset + 8 ≤ block.length) :
    hostLong block offset =
      .ok (Nat.ofDigits 256 (((block.drop offset).take 8).map UInt8.toNat)) := by
  obtain ⟨bytes, received, content⟩ := field_eq enough
  rw [hostLong, received, ok_bind, content]
  rfl

/-- The action is read only where it was received. -/
theorem isAction_eq {action : UInt32} {longEnough : Prop} [Decidable longEnough]
    (enough : longEnough → 12 ≤ block.length) :
    isAction block action longEnough =
      .ok (longEnough ∧ readBigEndian block 8 = action) := by
  unfold isAction
  by_cases long : longEnough
  · rw [if_pos long, networkInt_eq (enough long), ok_bind]
    simp [long]
  · rw [if_neg long]
    simp [long]

theorem announceRequestQuery_eq (settings : Settings) (clientAddr : In6Addr)
    (enough : announceRequestSize ≤ block.length) :
    announceRequestQuery settings clientAddr block = .ok (udpQuery settings clientAddr block) := by
  have whole : 98 ≤ block.length := enough
  have width : uriParamValueLength = 20 := rfl
  obtain ⟨port, portRead, portIs⟩ := field_eq (show 96 + 2 ≤ block.length by omega)
  obtain ⟨infoHash, infoHashRead, infoHashIs⟩ :=
    field_eq (show 16 + uriParamValueLength ≤ block.length by omega)
  obtain ⟨peerId, peerIdRead, peerIdIs⟩ :=
    field_eq (show 36 + uriParamValueLength ≤ block.length by omega)
  have portValue : readShort port.list 0 = readShort block 96 := by
    rw [portIs, readShort_take, ← readShort_drop]
  have infoHashValue : infoHash = Bytes.ofList uriParamValueLength (block.drop 16) := by
    apply Bytes.ext
    rw [infoHashIs, Bytes.ofList_list, List.length_drop, Nat.sub_eq_zero_of_le (by omega)]
    simp
  have peerIdValue : peerId = Bytes.ofList uriParamValueLength (block.drop 36) := by
    apply Bytes.ext
    rw [peerIdIs, Bytes.ofList_list, List.length_drop, Nat.sub_eq_zero_of_le (by omega)]
    simp
  rw [announceRequestQuery, portRead, ok_bind, networkInt_eq (by omega), ok_bind, infoHashRead, ok_bind,
    peerIdRead, ok_bind, networkInt_eq (by omega), ok_bind, hostInt_eq (by omega), ok_bind,
    portValue, infoHashValue, peerIdValue]
  rfl

end Fields

end Etracker.Udp
