import Etracker.Data.Announce

namespace Etracker

open Foundation

/-- The fields of `struct announceRequest`. The handler never reads the connection id,
the amounts of transferred data, the address and the key. -/
structure AnnouncePacket where
  connectionId : Bytes 8
  transactionId : Bytes 4
  infoHash : ParamValue
  peerId : ParamValue
  transferred : Bytes 24
  event : UInt32
  ipAndKey : Bytes 8
  numwant : UInt32
  port : UInt16

namespace AnnouncePacket

def bytes (packet : AnnouncePacket) : List UInt8 :=
  packet.connectionId.list ++ (bigEndianBytes socketUdpStructureActionAnnounce ++
    (packet.transactionId.list ++ (packet.infoHash.list ++ (packet.peerId.list ++
      (packet.transferred.list ++ (bigEndianBytes packet.event ++ (packet.ipAndKey.list ++
        (bigEndianBytes packet.numwant ++ shortBytes (htons packet.port)))))))))

end AnnouncePacket

@[simp] theorem bigEndianBytes_length (value : UInt32) : (bigEndianBytes value).length = 4 := rfl

@[simp] theorem shortBytes_length (value : UInt16) : (shortBytes value).length = 2 := rfl

theorem readBigEndian_drop (buffer : List UInt8) (offset : Nat) :
    readBigEndian buffer offset = readBigEndian (buffer.drop offset) 0 := by
  simp [readBigEndian]

theorem readShort_drop (buffer : List UInt8) (offset : Nat) :
    readShort buffer offset = readShort (buffer.drop offset) 0 := by
  simp [readShort]

theorem readBigEndian_bytes (value : UInt32) (rest : List UInt8) :
    readBigEndian (bigEndianBytes value ++ rest) 0 = value := by
  simp only [readBigEndian, bigEndianBytes, littleEndianBytes, List.reverse_cons, List.reverse_nil,
    List.nil_append, List.cons_append, List.getD_cons_zero, List.getD_cons_succ]
  apply UInt32.toBitVec_inj.mp
  apply BitVec.eq_of_getLsbD_eq
  intro bit bound
  simp only [UInt32.toBitVec_or, UInt32.toBitVec_shiftLeft, UInt32.toBitVec_shiftRight,
    UInt8.toBitVec_toUInt32, UInt32.toBitVec_toUInt8, BitVec.getLsbD_or, UInt32.toBitVec_ofNat,
    BitVec.reduceMod, BitVec.shiftLeft_eq', BitVec.ushiftRight_eq', BitVec.toNat_ofNat,
    Nat.reducePow, Nat.reduceMod, BitVec.getLsbD_shiftLeft, BitVec.getLsbD_setWidth,
    BitVec.getLsbD_ushiftRight]
  rcases (by omega : bit < 8 ∨ 8 ≤ bit ∧ bit < 16 ∨ 16 ≤ bit ∧ bit < 24 ∨ 24 ≤ bit) with
    first | second | third | fourth
  · have belowSecond : bit < 16 := by omega
    have belowThird : bit < 24 := by omega
    simp [first, belowSecond, belowThird, bound]
  · have place : 8 + (bit - 8) = bit := by omega
    simp [show ¬bit < 8 by omega, show bit < 24 by omega, show bit - 8 < 8 by omega,
      show bit - 8 < 32 by omega, second.2, bound, place]
  · have place : 16 + (bit - 16) = bit := by omega
    simp [show ¬bit < 8 by omega, show ¬bit < 16 by omega, show ¬bit - 8 < 8 by omega,
      show bit - 16 < 8 by omega, show bit - 16 < 32 by omega, third.2, bound, place]
  · have place : 24 + (bit - 24) = bit := by omega
    simp [show ¬bit < 8 by omega, show ¬bit < 16 by omega, show ¬bit < 24 by omega,
      show ¬bit - 8 < 8 by omega, show ¬bit - 16 < 8 by omega, show bit - 24 < 8 by omega,
      show bit - 24 < 32 by omega, bound, place]

theorem littleEndianBytes_join (first second third fourth : UInt8) :
    littleEndianBytes (first.toUInt32 <<< 24 ||| second.toUInt32 <<< 16 |||
      third.toUInt32 <<< 8 ||| fourth.toUInt32) = [fourth, third, second, first] := by
  simp only [littleEndianBytes, List.cons.injEq, and_true]
  refine ⟨?_, ?_, ?_, ?_⟩ <;>
  · apply UInt8.toBitVec_inj.mp
    apply BitVec.eq_of_getLsbD_eq
    intro bit bound
    simp [bound] <;> grind

theorem littleEndianBytes_read (buffer : List UInt8) (offset : Nat) :
    littleEndianBytes (readLittleEndian buffer offset) =
      bigEndianBytes (readBigEndian buffer offset) := by
  rw [readLittleEndian, bigEndianBytes, readBigEndian, littleEndianBytes_join,
    littleEndianBytes_join]
  rfl

theorem bigEndianBytes_read {buffer : List UInt8} {offset : Nat}
    (enough : offset + 4 ≤ buffer.length) :
    bigEndianBytes (readBigEndian buffer offset) = (buffer.drop offset).take 4 := by
  have whole : 4 ≤ (buffer.drop offset).length := by
    rw [List.length_drop]
    omega
  rw [readBigEndian_drop, bigEndianBytes, readBigEndian, littleEndianBytes_join]
  match buffer.drop offset, whole with
  | _ :: _ :: _ :: _ :: _, _ => rfl

theorem htons_htons (value : UInt16) : htons (htons value) = value := by
  apply UInt16.toBitVec_inj.mp
  apply BitVec.eq_of_getLsbD_eq
  intro bit bound
  simp [htons]
  grind

theorem readShort_bytes (value : UInt16) : readShort (shortBytes value) 0 = value := by
  have small : value.toNat % 256 < 2 ^ 8 := Nat.mod_lt _ (by decide)
  have halves := Nat.shiftLeft_add_eq_or_of_lt small (value.toNat / 256 % 256)
  have below := value.toNat_lt
  simp only [readShort, shortBytes, List.getD_cons_zero, List.getD_cons_succ]
  apply UInt16.toNat_inj.mp
  simp only [UInt16.toNat_or, UInt16.toNat_shiftLeft, UInt16.toNat_shiftRight,
    UInt8.toNat_toUInt16, UInt16.toNat_toUInt8, UInt16.reduceToNat, Nat.reduceMod,
    Nat.shiftRight_eq_div_pow, Nat.reducePow]
  rw [Nat.mod_eq_of_lt (by rw [Nat.shiftLeft_eq]; omega), ← halves, Nat.shiftLeft_eq]
  omega

namespace AnnouncePacket

variable (packet : AnnouncePacket)

@[simp] theorem bytes_length : packet.bytes.length = announceRequestSize := by
  simp [bytes, announceRequestSize, uriParamValueLength]

theorem drop_infoHash : packet.bytes.drop 16 =
    packet.infoHash.list ++ (packet.peerId.list ++ (packet.transferred.list ++
      (bigEndianBytes packet.event ++ (packet.ipAndKey.list ++
        (bigEndianBytes packet.numwant ++ shortBytes (htons packet.port)))))) := by
  simp [bytes, List.drop_append, List.drop_eq_nil_of_le]

theorem drop_event : packet.bytes.drop 80 =
    bigEndianBytes packet.event ++ (packet.ipAndKey.list ++
      (bigEndianBytes packet.numwant ++ shortBytes (htons packet.port))) := by
  simp [bytes, List.drop_append, List.drop_eq_nil_of_le, uriParamValueLength]

theorem drop_numwant : packet.bytes.drop 92 =
    bigEndianBytes packet.numwant ++ shortBytes (htons packet.port) := by
  rw [show 92 = 80 + 4 + 8 from rfl, ← List.drop_drop, ← List.drop_drop, drop_event,
    List.drop_left' (bigEndianBytes_length _), List.drop_left' packet.ipAndKey.length_eq]

theorem ofList_append {count : Nat} (field : Bytes count) (rest : List UInt8) :
    Bytes.ofList count (field.list ++ rest) = field := by
  apply Bytes.ext
  simp [Bytes.ofList, List.takeD_eq_take]

theorem isUdpAnnounce_bytes : isUdpAnnounce packet.bytes = true := by
  have action : readBigEndian packet.bytes 8 = socketUdpStructureActionAnnounce := by
    rw [readBigEndian_drop, bytes, List.drop_left' (by simp), readBigEndian_bytes]
  simp [isUdpAnnounce, action, announceRequestSize, connectRequestSize]

theorem udpQuery_bytes (settings : Settings) (clientAddr : In6Addr) :
    udpQuery settings clientAddr packet.bytes =
      { Query.empty with
        protocol := .udp
        port := htons packet.port
        event := packet.event.toUInt8
        infoHash := packet.infoHash
        peerId := packet.peerId
        numwant := packet.numwant
        ip := clientAddr
        ipVersion := getIpVersion clientAddr
        transactionId := readLittleEndian packet.bytes 12 : Query }.limitNumwant
          settings.maxPeersPerResponse := by
  have port : readShort packet.bytes 96 = htons packet.port := by
    rw [readShort_drop, show 96 = 92 + 4 from rfl, ← List.drop_drop, drop_numwant,
      List.drop_left' (bigEndianBytes_length _), readShort_bytes]
  have event : readBigEndian packet.bytes 80 = packet.event := by
    rw [readBigEndian_drop, drop_event, readBigEndian_bytes]
  have numwant : readBigEndian packet.bytes 92 = packet.numwant := by
    rw [readBigEndian_drop, drop_numwant, readBigEndian_bytes]
  have infoHash : Bytes.ofList uriParamValueLength (packet.bytes.drop 16) = packet.infoHash := by
    rw [drop_infoHash, ofList_append]
  have peerId : Bytes.ofList uriParamValueLength (packet.bytes.drop 36) = packet.peerId := by
    rw [show 36 = 16 + uriParamValueLength from rfl, ← List.drop_drop, drop_infoHash,
      List.drop_left' packet.infoHash.length_eq, ofList_append]
  rw [udpQuery, port, event, numwant, infoHash, peerId]

end AnnouncePacket

end Etracker
