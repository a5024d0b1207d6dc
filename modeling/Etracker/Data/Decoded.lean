import Etracker.Data.Render
import Etracker.Data.Scrape
import Etracker.Foundation.Bencode
import Etracker.Interval.Model
import Etracker.Uri.Forwarded
import Etracker.Uri.Hashes

namespace Etracker

open Foundation Foundation.CString Foundation.Bencode Foundation.Outcome Foundation.Records

structure PeerView where
  peerId : Option (List UInt8)
  ip : List UInt8
  port : Int
  deriving DecidableEq

structure AnnounceView where
  complete : Int
  incomplete : Int
  downloaded : Int
  interval : Int
  peers : List PeerView
  deriving DecidableEq

def addressSize (query : Query) : Nat :=
  if query.ipVersion &&& socketVersionIpv4Bit ≠ 0 then 4 else 16

def peersKey (query : Query) : List UInt8 :=
  if query.ipVersion &&& socketVersionIpv4Bit ≠ 0 then ascii "peers" else ascii "peers6"

section Client

def PeerView.ofRecord (size : Nat) (record : List UInt8) : PeerView where
  peerId := none
  ip := record.take size
  port := ((record.drop size).foldl (fun value byte => value * 256 + byte.toNat) 0 : Nat)

def PeerView.ofDict (value : Value) : Option PeerView := do
  let ip ← (← value.get (ascii "ip")).bytes
  let port ← (← value.get (ascii "port")).number
  pure ⟨(value.get (ascii "peer id")).bind Value.bytes, ip, port⟩

def readPeers (size : Nat) : Value → Option (List PeerView)
  | .string bytes =>
      if bytes.length % (size + 2) = 0 then
        some ((records (size + 2) (bytes.length / (size + 2)) bytes).map (PeerView.ofRecord size))
      else none
  | .list values => values.mapM PeerView.ofDict
  | _ => none

def readAnnounce (query : Query) (body : List UInt8) : Option AnnounceView := do
  let value ← decode body
  let complete ← (← value.get (ascii "complete")).number
  let incomplete ← (← value.get (ascii "incomplete")).number
  let downloaded ← (← value.get (ascii "downloaded")).number
  let interval ← (← value.get (ascii "interval")).number
  let peers ← readPeers (addressSize query) (← value.get (peersKey query))
  pure ⟨complete, incomplete, downloaded, interval, peers⟩

def readCounters (value : Value) : Option (Int × Int × Int) := do
  let complete ← (← value.get (ascii "complete")).number
  let incomplete ← (← value.get (ascii "incomplete")).number
  let downloaded ← (← value.get (ascii "downloaded")).number
  pure (complete, incomplete, downloaded)

def readScrape (body : List UInt8) : Option (List (List UInt8 × Int × Int × Int)) := do
  let value ← decode body
  match ← value.get (ascii "files") with
  | .dict entries => entries.mapM fun entry => do
      let counters ← readCounters entry.2
      pure (entry.1, counters)
  | _ => none

end Client

/-- An unsigned number, as `%d` takes it. -/
def signed (value : UInt32) : Int := (value.toNat : Int).bmod (2 ^ 32)

theorem decimalOfUnsigned_eq (value : UInt32) : decimalOfUnsigned value = numberText (signed value) :=
  rfl

theorem signed_eq_iff (value : UInt32) : signed value = value.toNat ↔ value.toNat < 2 ^ 31 := by
  constructor
  · intro same
    have below : signed value < 2 ^ 31 := Int.bmod_lt (by decide)
    rw [same] at below
    exact_mod_cast below
  · intro small
    exact Int.bmod_eq_of_le (by omega) (by omega)

theorem signed_ofNat {length : Nat} (short : length < 2 ^ 31) :
    signed (UInt32.ofNat length) = length := by
  have whole : (UInt32.ofNat length).toNat = length := by
    rw [UInt32.toNat_ofNat']
    exact Nat.mod_eq_of_lt (by omega)
  have number : signed (UInt32.ofNat length) = (UInt32.ofNat length).toNat :=
    (signed_eq_iff _).mpr (by rw [whole]; exact short)
  exact number.trans (congrArg Int.ofNat whole)

section Announce

variable (inetNtop : InetNtop) (query : Query)

def addressBytes (peerDataL : PeerData) : List UInt8 :=
  if query.ipVersion &&& socketVersionIpv4Bit ≠ 0 then peerDataL.ip4.list.drop 12
  else peerDataL.ip6.list

def viewOf (peer : Hash × PeerData) : PeerView :=
  if query.compact = true then ⟨none, addressBytes query peer.2, (htons peer.2.port).toNat⟩
  else
    { peerId := if query.noPeerId = true then none else some peer.1
      ip := int2ip inetNtop (addressOf query peer.2) query.ipVersion
      port := (htons peer.2.port).toNat }

def peerValue (peer : Hash × PeerData) : Value :=
  let ip := .string (int2ip inetNtop (addressOf query peer.2) query.ipVersion)
  let port := .integer (htons peer.2.port).toNat
  if query.noPeerId = true then .dict [(ascii "port", port), (ascii "ip", ip)]
  else .dict [(ascii "port", port), (ascii "peer id", .string peer.1), (ascii "ip", ip)]

def peersValue (rendered : List (Hash × PeerData)) : Value :=
  if query.compact = true then
    .string (rendered.flatMap fun peer => addressBytes query peer.2 ++ shortBytes peer.2.port)
  else .list (rendered.map (peerValue inetNtop query))

def headEntries (counters : TorrentCounters) (interval : UInt32) : List (List UInt8 × Value) :=
  [(ascii "complete", .integer (signed counters.complete)),
    (ascii "incomplete", .integer (signed counters.incomplete)),
    (ascii "downloaded", .integer (signed counters.downloaded)),
    (ascii "interval", .integer (signed interval))]

def announceValue (counters : TorrentCounters) (interval : UInt32)
    (rendered : List (Hash × PeerData)) : Value :=
  .dict (headEntries counters interval ++ [(peersKey query, peersValue inetNtop query rendered)])

variable {query}

theorem renderPeer_compact (compact : query.compact = true)
    (peer : Hash × PeerData) :
    renderPeer inetNtop query peer.1 peer.2 =
      addressBytes query peer.2 ++ shortBytes peer.2.port := by
  simp only [renderPeer, compact, true_or, if_true, addressBytes]

theorem renderPeer_dict (tcp : query.protocol = .tcp) (full : query.compact = false)
    {peer : Hash × PeerData} (length : peer.1.length = uriParamValueLength) :
    renderPeer inetNtop query peer.1 peer.2 = encode (peerValue inetNtop query peer) := by
  have port : ascii "d4:porti" = 100 :: (stringText (ascii "port") ++ [105]) := by decide +kernel
  have ip : ascii "e2:ip" = 101 :: stringText (ascii "ip") := by decide +kernel
  have ip' : ascii "2:ip" = stringText (ascii "ip") := by decide +kernel
  have peerId : ascii "e7:peer id" = 101 :: stringText (ascii "peer id") := by decide +kernel
  have ends : ascii "e" = [101] := by decide
  have colon : ascii ":" = [58] := by decide
  have number : ∀ value : Int, decimal value = numberText value := fun _ => rfl
  unfold renderPeer peerValue
  simp only [full, tcp, reduceCtorEq, Bool.false_eq_true, or_self, if_false]
  split_ifs with noPeerId
  · simp only [port, ip, ends, colon, number, encode, encodeEntries, stringText,
      List.append_assoc, List.cons_append, List.nil_append, List.append_nil]
  · simp only [port, ip', peerId, ends, colon, number, ← length, List.take_length, encode,
      encodeEntries, stringText, List.append_assoc, List.cons_append, List.nil_append, List.append_nil]

theorem encodeValues_map {α : Type} (value : α → Value) (items : List α) :
    encodeValues (items.map value) = items.flatMap fun item => encode (value item) := by
  induction items with
  | nil => rfl
  | cons item rest ih => rw [List.map_cons, encodeValues, ih, List.flatMap_cons]

theorem encodeEntries_append (first second : List (List UInt8 × Value)) :
    encodeEntries (first ++ second) = encodeEntries first ++ encodeEntries second := by
  induction first with
  | nil => rfl
  | cons entry rest ih =>
      rw [List.cons_append, encodeEntries, encodeEntries, ih]
      simp only [List.append_assoc]

theorem text_integer {opening key : List UInt8} {letter : UInt8}
    (written : opening = letter :: (stringText key ++ [105])) (number : Int)
    (rest : List (List UInt8 × Value)) :
    letter :: encodeEntries ((key, .integer number) :: rest) =
      opening ++ (numberText number ++ (101 :: encodeEntries rest)) := by
  rw [written, encodeEntries, encode]
  simp only [List.append_assoc, List.cons_append, List.nil_append]

theorem complete_text :
    ascii "d8:completei" = 100 :: (stringText (ascii "complete") ++ [105]) := by decide +kernel

theorem incomplete_text :
    ascii "e10:incompletei" = 101 :: (stringText (ascii "incomplete") ++ [105]) := by
  decide +kernel

theorem downloaded_text :
    ascii "e10:downloadedi" = 101 :: (stringText (ascii "downloaded") ++ [105]) := by
  decide +kernel

theorem headEntries_encode (counters : TorrentCounters) (interval : UInt32) :
    ascii "d8:completei" ++ decimalOfUnsigned counters.complete ++ ascii "e10:incompletei" ++
      decimalOfUnsigned counters.incomplete ++ ascii "e10:downloadedi" ++
      decimalOfUnsigned counters.downloaded ++ ascii "e8:intervali" ++
      decimalOfUnsigned interval ++ ascii "e" =
    100 :: encodeEntries (headEntries counters interval) := by
  have isInterval : ascii "e8:intervali" = 101 :: (stringText (ascii "interval") ++ [105]) := by
    decide +kernel
  have ends : 101 :: encodeEntries [] = ascii "e" := by decide
  rw [headEntries, text_integer complete_text, text_integer incomplete_text,
    text_integer downloaded_text, text_integer isInterval, ends]
  simp only [decimalOfUnsigned_eq, List.append_assoc]

theorem announceHead_eq (tcp : query.protocol = .tcp) (counters : TorrentCounters)
    (interval : UInt32) {length : Nat} (short : query.compact = true → length < 2 ^ 31) :
    announceHead counters query interval length =
      100 :: (encodeEntries (headEntries counters interval) ++ (stringText (peersKey query) ++
        if query.compact = true then numberText length ++ [58] else [108])) := by
  have key : (if query.ipVersion &&& socketVersionIpv4Bit ≠ 0 then ascii "5:peers"
      else ascii "6:peers6") = stringText (peersKey query) := by
    unfold peersKey
    split_ifs <;> decide +kernel
  have colon : ascii ":" = [58] := by decide
  have opens : ascii "l" = [108] := by decide
  have notUdp : ¬query.protocol = .udp := by
    rw [tcp]
    decide
  unfold announceHead
  dsimp only
  rw [if_neg notUdp, key, headEntries_encode]
  split_ifs with compact
  · rw [decimalOfUnsigned_eq, signed_ofNat (short compact), colon]
    simp only [List.append_assoc, List.cons_append]
  · rw [opens]
    simp only [List.append_assoc, List.cons_append]

theorem announce_encodes (tcp : query.protocol = .tcp) (counters : TorrentCounters)
    (interval : UInt32) {rendered : List (Hash × PeerData)}
    (sized : ∀ peer ∈ rendered, peer.1.length = uriParamValueLength) {block : List UInt8}
    (content : block = rendered.flatMap fun peer => renderPeer inetNtop query peer.1 peer.2)
    (short : query.compact = true → block.length < 2 ^ 31) :
    announceHead counters query interval block.length ++ block ++ announceTail query =
      encode (announceValue inetNtop query counters interval rendered) := by
  have notUdp : ¬query.protocol = .udp := by
    rw [tcp]
    decide
  have ends : ascii "e" = [101] := by decide
  have ends' : ascii "ee" = [101, 101] := by decide
  rw [announceHead_eq tcp counters interval short, announceTail, if_neg notUdp, announceValue,
    encode, encodeEntries_append, encodeEntries, encodeEntries, peersValue]
  cases form : query.compact with
  | true =>
      have bytes : rendered.flatMap (fun peer => addressBytes query peer.2 ++
          shortBytes peer.2.port) = block := by
        rw [content]
        exact List.flatMap_congr fun peer _ => (renderPeer_compact inetNtop form peer).symm
      rw [if_pos rfl, if_pos rfl, if_pos rfl, bytes, encode, ends]
      simp only [stringText, List.append_assoc, List.cons_append, List.nil_append]
  | false =>
      have values : encodeValues (rendered.map (peerValue inetNtop query)) = block := by
        rw [encodeValues_map, content]
        exact List.flatMap_congr fun peer member =>
          (renderPeer_dict inetNtop tcp form (sized peer member)).symm
      rw [if_neg Bool.false_ne_true, if_neg Bool.false_ne_true, if_neg Bool.false_ne_true, encode,
        values, ends']
      simp only [List.append_assoc, List.cons_append, List.nil_append]

theorem addressBytes_length (peerDataL : PeerData) :
    (addressBytes query peerDataL).length = addressSize query := by
  unfold addressBytes addressSize
  split_ifs
  · rw [List.length_drop, peerDataL.ip4.length_eq]
  · exact peerDataL.ip6.length_eq

theorem ofRecord_shortBytes {size : Nat} {address : List UInt8} (length : address.length = size)
    (port : UInt16) :
    PeerView.ofRecord size (address ++ shortBytes port) = ⟨none, address, (htons port).toNat⟩ := by
  have value : (shortBytes port).foldl (fun value byte => value * 256 + byte.toNat) 0 =
      (htons port).toNat := by
    have bound := port.toNat_lt
    have high : port.toNat / 256 < 2 ^ 8 := by omega
    have upper : port.toNat * 256 % 65536 = 2 ^ 8 * (port.toNat % 256) := by omega
    simp only [shortBytes, List.foldl_cons, List.foldl_nil, htons, UInt16.toNat_or,
      UInt16.toNat_shiftLeft, UInt16.toNat_shiftRight, UInt16.toNat_toUInt8, UInt16.reduceToNat,
      Nat.reduceMod, Nat.shiftLeft_eq, Nat.shiftRight_eq_div_pow, Nat.reducePow]
    rw [upper, ← Nat.two_pow_add_eq_or_of_lt high]
    omega
  rw [PeerView.ofRecord, List.take_left' length, List.drop_left' length, value]

theorem ofDict_peerValue (full : query.compact = false) (peer : Hash × PeerData) :
    PeerView.ofDict (peerValue inetNtop query peer) = some (viewOf inetNtop query peer) := by
  unfold peerValue viewOf
  simp only [full, Bool.false_eq_true, if_false]
  split_ifs <;> rfl

theorem readPeers_peersValue (rendered : List (Hash × PeerData)) :
    readPeers (addressSize query) (peersValue inetNtop query rendered) =
      some (rendered.map (viewOf inetNtop query)) := by
  cases form : query.compact with
  | true =>
      let entries := rendered.map fun peer =>
        addressBytes query peer.2 ++ shortBytes peer.2.port
      have sized : ∀ entry ∈ entries, entry.length = addressSize query + 2 := by
        intro entry member
        obtain ⟨peer, _, rfl⟩ := List.mem_map.mp member
        rw [List.length_append, addressBytes_length]
        rfl
      have bytes : peersValue inetNtop query rendered = .string entries.flatten := by
        simp only [peersValue, form, if_true, entries, List.flatMap_def]
      have length := length_flatten_of_sized sized
      have count : entries.flatten.length / (addressSize query + 2) = entries.length := by
        rw [length]
        exact Nat.mul_div_cancel_left _ (Nat.succ_pos _)
      have read := records_flatten sized []
      rw [List.append_nil] at read
      rw [bytes, readPeers, if_pos (by rw [length]; exact Nat.mul_mod_right _ _), count, read,
        List.map_map]
      refine congrArg some (List.map_congr_left fun peer _ => ?_)
      rw [viewOf, if_pos form]
      exact ofRecord_shortBytes (addressBytes_length peer.2) peer.2.port
  | false =>
      have values : peersValue inetNtop query rendered =
          .list (rendered.map (peerValue inetNtop query)) := by
        simp only [peersValue, form, Bool.false_eq_true, if_false]
      rw [values, readPeers]
      induction rendered with
      | nil => rfl
      | cons peer rest ih =>
          have later := ih (by simp only [peersValue, form, Bool.false_eq_true, if_false])
          rw [List.map_cons, List.mapM_cons, ofDict_peerValue inetNtop form, later]
          rfl

theorem readAnnounce_encode (counters : TorrentCounters) (interval : UInt32)
    (rendered : List (Hash × PeerData)) :
    readAnnounce query (encode (announceValue inetNtop query counters interval rendered)) =
      some ⟨signed counters.complete, signed counters.incomplete, signed counters.downloaded,
        signed interval, rendered.map (viewOf inetNtop query)⟩ := by
  have peers : (announceValue inetNtop query counters interval rendered).get (peersKey query) =
      some (peersValue inetNtop query rendered) := by
    unfold announceValue peersKey
    split_ifs <;> rfl
  rw [readAnnounce, decode_encode, Option.bind_eq_bind, Option.bind_some, peers]
  simp only [Option.bind_eq_bind, Option.bind_some, readPeers_peersValue]
  rfl

end Announce

section Scrape

def countersValue (counters : TorrentCounters) : Value :=
  .dict [(ascii "complete", .integer (signed counters.complete)),
    (ascii "incomplete", .integer (signed counters.incomplete)),
    (ascii "downloaded", .integer (signed counters.downloaded))]

def scrapeValue (torrentList : TorrentList) (hashes : List Hash) : Value :=
  .dict [(ascii "files",
    .dict (hashes.map fun hash => (hash, countersValue (countersAt torrentList hash))))]

theorem countersValue_encode (counters : TorrentCounters) :
    ascii "d8:completei" ++ decimalOfUnsigned counters.complete ++ ascii "e10:incompletei" ++
      decimalOfUnsigned counters.incomplete ++ ascii "e10:downloadedi" ++
      decimalOfUnsigned counters.downloaded ++ ascii "ee" =
    encode (countersValue counters) := by
  have ends : 101 :: encodeEntries [] = ascii "e" := by decide
  have ends' : ascii "ee" = ascii "e" ++ [101] := by decide
  rw [countersValue, encode, ← List.cons_append, text_integer complete_text,
    text_integer incomplete_text, text_integer downloaded_text, ends, ends']
  simp only [decimalOfUnsigned_eq, List.append_assoc]

theorem scrapeEntry_encode (torrentList : TorrentList) {hash : Hash}
    (length : hash.length = uriParamValueLength) :
    scrapeEntry torrentList .tcp hash =
      stringText hash ++ encode (countersValue (countersAt torrentList hash)) := by
  have whole : (Bytes.ofList uriParamValueLength hash).list = hash := by
    rw [Bytes.ofList_list, length, Nat.sub_self, List.replicate_zero, List.append_nil,
      List.take_of_length_le (Nat.le_of_eq length)]
  have size : ascii "20:" = numberText uriParamValueLength ++ [58] := by decide +kernel
  rw [scrapeEntry, renderScrapeTorrentL, whole, ← countersValue_encode, stringText, length, size]
  simp only [List.append_assoc, List.cons_append, List.nil_append]

theorem decimalOfUnsigned_length_le (value : UInt32) : (decimalOfUnsigned value).length ≤ 11 := by
  have below : signed value < 2 ^ 31 := Int.bmod_lt (by decide)
  have above : -(2 ^ 31) ≤ signed value := Int.le_bmod (by decide)
  have figures : ∀ number : Nat, number < 10 ^ 10 → (numberText number).length ≤ 10 := by
    intro number small
    rw [numberText_natCast, List.length_map]
    exact (Nat.length_toDigits_le_iff (by decide) (by decide)).mpr small
  rw [decimalOfUnsigned_eq]
  generalize signed value = number at below above
  cases number with
  | ofNat magnitude =>
      have small : (magnitude : Int) < 2 ^ 31 := below
      exact Nat.le_succ_of_le (figures magnitude (by omega))
  | negSucc magnitude =>
      rw [numberText_neg (Int.negSucc_lt_zero magnitude), List.length_cons]
      exact Nat.succ_le_succ (figures _ (by omega))

theorem scrapeEntry_length (torrentList : TorrentList) (hash : Hash) :
    (scrapeEntry torrentList .tcp hash).length ≤ 100 := by
  have complete := decimalOfUnsigned_length_le (countersAt torrentList hash).complete
  have incomplete := decimalOfUnsigned_length_le (countersAt torrentList hash).incomplete
  have downloaded := decimalOfUnsigned_length_le (countersAt torrentList hash).downloaded
  have copied : (Bytes.ofList uriParamValueLength hash).list.length = 20 := Bytes.length_eq _
  have texts : (ascii "20:").length = 3 ∧ (ascii "d8:completei").length = 12 ∧
      (ascii "e10:incompletei").length = 15 ∧ (ascii "e10:downloadedi").length = 15 ∧
      (ascii "ee").length = 2 := by decide
  simp only [scrapeEntry, renderScrapeTorrentL, List.length_append]
  omega

theorem readScrape_encode (torrentList : TorrentList) (hashes : List Hash) :
    readScrape (encode (scrapeValue torrentList hashes)) = some (hashes.map fun hash =>
      (hash, signed (countersAt torrentList hash).complete,
        signed (countersAt torrentList hash).incomplete,
        signed (countersAt torrentList hash).downloaded)) := by
  have files : (scrapeValue torrentList hashes).get (ascii "files") =
      some (.dict (hashes.map fun hash => (hash, countersValue (countersAt torrentList hash)))) :=
    rfl
  rw [readScrape, decode_encode, Option.bind_eq_bind, Option.bind_some, files,
    Option.bind_eq_bind, Option.bind_some]
  dsimp only
  induction hashes with
  | nil => rfl
  | cons hash rest ih =>
      rw [List.map_cons, List.mapM_cons, ih rfl]
      rfl

theorem renderScrapeTorrentsPublic_encodes {torrentList : TorrentList} (table : TableInv torrentList)
    {query : Query} (tcp : query.protocol = .tcp) {hashes : List Hash}
    (sized : ∀ hash ∈ hashes, hash.length = uriParamValueLength)
    (room : 100 * hashes.length < dataMaxPacketSize) :
    renderScrapeTorrentsPublic torrentList hashes.flatten query =
      .ok (torrentList, encode (scrapeValue torrentList hashes)) := by
  have length := length_flatten_of_sized sized
  have count : hashes.flatten.length / uriParamValueLength = hashes.length := by
    rw [length]
    exact Nat.mul_div_cancel_left _ (by decide)
  have read := records_flatten sized []
  rw [List.append_nil] at read
  have entries : (hashes.map (scrapeEntry torrentList .tcp)).flatten = encodeEntries
      (hashes.map fun hash => (hash, countersValue (countersAt torrentList hash))) := by
    clear length count read room
    induction hashes with
    | nil => rfl
    | cons hash rest ih =>
        rw [List.map_cons, List.flatten_cons, List.map_cons, encodeEntries,
          scrapeEntry_encode torrentList (sized hash List.mem_cons_self),
          ih fun other member => sized other (List.mem_cons_of_mem _ member)]
  have opens : ascii "d5:filesd" = 100 :: (stringText (ascii "files") ++ [100]) := by
    decide +kernel
  have ends : ascii "ee" = [101, 101] := by decide
  have short : ∀ hash, (scrapeEntry torrentList query.protocol hash).length ≤ 100 := by
    intro hash
    rw [tcp]
    exact scrapeEntry_length torrentList hash
  rw [renderScrapeTorrentsPublic_eq table short (by rw [count]; exact room), count, read, tcp,
    entries, scrapeHead, scrapeTail, tcp, scrapeValue, encode, encodeEntries, encodeEntries, encode]
  dsimp only
  rw [opens, ends]
  simp only [List.append_assoc, List.cons_append, List.nil_append, List.append_nil]

end Scrape

structure TorrentCounters.Small (counters : TorrentCounters) : Prop where
  complete : counters.complete.toNat < 2 ^ 31
  incomplete : counters.incomplete.toNat < 2 ^ 31
  downloaded : counters.downloaded.toNat < 2 ^ 31

def TorrentCounters.view (counters : TorrentCounters) : Int × Int × Int :=
  (counters.complete.toNat, counters.incomplete.toNat, counters.downloaded.toNat)

/-- The torrent of an announce: one of the table, or a null pointer. -/
inductive AnnouncedFor (torrentList : TorrentList) :
    Option Address → TorrentCounters → List (Hash × PeerData) → Prop
  | null : AnnouncedFor torrentList none ⟨0, 0, 0⟩ []
  | stored {entry : Entry TorrentData} {torrentDataL : TorrentData} :
      entry ∈ torrentList.entries → entry.2.data = some torrentDataL →
      AnnouncedFor torrentList (some entry.1) torrentDataL.toTorrentCounters
        torrentDataL.peerList.pairs

/-- A client reads the counters, the interval and the peers that were rendered, in list order. -/
def AnnounceDecodes (inetNtop : InetNtop) (query : Query) (counters : TorrentCounters)
    (interval : UInt32) (peers : List (Hash × PeerData)) (body : List UInt8) : Prop :=
  ∃ rendered : List (Hash × PeerData), rendered.Sublist peers ∧
    (∀ peer ∈ rendered, matchesVersion query peer = true) ∧
    renderPairs inetNtop query peers [] query.numwant =
      rendered.flatMap (fun peer => renderPeer inetNtop query peer.1 peer.2) ∧
    readAnnounce query body = some ⟨counters.complete.toNat, counters.incomplete.toNat,
      counters.downloaded.toNat, interval.toNat, rendered.map (viewOf inetNtop query)⟩

section Rendered

variable (inetNtop : InetNtop) {torrentList : TorrentList} {torrent : Option Address}
  {counters : TorrentCounters} {peers : List (Hash × PeerData)}

theorem AnnouncedFor.hash_length (table : TableInv torrentList)
    (announced : AnnouncedFor torrentList torrent counters peers) :
    ∀ peer ∈ peers, peer.1.length = uriParamValueLength := by
  cases announced with
  | null => exact fun _ member => absurd member List.not_mem_nil
  | @stored entry torrentDataL member data =>
      have pair : (entry.2.hash, torrentDataL) ∈ torrentList.pairs :=
        List.mem_filterMap.mpr ⟨entry, member, entryPair_eq_some_iff.mpr ⟨rfl, data⟩⟩
      have sound := table.table.torrents _ pair
      intro peer inside
      obtain ⟨stored, present, isPair⟩ := List.mem_filterMap.mp inside
      have length := (entry_facts sound.inv.linked present).1
      rw [(entryPair_eq_some_iff.mp isPair).1, sound.hashLength] at length
      exact length

theorem AnnouncedFor.renders (table : TableInv torrentList)
    (announced : AnnouncedFor torrentList torrent counters peers) (query : Query)
    (interval : UInt32) :
    renderAnnouncePublic inetNtop torrentList torrent query interval =
      .ok (announceHead counters query interval
          (renderPairs inetNtop query peers [] query.numwant).length ++
        renderPairs inetNtop query peers [] query.numwant ++ announceTail query) := by
  cases announced with
  | null =>
      rw [renderAnnouncePublic, renderPairs, List.append_nil]
      rfl
  | @stored entry torrentDataL member data =>
      have pair : (entry.2.hash, torrentDataL) ∈ torrentList.pairs :=
        List.mem_filterMap.mpr ⟨entry, member, entryPair_eq_some_iff.mpr ⟨rfl, data⟩⟩
      simp only [renderAnnouncePublic, dataOf_eq table.inv.linked member data, ok_bind,
        renderAnnouncePeersL_eq inetNtop (table.table.torrents _ pair), pure_eq_ok]

/-- A reply of the compact form exceeds the packet by one peer at most. -/
theorem renderPairs_compact_length (query : Query) (peers : List (Hash × PeerData))
    (compact : query.compact = true) :
    (renderPairs inetNtop query peers [] query.numwant).length < 2 ^ 31 := by
  have sized : ∀ peer ∈ peers, (renderPeer inetNtop query peer.1 peer.2).length ≤ 18 := by
    intro peer _
    have size : addressSize query ≤ 16 := by
      unfold addressSize
      split_ifs <;> decide
    have ports : (shortBytes peer.2.port).length = 2 := rfl
    rw [renderPeer_compact inetNtop compact, List.length_append, addressBytes_length, ports]
    exact Nat.add_le_add_right size 2
  have short := renderPairs_length_lt inetNtop query sized [] query.numwant (by decide)
  rw [dataMaxPacketSize] at short
  omega

theorem AnnouncedFor.small (announced : AnnouncedFor torrentList torrent counters peers)
    (small : ∀ pair ∈ torrentList.pairs, pair.2.toTorrentCounters.Small) : counters.Small := by
  cases announced with
  | null => exact ⟨by decide, by decide, by decide⟩
  | @stored entry torrentDataL member data =>
      exact small _ (List.mem_filterMap.mpr ⟨entry, member, entryPair_eq_some_iff.mpr ⟨rfl, data⟩⟩)

theorem countersAt_small (table : TableInv torrentList)
    (small : ∀ pair ∈ torrentList.pairs, pair.2.toTorrentCounters.Small) (hash : Hash) :
    (countersAt torrentList hash).Small := by
  unfold countersAt
  cases found : torrentList.value hash with
  | none => exact ⟨by decide, by decide, by decide⟩
  | some torrentDataL => exact small _ ((value_eq_some_iff table.inv.linked).mp found)

/-- The bodies of announces and scrapes decode to what was rendered, whatever the torrents, as long
as the interval that `%d` prints is no negative number. -/
theorem bodies_decode_iff {torrentList : TorrentList} (table : TableInv torrentList)
    (small : ∀ pair ∈ torrentList.pairs, pair.2.toTorrentCounters.Small) :
    (∀ torrent counters peers, AnnouncedFor torrentList torrent counters peers →
      ∀ query : Query, query.protocol = .tcp → ∀ interval : UInt32,
      ∃ body, renderAnnouncePublic inetNtop torrentList torrent query interval = .ok body ∧
        (AnnounceDecodes inetNtop query counters interval peers body ↔ interval.toNat < 2 ^ 31)) ∧
    ∀ (inetPton : InetPton) (readBuffer : List UInt8),
      readBuffer.length < threadClientTcpReceivedMessageLength →
      (parseUri inetPton Query.empty (some []) false readBuffer).2 =
        some (requestedHashes readBuffer).flatten ∧
      ∃ body, renderScrapeTorrentsPublic torrentList (requestedHashes readBuffer).flatten
          (parseUri inetPton Query.empty (some []) false readBuffer).1 = .ok (torrentList, body) ∧
        readScrape body = some ((requestedHashes readBuffer).map fun hash =>
          (hash, (countersAt torrentList hash).view)) := by
  constructor
  · intro torrent counters peers announced query tcp interval
    obtain ⟨rendered, sublist, versions, content, _⟩ :=
      renderPairs_spec inetNtop query peers [] query.numwant
    rw [List.nil_append] at content
    have sized : ∀ peer ∈ rendered, peer.1.length = uriParamValueLength :=
      fun peer member => announced.hash_length table peer (sublist.subset member)
    have encodes := announce_encodes inetNtop tcp counters interval sized content
      (renderPairs_compact_length inetNtop query peers)
    have counted := announced.small small
    refine ⟨_, announced.renders inetNtop table query interval, ?_⟩
    rw [encodes, ← signed_eq_iff]
    constructor
    · intro ⟨_, _, _, _, told⟩
      rw [readAnnounce_encode] at told
      exact (AnnounceView.mk.inj (Option.some.inj told)).2.2.2.1
    · intro printed
      refine ⟨rendered, sublist, versions, content, ?_⟩
      rw [readAnnounce_encode, printed, (signed_eq_iff _).mpr counted.complete,
        (signed_eq_iff _).mpr counted.incomplete, (signed_eq_iff _).mpr counted.downloaded]
  · intro inetPton readBuffer short
    have bounded := requestedHashes_length readBuffer
    have room : 100 * (requestedHashes readBuffer).length < dataMaxPacketSize := by
      rw [threadClientTcpReceivedMessageLength] at short
      rw [dataMaxPacketSize]
      omega
    have rendered := renderScrapeTorrentsPublic_encodes table (parseUri_tcp inetPton readBuffer)
      (fun hash => requestedHashes_sized) room
    refine ⟨parseUri_hashes inetPton readBuffer, _, rendered, ?_⟩
    rw [readScrape_encode]
    refine congrArg some (List.map_congr_left fun hash _ => ?_)
    have counters := countersAt_small table small hash
    rw [(signed_eq_iff _).mpr counters.complete, (signed_eq_iff _).mpr counters.incomplete,
      (signed_eq_iff _).mpr counters.downloaded]
    rfl

end Rendered

/-- After the first announce of all its peer is read out of the reply. -/
theorem bodies_decode_iff_first :
    ∃ torrentList torrent counters body,
      AnnouncedFor torrentList (some torrent) counters
        [((announceQuery uriEventIdStarted 1).peerId.list, PeerData.empty.update
          (announceQuery uriEventIdStarted 1) dataStructurePeerProtocolTcpBit 1000)] ∧
      renderAnnouncePublic (fun _ _ => ascii "10.0.0.1") torrentList (some torrent)
        (announceQuery uriEventIdStarted 1) 1799 = .ok body ∧
      AnnounceDecodes (fun _ _ => ascii "10.0.0.1") (announceQuery uriEventIdStarted 1) counters
        1799 [((announceQuery uriEventIdStarted 1).peerId.list, PeerData.empty.update
          (announceQuery uriEventIdStarted 1) dataStructurePeerProtocolTcpBit 1000)] body := by
  obtain ⟨torrentList, _, torrentDataL, _, table, _, pairs, _, peers, counters⟩ :=
    setPeerPublic_first (announceQuery uriEventIdStarted 1) dataStructurePeerProtocolTcpBit 1000
  have small : ∀ pair ∈ torrentList.pairs, pair.2.toTorrentCounters.Small := by
    rw [pairs, List.forall_mem_singleton, counters]
    exact ⟨by decide, by decide, by decide⟩
  have stored : ((announceQuery uriEventIdStarted 1).infoHash.list, torrentDataL) ∈
      torrentList.pairs := by
    rw [pairs]
    exact List.mem_singleton_self _
  obtain ⟨entry, member, isPair⟩ := List.mem_filterMap.mp stored
  have announced := AnnouncedFor.stored member (entryPair_eq_some_iff.mp isPair).2
  rw [peers] at announced
  obtain ⟨body, rendered, decodes⟩ := (bodies_decode_iff (fun _ _ => ascii "10.0.0.1") table
    small).1 _ _ _ announced (announceQuery uriEventIdStarted 1) rfl 1799
  exact ⟨_, _, _, body, announced, rendered, decodes.mpr (by decide)⟩

/-- The option `-i -1` is taken, and the clients are told an interval below zero. -/
theorem bodies_misread :
    ∃ arguments : Arguments Nat,
      parseArguments (fun _ => 0) 1 [ascii "-i", ascii "-1"] = .ok arguments ∧
      (Interval.start arguments).interval = 4294967295 ∧
      renderAnnouncePublic (fun _ _ => ascii "10.0.0.1") emptyTorrentList none
          (announceQuery uriEventIdStopped 50) (Interval.start arguments).interval =
        .ok (ascii "d8:completei0e10:incompletei0e10:downloadedi0e8:intervali-1e5:peers0:e") ∧
      ¬AnnounceDecodes (fun _ _ => ascii "10.0.0.1") (announceQuery uriEventIdStopped 50) ⟨0, 0, 0⟩
        (Interval.start arguments).interval []
        (ascii "d8:completei0e10:incompletei0e10:downloadedi0e8:intervali-1e5:peers0:e") := by
  have read : readAnnounce (announceQuery uriEventIdStopped 50)
      (ascii "d8:completei0e10:incompletei0e10:downloadedi0e8:intervali-1e5:peers0:e") =
      some ⟨0, 0, 0, -1, []⟩ := by decide +kernel
  refine ⟨_, rfl, by decide, by decide +kernel, ?_⟩
  intro ⟨_, _, _, _, told⟩
  rw [read] at told
  have interval := (AnnounceView.mk.inj (Option.some.inj told)).2.2.2.1
  revert interval
  decide

end Etracker
