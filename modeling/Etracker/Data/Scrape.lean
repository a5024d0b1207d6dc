import Etracker.Data.Packet
import Etracker.Data.Torrents
import Etracker.Foundation.Records

namespace Etracker

open Foundation Foundation.CString Foundation.Outcome Foundation.Records

def socketUdpStructureActionScrape : UInt32 := 2

def scrapeTorrentResponse (torrentDataL : TorrentCounters) : List UInt8 :=
  bigEndianBytes torrentDataL.complete ++ bigEndianBytes torrentDataL.downloaded ++
    bigEndianBytes torrentDataL.incomplete

def renderScrapeTorrentL (torrentDataL : TorrentCounters) (hash : ParamValue) :
    Protocol → List UInt8
  | .udp => scrapeTorrentResponse torrentDataL
  | .tcp => ascii "20:" ++ hash.list ++ ascii "d8:completei" ++
      decimalOfUnsigned torrentDataL.complete ++ ascii "e10:incompletei" ++
      decimalOfUnsigned torrentDataL.incomplete ++ ascii "e10:downloadedi" ++
      decimalOfUnsigned torrentDataL.downloaded ++ ascii "ee"

/-- The counters that `renderScrapeTorrentL` copies: a null torrent counts nobody. -/
def scrapeCounters (torrentList : TorrentList) : Option Address → Except Fault TorrentCounters
  | none => pure ⟨0, 0, 0⟩
  | some torrent => do
      let torrentDataL ← torrentList.dataOf torrent
      pure torrentDataL.toTorrentCounters

def hashAt (hashes : List UInt8) (index : Nat) : Except Fault ParamValue :=
  match Bytes.readAt hashes (index * uriParamValueLength) uriParamValueLength with
  | none => throw .dangling
  | some hash => pure hash

def renderScrapeHashes (hashes : List UInt8) (protocol : Protocol) :
    List Nat → TorrentList → List UInt8 → Except Fault (TorrentList × List UInt8)
  | [], torrentList, scrapeBlock => pure (torrentList, scrapeBlock)
  | index :: rest, torrentList, scrapeBlock => do
      let hash ← hashAt hashes index
      let leaf := torrentList.getLeaf hash.list
      let torrentList ← waitSemaphoreLeaf torrentList leaf
      let torrent ← getHash torrentList hash.list
      let torrentDataL ← scrapeCounters torrentList torrent
      let scrapeBlock := scrapeBlock ++ renderScrapeTorrentL torrentDataL hash protocol
      let torrentList ← postSemaphoreLeaf torrentList leaf
      if scrapeBlock.length ≥ dataMaxPacketSize then pure (torrentList, scrapeBlock)
      else renderScrapeHashes hashes protocol rest torrentList scrapeBlock

def scrapeHead (query : Query) : List UInt8 :=
  match query.protocol with
  | .udp => bigEndianBytes socketUdpStructureActionScrape ++
      littleEndianBytes query.transactionId
  | .tcp => ascii "d5:filesd"

def scrapeTail (query : Query) : List UInt8 :=
  match query.protocol with
  | .udp => []
  | .tcp => ascii "ee"

/-- The reply to a scrape. A block without hashes asks for nothing:
`DATA_FULL_SCRAPE_ENABLE` is off. -/
def renderScrapeTorrentsPublic (torrentList : TorrentList) (hashes : List UInt8) (query : Query) :
    Except Fault (TorrentList × List UInt8) := do
  let (torrentList, scrapeBlock) ← renderScrapeHashes hashes query.protocol
    (List.range (hashes.length / uriParamValueLength)) torrentList []
  pure (torrentList, scrapeHead query ++ scrapeBlock ++ scrapeTail query)

def countersAt (torrentList : TorrentList) (hash : Hash) : TorrentCounters :=
  ((torrentList.value hash).map TorrentData.toTorrentCounters).getD ⟨0, 0, 0⟩

@[simp] theorem scrapeTorrentResponse_length (torrentDataL : TorrentCounters) :
    (scrapeTorrentResponse torrentDataL).length = 12 := rfl

theorem hashAt_eq {hashes : List UInt8} {index : Nat}
    (inside : index < hashes.length / uriParamValueLength) :
    ∃ hash, hashAt hashes index = .ok hash ∧
      hash.list = (hashes.drop (index * uriParamValueLength)).take uriParamValueLength := by
  have positive : 0 < uriParamValueLength := by decide
  have enough : index * uriParamValueLength + uriParamValueLength ≤ hashes.length := by
    calc index * uriParamValueLength + uriParamValueLength =
          (index + 1) * uriParamValueLength := (Nat.succ_mul _ _).symm
      _ ≤ hashes.length / uriParamValueLength * uriParamValueLength :=
          Nat.mul_le_mul_right _ inside
      _ ≤ hashes.length := Nat.div_mul_le_self _ _
  obtain ⟨hash, received, content⟩ := Bytes.readAt_eq enough
  exact ⟨hash, by rw [hashAt, received]; rfl, content⟩

theorem scrapeCounters_eq {torrentList : TorrentList} (table : TableLinked torrentList)
    (hash : ParamValue) :
    (getHash torrentList hash.list >>= scrapeCounters torrentList) =
      .ok (countersAt torrentList hash.list) := by
  have length : hash.list.length = torrentList.hashLength := by
    rw [table.hashLength, hash.length_eq]
  rw [getHash_eq table.linked length, ok_bind, countersAt]
  cases found : torrentList.lookup hash.list with
  | none =>
      rw [value_of_lookup_none found]
      rfl
  | some entry =>
      obtain ⟨member, _⟩ := lookup_mem found
      obtain ⟨torrent, stored⟩ := table.filled entry member
      rw [value_of_lookup_some found, stored, Option.map_some, scrapeCounters,
        dataOf_eq table.linked member stored]
      rfl

def scrapeEntry (torrentList : TorrentList) (protocol : Protocol) (hash : Hash) : List UInt8 :=
  renderScrapeTorrentL (countersAt torrentList hash) (Bytes.ofList _ hash) protocol

theorem scrapeEntry_hash (torrentList : TorrentList) (protocol : Protocol) (hash : ParamValue) :
    scrapeEntry torrentList protocol hash.list =
      renderScrapeTorrentL (countersAt torrentList hash.list) hash protocol := by
  have whole : Bytes.ofList uriParamValueLength hash.list = hash := by
    apply Bytes.ext
    rw [Bytes.ofList_list, hash.length_eq, Nat.sub_self, List.replicate_zero, List.append_nil,
      List.take_of_length_le (Nat.le_of_eq hash.length_eq)]
  rw [scrapeEntry, whole]

section Loop

variable {torrentList : TorrentList} (table : TableInv torrentList) {hashes : List UInt8}
  {protocol : Protocol}

include table

theorem renderScrapeHashes_cons {index : Nat} (inside : index < hashes.length / uriParamValueLength)
    (rest : List Nat) (scrapeBlock : List UInt8)
    (room : (scrapeBlock ++ scrapeEntry torrentList protocol
      ((hashes.drop (index * uriParamValueLength)).take uriParamValueLength)).length <
        dataMaxPacketSize) :
    renderScrapeHashes hashes protocol (index :: rest) torrentList scrapeBlock =
      renderScrapeHashes hashes protocol rest torrentList
        (scrapeBlock ++ scrapeEntry torrentList protocol
          ((hashes.drop (index * uriParamValueLength)).take uriParamValueLength)) := by
  obtain ⟨hash, received, content⟩ := hashAt_eq inside
  obtain ⟨semaphore, waited, posted⟩ :=
    waitSemaphoreLeaf_ok table.inv (getLeaf_length torrentList.toListHeader hash.list)
  have counters := scrapeCounters_eq (table.table.withSemaphore semaphore) hash
  obtain ⟨torrent, found, read⟩ := bind_eq_ok counters
  have back := posted { torrentList with semaphore := semaphore } rfl rfl
  rw [← content, scrapeEntry_hash] at room ⊢
  simp only [renderScrapeHashes, received, waited, found, read, back, ok_bind]
  exact if_neg (Nat.not_le_of_lt room)

/-- The loop leaves the table as it is and renders all the hashes, if the block has room for them. -/
theorem renderScrapeHashes_eq {size : Nat}
    (sized : ∀ hash, (scrapeEntry torrentList protocol hash).length ≤ size) (indexes : List Nat)
    (inside : ∀ index ∈ indexes, index < hashes.length / uriParamValueLength)
    (scrapeBlock : List UInt8)
    (room : scrapeBlock.length + size * indexes.length < dataMaxPacketSize) :
    renderScrapeHashes hashes protocol indexes torrentList scrapeBlock =
      .ok (torrentList, scrapeBlock ++ (indexes.map fun index =>
        scrapeEntry torrentList protocol
          ((hashes.drop (index * uriParamValueLength)).take uriParamValueLength)).flatten) := by
  induction indexes generalizing scrapeBlock with
  | nil => simp [renderScrapeHashes]
  | cons index rest ih =>
      rw [List.length_cons, Nat.mul_succ] at room
      have added := sized ((hashes.drop (index * uriParamValueLength)).take uriParamValueLength)
      have round := @renderScrapeHashes_cons _ table hashes protocol index (inside index (by simp))
        rest scrapeBlock
      rw [List.length_append] at round
      rw [round (by omega), ih (fun other member => inside other (by simp [member])),
        List.map_cons, List.flatten_cons, List.append_assoc]
      rw [List.length_append]
      omega

theorem renderScrapeTorrentsPublic_eq {query : Query} {size : Nat}
    (sized : ∀ hash, (scrapeEntry torrentList query.protocol hash).length ≤ size)
    (room : size * (hashes.length / uriParamValueLength) < dataMaxPacketSize) :
    renderScrapeTorrentsPublic torrentList hashes query =
      .ok (torrentList, scrapeHead query ++
        ((records uriParamValueLength (hashes.length / uriParamValueLength) hashes).map
          (scrapeEntry torrentList query.protocol)).flatten ++ scrapeTail query) := by
  have inside : ∀ index ∈ List.range (hashes.length / uriParamValueLength),
      index < hashes.length / uriParamValueLength := fun index => List.mem_range.mp
  have loop := renderScrapeHashes_eq table sized _ inside [] (by simpa using room)
  rw [renderScrapeTorrentsPublic, loop, ok_bind, records_eq_map, List.map_map, List.nil_append]
  rfl

variable (hashes) in
theorem renderScrapeTorrentsPublic_udp {query : Query} (udp : query.protocol = .udp)
    (room : 12 * (hashes.length / uriParamValueLength) < dataMaxPacketSize) :
    renderScrapeTorrentsPublic torrentList hashes query =
      .ok (torrentList, bigEndianBytes socketUdpStructureActionScrape ++
        littleEndianBytes query.transactionId ++
        ((records uriParamValueLength (hashes.length / uriParamValueLength) hashes).map
          fun hash => scrapeTorrentResponse (countersAt torrentList hash)).flatten) := by
  have entry : scrapeEntry torrentList query.protocol =
      fun hash => scrapeTorrentResponse (countersAt torrentList hash) := by
    rw [udp]
    rfl
  have sized : ∀ hash, (scrapeEntry torrentList query.protocol hash).length ≤ 12 := by
    intro hash
    rw [entry, scrapeTorrentResponse_length]
  rw [renderScrapeTorrentsPublic_eq table sized room, entry]
  simp [scrapeHead, scrapeTail, udp]

end Loop

end Etracker
