import Etracker.Blocks.Data
import Etracker.Data.Decoded
import Etracker.Foundation.Agreement
import Etracker.Tracker.Step

namespace Etracker.Blocks

open Foundation Foundation.CString Foundation.Bencode Foundation.Outcome Foundation.Traversal

section Peers

variable (found : Nat → UInt8) {inetNtop : InetNtop}

theorem decimal_length_le {number digits : Nat} (positive : 0 < digits)
    (small : number < 10 ^ digits) : (decimal number).length ≤ digits :=
  numberText_length_le positive small

/-- The texts of addresses are as short as `INET6_ADDRSTRLEN` promises. -/
def ShortAddresses (inetNtop : InetNtop) : Prop :=
  ∀ family bytes, (inetNtop family bytes).length < 46

theorem int2ip_length_lt (short : ShortAddresses inetNtop) (source : In6Addr) (ipVersion : UInt8) :
    (int2ip inetNtop source ipVersion).length < 46 := by
  unfold int2ip
  split_ifs
  · exact short _ _
  · exact short _ _

theorem addPeer_appends (short : ShortAddresses inetNtop) (query : Query) {hash : Hash}
    (sized : hash.length = uriParamValueLength) (peerDataL : PeerData) :
    Appends (addPeer found inetNtop query hash peerDataL)
      (renderPeer inetNtop query hash peerDataL) 1020 := by
  have shortIp := int2ip_length_lt short (addressOf query peerDataL) query.ipVersion
  unfold addPeer renderPeer
  generalize int2ip inetNtop (addressOf query peerDataL) query.ipVersion = ip at shortIp
  have ipLength : (decimal ip.length).length ≤ 2 := decimal_length_le (by decide) (by omega)
  have portLength : (decimal (htons peerDataL.port).toNat).length ≤ 5 :=
    decimal_length_le (by decide) ((UInt16.toNat_lt _).trans (by decide))
  dsimp only
  by_cases plain : query.compact = true ∨ query.protocol = .udp
  · have port : (2 : UInt32).toNat = (shortBytes peerDataL.port).length := rfl
    by_cases v4 : query.ipVersion &&& socketVersionIpv4Bit ≠ 0
    · have address : (4 : UInt32).toNat = (peerDataL.ip4.list.drop 12).length := by
        rw [List.length_drop, peerDataL.ip4.length_eq]
        rfl
      simp only [if_pos plain, if_pos v4]
      exact ((Appends.whole found address).bind (Appends.whole found port)).change rfl (by decide)
    · have address : (16 : UInt32).toNat = peerDataL.ip6.list.length :=
        peerDataL.ip6.length_eq.symm
      simp only [if_pos plain, if_neg v4]
      exact ((Appends.whole found address).bind (Appends.whole found port)).change rfl (by decide)
  · by_cases noPeerId : query.noPeerId = true
    · simp only [if_neg plain, if_pos noPeerId]
      refine (Appends.format found ?_).change rfl (by decide)
      change _ ≤ 500
      simp only [List.length_append, ascii, List.length_map, String.reduceToList,
        List.length_cons, List.length_nil]
      omega
    · have readable : (20 : UInt32).toNat ≤ hash.length := Nat.le_of_eq sized.symm
      have width : (decimal uriParamValueLength).length ≤ 2 :=
        decimal_length_le (by decide) (by decide)
      simp only [if_neg plain, if_neg noPeerId]
      refine ((Appends.format found ?_).bind
        ((Appends.string found readable).bind (Appends.format found ?_))).change ?_ (by decide)
      · change _ ≤ 500
        simp only [List.length_append, ascii, List.length_map, String.reduceToList,
          List.length_cons, List.length_nil]
        omega
      · change _ ≤ 500
        simp only [List.length_append, ascii, List.length_map, String.reduceToList,
          List.length_cons, List.length_nil]
        omega
      · simp only [List.append_assoc]
        rfl

def renderStep (found : Nat → UInt8) (inetNtop : InetNtop) (query : Query) :
    EntryStep PeerData (Block × UInt32)
  | entry, (peerBlock, leftPeers) =>
      if peerBlock.size.toNat ≥ dataMaxPacketSize then
        .ok ⟨true, [entry], [], peerBlock, leftPeers⟩
      else match entry.2.data with
      | none => .error .dangling
      | some peerDataL =>
          if query.ipVersion &&& peerDataL.ipVersion = 0 then
            .ok ⟨false, [entry], [], peerBlock, leftPeers⟩
          else
            ofBlock (addPeer found inetNtop query entry.2.hash peerDataL peerBlock) >>=
              fun peerBlock => .ok ⟨leftPeers - 1 ≤ 0, [entry], [], peerBlock, leftPeers - 1⟩

theorem renderAnnouncePeersCallback_implements (query : Query) :
    Implements (renderAnnouncePeersCallback found inetNtop query)
      (renderStep found inetNtop query) := by
  intro list leaf front back entry args linked split
  obtain ⟨peerBlock, leftPeers⟩ := args
  have member : entry ∈ list.leafEntries leaf := by simp [split]
  obtain ⟨stored, present, hashIs, _, dataIs⟩ := Represents.stored linked member
  have unchanged : Rewritten list list leaf (front ++ [entry] ++ back) := by
    have same := Rewritten.refl linked leaf
    rw [split] at same
    simpa using same
  simp only [renderAnnouncePeersCallback, renderStep]
  by_cases full : peerBlock.size.toNat ≥ dataMaxPacketSize
  · simp only [if_pos full]
    exact ⟨list, rfl, by simp, unchanged⟩
  · simp only [if_neg full, HashList.dataOf, HashList.deref, present, pure_eq_ok, ok_bind, hashIs,
      dataIs]
    cases entry.2.data with
    | none => rfl
    | some peerDataL =>
        simp only [ok_bind]
        by_cases other : query.ipVersion &&& peerDataL.ipVersion = 0
        · simp only [if_pos other]
          exact ⟨list, rfl, by simp, unchanged⟩
        · simp only [if_neg other]
          cases ofBlock (addPeer found inetNtop query entry.2.hash peerDataL peerBlock) with
          | error fault => rfl
          | ok peerBlock' =>
              refine ⟨list, ?_, by simp, unchanged⟩
              by_cases done : leftPeers - 1 ≤ 0 <;> simp [ListReturn.ofStop, done]

def announceBlockSize : Nat := dataMaxPacketSize + 1020

structure Rendered (limit : Nat) (args : Block × UInt32) (args' : List UInt8 × UInt32) : Prop where
  keeps : args.1.Keeps limit args'.1
  short : args'.1.length ≤ announceBlockSize
  leftPeers : args.2 = args'.2

theorem renderStep_agrees {limit : Nat} (small : limit ≤ 2 ^ 30)
    (enough : announceBlockSize ≤ limit) (short : ShortAddresses inetNtop) (query : Query)
    {entry : Entry PeerData} (sized : entry.2.hash.length = uriParamValueLength)
    {args : Block × UInt32} {args' : List UInt8 × UInt32} (rendered : Rendered limit args args') :
    Agree (AlikeVisits (Rendered limit)) (renderStep found inetNtop query entry args)
      (Etracker.renderStep inetNtop query entry args') := by
  obtain ⟨peerBlock, leftPeers⟩ := args
  obtain ⟨bytes, leftPeers'⟩ := args'
  have keeps : peerBlock.Keeps limit bytes := rendered.keeps
  have same : leftPeers = leftPeers' := rendered.leftPeers
  subst same
  simp only [renderStep, Etracker.renderStep, keeps.holds.size]
  by_cases full : bytes.length ≥ dataMaxPacketSize
  · simp only [if_pos full]
    exact .done ⟨rfl, rfl, rfl, rendered⟩
  · simp only [if_neg full]
    cases entry.2.data with
    | none => exact .failed _
    | some peerDataL =>
        dsimp only
        by_cases other : query.ipVersion &&& peerDataL.ipVersion = 0
        · simp only [if_pos other]
          exact .done ⟨rfl, rfl, rfl, rendered⟩
        · have appends := addPeer_appends found short query sized peerDataL
          have within : bytes.length + 1020 ≤ announceBlockSize :=
            Nat.add_le_add_right (Nat.lt_of_not_ge full).le 1020
          obtain ⟨after, added, keeps'⟩ :=
            appends.keeps small keeps (within.trans enough)
          have longer : (bytes ++ renderPeer inetNtop query entry.2.hash peerDataL).length ≤
              announceBlockSize := by
            have fits := appends.fits
            rw [List.length_append]
            omega
          simp only [if_neg other, added, ofBlock_ok, ok_bind]
          exact .done ⟨rfl, rfl, rfl, keeps', longer, rfl⟩

theorem renderAnnouncePeersL_keeps {limit : Nat} (small : limit ≤ 2 ^ 30)
    (enough : announceBlockSize ≤ limit) (short : ShortAddresses inetNtop)
    {peerList : HashList PeerData} (peers : PeersInv peerList) (query : Query) {block : Block}
    (keeps : block.Keeps limit []) :
    ∃ after, renderAnnouncePeersL found inetNtop block (some peerList) query = .ok after ∧
      after.Keeps limit (renderPairs inetNtop query peerList.pairs [] query.numwant) ∧
      (renderPairs inetNtop query peerList.pairs [] query.numwant).length ≤ announceBlockSize := by
  obtain ⟨visit', run', result⟩ :=
    renderStep_traverse inetNtop query peers.filled [] query.numwant
  have first : Rendered limit (block, query.numwant) ([], query.numwant) :=
    ⟨keeps, Nat.zero_le _, rfl⟩
  have sized : ∀ entry ∈ peerList.entries, entry.2.hash.length = uriParamValueLength := by
    intro entry member
    rw [← peers.hashLength]
    exact (entry_facts peers.inv.linked member).1
  have agree := traverse_agree
    (fun entry member _ _ => renderStep_agrees found small enough short query (sized entry member))
    first
  rw [run'] at agree
  obtain ⟨visit, run, alike⟩ := agree.of_ok
  have simulated := mapList_simulates
    (@renderAnnouncePeersCallback_implements found inetNtop query) peers.inv (block, query.numwant)
  rw [run] at simulated
  obtain ⟨list', mapped, _⟩ := simulated
  rw [HashList.pairs, ← result]
  refine ⟨visit.state.1, ?_, alike.state.keeps, alike.state.short⟩
  simp only [renderAnnouncePeersL, mapped, ok_bind, pure_eq_ok]

end Peers

section Announces

variable (found : Nat → UInt8) {inetNtop : InetNtop} {limit : Nat}

def announceText (torrent : TorrentCounters) (query : Query) (interval : UInt32)
    (peers : List UInt8) : List UInt8 :=
  (if query.protocol = .udp then [] else announceHead torrent query interval peers.length) ++
    peers ++ announceTail query

theorem announceCounters_length_le (torrent : TorrentCounters) (query : Query)
    (interval : UInt32) : (announceCounters torrent query interval).length ≤ 110 := by
  have complete := decimalOfUnsigned_length_le torrent.complete
  have incomplete := decimalOfUnsigned_length_le torrent.incomplete
  have downloaded := decimalOfUnsigned_length_le torrent.downloaded
  have seconds := decimalOfUnsigned_length_le interval
  unfold announceCounters
  by_cases v4 : query.ipVersion &&& socketVersionIpv4Bit ≠ 0
  · simp only [if_pos v4, List.length_append, ascii, List.length_map, String.reduceToList,
      List.length_cons, List.length_nil]
    omega
  · simp only [if_neg v4, List.length_append, ascii, List.length_map, String.reduceToList,
      List.length_cons, List.length_nil]
    omega

theorem aroundPeers_appends {announceBlock : Block} {peers : List UInt8}
    (keeps : announceBlock.Keeps limit peers) (torrent : TorrentCounters) (query : Query)
    (interval : UInt32) :
    Appends (fun block => aroundPeers found block announceBlock torrent query interval)
      (announceText torrent query interval peers) (502 + peers.length) := by
  have counters := announceCounters_length_le torrent query interval
  have size := keeps.holds.size
  have copies := keeps.copies found
  unfold aroundPeers announceText announceTail
  cases protocol : query.protocol with
  | udp => exact (Appends.nothing.bind (copies.bind Appends.nothing)).change (by simp) (by omega)
  | tcp =>
      have last : Appends (fun block => block.addString found (ascii "e") 1) (ascii "e") 1 :=
        Appends.whole found rfl
      have space : (500 : UInt32).toNat = 500 := rfl
      have number := decimalOfUnsigned_length_le announceBlock.size
      have same : UInt32.ofNat peers.length = announceBlock.size := by
        rw [← size, UInt32.ofNat_toNat]
      have head {text : List UInt8} (fits : text.length ≤ 500) :
          Appends (fun block => block.addFormat found 500 text) text 500 :=
        (Appends.format found (fits.trans space.ge)).change rfl space.le
      simp only [announceHead, protocol, same]
      cases compact : query.compact with
      | true =>
          have fits : (announceCounters torrent query interval ++
              decimalOfUnsigned announceBlock.size ++ ascii ":").length ≤ 500 := by
            simp only [List.length_append, ascii, List.length_map, String.reduceToList,
              List.length_cons, List.length_nil]
            omega
          exact ((head fits).bind (copies.bind (Appends.nothing.bind last))).change
            (by simp [announceCounters]) (by omega)
      | false =>
          have fits : (announceCounters torrent query interval ++ ascii "l").length ≤ 500 := by
            simp only [List.length_append, ascii, List.length_map, String.reduceToList,
              List.length_cons, List.length_nil]
            omega
          have ends : ascii "ee" = ascii "e" ++ ascii "e" := rfl
          exact ((head fits).bind (copies.bind (last.bind last))).change
            (by simp [announceCounters, ends]) (by omega)

def announceSpace : Nat := 522 + announceBlockSize

def peersOf (inetNtop : InetNtop) (query : Query) (torrentDataL : Option TorrentData) :
    List UInt8 :=
  (torrentDataL.map fun torrentDataL =>
    renderPairs inetNtop query torrentDataL.peerList.pairs [] query.numwant).getD []

theorem announceText_reply (query : Query) (interval : UInt32)
    (torrentDataL : Option TorrentData) :
    (if query.protocol = .udp then announceHeadResponse (countersOf torrentDataL) query interval
      else []) ++ announceText (countersOf torrentDataL) query interval
        (peersOf inetNtop query torrentDataL) =
      announceReply inetNtop query interval torrentDataL := by
  cases protocol : query.protocol <;> cases torrentDataL <;>
    simp [announceText, announceReply, announceHead, announceHeadResponse, countersOf, peersOf,
      protocol]

section Torrent

variable (small : limit ≤ 2 ^ 30) (short : ShortAddresses inetNtop)
  {torrentDataL : Option TorrentData}
  (sound : ∀ torrent, torrentDataL = some torrent → PeersInv torrent.peerList)
  (query : Query) (interval : UInt32) {block announceBlock : Block} {held peers : List UInt8}
  (keeps : block.Keeps limit held) (keepsPeers : announceBlock.Keeps limit peers)

include small short sound keeps keepsPeers

theorem renderAnnounceTorrentL_keeps (within : held.length + 502 + announceBlockSize ≤ limit) :
    ∃ block' announceBlock', renderAnnounceTorrentL found inetNtop block announceBlock torrentDataL
        query interval = .ok (block', announceBlock') ∧
      block'.Keeps limit (held ++ announceText (countersOf torrentDataL) query interval
        (peersOf inetNtop query torrentDataL)) ∧
      announceBlock'.Keeps limit (peersOf inetNtop query torrentDataL) ∧
      (announceText (countersOf torrentDataL) query interval
        (peersOf inetNtop query torrentDataL)).length ≤ 502 + announceBlockSize := by
  obtain ⟨empty, reset, keepsNone⟩ := keepsPeers.reset found
  have rendered : ∃ announceBlock', renderAnnouncePeersL found inetNtop empty
        (torrentDataL.map TorrentData.peerList) query = .ok announceBlock' ∧
      announceBlock'.Keeps limit (peersOf inetNtop query torrentDataL) ∧
      (peersOf inetNtop query torrentDataL).length ≤ announceBlockSize := by
    cases torrentDataL with
    | none => exact ⟨empty, rfl, keepsNone, Nat.zero_le _⟩
    | some torrent =>
        exact renderAnnouncePeersL_keeps found small (by omega) short (sound torrent rfl) query
          keepsNone
  obtain ⟨announceBlock', done, keeps', fits⟩ := rendered
  have appends := aroundPeers_appends found keeps' (countersOf torrentDataL) query interval
  obtain ⟨block', around, keeps''⟩ := appends.keeps small keeps (by omega)
  have length := appends.fits
  refine ⟨block', announceBlock', ?_, keeps'', keeps', by omega⟩
  rw [renderAnnounceTorrentL, reset, ofBlock_ok, ok_bind, done, ok_bind, around]
  rfl

theorem renderAnnouncePublic_keeps {torrentList : TorrentList} {torrent : Option Address}
    (reached : torrent = none ∧ torrentDataL = none ∨ ∃ address torrent', torrent = some address ∧
      torrentDataL = some torrent' ∧ torrentList.dataOf address = .ok torrent')
    (within : held.length + announceSpace ≤ limit) :
    ∃ block' announceBlock', renderAnnouncePublic found inetNtop block announceBlock torrentList
        torrent query interval = .ok (block', announceBlock') ∧
      block'.Keeps limit (held ++ announceReply inetNtop query interval torrentDataL) ∧
      announceBlock'.Keeps limit (peersOf inetNtop query torrentDataL) ∧
      (announceReply inetNtop query interval torrentDataL).length ≤ announceSpace := by
  have copied : copyTorrent torrentList torrent = .ok torrentDataL := by
    rcases reached with ⟨rfl, rfl⟩ | ⟨address, torrent', rfl, rfl, data⟩
    · rfl
    · rw [copyTorrent, data]
      rfl
  have space : announceSpace = 522 + announceBlockSize := rfl
  have head : Appends
      (fun block => headResponse found block (countersOf torrentDataL) query interval)
      (if query.protocol = .udp then announceHeadResponse (countersOf torrentDataL) query interval
        else []) 20 := by
    unfold headResponse
    split_ifs
    · exact Appends.whole found rfl
    · exact Appends.nothing.change rfl (Nat.zero_le _)
  obtain ⟨headed, done, keeps'⟩ := head.keeps small keeps (by omega)
  have fits := head.fits
  obtain ⟨block', announceBlock', rendered, keeps'', keepsPeers', length⟩ :=
    renderAnnounceTorrentL_keeps found small short sound query interval keeps' keepsPeers
      (by rw [List.length_append]; omega)
  rw [List.append_assoc, announceText_reply] at keeps''
  refine ⟨block', announceBlock', ?_, keeps'', keepsPeers', ?_⟩
  rotate_left
  · rw [← announceText_reply, List.length_append]
    omega
  rw [renderAnnouncePublic, copied, ok_bind, done, ofBlock_ok, ok_bind, rendered]

end Torrent

/-- An announce over blocks is the announce, and its reply stands in the block. -/
theorem announce_keeps (small : limit ≤ 2 ^ 30) (short : ShortAddresses inetNtop)
    {torrentList : TorrentList} (table : TableInv torrentList) (query : Query) (protocol : UInt8)
    (interval : UInt32) (now : Int) {block announceBlock : Block} {held peers : List UInt8}
    (keeps : block.Keeps limit held) (keepsPeers : announceBlock.Keeps limit peers)
    (within : held.length + announceSpace ≤ limit) :
    ∃ torrentList' block' announceBlock' reply peers',
      announce found inetNtop block announceBlock torrentList query protocol interval now =
        .ok (torrentList', block', announceBlock') ∧
      Etracker.announce inetNtop torrentList query protocol interval now =
        .ok (torrentList', reply) ∧
      TableInv torrentList' ∧ block'.Keeps limit (held ++ reply) ∧
      announceBlock'.Keeps limit peers' ∧ reply.length ≤ announceSpace := by
  have atLeaf := getLeaf_length torrentList.toListHeader query.infoHash.list
  obtain ⟨semaphore, waited, posted⟩ := waitSemaphoreLeaf_ok table.inv atLeaf
  obtain ⟨changed, torrent, after, updated, table', frame, update, _, reached⟩ :=
    updatePeers_spec (table.table.withSemaphore semaphore) query protocol now
  have stored : ∀ torrent', after = some torrent' →
      (query.infoHash.list, torrent') ∈ changed.pairs := by
    intro torrent' isAfter
    obtain ⟨rest, _, new⟩ := update.split
    rw [new.mem_iff, isAfter]
    exact List.mem_cons_self
  have sound : ∀ torrent', after = some torrent' → PeersInv torrent'.peerList :=
    fun torrent' isAfter => table'.torrents _ (stored torrent' isAfter)
  have rendered := renderAnnouncePublic_after inetNtop table' stored reached query interval
  obtain ⟨block', announceBlock', rendered', keeps', keepsPeers', length⟩ :=
    renderAnnouncePublic_keeps found small short sound query interval keeps keepsPeers reached
      within
  have back := posted changed frame.header frame.semaphore
  have restored := table'.withSemaphore torrentList.semaphore
  refine ⟨{ changed with semaphore := torrentList.semaphore }, block', announceBlock', _, _, ?_, ?_,
    ⟨table.inv.of_frame ⟨frame.header, rfl⟩ restored.linked, restored⟩, keeps', keepsPeers',
    length⟩
  · simp only [announce, waited, ok_bind, updated, rendered', back, pure_eq_ok]
  · simp only [Etracker.announce, waited, ok_bind, updated, rendered, back, pure_eq_ok]

end Announces

section Scrapes

variable (found : Nat → UInt8) {limit : Nat}

theorem renderScrapeTorrentL_appends (torrentDataL : TorrentCounters) (hash : ParamValue)
    (protocol : Protocol) :
    Appends (renderScrapeTorrentL found torrentDataL hash protocol)
      (Etracker.renderScrapeTorrentL torrentDataL hash protocol) 1023 := by
  cases protocol with
  | udp =>
      have record : Appends
          (fun block => block.addString found (scrapeTorrentResponse torrentDataL) 12) _ _ :=
        Appends.whole found rfl
      exact record.change rfl (by decide)
  | tcp =>
      have complete := decimalOfUnsigned_length_le torrentDataL.complete
      have incomplete := decimalOfUnsigned_length_le torrentDataL.incomplete
      have downloaded := decimalOfUnsigned_length_le torrentDataL.downloaded
      have key : Appends (fun block => block.addString found (ascii "20:") 3) _ _ :=
        Appends.whole found rfl
      have sized : (20 : UInt32).toNat = hash.list.length := hash.length_eq.symm
      refine (key.bind ((Appends.whole found sized).bind (Appends.format found ?_))).change ?_
        (by decide)
      · change _ ≤ 1000
        simp only [List.length_append, ascii, List.length_map, String.reduceToList,
          List.length_cons, List.length_nil]
        omega
      · simp only [Etracker.renderScrapeTorrentL, List.append_assoc]

theorem hashAt_inFront {asked memory : List UInt8} (inFront : asked <+: memory) {index : Nat}
    (inside : index < asked.length / uriParamValueLength) :
    hashAt memory index = hashAt asked index := by
  obtain ⟨rest, rfl⟩ := inFront
  have positive : 0 < uriParamValueLength := by decide
  have enough : (index + 1) * uriParamValueLength ≤ asked.length :=
    (Nat.le_div_iff_mul_le positive).mp inside
  have longer : index < (asked ++ rest).length / uriParamValueLength := by
    rw [List.length_append]
    exact inside.trans_le (Nat.div_le_div_right (Nat.le_add_right _ _))
  rw [Nat.succ_mul] at enough
  obtain ⟨hash, received, content⟩ := hashAt_eq inside
  obtain ⟨hash', received', content'⟩ := hashAt_eq longer
  have same : hash' = hash := by
    apply Bytes.ext
    rw [content', content, List.drop_append_of_le_length (by omega),
      List.take_append_of_le_length (by rw [List.length_drop]; omega)]
  rw [received, received', same]

def scrapeBlockSize : Nat := dataMaxPacketSize + 1023

theorem renderScrapeHashes_agrees (small : limit ≤ 2 ^ 30) (enough : scrapeBlockSize ≤ limit)
    {hashes : Block} {asked : List UInt8} (keepsHashes : hashes.Keeps limit asked)
    (protocol : Protocol) {indexes : List Nat}
    (inside : ∀ index ∈ indexes, index < asked.length / uriParamValueLength)
    (torrentList : TorrentList) {scrapeBlock : Block} {torrents : List UInt8}
    (keeps : scrapeBlock.Keeps limit torrents) (room : torrents.length < dataMaxPacketSize) :
    Agree (fun (result : TorrentList × Block) (result' : TorrentList × List UInt8) =>
        result.1 = result'.1 ∧ result.2.Keeps limit result'.2 ∧
          result'.2.length ≤ scrapeBlockSize)
      (renderScrapeHashes found hashes protocol indexes torrentList scrapeBlock)
      (Etracker.renderScrapeHashes asked protocol indexes torrentList torrents) := by
  induction indexes generalizing torrentList scrapeBlock torrents with
  | nil => exact .done ⟨rfl, keeps, room.le.trans (Nat.le_add_right _ _)⟩
  | cons index rest ih =>
      rw [renderScrapeHashes, Etracker.renderScrapeHashes,
        hashAt_inFront keepsHashes.holds.inFront (inside index List.mem_cons_self)]
      apply Agree.bind_same
      intro hash _
      apply Agree.bind_same
      intro waited _
      apply Agree.bind_same
      intro torrent _
      apply Agree.bind_same
      intro torrentDataL _
      have appends := renderScrapeTorrentL_appends found torrentDataL hash protocol
      have within : torrents.length + 1023 ≤ scrapeBlockSize :=
        Nat.add_le_add_right room.le 1023
      obtain ⟨scrapeBlock', added, keeps'⟩ := appends.keeps small keeps (within.trans enough)
      have fits := appends.fits
      rw [added, ofBlock_ok, ok_bind]
      apply Agree.bind_same
      intro posted _
      rw [keeps'.holds.size]
      by_cases full : dataMaxPacketSize ≤
          (torrents ++ Etracker.renderScrapeTorrentL torrentDataL hash protocol).length
      · rw [if_pos full, if_pos full]
        refine .done ⟨rfl, keeps', ?_⟩
        rw [List.length_append]
        omega
      · rw [if_neg full, if_neg full]
        exact ih (fun other member => inside other (List.mem_cons_of_mem _ member)) posted keeps'
          (Nat.lt_of_not_ge full)

theorem scrapeHeadBlock_appends (query : Query) :
    Appends (scrapeHeadBlock found query) (scrapeHead query) 9 := by
  unfold scrapeHeadBlock scrapeHead
  cases query.protocol with
  | udp =>
      have head : Appends (fun block => block.addString found
          (bigEndianBytes socketUdpStructureActionScrape ++
            littleEndianBytes query.transactionId) 8) _ _ := Appends.whole found rfl
      exact head.change rfl (by decide)
  | tcp => exact Appends.whole found rfl

def scrapeSpace : Nat := 11 + scrapeBlockSize

theorem aroundTorrents_appends (query : Query) {scrapeBlock : Block} {torrents : List UInt8}
    (keeps : scrapeBlock.Keeps limit torrents) :
    Appends (fun block => aroundTorrents found query block scrapeBlock)
      (torrents ++ scrapeTail query) (torrents.length + 2) := by
  unfold aroundTorrents scrapeTail
  cases query.protocol with
  | udp => exact ((keeps.copies found).bind Appends.nothing).change rfl (Nat.le_add_right _ _)
  | tcp => exact (keeps.copies found).bind (Appends.whole found rfl)

theorem renderScrapeTorrentsPublic_agrees (small : limit ≤ 2 ^ 30) {hashes : Block}
    {asked : List UInt8} (keepsHashes : hashes.Keeps limit asked) (torrentList : TorrentList)
    (query : Query) {block scrapeBlock : Block} {held torrents : List UInt8}
    (keeps : block.Keeps limit held) (keepsTorrents : scrapeBlock.Keeps limit torrents)
    (within : held.length + scrapeSpace ≤ limit) :
    Agree (fun (result : TorrentList × Block × Block) (result' : TorrentList × List UInt8) =>
        result.1 = result'.1 ∧ result.2.1.Keeps limit (held ++ result'.2) ∧
          (∃ torrents', result.2.2.Keeps limit torrents') ∧ result'.2.length ≤ scrapeSpace)
      (renderScrapeTorrentsPublic found block scrapeBlock torrentList hashes query)
      (Etracker.renderScrapeTorrentsPublic torrentList asked query) := by
  have space : scrapeSpace = 11 + scrapeBlockSize := rfl
  have inside : ∀ index ∈ List.range (asked.length / uriParamValueLength),
      index < asked.length / uriParamValueLength := fun index => List.mem_range.mp
  obtain ⟨empty, reset, keepsNone⟩ := keepsTorrents.reset found
  have head := scrapeHeadBlock_appends found query
  obtain ⟨headed, done, keeps'⟩ := head.keeps small keeps (by omega)
  have fits := head.fits
  rw [renderScrapeTorrentsPublic, Etracker.renderScrapeTorrentsPublic, reset, ofBlock_ok, ok_bind,
    done, ofBlock_ok, ok_bind, keepsHashes.holds.size]
  apply (renderScrapeHashes_agrees found small (by omega) keepsHashes query.protocol inside
    torrentList keepsNone (by decide)).bind
  intro result result' alike
  obtain ⟨torrentList', scrapeBlock'⟩ := result
  obtain ⟨torrentList'', torrents'⟩ := result'
  obtain ⟨same, keepsTorrents', fits'⟩ := alike
  have appends := aroundTorrents_appends found query keepsTorrents'
  obtain ⟨block', around, keeps''⟩ := appends.keeps small keeps' (by
    rw [List.length_append]
    dsimp only at fits' ⊢
    omega)
  have length := appends.fits
  dsimp only at fits' length ⊢
  rw [around, ofBlock_ok, ok_bind]
  refine .done ⟨same, ?_, ⟨torrents', keepsTorrents'⟩, ?_⟩
  · rw [List.append_assoc] at keeps''
    simpa only [List.append_assoc] using keeps''
  · dsimp only
    rw [List.append_assoc, List.length_append]
    omega

end Scrapes

end Etracker.Blocks
