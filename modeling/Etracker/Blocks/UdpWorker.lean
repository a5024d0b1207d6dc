import Etracker.Blocks.Replies
import Etracker.Udp.Replies

namespace Etracker.Blocks

open Foundation Foundation.Outcome Foundation.Runs Udp

def Block.sent (block : Block) : List UInt8 := block.data.list.take block.size.toNat

structure UdpBlocks where
  sendBlock : Block
  scrapeBlock : Block
  announceBlock : Block
  hashesBlock : Block

section Model

variable (found : Nat → UInt8)

def initUdpBlocks : Except BlockFault UdpBlocks := do
  let sendBlock ← initBlock found
  let scrapeBlock ← initBlock found
  let announceBlock ← initBlock found
  let hashesBlock ← initBlock found
  pure ⟨sendBlock, scrapeBlock, announceBlock, hashesBlock⟩

def onBlock {Result : Type} (result : Except BlockFault Result) : Except DatagramFault Result :=
  ofTable (ofBlock result)

def clientUdpHandler (host : Host) (settings : Settings) (blocks : UdpBlocks)
    (torrentList : TorrentList) (udpRequest : UdpRequest) (now : Int) :
    Except DatagramFault (TorrentList × UdpBlocks × Option (List UInt8)) := do
  let block := udpRequest.block
  if block.length = connectRequestSize then
    let reply ← connectReply block udpRequest.receiveCount
    pure (torrentList, blocks, reply)
  else if ← isAction block socketUdpStructureActionAnnounce
      (block.length ≥ announceRequestSize) then
    let query ← announceRequestQuery settings udpRequest.clientAddr block
    let sendBlock ← onBlock (resetBlock found (some blocks.sendBlock))
    let (torrentList, sendBlock, announceBlock) ← ofTable (announce found host.inetNtop sendBlock
      blocks.announceBlock torrentList query dataStructurePeerProtocolUdpBit settings.interval now)
    pure (torrentList, { blocks with sendBlock := sendBlock, announceBlock := announceBlock },
      some sendBlock.sent)
  else if ← isAction block socketUdpStructureActionScrape (block.length > scrapeRequestSize) then
    let hashes ← scrapeHashes block
    let hashesBlock ← onBlock (resetBlock found (some blocks.hashesBlock))
    let hashesBlock ← onBlock (hashesBlock.addString found hashes (UInt32.ofNat hashes.length))
    let sendBlock ← onBlock (resetBlock found (some blocks.sendBlock))
    let query ← scrapeRequestQuery block
    let (torrentList, sendBlock, scrapeBlock) ← ofTable (renderScrapeTorrentsPublic found sendBlock
      blocks.scrapeBlock torrentList hashesBlock query)
    pure (torrentList, ⟨sendBlock, scrapeBlock, blocks.announceBlock, hashesBlock⟩,
      some sendBlock.sent)
  else pure (torrentList, blocks, none)

end Model

@[simp] theorem onBlock_ok {Result : Type} (value : Result) :
    onBlock (.ok value) = .ok value := rfl

@[simp] theorem ofTable_ok {Result : Type} (value : Result) :
    ofTable (.ok value) = .ok value := rfl

theorem ofTable_agree {First Second : Type} {related : First → Second → Prop}
    {first : Except Fault First} {second : Except Fault Second}
    (agree : Agree related first second) : Agree related (ofTable first) (ofTable second) :=
  agree.mapError DatagramFault.table

/-- Each block of the worker keeps something, and none is larger than `limit` calls for. -/
structure UdpBlocks.Keeps (limit : Nat) (blocks : UdpBlocks) : Prop where
  sendBlock : ∃ held, blocks.sendBlock.Keeps limit held
  scrapeBlock : ∃ held, blocks.scrapeBlock.Keeps limit held
  announceBlock : ∃ held, blocks.announceBlock.Keeps limit held
  hashesBlock : ∃ held, blocks.hashesBlock.Keeps limit held

variable (found : Nat → UInt8)

theorem scrapeHashes_length_le {block hashes : List UInt8}
    (read : scrapeHashes block = .ok hashes) : hashes.length ≤ block.length := by
  obtain ⟨bytes, _, same⟩ := bind_eq_ok read
  cases same
  rw [bytes.length_eq]
  exact (Nat.div_mul_le_self _ _).trans (Nat.sub_le _ _)

theorem initUdpBlocks_keeps (limit : Nat) :
    ∃ blocks, initUdpBlocks found = .ok blocks ∧ blocks.Keeps limit := by
  obtain ⟨block, initial, keeps⟩ := initBlock_keeps found limit
  refine ⟨⟨block, block, block, block⟩, ?_, ⟨_, keeps⟩, ⟨_, keeps⟩, ⟨_, keeps⟩, ⟨_, keeps⟩⟩
  simp only [initUdpBlocks, initial, ok_bind, pure_eq_ok]

theorem hashes_kept {limit : Nat} (small : limit ≤ 2 ^ 30) (room : announceSpace ≤ limit)
    {block : Block} {held : List UInt8} (keeps : block.Keeps limit held) {hashes : List UInt8}
    (few : hashes.length ≤ socketUdpReceivedUdpMessageLength) :
    ∃ empty after, resetBlock found (some block) = .ok empty ∧
      empty.addString found hashes (UInt32.ofNat hashes.length) = .ok after ∧
      after.Keeps limit hashes := by
  have most : socketUdpReceivedUdpMessageLength = 1496 := rfl
  have space : 1496 ≤ announceSpace := by decide
  have size : (UInt32.ofNat hashes.length).toNat = hashes.length := by
    rw [UInt32.toNat_ofNat']
    omega
  have within : ([] : List UInt8).length + (UInt32.ofNat hashes.length).toNat ≤ limit := by
    rw [List.length_nil, size]
    omega
  obtain ⟨empty, reset, keepsNone⟩ := keeps.reset found
  obtain ⟨after, added, keeps'⟩ := (Appends.whole found size).keeps small keepsNone within
  rw [List.nil_append] at keeps'
  exact ⟨empty, after, reset, added, keeps'⟩

/-- The worker does over its blocks what it is said to do, and sends what it is said to send. -/
theorem clientUdpHandler_agrees {limit : Nat} (small : limit ≤ 2 ^ 30)
    (forAnnounce : announceSpace ≤ limit) (forScrape : scrapeSpace ≤ limit) {host : Host}
    (short : ShortAddresses host.inetNtop) (settings : Settings) {torrentList : TorrentList}
    (table : TableInv torrentList) {udpRequest : UdpRequest}
    (received : udpRequest.block.length ≤ socketUdpReceivedUdpMessageLength) (now : Int)
    {blocks : UdpBlocks} (keeps : blocks.Keeps limit) :
    Agree (fun (result : TorrentList × UdpBlocks × Option (List UInt8))
        (result' : TorrentList × Option (List UInt8)) =>
        result.1 = result'.1 ∧ result.2.1.Keeps limit ∧ result.2.2 = result'.2)
      (clientUdpHandler found host settings blocks torrentList udpRequest now)
      (Udp.clientUdpHandler host settings torrentList udpRequest now) := by
  obtain ⟨sent, keepsSend⟩ := keeps.sendBlock
  obtain ⟨torrents, keepsScrape⟩ := keeps.scrapeBlock
  obtain ⟨peers, keepsAnnounce⟩ := keeps.announceBlock
  obtain ⟨asked, keepsHashes⟩ := keeps.hashesBlock
  rw [clientUdpHandler, Udp.clientUdpHandler]
  dsimp only
  by_cases connects : udpRequest.block.length = connectRequestSize
  · rw [if_pos connects, if_pos connects]
    apply Agree.bind_same
    intro reply _
    exact .done ⟨rfl, keeps, rfl⟩
  rw [if_neg connects, if_neg connects]
  apply Agree.bind_same
  intro announces _
  by_cases announces : announces = true
  · rw [if_pos announces, if_pos announces]
    apply Agree.bind_same
    intro query _
    obtain ⟨empty, reset, keepsNone⟩ := keepsSend.reset found
    have within : ([] : List UInt8).length + announceSpace ≤ limit := by
      rw [List.length_nil, Nat.zero_add]
      exact forAnnounce
    obtain ⟨torrentList', sendBlock, announceBlock, reply, peers', done, done', _, keepsSend',
      keepsAnnounce', _⟩ := announce_keeps found small short table query
        dataStructurePeerProtocolUdpBit settings.interval now keepsNone keepsAnnounce within
    rw [reset, onBlock_ok, ok_bind, done, ofTable_ok, ok_bind, done', ofTable_ok, ok_bind]
    refine .done ⟨rfl, ⟨⟨_, keepsSend'⟩, ⟨_, keepsScrape⟩, ⟨_, keepsAnnounce'⟩, ⟨_, keepsHashes⟩⟩,
      congrArg some ?_⟩
    exact keepsSend'.content
  rw [if_neg announces, if_neg announces]
  apply Agree.bind_same
  intro scrapes _
  by_cases scrapes : scrapes = true
  · rw [if_pos scrapes, if_pos scrapes]
    apply Agree.bind_same
    intro hashes read
    obtain ⟨emptyHashes, hashesBlock, resetHashes, added, keepsHashes'⟩ := hashes_kept found small
      forAnnounce keepsHashes ((scrapeHashes_length_le read).trans received)
    obtain ⟨empty, reset, keepsNone⟩ := keepsSend.reset found
    rw [resetHashes, onBlock_ok, ok_bind, added, onBlock_ok, ok_bind, reset, onBlock_ok, ok_bind]
    apply Agree.bind_same
    intro query _
    have within : ([] : List UInt8).length + scrapeSpace ≤ limit := by
      rw [List.length_nil, Nat.zero_add]
      exact forScrape
    apply (ofTable_agree (renderScrapeTorrentsPublic_agrees found small keepsHashes' torrentList
      query keepsNone keepsScrape within)).bind
    intro result result' alike
    obtain ⟨same, keepsSend', keepsScrape', _⟩ := alike
    refine .done ⟨same, ⟨⟨_, keepsSend'⟩, keepsScrape', ⟨_, keepsAnnounce⟩,
      ⟨_, keepsHashes'⟩⟩, congrArg some ?_⟩
    exact keepsSend'.content
  · rw [if_neg scrapes, if_neg scrapes]
    exact .done ⟨rfl, keeps, rfl⟩

theorem clientUdpHandler_completes (host : Host) (settings : Settings) {torrentList : TorrentList}
    (table : TableInv torrentList) {udpRequest : UdpRequest}
    (received : udpRequest.block.length ≤ socketUdpReceivedUdpMessageLength) (now : Int) :
    ∃ torrentList' packet, Udp.clientUdpHandler host settings torrentList udpRequest now =
      .ok (torrentList', packet) := by
  by_cases announces : IsAnnounce udpRequest.block
  · obtain ⟨torrentList', after, completed, _⟩ := announce_spec host.inetNtop table
      (udpQuery settings udpRequest.clientAddr udpRequest.block)
      dataStructurePeerProtocolUdpBit settings.interval now
    rw [clientUdpHandler_announce host settings announces, completed]
    exact ⟨torrentList', _, rfl⟩
  · obtain ⟨packet, completed, _⟩ :=
      clientUdpHandler_other host settings table received announces now
    exact ⟨torrentList, packet, completed⟩

/-- A datagram that a worker of the server takes out of the queue. The table is as the workers
have left it. -/
structure UdpTurn where
  found : Nat → UInt8
  settings : Settings
  torrentList : TorrentList
  udpRequest : UdpRequest
  now : Int

/-- The datagram was received whole, and the table is one that the worker can find. -/
structure UdpTurn.Sound (turn : UdpTurn) : Prop where
  table : TableInv turn.torrentList
  received : turn.udpRequest.block.length ≤ socketUdpReceivedUdpMessageLength

def UdpTurn.Takes (host : Host) (turn : UdpTurn) (before after : UdpBlocks) : Prop :=
  ∃ torrentList packet, clientUdpHandler turn.found host turn.settings before turn.torrentList
    turn.udpRequest turn.now = .ok (torrentList, after, packet)

def udpLimit : Nat := announceSpace

theorem UdpTurn.Sound.serves {host : Host} (short : ShortAddresses host.inetNtop)
    {turn : UdpTurn} (sound : turn.Sound) {before : UdpBlocks} (keeps : before.Keeps udpLimit) :
    ∃ torrentList after packet,
      clientUdpHandler turn.found host turn.settings before turn.torrentList turn.udpRequest
        turn.now = .ok (torrentList, after, packet) ∧
      Udp.clientUdpHandler host turn.settings turn.torrentList turn.udpRequest turn.now =
        .ok (torrentList, packet) ∧ after.Keeps udpLimit := by
  have small : udpLimit ≤ 2 ^ 30 := by decide
  have forScrape : scrapeSpace ≤ udpLimit := by decide
  obtain ⟨torrentList, packet, completed⟩ := clientUdpHandler_completes host turn.settings
    sound.table sound.received turn.now
  have agree := clientUdpHandler_agrees turn.found small (Nat.le_refl _) forScrape short
    turn.settings sound.table sound.received turn.now keeps
  rw [completed] at agree
  obtain ⟨result, done, same, keeps', sent⟩ := agree.of_ok
  obtain ⟨torrentList', after, packet'⟩ := result
  cases same
  cases sent
  exact ⟨torrentList, after, packet, done, completed, keeps'⟩

/-- Whatever a worker was sent before, it never writes outside of a block, its blocks stay small,
and it sends what the handler is said to send. -/
theorem udpWorker_sends {host : Host} (short : ShortAddresses host.inetNtop) (found : Nat → UInt8) :
    ∃ blocks, initUdpBlocks found = .ok blocks ∧ ∀ blocks',
      Reached (UdpTurn.Takes host) (fun turn _ => turn.Sound) blocks blocks' →
      (∀ block ∈ [blocks'.sendBlock, blocks'.scrapeBlock, blocks'.announceBlock,
        blocks'.hashesBlock], block.allocated.toNat ≤ 134000) ∧
      ∀ turn : UdpTurn, turn.Sound → ∃ torrentList after packet,
        clientUdpHandler turn.found host turn.settings blocks' turn.torrentList turn.udpRequest
          turn.now = .ok (torrentList, after, packet) ∧
        Udp.clientUdpHandler host turn.settings turn.torrentList turn.udpRequest turn.now =
          .ok (torrentList, packet) := by
  obtain ⟨blocks, initial, first⟩ := initUdpBlocks_keeps found udpLimit
  refine ⟨blocks, initial, ?_⟩
  intro blocks' reached
  have keeps : blocks'.Keeps udpLimit := by
    apply reached.invariant (UdpBlocks.Keeps udpLimit) first
    intro turn before after keeps sound taken
    obtain ⟨torrentList, packet, done⟩ := taken
    obtain ⟨_, _, _, done', _, keeps'⟩ := sound.serves short keeps
    rw [done'] at done
    cases done
    exact keeps'
  constructor
  · have most : Block.mostAllocated udpLimit ≤ 134000 := by decide
    have bounded : ∀ block : Block, (∃ held, block.Keeps udpLimit held) →
        block.allocated.toNat ≤ 134000 :=
      fun block keeps => keeps.elim fun _ keeps => keeps.bounded.trans most
    simp only [List.forall_mem_cons]
    exact ⟨bounded _ keeps.sendBlock, bounded _ keeps.scrapeBlock, bounded _ keeps.announceBlock,
      bounded _ keeps.hashesBlock, List.forall_mem_nil _⟩
  · intro turn sound
    obtain ⟨torrentList, after, packet, done, completed, _⟩ := sound.serves short keeps
    exact ⟨torrentList, after, packet, done, completed⟩

section Plain

def plainTurn : UdpTurn where
  found := fun _ => 7
  settings := plainSettings
  torrentList := emptyTorrentList
  udpRequest := ⟨(plainPacket uriEventIdStarted.toUInt32).bytes, Bytes.zero _, 1⟩
  now := 1000

theorem plainTurn_sound : plainTurn.Sound := ⟨emptyTorrentList_inv, by decide⟩

/-- A worker answers again as it has answered before. -/
theorem udpWorker_sends_plain : ∃ blocks blocks', initUdpBlocks (fun _ => 7) = .ok blocks ∧
    Reached (UdpTurn.Takes plainHost) (fun turn _ => turn.Sound) blocks blocks' ∧
    ∃ torrentList after packet, clientUdpHandler plainTurn.found plainHost plainTurn.settings
        blocks' plainTurn.torrentList plainTurn.udpRequest plainTurn.now =
          .ok (torrentList, after, packet) ∧
      Udp.clientUdpHandler plainHost plainTurn.settings plainTurn.torrentList
        plainTurn.udpRequest plainTurn.now = .ok (torrentList, packet) := by
  have short : ShortAddresses plainHost.inetNtop :=
    fun _ _ => (by decide : (CString.ascii "::").length < 46)
  obtain ⟨blocks, initial, sends⟩ := udpWorker_sends short fun _ => 7
  obtain ⟨_, serves⟩ := sends blocks .start
  obtain ⟨torrentList, blocks', packet, done, _⟩ := serves plainTurn plainTurn_sound
  have reached : Reached (UdpTurn.Takes plainHost) (fun turn _ => turn.Sound) blocks blocks' :=
    Reached.start.next plainTurn_sound ⟨torrentList, packet, done⟩
  obtain ⟨_, serves'⟩ := sends blocks' reached
  exact ⟨blocks, blocks', initial, reached, serves' plainTurn plainTurn_sound⟩

end Plain

end Etracker.Blocks
