import Etracker.Data.Render
import Etracker.Tracker.Stored
import Etracker.Tracker.Swarm

/-! What a tracker knows of the peers, as one flat map, and what its replies tell of it. -/

namespace Etracker

open Foundation Foundation.CString Foundation.Outcome Foundation.Runs

/-- The peers of each torrent, by their ids. -/
abbrev Known := Hash → Hash → Option PeerData

namespace Known

def nobody : Known := fun _ _ => none

variable (known : Known)

def announce (query : Query) (protocol : UInt8) (now : Int) : Known :=
  Function.update known query.infoHash.list
    (Function.update (known query.infoHash.list) query.peerId.list
      (if query.event = uriEventIdStopped then none
        else some (((known query.infoHash.list query.peerId.list).getD PeerData.empty).update query
          protocol now)))

def expire (limitTime : Int) : Known :=
  fun infoHash peerId => (known infoHash peerId).filter fun peer => limitTime ≤ peer.updateTime

def step (host : Host) (known : Known) (step : Step) : Known :=
  match step.action, step.query host with
  | .collect, _ => known.expire (limitTimeOf step.now)
  | .serve _, none => known
  | .serve request, some query => known.announce query request.protocol step.now

def after (host : Host) (steps : List Step) : Known := steps.foldl (step host) nobody

end Known

section Runs

variable {host : Host} {steps : List Step} {torrentList : TorrentList}

/-- The tables of lists of a run hold the flat map that its steps make. -/
theorem peerAt_eq_known (traced : Traced (Step.Takes host) emptyTorrentList steps torrentList) :
    Step.peerAt torrentList = Known.after host steps := by
  have nobody : Step.peerAt emptyTorrentList = Known.nobody := by
    funext infoHash peerId
    rw [Step.peerAt, emptyTorrentList, newList_value]
    rfl
  rw [Known.after, ← nobody]
  apply traced.folds
  intro step before after reached taken
  funext infoHash peerId
  rw [Step.peerAt_run (reached_inv reached) taken, Known.step]
  cases step.action with
  | collect => rfl
  | serve request =>
      cases step.query host with
      | none => rfl
      | some query =>
          dsimp only [Known.announce]
          by_cases torrent : infoHash = query.infoHash.list
          · subst torrent
            rw [Function.update_self]
            by_cases peer : peerId = query.peerId.list
            · subst peer
              rw [Function.update_self, if_pos ⟨rfl, rfl⟩]
            · rw [Function.update_of_ne peer, if_neg fun both => peer both.2]
          · rw [Function.update_of_ne torrent, if_neg fun both => torrent both.1]

/-- The peers that can be reached over the protocol version of a query. -/
def Suits (query : Query) (known : Hash → Option PeerData) : Set Hash :=
  {peerId | ∃ peer, known peerId = some peer ∧ matchesVersion query (peerId, peer) = true}

/-- A block tells of known peers that suit the query, of none twice: of as many as are wanted
or as there are, unless it is full. A query that wants none is told of everybody. -/
structure Tells (inetNtop : InetNtop) (query : Query) (known : Hash → Option PeerData)
    (rendered : List (Hash × PeerData)) (block : List UInt8) : Prop where
  isKnown : ∀ peer ∈ rendered, known peer.1 = some peer.2
  suits : ∀ peer ∈ rendered, matchesVersion query peer = true
  finite : (Suits query known).Finite
  distinct : (rendered.map Prod.fst).Nodup
  bytes : block = rendered.flatMap fun peer => renderPeer inetNtop query peer.1 peer.2
  counted : query.numwant ≠ 0 → rendered.length ≤ query.numwant.toNat ∧
    (rendered.length = min query.numwant.toNat (Set.ncard (Suits query known)) ∨
      dataMaxPacketSize ≤ block.length)
  unwanted : query.numwant = 0 → rendered.length = Set.ncard (Suits query known) ∨
    dataMaxPacketSize ≤ block.length

theorem renderPairs_tells (inetNtop : InetNtop) (query : Query) {peerList : HashList PeerData}
    (peers : PeersInv peerList) :
    ∃ rendered, Tells inetNtop query peerList.value rendered
      (renderPairs inetNtop query peerList.pairs [] query.numwant) := by
  have distinct := pairs_nodup peers.inv.linked
  have counts : Set.ncard (Suits query peerList.value) =
      peerList.pairs.countP (matchesVersion query) := by
    rw [← ncard_pairs distinct]
    simp only [Suits, value_eq_some_iff peers.inv.linked]
  have finite : (Suits query peerList.value).Finite := by
    apply (List.finite_toSet (peerList.pairs.map Prod.fst)).subset
    rintro peerId ⟨peer, stored, _⟩
    exact List.mem_map.mpr ⟨_, (value_eq_some_iff peers.inv.linked).mp stored, rfl⟩
  obtain ⟨rendered, sublist, versions, result, bounded, exactly⟩ :=
    renderPairs_spec inetNtop query peerList.pairs [] query.numwant
  rw [← counts] at exactly
  refine ⟨rendered, ?_, versions, finite, distinct.sublist (sublist.map _), result, ?_, ?_⟩
  · intro peer member
    exact (value_eq_some_iff peers.inv.linked).mpr (sublist.subset member)
  · intro wants
    rw [countdown_of_ne_zero wants] at bounded exactly
    exact ⟨bounded, exactly⟩
  · intro zero
    rcases exactly with exactly | full
    · by_cases few : Set.ncard (Suits query peerList.value) ≤ countdown query.numwant
      · exact Or.inl (by rw [exactly, Nat.min_eq_right few])
      · have long := length_le_flatMap_renderPeer inetNtop query rendered
        have whole : dataMaxPacketSize ≤ countdown 0 := by decide
        rw [zero] at few exactly
        rw [Nat.min_eq_left (Nat.le_of_not_le few)] at exactly
        right
        rw [zero] at result
        rw [zero, result, List.nil_append]
        omega
    · exact Or.inr full

theorem reply_tells (inetNtop : InetNtop) (table : TableInv torrentList) (query : Query)
    (protocol : UInt8) (interval : UInt32) (now : Int) :
    ∃ torrentList' counters block rendered,
      announce inetNtop torrentList query protocol interval now = .ok (torrentList',
        announceHead counters query interval block.length ++ block ++ announceTail query) ∧
      Tells inetNtop query
        (Known.announce (Step.peerAt torrentList) query protocol now query.infoHash.list) rendered
        block := by
  obtain ⟨torrentList', after, completed, table', _, update, announced⟩ :=
    announce_spec inetNtop table query protocol interval now
  have knows : peerIn after =
      Known.announce (Step.peerAt torrentList) query protocol now query.infoHash.list := by
    funext peerId
    rw [announced.peerIn_eq (torrentOf_inv table.table query.infoHash), Known.announce,
      Function.update_self]
    rfl
  rw [← knows]
  cases after with
  | none =>
      refine ⟨torrentList', _, [], [], by simpa [announceReply] using completed, ?_⟩
      have empty : Suits query (peerIn none) = ∅ := by
        apply Set.eq_empty_of_forall_notMem
        rintro peerId ⟨peer, absurdity, _⟩
        cases absurdity
      refine ⟨List.forall_mem_nil _, List.forall_mem_nil _, by simp [empty], List.nodup_nil, rfl,
        fun _ => ⟨Nat.zero_le _, Or.inl ?_⟩, fun _ => Or.inl ?_⟩
      · rw [empty, Set.ncard_empty, Nat.min_zero, List.length_nil]
      · rw [empty, Set.ncard_empty, List.length_nil]
  | some torrent' =>
      have stored : (query.infoHash.list, torrent') ∈ torrentList'.pairs := by
        apply (value_eq_some_iff table'.inv.linked).mp
        rw [update.value_eq table.inv.linked table'.inv.linked, Function.update_self]
      obtain ⟨rendered, tells⟩ :=
        renderPairs_tells inetNtop query (table'.table.torrents _ stored)
      exact ⟨torrentList', _, _, rendered, completed, tells⟩

theorem Tells.mem {inetNtop : InetNtop} {query : Query} {known : Hash → Option PeerData}
    {rendered : List (Hash × PeerData)} {block : List UInt8}
    (tells : Tells inetNtop query known rendered block)
    (all : rendered.length = Set.ncard (Suits query known)) {peerId : Hash} {peer : PeerData}
    (isKnown : known peerId = some peer) (suits : matchesVersion query (peerId, peer) = true) :
    (peerId, peer) ∈ rendered := by
  have told : ((rendered.map Prod.fst).toFinset : Set Hash) ⊆ Suits query known := by
    intro other member
    obtain ⟨entry, inside, rfl⟩ := List.mem_map.mp (List.mem_toFinset.mp member)
    exact ⟨entry.2, tells.isKnown entry inside, tells.suits entry inside⟩
  have size : ((rendered.map Prod.fst).toFinset : Set Hash).ncard = rendered.length := by
    rw [Set.ncard_coe_finset, List.toFinset_card_of_nodup tells.distinct, List.length_map]
  have whole := Set.eq_of_subset_of_ncard_le told (by rw [size, all]) tells.finite
  have member : peerId ∈ ((rendered.map Prod.fst).toFinset : Set Hash) := by
    rw [whole]
    exact ⟨peer, isKnown, suits⟩
  obtain ⟨entry, inside, rfl⟩ := List.mem_map.mp (List.mem_toFinset.mp member)
  have same := tells.isKnown entry inside
  rw [isKnown] at same
  cases same
  exact inside

theorem Tells.length_compact {inetNtop : InetNtop} {query : Query} {known : Hash → Option PeerData}
    {rendered : List (Hash × PeerData)} {block : List UInt8}
    (tells : Tells inetNtop query known rendered block) (compact : query.compact = true)
    (ipv4 : query.ipVersion &&& socketVersionIpv4Bit ≠ 0) :
    block.length = 6 * rendered.length := by
  have six : ∀ peer ∈ rendered, (renderPeer inetNtop query peer.1 peer.2).length = 6 := by
    intro peer _
    simp only [renderPeer, compact, true_or, if_true, if_pos ipv4]
    rw [List.length_append, List.length_drop, peer.2.ip4.length_eq]
    rfl
  rw [tells.bytes, List.length_flatMap, List.map_congr_left six, List.map_const',
    List.sum_replicate, nsmul_eq_mul, Nat.mul_comm]
  rfl

/-- A step that is not about a peer, and no pass that is too late for it. -/
structure Step.Spares (host : Host) (infoHash peerId : Hash) (seen : Int) (step : Step) : Prop where
  others : ∀ query, step.query host = some query →
    ¬(infoHash = query.infoHash.list ∧ peerId = query.peerId.list)
  early : step.action = .collect → limitTimeOf step.now ≤ seen

namespace Known

variable {known : Known} {infoHash peerId : Hash} {peer : PeerData}

theorem announce_other {query : Query}
    (other : ¬(infoHash = query.infoHash.list ∧ peerId = query.peerId.list)) (protocol : UInt8)
    (now : Int) : known.announce query protocol now infoHash peerId = known infoHash peerId := by
  by_cases torrent : infoHash = query.infoHash.list
  · subst torrent
    have differs : peerId ≠ query.peerId.list := fun same => other ⟨rfl, same⟩
    rw [announce, Function.update_self, Function.update_of_ne differs]
  · rw [announce, Function.update_of_ne torrent]

theorem step_stores {step : Step} {request : Request} {query : Query}
    (stores : step.Stores host request query) :
    known.step host step = known.announce query request.protocol step.now := by
  rw [Known.step, stores.isRequest, stores.announces]

theorem step_spared {step : Step} (spares : step.Spares host infoHash peerId peer.updateTime)
    (isKnown : known infoHash peerId = some peer) :
    known.step host step infoHash peerId = some peer := by
  rw [Known.step]
  cases isAction : step.action with
  | collect =>
      have early := spares.early isAction
      simp only [expire, isKnown, Option.filter_some, early, decide_true, if_true]
  | serve request =>
      cases announces : step.query host with
      | none => exact isKnown
      | some query =>
          dsimp only
          rw [announce_other (spares.others query announces), isKnown]

theorem after_announced {before later : List Step} {step : Step} {request : Request}
    {announced : Query} (stores : step.Stores host request announced)
    (spared : ∀ other ∈ later,
      other.Spares host announced.infoHash.list announced.peerId.list step.now) :
    ∃ first : PeerData, Known.after host (before ++ step :: later) announced.infoHash.list
      announced.peerId.list = some (first.update announced request.protocol step.now) := by
  have stored : ∃ first : PeerData, Known.after host (before ++ [step]) announced.infoHash.list
      announced.peerId.list = some (first.update announced request.protocol step.now) := by
    rw [Known.after, List.foldl_append, List.foldl_cons, List.foldl_nil, step_stores stores,
      announce, Function.update_self, Function.update_self, if_neg stores.goesOn]
    exact ⟨_, rfl⟩
  obtain ⟨first, isKnown⟩ := stored
  refine ⟨first, ?_⟩
  have split : before ++ step :: later = (before ++ [step]) ++ later := by simp
  rw [split, Known.after, List.foldl_append]
  change (Known.after host (before ++ [step])) _ _ = _ at isKnown
  rw [Known.after] at isKnown
  generalize (before ++ [step]).foldl (Known.step host) nobody = known at isKnown
  induction later generalizing known with
  | nil => exact isKnown
  | cons other rest ih =>
      rw [List.foldl_cons]
      apply ih (fun next member => spared next (List.mem_cons_of_mem _ member)) (by simp)
      exact step_spared (spared other List.mem_cons_self) isKnown

end Known

/-- Who has announced himself and not stopped, and has not expired, is told of to everybody who
asks over the same protocol version and wants as many peers as there are. -/
theorem announced_is_told {before later : List Step} {step : Step} {request : Request}
    {announced query : Query}
    (traced : Traced (Step.Takes host) emptyTorrentList (before ++ step :: later) torrentList)
    (stores : step.Stores host request announced)
    (spared : ∀ other ∈ later,
      other.Spares host announced.infoHash.list announced.peerId.list step.now)
    (torrent : query.infoHash = announced.infoHash) (other : query.peerId ≠ announced.peerId)
    (version : query.ipVersion = announced.ipVersion)
    (protocol : UInt8) (interval : UInt32) (now : Int) (wants : query.numwant ≠ 0)
    (enough : Set.ncard (Suits query ((Known.after host (before ++ step :: later)).announce query
      protocol now query.infoHash.list)) ≤ query.numwant.toNat) :
    ∃ torrentList' counters block peer,
      announce host.inetNtop torrentList query protocol interval now = .ok (torrentList',
        announceHead counters query interval block.length ++ block ++ announceTail query) ∧
      peer.port = announced.port ∧ addressOf query peer = announced.ip ∧
      ((∃ front back,
        block = front ++ renderPeer host.inetNtop query announced.peerId.list peer ++ back) ∨
        dataMaxPacketSize ≤ block.length) := by
  obtain ⟨torrentList', counters, block, rendered, completed, tells⟩ :=
    reply_tells host.inetNtop (reached_inv traced.reached) query protocol interval now
  rw [peerAt_eq_known traced] at tells
  obtain ⟨first, stored⟩ := @Known.after_announced host before later step request announced stores
    spared
  have apart : ¬(announced.infoHash.list = query.infoHash.list ∧
      announced.peerId.list = query.peerId.list) :=
    fun both => other (Bytes.ext both.2.symm)
  have isKnown := @Known.announce_other (Known.after host (before ++ step :: later)) _ _ query apart
    protocol now
  rw [stored, ← torrent] at isKnown
  have reachable : announced.ipVersion ≠ 0 := by
    rcases stores.family.1 with isVersion | isVersion <;> rw [isVersion] <;> decide
  have suits : matchesVersion query (announced.peerId.list,
      first.update announced request.protocol step.now) = true := by
    have bits : (first.update announced request.protocol step.now).ipVersion =
        first.ipVersion ||| announced.ipVersion := rfl
    have common : announced.ipVersion &&& (first.ipVersion ||| announced.ipVersion) ≠ 0 := by
      rw [UInt8.and_comm, or_mask_ne_zero_iff, UInt8.and_self]
      exact Or.inr reachable
    simpa only [matchesVersion, bits, version, decide_eq_true_eq] using common
  refine ⟨torrentList', counters, block, first.update announced request.protocol step.now,
    completed, rfl, ?_, ?_⟩
  · rw [addressOf, version]
    by_cases v4 : announced.ipVersion &&& socketVersionIpv4Bit ≠ 0
    · rw [if_pos v4]
      exact if_pos v4
    · rw [if_neg v4]
      exact if_neg v4
  · obtain ⟨_, exactly | full⟩ := tells.counted wants
    · rw [Nat.min_eq_right enough] at exactly
      obtain ⟨front, back, split⟩ := List.append_of_mem (tells.mem exactly isKnown suits)
      refine Or.inl ⟨front.flatMap fun peer => renderPeer host.inetNtop query peer.1 peer.2,
        back.flatMap fun peer => renderPeer host.inetNtop query peer.1 peer.2, ?_⟩
      rw [tells.bytes, split, List.flatMap_append, List.flatMap_cons, List.append_assoc]
    · exact Or.inr full

end Runs

section Plain

theorem plainStarted : ∃ torrentList announced,
    Traced (Step.Takes plainHost) emptyTorrentList
      ([] ++ plainUdp uriEventIdStarted.toUInt32 0 :: []) torrentList ∧
    (plainUdp uriEventIdStarted.toUInt32 0).Stores plainHost
      (.udp (Bytes.zero _) (plainPacket uriEventIdStarted.toUInt32).bytes) announced ∧
    announced.infoHash = Bytes.zero _ ∧ announced.peerId = Bytes.zero _ := by
  obtain ⟨announced, announces, event, infoHash, peerId⟩ :=
    plainPacket_query plainHost plainSettings uriEventIdStarted.toUInt32
  have serves : (plainUdp uriEventIdStarted.toUInt32 0).action ≠ .collect := nofun
  obtain ⟨torrentList, taken⟩ := @Step.run_serves plainHost _ _ emptyTorrentList_inv serves
  have stores : (plainUdp uriEventIdStarted.toUInt32 0).Stores plainHost _ announced :=
    ⟨rfl, announces, by rw [event]; decide⟩
  exact ⟨torrentList, announced, .next .start taken, stores, infoHash, peerId⟩

/-- Of six peers one stops, one expires, and one is reached over IPv6 only. -/
def tellingSteps : List Step :=
  [sampleIpv4 0 1 2 1000, sampleIpv4 0 2 2 4000, sampleUdp 0 3 2 4100, sampleIpv4 0 4 2 4200,
    sampleIpv4 0 5 2 4300, sampleIpv4 0 6 2 4400, sampleIpv4 0 5 3 4500, samplePass 5000]

/-- A second peer asks for two peers, and is told of the first. -/
theorem announced_is_told_plain : ∃ torrentList query torrentList' counters block peer,
    announce plainHost.inetNtop torrentList query dataStructurePeerProtocolUdpBit 0 0 =
      .ok (torrentList', announceHead counters query 0 block.length ++ block ++
        announceTail query) ∧
      ((∃ front back, block = front ++
        renderPeer plainHost.inetNtop query (Bytes.zero uriParamValueLength).list peer ++ back) ∨
        dataMaxPacketSize ≤ block.length) := by
  obtain ⟨torrentList, announced, traced, stores, infoHash, peerId⟩ := plainStarted
  have asks : ∃ query : Query, query.infoHash = announced.infoHash ∧
      query.ipVersion = announced.ipVersion ∧
      query.peerId = Bytes.ofList uriParamValueLength [1] ∧ query.numwant = 2 :=
    ⟨{ announced with peerId := Bytes.ofList uriParamValueLength [1], numwant := 2 },
      rfl, rfl, rfl, rfl⟩
  obtain ⟨query, torrent, version, second, numwant⟩ := asks
  have other : query.peerId ≠ announced.peerId := by
    rw [peerId, second]
    decide
  have two : ∀ id peer, (Known.after plainHost
      ([] ++ plainUdp uriEventIdStarted.toUInt32 0 :: [])).announce query
      dataStructurePeerProtocolUdpBit 0 query.infoHash.list id = some peer →
      id ∈ ({announced.peerId.list, query.peerId.list} : Set Hash) := by
    intro id peer isKnown
    by_contra outside
    rw [Set.mem_insert_iff, Set.mem_singleton_iff, not_or] at outside
    rw [Known.announce_other fun both => outside.2 both.2, Known.after, List.nil_append,
      List.foldl_cons, List.foldl_nil, Known.step_stores stores,
      Known.announce_other fun both => outside.1 both.2] at isKnown
    cases isKnown
  have enough : Set.ncard (Suits query ((Known.after plainHost
      ([] ++ plainUdp uriEventIdStarted.toUInt32 0 :: [])).announce query
      dataStructurePeerProtocolUdpBit 0 query.infoHash.list)) ≤ query.numwant.toNat := by
    rw [numwant]
    calc Set.ncard (Suits query _) ≤
          Set.ncard ({announced.peerId.list, query.peerId.list} : Set Hash) :=
          Set.ncard_le_ncard (fun id ⟨peer, isKnown, _⟩ => two id peer isKnown) (Set.toFinite _)
      _ ≤ Set.ncard ({query.peerId.list} : Set Hash) + 1 := Set.ncard_insert_le _ _
      _ = 2 := by rw [Set.ncard_singleton]
  have wants : query.numwant ≠ 0 := by
    rw [numwant]
    decide
  obtain ⟨torrentList', counters, block, peer, completed, _, _, told⟩ :=
    announced_is_told traced stores nofun torrent other version dataStructurePeerProtocolUdpBit 0 0
      wants enough
  rw [peerId] at told
  exact ⟨torrentList, query, torrentList', counters, block, peer, completed, told⟩

end Plain

end Etracker
