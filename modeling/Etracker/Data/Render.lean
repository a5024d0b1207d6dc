import Etracker.Data.Announce
import Etracker.Data.Torrents

namespace Etracker

open Foundation Foundation.CString Foundation.Outcome Foundation.Traversal

variable (inetNtop : InetNtop)

def matchesVersion (query : Query) (peer : Hash × PeerData) : Bool :=
  query.ipVersion &&& peer.2.ipVersion ≠ 0

/-- The countdown of `renderAnnouncePeersCallback` over the peers of a list. -/
def renderPairs (query : Query) :
    List (Hash × PeerData) → List UInt8 → UInt32 → List UInt8
  | [], block, _ => block
  | peer :: rest, block, leftPeers =>
      if block.length ≥ dataMaxPacketSize then block
      else if matchesVersion query peer = false then renderPairs query rest block leftPeers
      else
        let block := block ++ renderPeer inetNtop query peer.1 peer.2
        if leftPeers - 1 ≤ 0 then block else renderPairs query rest block (leftPeers - 1)

/-- One visit of `renderAnnouncePeersCallback`, said of the entry. -/
def renderStep (query : Query) : EntryStep PeerData (List UInt8 × UInt32)
  | entry, (block, leftPeers) =>
      if block.length ≥ dataMaxPacketSize then .ok ⟨true, [entry], [], block, leftPeers⟩
      else match entry.2.data with
      | none => .error .dangling
      | some peerDataL =>
          if query.ipVersion &&& peerDataL.ipVersion = 0 then
            .ok ⟨false, [entry], [], block, leftPeers⟩
          else
            .ok ⟨leftPeers - 1 ≤ 0, [entry], [],
              block ++ renderPeer inetNtop query entry.2.hash peerDataL, leftPeers - 1⟩

theorem renderAnnouncePeersCallback_implements (query : Query) :
    Implements (renderAnnouncePeersCallback inetNtop query) (renderStep inetNtop query) := by
  rintro list leaf front back entry ⟨block, leftPeers⟩ linked split
  have member : entry ∈ list.leafEntries leaf := by simp [split]
  obtain ⟨stored, present, hashIs, _, dataIs⟩ := Represents.stored linked member
  have unchanged : Rewritten list list leaf (front ++ [entry] ++ back) := by
    have same := Rewritten.refl linked leaf
    rw [split] at same
    simpa using same
  simp only [renderAnnouncePeersCallback, renderStep]
  by_cases full : block.length ≥ dataMaxPacketSize
  · simp only [if_pos full]
    exact ⟨list, rfl, by simp, unchanged⟩
  · simp only [if_neg full, HashList.dataOf, HashList.deref, present, pure_eq_ok, ok_bind, hashIs,
      dataIs]
    cases entry.2.data with
    | none => rfl
    | some peerDataL =>
        simp only [ok_bind]
        by_cases other : query.ipVersion &&& peerDataL.ipVersion = 0
        · simp only [if_pos other]
          exact ⟨list, rfl, by simp, unchanged⟩
        · simp only [if_neg other]
          refine ⟨list, ?_, by simp, unchanged⟩
          by_cases done : leftPeers - 1 ≤ 0 <;> simp [ListReturn.ofStop, done]

theorem renderStep_traverse (query : Query) {entries : List (Entry PeerData)}
    (filled : ∀ entry ∈ entries, ∃ data, entry.2.data = some data) (block : List UInt8)
    (leftPeers : UInt32) :
    ∃ visit, traverse (renderStep inetNtop query) entries (block, leftPeers) = .ok visit ∧
      visit.state.1 = renderPairs inetNtop query (entries.filterMap entryPair) block leftPeers := by
  induction entries generalizing block leftPeers with
  | nil => exact ⟨_, rfl, rfl⟩
  | cons entry rest ih =>
      obtain ⟨peerDataL, stored⟩ := filled entry (by simp)
      have later := ih fun other member => filled other (by simp [member])
      have pairs : (entry :: rest).filterMap entryPair =
          (entry.2.hash, peerDataL) :: rest.filterMap entryPair :=
        List.filterMap_cons_some (by simp [entryPair, stored])
      rw [pairs, renderPairs, Traversal.traverse]
      by_cases full : block.length ≥ dataMaxPacketSize
      · simp only [renderStep, if_pos full, ok_bind]
        rw [andThen_stop rfl]
        exact ⟨_, rfl, rfl⟩
      · simp only [renderStep, if_neg full, stored]
        by_cases other : query.ipVersion &&& peerDataL.ipVersion = 0
        · obtain ⟨visit, run, result⟩ := later block leftPeers
          simp only [if_pos other, ok_bind]
          rw [andThen_continue rfl, run]
          refine ⟨_, rfl, ?_⟩
          simp [matchesVersion, other, result]
        · have matched : ¬ matchesVersion query (entry.2.hash, peerDataL) = false := by
            simp [matchesVersion, other]
          simp only [if_neg other, if_neg matched, ok_bind]
          by_cases done : leftPeers - 1 ≤ 0
          · rw [andThen_stop (by simp [done]), if_pos done]
            exact ⟨_, rfl, rfl⟩
          · obtain ⟨visit, run, result⟩ :=
              later (block ++ renderPeer inetNtop query entry.2.hash peerDataL) (leftPeers - 1)
            rw [andThen_continue (by simp [done]), if_neg done, run]
            exact ⟨_, rfl, result⟩

theorem renderAnnouncePeersL_eq {peerList : HashList PeerData} (peers : PeersInv peerList)
    (query : Query) :
    renderAnnouncePeersL inetNtop peerList query =
      .ok (renderPairs inetNtop query peerList.pairs [] query.numwant) := by
  obtain ⟨visit, run, result⟩ :=
    renderStep_traverse inetNtop query peers.filled [] query.numwant
  have simulated := mapList_simulates (renderAnnouncePeersCallback_implements inetNtop query) peers.inv
    ([], query.numwant)
  rw [run] at simulated
  obtain ⟨list', mapped, _⟩ := simulated
  simp only [renderAnnouncePeersL, mapped, ok_bind, pure_eq_ok]
  rw [HashList.pairs, ← result]

theorem renderPeer_ne_nil (query : Query) (hash : Hash) (peerDataL : PeerData) :
    renderPeer inetNtop query hash peerDataL ≠ [] := by
  unfold renderPeer
  dsimp only
  split_ifs <;> simp [shortBytes, ascii]

/-- The reply names some stored peers of the right protocol version, in list order
and none twice: as many as were wanted or as there are, unless the block is full. -/
def AnnouncesPeers (query : Query) (peers : List (Hash × PeerData))
    (block : List UInt8) : Prop :=
  ∃ rendered : List (Hash × PeerData), rendered.Sublist peers ∧ (rendered.map Prod.fst).Nodup ∧
    (∀ peer ∈ rendered, matchesVersion query peer = true) ∧
    block = rendered.flatMap (fun peer => renderPeer inetNtop query peer.1 peer.2) ∧
    rendered.length ≤ query.numwant.toNat ∧
    (rendered.length = min query.numwant.toNat (peers.countP (matchesVersion query)) ∨
      dataMaxPacketSize ≤ block.length)

def countdown (leftPeers : UInt32) : Nat := (leftPeers - 1).toNat + 1

theorem countdown_of_ne_zero {leftPeers : UInt32} (wanted : leftPeers ≠ 0) :
    countdown leftPeers = leftPeers.toNat := by
  have positive : 0 < leftPeers.toNat :=
    Nat.pos_of_ne_zero fun zero => wanted (UInt32.toNat_inj.mp zero)
  rw [countdown, toNat_sub_one positive, Nat.sub_add_cancel positive]

theorem countdown_done_iff (leftPeers : UInt32) : leftPeers - 1 ≤ 0 ↔ countdown leftPeers = 1 := by
  rw [UInt32.le_iff_toNat_le, countdown]
  show (leftPeers - 1).toNat ≤ 0 ↔ _
  omega

theorem countdown_next {leftPeers : UInt32} (more : ¬leftPeers - 1 ≤ 0) :
    countdown leftPeers = countdown (leftPeers - 1) + 1 := by
  have positive : leftPeers - 1 ≠ 0 := by
    rintro last
    exact more (by rw [last]; exact UInt32.le_refl 0)
  rw [countdown_of_ne_zero positive, countdown]

/-- Some peers of the right version are rendered, in the order of the list, and the countdown
counts them. -/
theorem renderPairs_spec (query : Query) (peers : List (Hash × PeerData)) (block : List UInt8)
    (leftPeers : UInt32) :
    ∃ rendered : List (Hash × PeerData), rendered.Sublist peers ∧
      (∀ peer ∈ rendered, matchesVersion query peer = true) ∧
      renderPairs inetNtop query peers block leftPeers =
        block ++ rendered.flatMap (fun peer => renderPeer inetNtop query peer.1 peer.2) ∧
      rendered.length ≤ countdown leftPeers ∧
      (rendered.length = min (countdown leftPeers) (peers.countP (matchesVersion query)) ∨
        dataMaxPacketSize ≤ (renderPairs inetNtop query peers block leftPeers).length) := by
  induction peers generalizing block leftPeers with
  | nil => exact ⟨[], by simp, by simp, by simp [renderPairs], by simp⟩
  | cons peer rest ih =>
      rw [renderPairs]
      split_ifs with full other done
      · exact ⟨[], by simp, by simp, by simp, by simp, Or.inr full⟩
      · obtain ⟨rendered, sublist, versions, result, counted⟩ := ih block leftPeers
        refine ⟨rendered, sublist.cons _, versions, result, ?_⟩
        rw [List.countP_cons_of_neg (by simp [other])]
        exact counted
      · have matched : matchesVersion query peer = true := by simpa using other
        refine ⟨[peer], by simp, by simp [matched], by simp, ?_⟩
        rw [List.countP_cons_of_pos matched, (countdown_done_iff leftPeers).mp done]
        exact ⟨by simp, Or.inl (by simp)⟩
      · have matched : matchesVersion query peer = true := by simpa using other
        obtain ⟨rendered, sublist, versions, result, bounded, exactly⟩ :=
          ih (block ++ renderPeer inetNtop query peer.1 peer.2) (leftPeers - 1)
        refine ⟨peer :: rendered, sublist.cons_cons _, ?_, ?_, ?_⟩
        · intro other member
          rcases List.mem_cons.mp member with rfl | later
          · exact matched
          · exact versions other later
        · rw [result, List.flatMap_cons, List.append_assoc]
        · have next := countdown_next done
          rw [List.countP_cons_of_pos matched, List.length_cons]
          refine ⟨by omega, exactly.imp ?_ id⟩
          intro same
          omega

theorem length_le_flatMap_renderPeer (query : Query) (rendered : List (Hash × PeerData)) :
    rendered.length ≤
      (rendered.flatMap fun peer => renderPeer inetNtop query peer.1 peer.2).length := by
  induction rendered with
  | nil => exact Nat.le_refl _
  | cons peer rest ih =>
      have added := List.length_pos_iff.mpr (renderPeer_ne_nil inetNtop query peer.1 peer.2)
      rw [List.length_cons, List.flatMap_cons, List.length_append]
      omega

theorem renderPairs_extends (query : Query) (peers : List (Hash × PeerData)) (block : List UInt8)
    (leftPeers : UInt32) : block <+: renderPairs inetNtop query peers block leftPeers := by
  induction peers generalizing block leftPeers with
  | nil => exact List.prefix_refl block
  | cons peer rest ih =>
      have grown : block <+: block ++ renderPeer inetNtop query peer.1 peer.2 :=
        List.prefix_append _ _
      rw [renderPairs]
      split_ifs
      · exact List.prefix_refl block
      · exact ih block leftPeers
      · exact grown
      · exact grown.trans (ih _ _)

/-- The cut-off is checked before a peer is added, so the block exceeds it by one peer at
most. -/
theorem renderPairs_length_lt (query : Query) {peerSize : Nat} {peers : List (Hash × PeerData)}
    (sized : ∀ peer ∈ peers, (renderPeer inetNtop query peer.1 peer.2).length ≤ peerSize)
    (block : List UInt8) (leftPeers : UInt32) (room : block.length < dataMaxPacketSize + peerSize) :
    (renderPairs inetNtop query peers block leftPeers).length < dataMaxPacketSize + peerSize := by
  induction peers generalizing block leftPeers with
  | nil => exact room
  | cons peer rest ih =>
      have later := ih fun other member => sized other (List.mem_cons_of_mem _ member)
      have added := sized peer List.mem_cons_self
      rw [renderPairs]
      split_ifs with full other done
      · exact room
      · exact later block leftPeers room
      · rw [List.length_append]
        omega
      · apply later
        rw [List.length_append]
        omega

theorem renderPairs_eq_self_iff (query : Query) (peers : List (Hash × PeerData))
    (block : List UInt8) (leftPeers : UInt32) (room : block.length < dataMaxPacketSize) :
    renderPairs inetNtop query peers block leftPeers = block ↔
      ∀ peer ∈ peers, matchesVersion query peer = false := by
  induction peers with
  | nil => simp [renderPairs]
  | cons peer rest ih =>
      rw [renderPairs, if_neg (by omega), List.forall_mem_cons]
      cases matched : matchesVersion query peer with
      | false =>
          rw [if_pos rfl, ih]
          simp
      | true =>
          have longer : ∀ final, block ++ renderPeer inetNtop query peer.1 peer.2 <+: final →
              final ≠ block := by
            intro final grown same
            have lengths := grown.length_le
            have added := List.length_pos_iff.mpr
              (renderPeer_ne_nil inetNtop query peer.1 peer.2)
            rw [same, List.length_append] at lengths
            omega
          simp only [Bool.true_eq_false, if_false, false_and, iff_false]
          split_ifs
          · exact longer _ (List.prefix_refl _)
          · exact longer _ (renderPairs_extends inetNtop query rest _ _)

/-- The peers of a block are those of the list exactly if the countdown does not
start at zero, where it wraps around, or finds nobody to count. -/
theorem renderPairs_announces (query : Query) {peers : List (Hash × PeerData)}
    (distinct : (peers.map Prod.fst).Nodup) :
    AnnouncesPeers inetNtop query peers (renderPairs inetNtop query peers [] query.numwant) ↔
      query.numwant ≠ 0 ∨ ∀ peer ∈ peers, matchesVersion query peer = false := by
  have unchanged := renderPairs_eq_self_iff inetNtop query peers [] query.numwant (by decide)
  constructor
  · rintro ⟨rendered, _, _, _, result, bounded, _⟩
    by_cases wanted : query.numwant = 0
    · right
      have nobody : rendered = [] := by
        rw [wanted] at bounded
        exact List.length_eq_zero_iff.mp (Nat.le_zero.mp bounded)
      rw [nobody, List.flatMap_nil] at result
      exact unchanged.mp result
    · exact Or.inl wanted
  · rintro (wanted | nobody)
    · obtain ⟨rendered, sublist, versions, result, bounded, exactly⟩ :=
        renderPairs_spec inetNtop query peers [] query.numwant
      rw [countdown_of_ne_zero wanted] at bounded exactly
      refine ⟨rendered, sublist, distinct.sublist (sublist.map _), versions, ?_, bounded, exactly⟩
      simpa using result
    · have counted : peers.countP (matchesVersion query) = 0 := by
        rw [List.countP_eq_zero]
        intro peer member
        simp [nobody peer member]
      refine ⟨[], by simp, by simp, by simp, ?_, by simp, Or.inl (by simp [counted])⟩
      rw [unchanged.mpr nobody]
      rfl

def announceQuery (event : UInt8) (numwant : UInt32) : Query :=
  { Query.empty with
    ip := ⟨v4MappedPrefix ++ [10, 0, 0, 1], rfl⟩
    ipVersion := socketVersionIpv4Bit
    compact := true
    port := 1
    event := event
    numwant := numwant }

end Etracker
