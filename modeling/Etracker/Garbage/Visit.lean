import Etracker.Garbage.Exact

namespace Etracker

open Foundation Foundation.Outcome Foundation.Traversal

variable {α σ τ : Type}

section Project

variable {callback : Callback α σ} {reduced : Callback α τ} {project : σ → τ}

def projected (project : σ → τ) (result : ListReturn × HashList α × σ) :
    ListReturn × HashList α × τ :=
  (result.1, result.2.1, project result.2.2)

def ProjectsTo (callback : Callback α σ) (reduced : Callback α τ) (project : σ → τ) : Prop :=
  ∀ leaf item list args,
    (callback leaf item (list, args)).map (projected project) =
      reduced leaf item (list, project args)

variable (projects : ProjectsTo callback reduced project)

include projects

theorem mapItems_project (leaf : Path) (fuel : Nat) (item : Option Address) (list : HashList α)
    (args : σ) :
    (mapItems callback leaf fuel item (list, args)).map (projected project) =
      mapItems reduced leaf fuel item (list, project args) := by
  induction fuel generalizing item list args with
  | zero => cases item <;> rfl
  | succ fuel ih =>
      cases item with
      | none => rfl
      | some item =>
          simp only [mapItems]
          cases list.deref item with
          | error fault => rfl
          | ok current =>
              simp only [ok_bind]
              rw [← projects leaf item list args]
              cases callback leaf item (list, args) with
              | error fault => rfl
              | ok result =>
                  obtain ⟨answer, list', args'⟩ := result
                  cases answer with
                  | listBreak => rfl
                  | listContinue => exact ih current.nextInLeaf list' args'

theorem mapLeaf_project (leaf : Path) (list : HashList α) (args : σ) :
    (mapLeaf callback leaf (list, args)).map (projected project) =
      mapLeaf reduced leaf (list, project args) := by
  simp only [mapLeaf]
  by_cases absent : list.firstItem leaf = none
  · rw [if_pos absent, if_pos absent]
    rfl
  · rw [if_neg absent, if_neg absent]
    cases waitSemaphoreLeaf list leaf with
    | error fault => rfl
    | ok waited =>
        simp only [ok_bind]
        rw [← mapItems_project projects leaf _ _ waited args]
        cases mapItems callback leaf waited.fresh (waited.firstItem leaf) (waited, args) with
        | error fault => rfl
        | ok result =>
            obtain ⟨answer, list', args'⟩ := result
            show Except.map _ (postSemaphoreLeaf list' leaf >>= _) =
              postSemaphoreLeaf list' leaf >>= _
            cases postSemaphoreLeaf list' leaf with
            | error fault => rfl
            | ok posted => rfl

theorem mapBranches_project (paths : List Path) (list : HashList α) (args : σ) :
    (mapBranches (mapLeaf callback) paths (list, args)).map (projected project) =
      mapBranches (mapLeaf reduced) paths (list, project args) := by
  induction paths generalizing list args with
  | nil => rfl
  | cons path rest ih =>
      simp only [mapBranches]
      rw [← mapLeaf_project projects path list args]
      cases mapLeaf callback path (list, args) with
      | error fault => rfl
      | ok result =>
          obtain ⟨answer, list', args'⟩ := result
          cases answer with
          | listBreak => rfl
          | listContinue => exact ih list' args'

theorem mapList_project (list : HashList α) (args : σ) :
    (mapList list args callback).map (projected project) = mapList list (project args) reduced := by
  rw [mapList, mapList, mapListFrom_eq, mapListFrom_eq]
  exact mapBranches_project projects _ list args

end Project

/-- What `runGarbageCollectorCallbackCallback` does to a list of peers. `args` is the limit of
the pass, the number of peers that stayed, and the counters of the torrent. -/
def collectPeer : Callback PeerData (Int × UInt32 × TorrentCounters)
  | _, peer, (list, limitTime, current, counters) => do
      let peerDataL ← list.dataOf peer
      if peerDataL.updateTime < limitTime then
        let list ← deleteItem list peer
        pure (.listContinue, list, limitTime, current,
          removeFromCounters counters peerDataL.event)
      else pure (.listContinue, list, limitTime, current + 1, counters)

def currentFigures (args : GarbageStats × TorrentCounters) : Int × UInt32 × TorrentCounters :=
  (args.1.limitTime, args.1.currentPeersInTorrent, args.2)

theorem runGarbageCollectorCallbackCallback_projects :
    ProjectsTo runGarbageCollectorCallbackCallback collectPeer currentFigures := by
  intro leaf item list ⟨stats, counters⟩
  have reduces : currentFigures (stats, counters) =
      (stats.limitTime, stats.currentPeersInTorrent, counters) := rfl
  have limit : (stats.seePeerLeaf leaf).limitTime = stats.limitTime := rfl
  rw [reduces]
  simp only [runGarbageCollectorCallbackCallback, collectPeer]
  cases list.dataOf item with
  | error fault => rfl
  | ok peerDataL =>
      simp only [ok_bind, limit]
      by_cases old : peerDataL.updateTime < stats.limitTime
      · rw [if_pos old, if_pos old]
        cases deleteItem list item with
        | error fault => rfl
        | ok list' => rfl
      · rw [if_neg old, if_neg old]
        rfl

def collectTorrent (limitTime : Int) (torrentDataL : TorrentData) :
    Except Fault (Option TorrentData) := do
  let (_, peerList, _, current, counters) ← mapList torrentDataL.peerList
    (limitTime, 0, torrentDataL.toTorrentCounters) collectPeer
  if current = 0 then
    freeList peerList
    pure none
  else pure (some ⟨counters, peerList⟩)

def leftEntry (entry : Entry TorrentData) (after : Option TorrentData) :
    List (Entry TorrentData) :=
  after.toList.map fun torrentDataL => (entry.1, { entry.2 with data := some torrentDataL })

theorem garbageTorrentStep_kept {entry : Entry TorrentData} {torrentDataL : TorrentData}
    (stored : entry.2.data = some torrentDataL) (stats : GarbageStats) :
    (garbageTorrentStep entry stats).map Visit.kept =
      (collectTorrent stats.limitTime torrentDataL).map (leftEntry entry) := by
  have reduced := mapList_project runGarbageCollectorCallbackCallback_projects
    torrentDataL.peerList (stats.seeTorrent entry.2.leaf entry.1, torrentDataL.toTorrentCounters)
  have start : currentFigures (stats.seeTorrent entry.2.leaf entry.1,
      torrentDataL.toTorrentCounters) =
      (stats.limitTime, 0, torrentDataL.toTorrentCounters) := rfl
  rw [start] at reduced
  simp only [garbageTorrentStep, collectTorrent, stored, ← reduced]
  cases mapList torrentDataL.peerList
      (stats.seeTorrent entry.2.leaf entry.1, torrentDataL.toTorrentCounters)
      runGarbageCollectorCallbackCallback with
  | error fault => rfl
  | ok result =>
      obtain ⟨answer, peerList, stats', counters⟩ := result
      simp only [Except.map, projected, currentFigures, ok_bind]
      by_cases nobody : stats'.currentPeersInTorrent = 0
      · rw [if_pos nobody, if_pos nobody]
        cases freeList peerList with
        | error fault => rfl
        | ok done => rfl
      · rw [if_neg nobody, if_neg nobody]
        rfl

theorem garbageTorrentStep_ok {limitTime : Int} {entry : Entry TorrentData}
    {torrentDataL : TorrentData} (stored : entry.2.data = some torrentDataL)
    (peers : PeersInv torrentDataL.peerList) {stats : GarbageStats}
    (limit : stats.limitTime = limitTime)
    {visit : Visit (Entry TorrentData) TorrentData GarbageStats}
    (visited : garbageTorrentStep entry stats = .ok visit) :
    ∃ after, collectTorrent limitTime torrentDataL = .ok after ∧
      visit.kept = leftEntry entry after ∧ visit.stop = false ∧
      visit.state.limitTime = limitTime ∧
      ∀ torrent', after = some torrent' → PeersInv torrent'.peerList := by
  have kept := garbageTorrentStep_kept stored stats
  rw [visited, limit] at kept
  by_cases countable : Countable limitTime torrentDataL
  · obtain ⟨visit', visited', goesOn, limit', _, result⟩ :=
      garbageTorrentStep_spec stored peers countable stats limit
    cases visited.symm.trans visited'
    cases collected : collectTorrent limitTime torrentDataL with
    | error fault =>
        rw [collected] at kept
        cases kept
    | ok after =>
        rw [collected] at kept
        have same : visit.kept = leftEntry entry after := Except.ok.inj kept
        refine ⟨after, rfl, same, goesOn, limit', ?_⟩
        rintro torrent' rfl
        rcases result with ⟨_, nothing⟩ | ⟨_, torrent'', changed, one⟩
        · rw [same] at nothing
          cases nothing
        · rw [same, leftEntry, Option.toList_some, List.map_singleton, List.cons.injEq,
            Prod.mk.injEq, Stored.mk.injEq, Option.some.injEq] at one
          rw [one.1.2.2.2]
          exact changed.peers
  · rw [garbageTorrentStep_crowd stored peers countable stats limit] at visited
    cases visited

/-- A visit by the collector changes the leaf it is in, and makes of the torrent what it would
make of it at any other time. -/
theorem runGarbageCollectorCallback_ok {torrentList torrentList' : TorrentList}
    (table : TableLinked torrentList) {leaf : Path} {front back : List (Entry TorrentData)}
    {entry : Entry TorrentData} (split : torrentList.leafEntries leaf = front ++ entry :: back)
    {stats stats' : GarbageStats} {answer : ListReturn}
    (visited : runGarbageCollectorCallback leaf entry.1 (torrentList, stats) =
      .ok (answer, torrentList', stats')) :
    ∃ torrentDataL after, entry.2.data = some torrentDataL ∧
      collectTorrent stats.limitTime torrentDataL = .ok after ∧
      Rewritten torrentList torrentList' leaf (front ++ leftEntry entry after ++ back) ∧
      stats'.limitTime = stats.limitTime ∧ answer = .listContinue ∧
      ∀ torrent', after = some torrent' → PeersInv torrent'.peerList := by
  have inLeaf : entry ∈ torrentList.leafEntries leaf := by simp [split]
  have member : entry ∈ torrentList.entries := by
    rw [mem_entries table.linked, (table.linked.routed leaf entry inLeaf).2.2]
    exact inLeaf
  obtain ⟨torrentDataL, stored⟩ := table.filled entry member
  have inside : (entry.2.hash, torrentDataL) ∈ torrentList.pairs :=
    List.mem_filterMap.mpr ⟨entry, member, by simp [entryPair, stored]⟩
  have peers := table.torrents _ inside
  have simulated := runGarbageCollectorCallback_implements torrentList leaf front back entry stats
    table.linked split
  rw [visited] at simulated
  cases step : garbageTorrentStep entry stats with
  | error fault =>
      rw [step] at simulated
      cases simulated
  | ok visit =>
      rw [step] at simulated
      obtain ⟨list', same, _, rewritten⟩ := simulated
      cases same
      obtain ⟨after, collected, kept, goesOn, limit, sound⟩ :=
        garbageTorrentStep_ok stored peers rfl step
      rw [kept] at rewritten
      exact ⟨torrentDataL, after, stored, collected, rewritten, limit, by
        rw [goesOn, ListReturn.ofStop]; rfl, sound⟩

/-- What a pass makes of a torrent that the table may not have. -/
def Collects (limitTime : Int) (before after : Option TorrentData) : Prop :=
  match before with
  | none => after = none
  | some torrentDataL => collectTorrent limitTime torrentDataL = .ok after

theorem garbageTorrentStep_collects {limitTime : Int} {entries : List (Entry TorrentData)}
    {after : Hash → Option TorrentData}
    (sound : ∀ entry ∈ entries, ∃ torrentDataL, entry.2.data = some torrentDataL ∧
      PeersInv torrentDataL.peerList ∧
      collectTorrent limitTime torrentDataL = .ok (after entry.2.hash))
    (stats : GarbageStats) (limit : stats.limitTime = limitTime) :
    ∃ visit, traverse garbageTorrentStep entries stats = .ok visit ∧
      visit.kept = entries.flatMap fun entry => leftEntry entry (after entry.2.hash) := by
  induction entries generalizing stats with
  | nil => exact ⟨_, rfl, rfl⟩
  | cons entry rest ih =>
      obtain ⟨torrentDataL, stored, peers, collected⟩ := sound entry List.mem_cons_self
      have kept := garbageTorrentStep_kept stored stats
      rw [limit, collected] at kept
      cases step : garbageTorrentStep entry stats with
      | error fault =>
          rw [step] at kept
          cases kept
      | ok visit =>
          rw [step] at kept
          obtain ⟨_, _, _, goesOn, limit', _⟩ := garbageTorrentStep_ok stored peers limit step
          obtain ⟨second, run, whole⟩ :=
            ih (fun other member => sound other (List.mem_cons_of_mem _ member)) visit.state limit'
          rw [Traversal.traverse, step, ok_bind, andThen_continue goesOn, run]
          refine ⟨_, rfl, ?_⟩
          rw [List.flatMap_cons, ← whole]
          exact congrArg (· ++ second.kept) (Except.ok.inj kept)

theorem runGarbageCollectorL_collects {torrentList : TorrentList} (table : TableInv torrentList)
    {now : Int} {after : Hash → Option TorrentData}
    (collects : ∀ hash, Collects (limitTimeOf now) (torrentList.value hash) (after hash)) :
    ∃ torrentList' stats, runGarbageCollectorL torrentList now = .ok (torrentList', stats) ∧
      torrentList'.value = after := by
  have linked := table.inv.linked
  have sound : ∀ entry ∈ torrentList.entries, ∃ torrentDataL,
      entry.2.data = some torrentDataL ∧ PeersInv torrentDataL.peerList ∧
        collectTorrent (limitTimeOf now) torrentDataL = .ok (after entry.2.hash) := by
    intro entry member
    obtain ⟨torrentDataL, stored⟩ := table.table.filled entry member
    have inside : (entry.2.hash, torrentDataL) ∈ torrentList.pairs :=
      List.mem_filterMap.mpr ⟨entry, member, by simp [entryPair, stored]⟩
    have collected := collects entry.2.hash
    rw [(value_eq_some_iff linked).mpr inside] at collected
    exact ⟨torrentDataL, stored, table.table.torrents _ inside, collected⟩
  obtain ⟨visit, run, kept⟩ :=
    garbageTorrentStep_collects sound (GarbageStats.start (limitTimeOf now)) rfl
  have simulated := mapList_simulates runGarbageCollectorCallback_implements table.inv
    (GarbageStats.start (limitTimeOf now))
  rw [run] at simulated
  obtain ⟨torrentList', mapped, _, inv, frame, entries⟩ := simulated
  rw [kept] at entries
  refine ⟨torrentList', visit.state, by simp [runGarbageCollectorL, mapped], ?_⟩
  funext hash
  apply Option.ext
  intro torrent'
  rw [value_eq_some_iff inv.linked, HashList.pairs, entries, List.mem_filterMap]
  simp only [entryPair_eq_some_iff, List.mem_flatMap, leftEntry, List.mem_map, Option.mem_toList]
  constructor
  · rintro ⟨_, ⟨entry, _, torrent'', left, rfl⟩, rfl, same⟩
    cases same
    exact left
  · intro left
    have collected := collects hash
    cases found : torrentList.value hash with
    | none =>
        rw [found] at collected
        have missing : after hash = none := collected
        rw [left] at missing
        cases missing
    | some torrentDataL =>
        obtain ⟨entry, member, pair⟩ :=
          List.mem_filterMap.mp ((value_eq_some_iff linked).mp found)
        obtain ⟨rfl, _⟩ := entryPair_eq_some_iff.mp pair
        exact ⟨_, ⟨entry, member, torrent', left, rfl⟩, rfl, rfl⟩

end Etracker
