import Etracker.Garbage.Visit
import Etracker.Tracker.Interleaved

namespace Etracker

open Foundation Foundation.Chain Foundation.Outcome

variable {α : Type}

theorem Rewritten.lookup_eq {list list' : HashList α} {leaf : Path}
    {replacement : List (Entry α)} (linked : Linked list)
    (rewritten : Rewritten list list' leaf replacement) {hash : Hash}
    (elsewhere : list.getLeaf hash ≠ leaf) : list'.lookup hash = list.lookup hash := by
  rw [lookup_eq_leaf rewritten.linked, lookup_eq_leaf linked, rewritten.frame.header,
    rewritten.leafEntries, Function.update_of_ne elsewhere]

theorem setData_rewritten {list : HashList α} (linked : Linked list) {hash : Hash}
    {entry : Entry α} (found : list.lookup hash = some entry) (data : Option α) :
    ∃ list' replacement, list.setData entry.1 data = .ok list' ∧
      Rewritten list list' (list.getLeaf hash) replacement ∧
      list'.lookup hash = some (entry.1, { entry.2 with data := data }) := by
  obtain ⟨member, rfl⟩ := lookup_mem found
  obtain ⟨front, back, split⟩ := List.append_of_mem ((mem_entries linked).mp member)
  obtain ⟨list', stored, rewritten, _⟩ := setData_eq linked split data
  obtain ⟨list'', stored', spliced, _⟩ := setData_stores linked member data
  cases stored.symm.trans stored'
  have replaced := spliced.lookup_replace linked rfl
  exact ⟨list', _, stored, rewritten, by rw [replaced, Function.update_self]⟩

theorem setTorrentL_rewritten {torrentList : TorrentList} (table : TableLinked torrentList)
    (hash : ParamValue) :
    ∃ torrentList' entry replacement, setTorrentL torrentList hash = .ok (torrentList', entry.1) ∧
      Rewritten torrentList torrentList' (torrentList.getLeaf hash.list) replacement ∧
      torrentList'.lookup hash.list = some entry := by
  have length : hash.list.length = torrentList.hashLength := by
    rw [table.hashLength, hash.length_eq]
  cases found : torrentList.lookup hash.list with
  | some entry =>
      have inserted := setHash_found table.linked length found
      obtain ⟨member, _⟩ := lookup_mem found
      obtain ⟨item, deref, _, dataIs⟩ := deref_eq table.linked member
      obtain ⟨torrent, stored⟩ := table.filled entry member
      rw [stored] at dataIs
      refine ⟨torrentList, entry, _, ?_, .refl table.linked _, found⟩
      simp only [setTorrentL, inserted, ok_bind, deref, dataIs, pure_eq_ok]
  | none =>
      obtain ⟨list, front, back, inserted, _, rewritten, _⟩ :=
        setHash_fresh table.linked length found
      obtain ⟨list', inserted', spliced, _⟩ := setHash_inserts table.linked length found
      cases inserted.symm.trans inserted'
      have present := spliced.lookup_insert
      have fresh : list.lookup hash.list =
          some (torrentList.fresh, ⟨hash.list, torrentList.getLeaf hash.list, none⟩) := by
        rw [present, Function.update_self]
      obtain ⟨member, _⟩ := lookup_mem fresh
      obtain ⟨item, deref, _, dataIs⟩ := deref_eq rewritten.linked member
      have made : (initList 0 uriParamValueLength listSemaphoreDisable .bigEndian :
          Except Fault (HashList PeerData)) = .ok TorrentData.empty.peerList :=
        initList_ok _ _ (Nat.zero_le _) (Nat.zero_le _)
      obtain ⟨final, replacement, stored, rewritten', present'⟩ :=
        setData_rewritten rewritten.linked fresh (some TorrentData.empty)
      rw [rewritten.frame.header] at rewritten'
      refine ⟨final, _, replacement, ?_, rewritten.trans rewritten', present'⟩
      have data : (⟨⟨0, 0, 0⟩, TorrentData.empty.peerList⟩ : TorrentData) = TorrentData.empty := rfl
      simp only [setTorrentL, inserted, ok_bind, deref, dataIs, made, data, stored, pure_eq_ok]

theorem updatePeers_rewritten {torrentList torrentList' : TorrentList}
    (table : TableLinked torrentList) {query : Query} {protocol : UInt8} {now : Int}
    {torrent : Option Address}
    (updated : updatePeers torrentList query protocol now = .ok (torrentList', torrent)) :
    (∃ replacement, Rewritten torrentList torrentList'
      (torrentList.getLeaf query.infoHash.list) replacement) ∧
      torrent = (torrentList'.lookup query.infoHash.list).map Prod.fst := by
  have length : query.infoHash.list.length = torrentList.hashLength := by
    rw [table.hashLength, query.infoHash.length_eq]
  unfold updatePeers at updated
  split_ifs at updated with stops
  · rw [deletePeerPublic, getHash_eq table.linked length, ok_bind] at updated
    cases found : torrentList.lookup query.infoHash.list with
    | none =>
        rw [found] at updated
        cases updated
        exact ⟨⟨_, .refl table.linked _⟩, by rw [found]; rfl⟩
    | some entry =>
        rw [found] at updated
        obtain ⟨before, _, rest⟩ := bind_eq_ok updated
        obtain ⟨after, _, rest⟩ := bind_eq_ok rest
        obtain ⟨list', stored, same⟩ := bind_eq_ok rest
        cases same
        obtain ⟨list'', replacement, stored', rewritten, present⟩ :=
          setData_rewritten table.linked found (some after)
        cases stored.symm.trans stored'
        exact ⟨⟨replacement, rewritten⟩, by rw [present]; rfl⟩
  · obtain ⟨⟨list', address, delay⟩, stores, same⟩ := bind_eq_ok updated
    cases same
    obtain ⟨⟨first, address'⟩, made, rest⟩ := bind_eq_ok stores
    obtain ⟨before, _, rest⟩ := bind_eq_ok rest
    obtain ⟨⟨after, delay'⟩, _, rest⟩ := bind_eq_ok rest
    obtain ⟨second, stored, same⟩ := bind_eq_ok rest
    cases same
    obtain ⟨first', entry, replacement, made', rewritten, present⟩ :=
      setTorrentL_rewritten table query.infoHash
    obtain ⟨rfl, rfl⟩ := Prod.mk.inj (Except.ok.inj (made.symm.trans made'))
    obtain ⟨second', replacement', stored', rewritten', present'⟩ :=
      setData_rewritten rewritten.linked present (some after)
    cases stored.symm.trans stored'
    rw [rewritten.frame.header] at rewritten'
    exact ⟨⟨replacement', rewritten.trans rewritten'⟩, by rw [present']; rfl⟩

theorem TableLinked.sound_of_mem {torrentList : TorrentList} (table : TableLinked torrentList)
    {leaf : Path} {entry : Entry TorrentData} (member : entry ∈ torrentList.leafEntries leaf) :
    ∃ torrentDataL, entry.2.data = some torrentDataL ∧ PeersInv torrentDataL.peerList := by
  have inside : entry ∈ torrentList.entries := by
    rw [mem_entries table.linked, (table.linked.routed leaf entry member).2.2]
    exact member
  obtain ⟨torrentDataL, stored⟩ := table.filled entry inside
  have pair : (entry.2.hash, torrentDataL) ∈ torrentList.pairs :=
    List.mem_filterMap.mpr ⟨entry, inside, by simp [entryPair, stored]⟩
  exact ⟨torrentDataL, stored, table.torrents _ pair⟩

theorem TableLinked.of_rewritten {torrentList torrentList' : TorrentList}
    (table : TableLinked torrentList) {leaf : Path} {replacement : List (Entry TorrentData)}
    (rewritten : Rewritten torrentList torrentList' leaf replacement)
    (sound : ∀ entry ∈ replacement,
      ∃ torrentDataL, entry.2.data = some torrentDataL ∧ PeersInv torrentDataL.peerList) :
    TableLinked torrentList' := by
  have every : ∀ entry ∈ torrentList'.entries,
      ∃ torrentDataL, entry.2.data = some torrentDataL ∧ PeersInv torrentDataL.peerList := by
    intro entry member
    rw [mem_entries rewritten.linked, rewritten.leafEntries] at member
    by_cases here : torrentList'.getLeaf entry.2.hash = leaf
    · rw [here, Function.update_self] at member
      exact sound entry member
    · rw [Function.update_of_ne here] at member
      exact table.sound_of_mem member
  refine ⟨rewritten.linked, ?_, ?_, ?_⟩
  · rw [rewritten.frame.header]
    exact table.hashLength
  · intro entry member
    obtain ⟨torrentDataL, stored, _⟩ := every entry member
    exact ⟨torrentDataL, stored⟩
  · intro pair member
    obtain ⟨entry, inside, isPair⟩ := List.mem_filterMap.mp member
    obtain ⟨torrentDataL, stored, peers⟩ := every entry inside
    simp only [entryPair, stored, Option.map_some, Option.some.injEq] at isPair
    rw [← isPair]
    exact peers

/-- What a worker renders is the reply for the torrent that it has left in the table. -/
theorem renderAnnouncePublic_lookup (inetNtop : InetNtop) {torrentList : TorrentList}
    (table : TableLinked torrentList)
    (query : Query) (interval : UInt32) (hash : Hash) :
    renderAnnouncePublic inetNtop torrentList ((torrentList.lookup hash).map Prod.fst) query
        interval =
      .ok (announceReply inetNtop query interval (torrentList.value hash)) := by
  have stored : ∀ torrent, torrentList.value hash = some torrent →
      (hash, torrent) ∈ torrentList.pairs :=
    fun torrent found => (value_eq_some_iff table.linked).mp found
  refine renderAnnouncePublic_after inetNtop table stored ?_ query interval
  cases found : torrentList.lookup hash with
  | none => exact Or.inl ⟨rfl, value_of_lookup_none found⟩
  | some entry =>
      obtain ⟨member, _⟩ := lookup_mem found
      obtain ⟨torrent, present⟩ := table.filled entry member
      exact Or.inr ⟨entry.1, torrent, rfl, by rw [value_of_lookup_some found, present],
        dataOf_eq table.linked member present⟩

theorem waitSemaphoreLeaf_ok_iff {list list' : HashList α} {leaf : Path}
    (enabled : list.semaphoreEnabled.leaf = true) :
    waitSemaphoreLeaf list leaf = .ok list' ↔ ∃ value, list.semaphore leaf = some (value + 1) ∧
      list' = { list with semaphore := Function.update list.semaphore leaf (some value) } := by
  rw [waitSemaphoreLeaf, if_pos (Or.inl enabled)]
  cases list.semaphore leaf with
  | none => simp
  | some value =>
      cases value with
      | zero => simp
      | succ value => simp [eq_comm]

theorem postSemaphoreLeaf_ok_iff {list list' : HashList α} {leaf : Path}
    (enabled : list.semaphoreEnabled.leaf = true) :
    postSemaphoreLeaf list leaf = .ok list' ↔ ∃ value, list.semaphore leaf = some value ∧
      list' =
        { list with semaphore := Function.update list.semaphore leaf (some (value + 1)) } := by
  rw [postSemaphoreLeaf, if_pos (Or.inl enabled)]
  cases list.semaphore leaf with
  | none => simp
  | some value => simp [eq_comm]

namespace Interleaved

/-- The semaphores of the leaves and the threads that hold them. -/
structure Locked {Holder : Type} (level : Nat) (semaphore : Path → Option Nat)
    (holding : Holder → Option Path) : Prop where
  atLeaf : ∀ holder leaf, holding holder = some leaf → leaf.length = level
  alone : ∀ holder other leaf, holding holder = some leaf → holding other = some leaf →
    holder = other
  taken : ∀ holder leaf, holding holder = some leaf → semaphore leaf = some 0
  free : ∀ leaf, leaf.length = level → (∀ holder, holding holder ≠ some leaf) →
    semaphore leaf = some 1

namespace Locked

variable {Holder : Type} [DecidableEq Holder] {level : Nat} {semaphore : Path → Option Nat}
  {holding : Holder → Option Path} {holder : Holder} {leaf : Path} {value : Nat}

theorem take (locked : Locked level semaphore holding) (before : holding holder = none)
    (atLeaf : leaf.length = level) (available : semaphore leaf = some (value + 1)) :
    Locked level (Function.update semaphore leaf (some value))
      (Function.update holding holder (some leaf)) := by
  have nobody : ∀ other, holding other ≠ some leaf := by
    intro other holds
    rw [locked.taken other leaf holds] at available
    cases available
  have single := locked.free leaf atLeaf nobody
  rw [available] at single
  cases single
  have cases : ∀ other path, Function.update holding holder (some leaf) other = some path →
      other = holder ∧ path = leaf ∨ holding other = some path ∧ path ≠ leaf := by
    intro other path holds
    by_cases same : other = holder
    · subst same
      rw [Function.update_self] at holds
      exact Or.inl ⟨rfl, (Option.some.inj holds).symm⟩
    · rw [Function.update_of_ne same] at holds
      exact Or.inr ⟨holds, fun here => nobody other (here ▸ holds)⟩
  constructor
  case atLeaf =>
    intro other path holds
    rcases cases other path holds with ⟨_, rfl⟩ | ⟨old, _⟩
    · exact atLeaf
    · exact locked.atLeaf other path old
  case alone =>
    intro first second path holds holds'
    rcases cases first path holds with ⟨rfl, rfl⟩ | ⟨old, differs⟩
    · rcases cases second path holds' with ⟨rfl, _⟩ | ⟨_, differs⟩
      · rfl
      · exact absurd rfl differs
    · rcases cases second path holds' with ⟨_, here⟩ | ⟨old', _⟩
      · exact absurd here differs
      · exact locked.alone first second path old old'
  case taken =>
    intro other path holds
    rcases cases other path holds with ⟨_, rfl⟩ | ⟨old, differs⟩
    · exact Function.update_self ..
    · rw [Function.update_of_ne differs]
      exact locked.taken other path old
  case free =>
    intro path length none
    have differs : path ≠ leaf := by
      rintro rfl
      exact none holder (Function.update_self ..)
    rw [Function.update_of_ne differs]
    apply locked.free path length
    intro other holds
    have apart : other ≠ holder := by
      rintro rfl
      rw [before] at holds
      cases holds
    apply none other
    rw [Function.update_of_ne apart]
    exact holds

theorem post (locked : Locked level semaphore holding) (holds : holding holder = some leaf)
    (present : semaphore leaf = some value) :
    Locked level (Function.update semaphore leaf (some (value + 1)))
      (Function.update holding holder none) := by
  have empty := locked.taken holder leaf holds
  rw [present] at empty
  cases empty
  have others : ∀ other path, Function.update holding holder none other = some path →
      holding other = some path ∧ path ≠ leaf := by
    intro other path held
    have apart : other ≠ holder := by
      rintro rfl
      rw [Function.update_self] at held
      cases held
    rw [Function.update_of_ne apart] at held
    exact ⟨held, fun same => apart (locked.alone other holder leaf (same ▸ held) holds)⟩
  constructor
  case atLeaf => exact fun other path held => locked.atLeaf other path (others other path held).1
  case alone =>
    exact fun first second path held held' =>
      locked.alone first second path (others first path held).1 (others second path held').1
  case taken =>
    intro other path held
    obtain ⟨old, differs⟩ := others other path held
    rw [Function.update_of_ne differs]
    exact locked.taken other path old
  case free =>
    intro path length none
    by_cases same : path = leaf
    · subst same
      exact Function.update_self ..
    · rw [Function.update_of_ne same]
      apply locked.free path length
      intro other held
      have apart : other ≠ holder := by
        rintro rfl
        rw [holds] at held
        exact same (Option.some.inj held).symm
      apply none other
      rw [Function.update_of_ne apart]
      exact held

end Locked

section Sound

variable {host : Host} {Worker : Type}

def Working.Points (list : TorrentList) : Working host → Prop
  | updated announcing _ torrent =>
      torrent = (list.lookup announcing.query.infoHash.list).map Prod.fst
  | _ => True

def Collecting.Placed (list : TorrentList) : Collecting → Prop
  | within _ leaf item _ _ =>
      ∃ front rest, list.leafEntries leaf = front ++ rest ∧ item = head none rest
  | _ => True

def Collecting.ahead : Collecting → List Path
  | idle => []
  | between _ leaves _ => leaves
  | sees _ leaf leaves _ => leaf :: leaves
  | within _ leaf _ leaves _ => leaf :: leaves

/-- What holds in every state of every interleaving. -/
structure Sound (state : State host Worker) : Prop where
  table : TableLinked state.table
  header : state.table.toListHeader = emptyTorrentList.toListHeader
  locked : Locked state.table.level state.table.semaphore state.holding
  points : ∀ worker, (state.working worker).Points state.table
  placed : state.collecting.Placed state.table
  ahead : state.collecting.ahead <:+ leafPaths state.table.level []

theorem Sound.enabled {state : State host Worker} (sound : Sound state) :
    state.table.semaphoreEnabled.leaf = true := by
  rw [sound.header]
  rfl

theorem Working.leaf_eq {list list' : TorrentList}
    (header : list'.toListHeader = list.toListHeader) (working : Working host) :
    working.leaf list' = working.leaf list := by
  cases working with
  | idle => rfl
  | holds announcing => rw [leaf, leaf, header]
  | updated announcing now torrent => rw [leaf, leaf, header]
  | looks hash protocol => rw [leaf, leaf, header]
  | told leaf => rfl

theorem Working.Points.rewritten {list list' : TorrentList} (linked : Linked list) {leaf : Path}
    {replacement : List (Entry TorrentData)} (rewritten : Rewritten list list' leaf replacement)
    {working : Working host} (points : working.Points list)
    (apart : working.leaf list ≠ some leaf) : working.Points list' := by
  cases working with
  | updated announcing now torrent =>
      have elsewhere : list.getLeaf announcing.query.infoHash.list ≠ leaf :=
        fun same => apart (congrArg some same)
      rw [Points, rewritten.lookup_eq linked elsewhere]
      exact points
  | _ => trivial

theorem Working.Points.withSemaphore {list : TorrentList} {working : Working host}
    (points : working.Points list) (semaphore : Path → Option Nat) :
    working.Points { list with semaphore := semaphore } := by
  cases working with
  | updated announcing now torrent => exact points
  | _ => trivial

theorem Collecting.Placed.rewritten {list list' : TorrentList} {leaf : Path}
    {replacement : List (Entry TorrentData)} (rewritten : Rewritten list list' leaf replacement)
    {collecting : Collecting} (placed : collecting.Placed list)
    (apart : collecting.leaf ≠ some leaf) : collecting.Placed list' := by
  cases collecting with
  | within now leaf' item leaves stats =>
      have elsewhere : leaf' ≠ leaf := fun same => apart (congrArg some same)
      obtain ⟨front, rest, split, atItem⟩ := placed
      refine ⟨front, rest, ?_, atItem⟩
      rw [rewritten.leafEntries, Function.update_of_ne elsewhere]
      exact split
  | _ => trivial

theorem Collecting.Placed.withSemaphore {list : TorrentList} {collecting : Collecting}
    (placed : collecting.Placed list) (semaphore : Path → Option Nat) :
    collecting.Placed { list with semaphore := semaphore } := by
  cases collecting with
  | within now leaf' item leaves stats => exact placed
  | _ => trivial

/-- Nobody but its holder touches a leaf. -/
theorem Sound.apart {state : State host Worker} (sound : Sound state) {holder : Thread Worker}
    {leaf : Path} (holds : state.holding holder = some leaf) {other : Thread Worker}
    (differs : other ≠ holder) : state.holding other ≠ some leaf :=
  fun same => differs (sound.locked.alone other holder leaf same holds)

theorem Sound.tells {state : State host Worker} (sound : Sound state) (entry : Deed host ⊕ Int) :
    Sound (state.tells entry) :=
  ⟨sound.table, sound.header, sound.locked, sound.points, sound.placed, sound.ahead⟩

theorem State.start_sound (host : Host) (Worker : Type) : Sound (State.start host Worker) where
  table := emptyTorrentList_inv.table
  header := rfl
  locked := by
    have nobody : ∀ thread, (State.start host Worker).holding thread = none := by
      intro thread
      cases thread <;> rfl
    refine ⟨?_, ?_, ?_, ?_⟩
    · intro thread leaf holds
      rw [nobody] at holds
      cases holds
    · intro thread other leaf holds
      rw [nobody] at holds
      cases holds
    · intro thread leaf holds
      rw [nobody] at holds
      cases holds
    · intro leaf length _
      exact if_pos (Or.inl ⟨length, rfl⟩)
  points _ := trivial
  placed := trivial
  ahead := List.nil_suffix

theorem Sound.available {state : State host Worker} (sound : Sound state) {leaf : Path}
    (atLeaf : leaf.length = state.table.level) :
    (∃ table, waitSemaphoreLeaf state.table leaf = .ok table) ∨
      ∃ thread, state.holding thread = some leaf := by
  by_cases held : ∃ thread, state.holding thread = some leaf
  · exact Or.inr held
  · have free := sound.locked.free leaf atLeaf fun thread holds => held ⟨thread, holds⟩
    exact Or.inl ⟨_, (waitSemaphoreLeaf_ok_iff sound.enabled).mpr ⟨0, free, rfl⟩⟩

theorem Sound.postable {state : State host Worker} (sound : Sound state) {thread : Thread Worker}
    {leaf : Path}
    (holds : state.holding thread = some leaf) :
    ∃ table, postSemaphoreLeaf state.table leaf = .ok table :=
  ⟨_, (postSemaphoreLeaf_ok_iff sound.enabled).mpr ⟨0, sound.locked.taken thread leaf holds, rfl⟩⟩

section Moves

variable [DecidableEq Worker] {state : State host Worker}

theorem State.holding_worker (state : State host Worker) {table : TorrentList}
    (header : table.toListHeader = state.table.toListHeader) (worker : Worker)
    (working : Working host) :
    ((state.writes table).sets worker working).holding =
      Function.update state.holding (.worker worker) (working.leaf state.table) := by
  funext thread
  cases thread with
  | collector => rfl
  | worker other =>
      by_cases same : other = worker
      · subst same
        rw [Function.update_self]
        show (Function.update state.working other working other).leaf table = _
        rw [Function.update_self, Working.leaf_eq header]
      · rw [Function.update_of_ne (fun absurdity => same (Thread.worker.inj absurdity))]
        show (Function.update state.working worker working other).leaf table = _
        rw [Function.update_of_ne same, Working.leaf_eq header]
        rfl

theorem State.holding_collector (state : State host Worker) {table : TorrentList}
    (header : table.toListHeader = state.table.toListHeader) (collecting : Collecting) :
    ((state.writes table).collects collecting).holding =
      Function.update state.holding .collector collecting.leaf := by
  funext thread
  cases thread with
  | collector => rw [Function.update_self]; rfl
  | worker other =>
      have apart : Thread.worker other ≠ .collector := nofun
      rw [Function.update_of_ne apart]
      exact Working.leaf_eq header _

theorem Sound.worker (sound : Sound state) {table : TorrentList} (linked : TableLinked table)
    (header : table.toListHeader = state.table.toListHeader) {worker : Worker}
    {working : Working host}
    (locked : Locked state.table.level table.semaphore
      (Function.update state.holding (.worker worker) (working.leaf state.table)))
    (own : working.Points table)
    (others : ∀ other, other ≠ worker → (state.working other).Points table)
    (placed : state.collecting.Placed table) :
    Sound ((state.writes table).sets worker working) where
  table := linked
  header := header.trans sound.header
  locked := by
    rw [state.holding_worker header]
    show Locked table.level _ _
    rw [header]
    exact locked
  points := by
    intro other
    show (Function.update state.working worker working other).Points table
    by_cases same : other = worker
    · subst same
      rw [Function.update_self]
      exact own
    · rw [Function.update_of_ne same]
      exact others other same
  placed := placed
  ahead := by
    show state.collecting.ahead <:+ leafPaths table.level []
    rw [header]
    exact sound.ahead

theorem Sound.collector (sound : Sound state) {table : TorrentList} (linked : TableLinked table)
    (header : table.toListHeader = state.table.toListHeader) {collecting : Collecting}
    (locked : Locked state.table.level table.semaphore
      (Function.update state.holding .collector collecting.leaf))
    (points : ∀ worker, (state.working worker).Points table) (placed : collecting.Placed table)
    (ahead : collecting.ahead <:+ leafPaths state.table.level []) :
    Sound ((state.writes table).collects collecting) where
  table := linked
  header := header.trans sound.header
  locked := by
    rw [state.holding_collector header]
    show Locked table.level _ _
    rw [header]
    exact locked
  points := points
  placed := placed
  ahead := by
    show collecting.ahead <:+ leafPaths table.level []
    rw [header]
    exact ahead

theorem Sound.waits (sound : Sound state) {worker : Worker} {working : Working host}
    {table : TorrentList} {leaf : Path} (idle : state.working worker = .idle)
    (waited : waitSemaphoreLeaf state.table leaf = .ok table)
    (atLeaf : leaf.length = state.table.level) (takes : working.leaf state.table = some leaf)
    (own : ∀ list, working.Points list) : Sound ((state.writes table).sets worker working) := by
  obtain ⟨value, available, rfl⟩ := (waitSemaphoreLeaf_ok_iff sound.enabled).mp waited
  have before : state.holding (.worker worker) = none := by
    show (state.working worker).leaf state.table = none
    rw [idle]
    rfl
  have linked := sound.table.withSemaphore (Function.update state.table.semaphore leaf (some value))
  refine sound.worker linked rfl ?_ (own _) ?_ ?_
  · rw [takes]
    exact sound.locked.take before atLeaf available
  · exact fun other _ => (sound.points other).withSemaphore _
  · exact sound.placed.withSemaphore _

theorem Sound.stays (sound : Sound state) {worker : Worker} {working : Working host}
    (holds : working.leaf state.table = (state.working worker).leaf state.table)
    (own : working.Points state.table) : Sound (state.sets worker working) := by
  have same : Function.update state.holding (.worker worker) (working.leaf state.table) =
      state.holding := by
    rw [holds]
    exact Function.update_eq_self _ _
  refine sound.worker sound.table rfl ?_ own (fun other _ => sound.points other) sound.placed
  rw [same]
  exact sound.locked

theorem Sound.posts (sound : Sound state) {worker : Worker} {table : TorrentList} {leaf : Path}
    (told : state.working worker = .told leaf)
    (posted : postSemaphoreLeaf state.table leaf = .ok table) :
    Sound ((state.writes table).sets worker .idle) := by
  obtain ⟨value, present, rfl⟩ := (postSemaphoreLeaf_ok_iff sound.enabled).mp posted
  have holds : state.holding (.worker worker) = some leaf := by
    show (state.working worker).leaf state.table = some leaf
    rw [told]
    rfl
  have linked := sound.table.withSemaphore
    (Function.update state.table.semaphore leaf (some (value + 1)))
  refine sound.worker linked rfl ?_ trivial ?_ ?_
  · exact sound.locked.post holds present
  · exact fun other _ => (sound.points other).withSemaphore _
  · exact sound.placed.withSemaphore _

theorem Sound.updates (sound : Sound state) {worker : Worker} {announcing : Announcing host}
    {table : TorrentList} {torrent : Option Address} (now : Int)
    (holds : state.working worker = .holds announcing)
    (updated : updatePeers state.table announcing.query announcing.request.protocol now =
      .ok (table, torrent)) :
    Sound ((state.writes table).sets worker (.updated announcing now torrent)) := by
  have holding : state.holding (.worker worker) =
      some (state.table.getLeaf announcing.query.infoHash.list) := by
    show (state.working worker).leaf state.table = _
    rw [holds]
    rfl
  obtain ⟨⟨replacement, rewritten⟩, points⟩ := updatePeers_rewritten sound.table updated
  obtain ⟨table', torrent', after, updated', linked, frame, _⟩ :=
    updatePeers_spec sound.table announcing.query announcing.request.protocol now
  cases updated.symm.trans updated'
  refine sound.worker linked frame.header ?_ points ?_ ?_
  · have same : Function.update state.holding (.worker worker)
        ((Working.updated announcing now torrent).leaf state.table) = state.holding := by
      rw [← Function.update_eq_self (.worker worker) state.holding, holding]
      exact Function.update_idem ..
    rw [same, frame.semaphore]
    exact sound.locked
  · intro other differs
    have apart : Thread.worker other ≠ .worker worker :=
      fun same => differs (Thread.worker.inj same)
    exact (sound.points other).rewritten sound.table.linked rewritten (sound.apart holding apart)
  · have apart : Thread.collector ≠ .worker worker := nofun
    exact sound.placed.rewritten rewritten (sound.apart holding apart)

theorem Sound.enters (sound : Sound state) {now : Int} {leaf : Path} {leaves : List Path}
    {stats : GarbageStats} {table : TorrentList}
    (sees : state.collecting = .sees now leaf leaves stats)
    (waited : waitSemaphoreLeaf state.table leaf = .ok table) :
    Sound ((state.writes table).collects
      (.within now leaf (table.firstItem leaf) leaves stats)) := by
  obtain ⟨value, available, rfl⟩ := (waitSemaphoreLeaf_ok_iff sound.enabled).mp waited
  have ahead := sound.ahead
  rw [sees] at ahead
  have before : state.holding .collector = none := by
    show state.collecting.leaf = none
    rw [sees]
    rfl
  have atLeaf : leaf.length = state.table.level := by
    obtain ⟨suffix, same, length⟩ := mem_leafPaths.mp (ahead.subset List.mem_cons_self)
    rw [same, List.nil_append, length]
  have linked := sound.table.withSemaphore (Function.update state.table.semaphore leaf (some value))
  refine sound.collector linked rfl ?_ ?_ ?_ ahead
  · exact sound.locked.take before atLeaf available
  · exact fun worker => (sound.points worker).withSemaphore _
  · exact ⟨[], _, rfl, segment_head (sound.table.linked.linked leaf)⟩

theorem Sound.visits (sound : Sound state) {now : Int} {leaf : Path} {item : Address}
    {leaves : List Path} {stats stats' : GarbageStats} {current : Item TorrentData}
    {table : TorrentList} {answer : ListReturn}
    (within : state.collecting = .within now leaf (some item) leaves stats)
    (read : state.table.deref item = .ok current)
    (visited : runGarbageCollectorCallback leaf item (state.table, stats) =
      .ok (answer, table, stats')) :
    Sound ((state.writes table).collects (.within now leaf current.nextInLeaf leaves stats')) := by
  have placed := sound.placed
  have ahead := sound.ahead
  rw [within] at placed ahead
  obtain ⟨front, rest, split, atItem⟩ := placed
  cases rest with
  | nil => cases atItem
  | cons entry rest =>
      cases atItem
      have holding : state.holding .collector = some leaf := by
        show state.collecting.leaf = some leaf
        rw [within]
        rfl
      obtain ⟨torrentDataL, after, stored, _, rewritten, _, _, peers⟩ :=
        runGarbageCollectorCallback_ok sound.table split visited
      have linked : TableLinked table := by
        apply sound.table.of_rewritten rewritten
        intro other member
        rw [List.append_assoc, List.mem_append, List.mem_append, ← or_assoc,
          or_right_comm] at member
        rcases member with old | new
        · apply sound.table.sound_of_mem
          rw [split]
          rcases old with ahead | behind
          · exact List.mem_append_left _ ahead
          · exact List.mem_append_right _ (List.mem_cons_of_mem _ behind)
        · obtain ⟨torrent', left, rfl⟩ := List.mem_map.mp new
          exact ⟨torrent', rfl, peers torrent' (Option.mem_toList.mp left)⟩
      have next : current.nextInLeaf = head none rest := by
        have chain := sound.table.linked.linked leaf
        rw [split] at chain
        obtain ⟨cell, present, _, forward, _⟩ := segment_middle chain
        simp only [HashList.deref, present, pure_eq_ok, Except.ok.injEq] at read
        rw [← read]
        exact forward
      refine sound.collector linked rewritten.frame.header ?_ ?_ ?_ ahead
      · have same : Function.update state.holding .collector (some leaf) = state.holding := by
          rw [← holding]
          exact Function.update_eq_self _ _
        show Locked state.table.level table.semaphore
          (Function.update state.holding .collector (some leaf))
        rw [same, rewritten.frame.semaphore]
        exact sound.locked
      · intro worker
        have apart : Thread.worker worker ≠ .collector := fun same => by cases same
        exact (sound.points worker).rewritten sound.table.linked rewritten
          (sound.apart holding apart)
      · refine ⟨front ++ leftEntry entry after, rest, ?_, next⟩
        rw [rewritten.leafEntries, Function.update_self]

theorem Sound.passes (sound : Sound state) {collecting : Collecting}
    (holds : collecting.leaf = state.collecting.leaf) (placed : collecting.Placed state.table)
    (ahead : collecting.ahead <:+ leafPaths state.table.level []) :
    Sound (state.collects collecting) := by
  have same : Function.update state.holding .collector collecting.leaf = state.holding := by
    rw [holds]
    exact Function.update_eq_self _ _
  refine sound.collector sound.table rfl ?_ sound.points placed ahead
  rw [same]
  exact sound.locked

theorem Sound.exits (sound : Sound state) {now : Int} {leaf : Path} {leaves : List Path}
    {stats : GarbageStats} {table : TorrentList}
    (within : state.collecting = .within now leaf none leaves stats)
    (posted : postSemaphoreLeaf state.table leaf = .ok table) :
    Sound ((state.writes table).collects (.between now leaves stats)) := by
  obtain ⟨value, present, rfl⟩ := (postSemaphoreLeaf_ok_iff sound.enabled).mp posted
  have ahead := sound.ahead
  rw [within] at ahead
  have holds : state.holding .collector = some leaf := by
    show state.collecting.leaf = some leaf
    rw [within]
    rfl
  have linked := sound.table.withSemaphore
    (Function.update state.table.semaphore leaf (some (value + 1)))
  refine sound.collector linked rfl ?_ ?_ trivial ((List.suffix_cons leaf leaves).trans ahead)
  · exact sound.locked.post holds present
  · exact fun worker => (sound.points worker).withSemaphore _

theorem Sound.step (sound : Sound state) {thread : Thread Worker} {after : State host Worker}
    (taken : Step thread state after) : Sound after := by
  have ahead := sound.ahead
  cases taken with
  | takes announcing idle waited =>
      exact sound.waits idle waited (getLeaf_length _ _) rfl fun _ => trivial
  | updates now holds updated => exact sound.updates now holds updated
  | renders interval updated rendered =>
      apply (sound.tells _).stays
      · show some _ = (state.working _).leaf state.table
        rw [updated]
        rfl
      · trivial
  | asks hash protocol idle waited =>
      exact sound.waits idle waited (getLeaf_length _ _) rfl fun _ => trivial
  | reads looks read =>
      apply (sound.tells _).stays
      · show some _ = (state.working _).leaf state.table
        rw [looks]
        rfl
      · trivial
  | posts told posted => exact sound.posts told posted
  | begins now idle =>
      apply sound.passes
      · rw [idle]
        rfl
      · trivial
      · exact List.suffix_rfl
  | skips between empty =>
      rw [between] at ahead
      apply sound.passes
      · rw [between]
        rfl
      · trivial
      · exact (List.suffix_cons _ _).trans ahead
  | sees between occupied =>
      rw [between] at ahead
      apply sound.passes
      · rw [between]
        rfl
      · trivial
      · exact ahead
  | enters sees waited => exact sound.enters sees waited
  | visits within read visited => exact sound.visits within read visited
  | exits within posted => exact sound.exits within posted
  | ends between =>
      apply (sound.tells _).passes
      · show none = state.collecting.leaf
        rw [between]
        rfl
      · trivial
      · exact List.nil_suffix

theorem Reachable.sound (reachable : Reachable host Worker state) : Sound state := by
  apply reachable.invariant Sound (State.start_sound host Worker)
  intro thread before after sound _ taken
  exact sound.step taken

end Moves

section Proceeds

variable [DecidableEq Worker] {state : State host Worker}

/-- What a thread that waits has to wait for, and nothing else goes wrong: a leaf can be taken
unless another thread holds it, a worker that has taken one goes on, and so does the collector,
unless it waits for a worker or finds a crowd that it cannot count. -/
structure Proceeds (state : State host Worker) : Prop where
  takes : ∀ hash : Hash, (∃ table, waitSemaphoreLeaf state.table (state.table.getLeaf hash) =
    .ok table) ∨ ∃ thread, state.holding thread = some (state.table.getLeaf hash)
  works : ∀ worker, state.working worker ≠ .idle → ∃ after, Step (.worker worker) state after
  collects : state.collecting ≠ .idle → (∃ after, Step .collector state after) ∨
    (∃ now leaf leaves stats worker, state.collecting = .sees now leaf leaves stats ∧
      state.holding (.worker worker) = some leaf) ∨
    ∃ now leaf item leaves stats torrentDataL,
      state.collecting = .within now leaf (some item) leaves stats ∧
      state.table.dataOf item = .ok torrentDataL ∧ ¬Countable stats.limitTime torrentDataL

theorem Sound.works (sound : Sound state) (worker : Worker)
    (busy : state.working worker ≠ .idle) : ∃ after, Step (.worker worker) state after := by
  cases stands : state.working worker with
  | idle => exact absurd stands busy
  | holds announcing =>
      obtain ⟨table, torrent, _, updated, _⟩ :=
        updatePeers_spec sound.table announcing.query announcing.request.protocol 0
      exact ⟨_, .updates 0 stands updated⟩
  | updated announcing now torrent =>
      have points := sound.points worker
      rw [stands] at points
      have rendered := renderAnnouncePublic_lookup host.inetNtop sound.table announcing.query 0
        announcing.query.infoHash.list
      rw [← (points : torrent = _)] at rendered
      exact ⟨_, .renders 0 stands rendered⟩
  | looks hash protocol => exact ⟨_, .reads stands (scrapeCounters_eq sound.table hash)⟩
  | told leaf =>
      have holds : state.holding (.worker worker) = some leaf := by
        show (state.working worker).leaf state.table = some leaf
        rw [stands]
        rfl
      obtain ⟨table, posted⟩ := sound.postable holds
      exact ⟨_, .posts stands posted⟩

theorem visit_ok {torrentList : TorrentList} (table : TableLinked torrentList) {leaf : Path}
    {front back : List (Entry TorrentData)} {entry : Entry TorrentData}
    (split : torrentList.leafEntries leaf = front ++ entry :: back) {torrentDataL : TorrentData}
    (stored : entry.2.data = some torrentDataL) (peers : PeersInv torrentDataL.peerList)
    (stats : GarbageStats) (countable : Countable stats.limitTime torrentDataL) :
    ∃ torrentList' stats', runGarbageCollectorCallback leaf entry.1 (torrentList, stats) =
      .ok (.listContinue, torrentList', stats') := by
  obtain ⟨visit, step, goesOn, _⟩ := garbageTorrentStep_spec stored peers countable stats rfl
  have simulated := runGarbageCollectorCallback_implements torrentList leaf front back entry stats
    table.linked split
  rw [step] at simulated
  obtain ⟨torrentList', visited, _⟩ := simulated
  rw [goesOn] at visited
  exact ⟨torrentList', visit.state, visited⟩

theorem Sound.collects (sound : Sound state) (busy : state.collecting ≠ .idle) :
    (∃ after, Step .collector state after) ∨
    (∃ now leaf leaves stats worker, state.collecting = .sees now leaf leaves stats ∧
      state.holding (.worker worker) = some leaf) ∨
    ∃ now leaf item leaves stats torrentDataL,
      state.collecting = .within now leaf (some item) leaves stats ∧
      state.table.dataOf item = .ok torrentDataL ∧ ¬Countable stats.limitTime torrentDataL := by
  have placed := sound.placed
  have ahead := sound.ahead
  cases stands : state.collecting with
  | idle => exact absurd stands busy
  | between now leaves stats =>
      cases leaves with
      | nil => exact Or.inl ⟨_, .ends stands⟩
      | cons leaf leaves =>
          by_cases empty : state.table.firstItem leaf = none
          · exact Or.inl ⟨_, .skips stands empty⟩
          · exact Or.inl ⟨_, .sees stands empty⟩
  | sees now leaf leaves stats =>
      rw [stands] at ahead
      have atLeaf : leaf.length = state.table.level := by
        obtain ⟨suffix, same, length⟩ := mem_leafPaths.mp (ahead.subset List.mem_cons_self)
        rw [same, List.nil_append, length]
      rcases sound.available atLeaf with ⟨table, waited⟩ | ⟨thread, holds⟩
      · exact Or.inl ⟨_, .enters stands waited⟩
      · cases thread with
        | worker worker => exact Or.inr (Or.inl ⟨now, leaf, leaves, stats, worker, rfl, holds⟩)
        | collector =>
            have nothing : state.holding .collector = none := by
              show state.collecting.leaf = none
              rw [stands]
              rfl
            rw [nothing] at holds
            cases holds
  | within now leaf item leaves stats =>
      rw [stands] at placed
      obtain ⟨front, rest, split, atItem⟩ := placed
      cases rest with
      | nil =>
          cases atItem
          have holds : state.holding .collector = some leaf := by
            show state.collecting.leaf = some leaf
            rw [stands]
            rfl
          obtain ⟨table, posted⟩ := sound.postable holds
          exact Or.inl ⟨_, .exits stands posted⟩
      | cons entry rest =>
          cases atItem
          have member : entry ∈ state.table.leafEntries leaf := by simp [split]
          have inside : entry ∈ state.table.entries := by
            rw [mem_entries sound.table.linked, (sound.table.linked.routed leaf entry member).2.2]
            exact member
          obtain ⟨torrentDataL, stored, peers⟩ := sound.table.sound_of_mem member
          -- The visit of a crowd that the counter takes for nobody leaves the process.
          by_cases countable : Countable stats.limitTime torrentDataL
          · obtain ⟨current, read, _⟩ := deref_eq sound.table.linked inside
            obtain ⟨table, stats', visited⟩ :=
              visit_ok sound.table split stored peers stats countable
            exact Or.inl ⟨_, .visits stands read visited⟩
          · exact Or.inr (Or.inr ⟨now, leaf, entry.1, leaves, stats, torrentDataL, rfl,
              dataOf_eq sound.table.linked inside stored, countable⟩)

/-- No interleaving of the workers and the collector makes one of them follow a dangling pointer
or post a semaphore that is not there. -/
theorem interleaved_proceeds (reachable : Reachable host Worker state) : Proceeds state where
  takes hash := reachable.sound.available (getLeaf_length _ hash)
  works := reachable.sound.works
  collects := reachable.sound.collects

end Proceeds

end Sound

theorem plainAnnouncing : ∃ announcing : Announcing plainHost,
    announcing.query.event = uriEventIdStarted := by
  obtain ⟨query, announces, event, _⟩ :=
    plainPacket_query plainHost plainSettings uriEventIdStarted.toUInt32
  exact ⟨⟨_, plainSettings, query, announces⟩, by rw [event]; decide⟩

theorem plainHolding : ∃ (announcing : Announcing plainHost) (table : TorrentList),
    Reachable plainHost Unit
      (((State.start plainHost Unit).writes table).sets () (.holds announcing)) := by
  obtain ⟨announcing, _⟩ := plainAnnouncing
  have start := State.start_sound plainHost Unit
  have nobody : ∀ thread, (State.start plainHost Unit).holding thread = none := by
    intro thread
    cases thread <;> rfl
  have free := start.available (getLeaf_length _ announcing.query.infoHash.list)
  obtain ⟨table, waited⟩ := free.resolve_right (by simp [nobody])
  have idle : (State.start plainHost Unit).working () = .idle := rfl
  exact ⟨announcing, table, .next .start trivial (.takes announcing idle waited)⟩

theorem interleaved_proceeds_holding : ∃ state : State plainHost Unit,
    state.holding (.worker ()) ≠ none ∧ state.collecting ≠ .idle ∧ Proceeds state := by
  obtain ⟨announcing, table, taken⟩ := plainHolding
  have begun : Reachable plainHost Unit _ := .next taken trivial (.begins 0 rfl)
  refine ⟨_, ?_, ?_, interleaved_proceeds begun⟩
  · exact Option.some_ne_none _
  · exact nofun

end Interleaved

end Etracker
