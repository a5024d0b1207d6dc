import Etracker.Tracker.Exclusive

/-! What the clients are told while workers and collector interleave, they could have been told
by a tracker that does one thing after the other. -/

namespace Etracker

open Foundation Foundation.Chain Foundation.Outcome Foundation.Sweeps

theorem Announced.unique {query : Query} {protocol : UInt8} {now : Int}
    {before after other : Option TorrentData}
    (announced : Announced query protocol now before after)
    (announced' : Announced query protocol now before other) : after = other := by
  cases announced with
  | unknown stops =>
      cases announced' with
      | unknown _ => rfl
      | stored goesOn _ => exact absurd stops goesOn
  | stopped stops deleted =>
      cases announced' with
      | stopped _ deleted' => rw [Except.ok.inj (deleted.symm.trans deleted')]
      | stored goesOn _ => exact absurd stops goesOn
  | stored goesOn changed =>
      cases announced' with
      | unknown stops => exact absurd stops goesOn
      | stopped stops _ => exact absurd stops goesOn
      | stored _ changed' => rw [(Prod.mk.inj (Except.ok.inj (changed.symm.trans changed'))).1]

theorem Announced.missing {query : Query} {protocol : UInt8} {now : Int}
    {before : Option TorrentData} (announced : Announced query protocol now before none) :
    before = none := by
  cases announced
  rfl

theorem Rewritten.value_left {torrentList torrentList' : TorrentList} (linked : Linked torrentList)
    {leaf : Path} {front back : List (Entry TorrentData)} {entry : Entry TorrentData}
    (split : torrentList.leafEntries leaf = front ++ entry :: back) {after : Option TorrentData}
    (rewritten : Rewritten torrentList torrentList' leaf (front ++ leftEntry entry after ++ back)) :
    torrentList'.value = Function.update torrentList.value entry.2.hash after := by
  have inLeaf : entry ∈ torrentList.leafEntries leaf := by simp [split]
  obtain ⟨_, _, routed⟩ := linked.routed leaf entry inLeaf
  subst routed
  have spliced : Spliced torrentList torrentList' [entry] (leftEntry entry after) := by
    apply Rewritten.spliced entry.2.hash front [entry] _ back linked
    · rw [split, List.append_assoc, List.singleton_append]
    · exact rewritten
  obtain ⟨rest, old, new⟩ := spliced.pairs
  have before : [entry].filterMap entryPair = entry.2.data.toList.map (entry.2.hash, ·) := by
    cases stored : entry.2.data <;> simp [entryPair, stored]
  have left : (leftEntry entry after).filterMap entryPair =
      after.toList.map (entry.2.hash, ·) := by
    cases after <;> simp [leftEntry, entryPair]
  have found : torrentList.value entry.2.hash = entry.2.data := by
    apply value_of_lookup_some
    exact (lookup_eq_some_iff linked).mpr ⟨(mem_entries linked).mpr inLeaf, rfl⟩
  have update : Update torrentList torrentList' entry.2.hash entry.2.data after :=
    ⟨found, rest, before ▸ old, left ▸ new⟩
  exact update.value_eq linked rewritten.linked

theorem value_of_firstItem_none {α : Type} {list : HashList α} (linked : Linked list) {hash : Hash}
    (empty : list.firstItem (list.getLeaf hash) = none) : list.value hash = none := by
  apply value_of_lookup_none
  rw [lookup_eq_leaf linked, (firstItem_eq_none_iff linked _).mp empty]
  rfl

theorem value_of_mem_leafEntries {α : Type} {list : HashList α} (linked : Linked list)
    {leaf : Path} {entry : Entry α} (member : entry ∈ list.leafEntries leaf) :
    list.value entry.2.hash = entry.2.data ∧ list.getLeaf entry.2.hash = leaf := by
  have routed := (linked.routed leaf entry member).2.2
  refine ⟨value_of_lookup_some ((lookup_eq_some_iff linked).mpr ⟨?_, rfl⟩), routed⟩
  rw [mem_entries linked, routed]
  exact member

theorem value_of_not_mem_leafEntries {α : Type} {list : HashList α} (linked : Linked list)
    {hash : Hash} (missing : ∀ entry ∈ list.leafEntries (list.getLeaf hash), entry.2.hash ≠ hash) :
    list.value hash = none := by
  apply value_of_lookup_none
  rw [lookup_eq_leaf linked]
  exact Keyed.findKey_eq_none_iff.mpr missing

namespace Interleaved

def rules (host : Host) : Rules Hash (Option TorrentData) (Deed host) Int where
  key := Deed.infoHash
  does
    | .announced announcing now interval reply, before, after =>
        Announced announcing.query announcing.request.protocol now before after ∧
          reply = announceReply host.inetNtop announcing.query interval after
    | .scraped hash protocol entry, before, after =>
        after = before ∧ entry = renderScrapeTorrentL
          ((before.map TorrentData.toTorrentCounters).getD ⟨0, 0, 0⟩) hash protocol
  sweeps now := Collects (limitTimeOf now)

section Mirror

variable {host : Host} {Worker : Type}

/-- The torrent that a worker has changed and not yet told of. -/
def Working.Changes (working : Working host) (hash : Hash) : Prop :=
  ∃ announcing now torrent, working = .updated announcing now torrent ∧
    announcing.query.infoHash.list = hash

/-- What is told of a torrent: an announce counts when its reply is rendered. -/
structure Told (state : State host Worker) (hash : Hash) (value : Option TorrentData) : Prop where
  changed : ∀ worker announcing now torrent,
    state.working worker = .updated announcing now torrent →
    announcing.query.infoHash.list = hash →
    Announced announcing.query announcing.request.protocol now value (state.table.value hash)
  same : (∀ worker, ¬(state.working worker).Changes hash) → value = state.table.value hash

def Collecting.Behind (list : TorrentList) (swept : Set Hash) : Collecting → Prop
  | idle => True
  | between _ leaves _ => ∀ hash, hash ∈ swept ↔ list.getLeaf hash ∉ leaves
  | sees _ leaf leaves _ => ∀ hash, hash ∈ swept ↔ list.getLeaf hash ∉ leaf :: leaves
  | within _ leaf item leaves _ =>
      ∃ front rest, list.leafEntries leaf = front ++ rest ∧ item = head none rest ∧
        ∀ hash, hash ∈ swept ↔ list.getLeaf hash ∉ leaf :: leaves ∨
          list.getLeaf hash = leaf ∧ ∀ entry ∈ rest, entry.2.hash ≠ hash

def Collecting.Clock (now : Int) : Collecting → Prop
  | idle => False
  | between now' _ stats => now' = now ∧ stats.limitTime = limitTimeOf now
  | sees now' _ _ stats => now' = now ∧ stats.limitTime = limitTimeOf now
  | within now' _ _ _ stats => now' = now ∧ stats.limitTime = limitTimeOf now

def Collecting.Mirrors (list : TorrentList) (collecting : Collecting)
    (sweeping : Option (Int × Set Hash)) : Prop :=
  match sweeping with
  | none => collecting = .idle
  | some (now, swept) => collecting.Clock now ∧ collecting.Behind list swept

/-- The store in which each announce is one step stands as the table does. -/
structure Mirrors (state : State host Worker)
    (store : Sweeps.State Hash (Option TorrentData) (Deed host) Int) : Prop where
  value : ∀ hash, Told state hash (store.value hash)
  sweeping : state.collecting.Mirrors state.table store.sweeping
  log : store.log = state.log

theorem Collecting.Behind.rewritten {list list' : TorrentList} {leaf : Path}
    {replacement : List (Entry TorrentData)} (rewritten : Rewritten list list' leaf replacement)
    {collecting : Collecting} {swept : Set Hash} (behind : collecting.Behind list swept)
    (apart : collecting.leaf ≠ some leaf) : collecting.Behind list' swept := by
  have routes : ∀ hash, list'.getLeaf hash = list.getLeaf hash := by
    intro hash
    rw [rewritten.frame.header]
  cases collecting with
  | idle => trivial
  | between now leaves stats =>
      intro hash
      rw [routes]
      exact behind hash
  | sees now leaf' leaves stats =>
      intro hash
      rw [routes]
      exact behind hash
  | within now leaf' item leaves stats =>
      have elsewhere : leaf' ≠ leaf := fun same => apart (congrArg some same)
      obtain ⟨front, rest, split, atItem, covers⟩ := behind
      refine ⟨front, rest, ?_, atItem, ?_⟩
      · rw [rewritten.leafEntries, Function.update_of_ne elsewhere]
        exact split
      · intro hash
        rw [routes]
        exact covers hash

theorem Collecting.Behind.withSemaphore {list : TorrentList} {collecting : Collecting}
    {swept : Set Hash} (behind : collecting.Behind list swept)
    (semaphore : Path → Option Nat) :
    collecting.Behind { list with semaphore := semaphore } swept := by
  cases collecting with
  | idle => trivial
  | between now leaves stats => exact behind
  | sees now leaf leaves stats => exact behind
  | within now leaf item leaves stats => exact behind

theorem Collecting.Mirrors.of_behind {list list' : TorrentList} {collecting : Collecting}
    {sweeping : Option (Int × Set Hash)} (mirrors : collecting.Mirrors list sweeping)
    (behind : ∀ swept, collecting.Behind list swept → collecting.Behind list' swept) :
    collecting.Mirrors list' sweeping := by
  cases sweeping with
  | none => exact mirrors
  | some pass => exact ⟨mirrors.1, behind _ mirrors.2⟩

variable {state : State host Worker}

theorem Working.Changes.leaf {working : Working host} {hash : Hash}
    (changes : working.Changes hash) (list : TorrentList) :
    working.leaf list = some (list.getLeaf hash) := by
  obtain ⟨announcing, now, torrent, rfl, rfl⟩ := changes
  rfl

def Working.Quiet : Working host → Prop
  | updated _ _ _ => False
  | _ => True

theorem Working.Quiet.unchanged {working : Working host} (quiet : working.Quiet) (hash : Hash) :
    ¬working.Changes hash := by
  rintro ⟨announcing, now, torrent, rfl, _⟩
  exact quiet

theorem Sound.unchanged (sound : Sound state) {thread : Thread Worker} {hash : Hash}
    (holds : state.holding thread = some (state.table.getLeaf hash)) {worker : Worker}
    (differs : Thread.worker worker ≠ thread) : ¬(state.working worker).Changes hash :=
  fun changes => sound.apart holds differs (changes.leaf state.table)

theorem Told.found (sound : Sound state) {thread : Thread Worker} {hash : Hash}
    {value : Option TorrentData} (told : Told state hash value)
    (holds : state.holding thread = some (state.table.getLeaf hash))
    (own : ∀ worker, thread = .worker worker → ¬(state.working worker).Changes hash) :
    value = state.table.value hash := by
  apply told.same
  intro worker
  by_cases same : Thread.worker worker = thread
  · exact own worker same.symm
  · exact sound.unchanged holds same

theorem Told.missing {hash : Hash} {value : Option TorrentData} (told : Told state hash value)
    (absent : state.table.value hash = none) : value = none := by
  by_cases changes : ∃ worker, (state.working worker).Changes hash
  · obtain ⟨worker, announcing, now, torrent, stands, here⟩ := changes
    have announced := told.changed worker announcing now torrent stands here
    rw [absent] at announced
    exact announced.missing
  · rw [told.same fun worker changed => changes ⟨worker, changed⟩, absent]

section Workers

variable [DecidableEq Worker]

theorem State.working_self (state : State host Worker) (table : TorrentList) (worker : Worker)
    (working : Working host) :
    ((state.writes table).sets worker working).working worker = working :=
  Function.update_self ..

theorem State.working_other (state : State host Worker) (table : TorrentList)
    {worker other : Worker} {working : Working host} (differs : other ≠ worker) :
    ((state.writes table).sets worker working).working other = state.working other :=
  Function.update_of_ne differs ..

theorem Told.keeps {hash : Hash} {value : Option TorrentData} (told : Told state hash value)
    {table : TorrentList} {worker : Worker} {working : Working host}
    (values : table.value hash = state.table.value hash)
    (before : ¬(state.working worker).Changes hash) (after : ¬working.Changes hash) :
    Told ((state.writes table).sets worker working) hash value where
  changed := by
    intro other announcing now torrent stands here
    by_cases same : other = worker
    · subst same
      rw [State.working_self] at stands
      exact absurd ⟨announcing, now, torrent, stands, here⟩ after
    · rw [State.working_other state table same] at stands
      show Announced _ _ _ value (table.value hash)
      rw [values]
      exact told.changed other announcing now torrent stands here
  same := by
    intro nobody
    show value = table.value hash
    rw [values]
    apply told.same
    intro other
    by_cases same : other = worker
    · rw [same]
      exact before
    · have apart := nobody other
      rwa [State.working_other state table same] at apart

theorem Mirrors.worker {store : Sweeps.State Hash (Option TorrentData) (Deed host) Int}
    (mirrors : Mirrors state store) {table : TorrentList} {worker : Worker}
    {working : Working host}
    (told : ∀ hash, Told ((state.writes table).sets worker working) hash (store.value hash))
    (behind : ∀ swept, state.collecting.Behind state.table swept →
      state.collecting.Behind table swept) :
    Mirrors ((state.writes table).sets worker working) store :=
  ⟨told, mirrors.sweeping.of_behind behind, mirrors.log⟩

variable {store : Sweeps.State Hash (Option TorrentData) (Deed host) Int}

theorem Mirrors.withSemaphore (mirrors : Mirrors state store) {worker : Worker}
    {working : Working host} (semaphore : Path → Option Nat)
    (before : (state.working worker).Quiet) (after : working.Quiet) :
    Mirrors ((state.writes { state.table with semaphore := semaphore }).sets worker working)
      store := by
  apply mirrors.worker
  · intro hash
    exact (mirrors.value hash).keeps rfl (before.unchanged hash) (after.unchanged hash)
  · exact fun swept behind => behind.withSemaphore semaphore

theorem Mirrors.updates (sound : Sound state) (mirrors : Mirrors state store) {worker : Worker}
    {announcing : Announcing host} {table : TorrentList} {torrent : Option Address} {now : Int}
    (holds : state.working worker = .holds announcing)
    (updated : updatePeers state.table announcing.query announcing.request.protocol now =
      .ok (table, torrent)) :
    Mirrors ((state.writes table).sets worker (.updated announcing now torrent)) store := by
  have holding : state.holding (.worker worker) =
      some (state.table.getLeaf announcing.query.infoHash.list) := by
    show (state.working worker).leaf state.table = _
    rw [holds]
    rfl
  have quiet : (state.working worker).Quiet := by
    rw [holds]
    trivial
  obtain ⟨⟨replacement, rewritten⟩, _⟩ := updatePeers_rewritten sound.table updated
  obtain ⟨table', torrent', after, updated', linked, _, update, announced, _⟩ :=
    updatePeers_spec sound.table announcing.query announcing.request.protocol now
  cases updated.symm.trans updated'
  have values := update.value_eq sound.table.linked linked.linked
  apply mirrors.worker
  · intro hash
    by_cases here : hash = announcing.query.infoHash.list
    · subst here
      have found := (mirrors.value _).found sound holding fun other same => by
        cases same
        exact quiet.unchanged _
      constructor
      case changed =>
        intro other announcing' now' torrent' stands same
        by_cases own : other = worker
        · subst own
          rw [State.working_self] at stands
          cases stands
          show Announced _ _ _ _ (table.value announcing.query.infoHash.list)
          rw [found, values, Function.update_self]
          exact announced
        · rw [State.working_other state table own] at stands
          have apart : Thread.worker other ≠ .worker worker :=
            fun equal => own (Thread.worker.inj equal)
          exact absurd ⟨_, _, _, stands, same⟩ (sound.unchanged holding apart)
      case same =>
        intro nobody
        apply absurd _ (nobody worker)
        rw [State.working_self]
        exact ⟨_, _, _, rfl, rfl⟩
    · apply (mirrors.value hash).keeps _ (quiet.unchanged hash)
      · rintro ⟨_, _, _, same, other⟩
        cases same
        exact here other.symm
      · rw [values, Function.update_of_ne here]
  · have apart : Thread.collector ≠ .worker worker := nofun
    exact fun swept behind => behind.rewritten rewritten (sound.apart holding apart)

/-- A worker that tells of the torrent it holds does so at once. -/
theorem Mirrors.tells (sound : Sound state) (mirrors : Mirrors state store) {worker : Worker}
    {working : Working host} {deed : Deed host}
    (holding : state.holding (.worker worker) = some (state.table.getLeaf deed.infoHash))
    (only : ∀ hash, (state.working worker).Changes hash → hash = deed.infoHash)
    (quiet : working.Quiet)
    (does : (rules host).does deed (store.value deed.infoHash)
      (state.table.value deed.infoHash)) :
    ∃ store', (rules host).Step store store' ∧
      Mirrors ((state.tells (.inl deed)).sets worker working) store' := by
  have stands : ∀ other, other ≠ worker →
      ((state.tells (.inl deed)).sets worker working).working other = state.working other :=
    fun other differs => Function.update_of_ne differs ..
  have own : ((state.tells (.inl deed)).sets worker working).working worker = working :=
    Function.update_self ..
  refine ⟨_, .deed does, ?_, mirrors.sweeping, congrArg (· ++ [.inl deed]) mirrors.log⟩
  intro hash
  show Told _ hash (Function.update store.value deed.infoHash _ hash)
  by_cases here : hash = deed.infoHash
  · subst here
    rw [Function.update_self]
    constructor
    case changed =>
      intro other announcing now torrent changed same
      by_cases self : other = worker
      · rw [self, own] at changed
        exact absurd ⟨_, _, _, changed, same⟩ (quiet.unchanged _)
      · rw [stands other self] at changed
        have apart : Thread.worker other ≠ .worker worker :=
          fun equal => self (Thread.worker.inj equal)
        exact absurd ⟨_, _, _, changed, same⟩ (sound.unchanged holding apart)
    case same => exact fun _ => rfl
  · rw [Function.update_of_ne here]
    have before : ¬(state.working worker).Changes hash := fun changes => here (only hash changes)
    have kept : Told ((state.writes state.table).sets worker working) hash (store.value hash) :=
      (mirrors.value hash).keeps rfl before (quiet.unchanged hash)
    exact ⟨kept.changed, kept.same⟩

theorem Mirrors.renders (sound : Sound state) (mirrors : Mirrors state store) {worker : Worker}
    {announcing : Announcing host} {torrent : Option Address} {now : Int} {reply : List UInt8}
    {interval : UInt32} (updated : state.working worker = .updated announcing now torrent)
    (rendered : renderAnnouncePublic host.inetNtop state.table torrent announcing.query interval =
      .ok reply) (leaf : Path) :
    ∃ store', (rules host).Step store store' ∧
      Mirrors ((state.tells (.inl (.announced announcing now interval reply))).sets worker
        (.told leaf)) store' := by
  have points := sound.points worker
  rw [updated] at points
  have replied := renderAnnouncePublic_lookup host.inetNtop sound.table announcing.query interval
    announcing.query.infoHash.list
  rw [← (points : torrent = _), rendered] at replied
  apply mirrors.tells sound
  · show (state.working worker).leaf state.table = _
    rw [updated]
    rfl
  · rintro hash ⟨_, _, _, same, rfl⟩
    rw [updated] at same
    cases same
    rfl
  · trivial
  · exact ⟨(mirrors.value _).changed worker announcing now torrent updated rfl,
      Except.ok.inj replied⟩

theorem Mirrors.reads (sound : Sound state) (mirrors : Mirrors state store) {worker : Worker}
    {hash : ParamValue} {protocol : Protocol} {counters : TorrentCounters}
    (looks : state.working worker = .looks hash protocol)
    (read : (getHash state.table hash.list >>= scrapeCounters state.table) = .ok counters)
    (leaf : Path) :
    ∃ store', (rules host).Step store store' ∧
      Mirrors ((state.tells (.inl
        (.scraped hash protocol (renderScrapeTorrentL counters hash protocol)))).sets worker
        (.told leaf)) store' := by
  have quiet : (state.working worker).Quiet := by
    rw [looks]
    trivial
  have holding : state.holding (.worker worker) = some (state.table.getLeaf hash.list) := by
    show (state.working worker).leaf state.table = _
    rw [looks]
    rfl
  have found := (mirrors.value hash.list).found sound holding fun other same => by
    cases same
    exact quiet.unchanged _
  rw [scrapeCounters_eq sound.table hash] at read
  apply mirrors.tells sound holding
  · exact fun other changes => absurd changes (quiet.unchanged other)
  · trivial
  · have entry : counters = ((store.value hash.list).map TorrentData.toTorrentCounters).getD
        ⟨0, 0, 0⟩ := by
      rw [found, ← Except.ok.inj read]
      rfl
    exact ⟨found.symm, congrArg (renderScrapeTorrentL · hash protocol) entry⟩

end Workers

section Collector

variable {store : Sweeps.State Hash (Option TorrentData) (Deed host) Int}

theorem Mirrors.begins (mirrors : Mirrors state store) (now : Int)
    (idle : state.collecting = .idle) :
    ∃ store', (rules host).Step store store' ∧
      Mirrors (state.collects (.between now (leafPaths state.table.level [])
        (GarbageStats.start (limitTimeOf now)))) store' := by
  have sweeping : store.sweeping = none := by
    have both := mirrors.sweeping
    cases under : store.sweeping with
    | none => rfl
    | some pass =>
        rw [under, idle] at both
        exact both.1.elim
  refine ⟨_, .begins now sweeping, fun hash => ?_, ⟨⟨rfl, rfl⟩, ?_⟩, mirrors.log⟩
  · exact ⟨(mirrors.value hash).changed, (mirrors.value hash).same⟩
  · intro hash
    constructor
    · exact fun inside => inside.elim
    · exact fun outside => absurd (getLeaf_mem _ hash) outside

theorem Collecting.Mirrors.clock {list : TorrentList} {collecting : Collecting}
    {sweeping : Option (Int × Set Hash)} (mirrors : collecting.Mirrors list sweeping)
    (busy : collecting ≠ .idle) : ∃ now swept, sweeping = some (now, swept) ∧
      collecting.Clock now ∧ collecting.Behind list swept := by
  cases sweeping with
  | none => exact absurd mirrors busy
  | some pass => exact ⟨pass.1, pass.2, rfl, mirrors.1, mirrors.2⟩

theorem Sound.distinct (sound : Sound state) : state.collecting.ahead.Nodup :=
  sound.ahead.sublist.nodup (leafPaths_nodup _ _)

theorem Mirrors.passes (mirrors : Mirrors state store) {now : Int} {swept : Set Hash}
    (keys : Set Hash) (sweeping : store.sweeping = some (now, swept)) {collecting : Collecting}
    (absent : ∀ hash ∈ keys, hash ∉ swept ∧ state.table.value hash = none)
    {table : TorrentList} (values : table.value = state.table.value)
    (clock : collecting.Clock now) (behind : collecting.Behind table (swept ∪ keys)) :
    ∃ store', (rules host).Step store store' ∧
      Mirrors ((state.writes table).collects collecting) store' := by
  have takes : ∀ hash ∈ keys, hash ∉ swept ∧
      (rules host).sweeps now (store.value hash) (store.value hash) := by
    intro hash member
    obtain ⟨fresh, unknown⟩ := absent hash member
    have nothing := (mirrors.value hash).missing unknown
    refine ⟨fresh, ?_⟩
    rw [nothing]
    rfl
  refine ⟨_, .sweeps sweeping takes fun _ _ => rfl, ?_, ⟨clock, behind⟩, mirrors.log⟩
  intro hash
  constructor
  case changed =>
    intro worker announcing now' torrent stands here
    show Announced _ _ _ _ (table.value hash)
    rw [values]
    exact (mirrors.value hash).changed worker announcing now' torrent stands here
  case same =>
    intro nobody
    show _ = table.value hash
    rw [values]
    exact (mirrors.value hash).same nobody

theorem Mirrors.skips (sound : Sound state) (mirrors : Mirrors state store) {now : Int}
    {leaf : Path} {leaves : List Path} {stats : GarbageStats}
    (between : state.collecting = .between now (leaf :: leaves) stats)
    (empty : state.table.firstItem leaf = none) :
    ∃ store', (rules host).Step store store' ∧
      Mirrors (state.collects (.between now leaves stats)) store' := by
  have distinct := sound.distinct
  rw [between] at distinct
  obtain ⟨now', swept, sweeping, clock, behind⟩ :=
    mirrors.sweeping.clock (by rw [between]; nofun)
  rw [between] at clock behind
  obtain ⟨rfl, limit⟩ := clock
  have apart : leaf ∉ leaves := (List.nodup_cons.mp distinct).1
  have absent : ∀ hash ∈ { hash | state.table.getLeaf hash = leaf },
      hash ∉ swept ∧ state.table.value hash = none := by
    rintro hash rfl
    refine ⟨fun inside => (behind hash).mp inside List.mem_cons_self, ?_⟩
    exact value_of_firstItem_none sound.table.linked empty
  refine mirrors.passes _ sweeping absent rfl ⟨rfl, limit⟩ ?_
  · intro hash
    rw [Set.mem_union, behind hash, List.mem_cons, not_or]
    constructor
    · rintro (⟨_, later⟩ | rfl)
      · exact later
      · exact apart
    · intro later
      by_cases here : state.table.getLeaf hash = leaf
      · exact Or.inr here
      · exact Or.inl ⟨here, later⟩

theorem Mirrors.sees (mirrors : Mirrors state store) {now : Int} {leaf : Path}
    {leaves : List Path} {stats : GarbageStats}
    (between : state.collecting = .between now (leaf :: leaves) stats) :
    Mirrors (state.collects (.sees now leaf leaves stats)) store := by
  obtain ⟨now', swept, sweeping, clock, behind⟩ :=
    mirrors.sweeping.clock (by rw [between]; nofun)
  rw [between] at clock behind
  refine ⟨fun hash => ?_, ?_, mirrors.log⟩
  · exact ⟨(mirrors.value hash).changed, (mirrors.value hash).same⟩
  · rw [sweeping]
    exact ⟨clock, behind⟩

theorem Mirrors.enters (sound : Sound state) (mirrors : Mirrors state store) {now : Int}
    {leaf : Path} {leaves : List Path} {stats : GarbageStats} {table : TorrentList}
    (sees : state.collecting = .sees now leaf leaves stats)
    (waited : waitSemaphoreLeaf state.table leaf = .ok table) :
    ∃ store', (rules host).Step store store' ∧
      Mirrors ((state.writes table).collects (.within now leaf (table.firstItem leaf) leaves stats))
        store' := by
  obtain ⟨value, available, rfl⟩ := (waitSemaphoreLeaf_ok_iff sound.enabled).mp waited
  have linked := sound.table.linked
  obtain ⟨now', swept, sweeping, clock, behind⟩ :=
    mirrors.sweeping.clock (by rw [sees]; nofun)
  rw [sees] at clock behind
  obtain ⟨rfl, limit⟩ := clock
  apply mirrors.passes { hash | state.table.getLeaf hash = leaf ∧
    ∀ entry ∈ state.table.leafEntries leaf, entry.2.hash ≠ hash } sweeping
  · rintro hash ⟨rfl, missing⟩
    refine ⟨fun inside => (behind hash).mp inside List.mem_cons_self, ?_⟩
    exact value_of_not_mem_leafEntries linked missing
  · rfl
  · exact ⟨rfl, limit⟩
  · refine ⟨[], _, rfl, segment_head (linked.linked leaf), ?_⟩
    intro hash
    rw [Set.mem_union, behind hash]
    exact Iff.rfl

theorem covers_visited {list : TorrentList} {leaf : Path} {leaves : List Path} {swept : Set Hash}
    {entry : Entry TorrentData} {rest : List (Entry TorrentData)}
    (routed : list.getLeaf entry.2.hash = leaf)
    (distinct : ((entry :: rest).map fun entry => entry.2.hash).Nodup)
    (covers : ∀ hash, hash ∈ swept ↔ list.getLeaf hash ∉ leaf :: leaves ∨
      list.getLeaf hash = leaf ∧ ∀ other ∈ entry :: rest, other.2.hash ≠ hash) (hash : Hash) :
    hash ∈ swept ∪ {entry.2.hash} ↔ list.getLeaf hash ∉ leaf :: leaves ∨
      list.getLeaf hash = leaf ∧ ∀ other ∈ rest, other.2.hash ≠ hash := by
  have apart : ∀ other ∈ rest, other.2.hash ≠ entry.2.hash :=
    fun other later same => (List.nodup_cons.mp distinct).1 (List.mem_map.mpr ⟨other, later, same⟩)
  rw [Set.mem_union, covers hash, Set.mem_singleton_iff]
  constructor
  · rintro ((outside | ⟨here, missing⟩) | rfl)
    · exact Or.inl outside
    · exact Or.inr ⟨here, fun other later => missing other (List.mem_cons_of_mem _ later)⟩
    · exact Or.inr ⟨routed, apart⟩
  · rintro (outside | ⟨here, missing⟩)
    · exact Or.inl (Or.inl outside)
    · by_cases same : hash = entry.2.hash
      · exact Or.inr same
      · refine Or.inl (Or.inr ⟨here, ?_⟩)
        intro other member
        rcases List.mem_cons.mp member with rfl | later
        · exact Ne.symm same
        · exact missing other later

theorem Mirrors.told_visited (sound : Sound state) (mirrors : Mirrors state store) {changed : Hash}
    (holding : state.holding .collector = some (state.table.getLeaf changed))
    {after : Option TorrentData} {table : TorrentList}
    (values : table.value = Function.update state.table.value changed after)
    (collecting : Collecting) (hash : Hash) :
    Told ((state.writes table).collects collecting) hash
      (Function.update store.value changed after hash) := by
  by_cases here : hash = changed
  · subst here
    rw [Function.update_self]
    constructor
    case changed =>
      intro worker announcing now torrent stands here
      have apart : Thread.worker worker ≠ .collector := nofun
      exact absurd ⟨_, _, _, stands, here⟩ (sound.unchanged holding apart)
    case same =>
      intro _
      show after = table.value _
      rw [values, Function.update_self]
  · rw [Function.update_of_ne here]
    have unchanged : table.value hash = state.table.value hash := by
      rw [values, Function.update_of_ne here]
    constructor
    case changed =>
      intro worker announcing now torrent stands same
      show Announced _ _ _ _ (table.value hash)
      rw [unchanged]
      exact (mirrors.value hash).changed worker announcing now torrent stands same
    case same =>
      intro nobody
      show _ = table.value hash
      rw [unchanged]
      exact (mirrors.value hash).same nobody

theorem Mirrors.visits (sound : Sound state) (mirrors : Mirrors state store) {now : Int}
    {leaf : Path} {item : Address} {leaves : List Path} {stats stats' : GarbageStats}
    {current : Item TorrentData} {table : TorrentList} {answer : ListReturn}
    (within : state.collecting = .within now leaf (some item) leaves stats)
    (read : state.table.deref item = .ok current)
    (visited : runGarbageCollectorCallback leaf item (state.table, stats) =
      .ok (answer, table, stats')) :
    ∃ store', (rules host).Step store store' ∧
      Mirrors ((state.writes table).collects
        (.within now leaf current.nextInLeaf leaves stats')) store' := by
  have linked := sound.table.linked
  obtain ⟨now', swept, sweeping, clock, behind⟩ :=
    mirrors.sweeping.clock (by rw [within]; nofun)
  rw [within] at clock behind
  obtain ⟨rfl, limit⟩ := clock
  obtain ⟨front, rest, split, atItem, covers⟩ := behind
  cases rest with
  | nil => cases atItem
  | cons entry rest =>
      cases atItem
      have inLeaf : entry ∈ state.table.leafEntries leaf := by simp [split]
      obtain ⟨stored, routed⟩ := value_of_mem_leafEntries linked inLeaf
      obtain ⟨torrentDataL, after, isTorrent, collected, rewritten, limit', _, _⟩ :=
        runGarbageCollectorCallback_ok sound.table split visited
      have values := rewritten.value_left linked split
      have holding : state.holding .collector = some (state.table.getLeaf entry.2.hash) := by
        show state.collecting.leaf = _
        rw [within, routed]
        rfl
      have found := (mirrors.value entry.2.hash).found sound holding fun _ => nofun
      -- The torrent is in the leaf that the pass is in, and still ahead of it.
      have fresh : entry.2.hash ∉ swept := by
        intro inside
        rcases (covers _).mp inside with outside | ⟨_, missing⟩
        · rw [routed] at outside
          exact outside List.mem_cons_self
        · exact missing entry List.mem_cons_self rfl
      have takes : ∀ hash ∈ ({entry.2.hash} : Set Hash), hash ∉ swept ∧
          (rules host).sweeps now (store.value hash)
            (Function.update store.value entry.2.hash after hash) := by
        rintro hash rfl
        refine ⟨fresh, ?_⟩
        show Collects _ _ _
        rw [found, stored, isTorrent, Function.update_self]
        rwa [limit] at collected
      have distinct := Represents.hash_nodup linked leaf
      rw [split, List.map_append] at distinct
      have chain := linked.linked leaf
      rw [split] at chain
      obtain ⟨cell, present, _, forward, _⟩ := segment_middle chain
      simp only [HashList.deref, present, pure_eq_ok, Except.ok.injEq] at read
      have behind : Collecting.Behind table (swept ∪ {entry.2.hash})
          (.within now leaf current.nextInLeaf leaves stats') := by
        refine ⟨front ++ leftEntry entry after, rest, ?_, ?_, ?_⟩
        · rw [rewritten.leafEntries, Function.update_self]
        · rw [← read]
          exact forward
        · rw [rewritten.frame.header]
          exact covers_visited routed (List.Nodup.of_append_right distinct) covers
      refine ⟨_, .sweeps sweeping takes ?_, ?_, ⟨⟨rfl, limit'.trans limit⟩, behind⟩, mirrors.log⟩
      · exact fun hash differs => Function.update_of_ne differs ..
      · exact mirrors.told_visited sound holding values _

theorem Mirrors.exits (sound : Sound state) (mirrors : Mirrors state store) {now : Int}
    {leaf : Path} {leaves : List Path} {stats : GarbageStats} {table : TorrentList}
    (within : state.collecting = .within now leaf none leaves stats)
    (posted : postSemaphoreLeaf state.table leaf = .ok table) :
    Mirrors ((state.writes table).collects (.between now leaves stats)) store := by
  obtain ⟨value, present, rfl⟩ := (postSemaphoreLeaf_ok_iff sound.enabled).mp posted
  have distinct := sound.distinct
  rw [within] at distinct
  have apart : leaf ∉ leaves := (List.nodup_cons.mp distinct).1
  obtain ⟨now', swept, sweeping, clock, behind⟩ :=
    mirrors.sweeping.clock (by rw [within]; nofun)
  rw [within] at clock behind
  obtain ⟨front, rest, split, atItem, covers⟩ := behind
  cases rest with
  | cons entry rest => cases atItem
  | nil =>
      refine ⟨fun hash => ?_, ?_, mirrors.log⟩
      · exact ⟨(mirrors.value hash).changed, (mirrors.value hash).same⟩
      · rw [sweeping]
        refine ⟨clock, ?_⟩
        intro hash
        rw [covers hash, List.mem_cons, not_or]
        constructor
        · rintro (⟨_, later⟩ | ⟨rfl, _⟩)
          · exact later
          · exact apart
        · intro later
          by_cases here : state.table.getLeaf hash = leaf
          · exact Or.inr ⟨here, nofun⟩
          · exact Or.inl ⟨here, later⟩

theorem Mirrors.ends (mirrors : Mirrors state store) {now : Int} {stats : GarbageStats}
    (between : state.collecting = .between now [] stats) :
    ∃ store', (rules host).Step store store' ∧
      Mirrors ((state.tells (.inr now)).collects .idle) store' := by
  obtain ⟨now', swept, sweeping, clock, behind⟩ :=
    mirrors.sweeping.clock (by rw [between]; nofun)
  rw [between] at clock behind
  obtain ⟨rfl, _⟩ := clock
  have all : swept = Set.univ :=
    Set.eq_univ_of_forall fun hash => (behind hash).mpr List.not_mem_nil
  rw [all] at sweeping
  refine ⟨_, .ends sweeping, fun hash => ?_, rfl, congrArg (· ++ [.inr now]) mirrors.log⟩
  exact ⟨(mirrors.value hash).changed, (mirrors.value hash).same⟩

end Collector

section Run

variable [DecidableEq Worker] {store : Sweeps.State Hash (Option TorrentData) (Deed host) Int}

/-- A step of the threads is a step of the store, or none. -/
theorem Mirrors.step (sound : Sound state) (mirrors : Mirrors state store) {thread : Thread Worker}
    {after : State host Worker} (taken : Step thread state after) :
    Mirrors after store ∨ ∃ store', (rules host).Step store store' ∧ Mirrors after store' := by
  cases taken with
  | takes announcing idle waited =>
      obtain ⟨value, available, rfl⟩ := (waitSemaphoreLeaf_ok_iff sound.enabled).mp waited
      exact Or.inl (mirrors.withSemaphore _ (by rw [idle]; trivial) trivial)
  | updates now holds updated => exact Or.inl (mirrors.updates sound holds updated)
  | renders interval updated rendered => exact Or.inr (mirrors.renders sound updated rendered _)
  | asks hash protocol idle waited =>
      obtain ⟨value, available, rfl⟩ := (waitSemaphoreLeaf_ok_iff sound.enabled).mp waited
      exact Or.inl (mirrors.withSemaphore _ (by rw [idle]; trivial) trivial)
  | reads looks read => exact Or.inr (mirrors.reads sound looks read _)
  | posts told posted =>
      obtain ⟨value, present, rfl⟩ := (postSemaphoreLeaf_ok_iff sound.enabled).mp posted
      exact Or.inl (mirrors.withSemaphore _ (by rw [told]; trivial) trivial)
  | begins now idle => exact Or.inr (mirrors.begins now idle)
  | skips between empty => exact Or.inr (mirrors.skips sound between empty)
  | sees between occupied => exact Or.inl (mirrors.sees between)
  | enters sees waited => exact Or.inr (mirrors.enters sound sees waited)
  | visits within read visited => exact Or.inr (mirrors.visits sound within read visited)
  | exits within posted => exact Or.inl (mirrors.exits sound within posted)
  | ends between => exact Or.inr (mirrors.ends between)

theorem State.start_mirrors (host : Host) (Worker : Type) :
    Mirrors (State.start host Worker) ⟨fun _ => none, none, []⟩ := by
  refine ⟨fun hash => ⟨?_, fun _ => ?_⟩, rfl, rfl⟩
  · intro worker announcing now torrent stands
    cases stands
  · exact (newList_value _ hash).symm

theorem Reachable.mirrored (reachable : Reachable host Worker state) :
    ∃ store, Relation.ReflTransGen (rules host).Step ⟨fun _ => none, none, []⟩ store ∧
      Mirrors state store := by
  induction reachable with
  | start => exact ⟨_, .refl, State.start_mirrors host Worker⟩
  | next before _ taken ih =>
      obtain ⟨store, run, mirrors⟩ := ih
      rcases mirrors.step (Reachable.sound before) taken with same | ⟨store', next, mirrors'⟩
      · exact ⟨store, run, same⟩
      · exact ⟨store', run.tail next, mirrors'⟩

end Run

end Mirror

section Sequential

variable {host : Host}

/-- A tracker that does one thing after the other, and what it tells. -/
inductive Sequential (host : Host) : List (Deed host ⊕ Int) → TorrentList → Prop
  | start : Sequential host [] emptyTorrentList
  | announced {log : List (Deed host ⊕ Int)} {torrentList torrentList' : TorrentList}
      {announcing : Announcing host} {now : Int} {interval : UInt32} {reply : List UInt8} :
      Sequential host log torrentList →
      announce host.inetNtop torrentList announcing.query announcing.request.protocol interval
        now = .ok (torrentList', reply) →
      Sequential host (log ++ [.inl (.announced announcing now interval reply)]) torrentList'
  | scraped {log : List (Deed host ⊕ Int)} {torrentList torrentList' : TorrentList}
      {hash : ParamValue} {protocol : Protocol} {entry : List UInt8} :
      Sequential host log torrentList →
      renderScrapeHashes hash.list protocol [0] torrentList [] = .ok (torrentList', entry) →
      Sequential host (log ++ [.inl (.scraped hash protocol entry)]) torrentList'
  | collected {log : List (Deed host ⊕ Int)} {torrentList torrentList' : TorrentList} {now : Int}
      {stats : GarbageStats} :
      Sequential host log torrentList →
      runGarbageCollectorL torrentList now = .ok (torrentList', stats) →
      Sequential host (log ++ [.inr now]) torrentList'

theorem renderScrapeHashes_one {torrentList : TorrentList} (table : TableInv torrentList)
    (hash : ParamValue) (protocol : Protocol) :
    renderScrapeHashes hash.list protocol [0] torrentList [] =
      .ok (torrentList, renderScrapeTorrentL (countersAt torrentList hash.list) hash protocol) := by
  have length := hash.length_eq
  have inside : 0 < hash.list.length / uriParamValueLength := by
    rw [length]
    decide
  obtain ⟨copied, received, content⟩ := hashAt_eq inside
  have same : copied = hash := by
    apply Bytes.ext
    rw [content, Nat.zero_mul, List.drop_zero, List.take_of_length_le (Nat.le_of_eq length)]
  obtain ⟨semaphore, waited, posted⟩ :=
    waitSemaphoreLeaf_ok table.inv (getLeaf_length torrentList.toListHeader hash.list)
  have counters := scrapeCounters_eq (table.table.withSemaphore semaphore) hash
  obtain ⟨torrent, found, read⟩ := bind_eq_ok counters
  have back := posted { torrentList with semaphore := semaphore } rfl rfl
  simp only [renderScrapeHashes, received, same, waited, found, read, back, ok_bind, pure_eq_ok,
    ite_self, List.nil_append]
  rfl

theorem Announcing.serve (announcing : Announcing host) (interval : UInt32) (now : Int)
    (torrentList : TorrentList) :
    announcing.request.serve host { announcing.settings with interval := interval } torrentList
        now =
      (announce host.inetNtop torrentList announcing.query announcing.request.protocol interval
        now >>= fun result => .ok result.1) := by
  have announces : announcing.request.query host
      { announcing.settings with interval := interval } = some announcing.query := by
    rw [← announcing.announces]
    cases announcing.request <;> rfl
  exact Request.serve_announce announces torrentList now

theorem Sequential.reachable {log : List (Deed host ⊕ Int)} {torrentList : TorrentList}
    (sequential : Sequential host log torrentList) : Etracker.Reachable host torrentList := by
  induction sequential with
  | start => exact .start
  | @announced _ before after announcing now interval _ _ completed ih =>
      have taken : Etracker.Step.Takes host ⟨now, { announcing.settings with interval := interval },
          .serve announcing.request⟩ before after := by
        show announcing.request.serve host _ _ now = _
        rw [announcing.serve, completed, ok_bind]
      exact .next ih trivial taken
  | scraped _ completed ih =>
      rw [renderScrapeHashes_one (reached_inv ih)] at completed
      cases completed
      exact ih
  | @collected _ before after now _ _ pass ih =>
      have taken : Etracker.Step.Takes host ⟨now, ⟨0, 0, none⟩, .collect⟩ before after := by
        show (runGarbageCollectorL _ now >>= _) = _
        rw [pass, ok_bind]
        rfl
      exact .next ih trivial taken

/-- A run of the store is a run of the tracker that does one thing after the other. -/
theorem sequential_of_serial {log : List (Deed host ⊕ Int)} {value : Hash → Option TorrentData}
    (serial : (rules host).Serial (fun _ => none) log value) :
    ∃ torrentList, Sequential host log torrentList ∧ torrentList.value = value := by
  induction serial with
  | start => exact ⟨_, .start, funext fun hash => newList_value _ hash⟩
  | @deed log value deed after _ does ih =>
      obtain ⟨torrentList, sequential, rfl⟩ := ih
      have table := reached_inv sequential.reachable
      cases deed with
      | announced announcing now interval reply =>
          obtain ⟨announced, rfl⟩ := does
          obtain ⟨torrentList', after', completed, table', _, update, announced'⟩ :=
            announce_spec host.inetNtop table announcing.query announcing.request.protocol interval
              now
          cases announced.unique announced'
          exact ⟨torrentList', sequential.announced completed,
            update.value_eq table.inv.linked table'.inv.linked⟩
      | scraped hash protocol entry =>
          obtain ⟨rfl, told⟩ := does
          have rendered := renderScrapeHashes_one table hash protocol
          rw [told]
          exact ⟨torrentList, sequential.scraped rendered, (Function.update_eq_self _ _).symm⟩
  | sweep _ sweeps ih =>
      obtain ⟨torrentList, sequential, rfl⟩ := ih
      have table := reached_inv sequential.reachable
      obtain ⟨torrentList', stats, pass, left⟩ := runGarbageCollectorL_collects table sweeps
      exact ⟨torrentList', sequential.collected pass, left⟩

/-- Between two passes the clients have been told what a tracker tells that does one thing after
the other, of each torrent in the same order; and that tracker has the same torrents, but for
those whose announce is not yet told of. -/
theorem interleaved_serializable {Worker : Type} [DecidableEq Worker] {state : State host Worker}
    (reachable : Reachable host Worker state) (idle : state.collecting = .idle) :
    ∃ log torrentList, Sequential host log torrentList ∧ Etracker.Reachable host torrentList ∧
      (rules host).Alike log state.log ∧
      ∀ hash, (∀ worker, ¬(state.working worker).Changes hash) →
        torrentList.value hash = state.table.value hash := by
  obtain ⟨store, run, mirrors⟩ := reachable.mirrored
  have settled : store.sweeping = none := by
    have both := mirrors.sweeping
    cases under : store.sweeping with
    | none => rfl
    | some pass =>
        rw [under, idle] at both
        exact both.1.elim
  obtain ⟨log, serial, alike⟩ := Rules.serializable run settled
  obtain ⟨torrentList, sequential, values⟩ := sequential_of_serial serial
  rw [mirrors.log] at alike
  refine ⟨log, torrentList, sequential, sequential.reachable, alike, ?_⟩
  intro hash nobody
  rw [values]
  exact (mirrors.value hash).same nobody

end Sequential

/-- The run of a worker that announces while nobody else is at work. -/
theorem interleaved_serializable_announced : ∃ state : State plainHost Unit,
    state.log.length = 1 ∧ ∃ log torrentList, Sequential plainHost log torrentList ∧
      Etracker.Reachable plainHost torrentList ∧ (rules plainHost).Alike log state.log ∧
      ∀ hash, (∀ worker, ¬(state.working worker).Changes hash) →
        torrentList.value hash = state.table.value hash := by
  obtain ⟨announcing, table, taken⟩ := plainHolding
  obtain ⟨table', torrent, _, changed, _⟩ :=
    updatePeers_spec taken.sound.table announcing.query announcing.request.protocol 0
  have updated : Reachable plainHost Unit _ :=
    .next taken trivial (.updates 0 (State.working_self _ _ _ _) changed)
  have rendered := renderAnnouncePublic_lookup plainHost.inetNtop updated.sound.table
    announcing.query 0 announcing.query.infoHash.list
  have points := updated.sound.points ()
  rw [State.working_self] at points
  rw [← (points : torrent = _)] at rendered
  have told : Reachable plainHost Unit _ :=
    .next updated trivial (.renders 0 (State.working_self _ _ _ _) rendered)
  exact ⟨_, rfl, interleaved_serializable told rfl⟩

end Interleaved

end Etracker
