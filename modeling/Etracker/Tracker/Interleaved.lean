import Etracker.Data.Scrape
import Etracker.Foundation.Sweeps
import Etracker.Tracker.Step

/-! The workers and the collector at work on one torrent table.

A worker that announces or scrapes takes the leaf of the torrent, works on it and posts it. A
pass of the collector goes from leaf to leaf and holds the one that it is busy with. Between
any two of these steps the other threads may do theirs. -/

namespace Etracker.Interleaved

open Foundation.Sweeps

structure Announcing (host : Host) where
  request : Request
  settings : Settings
  query : Query
  announces : request.query host settings = some query

inductive Deed (host : Host)
  | announced (announcing : Announcing host) (now : Int) (interval : UInt32) (reply : List UInt8)
  | scraped (hash : ParamValue) (protocol : Protocol) (entry : List UInt8)

def Deed.infoHash {host : Host} : Deed host → Hash
  | announced announcing _ _ _ => announcing.query.infoHash.list
  | scraped hash _ _ => hash.list

inductive Working (host : Host)
  | idle
  | holds (announcing : Announcing host)
  | updated (announcing : Announcing host) (now : Int) (torrent : Option Address)
  | looks (hash : ParamValue) (protocol : Protocol)
  /-- The reply is rendered and the leaf is not yet posted. -/
  | told (leaf : Path)

/-- Where the collector stands: the clock it has read, the leaves it has still to visit, and
the figures of the pass. -/
inductive Collecting
  | idle
  | between (now : Int) (leaves : List Path) (stats : GarbageStats)
  /-- The leaf had an item when it was looked at, and is not yet taken. -/
  | sees (now : Int) (leaf : Path) (leaves : List Path) (stats : GarbageStats)
  | within (now : Int) (leaf : Path) (item : Option Address) (leaves : List Path)
      (stats : GarbageStats)

structure State (host : Host) (Worker : Type) where
  table : TorrentList
  working : Worker → Working host
  collecting : Collecting
  log : List (Deed host ⊕ Int)

def State.start (host : Host) (Worker : Type) : State host Worker :=
  ⟨emptyTorrentList, fun _ => .idle, .idle, []⟩

inductive Thread (Worker : Type)
  | worker (worker : Worker)
  | collector
  deriving DecidableEq

section Steps

variable {host : Host} {Worker : Type} [DecidableEq Worker]

namespace State

variable (state : State host Worker)

def writes (table : TorrentList) : State host Worker := { state with table := table }

def sets (worker : Worker) (working : Working host) : State host Worker :=
  { state with working := Function.update state.working worker working }

def collects (collecting : Collecting) : State host Worker :=
  { state with collecting := collecting }

def tells (entry : Deed host ⊕ Int) : State host Worker :=
  { state with log := state.log ++ [entry] }

end State

/-- One step of one thread. A semaphore that is taken cannot be waited for. -/
inductive Step : Thread Worker → State host Worker → State host Worker → Prop
  | takes {state : State host Worker} {worker : Worker} {table : TorrentList}
      (announcing : Announcing host) : state.working worker = .idle →
      waitSemaphoreLeaf state.table (state.table.getLeaf announcing.query.infoHash.list) =
        .ok table →
      Step (.worker worker) state ((state.writes table).sets worker (.holds announcing))
  | updates {state : State host Worker} {worker : Worker} {announcing : Announcing host}
      {table : TorrentList} {torrent : Option Address} (now : Int) :
      state.working worker = .holds announcing →
      updatePeers state.table announcing.query announcing.request.protocol now =
        .ok (table, torrent) →
      Step (.worker worker) state
        ((state.writes table).sets worker (.updated announcing now torrent))
  /-- The interval is read while the reply is rendered. -/
  | renders {state : State host Worker} {worker : Worker} {announcing : Announcing host}
      {now : Int} {torrent : Option Address} {reply : List UInt8} (interval : UInt32) :
      state.working worker = .updated announcing now torrent →
      renderAnnouncePublic host.inetNtop state.table torrent announcing.query interval =
        .ok reply →
      Step (.worker worker) state
        ((state.tells (.inl (.announced announcing now interval reply))).sets worker
          (.told (state.table.getLeaf announcing.query.infoHash.list)))
  | asks {state : State host Worker} {worker : Worker} {table : TorrentList} (hash : ParamValue)
      (protocol : Protocol) : state.working worker = .idle →
      waitSemaphoreLeaf state.table (state.table.getLeaf hash.list) = .ok table →
      Step (.worker worker) state
        ((state.writes table).sets worker (.looks hash protocol))
  /-- One round of the loop of a scrape. -/
  | reads {state : State host Worker} {worker : Worker} {hash : ParamValue} {protocol : Protocol}
      {counters : TorrentCounters} : state.working worker = .looks hash protocol →
      (getHash state.table hash.list >>= scrapeCounters state.table) = .ok counters →
      Step (.worker worker) state
        ((state.tells
          (.inl (.scraped hash protocol (renderScrapeTorrentL counters hash protocol)))).sets
          worker (.told (state.table.getLeaf hash.list)))
  | posts {state : State host Worker} {worker : Worker} {leaf : Path} {table : TorrentList} :
      state.working worker = .told leaf → postSemaphoreLeaf state.table leaf = .ok table →
      Step (.worker worker) state ((state.writes table).sets worker .idle)
  | begins {state : State host Worker} (now : Int) : state.collecting = .idle →
      Step .collector state
        (state.collects (.between now (leafPaths state.table.level [])
          (GarbageStats.start (limitTimeOf now))))
  /-- The first item is looked at before the semaphore is waited for. -/
  | skips {state : State host Worker} {now : Int} {leaf : Path} {leaves : List Path}
      {stats : GarbageStats} : state.collecting = .between now (leaf :: leaves) stats →
      state.table.firstItem leaf = none →
      Step .collector state (state.collects (.between now leaves stats))
  | sees {state : State host Worker} {now : Int} {leaf : Path} {leaves : List Path}
      {stats : GarbageStats} : state.collecting = .between now (leaf :: leaves) stats →
      state.table.firstItem leaf ≠ none →
      Step .collector state (state.collects (.sees now leaf leaves stats))
  | enters {state : State host Worker} {now : Int} {leaf : Path} {leaves : List Path}
      {stats : GarbageStats} {table : TorrentList} :
      state.collecting = .sees now leaf leaves stats →
      waitSemaphoreLeaf state.table leaf = .ok table →
      Step .collector state
        ((state.writes table).collects (.within now leaf (table.firstItem leaf) leaves stats))
  /-- One round of the loop over a leaf. -/
  | visits {state : State host Worker} {now : Int} {leaf : Path} {item : Address}
      {leaves : List Path} {stats stats' : GarbageStats} {current : Item TorrentData}
      {table : TorrentList} : state.collecting = .within now leaf (some item) leaves stats →
      state.table.deref item = .ok current →
      runGarbageCollectorCallback leaf item (state.table, stats) =
        .ok (.listContinue, table, stats') →
      Step .collector state
        ((state.writes table).collects (.within now leaf current.nextInLeaf leaves stats'))
  | exits {state : State host Worker} {now : Int} {leaf : Path} {leaves : List Path}
      {stats : GarbageStats} {table : TorrentList} :
      state.collecting = .within now leaf none leaves stats →
      postSemaphoreLeaf state.table leaf = .ok table →
      Step .collector state ((state.writes table).collects (.between now leaves stats))
  | ends {state : State host Worker} {now : Int} {stats : GarbageStats} :
      state.collecting = .between now [] stats →
      Step .collector state ((state.tells (.inr now)).collects .idle)

def Working.leaf (list : TorrentList) : Working host → Option Path
  | idle => none
  | holds announcing => some (list.getLeaf announcing.query.infoHash.list)
  | updated announcing _ _ => some (list.getLeaf announcing.query.infoHash.list)
  | looks hash _ => some (list.getLeaf hash.list)
  | told leaf => some leaf

def Collecting.leaf : Collecting → Option Path
  | within _ leaf _ _ _ => some leaf
  | _ => none

def State.holding (state : State host Worker) : Thread Worker → Option Path
  | .worker worker => (state.working worker).leaf state.table
  | .collector => state.collecting.leaf

end Steps

/-- The states of all interleavings. -/
def Reachable (host : Host) (Worker : Type) [DecidableEq Worker] : State host Worker → Prop :=
  Foundation.Runs.Reached Step (fun _ _ => True) (State.start host Worker)

end Etracker.Interleaved
