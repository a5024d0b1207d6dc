import Etracker.Interval.Bounds
import Etracker.Tracker.Step

/-! The tracker with its threads: workers, the thread that moves the interval, the
collector, and the clock they share. -/

namespace Etracker

open Foundation Foundation.Outcome Foundation.Runs

def threadGarbageLittleSleep : Nat := 10

structure Tracker where
  torrentList : TorrentList
  interval : Interval
  clock : Int
  changerWakes : Int
  collectorWakes : Int

def Tracker.start {Load : Type} (arguments : Arguments Load) : Tracker where
  torrentList := emptyTorrentList
  interval := Interval.start arguments
  clock := 0
  changerWakes := 0
  collectorWakes := 0

/-- What a thread does next. The limits of the settings may have been changed by
requests in between; the interval of the settings is the one of the tracker. -/
inductive Turn (Load : Type)
  | serve (maxPeersPerResponse : UInt32) (xForwardedFor : Option (List UInt8)) (request : Request)
  | force (value : UInt32)
  | change
  | collect (load : Option (Load × Load × Load))

structure Moment (Load : Type) where
  now : Int
  turn : Turn Load

namespace Tracker

variable {Load : Type} [LT Load] [DecidableLT Load]

def settings (tracker : Tracker) (maxPeersPerResponse : UInt32)
    (xForwardedFor : Option (List UInt8)) : Settings :=
  ⟨maxPeersPerResponse, tracker.interval.interval, xForwardedFor⟩

def change (tracker : Tracker) (now : Int) : Tracker :=
  let (interval, seconds) := stepInterval tracker.interval
  { tracker with interval := interval, changerWakes := now + seconds }

def collect (tracker : Tracker) (now : Int) (load : Option (Load × Load × Load))
    (maxAllow : Load) : Except Fault Tracker :=
  if tracker.interval.interval ≠ tracker.interval.requireInterval then
    pure { tracker with collectorWakes := now + threadGarbageLittleSleep }
  else do
    let (torrentList, _) ← runGarbageCollectorL tracker.torrentList now
    let interval := updateInterval tracker.interval load maxAllow
    let seconds := max interval.previousInterval.toNat interval.requireInterval.toNat
    pure { tracker with
      torrentList := torrentList
      interval := interval
      collectorWakes := now + seconds }

def perform (host : Host) (maxAllow : Load) (moment : Moment Load) (tracker : Tracker) :
    Except Fault Tracker := do
  let tracker := { tracker with clock := moment.now }
  match moment.turn with
  | .serve maxPeersPerResponse xForwardedFor request =>
      let torrentList ← request.serve host (tracker.settings maxPeersPerResponse xForwardedFor)
        tracker.torrentList moment.now
      pure { tracker with torrentList := torrentList }
  | .force value => pure { tracker with interval := forceUpdateInterval tracker.interval value }
  | .change => pure (tracker.change moment.now)
  | .collect load => tracker.collect moment.now load maxAllow

inductive Performed (host : Host) (maxAllow : Load) (moment : Moment Load) (tracker : Tracker) :
    Tracker → Prop
  | served {maxPeersPerResponse : UInt32} {xForwardedFor : Option (List UInt8)} {request : Request}
      {torrentList : TorrentList} :
      moment.turn = .serve maxPeersPerResponse xForwardedFor request →
      Step.run host ⟨moment.now, tracker.settings maxPeersPerResponse xForwardedFor,
        .serve request⟩ tracker.torrentList = .ok torrentList →
      Performed host maxAllow moment tracker
        { tracker with clock := moment.now, torrentList := torrentList }
  | forced {value : UInt32} : moment.turn = .force value →
      Performed host maxAllow moment tracker { tracker with
        clock := moment.now, interval := forceUpdateInterval tracker.interval value }
  | changed : moment.turn = .change →
      Performed host maxAllow moment tracker ({ tracker with clock := moment.now }.change moment.now)
  | waited {load : Option (Load × Load × Load)} : moment.turn = .collect load →
      tracker.interval.interval ≠ tracker.interval.requireInterval →
      Performed host maxAllow moment tracker { tracker with
        clock := moment.now, collectorWakes := moment.now + threadGarbageLittleSleep }
  | collected {load : Option (Load × Load × Load)} {torrentList : TorrentList}
      {collectorWakes : Int} : moment.turn = .collect load →
      Step.run host ⟨moment.now, tracker.settings 0 none, .collect⟩ tracker.torrentList =
        .ok torrentList →
      Performed host maxAllow moment tracker
        { tracker with
          clock := moment.now
          torrentList := torrentList
          interval := updateInterval tracker.interval load maxAllow
          collectorWakes := collectorWakes }

theorem perform_performed {host : Host} {maxAllow : Load} {moment : Moment Load}
    {tracker tracker' : Tracker} (performs : perform host maxAllow moment tracker = .ok tracker') :
    Performed host maxAllow moment tracker tracker' := by
  obtain ⟨now, turn⟩ := moment
  cases turn with
  | serve maxPeersPerResponse xForwardedFor request =>
      obtain ⟨torrentList, served, same⟩ := bind_eq_ok performs
      cases same
      exact .served rfl served
  | force value =>
      cases performs
      exact .forced rfl
  | change =>
      cases performs
      exact .changed rfl
  | collect load =>
      simp only [perform, collect] at performs
      split_ifs at performs with moves
      · cases performs
        exact .waited rfl moves
      · obtain ⟨⟨torrentList, stats⟩, pass, same⟩ := bind_eq_ok performs
        cases same
        refine .collected rfl ?_
        simp only [Step.run, pass, ok_bind, pure_eq_ok]

def Enabled (moment : Moment Load) (tracker : Tracker) : Prop :=
  tracker.clock ≤ moment.now ∧
    match moment.turn with
    | .change => tracker.changerWakes ≤ moment.now
    | .collect _ => tracker.collectorWakes ≤ moment.now
    | _ => True

/-- A pass of the collector takes place. -/
def Collects (moment : Moment Load) (tracker : Tracker) : Prop :=
  (∃ load, moment.turn = .collect load) ∧
    tracker.interval.interval = tracker.interval.requireInterval

end Tracker

/-- The interval as the client reads it: `%d` in a text, an unsigned number in a packet. -/
def Request.promise (interval : UInt32) : Request → Int
  | .http _ _ => (interval.toNat : Int).bmod (2 ^ 32)
  | .udp _ _ => interval.toNat

structure Client where
  infoHash : ParamValue
  peerId : ParamValue

namespace Client

variable {Load : Type} [LT Load] [DecidableLT Load]

def due (client : Client) (host : Host) (moment : Moment Load) (tracker : Tracker)
    (before : Option Int) : Option Int :=
  match moment.turn with
  | .serve maxPeersPerResponse xForwardedFor request =>
      match request.query host (tracker.settings maxPeersPerResponse xForwardedFor) with
      | none => before
      | some query =>
          if query.infoHash = client.infoHash ∧ query.peerId = client.peerId then
            some (moment.now + request.promise tracker.interval.interval)
          else before
  | _ => before

def stored (client : Client) (torrentList : TorrentList) : Option PeerData :=
  Step.peerAt torrentList client.infoHash.list client.peerId.list

/-- The tracker moves on, and the client remembers when it is due. -/
structure Takes (client : Client) (host : Host) (maxAllow : Load) (moment : Moment Load)
    (before after : Tracker × Option Int) : Prop where
  enabled : Tracker.Enabled moment before.1
  performs : Tracker.perform host maxAllow moment before.1 = .ok after.1
  remembers : after.2 = client.due host moment before.1 before.2

/-- The runs of a tracker with some command line, as one client sees them. -/
def Sees (client : Client) (host : Host) (maxAllow : Load) (arguments : Arguments Load) :
    Tracker × Option Int → Prop :=
  Reached (client.Takes host maxAllow) (fun _ _ => True) (Tracker.start arguments, none)

end Client

/-- No pass removes the peer of a client that need not have announced itself again. -/
def NoPrematureExpiry {Load : Type} [Zero Load] [DecidableEq Load] [LT Load] [DecidableLT Load]
    (arguments : Arguments Load) : Prop :=
  ∀ (host : Host) (client : Client) (processors : Load) (before after : Tracker × Option Int)
    (moment : Moment Load) (peer : PeerData) (due : Int),
    client.Sees host (maxAllowLoadAverage arguments.maxLoadAvg processors) arguments before →
    client.Takes host (maxAllowLoadAverage arguments.maxLoadAvg processors) moment before after →
    Tracker.Collects moment before.1 → client.stored before.1.torrentList = some peer →
    before.2 = some due → moment.now ≤ due →
      client.stored after.1.torrentList = some peer

end Etracker
