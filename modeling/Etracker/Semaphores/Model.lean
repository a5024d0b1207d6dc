import Etracker.Data.Model
import Etracker.Foundation.Locks
import Etracker.Sockets.Model
import Mathlib.Data.Fintype.Sum
import Mathlib.Tactic.DeriveFintype

/-! The semaphores of the threads that `main` starts. Each function is given by what it
waits for and posts, one after the other; what it finds in its data and decides by is
an argument. A thread runs the body of its loop again and again.

The lists made with `LIST_SEMAPHORE_DISABLE` (`deleteSocketList` and every `peerList`) and
the semaphore of `alloc.c`, which is switched off, do not occur. -/

namespace Etracker

open Foundation.Locks

variable {workers udpWorkers : Nat}

inductive SharedList (workers : Nat)
  | socketList (number : Fin workers)
  | torrentList
  | websockets
  deriving DecidableEq

namespace SharedList

def header : SharedList workers → ListHeader
  | .socketList _ => ⟨.littleEndian, 4, 1, ⟨true, true⟩⟩
  | .torrentList => emptyTorrentList.toListHeader
  | .websockets => ⟨.littleEndian, 4, 0, ⟨true, true⟩⟩

theorem initialSemaphore_leaf (list : SharedList workers) {path : Path}
    (whole : path.length = list.header.level) : list.header.initialSemaphore path = some 1 := by
  have enabled : list.header.semaphoreEnabled.leaf = true := by
    cases list <;> rfl
  exact if_pos (.inl ⟨whole, enabled⟩)

end SharedList

/-- The semaphores that `initList` makes for the shared lists, and `semaphoreRequest`. -/
inductive Semaphore (workers : Nat)
  | made (list : SharedList workers) (path : Path)
      (semaphore : list.header.initialSemaphore path = some 1)
  | request
  deriving DecidableEq

namespace SharedList

def leaf (list : SharedList workers) (path : Path) (whole : path.length = list.header.level) :
    Semaphore workers :=
  .made list path (list.initialSemaphore_leaf whole)

theorem length_getLeaf (list : SharedList workers) (hash : Hash) :
    (list.header.getLeaf hash).length = list.header.level := by
  cases list <;> rfl

def getLeaf (list : SharedList workers) (hash : Hash) : Semaphore workers :=
  list.leaf (list.header.getLeaf hash) (list.length_getLeaf hash)

/-- The global semaphore of a `socketList`. -/
def root (number : Fin workers) : Semaphore workers := .made (.socketList number) [] rfl

/-- The semaphore of `websockets`, whose only leaf is the list itself. -/
def only : Semaphore workers := websockets.leaf [] rfl

/-- For every leaf, whether `firstItem` is set and what the callbacks do for its items. -/
abbrev Visits (workers : Nat) := Path → Option (List (Script (Semaphore workers)))

def mapListFrom (list : SharedList workers) (visits : Visits workers) :
    (level : Nat) → (path : Path) → path.length + level = list.header.level →
    Script (Semaphore workers)
  | 0, path, whole =>
      match visits path with
      | none => []
      | some callbacks => locked (list.leaf path whole) callbacks.flatten
  | level + 1, path, whole =>
      branches.flatMap fun index =>
        list.mapListFrom visits level (path ++ [index]) (by simp; omega)

def mapList (list : SharedList workers) (visits : Visits workers) : Script (Semaphore workers) :=
  list.mapListFrom visits list.header.level [] (Nat.zero_add _)

end SharedList

def Socket.hash (socket : Socket) : Hash :=
  (List.range 4).map fun index => UInt8.ofNat (socket.val / 256 ^ index)

namespace Semaphores

def deleteWebsocket : Script (Semaphore workers) := locked SharedList.only []

def broadcastCallback (_ : Socket) : Script (Semaphore workers) := []

def broadcast (listed : Option (List Socket)) : Script (Semaphore workers) :=
  SharedList.websockets.mapList fun _ => listed.map (List.map broadcastCallback)

def announce (infoHash : ParamValue) : Script (Semaphore workers) :=
  locked (SharedList.torrentList.getLeaf infoHash.list) []

def renderScrapeTorrentsPublic (hashes : List ParamValue) : Script (Semaphore workers) :=
  hashes.flatMap fun hash => locked (SharedList.torrentList.getLeaf hash.list) []

def updateSocketL (number : Fin workers) (socket : Socket) (useSemaphore : Bool) :
    Script (Semaphore workers) :=
  if useSemaphore then locked ((SharedList.socketList number).getLeaf socket.hash) [] else []

inductive Request
  /-- The `info_hash` if it and the port are filled, whether the client has an IPv4 address,
  and the websockets that `broadcast` comes upon. -/
  | announce (infoHash : Option ParamValue) (ipv4 : Bool) (listed : Option (List Socket))
  /-- Whether `websocketKey2Accept` finds a key. -/
  | websocket (accepted : Bool)
  | scrape (hashes : List ParamValue)
  | other

def Request.script : Request → Script (Semaphore workers)
  | .announce infoHash ipv4 listed =>
      infoHash.elim [] Semaphores.announce ++ if ipv4 then broadcast listed else []
  | .websocket accepted => if accepted then locked SharedList.only [] else []
  | .scrape hashes => renderScrapeTorrentsPublic hashes
  | .other => []

inductive Received
  /-- Too much, nothing, or an error. -/
  | refused
  /-- The end of the request is missing, and the socket is not on `websockets`. -/
  | incomplete
  /-- Read for good; no request if the socket is on `websockets` or the second `recv` fails. -/
  | complete (request : Option Request)

def processRead (number : Fin workers) (currentSocket : Socket) (received : Received) :
    Script (Semaphore workers) :=
  match received with
  | .refused => []
  | .incomplete => locked SharedList.only []
  | .complete request =>
      locked SharedList.only [] ++
        (updateSocketL number currentSocket false ++ request.elim [] Request.script)

def deleteSocketItemL : Script (Semaphore workers) := []

def deleteSocketL (number : Fin workers) (socket : Socket) : Script (Semaphore workers) :=
  locked ((SharedList.socketList number).getLeaf socket.hash) deleteSocketItemL

def deleteSocketListCallback (number : Fin workers) (socket : Socket) :
    Script (Semaphore workers) :=
  deleteSocketL number socket ++ deleteWebsocket

/-- One event of `checkEqueue`; nothing is received if the item is not found, the
connection is at its end or there is nothing to read. -/
structure Event where
  currentSocket : Socket
  received : Option Received

def Event.script (number : Fin workers) (event : Event) : Script (Semaphore workers) :=
  locked ((SharedList.socketList number).getLeaf event.currentSocket.hash)
    (event.received.elim [] (processRead number event.currentSocket))

def clientTcpHandler (number : Fin workers) (events : List Event)
    (deleteSocketList : List Socket) : Script (Semaphore workers) :=
  locked (SharedList.root number) (events.flatMap (Event.script number) ++
    if events = [] then [] else deleteSocketList.flatMap (deleteSocketListCallback number))

def serverTcpHandler (accepted : Option (Fin workers × Socket)) : Script (Semaphore workers) :=
  match accepted with
  | none => []
  | some (number, clientSocket) => updateSocketL number clientSocket true

def garbageSocketTimeoutCallback (expired : Bool) : Script (Semaphore workers) :=
  if expired then deleteWebsocket ++ deleteSocketItemL else []

abbrev Timeouts (workers : Nat) := Fin workers → Path → Option (List Bool)

def garbageSocketTimeoutHandler (timeouts : Timeouts workers) : Script (Semaphore workers) :=
  (List.finRange workers).flatMap fun workerNumber =>
    locked (SharedList.root workerNumber) ((SharedList.socketList workerNumber).mapList fun leaf =>
      (timeouts workerNumber leaf).map (List.map garbageSocketTimeoutCallback))

def runGarbageCollectorCallback : Script (Semaphore workers) := []

def runGarbageCollectorL (torrents : Path → Option Nat) : Script (Semaphore workers) :=
  SharedList.torrentList.mapList fun leaf =>
    (torrents leaf).map fun count => List.replicate count runGarbageCollectorCallback

def serverUdpHandler (received : Bool) : Script (Semaphore workers) :=
  if received then locked .request [] else []

inductive Datagram
  | announce (infoHash : ParamValue) (ipv4 : Bool) (listed : Option (List Socket))
  | scrape (hashes : List ParamValue)
  /-- Answered or not, without a look at the table. -/
  | other

def clientUdpHandler (pulled : Option Datagram) : Script (Semaphore workers) :=
  locked .request [] ++
    match pulled with
    | none => []
    | some (.announce infoHash ipv4 listed) =>
        announce infoHash ++ if ipv4 then broadcast listed else []
    | some (.scrape hashes) => renderScrapeTorrentsPublic hashes
    | some .other => []

inductive Thread (workers udpWorkers : Nat)
  | serverTcp
  | clientTcp (number : Fin workers)
  | serverUdp
  | clientUdp (number : Fin udpWorkers)
  | garbageSocketTimeout
  | garbageCollector
  deriving DecidableEq, Fintype

inductive Round : Thread workers udpWorkers → Script (Semaphore workers) → Prop
  | serverTcp (accepted : Option (Fin workers × Socket)) :
      Round .serverTcp (serverTcpHandler accepted)
  | clientTcp (number : Fin workers) (events : List Event) (deleteSocketList : List Socket) :
      Round (.clientTcp number) (clientTcpHandler number events deleteSocketList)
  | serverUdp (received : Bool) : Round .serverUdp (serverUdpHandler received)
  | clientUdp (number : Fin udpWorkers) (pulled : Option Datagram) :
      Round (.clientUdp number) (clientUdpHandler pulled)
  | garbageSocketTimeout (timeouts : Timeouts workers) :
      Round .garbageSocketTimeout (garbageSocketTimeoutHandler timeouts)
  | garbageCollector (torrents : Path → Option Nat) :
      Round .garbageCollector (runGarbageCollectorL torrents)

/-- The threads of `main` under every interleaving. -/
abbrev ThreadStep (workers udpWorkers : Nat) :
    Thread workers udpWorkers → State (Semaphore workers) (Thread workers udpWorkers) →
    State (Semaphore workers) (Thread workers udpWorkers) → Prop :=
  Step Round

end Semaphores

end Etracker
