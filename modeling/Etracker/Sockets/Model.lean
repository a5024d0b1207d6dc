import Etracker.Foundation.Runs
import Mathlib.Algebra.Group.Nat.Defs
import Mathlib.Algebra.GroupWithZero.Nat
import Mathlib.Data.List.Basic
import Mathlib.Logic.Function.Basic
import Mathlib.Order.Fin.Basic

/-! The connections and the threads that share them: `serverTcpHandler` accepts them,
the workers of `clientTcpHandler` serve and delete them, `garbageSocketTimeoutHandler`
deletes those that have been silent for too long, and `broadcast` writes to the
websockets among them. -/

namespace Etracker

open Foundation.Runs

/-- A descriptor: an `int` that is not negative. -/
abbrev Socket := Fin (2 ^ 31)

instance socketNeZero : NeZero (2 ^ 31) := ⟨by decide⟩

/-- Connections are numbered in the order in which they are accepted. -/
abbrev Connection := Nat

/-- An item of a `socketList` with its `struct socketData`; the equeue is the one of the
list. The source does not store the connection that the item was made for. -/
structure SocketItem where
  socket : Socket
  time : Int
  connection : Connection

structure SocketStats where
  acceptPass : UInt64
  acceptFailed : UInt64
  closePass : UInt64
  closeFailed : UInt64

def updateSocketL (socketList : List SocketItem) (socket : Socket) (connection : Connection)
    (now : Int) : List SocketItem :=
  if socket ∈ socketList.map SocketItem.socket then
    socketList.map fun item => if item.socket = socket then { item with time := now } else item
  else socketList ++ [⟨socket, now, connection⟩]

def deleteSocketItem (socketList : List SocketItem) (socket : Socket) : List SocketItem :=
  socketList.filter fun item => item.socket ≠ socket

def setSocket (sockets : List Socket) (socket : Socket) : List Socket :=
  if socket ∈ sockets then sockets else sockets ++ [socket]

def deleteSocket (sockets : List Socket) (socket : Socket) : List Socket :=
  sockets.filter (· ≠ socket)

inductive WorkerAt
  /-- In the loop over the events. -/
  | looks
  /-- In `processRead`, with the leaf of the socket taken; whether the socket was found
  on `websockets`. -/
  | handles (socket : Socket) (websocket : Bool)
  /-- The same, with the socket put on `websockets` and the 101 response still to be sent. -/
  | upgrades (socket : Socket)
  /-- In `mapList` over `deleteSocketList`. -/
  | deletes
  /-- In `deleteSocketL`, with the leaf of the socket taken. -/
  | closes (socket : Socket)
  /-- The same after `close`, with `deleteItem` still to come. -/
  | closed (socket : Socket)
  /-- Between `deleteSocketL` and `deleteWebsocket`. -/
  | unlists (socket : Socket)

inductive CollectorAt (Leaf : Type)
  /-- In `mapList`, between two leaves. -/
  | sweeps
  | visits (leaf : Leaf)
  /-- In `garbageSocketTimeoutCallback`, with the timeout sent and `deleteWebsocket` to come. -/
  | expires (socket : Socket)
  /-- The same after `deleteWebsocket`. -/
  | unlisted (socket : Socket)
  /-- The same after `close`, with `deleteItem` still to come. -/
  | closed (socket : Socket)

inductive Holder (Leaf : Type)
  | nobody
  | worker (deleteSocketList : List Socket) (place : WorkerAt)
  | collector (maxTimeAllow : Int) (place : CollectorAt Leaf)

/-- `close` was called for the descriptor of an item, and the descriptor belonged to a
connection. -/
structure Close where
  connection : Connection
  belongs : Option Connection

inductive Sent
  | handshake
  | frame

structure Sockets (workers : Nat) (Leaf : Type) where
  descriptors : Socket → Option Connection
  connections : Connection
  socketLists : Fin workers → List SocketItem
  websockets : List Socket
  stats : SocketStats
  currentThread : Nat
  clientSocket : Option (Socket × Connection × Fin workers)
  holder : Fin workers → Holder Leaf
  /-- What has happened so far, the latest first. -/
  inserted : List Connection
  closes : List Close
  upgraded : List Connection
  sent : List (Connection × Sent)

def Sockets.start (workers : Nat) (Leaf : Type) : Sockets workers Leaf where
  descriptors := fun _ => none
  connections := 0
  socketLists := fun _ => []
  websockets := []
  stats := ⟨0, 0, 0, 0⟩
  currentThread := 0
  clientSocket := none
  holder := fun _ => .nobody
  inserted := []
  closes := []
  upgraded := []
  sent := []

def Holder.leaf {Leaf : Type} (leafOf : Socket → Leaf) : Holder Leaf → Option Leaf
  | .nobody => none
  | .worker _ place =>
      match place with
      | .looks | .deletes | .unlists _ => none
      | .handles socket _ | .upgrades socket | .closes socket | .closed socket =>
          some (leafOf socket)
  | .collector _ place =>
      match place with
      | .sweeps => none
      | .visits leaf => some leaf
      | .expires socket | .unlisted socket | .closed socket => some (leafOf socket)

def nextThread (workers currentThread : Nat) : Nat :=
  if currentThread + 1 = workers then 0 else currentThread + 1

namespace Sockets

variable {workers : Nat} {Leaf : Type} (sockets : Sockets workers Leaf)

def hold (number : Fin workers) (holder : Holder Leaf) : Sockets workers Leaf :=
  { sockets with holder := Function.update sockets.holder number holder }

def setList (number : Fin workers) (socketList : List SocketItem) : Sockets workers Leaf :=
  { sockets with socketLists := Function.update sockets.socketLists number socketList }

def allocate (socket : Socket) : Sockets workers Leaf :=
  { sockets with
    descriptors := Function.update sockets.descriptors socket (some sockets.connections)
    connections := sockets.connections + 1 }

def accept (socket : Socket) (number : Fin workers) : Sockets workers Leaf :=
  { sockets.allocate socket with
    stats := { sockets.stats with acceptPass := sockets.stats.acceptPass + 1 }
    currentThread := number
    clientSocket := some (socket, sockets.connections, number) }

/-- `accept` has returned 0: the connection is forgotten. -/
def acceptZero : Sockets workers Leaf :=
  { sockets.allocate 0 with
    stats := { sockets.stats with acceptFailed := sockets.stats.acceptFailed + 1 } }

def insert (socket : Socket) (connection : Connection) (number : Fin workers) (now : Int) :
    Sockets workers Leaf :=
  { sockets.setList number
      (updateSocketL (sockets.socketLists number) socket connection now) with
    clientSocket := none
    inserted := connection :: sockets.inserted }

/-- `close` and its counters. The descriptor is free whatever `close` returns. -/
def close (item : SocketItem) (status : Bool) : Sockets workers Leaf :=
  { sockets with
    descriptors := Function.update sockets.descriptors item.socket none
    stats := if status = true then
        { sockets.stats with closeFailed := sockets.stats.closeFailed + 1 }
      else { sockets.stats with closePass := sockets.stats.closePass + 1 }
    closes := ⟨item.connection, sockets.descriptors item.socket⟩ :: sockets.closes }

def deleteItem (number : Fin workers) (socket : Socket) : Sockets workers Leaf :=
  sockets.setList number (deleteSocketItem (sockets.socketLists number) socket)

def deleteWebsocket (socket : Socket) : Sockets workers Leaf :=
  { sockets with websockets := deleteSocket sockets.websockets socket }

def upgrade (socket : Socket) : Sockets workers Leaf :=
  { sockets with
    websockets := setSocket sockets.websockets socket
    upgraded := (sockets.descriptors socket).toList ++ sockets.upgraded }

def send (receivers : List Socket) (sent : Sent) : Sockets workers Leaf :=
  { sockets with
    sent := (receivers.filterMap sockets.descriptors).map (fun connection => (connection, sent)) ++
      sockets.sent }

def broadcast : Sockets workers Leaf := sockets.send sockets.websockets .frame

def Finds (number : Fin workers) (socket : Socket) (item : SocketItem) : Prop :=
  item ∈ sockets.socketLists number ∧ item.socket = socket

def Misses (number : Fin workers) (socket : Socket) : Prop :=
  ∀ item ∈ sockets.socketLists number, item.socket ≠ socket

end Sockets

inductive SocketTurn (workers : Nat) (Leaf : Type)
  | accept (socket : Socket)
  | insert (now : Int)
  | enter (number : Fin workers)
  | event (number : Fin workers) (socket : Socket)
  | refresh (number : Fin workers) (now : Int)
  | discard (number : Fin workers)
  | upgrade (number : Fin workers)
  | handshake (number : Fin workers)
  | handled (number : Fin workers)
  | mapDeleteSocketList (number : Fin workers)
  | deleteSocketL (number : Fin workers) (socket : Socket)
  | notFound (number : Fin workers)
  | close (number : Fin workers) (status : Bool)
  | deleteItem (number : Fin workers)
  | deleteWebsocket (number : Fin workers)
  | leave (number : Fin workers)
  | sweep (number : Fin workers) (maxTimeAllow : Int)
  | visit (number : Fin workers) (leaf : Leaf)
  | expire (number : Fin workers) (socket : Socket)
  | visited (number : Fin workers)
  | swept (number : Fin workers)
  | broadcast

variable {workers : Nat} {Leaf : Type} (leafOf : Socket → Leaf)

/-- Every thread waits for the semaphores it needs; the collector holds one list at a
time. -/
inductive SocketStep : SocketTurn workers Leaf → Sockets workers Leaf → Sockets workers Leaf → Prop
  | accept {sockets : Sockets workers Leaf} {socket : Socket} {number : Fin workers} :
      sockets.clientSocket = none → sockets.descriptors socket = none → socket ≠ 0 →
      number.val = nextThread workers sockets.currentThread →
      SocketStep (.accept socket) sockets (sockets.accept socket number)
  | acceptZero {sockets : Sockets workers Leaf} :
      sockets.clientSocket = none → sockets.descriptors 0 = none →
      SocketStep (.accept 0) sockets sockets.acceptZero
  | insert {sockets : Sockets workers Leaf} {socket : Socket} {connection : Connection}
      {number : Fin workers} {now : Int} :
      sockets.clientSocket = some (socket, connection, number) →
      (sockets.holder number).leaf leafOf ≠ some (leafOf socket) →
      SocketStep (.insert now) sockets (sockets.insert socket connection number now)
  | enter {sockets : Sockets workers Leaf} {number : Fin workers} :
      sockets.holder number = .nobody →
      SocketStep (.enter number) sockets (sockets.hold number (.worker [] .looks))
  | event {sockets : Sockets workers Leaf} {number : Fin workers} {socket : Socket}
      {item : SocketItem} {deleteSocketList : List Socket} :
      sockets.holder number = .worker deleteSocketList .looks → sockets.Finds number socket item →
      SocketStep (.event number socket) sockets (sockets.hold number
        (.worker deleteSocketList (.handles socket (decide (socket ∈ sockets.websockets)))))
  | refresh {sockets : Sockets workers Leaf} {number : Fin workers} {socket : Socket}
      {websocket : Bool} {item : SocketItem} {deleteSocketList : List Socket} {now : Int} :
      sockets.holder number = .worker deleteSocketList (.handles socket websocket) →
      sockets.Finds number socket item →
      SocketStep (.refresh number now) sockets (sockets.setList number
        (updateSocketL (sockets.socketLists number) socket item.connection now))
  | discard {sockets : Sockets workers Leaf} {number : Fin workers} {socket : Socket}
      {websocket : Bool} {deleteSocketList : List Socket} :
      sockets.holder number = .worker deleteSocketList (.handles socket websocket) →
      SocketStep (.discard number) sockets (sockets.hold number
        (.worker (setSocket deleteSocketList socket) (.handles socket websocket)))
  | upgrade {sockets : Sockets workers Leaf} {number : Fin workers} {socket : Socket}
      {deleteSocketList : List Socket} :
      sockets.holder number = .worker deleteSocketList (.handles socket false) →
      SocketStep (.upgrade number) sockets
        ((sockets.upgrade socket).hold number (.worker deleteSocketList (.upgrades socket)))
  | handshake {sockets : Sockets workers Leaf} {number : Fin workers} {socket : Socket}
      {deleteSocketList : List Socket} :
      sockets.holder number = .worker deleteSocketList (.upgrades socket) →
      SocketStep (.handshake number) sockets
        ((sockets.send [socket] .handshake).hold number (.worker deleteSocketList .looks))
  | handled {sockets : Sockets workers Leaf} {number : Fin workers} {socket : Socket}
      {websocket : Bool} {deleteSocketList : List Socket} :
      sockets.holder number = .worker deleteSocketList (.handles socket websocket) →
      SocketStep (.handled number) sockets
        (sockets.hold number (.worker deleteSocketList .looks))
  | mapDeleteSocketList {sockets : Sockets workers Leaf} {number : Fin workers}
      {deleteSocketList : List Socket} :
      sockets.holder number = .worker deleteSocketList .looks →
      SocketStep (.mapDeleteSocketList number) sockets
        (sockets.hold number (.worker deleteSocketList .deletes))
  | deleteSocketL {sockets : Sockets workers Leaf} {number : Fin workers} {socket : Socket}
      {deleteSocketList : List Socket} :
      sockets.holder number = .worker deleteSocketList .deletes → socket ∈ deleteSocketList →
      SocketStep (.deleteSocketL number socket) sockets (sockets.hold number
        (.worker (deleteSocket deleteSocketList socket) (.closes socket)))
  | notFound {sockets : Sockets workers Leaf} {number : Fin workers} {socket : Socket}
      {deleteSocketList : List Socket} :
      sockets.holder number = .worker deleteSocketList (.closes socket) →
      sockets.Misses number socket →
      SocketStep (.notFound number) sockets
        (sockets.hold number (.worker deleteSocketList (.unlists socket)))
  | close {sockets : Sockets workers Leaf} {number : Fin workers} {socket : Socket}
      {item : SocketItem} {deleteSocketList : List Socket} {status : Bool} :
      sockets.holder number = .worker deleteSocketList (.closes socket) →
      sockets.Finds number socket item →
      SocketStep (.close number status) sockets
        ((sockets.close item status).hold number (.worker deleteSocketList (.closed socket)))
  | deleteItem {sockets : Sockets workers Leaf} {number : Fin workers} {socket : Socket}
      {deleteSocketList : List Socket} :
      sockets.holder number = .worker deleteSocketList (.closed socket) →
      SocketStep (.deleteItem number) sockets ((sockets.deleteItem number socket).hold number
        (.worker deleteSocketList (.unlists socket)))
  | deleteWebsocket {sockets : Sockets workers Leaf} {number : Fin workers} {socket : Socket}
      {deleteSocketList : List Socket} :
      sockets.holder number = .worker deleteSocketList (.unlists socket) →
      SocketStep (.deleteWebsocket number) sockets ((sockets.deleteWebsocket socket).hold number
        (.worker deleteSocketList .deletes))
  | leave {sockets : Sockets workers Leaf} {number : Fin workers} :
      sockets.holder number = .worker [] .deletes →
      SocketStep (.leave number) sockets (sockets.hold number .nobody)
  | sweep {sockets : Sockets workers Leaf} {number : Fin workers} {maxTimeAllow : Int} :
      sockets.holder number = .nobody →
      (∀ other time place, sockets.holder other ≠ .collector time place) →
      SocketStep (.sweep number maxTimeAllow) sockets
        (sockets.hold number (.collector maxTimeAllow .sweeps))
  | visit {sockets : Sockets workers Leaf} {number : Fin workers} {maxTimeAllow : Int}
      {leaf : Leaf} :
      sockets.holder number = .collector maxTimeAllow .sweeps →
      SocketStep (.visit number leaf) sockets
        (sockets.hold number (.collector maxTimeAllow (.visits leaf)))
  | expire {sockets : Sockets workers Leaf} {number : Fin workers} {maxTimeAllow : Int}
      {socket : Socket} {item : SocketItem} :
      sockets.holder number = .collector maxTimeAllow (.visits (leafOf socket)) →
      sockets.Finds number socket item → item.time < maxTimeAllow →
      SocketStep (.expire number socket) sockets
        (sockets.hold number (.collector maxTimeAllow (.expires socket)))
  | unlistExpired {sockets : Sockets workers Leaf} {number : Fin workers} {maxTimeAllow : Int}
      {socket : Socket} :
      sockets.holder number = .collector maxTimeAllow (.expires socket) →
      SocketStep (.deleteWebsocket number) sockets ((sockets.deleteWebsocket socket).hold number
        (.collector maxTimeAllow (.unlisted socket)))
  | closeExpired {sockets : Sockets workers Leaf} {number : Fin workers} {maxTimeAllow : Int}
      {socket : Socket} {item : SocketItem} {status : Bool} :
      sockets.holder number = .collector maxTimeAllow (.unlisted socket) →
      sockets.Finds number socket item →
      SocketStep (.close number status) sockets
        ((sockets.close item status).hold number (.collector maxTimeAllow (.closed socket)))
  | deleteExpired {sockets : Sockets workers Leaf} {number : Fin workers} {maxTimeAllow : Int}
      {socket : Socket} :
      sockets.holder number = .collector maxTimeAllow (.closed socket) →
      SocketStep (.deleteItem number) sockets ((sockets.deleteItem number socket).hold number
        (.collector maxTimeAllow (.visits (leafOf socket))))
  | visited {sockets : Sockets workers Leaf} {number : Fin workers} {maxTimeAllow : Int}
      {leaf : Leaf} :
      sockets.holder number = .collector maxTimeAllow (.visits leaf) →
      SocketStep (.visited number) sockets
        (sockets.hold number (.collector maxTimeAllow .sweeps))
  | swept {sockets : Sockets workers Leaf} {number : Fin workers} {maxTimeAllow : Int} :
      sockets.holder number = .collector maxTimeAllow .sweeps →
      SocketStep (.swept number) sockets (sockets.hold number .nobody)
  | broadcast {sockets : Sockets workers Leaf} : SocketStep .broadcast sockets sockets.broadcast

end Etracker
