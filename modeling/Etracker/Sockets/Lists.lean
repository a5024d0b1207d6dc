import Etracker.Garbage.Pass
import Etracker.HashList.FiniteMap
import Etracker.Http.Render
import Etracker.Locations.Model

/-! The connections as `list.c` stores them, and what `socket_garbage.c`, `thread_garbage.c`,
`thread_client_tcp.c` and `websocket.c` do to the lists and to the sockets.

The calls of different threads are taken one after the other here. The global semaphore of a
`socketList`, which is taken around the calls, is not among the semaphores of the lists. -/

namespace Etracker.SocketLists

open Foundation Foundation.CString Etracker.Locations

structure SocketData where
  socket : UInt32
  equeue : UInt32
  time : Int
  deriving DecidableEq

/-- The items of `websockets` and of a `deleteSocketList` have no data. -/
abbrev SocketSet := HashList Unit

abbrev SocketList := HashList SocketData

def keyOf (socket : UInt32) : Hash := littleEndianBytes socket

/-- `*(int *) item->hash`. -/
def socketOf (hash : Hash) : UInt32 := readLittleEndian hash 0

/-- What is asked of the kernel. What becomes of a message is told by `send_`. -/
inductive KernelCall
  | send (socket : UInt32) (message : List UInt8) (sentOnce : Bool)
  | deleteClientEqueue (equeue socket : UInt32)
  | close (socket : UInt32)
  deriving DecidableEq

def KernelCall.socket : KernelCall → UInt32
  | send socket _ _ => socket
  | deleteClientEqueue _ socket => socket
  | close socket => socket

def updateSocketL (socketList : SocketList) (socket equeue : UInt32) (useSemaphore : Bool)
    (now : Int) : Except Fault SocketList := do
  let leaf := socketList.getLeaf (keyOf socket)
  let socketList ← if useSemaphore then waitSemaphoreLeaf socketList leaf else pure socketList
  let (socketList, item) ← setHash socketList (keyOf socket)
  let socketList ← socketList.setData item (some ⟨socket, equeue, now⟩)
  if useSemaphore then postSemaphoreLeaf socketList leaf else pure socketList

def deleteSocketItemL (socketList : SocketList) (item : Option Address)
    (calls : List KernelCall) : Except Fault (SocketList × List KernelCall) :=
  match item with
  | none => pure (socketList, calls)
  | some item => do
      let socketData ← socketList.dataOf item
      let calls := calls ++
        [.deleteClientEqueue socketData.equeue socketData.socket, .close socketData.socket]
      let socketList ← deleteItem socketList item
      pure (socketList, calls)

def deleteSocketL (socketList : SocketList) (socket : UInt32) (calls : List KernelCall) :
    Except Fault (SocketList × List KernelCall) := do
  let leaf := socketList.getLeaf (keyOf socket)
  let socketList ← waitSemaphoreLeaf socketList leaf
  let item ← getHash socketList (keyOf socket)
  let (socketList, calls) ← deleteSocketItemL socketList item calls
  let socketList ← postSemaphoreLeaf socketList leaf
  pure (socketList, calls)

def deleteWebsocket (websockets : SocketSet) (socket : UInt32) : Except Fault SocketSet := do
  let websockets ← waitSemaphoreLeaf websockets []
  let websocket ← getHash websockets (keyOf socket)
  let websockets ← match websocket with
    | none => pure websockets
    | some websocket => deleteItem websockets websocket
  postSemaphoreLeaf websockets []

def setWebsocket (websockets : SocketSet) (socket : UInt32) : Except Fault SocketSet := do
  let websockets ← waitSemaphoreLeaf websockets []
  let (websockets, _) ← setHash websockets (keyOf socket)
  postSemaphoreLeaf websockets []

/-- `args` is the socket list of the worker, the websockets and what was asked of the kernel. -/
def deleteSocketListCallback : Callback Unit (SocketList × SocketSet × List KernelCall)
  | _, item, (deleteSocketList, socketList, websockets, calls) => do
      let stored ← deleteSocketList.deref item
      let socket := socketOf stored.hash
      let (socketList, calls) ← deleteSocketL socketList socket calls
      let deleteSocketList ← deleteItem deleteSocketList item
      let websockets ← deleteWebsocket websockets socket
      pure (.listContinue, deleteSocketList, socketList, websockets, calls)

def timeoutMessage : List UInt8 :=
  Http.renderHttpMessage ⟨408, ascii "Request Timeout", 15, false, 0, none, none, none⟩

/-- `args` is the websockets and what was asked of the kernel. -/
def garbageSocketTimeoutCallback (maxTimeAllow : Int) :
    Callback SocketData (SocketSet × List KernelCall)
  | _, item, (socketList, websockets, calls) => do
      let socketData ← socketList.dataOf item
      if socketData.time < maxTimeAllow then
        let calls := calls ++ [.send socketData.socket timeoutMessage true]
        let websockets ← deleteWebsocket websockets socketData.socket
        let (socketList, calls) ← deleteSocketItemL socketList (some item) calls
        pure (.listContinue, socketList, websockets, calls)
      else pure (.listContinue, socketList, websockets, calls)

section Broadcast

variable {Degrees : Type} [OfNat Degrees 1000] [DecidableEq Degrees]
  (floatBytes : Degrees → Bytes 4)

def locate (geoip : Table Degrees) (ip : UInt32) : Except Fault (Geoip Degrees) :=
  match findGeoip geoip ip >>= fun found => geoip.read found.index with
  | .ok record => pure record
  | .error _ => throw .dangling

def frame (record : Geoip Degrees) (protocol : UInt8) : List UInt8 :=
  [130, 9] ++ (floatBytes record.lat).list ++ (floatBytes record.lon).list ++ [protocol]

def ip4Of (ip : In6Addr) : UInt32 := readBigEndian ip.list 12

/-- `args` is `data` and what was asked of the kernel. The frame is made when the first
websocket is met. -/
def broadcastCallback (geoip : Table Degrees) (ip : In6Addr) (protocol : UInt8) :
    Callback Unit (List UInt8 × List KernelCall)
  | _, item, (websockets, data, calls) => do
      let data ←
        if data.getD 0 0 = 0 then do
          let geoipSingle ← locate geoip (ip4Of ip)
          pure (frame floatBytes geoipSingle protocol)
        else pure data
      let stored ← websockets.deref item
      pure (.listContinue, websockets, data, calls ++ [.send (socketOf stored.hash) data false])

def websocketSizeFrame : Nat := 11

def broadcast (websockets : SocketSet) (geoip : Table Degrees) (ip : In6Addr) (protocol : UInt8)
    (calls : List KernelCall) : Except Fault (SocketSet × List KernelCall) := do
  let (_, websockets, _, calls) ← mapList websockets (List.replicate websocketSizeFrame 0, calls)
    (broadcastCallback floatBytes geoip ip protocol)
  pure (websockets, calls)

end Broadcast

structure Connections (Worker : Type) where
  socketLists : Worker → SocketList
  deleteSocketLists : Worker → SocketSet
  websockets : SocketSet
  calls : List KernelCall

def Connections.start (Worker : Type) : Connections Worker where
  socketLists _ := ListHeader.newList ⟨.littleEndian, 4, 1, ⟨true, true⟩⟩
  deleteSocketLists _ := ListHeader.newList ⟨.littleEndian, 4, 0, listSemaphoreDisable⟩
  websockets := ListHeader.newList ⟨.littleEndian, 4, 0, ⟨true, true⟩⟩
  calls := []

/-- What the threads do to the lists. -/
inductive Work (Worker Degrees : Type)
  /-- The listener has accepted a socket for a worker, or the worker has read from it. -/
  | update (worker : Worker) (socket equeue : UInt32) (useSemaphore : Bool) (now : Int)
  | discard (worker : Worker) (socket : UInt32)
  | flush (worker : Worker)
  | upgrade (socket : UInt32)
  | sweep (worker : Worker) (maxTimeAllow : Int)
  | broadcast (geoip : Table Degrees) (ip : In6Addr) (protocol : UInt8)

section Perform

variable {Worker Degrees : Type} [DecidableEq Worker] [OfNat Degrees 1000] [DecidableEq Degrees]
  (floatBytes : Degrees → Bytes 4)

def Work.perform (connections : Connections Worker) :
    Work Worker Degrees → Except Fault (Connections Worker)
  | update worker socket equeue useSemaphore now => do
      let socketList ←
        updateSocketL (connections.socketLists worker) socket equeue useSemaphore now
      pure { connections with
        socketLists := Function.update connections.socketLists worker socketList }
  | discard worker socket => do
      let (deleteSocketList, _) ← setHash (connections.deleteSocketLists worker) (keyOf socket)
      pure { connections with
        deleteSocketLists := Function.update connections.deleteSocketLists worker
          deleteSocketList }
  | flush worker => do
      let (_, deleteSocketList, socketList, websockets, calls) ←
        mapList (connections.deleteSocketLists worker)
          (connections.socketLists worker, connections.websockets, connections.calls)
          deleteSocketListCallback
      pure {
        socketLists := Function.update connections.socketLists worker socketList
        deleteSocketLists := Function.update connections.deleteSocketLists worker
          deleteSocketList
        websockets := websockets
        calls := calls }
  | upgrade socket => do
      let websockets ← setWebsocket connections.websockets socket
      pure { connections with websockets := websockets }
  | sweep worker maxTimeAllow => do
      let (_, socketList, websockets, calls) ← mapList (connections.socketLists worker)
        (connections.websockets, connections.calls) (garbageSocketTimeoutCallback maxTimeAllow)
      pure { connections with
        socketLists := Function.update connections.socketLists worker socketList
        websockets := websockets
        calls := calls }
  | broadcast geoip ip protocol => do
      let (websockets, calls) ←
        SocketLists.broadcast floatBytes connections.websockets geoip ip protocol connections.calls
      pure { connections with websockets := websockets, calls := calls }

def performAll (connections : Connections Worker) :
    List (Work Worker Degrees) → Except Fault (Connections Worker)
  | [] => pure connections
  | work :: rest => do
      let connections ← work.perform floatBytes connections
      performAll connections rest

end Perform

end Etracker.SocketLists
