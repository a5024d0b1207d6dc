import Etracker.Semaphores.Model

/-! Every thread takes its semaphores in one order: first the global semaphore of a
`socketList`, then a leaf of it, then `websockets` or a leaf of the torrents. -/

namespace Etracker

open Foundation.Locks Foundation.Runs

variable {workers udpWorkers : Nat}

namespace SharedList

def leafRank : SharedList workers → Nat
  | .socketList _ => 2
  | .torrentList | .websockets => 3

end SharedList

def Semaphore.rank : Semaphore workers → Nat
  | .request => 0
  | .made list path _ =>
      match list with
      | .socketList _ => 1 + path.length
      | .torrentList | .websockets => 3

abbrev Orderly (bound : Nat) (script : Script (Semaphore workers)) : Prop :=
  Above Semaphore.rank bound script

namespace SharedList

theorem rank_leaf (list : SharedList workers) {path : Path}
    (whole : path.length = list.header.level) : (list.leaf path whole).rank = list.leafRank := by
  cases list with
  | socketList number =>
      have length : path.length = 1 := whole
      simp only [leaf, Semaphore.rank, leafRank, length]
  | torrentList => rfl
  | websockets => rfl

theorem orderly_leaf (list : SharedList workers) {path : Path}
    (whole : path.length = list.header.level) {body : Script (Semaphore workers)}
    (orderly : Orderly (list.leafRank + 1) body) :
    Orderly list.leafRank (locked (list.leaf path whole) body) := by
  have rank := list.rank_leaf whole
  apply above_locked
  · exact rank.ge
  · rw [rank]
    exact orderly

theorem orderly_getLeaf (list : SharedList workers) (hash : Hash)
    {body : Script (Semaphore workers)} (orderly : Orderly (list.leafRank + 1) body) :
    Orderly list.leafRank (locked (list.getLeaf hash) body) :=
  list.orderly_leaf (list.length_getLeaf hash) orderly

theorem orderly_only : Orderly 3 (locked (@only workers) []) :=
  websockets.orderly_leaf rfl (above_nil 4)

theorem orderly_root (number : Fin workers) {body : Script (Semaphore workers)}
    (orderly : Orderly 2 body) : Orderly 1 (locked (root number) body) :=
  above_locked le_rfl orderly

theorem orderly_mapListFrom (list : SharedList workers) {visits : Visits workers}
    (orderly : ∀ leaf callbacks, visits leaf = some callbacks →
      ∀ script ∈ callbacks, Orderly (list.leafRank + 1) script)
    (level : Nat) (path : Path) (whole : path.length + level = list.header.level) :
    Orderly list.leafRank (list.mapListFrom visits level path whole) := by
  induction level generalizing path with
  | zero =>
      unfold mapListFrom
      cases found : visits path with
      | none => exact above_nil _
      | some callbacks => exact list.orderly_leaf whole (above_flatten (orderly path callbacks found))
  | succ level ih =>
      unfold mapListFrom
      exact above_flatMap fun index _ => ih (path ++ [index]) _

theorem orderly_mapList (list : SharedList workers) {visits : Visits workers}
    (orderly : ∀ leaf callbacks, visits leaf = some callbacks →
      ∀ script ∈ callbacks, Orderly (list.leafRank + 1) script) :
    Orderly list.leafRank (list.mapList visits) :=
  list.orderly_mapListFrom orderly _ _ _

theorem orderly_mapList_map {Datum : Type} (list : SharedList workers)
    {callback : Datum → Script (Semaphore workers)}
    (orderly : ∀ datum, Orderly (list.leafRank + 1) (callback datum))
    (found : Path → Option (List Datum)) :
    Orderly list.leafRank (list.mapList fun leaf => (found leaf).map (List.map callback)) := by
  apply list.orderly_mapList
  intro leaf callbacks visited script member
  obtain ⟨data, _, rfl⟩ := Option.map_eq_some_iff.mp visited
  obtain ⟨datum, _, rfl⟩ := List.mem_map.mp member
  exact orderly datum

end SharedList

namespace Semaphores

theorem orderly_deleteWebsocket : @Orderly workers 3 deleteWebsocket :=
  SharedList.orderly_only

theorem orderly_broadcast (listed : Option (List Socket)) :
    @Orderly workers 3 (broadcast listed) :=
  SharedList.websockets.orderly_mapList_map (fun _ => above_nil 4) fun _ => listed

theorem orderly_announce (infoHash : ParamValue) :
    @Orderly workers 3 (announce infoHash) :=
  SharedList.torrentList.orderly_getLeaf infoHash.list (above_nil 4)

theorem orderly_renderScrapeTorrentsPublic (hashes : List ParamValue) :
    @Orderly workers 3 (renderScrapeTorrentsPublic hashes) :=
  above_flatMap fun hash _ => SharedList.torrentList.orderly_getLeaf hash.list (above_nil 4)

theorem orderly_request (request : Request) : @Orderly workers 3 request.script := by
  cases request with
  | announce infoHash ipv4 listed =>
      apply above_append
      · cases infoHash with
        | none => exact above_nil 3
        | some infoHash => exact orderly_announce infoHash
      · exact above_ite (orderly_broadcast listed) (above_nil 3)
  | websocket accepted => exact above_ite SharedList.orderly_only (above_nil 3)
  | scrape hashes => exact orderly_renderScrapeTorrentsPublic hashes
  | other => exact above_nil 3

theorem orderly_processRead (number : Fin workers) (currentSocket : Socket)
    (received : Received) : Orderly 3 (processRead number currentSocket received) := by
  cases received with
  | refused => exact above_nil 3
  | incomplete => exact SharedList.orderly_only
  | complete request =>
      apply above_append SharedList.orderly_only
      -- `updateSocketL` is called without the semaphore here.
      apply above_append (above_nil 3)
      cases request with
      | none => exact above_nil 3
      | some request => exact orderly_request request

theorem orderly_event (number : Fin workers) (event : Event) :
    Orderly 2 (event.script number) := by
  apply (SharedList.socketList number).orderly_getLeaf
  cases event.received with
  | none => exact above_nil 3
  | some received => exact orderly_processRead number event.currentSocket received

theorem orderly_deleteSocketListCallback (number : Fin workers) (socket : Socket) :
    Orderly 2 (deleteSocketListCallback number socket) := by
  have deletes : Orderly 2 (deleteSocketL number socket) :=
    (SharedList.socketList number).orderly_getLeaf socket.hash (above_nil 3)
  have unlists : @Orderly workers 2 deleteWebsocket :=
    above_mono (by decide) orderly_deleteWebsocket
  exact above_append deletes unlists

theorem orderly_clientTcpHandler (number : Fin workers) (events : List Event)
    (deleteSocketList : List Socket) :
    Orderly 1 (clientTcpHandler number events deleteSocketList) := by
  have serves : Orderly 2 (events.flatMap (Event.script number)) :=
    above_flatMap fun event _ => orderly_event number event
  have deletes : Orderly 2 (deleteSocketList.flatMap (deleteSocketListCallback number)) :=
    above_flatMap fun socket _ => orderly_deleteSocketListCallback number socket
  exact SharedList.orderly_root number (above_append serves (above_ite (above_nil 2) deletes))

theorem orderly_serverTcpHandler (accepted : Option (Fin workers × Socket)) :
    Orderly 2 (serverTcpHandler accepted) := by
  cases accepted with
  | none => exact above_nil 2
  | some accepted =>
      obtain ⟨number, clientSocket⟩ := accepted
      exact (SharedList.socketList number).orderly_getLeaf clientSocket.hash (above_nil 3)

theorem orderly_garbageSocketTimeoutCallback (expired : Bool) :
    @Orderly workers 3 (garbageSocketTimeoutCallback expired) :=
  above_ite (above_append orderly_deleteWebsocket (above_nil 3)) (above_nil 3)

theorem orderly_garbageSocketTimeoutHandler (timeouts : Timeouts workers) :
    Orderly 1 (garbageSocketTimeoutHandler timeouts) := by
  apply above_flatMap
  intro workerNumber _
  exact SharedList.orderly_root workerNumber
    ((SharedList.socketList workerNumber).orderly_mapList_map
      orderly_garbageSocketTimeoutCallback (timeouts workerNumber))

theorem orderly_runGarbageCollectorL (torrents : Path → Option Nat) :
    @Orderly workers 3 (runGarbageCollectorL torrents) := by
  apply SharedList.torrentList.orderly_mapList
  intro leaf callbacks visited script member
  obtain ⟨count, _, rfl⟩ := Option.map_eq_some_iff.mp visited
  rw [List.eq_of_mem_replicate member]
  exact above_nil 4

theorem orderly_serverUdpHandler (received : Bool) :
    @Orderly workers 0 (serverUdpHandler received) :=
  above_ite (above_locked le_rfl (above_nil 1)) (above_nil 0)

theorem orderly_clientUdpHandler (pulled : Option Datagram) :
    @Orderly workers 0 (clientUdpHandler pulled) := by
  have pulls : @Orderly workers 0 (locked .request []) :=
    above_locked le_rfl (above_nil 1)
  apply above_append pulls
  cases pulled with
  | none => exact above_nil 0
  | some datagram =>
      apply above_mono (Nat.zero_le 3)
      cases datagram with
      | announce infoHash ipv4 listed =>
          exact above_append (orderly_announce infoHash)
            (above_ite (orderly_broadcast listed) (above_nil 3))
      | scrape hashes => exact orderly_renderScrapeTorrentsPublic hashes
      | other => exact above_nil 3

theorem ordered_round (thread : Thread workers udpWorkers) (script : Script (Semaphore workers))
    (round : Round thread script) : Ordered Semaphore.rank [] script [] := by
  have orderly : Orderly 0 script := by
    cases round with
    | serverTcp accepted => exact above_mono (by decide) (orderly_serverTcpHandler accepted)
    | clientTcp number events deleteSocketList =>
        exact above_mono (by decide) (orderly_clientTcpHandler number events deleteSocketList)
    | serverUdp received => exact orderly_serverUdpHandler received
    | clientUdp number pulled => exact orderly_clientUdpHandler pulled
    | garbageSocketTimeout timeouts =>
        exact above_mono (by decide) (orderly_garbageSocketTimeoutHandler timeouts)
    | garbageCollector torrents =>
        exact above_mono (by decide) (orderly_runGarbageCollectorL torrents)
  exact orderly [] fun _ member => nomatch member

/-- Whatever the numbers of workers and the interleaving, no thread waits for itself,
directly or through others, and as long as a thread is in a round, one can move. -/
theorem semaphores_deadlockFree {state : State (Semaphore workers) (Thread workers udpWorkers)}
    (reached : Reached (ThreadStep workers udpWorkers) (fun _ _ => True) (.start _ _) state) :
    state.DeadlockFree :=
  deadlockFree_of_ordered ordered_round reached

/-- A worker looks for events, and the collector waits for its list. -/
theorem semaphores_deadlockFree_waiting :
    ∃ state : State (Semaphore 1) (Thread 1 1),
      state.WaitsFor .garbageSocketTimeout (.clientTcp 0) ∧ state.DeadlockFree := by
  let idle : State (Semaphore 1) (Thread 1 1) := .start _ _
  have begins : ThreadStep 1 1 (.clientTcp 0) idle _ := .next rfl (.clientTcp 0 [] [])
  have begun : Reached (ThreadStep 1 1) (fun _ _ => True) idle _ := .next .start trivial begins
  have looks := @Reached.next _ _ _ _ _ (.clientTcp 0) _ _ begun trivial (.wait rfl Nat.one_pos)
  have sweeps := @Reached.next _ _ _ _ _ .garbageSocketTimeout _ _ looks trivial
    (.next rfl (.garbageSocketTimeout fun _ _ => none))
  have free := semaphores_deadlockFree sweeps
  exact ⟨_, ⟨SharedList.root 0, ⟨_, rfl⟩, List.mem_cons_self⟩, free⟩

end Semaphores

end Etracker
