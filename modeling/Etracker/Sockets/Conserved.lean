import Etracker.Foundation.Registry
import Etracker.Sockets.Model

/-! Sockets are conserved: the lists of sockets are a registry of descriptors, and the
threads change it only as a registry may change. -/

namespace Etracker

open Foundation Foundation.Runs

def Holder.leaving {Leaf : Type} : Holder Leaf → Option Socket
  | .worker _ (.closed socket) | .collector _ (.closed socket) => some socket
  | _ => none

theorem Holder.leaf_of_leaving {Leaf : Type} (leafOf : Socket → Leaf) {holder : Holder Leaf}
    {socket : Socket} (leaves : holder.leaving = some socket) :
    holder.leaf leafOf = some (leafOf socket) := by
  cases holder with
  | nobody => exact nomatch leaves
  | worker _ place =>
      cases place <;> cases leaves
      rfl
  | collector _ place =>
      cases place <;> cases leaves
      rfl

def SocketItem.entry (item : SocketItem) : Socket × Connection := (item.socket, item.connection)

variable {workers : Nat} {Leaf : Type} {leafOf : Socket → Leaf}

namespace Sockets

def registry (sockets : Sockets workers Leaf) : Registry Socket Connection (Fin workers) where
  table := sockets.descriptors
  entries number := (sockets.socketLists number).map SocketItem.entry
  leaving number := (sockets.holder number).leaving
  pending := sockets.clientSocket
  entered := sockets.inserted
  released := sockets.closes.map fun close => (close.connection, close.belongs)

theorem registry_hold (sockets : Sockets workers Leaf) (number : Fin workers)
    (holder : Holder Leaf) : (sockets.hold number holder).registry = { sockets.registry with
      leaving := Function.update sockets.registry.leaving number holder.leaving } :=
  congrArg (fun leaving => { sockets.registry with leaving := leaving })
    (Function.comp_update Holder.leaving sockets.holder number holder)

theorem registry_setList (sockets : Sockets workers Leaf) (number : Fin workers)
    (socketList : List SocketItem) :
    (sockets.setList number socketList).registry = { sockets.registry with
      entries := Function.update sockets.registry.entries number
        (socketList.map SocketItem.entry) } :=
  congrArg (fun entries => { sockets.registry with entries := entries })
    (Function.comp_update (List.map SocketItem.entry) sockets.socketLists number socketList)

theorem registry_hold_same (sockets : Sockets workers Leaf) {number : Fin workers}
    {place holder : Holder Leaf} (held : sockets.holder number = place)
    (same : holder.leaving = place.leaving) :
    (sockets.hold number holder).registry = sockets.registry := by
  have leaving : sockets.registry.leaving number = holder.leaving := by
    rw [same, ← held]
    rfl
  rw [registry_hold, ← leaving, Function.update_eq_self]

theorem updateSocketL_of_finds {sockets : Sockets workers Leaf} {number : Fin workers}
    {socket : Socket} {item : SocketItem} (found : sockets.Finds number socket item)
    (connection : Connection) (now : Int) :
    (updateSocketL (sockets.socketLists number) socket connection now).map SocketItem.entry =
      (sockets.socketLists number).map SocketItem.entry := by
  have listed : socket ∈ (sockets.socketLists number).map SocketItem.socket :=
    List.mem_map.mpr ⟨item, found⟩
  rw [updateSocketL, if_pos listed, List.map_map]
  apply List.map_congr_left
  intro stored _
  simp only [Function.comp_apply]
  split_ifs
  · rfl
  · rfl

theorem registry_insert {sockets : Sockets workers Leaf} {socket : Socket}
    {connection : Connection} {number : Fin workers} (new : sockets.Misses number socket)
    (now : Int) : (sockets.insert socket connection number now).registry =
      sockets.registry.enter socket connection number := by
  have unlisted : socket ∉ (sockets.socketLists number).map SocketItem.socket := by
    intro listed
    obtain ⟨item, member, same⟩ := List.mem_map.mp listed
    exact new item member same
  have entries := registry_setList sockets number
    (sockets.socketLists number ++ [⟨socket, now, connection⟩])
  rw [List.map_append] at entries
  rw [insert, updateSocketL, if_neg unlisted]
  exact congrArg (fun registry : Registry Socket Connection (Fin workers) => { registry with
    pending := none, entered := connection :: sockets.inserted }) entries

theorem registry_close {sockets : Sockets workers Leaf} {number : Fin workers} {socket : Socket}
    {item : SocketItem} (found : sockets.Finds number socket item) (status : Bool)
    {holder : Holder Leaf} (leaves : holder.leaving = some socket) :
    ((sockets.close item status).hold number holder).registry =
      sockets.registry.release number item.entry := by
  rw [registry_hold, leaves, ← found.2]
  rfl

theorem registry_deleteItem (sockets : Sockets workers Leaf) (number : Fin workers)
    (socket : Socket) {holder : Holder Leaf} (stays : holder.leaving = none) :
    ((sockets.deleteItem number socket).hold number holder).registry =
      sockets.registry.remove number socket := by
  rw [registry_hold, stays, deleteItem, registry_setList, deleteSocketItem]
  have filtered : ((sockets.socketLists number).filter fun item => item.socket ≠ socket).map
      SocketItem.entry = (sockets.registry.entries number).filter fun entry => entry.1 ≠ socket := by
    rw [registry, List.filter_map]
    rfl
  rw [filtered]
  rfl

structure Numbered (sockets : Sockets workers Leaf) : Prop where
  open_lt : ∀ socket connection, sockets.descriptors socket = some connection →
    connection < sockets.connections
  inserted_lt : ∀ connection ∈ sockets.inserted, connection < sockets.connections

theorem Numbered.hold {sockets : Sockets workers Leaf} (numbered : sockets.Numbered)
    (number : Fin workers) (holder : Holder Leaf) : (sockets.hold number holder).Numbered :=
  ⟨numbered.open_lt, numbered.inserted_lt⟩

/-- The listener never finds an item for the socket that it inserts. -/
theorem misses_clientSocket {sockets : Sockets workers Leaf} (sound : sockets.registry.Sound)
    {socket : Socket} {connection : Connection} {number : Fin workers}
    (waits : sockets.clientSocket = some (socket, connection, number))
    (free : (sockets.holder number).leaf leafOf ≠ some (leafOf socket)) :
    sockets.Misses number socket := by
  intro item member same
  have stays : (sockets.holder number).leaving ≠ some socket := fun leaves =>
    free (Holder.leaf_of_leaving leafOf leaves)
  have live : item.entry ∈ sockets.registry.live number := by
    rw [Registry.mem_live]
    refine ⟨List.mem_map_of_mem member, ?_⟩
    show (sockets.holder number).leaving ≠ some item.socket
    rwa [same]
  exact sound.unentered waits live same

end Sockets

open Sockets

/-- A step changes the registry as a registry may change, or not at all. -/
theorem SocketStep.registry_step {turn : SocketTurn workers Leaf}
    {before after : Sockets workers Leaf} (taken : SocketStep leafOf turn before after)
    (sound : before.registry.Sound) (numbered : before.Numbered) :
    after.registry = before.registry ∨ Registry.Step before.registry after.registry := by
  have unused : before.connections ∉ before.inserted := fun member =>
    lt_irrefl _ (numbered.inserted_lt _ member)
  have unowned : ∀ other, before.descriptors other ≠ some before.connections := fun _ owned =>
    lt_irrefl _ (numbered.open_lt _ _ owned)
  cases taken with
  | accept idle free _ _ => exact Or.inr (.acquire idle free unused unowned)
  | acceptZero idle free =>
      have forgotten : before.acceptZero.registry =
          before.registry.acquire 0 before.connections before.clientSocket := rfl
      right
      rw [forgotten, idle]
      exact .forget idle free unused unowned
  | insert waits free =>
      right
      rw [registry_insert (misses_clientSocket sound waits free)]
      exact .enter waits fun leaves => free (Holder.leaf_of_leaving leafOf leaves)
  | enter held | event held _ | discard held | handled held | mapDeleteSocketList held
  | deleteSocketL held _ | notFound held _ | leave held | sweep held _ | visit held
  | expire held _ _ | visited held | swept held => exact Or.inl (registry_hold_same before held rfl)
  | refresh _ found =>
      left
      rw [registry_setList, updateSocketL_of_finds found]
      exact congrArg (fun entries => { before.registry with entries := entries })
        (Function.update_eq_self _ _)
  | upgrade held => exact Or.inl (registry_hold_same (before.upgrade _) held rfl)
  | handshake held => exact Or.inl (registry_hold_same (before.send _ _) held rfl)
  | deleteWebsocket held | unlistExpired held =>
      exact Or.inl (registry_hold_same (before.deleteWebsocket _) held rfl)
  | broadcast => exact Or.inl rfl
  | close held found | closeExpired held found =>
      right
      rw [registry_close found _ rfl]
      refine .release (List.mem_map_of_mem found.1) ?_
      show (before.holder _).leaving = none
      rw [held]
      rfl
  | deleteItem held | deleteExpired held =>
      right
      rw [registry_deleteItem _ _ _ rfl]
      refine .remove ?_
      show (before.holder _).leaving = _
      rw [held]
      rfl

theorem SocketStep.numbered {turn : SocketTurn workers Leaf} {before after : Sockets workers Leaf}
    (taken : SocketStep leafOf turn before after) (sound : before.registry.Sound)
    (numbered : before.Numbered) : after.Numbered := by
  have later : ∀ connection ∈ before.inserted, connection < before.connections + 1 :=
    fun connection member => Nat.lt_succ_of_lt (numbered.inserted_lt _ member)
  have allocated : ∀ allocated, (before.allocate allocated).Numbered := by
    intro allocated
    refine ⟨?_, later⟩
    intro socket connection owned
    simp only [allocate, Function.update_apply] at owned
    split_ifs at owned with here
    · cases owned
      exact Nat.lt_succ_self _
    · exact Nat.lt_succ_of_lt (numbered.open_lt _ _ owned)
  have closed : ∀ item status, (before.close item status).Numbered := by
    intro item status
    refine ⟨?_, numbered.inserted_lt⟩
    intro socket connection owned
    simp only [Sockets.close, Function.update_apply] at owned
    split_ifs at owned
    exact numbered.open_lt _ _ owned
  cases taken with
  | accept _ _ _ _ | acceptZero _ _ => exact ⟨(allocated _).open_lt, later⟩
  | insert waits _ =>
      refine ⟨numbered.open_lt, ?_⟩
      intro connection member
      rcases List.mem_cons.mp member with rfl | old
      · exact numbered.open_lt _ _ (sound.pending _ _ _ waits).1
      · exact numbered.inserted_lt _ old
  | close _ _ | closeExpired _ _ => exact (closed _ _).hold _ _
  | _ => exact ⟨numbered.open_lt, numbered.inserted_lt⟩

/-- The counters of `stats` count what has happened. -/
structure Sockets.Counted (sockets : Sockets workers Leaf) : Prop where
  accepted : sockets.stats.acceptPass =
    UInt64.ofNat (sockets.inserted.length + sockets.clientSocket.toList.length)
  closed : sockets.stats.closePass + sockets.stats.closeFailed =
    UInt64.ofNat sockets.closes.length

theorem Sockets.Counted.hold {sockets : Sockets workers Leaf} (counted : sockets.Counted)
    (number : Fin workers) (holder : Holder Leaf) : (sockets.hold number holder).Counted :=
  ⟨counted.accepted, counted.closed⟩

theorem SocketStep.counted {turn : SocketTurn workers Leaf} {before after : Sockets workers Leaf}
    (taken : SocketStep leafOf turn before after) (counted : before.Counted) : after.Counted := by
  obtain ⟨accepted, closed⟩ := counted
  have closes : ∀ item status, (before.close item status).Counted := by
    intro item status
    refine ⟨?_, ?_⟩
    · cases status <;> exact accepted
    · show _ = UInt64.ofNat (before.closes.length + 1)
      rw [UInt64.ofNat_add, ← closed]
      cases status
      · show before.stats.closePass + 1 + before.stats.closeFailed = _ + 1
        grind
      · show before.stats.closePass + (before.stats.closeFailed + 1) = _ + 1
        exact (UInt64.add_assoc _ _ _).symm
  cases taken with
  | accept idle _ _ _ =>
      refine ⟨?_, closed⟩
      show before.stats.acceptPass + 1 = UInt64.ofNat (before.inserted.length + 1)
      rw [accepted, idle, UInt64.ofNat_add _ 1]
      rfl
  | insert waits _ =>
      refine ⟨?_, closed⟩
      show before.stats.acceptPass = UInt64.ofNat (before.inserted.length + 1 + 0)
      rw [accepted, waits]
      rfl
  | close _ _ | closeExpired _ _ => exact (closes _ _).hold _ _
  | _ => exact ⟨accepted, closed⟩

namespace Sockets

/-- The runs of the tracker from its start. -/
abbrev Reaches (leafOf : Socket → Leaf) (sockets : Sockets workers Leaf) : Prop :=
  Reached (SocketStep leafOf) (fun _ _ => True) (start workers Leaf) sockets

/-- What every step preserves. -/
structure Kept (sockets : Sockets workers Leaf) : Prop where
  sound : sockets.registry.Sound
  numbered : sockets.Numbered
  counted : sockets.Counted

theorem kept_start : (start workers Leaf).Kept where
  sound := Registry.sound_empty
  numbered := ⟨nofun, nofun⟩
  counted := ⟨rfl, rfl⟩

theorem Kept.step {turn : SocketTurn workers Leaf} {before after : Sockets workers Leaf}
    (kept : before.Kept) (taken : SocketStep leafOf turn before after) : after.Kept where
  sound := by
    rcases taken.registry_step kept.sound kept.numbered with same | changed
    · rw [same]
      exact kept.sound
    · exact kept.sound.step changed
  numbered := taken.numbered kept.sound kept.numbered
  counted := taken.counted kept.counted

def Listed (sockets : Sockets workers Leaf) (connection : Connection) : Prop :=
  ∃ number, ∃ item ∈ sockets.socketLists number,
    (sockets.holder number).leaving ≠ some item.socket ∧ item.connection = connection

structure Quiet (sockets : Sockets workers Leaf) : Prop where
  inserting : sockets.clientSocket = none
  deleting : ∀ number, (sockets.holder number).leaving = none

structure Conserved (sockets : Sockets workers Leaf) : Prop where
  once : ∀ connection ∈ sockets.inserted,
    (sockets.closes.map Close.connection).count connection = 0 ∧ sockets.Listed connection ∨
    (sockets.closes.map Close.connection).count connection = 1 ∧ ¬sockets.Listed connection
  held : ∀ number, ∀ item ∈ sockets.socketLists number,
    (sockets.holder number).leaving ≠ some item.socket →
      sockets.descriptors item.socket = some item.connection
  own : ∀ close ∈ sockets.closes, close.belongs = some close.connection
  total : sockets.Quiet → ∑ number, (sockets.socketLists number).length =
    (sockets.stats.acceptPass - sockets.stats.closePass - sockets.stats.closeFailed).toNat

theorem mem_live_iff {sockets : Sockets workers Leaf} {number : Fin workers}
    {entry : Socket × Connection} : entry ∈ sockets.registry.live number ↔
      ∃ item ∈ sockets.socketLists number,
        (sockets.holder number).leaving ≠ some item.socket ∧ item.entry = entry := by
  rw [Registry.mem_live]
  constructor
  · rintro ⟨listed, stays⟩
    obtain ⟨item, member, rfl⟩ := List.mem_map.mp listed
    exact ⟨item, member, stays, rfl⟩
  · rintro ⟨item, member, stays, rfl⟩
    exact ⟨List.mem_map_of_mem member, stays⟩

theorem listed_iff {sockets : Sockets workers Leaf} {connection : Connection} :
    sockets.Listed connection ↔
      ∃ number, ∃ entry ∈ sockets.registry.live number, entry.2 = connection := by
  constructor
  · rintro ⟨number, item, member, stays, rfl⟩
    exact ⟨number, item.entry, mem_live_iff.mpr ⟨item, member, stays, rfl⟩, rfl⟩
  · rintro ⟨number, entry, live, rfl⟩
    obtain ⟨item, member, stays, rfl⟩ := mem_live_iff.mp live
    exact ⟨number, item, member, stays, rfl⟩

theorem Kept.total {sockets : Sockets workers Leaf} (kept : sockets.Kept) (quiet : sockets.Quiet) :
    ∑ number, (sockets.socketLists number).length =
      (sockets.stats.acceptPass - sockets.stats.closePass - sockets.stats.closeFailed).toNat := by
  obtain ⟨sound, _, accepted, closed⟩ := kept
  have sizes : ∀ number, (sockets.registry.live number).length =
      (sockets.socketLists number).length := by
    intro number
    rw [Registry.live_of_stays (quiet.deleting number)]
    exact List.length_map _
  have books := sound.length_entered
  have few := sound.sum_length_live_le
  simp only [sizes, Fintype.card_fin] at books few
  have released : sockets.registry.released.length = sockets.closes.length := List.length_map _
  rw [quiet.inserting] at accepted
  have passed : sockets.stats.acceptPass = UInt64.ofNat sockets.closes.length +
      UInt64.ofNat (∑ number, (sockets.socketLists number).length) := by
    rw [accepted, ← UInt64.ofNat_add, ← released, ← books]
    rfl
  have rest : sockets.stats.acceptPass - sockets.stats.closePass - sockets.stats.closeFailed =
      UInt64.ofNat (∑ number, (sockets.socketLists number).length) := by
    rw [passed, ← closed]
    grind
  rw [rest, UInt64.toNat_ofNat', Nat.mod_eq_of_lt (lt_of_le_of_lt few (by decide))]

theorem Kept.conserved {sockets : Sockets workers Leaf} (kept : sockets.Kept) :
    sockets.Conserved where
  once connection entered := by
    have connections : sockets.registry.released.map Prod.fst =
        sockets.closes.map Close.connection := List.map_map
    rw [listed_iff, ← connections]
    exact kept.sound.accounted entered
  held number item member stays :=
    kept.sound.named number item.entry (mem_live_iff.mpr ⟨item, member, stays, rfl⟩)
  own close logged :=
    kept.sound.own (close.connection, close.belongs) (List.mem_map.mpr ⟨close, logged, rfl⟩)
  total := kept.total

end Sockets

/-- Connections that were inserted are closed once, by their own descriptor, and the
lists hold as many items as the counters say. -/
theorem sockets_conserved (workers : Nat) (Leaf : Type) (leafOf : Socket → Leaf) :
    ∀ sockets : Sockets workers Leaf, Reaches leafOf sockets → sockets.Conserved := by
  intro sockets reached
  have kept : sockets.Kept := reached.invariant Kept kept_start
    fun _ _ _ kept _ taken => kept.step taken
  exact kept.conserved

theorem reaches_next {leafOf : Socket → Leaf} {turn : SocketTurn workers Leaf}
    {before after : Sockets workers Leaf} (reached : Reaches leafOf before)
    (taken : SocketStep leafOf turn before after) : Reaches leafOf after :=
  reached.next trivial taken

def listed : Sockets 1 Socket :=
  ((((start 1 Socket).accept 5 0).insert 5 0 0 0).accept 6 0).insert 6 1 0 0

theorem listed_reaches : Reaches id listed := by
  let inserted := ((start 1 Socket).accept 5 0).insert 5 0 0 0
  have accept : SocketStep id (.accept 5) (start 1 Socket) ((start 1 Socket).accept 5 0) :=
    .accept rfl rfl (by decide) rfl
  have insert : SocketStep id (.insert 0) ((start 1 Socket).accept 5 0) inserted :=
    .insert rfl nofun
  have accept' : SocketStep id (.accept 6) inserted (inserted.accept 6 0) :=
    .accept rfl rfl (by decide) rfl
  have insert' : SocketStep id (.insert 0) (inserted.accept 6 0) listed := .insert rfl nofun
  have first := reaches_next (reaches_next .start accept) insert
  exact reaches_next (reaches_next first accept') insert'

/-- The worker has put the first of them on `deleteSocketList` and looks for its item. -/
def picked : Sockets 1 Socket :=
  let handles := (listed.hold 0 (.worker [] .looks)).hold 0 (.worker [] (.handles 5 false))
  let handled := (handles.hold 0 (.worker (setSocket [] 5) (.handles 5 false))).hold 0
    (.worker (setSocket [] 5) .looks)
  (handled.hold 0 (.worker (setSocket [] 5) .deletes)).hold 0
    (.worker (deleteSocket (setSocket [] 5) 5) (.closes 5))

theorem picked_reaches : Reaches id picked := by
  let enters := listed.hold 0 (.worker [] .looks)
  let handles := enters.hold 0 (.worker [] (.handles 5 false))
  let discards := handles.hold 0 (.worker (setSocket [] 5) (.handles 5 false))
  let handled := discards.hold 0 (.worker (setSocket [] 5) .looks)
  let deletes := handled.hold 0 (.worker (setSocket [] 5) .deletes)
  have enter : SocketStep id (.enter 0) listed enters := .enter rfl
  have found : enters.Finds 0 5 ⟨5, 0, 0⟩ := ⟨List.mem_cons_self, rfl⟩
  have event : SocketStep id (.event 0 5) enters handles := .event rfl found
  have discard : SocketStep id (.discard 0) handles discards := .discard rfl
  have handle : SocketStep id (.handled 0) discards handled := .handled rfl
  have map : SocketStep id (.mapDeleteSocketList 0) handled deletes := .mapDeleteSocketList rfl
  have pick : SocketStep id (.deleteSocketL 0 5) deletes picked :=
    .deleteSocketL rfl (List.mem_singleton_self _)
  have events := reaches_next (reaches_next listed_reaches enter) event
  have handleds := reaches_next (reaches_next events discard) handle
  exact reaches_next (reaches_next handleds map) pick

def relisted : Sockets 1 Socket :=
  let closed := (picked.close ⟨5, 0, 0⟩ false).hold 0
    (.worker (deleteSocket (setSocket [] 5) 5) (.closed 5))
  let unlists := (closed.deleteItem 0 5).hold 0
    (.worker (deleteSocket (setSocket [] 5) 5) (.unlists 5))
  let left := ((unlists.deleteWebsocket 5).hold 0
    (.worker (deleteSocket (setSocket [] 5) 5) .deletes)).hold 0 .nobody
  (left.accept 5 0).insert 5 2 0 100

theorem relisted_reaches : Reaches id relisted := by
  let closed := (picked.close ⟨5, 0, 0⟩ false).hold 0
    (.worker (deleteSocket (setSocket [] 5) 5) (.closed 5))
  let unlists := (closed.deleteItem 0 5).hold 0
    (.worker (deleteSocket (setSocket [] 5) 5) (.unlists 5))
  let deletes := (unlists.deleteWebsocket 5).hold 0
    (.worker (deleteSocket (setSocket [] 5) 5) .deletes)
  let left := deletes.hold 0 .nobody
  have found : picked.Finds 0 5 ⟨5, 0, 0⟩ := ⟨List.mem_cons_self, rfl⟩
  have close : SocketStep id (.close 0 false) picked closed := .close rfl found
  have delete : SocketStep id (.deleteItem 0) closed unlists := .deleteItem rfl
  have unlist : SocketStep id (.deleteWebsocket 0) unlists deletes := .deleteWebsocket rfl
  have leave : SocketStep id (.leave 0) deletes left := .leave rfl
  have accept : SocketStep id (.accept 5) left (left.accept 5 0) :=
    .accept rfl rfl (by decide) rfl
  have insert : SocketStep id (.insert 100) (left.accept 5 0) relisted := .insert rfl nofun
  have deleted := reaches_next (reaches_next picked_reaches close) delete
  have leaves := reaches_next (reaches_next deleted unlist) leave
  exact reaches_next (reaches_next leaves accept) insert

def swept : Sockets 1 Socket :=
  let expires := ((relisted.hold 0 (.collector 50 .sweeps)).hold 0
    (.collector 50 (.visits 6))).hold 0 (.collector 50 (.expires 6))
  let unlisted := (expires.deleteWebsocket 6).hold 0 (.collector 50 (.unlisted 6))
  let closed := (unlisted.close ⟨6, 0, 1⟩ true).hold 0 (.collector 50 (.closed 6))
  (((closed.deleteItem 0 6).hold 0 (.collector 50 (.visits 6))).hold 0
    (.collector 50 .sweeps)).hold 0 .nobody

theorem swept_reaches : Reaches id swept := by
  let sweeps := relisted.hold 0 (.collector 50 .sweeps)
  let visits := sweeps.hold 0 (.collector 50 (.visits 6))
  let expires := visits.hold 0 (.collector 50 (.expires 6))
  let unlisted := (expires.deleteWebsocket 6).hold 0 (.collector 50 (.unlisted 6))
  let closed := (unlisted.close ⟨6, 0, 1⟩ true).hold 0 (.collector 50 (.closed 6))
  let deleted := (closed.deleteItem 0 6).hold 0 (.collector 50 (.visits 6))
  let visited := deleted.hold 0 (.collector 50 .sweeps)
  have found : visits.Finds 0 6 ⟨6, 0, 1⟩ := ⟨List.mem_cons_self, rfl⟩
  have free : ∀ other time place, relisted.holder other ≠ .collector time place := by
    intro other time place held
    rw [Subsingleton.elim other 0] at held
    cases held
  have sweep : SocketStep id (.sweep 0 50) relisted sweeps := .sweep rfl free
  have visit : SocketStep id (.visit 0 6) sweeps visits := .visit rfl
  have expire : SocketStep id (.expire 0 6) visits expires := .expire rfl found (by decide)
  have unlist : SocketStep id (.deleteWebsocket 0) expires unlisted := .unlistExpired rfl
  have close : SocketStep id (.close 0 true) unlisted closed := .closeExpired rfl found
  have delete : SocketStep id (.deleteItem 0) closed deleted := .deleteExpired rfl
  have visited' : SocketStep id (.visited 0) deleted visited := .visited rfl
  have ends : SocketStep id (.swept 0) visited swept := .swept rfl
  have visiting := reaches_next (reaches_next relisted_reaches sweep) visit
  have expired := reaches_next (reaches_next visiting expire) unlist
  have closes := reaches_next (reaches_next expired close) delete
  exact reaches_next (reaches_next closes visited') ends

theorem sockets_conserved_swept :
    swept.Conserved ∧ swept.closes.map Close.connection = [1, 0] ∧
      (swept.socketLists 0).map SocketItem.entry = [(5, 2)] :=
  ⟨sockets_conserved 1 Socket id _ swept_reaches, rfl, rfl⟩

end Etracker
