import Etracker.Sockets.Websockets

namespace Etracker

open Foundation Foundation.Runs

/-- No frame was sent on a connection before its 101 response; the latest comes first. -/
def HandshakeFirst : List (Connection × Sent) → Prop
  | [] => True
  | (_, .handshake) :: earlier => HandshakeFirst earlier
  | (connection, .frame) :: earlier =>
      (connection, Sent.handshake) ∈ earlier ∧ HandshakeFirst earlier

/-- The socket that is on `websockets` without its 101 response. -/
def Holder.upgrading {Leaf : Type} : Holder Leaf → Option Socket
  | .worker _ (.upgrades socket) => some socket
  | _ => none

theorem Holder.known_of_upgrading {Leaf : Type} {holder : Holder Leaf} {socket : Socket}
    (upgrading : holder.upgrading = some socket) : socket ∈ holder.known := by
  cases holder with
  | nobody => exact nomatch upgrading
  | worker _ place =>
      cases place <;> cases upgrading
      exact List.mem_cons_self
  | collector _ _ => exact nomatch upgrading

theorem Holder.asking_worker {Leaf : Type} (deleteSocketList other : List Socket)
    (place : WorkerAt) : (Holder.worker deleteSocketList place : Holder Leaf).asking =
      (Holder.worker other place : Holder Leaf).asking := by
  cases place with
  | handles socket websocket => cases websocket <;> rfl
  | _ => rfl

theorem Holder.known_of_asking {Leaf : Type} {holder : Holder Leaf} {socket : Socket}
    (asking : holder.asking = some socket) : socket ∈ holder.known := by
  cases holder with
  | nobody => exact nomatch asking
  | worker _ place =>
      cases place with
      | handles socket websocket =>
          cases websocket <;> cases asking
          exact List.mem_cons_self
      | _ => exact nomatch asking
  | collector _ _ => exact nomatch asking

theorem handshakeFirst_frames {connections : List Connection} {earlier : List (Connection × Sent)} :
    HandshakeFirst (connections.map (fun connection => (connection, Sent.frame)) ++ earlier) ↔
      (∀ connection ∈ connections, (connection, Sent.handshake) ∈ earlier) ∧
        HandshakeFirst earlier := by
  induction connections with
  | nil => simp
  | cons connection connections ih =>
      have sent : (connection, Sent.handshake) ∈
          connections.map (fun connection => (connection, Sent.frame)) ++ earlier ↔
            (connection, Sent.handshake) ∈ earlier := by
        simp
      rw [List.map_cons, List.cons_append, HandshakeFirst, sent, ih, List.forall_mem_cons, and_assoc]

variable {workers : Nat} {Leaf : Type} {leafOf : Socket → Leaf}

/-- A broadcast is not made between the insertion of a socket and its 101 response. -/
def BroadcastsOutside (turn : SocketTurn workers Leaf) (sockets : Sockets workers Leaf) : Prop :=
  turn = .broadcast → ∀ number, (sockets.holder number).upgrading = none

namespace Sockets

/-- How the sockets on `websockets` come by their 101 responses. -/
structure Shaken (sockets : Sockets workers Leaf) : Prop where
  first : HandshakeFirst sockets.sent
  shaken : ∀ socket ∈ sockets.websockets, ∀ connection,
    sockets.descriptors socket = some connection →
      (connection, Sent.handshake) ∈ sockets.sent ∨
        ∃ number, (sockets.holder number).upgrading = some socket
  upgrading : ∀ number socket, (sockets.holder number).upgrading = some socket →
    socket ∈ sockets.websockets
  unshaken : ∀ number socket connection, (sockets.holder number).upgrading = some socket →
    sockets.descriptors socket = some connection →
      (connection, Sent.handshake) ∉ sockets.sent
  asking : ∀ number socket connection, (sockets.holder number).asking = some socket →
    sockets.descriptors socket = some connection → connection ∉ sockets.upgraded
  answered : ∀ connection, (connection, Sent.handshake) ∈ sockets.sent →
    connection ∈ sockets.upgraded

theorem Shaken.hold {sockets : Sockets workers Leaf} (shaken : sockets.Shaken)
    {number : Fin workers} {place holder : Holder Leaf} (held : sockets.holder number = place)
    (upgrading : holder.upgrading = none) (before : place.upgrading = none)
    (asking : ∀ socket, holder.asking = some socket → ∀ connection,
      sockets.descriptors socket = some connection → connection ∉ sockets.upgraded) :
    (sockets.hold number holder).Shaken := by
  refine ⟨shaken.first, ?_, ?_, ?_, ?_, shaken.answered⟩
  · intro socket member connection names
    refine (shaken.shaken socket member connection names).imp_right fun seen => seen_update seen ?_
    intro was
    rw [held, before] at was
    exact nomatch was
  · intro other socket seen
    rcases seen_of_update seen with here | ⟨_, there⟩
    · rw [upgrading] at here
      exact nomatch here
    · exact shaken.upgrading other socket there
  · intro other socket connection seen
    rcases seen_of_update seen with here | ⟨_, there⟩
    · rw [upgrading] at here
      exact nomatch here
    · exact shaken.unshaken other socket connection there
  · intro other socket connection seen
    rcases seen_of_update seen with here | ⟨_, there⟩
    · exact asking socket here connection
    · exact shaken.asking other socket connection there

theorem Shaken.allocate {sockets : Sockets workers Leaf} (shaken : sockets.Shaken)
    (owned : sockets.Owned) {socket : Socket} (free : sockets.descriptors socket = none)
    (fresh : socket ∉ sockets.websockets) : (sockets.allocate socket).Shaken := by
  have opened : ∀ number other, other ∈ (sockets.holder number).known → other ≠ socket := by
    rintro number other inside rfl
    obtain ⟨_, _, names⟩ := owned.live inside
    rw [free] at names
    exact nomatch names
  have unlisted : ∀ other ∈ sockets.websockets, other ≠ socket := by
    rintro other member rfl
    exact fresh member
  refine ⟨shaken.first, ?_, shaken.upgrading, ?_, ?_, shaken.answered⟩
  · intro other member connection names
    simp only [Sockets.allocate, Function.update_of_ne (unlisted other member)] at names
    exact shaken.shaken other member connection names
  · intro number other connection seen names
    have differs := opened number other (Holder.known_of_upgrading seen)
    simp only [Sockets.allocate, Function.update_of_ne differs] at names
    exact shaken.unshaken number other connection seen names
  · intro number other connection seen names
    have differs := opened number other (Holder.known_of_asking seen)
    simp only [Sockets.allocate, Function.update_of_ne differs] at names
    exact shaken.asking number other connection seen names

theorem Owned.holder_unique {sockets : Sockets workers Leaf} (owned : sockets.Owned)
    {number other : Fin workers} {socket asked : Socket} {connection : Connection}
    (owns : sockets.descriptors socket = some connection)
    (names : sockets.descriptors asked = some connection)
    (inside : socket ∈ (sockets.holder number).known)
    (there : asked ∈ (sockets.holder other).known) : other = number := by
  rw [owned.kept.sound.single _ _ _ names owns] at there
  exact owned.known_unique there inside

theorem Shaken.upgrade {sockets : Sockets workers Leaf} (shaken : sockets.Shaken)
    (owned : sockets.Owned) {number : Fin workers} {socket : Socket}
    {deleteSocketList : List Socket}
    (place : sockets.holder number = .worker deleteSocketList (.handles socket false)) :
    ((sockets.upgrade socket).hold number (.worker deleteSocketList (.upgrades socket))).Shaken := by
  have seen : (sockets.holder number).asking = some socket := by
    rw [place]
    rfl
  have inside := Holder.known_of_asking seen
  obtain ⟨connection, _, owns⟩ := owned.live inside
  have upgraded : (sockets.upgrade socket).upgraded = connection :: sockets.upgraded := by
    show (sockets.descriptors socket).toList ++ sockets.upgraded = _
    rw [owns]
    rfl
  have new := shaken.asking number socket connection seen owns
  constructor
  case first => exact shaken.first
  case shaken =>
    intro other member connection' names
    rcases mem_setSocket.mp member with rfl | old
    · right
      refine ⟨number, ?_⟩
      show (Function.update sockets.holder number _ number).upgrading = _
      rw [Function.update_self]
      rfl
    · refine (shaken.shaken other old connection' names).imp_right fun seen => seen_update seen ?_
      intro was
      have was : (sockets.holder number).upgrading = some other := was
      rw [place] at was
      exact nomatch was
  case upgrading =>
    intro other upgrading seen
    rcases seen_of_update seen with here | ⟨_, there⟩
    · cases here
      exact mem_setSocket.mpr (Or.inl rfl)
    · exact mem_setSocket.mpr (Or.inr (shaken.upgrading other upgrading there))
  case unshaken =>
    intro other upgrading connection' seen names
    rcases seen_of_update seen with here | ⟨_, there⟩
    · cases here
      have same : sockets.descriptors socket = some connection' := names
      rw [owns] at same
      cases same
      exact fun answered => new (shaken.answered _ answered)
    · exact shaken.unshaken other upgrading connection' there names
  case asking =>
    intro other asking connection' seen names
    rcases seen_of_update seen with here | ⟨differs, there⟩
    · exact nomatch here
    · show connection' ∉ (sockets.upgrade socket).upgraded
      rw [upgraded]
      intro member
      rcases List.mem_cons.mp member with rfl | old
      · exact differs (owned.holder_unique owns names inside (Holder.known_of_asking there))
      · exact shaken.asking other asking connection' there names old
  case answered =>
    intro connection' answered
    show connection' ∈ (sockets.upgrade socket).upgraded
    rw [upgraded]
    exact List.mem_cons_of_mem _ (shaken.answered connection' answered)

theorem Shaken.names_upgraded {sockets : Sockets workers Leaf} (shaken : sockets.Shaken)
    (owned : sockets.Owned) {number : Fin workers} {socket : Socket}
    (seen : (sockets.holder number).upgrading = some socket) :
    ∃ connection ∈ sockets.upgraded, sockets.descriptors socket = some connection := by
  obtain ⟨_, _, owns⟩ := owned.live (Holder.known_of_upgrading seen)
  refine (owned.tied.named socket (shaken.upgrading number socket seen)).resolve_right fun closed => ?_
  rw [owns] at closed
  exact nomatch closed.1

theorem Shaken.handshake {sockets : Sockets workers Leaf} (shaken : sockets.Shaken)
    (owned : sockets.Owned) {number : Fin workers} {socket : Socket}
    {deleteSocketList : List Socket}
    (place : sockets.holder number = .worker deleteSocketList (.upgrades socket)) :
    ((sockets.send [socket] .handshake).hold number (.worker deleteSocketList .looks)).Shaken := by
  have seen : (sockets.holder number).upgrading = some socket := by
    rw [place]
    rfl
  have inside := Holder.known_of_upgrading seen
  obtain ⟨connection, _, owns⟩ := owned.live inside
  have sent : (sockets.send [socket] .handshake).sent =
      (connection, Sent.handshake) :: sockets.sent := by
    simp [Sockets.send, owns]
  constructor
  case first =>
    show HandshakeFirst (sockets.send [socket] .handshake).sent
    rw [sent]
    exact shaken.first
  case shaken =>
    intro other member connection' names
    show (connection', Sent.handshake) ∈ (sockets.send [socket] .handshake).sent ∨ _
    rw [sent]
    by_cases here : other = socket
    · rw [here] at names
      have same : sockets.descriptors socket = some connection' := names
      rw [owns] at same
      cases same
      exact Or.inl List.mem_cons_self
    · rcases shaken.shaken other member connection' names with answered | ⟨waiting, upgrades⟩
      · exact Or.inl (List.mem_cons_of_mem _ answered)
      · right
        apply seen_update ⟨waiting, upgrades⟩
        intro was
        have was : (sockets.holder number).upgrading = some other := was
        rw [seen] at was
        exact absurd (Option.some.inj was).symm here
  case upgrading =>
    intro other upgrading seen
    rcases seen_of_update seen with here | ⟨_, there⟩
    · exact nomatch here
    · exact shaken.upgrading other upgrading there
  case unshaken =>
    intro other upgrading connection' seen names
    show (connection', Sent.handshake) ∉ (sockets.send [socket] .handshake).sent
    rw [sent]
    rcases seen_of_update seen with here | ⟨differs, there⟩
    · exact nomatch here
    · intro answered
      rcases List.mem_cons.mp answered with same | old
      · cases same
        exact differs (owned.holder_unique owns names inside (Holder.known_of_upgrading there))
      · exact shaken.unshaken other upgrading connection' there names old
  case asking =>
    intro other asking connection' seen
    rcases seen_of_update seen with here | ⟨_, there⟩
    · exact nomatch here
    · exact shaken.asking other asking connection' there
  case answered =>
    intro connection' answered
    rcases List.mem_cons.mp (sent ▸ answered) with same | old
    · cases same
      obtain ⟨connection'', upgraded, names⟩ := shaken.names_upgraded owned seen
      rw [owns] at names
      cases names
      exact upgraded
    · exact shaken.answered connection' old

theorem Shaken.close {sockets : Sockets workers Leaf} (shaken : sockets.Shaken)
    (item : SocketItem) (status : Bool) : (sockets.close item status).Shaken := by
  have open' : ∀ socket connection,
      (sockets.close item status).descriptors socket = some connection →
        sockets.descriptors socket = some connection := by
    intro socket connection
      (names : Function.update sockets.descriptors item.socket none socket = some connection)
    rw [Function.update_apply] at names
    split_ifs at names
    exact names
  refine ⟨shaken.first, ?_, shaken.upgrading, ?_, ?_, shaken.answered⟩
  · intro socket member connection names
    exact shaken.shaken socket member connection (open' socket connection names)
  · intro number socket connection seen names
    exact shaken.unshaken number socket connection seen (open' socket connection names)
  · intro number socket connection seen names
    exact shaken.asking number socket connection seen (open' socket connection names)

theorem Shaken.deleteWebsocket {sockets : Sockets workers Leaf} (shaken : sockets.Shaken)
    {socket : Socket} (idle : ∀ number, (sockets.holder number).upgrading ≠ some socket) :
    (sockets.deleteWebsocket socket).Shaken := by
  refine ⟨shaken.first, ?_, ?_, shaken.unshaken, shaken.asking, shaken.answered⟩
  · intro other member
    exact shaken.shaken other (mem_deleteSocket.mp member).1
  · intro number other seen
    refine mem_deleteSocket.mpr ⟨shaken.upgrading number other seen, ?_⟩
    rintro rfl
    exact idle number seen

theorem Shaken.deleteItem {sockets : Sockets workers Leaf} (shaken : sockets.Shaken)
    (number : Fin workers) (socket : Socket) : (sockets.deleteItem number socket).Shaken :=
  ⟨shaken.first, shaken.shaken, shaken.upgrading, shaken.unshaken, shaken.asking, shaken.answered⟩

theorem Owned.not_unlisted {sockets : Sockets workers Leaf} (owned : sockets.Owned)
    {number other : Fin workers} {socket : Socket} {item : SocketItem}
    {deleteSocketList : List Socket}
    (held : sockets.holder number = .worker deleteSocketList .looks)
    (found : sockets.Finds number socket item) :
    (sockets.holder other).unlisted ≠ some socket := by
  intro unlisted
  have stays : (sockets.holder number).leaving ≠ some item.socket := by
    rw [held]
    exact nofun
  have live : item.entry ∈ sockets.registry.live number :=
    mem_live_iff.mpr ⟨item, found.1, stays, rfl⟩
  obtain ⟨connection, live', _⟩ := owned.live (Holder.known_of_unlisted unlisted)
  rw [← (owned.kept.sound.unique live live' found.2).1, held] at unlisted
  exact nomatch unlisted

theorem Shaken.broadcast {sockets : Sockets workers Leaf} (shaken : sockets.Shaken)
    (outside : ∀ number, (sockets.holder number).upgrading = none) :
    sockets.broadcast.Shaken := by
  have kept : ∀ connection, (connection, Sent.handshake) ∈ sockets.broadcast.sent →
      (connection, Sent.handshake) ∈ sockets.sent := by
    intro connection answered
    refine (List.mem_append.mp answered).resolve_left fun new => ?_
    obtain ⟨_, _, same⟩ := List.mem_map.mp new
    exact nomatch same
  refine ⟨?_, ?_, shaken.upgrading, ?_, shaken.asking, ?_⟩
  · refine handshakeFirst_frames.mpr ⟨?_, shaken.first⟩
    intro connection receives
    obtain ⟨socket, member, names⟩ := List.mem_filterMap.mp receives
    rcases shaken.shaken socket member connection names with answered | ⟨number, seen⟩
    · exact answered
    · rw [outside number] at seen
      exact nomatch seen
  · intro socket member connection names
    exact (shaken.shaken socket member connection names).imp_left (List.mem_append_right _)
  · intro number socket connection seen names answered
    exact shaken.unshaken number socket connection seen names (kept connection answered)
  · intro connection answered
    exact shaken.answered connection (kept connection answered)

/-- In the middle of an upgrade a broadcast reaches the new websocket too early. -/
theorem Shaken.not_handshakeFirst_broadcast {sockets : Sockets workers Leaf}
    (shaken : sockets.Shaken) (owned : sockets.Owned) {number : Fin workers} {socket : Socket}
    (seen : (sockets.holder number).upgrading = some socket) :
    ¬HandshakeFirst sockets.broadcast.sent := by
  obtain ⟨connection, _, owns⟩ := owned.live (Holder.known_of_upgrading seen)
  intro first
  refine shaken.unshaken number socket connection seen owns
    ((handshakeFirst_frames.mp first).1 connection ?_)
  exact List.mem_filterMap.mpr ⟨socket, shaken.upgrading number socket seen, owns⟩

end Sockets

open Sockets

theorem SocketStep.shaken {turn : SocketTurn workers Leaf} {before after : Sockets workers Leaf}
    (taken : SocketStep leafOf turn before after) (owned : before.Owned) (shaken : before.Shaken)
    (inTime : ReusesInTime turn before) (outside : BroadcastsOutside turn before) :
    after.Shaken := by
  have asked : ∀ number holder, before.holder number = holder → ∀ socket,
      holder.asking = some socket → ∀ connection, before.descriptors socket = some connection →
        connection ∉ before.upgraded := by
    rintro number holder rfl socket seen connection names
    exact shaken.asking number socket connection seen names
  cases taken with
  | accept _ free _ _ | acceptZero _ free =>
      have allocated := shaken.allocate owned free inTime
      exact ⟨allocated.first, allocated.shaken, allocated.upgrading, allocated.unshaken,
        allocated.asking, allocated.answered⟩
  | insert _ _ | refresh _ _ =>
      exact ⟨shaken.first, shaken.shaken, shaken.upgrading, shaken.unshaken, shaken.asking,
        shaken.answered⟩
  | enter held | handled held | mapDeleteSocketList held
  | deleteSocketL held _ | notFound held _ | leave held | sweep held _ | visit held | expire held _ _
  | visited held | swept held => exact shaken.hold held rfl rfl fun _ seen => nomatch seen
  | @event _ number socket item deleteSocketList held found =>
      refine shaken.hold held rfl rfl ?_
      intro asking seen connection names upgraded
      by_cases listed : socket ∈ before.websockets
      · rw [decide_eq_true listed] at seen
        exact nomatch seen
      · rw [decide_eq_false listed] at seen
        cases seen
        rcases owned.tied.listed connection upgraded socket names with member | ⟨other, unlisted⟩
        · exact listed member
        · exact owned.not_unlisted held found unlisted
  | discard held =>
      refine shaken.hold held rfl rfl fun socket seen => ?_
      rw [Holder.asking_worker _ _ _] at seen
      exact asked _ _ held socket seen
  | upgrade held => exact shaken.upgrade owned held
  | handshake held => exact shaken.handshake owned held
  | close held _ | closeExpired held _ =>
      exact (shaken.close _ _).hold held rfl rfl fun _ seen => nomatch seen
  | deleteItem held | deleteExpired held =>
      exact (shaken.deleteItem _ _).hold held rfl rfl fun _ seen => nomatch seen
  | deleteWebsocket held =>
      refine (shaken.deleteWebsocket ?_).hold held rfl rfl fun _ seen => nomatch seen
      intro number seen
      obtain ⟨connection, upgraded, names⟩ := shaken.names_upgraded owned seen
      exact owned.tied.freed _ _ (by rw [held]; rfl) connection upgraded names
  | unlistExpired held =>
      refine (shaken.deleteWebsocket ?_).hold held rfl rfl fun _ seen => nomatch seen
      intro number seen
      have inside := Holder.known_of_upgrading seen
      rw [owned.known_unique inside (by rw [held]; exact List.mem_cons_self), held] at seen
      exact nomatch seen
  | broadcast => exact shaken.broadcast (outside rfl)

theorem Sockets.shaken_start : (start workers Leaf).Shaken where
  first := trivial
  shaken := nofun
  upgrading := nofun
  unshaken := nofun
  asking := nofun
  answered := nofun

/-- The handshakes come first in every run whose broadcasts stay outside the upgrades;
and a broadcast that does not comes before a handshake. Descriptors are reused in time. -/
theorem handshakeFirst_of_broadcastsOutside (workers : Nat) (Leaf : Type)
    (leafOf : Socket → Leaf) : ∀ sockets : Sockets workers Leaf,
      Reached (SocketStep leafOf)
        (fun turn sockets => ReusesInTime turn sockets ∧ BroadcastsOutside turn sockets)
        (start workers Leaf) sockets →
      HandshakeFirst sockets.sent ∧
        (¬BroadcastsOutside .broadcast sockets → ¬HandshakeFirst sockets.broadcast.sent) := by
  intro sockets reached
  have kept : sockets.Owned ∧ sockets.Shaken := by
    apply reached.invariant fun sockets => sockets.Owned ∧ sockets.Shaken
    · exact ⟨owned_start, shaken_start⟩
    · intro turn before after kept condition taken
      exact ⟨kept.1.step condition.1 taken,
        taken.shaken kept.1 kept.2 condition.1 condition.2⟩
  refine ⟨kept.2.first, ?_⟩
  intro inside
  simp only [BroadcastsOutside, forall_const] at inside
  push Not at inside
  obtain ⟨number, upgrading⟩ := inside
  obtain ⟨socket, seen⟩ := Option.ne_none_iff_exists'.mp upgrading
  exact kept.2.not_handshakeFirst_broadcast kept.1 seen

/-- A broadcast behind the 101 response comes second, and one in front of it comes first. -/
theorem handshakeFirst_of_broadcastsOutside_midUpgrade :
    (((midUpgrade.send [5] .handshake).hold 0 (.worker [] .looks)).broadcast.sent =
        [(0, .frame), (0, .handshake)] ∧
      HandshakeFirst ((midUpgrade.send [5] .handshake).hold 0 (.worker [] .looks)).broadcast.sent) ∧
    ¬HandshakeFirst midUpgrade.broadcast.sent := by
  let answered := (midUpgrade.send [5] .handshake).hold 0 (.worker [] .looks)
  have handshake : SocketStep id (.handshake 0) midUpgrade answered := .handshake rfl
  have reached : Reached (SocketStep id)
      (fun turn sockets => ReusesInTime turn sockets ∧ BroadcastsOutside turn sockets)
      (start 1 Socket) midUpgrade :=
    midUpgrade_reached fun _ _ inTime other => ⟨inTime, fun same => absurd same other⟩
  have outside : ReusesInTime .broadcast answered ∧ BroadcastsOutside .broadcast answered := by
    refine ⟨trivial, fun _ number => ?_⟩
    rw [Subsingleton.elim number 0]
    rfl
  have inside : ¬BroadcastsOutside .broadcast midUpgrade := fun outside => nomatch outside rfl 0
  have apart : ReusesInTime (.handshake 0) midUpgrade ∧ BroadcastsOutside (.handshake 0) midUpgrade :=
    ⟨trivial, nofun⟩
  have responds := reached.next apart handshake
  refine ⟨⟨rfl, ?_⟩, ?_⟩
  · exact (handshakeFirst_of_broadcastsOutside 1 Socket id _
      (responds.next outside .broadcast)).1
  · exact (handshakeFirst_of_broadcastsOutside 1 Socket id _ reached).2 inside

/-- A broadcast between the insertion of a socket and its 101 response. -/
theorem frame_before_handshake : ¬∀ (workers : Nat) (Leaf : Type) (leafOf : Socket → Leaf)
    (sockets : Sockets workers Leaf),
      Reached (SocketStep leafOf) ReusesInTime (start workers Leaf) sockets →
        HandshakeFirst sockets.sent := by
  intro first
  have upgraded : Reached (SocketStep id) ReusesInTime (start 1 Socket) midUpgrade :=
    midUpgrade_reached fun _ _ inTime _ => inTime
  have sent := first 1 Socket id midUpgrade.broadcast (reached_next upgraded .broadcast trivial)
  exact nomatch sent.1

end Etracker
