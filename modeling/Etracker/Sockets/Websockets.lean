import Etracker.Sockets.Known

namespace Etracker

open Foundation Foundation.Runs

/-- The socket that a worker has closed and not yet taken off `websockets`. -/
def Holder.unlisting {Leaf : Type} : Holder Leaf → Option Socket
  | .worker _ (.closed socket) | .worker _ (.unlists socket) => some socket
  | _ => none

/-- The socket that the collector has taken off `websockets` and is about to close. -/
def Holder.unlisted {Leaf : Type} : Holder Leaf → Option Socket
  | .collector _ (.unlisted socket) => some socket
  | _ => none

/-- The socket of a request that may ask for an upgrade: it was not on `websockets`. -/
def Holder.asking {Leaf : Type} : Holder Leaf → Option Socket
  | .worker _ (.handles socket false) => some socket
  | _ => none

theorem Holder.known_of_unlisted {Leaf : Type} {holder : Holder Leaf} {socket : Socket}
    (unlisted : holder.unlisted = some socket) : socket ∈ holder.known := by
  cases holder with
  | nobody => exact nomatch unlisted
  | worker _ _ => exact nomatch unlisted
  | collector _ place =>
      cases place <;> cases unlisted
      exact List.mem_cons_self

variable {workers : Nat} {Leaf : Type} {leafOf : Socket → Leaf}

namespace Sockets

/-- Every frame has reached a connection that has upgraded itself, and a connection that
has is listed until the collector is about to close it or its descriptor is closed. -/
structure WellListed (sockets : Sockets workers Leaf) : Prop where
  frames : ∀ connection, (connection, Sent.frame) ∈ sockets.sent → connection ∈ sockets.upgraded
  stays : ∀ connection ∈ sockets.upgraded, ∀ socket,
    sockets.descriptors socket = some connection →
      socket ∈ sockets.websockets ∨ ∃ number, (sockets.holder number).unlisted = some socket

end Sockets

/-- `accept` does not return a number that is still on `websockets`, and none is put there that a
worker has closed before and is about to take off `websockets`. -/
def ReusesInTime (turn : SocketTurn workers Leaf) (sockets : Sockets workers Leaf) : Prop :=
  match turn with
  | .accept socket => socket ∉ sockets.websockets
  | .upgrade number => ∀ other socket, (sockets.holder other).unlisting = some socket →
      (sockets.holder number).asking ≠ some socket
  | _ => True

namespace Sockets

/-- How `websockets` is tied to the descriptors. -/
structure Tied (sockets : Sockets workers Leaf) : Prop where
  freed : ∀ number socket, (sockets.holder number).unlisting = some socket →
    ∀ connection ∈ sockets.upgraded, sockets.descriptors socket ≠ some connection
  named : ∀ socket ∈ sockets.websockets,
    (∃ connection ∈ sockets.upgraded, sockets.descriptors socket = some connection) ∨
      sockets.descriptors socket = none ∧ ∃ number, (sockets.holder number).unlisting = some socket
  listed : ∀ connection ∈ sockets.upgraded, ∀ socket,
    sockets.descriptors socket = some connection →
      socket ∈ sockets.websockets ∨ ∃ number, (sockets.holder number).unlisted = some socket
  gone : ∀ number socket, (sockets.holder number).unlisted = some socket →
    socket ∉ sockets.websockets
  numbered : ∀ connection ∈ sockets.upgraded, connection < sockets.connections
  frames : ∀ connection, (connection, Sent.frame) ∈ sockets.sent → connection ∈ sockets.upgraded

section Holders

variable {holders : Fin workers → Holder Leaf} {number : Fin workers} {holder : Holder Leaf}
  {sees : Holder Leaf → Option Socket} {socket : Socket}

theorem seen_of_update {other : Fin workers}
    (seen : sees (Function.update holders number holder other) = some socket) :
    sees holder = some socket ∨ other ≠ number ∧ sees (holders other) = some socket := by
  by_cases here : other = number
  · rw [here, Function.update_self] at seen
    exact Or.inl seen
  · rw [Function.update_of_ne here] at seen
    exact Or.inr ⟨here, seen⟩

theorem seen_update (seen : ∃ other, sees (holders other) = some socket)
    (moves : sees (holders number) = some socket → sees holder = some socket) :
    ∃ other, sees (Function.update holders number holder other) = some socket := by
  obtain ⟨other, seen⟩ := seen
  refine ⟨other, ?_⟩
  by_cases here : other = number
  · rw [here, Function.update_self]
    exact moves (here ▸ seen)
  · rwa [Function.update_of_ne here]

end Holders

theorem Tied.hold {sockets : Sockets workers Leaf} (tied : sockets.Tied) {number : Fin workers}
    {place holder : Holder Leaf} (held : sockets.holder number = place)
    (unlisting : holder.unlisting = place.unlisting) (unlisted : holder.unlisted = place.unlisted) :
    (sockets.hold number holder).Tied := by
  have moves : ∀ socket, (sockets.holder number).unlisting = some socket →
      holder.unlisting = some socket := by
    intro socket seen
    rw [unlisting, ← held, seen]
  have moves' : ∀ socket, (sockets.holder number).unlisted = some socket →
      holder.unlisted = some socket := by
    intro socket seen
    rw [unlisted, ← held, seen]
  refine ⟨?_, ?_, ?_, ?_, tied.numbered, tied.frames⟩
  · intro other socket seen
    rcases seen_of_update seen with here | ⟨_, there⟩
    · exact tied.freed number socket (by rw [held, ← unlisting, here])
    · exact tied.freed other socket there
  · intro socket member
    exact (tied.named socket member).imp_right fun seen =>
      ⟨seen.1, seen_update seen.2 (moves socket)⟩
  · intro connection upgraded socket owned
    exact (tied.listed connection upgraded socket owned).imp_right fun seen =>
      seen_update seen (moves' socket)
  · intro other socket seen
    rcases seen_of_update seen with here | ⟨_, there⟩
    · exact tied.gone number socket (by rw [held, ← unlisted, here])
    · exact tied.gone other socket there

structure Owned (sockets : Sockets workers Leaf) : Prop where
  kept : sockets.Kept
  known : sockets.Known
  tied : sockets.Tied

theorem Owned.live {sockets : Sockets workers Leaf} (owned : sockets.Owned) {number : Fin workers}
    {socket : Socket} (inside : socket ∈ (sockets.holder number).known) :
    ∃ connection, (socket, connection) ∈ sockets.registry.live number ∧
      sockets.descriptors socket = some connection := by
  obtain ⟨item, member, rfl⟩ := List.mem_map.mp (owned.known.present number socket inside)
  have stays := Holder.leaving_of_known (owned.known.dropped number) inside
  have live : item.entry ∈ sockets.registry.live number :=
    mem_live_iff.mpr ⟨item, member, stays, rfl⟩
  exact ⟨item.connection, live, owned.kept.sound.named _ _ live⟩

theorem Owned.known_unique {sockets : Sockets workers Leaf} (owned : sockets.Owned)
    {number other : Fin workers} {socket : Socket}
    (inside : socket ∈ (sockets.holder number).known)
    (inside' : socket ∈ (sockets.holder other).known) : number = other := by
  obtain ⟨connection, live, _⟩ := owned.live inside
  obtain ⟨connection', live', _⟩ := owned.live inside'
  exact (owned.kept.sound.unique live live' rfl).1

theorem Owned.allocate {sockets : Sockets workers Leaf} (owned : sockets.Owned) {socket : Socket}
    (fresh : socket ∉ sockets.websockets) : (sockets.allocate socket).Tied := by
  have tied := owned.tied
  have unlisted : ∀ other ∈ sockets.websockets, other ≠ socket := by
    rintro other member rfl
    exact fresh member
  -- The new connection has not upgraded itself.
  have older : ∀ connection ∈ sockets.upgraded, ∀ other,
      (sockets.allocate socket).descriptors other = some connection →
        sockets.descriptors other = some connection := by
    intro connection upgraded other names
    simp only [Sockets.allocate, Function.update_apply] at names
    split_ifs at names with here
    · cases names
      exact absurd (tied.numbered _ upgraded) (lt_irrefl _)
    · exact names
  refine ⟨?_, ?_, ?_, tied.gone, ?_, tied.frames⟩
  · intro number other seen connection upgraded names
    exact tied.freed number other seen connection upgraded (older connection upgraded other names)
  · intro other member
    simpa [Sockets.allocate, Function.update_of_ne (unlisted other member)] using
      tied.named other member
  · intro connection upgraded other names
    exact tied.listed connection upgraded other (older connection upgraded other names)
  · intro connection upgraded
    exact Nat.lt_succ_of_lt (tied.numbered connection upgraded)

theorem Owned.upgrade {sockets : Sockets workers Leaf} (owned : sockets.Owned)
    {number : Fin workers} {socket : Socket} {deleteSocketList : List Socket}
    (place : sockets.holder number = .worker deleteSocketList (.handles socket false))
    (clear : ∀ other, (sockets.holder other).unlisting ≠ some socket) :
    (sockets.upgrade socket).Tied := by
  have tied := owned.tied
  have inside : socket ∈ (sockets.holder number).known := by
    rw [place]
    exact List.mem_cons_self
  obtain ⟨connection, _, owns⟩ := owned.live inside
  have upgraded : (sockets.upgrade socket).upgraded = connection :: sockets.upgraded := by
    show (sockets.descriptors socket).toList ++ sockets.upgraded = _
    rw [owns]
    rfl
  refine ⟨?_, ?_, ?_, ?_, ?_, ?_⟩
  · intro other closed seen connection' member names
    rw [upgraded] at member
    rcases List.mem_cons.mp member with rfl | old
    · rw [owned.kept.sound.single _ _ _ names owns] at seen
      exact clear other seen
    · exact tied.freed other closed seen connection' old names
  · intro other member
    rw [upgraded]
    rcases mem_setSocket.mp member with rfl | old
    · exact Or.inl ⟨connection, List.mem_cons_self, owns⟩
    · refine (tied.named other old).imp_left ?_
      rintro ⟨connection', before, names⟩
      exact ⟨connection', List.mem_cons_of_mem _ before, names⟩
  · intro connection' member other names
    rw [upgraded] at member
    rcases List.mem_cons.mp member with rfl | old
    · left
      rw [owned.kept.sound.single _ _ _ names owns]
      exact mem_setSocket.mpr (Or.inl rfl)
    · exact (tied.listed _ old other names).imp_left fun listed => mem_setSocket.mpr (Or.inr listed)
  · intro number' other (seen : (sockets.holder number').unlisted = some other) member
    rcases mem_setSocket.mp member with rfl | old
    · rw [owned.known_unique (Holder.known_of_unlisted seen) inside, place] at seen
      exact nomatch seen
    · exact tied.gone number' other seen old
  · intro connection' member
    rw [upgraded] at member
    rcases List.mem_cons.mp member with rfl | old
    · exact owned.kept.numbered.open_lt _ _ owns
    · exact tied.numbered _ old
  · intro connection' framed
    rw [upgraded]
    exact List.mem_cons_of_mem _ (tied.frames _ framed)

theorem Tied.close {sockets : Sockets workers Leaf} (tied : sockets.Tied) {number : Fin workers}
    {place holder : Holder Leaf} {socket : Socket} {item : SocketItem}
    (found : sockets.Finds number socket item) (held : sockets.holder number = place)
    (listing : place.unlisting = none) (waited : ∀ other, place.unlisted = some other →
      other = socket) (unlists : ∀ other, holder.unlisting = some other → other = socket)
    (unlisted : holder.unlisted = none)
    (covered : socket ∈ sockets.websockets → holder.unlisting = some socket) (status : Bool) :
    ((sockets.close item status).hold number holder).Tied := by
  obtain ⟨_, rfl⟩ := found
  refine ⟨?_, ?_, ?_, ?_, tied.numbered, tied.frames⟩
  · intro other closed seen connection upgraded
      (names : Function.update sockets.descriptors item.socket none closed = some connection)
    rw [Function.update_apply] at names
    split_ifs at names with here
    rcases seen_of_update seen with same | ⟨_, there⟩
    · exact here (unlists closed same)
    · exact tied.freed other closed there connection upgraded names
  · intro other member
    show (∃ connection ∈ sockets.upgraded,
      Function.update sockets.descriptors item.socket none other = some connection) ∨
        Function.update sockets.descriptors item.socket none other = none ∧ _
    by_cases here : other = item.socket
    · right
      rw [here, Function.update_self]
      refine ⟨rfl, number, ?_⟩
      show (Function.update sockets.holder number holder number).unlisting = _
      rw [Function.update_self]
      exact covered (here ▸ member)
    · rw [Function.update_of_ne here]
      refine (tied.named other member).imp_right fun seen => ⟨seen.1, seen_update seen.2 ?_⟩
      intro (before : (sockets.holder number).unlisting = some other)
      rw [held, listing] at before
      exact nomatch before
  · intro connection upgraded other
      (names : Function.update sockets.descriptors item.socket none other = some connection)
    rw [Function.update_apply] at names
    split_ifs at names with here
    refine (tied.listed connection upgraded other names).imp_right fun seen => seen_update seen ?_
    intro (before : (sockets.holder number).unlisted = some other)
    rw [held] at before
    exact absurd (waited other before) here
  · intro other closed seen
    rcases seen_of_update seen with same | ⟨_, there⟩
    · rw [unlisted] at same
      exact nomatch same
    · exact tied.gone other closed there

theorem Tied.deleteWebsocket {sockets : Sockets workers Leaf} (tied : sockets.Tied)
    {number : Fin workers} {place holder : Holder Leaf} {socket : Socket}
    (held : sockets.holder number = place)
    (listing : ∀ other, place.unlisting = some other → other = socket)
    (waited : place.unlisted = none) (unlisting : holder.unlisting = none)
    (unlisted : ∀ other, holder.unlisted = some other → other = socket)
    (covered : ∀ connection ∈ sockets.upgraded, sockets.descriptors socket = some connection →
      holder.unlisted = some socket) :
    ((sockets.deleteWebsocket socket).hold number holder).Tied := by
  refine ⟨?_, ?_, ?_, ?_, tied.numbered, tied.frames⟩
  · intro other closed seen
    rcases seen_of_update seen with same | ⟨_, there⟩
    · rw [unlisting] at same
      exact nomatch same
    · exact tied.freed other closed there
  · intro other member
    obtain ⟨old, differs⟩ := mem_deleteSocket.mp member
    refine (tied.named other old).imp_right fun seen => ⟨seen.1, seen_update seen.2 ?_⟩
    intro (before : (sockets.holder number).unlisting = some other)
    rw [held] at before
    exact absurd (listing other before) differs
  · intro connection upgraded other names
    by_cases here : other = socket
    · right
      refine ⟨number, ?_⟩
      show (Function.update sockets.holder number holder number).unlisted = _
      rw [Function.update_self, here]
      exact covered connection upgraded (here ▸ names)
    · rcases tied.listed connection upgraded other names with listed | seen
      · exact Or.inl (mem_deleteSocket.mpr ⟨listed, here⟩)
      · right
        apply seen_update seen
        intro (before : (sockets.holder number).unlisted = some other)
        rw [held, waited] at before
        exact nomatch before
  · intro other closed seen member
    obtain ⟨old, differs⟩ := mem_deleteSocket.mp member
    rcases seen_of_update seen with same | ⟨_, there⟩
    · exact differs (unlisted closed same)
    · exact tied.gone other closed there old

theorem Tied.deleteItem {sockets : Sockets workers Leaf} (tied : sockets.Tied)
    (number : Fin workers) (socket : Socket) : (sockets.deleteItem number socket).Tied :=
  ⟨tied.freed, tied.named, tied.listed, tied.gone, tied.numbered, tied.frames⟩

theorem Tied.handshake {sockets : Sockets workers Leaf} (tied : sockets.Tied)
    (receivers : List Socket) : (sockets.send receivers .handshake).Tied := by
  refine ⟨tied.freed, tied.named, tied.listed, tied.gone, tied.numbered, ?_⟩
  intro connection framed
  rcases List.mem_append.mp framed with new | old
  · obtain ⟨_, _, same⟩ := List.mem_map.mp new
    exact nomatch same
  · exact tied.frames connection old

theorem Owned.broadcast {sockets : Sockets workers Leaf} (owned : sockets.Owned) :
    sockets.broadcast.Tied := by
  have tied := owned.tied
  refine ⟨tied.freed, tied.named, tied.listed, tied.gone, tied.numbered, ?_⟩
  intro connection framed
  rcases List.mem_append.mp framed with new | old
  · obtain ⟨receiver, reached, same⟩ := List.mem_map.mp new
    cases same
    obtain ⟨socket, member, names⟩ := List.mem_filterMap.mp reached
    rcases tied.named socket member with ⟨connection', upgraded, names'⟩ | ⟨closed, _⟩
    · rw [names] at names'
      cases names'
      exact upgraded
    · rw [closed] at names
      exact nomatch names
  · exact tied.frames connection old

end Sockets

open Sockets

theorem SocketStep.tied {turn : SocketTurn workers Leaf} {before after : Sockets workers Leaf}
    (taken : SocketStep leafOf turn before after) (owned : before.Owned)
    (inTime : ReusesInTime turn before) : after.Tied := by
  have tied := owned.tied
  cases taken with
  | accept _ _ _ _ =>
      have allocated := owned.allocate inTime
      exact ⟨allocated.freed, allocated.named, allocated.listed, allocated.gone,
        allocated.numbered, allocated.frames⟩
  | acceptZero _ _ =>
      have allocated := owned.allocate inTime
      exact ⟨allocated.freed, allocated.named, allocated.listed, allocated.gone,
        allocated.numbered, allocated.frames⟩
  | insert _ _ | refresh _ _ =>
      exact ⟨tied.freed, tied.named, tied.listed, tied.gone, tied.numbered, tied.frames⟩
  | enter held | event held _ | discard held | handled held | mapDeleteSocketList held
  | deleteSocketL held _ | leave held | sweep held _ | visit held | expire held _ _
  | visited held | swept held => exact tied.hold held rfl rfl
  | upgrade held =>
      refine (owned.upgrade held fun other closed => ?_).hold held rfl rfl
      exact inTime other _ closed (by rw [held]; rfl)
  | handshake held => exact (tied.handshake _).hold held rfl rfl
  | @notFound _ number socket _ held missed =>
      have inside : socket ∈ (before.holder number).known := by
        rw [held]
        exact List.mem_cons_self
      obtain ⟨item, member, same⟩ := List.mem_map.mp (owned.known.present _ _ inside)
      exact absurd same (missed item member)
  | close held found =>
      refine tied.close found held rfl (fun _ seen => nomatch seen) ?_ rfl (fun _ => rfl) _
      rintro other ⟨⟩
      rfl
  | closeExpired held found =>
      refine tied.close found held rfl ?_ ?_ rfl ?_ _
      · rintro other ⟨⟩
        rfl
      · exact fun _ seen => nomatch seen
      · intro listed
        exact absurd listed (tied.gone _ _ (by rw [held]; rfl))
  | deleteItem held | deleteExpired held => exact (tied.deleteItem _ _).hold held rfl rfl
  | deleteWebsocket held =>
      refine tied.deleteWebsocket held ?_ rfl rfl (fun _ seen => nomatch seen) ?_
      · rintro other ⟨⟩
        rfl
      · intro connection upgraded names
        exact absurd names (tied.freed _ _ (by rw [held]; rfl) connection upgraded)
  | unlistExpired held =>
      refine tied.deleteWebsocket held (fun _ seen => nomatch seen) rfl rfl ?_ fun _ _ _ => rfl
      rintro other ⟨⟩
      rfl
  | broadcast => exact owned.broadcast

namespace Sockets

theorem owned_start : (start workers Leaf).Owned where
  kept := kept_start
  known := ⟨nofun, fun _ => trivial⟩
  tied := ⟨nofun, nofun, nofun, nofun, nofun, nofun⟩

theorem Owned.step {turn : SocketTurn workers Leaf} {before after : Sockets workers Leaf}
    (owned : before.Owned) (inTime : ReusesInTime turn before)
    (taken : SocketStep leafOf turn before after) : after.Owned where
  kept := owned.kept.step taken
  known := taken.known owned.known
  tied := taken.tied owned inTime

theorem Owned.of_reached {sockets : Sockets workers Leaf}
    (reached : Reached (SocketStep leafOf) ReusesInTime (start workers Leaf) sockets) :
    sockets.Owned :=
  reached.invariant Owned owned_start fun _ _ _ owned inTime taken => owned.step inTime taken

theorem Owned.not_wellListed_broadcast {before after : Sockets workers Leaf} (owned : before.Owned)
    {socket : Socket} (member : socket ∈ before.websockets)
    (owns : after.descriptors socket = some before.connections)
    (websockets : after.websockets = before.websockets)
    (upgraded : after.upgraded = before.upgraded) : ¬after.broadcast.WellListed := by
  intro listed
  have receives : (before.connections, Sent.frame) ∈ after.broadcast.sent := by
    refine List.mem_append_left _ (List.mem_map.mpr ⟨before.connections, ?_, rfl⟩)
    exact List.mem_filterMap.mpr ⟨socket, websockets ▸ member, owns⟩
  have foreign : before.connections ∈ before.upgraded := upgraded ▸ listed.frames _ receives
  exact absurd (owned.tied.numbered _ foreign) (lt_irrefl _)

/-- A worker takes the number of a connection off `websockets` that has upgraded itself. -/
theorem not_wellListed_deleteWebsocket {sockets : Sockets workers Leaf} {other : Fin workers}
    {socket : Socket} {connection : Connection} {deleteSocketList : List Socket}
    (upgraded : connection ∈ sockets.upgraded)
    (owns : sockets.descriptors socket = some connection)
    (open' : ∀ number, (sockets.holder number).unlisted ≠ some socket) :
    ¬((sockets.deleteWebsocket socket).hold other
      (.worker deleteSocketList .deletes)).WellListed := by
  intro listed
  rcases listed.stays connection upgraded socket owns with member | ⟨number, seen⟩
  · exact (mem_deleteSocket.mp member).2 rfl
  · rcases seen_of_update seen with here | ⟨_, there⟩
    · exact nomatch here
    · exact open' number there

/-- The number that a worker is about to take off is put on `websockets` for another connection. -/
theorem Owned.upgrade_misses {sockets : Sockets workers Leaf} (owned : sockets.Owned)
    {number other : Fin workers} {socket : Socket} {deleteSocketList : List Socket}
    (place : sockets.holder number = .worker deleteSocketList (.handles socket false))
    (closed : (sockets.holder other).unlisting = some socket) :
    ∃ later, Reached (SocketStep leafOf) (fun _ _ => True)
      ((sockets.upgrade socket).hold number (.worker deleteSocketList (.upgrades socket))) later ∧
        ¬later.WellListed := by
  have inside : socket ∈ (sockets.holder number).known := by
    rw [place]
    exact List.mem_cons_self
  obtain ⟨connection, _, owns⟩ := owned.live inside
  let after := (sockets.upgrade socket).hold number (.worker deleteSocketList (.upgrades socket))
  have upgraded : connection ∈ after.upgraded := by
    show connection ∈ (sockets.descriptors socket).toList ++ sockets.upgraded
    rw [owns]
    exact List.mem_cons_self
  have open' : ∀ number', (after.holder number').unlisted ≠ some socket := by
    intro number' seen
    rcases seen_of_update seen with here | ⟨differs, there⟩
    · exact nomatch here
    · exact differs (owned.known_unique (Holder.known_of_unlisted there) inside)
  have differs : other ≠ number := by
    rintro rfl
    rw [place] at closed
    exact nomatch closed
  have waits : after.holder other = sockets.holder other := Function.update_of_ne differs _ _
  -- The other worker goes on to `deleteWebsocket`, past `deleteItem` if that is still to come.
  cases holds : sockets.holder other with
  | nobody =>
      rw [holds] at closed
      exact nomatch closed
  | collector _ _ =>
      rw [holds] at closed
      exact nomatch closed
  | worker waiting place' =>
      rw [holds] at closed waits
      cases place' with
      | closed closing =>
          cases closed
          let deleted := (after.deleteItem other socket).hold other
            (.worker waiting (.unlists socket))
          have holds' : deleted.holder other = .worker waiting (.unlists socket) :=
            Function.update_self _ _ _
          have delete : SocketStep leafOf (.deleteItem other) after deleted := .deleteItem waits
          have unlist : SocketStep leafOf (.deleteWebsocket other) deleted
            ((deleted.deleteWebsocket socket).hold other (.worker waiting .deletes)) :=
              .deleteWebsocket holds'
          refine ⟨_, (Reached.start.next trivial delete).next trivial unlist, ?_⟩
          refine not_wellListed_deleteWebsocket upgraded owns fun number' seen => ?_
          rcases seen_of_update seen with here | ⟨_, there⟩
          · exact nomatch here
          · exact open' number' there
      | unlists closing =>
          cases closed
          have unlist : SocketStep leafOf (.deleteWebsocket other) after
            ((after.deleteWebsocket socket).hold other (.worker waiting .deletes)) :=
              .deleteWebsocket waits
          exact ⟨_, Reached.start.next trivial unlist,
            not_wellListed_deleteWebsocket upgraded owns open'⟩
      | looks | handles _ _ | upgrades _ | deletes | closes _ => exact nomatch closed

/-- After a step that misses the condition some thread makes a frame go astray, or an upgraded
connection unlisted. -/
theorem Owned.misses {turn : SocketTurn workers Leaf} {before after : Sockets workers Leaf}
    (owned : before.Owned) (taken : SocketStep leafOf turn before after)
    (missed : ¬ReusesInTime turn before) :
    ∃ later, Reached (SocketStep leafOf) (fun _ _ => True) after later ∧ ¬later.WellListed := by
  cases taken with
  | accept _ _ _ _ =>
      have member := not_not.mp missed
      refine ⟨_, Reached.start.next trivial .broadcast, ?_⟩
      exact owned.not_wellListed_broadcast member (Function.update_self _ _ _) rfl rfl
  | acceptZero _ _ =>
      have member := not_not.mp missed
      refine ⟨_, Reached.start.next trivial .broadcast, ?_⟩
      refine owned.not_wellListed_broadcast member ?_ rfl rfl
      show Function.update before.descriptors 0 (some before.connections) 0 = _
      exact Function.update_self _ _ _
  | upgrade held =>
      simp only [ReusesInTime, not_forall, not_not] at missed
      obtain ⟨other, socket, closed, asks⟩ := missed
      rw [held] at asks
      cases asks
      exact owned.upgrade_misses held closed
  | _ => exact absurd trivial missed

end Sockets

/-- No run lists a foreign connection in which descriptors are reused in time; and every reuse at
another time can be followed by steps to a state that does. -/
theorem wellListed_of_reusesInTime (workers : Nat) (Leaf : Type) (leafOf : Socket → Leaf) :
    (∀ sockets : Sockets workers Leaf,
      Reached (SocketStep leafOf) ReusesInTime (start workers Leaf) sockets →
        sockets.WellListed) ∧
    ∀ turn (before after : Sockets workers Leaf),
      Reached (SocketStep leafOf) ReusesInTime (start workers Leaf) before →
        SocketStep leafOf turn before after → ¬ReusesInTime turn before →
          ∃ later, Reached (SocketStep leafOf) (fun _ _ => True) after later ∧
            ¬later.WellListed := by
  constructor
  · intro sockets reached
    have owned := Owned.of_reached reached
    exact ⟨owned.tied.frames, owned.tied.listed⟩
  · intro turn before after reached taken missed
    exact (Owned.of_reached reached).misses taken missed

namespace Sockets

theorem reached_next {before after : Sockets workers Leaf} {turn : SocketTurn workers Leaf}
    (reached : Reached (SocketStep leafOf) ReusesInTime (start workers Leaf) before)
    (taken : SocketStep leafOf turn before after) (inTime : ReusesInTime turn before) :
    Reached (SocketStep leafOf) ReusesInTime (start workers Leaf) after :=
  reached.next inTime taken

abbrev onlyWorker : Fin 1 := Fin.last 0

def midUpgrade : Sockets 1 Socket :=
  (((((((start 1 Socket).accept 5 onlyWorker).insert 5 0 onlyWorker 0).hold onlyWorker
    (.worker [] .looks)).hold onlyWorker (.worker [] (.handles 5 false))).upgrade 5).hold onlyWorker
    (.worker [] (.upgrades 5)))

theorem midUpgrade_finds : midUpgrade.Finds 0 5 ⟨5, 0, 0⟩ := ⟨List.mem_singleton_self _, rfl⟩

theorem midUpgrade_reached {meets : SocketTurn 1 Socket → Sockets 1 Socket → Prop}
    (allows : ∀ turn sockets, ReusesInTime turn sockets → turn ≠ .broadcast → meets turn sockets) :
    Reached (SocketStep id) meets (start 1 Socket) midUpgrade := by
  let inserted := ((start 1 Socket).accept 5 0).insert 5 0 0 0
  let entered := inserted.hold 0 (.worker [] .looks)
  let asks := entered.hold 0 (.worker [] (.handles 5 false))
  have accept : SocketStep id (.accept 5) (start 1 Socket) ((start 1 Socket).accept 5 0) :=
    .accept rfl rfl (by decide) rfl
  have insert : SocketStep id (.insert 0) ((start 1 Socket).accept 5 0) inserted :=
    .insert rfl nofun
  have enter : SocketStep id (.enter 0) inserted entered := .enter rfl
  have found : entered.Finds 0 5 ⟨5, 0, 0⟩ := midUpgrade_finds
  have event : SocketStep id (.event 0 5) entered asks := .event rfl found
  have upgrade : SocketStep id (.upgrade 0) asks midUpgrade := .upgrade rfl
  have fresh : ReusesInTime (.accept 5) (start 1 Socket) := List.not_mem_nil
  have alone : ReusesInTime (.upgrade 0) asks := by
    intro other socket closed
    rw [Subsingleton.elim other 0] at closed
    exact nomatch closed
  have accepts := Reached.start.next (allows _ _ fresh nofun) accept
  have inserts := accepts.next (allows (.insert 0) _ trivial nofun) insert
  have enters := inserts.next (allows (.enter 0) _ trivial nofun) enter
  have events := enters.next (allows (.event 0 5) _ trivial nofun) event
  exact events.next (allows _ _ alone nofun) upgrade

def closing : Sockets 1 Socket :=
  let framed := ((midUpgrade.send [5] .handshake).hold onlyWorker (.worker [] .looks)).broadcast
  let handles := framed.hold onlyWorker (.worker [] (.handles 5 true))
  let discards := handles.hold onlyWorker (.worker (setSocket [] 5) (.handles 5 true))
  let handled := discards.hold onlyWorker (.worker (setSocket [] 5) .looks)
  let deletes := handled.hold onlyWorker (.worker (setSocket [] 5) .deletes)
  let closes := deletes.hold onlyWorker (.worker (deleteSocket (setSocket [] 5) 5) (.closes 5))
  (closes.close ⟨5, 0, 0⟩ false).hold onlyWorker
    (.worker (deleteSocket (setSocket [] 5) 5) (.closed 5))

theorem closing_reached : Reached (SocketStep id) ReusesInTime (start 1 Socket) closing := by
  let looks := ((midUpgrade.send [5] .handshake).hold 0 (.worker [] .looks))
  let handles := looks.broadcast.hold 0 (.worker [] (.handles 5 true))
  let discards := handles.hold 0 (.worker (setSocket [] 5) (.handles 5 true))
  let handled := discards.hold 0 (.worker (setSocket [] 5) .looks)
  let deletes := handled.hold 0 (.worker (setSocket [] 5) .deletes)
  let closes := deletes.hold 0 (.worker (deleteSocket (setSocket [] 5) 5) (.closes 5))
  have handshake : SocketStep id (.handshake 0) midUpgrade looks := .handshake rfl
  have found : looks.broadcast.Finds 0 5 ⟨5, 0, 0⟩ := midUpgrade_finds
  have event : SocketStep id (.event 0 5) looks.broadcast handles := .event rfl found
  have discard : SocketStep id (.discard 0) handles discards := .discard rfl
  have handle : SocketStep id (.handled 0) discards handled := .handled rfl
  have map : SocketStep id (.mapDeleteSocketList 0) handled deletes := .mapDeleteSocketList rfl
  have pick : SocketStep id (.deleteSocketL 0 5) deletes closes :=
    .deleteSocketL rfl (List.mem_singleton_self _)
  have close : SocketStep id (.close 0 false) closes closing := .close rfl midUpgrade_finds
  have upgraded : Reached (SocketStep id) ReusesInTime (start 1 Socket) midUpgrade :=
    midUpgrade_reached fun _ _ inTime _ => inTime
  have answered := reached_next upgraded handshake trivial
  have framed := reached_next answered .broadcast trivial
  have events := reached_next framed event trivial
  have discarded := reached_next (reached_next events discard trivial) handle trivial
  have picked := reached_next (reached_next discarded map trivial) pick trivial
  exact reached_next picked close trivial

/-- The worker has taken the closed socket off `websockets`, and `accept` has returned its number
again. -/
def reused : Sockets 1 Socket :=
  ((((closing.deleteItem onlyWorker 5).hold onlyWorker
    (.worker (deleteSocket (setSocket [] 5) 5) (.unlists 5))).deleteWebsocket 5).hold onlyWorker
    (.worker (deleteSocket (setSocket [] 5) 5) .deletes)).accept 5 onlyWorker

theorem reused_reached : Reached (SocketStep id) ReusesInTime (start 1 Socket) reused := by
  let deleted := (closing.deleteItem 0 5).hold 0
    (.worker (deleteSocket (setSocket [] 5) 5) (.unlists 5))
  let unlisted := (deleted.deleteWebsocket 5).hold 0
    (.worker (deleteSocket (setSocket [] 5) 5) .deletes)
  have delete : SocketStep id (.deleteItem 0) closing deleted := .deleteItem rfl
  have unlist : SocketStep id (.deleteWebsocket 0) deleted unlisted := .deleteWebsocket rfl
  have reuse : SocketStep id (.accept 5) unlisted reused := .accept rfl rfl (by decide) rfl
  have inTime : ReusesInTime (.accept 5) unlisted := fun member => (mem_deleteSocket.mp member).2 rfl
  have deletes := reached_next closing_reached delete trivial
  exact reached_next (reached_next deletes unlist trivial) reuse inTime

end Sockets

/-- The number of a closed websocket is given away again, after it was taken off `websockets` and
before. -/
theorem wellListed_of_reusesInTime_reused :
    (reused.broadcast.WellListed ∧ reused.broadcast.sent = [(0, .frame), (0, .handshake)] ∧
      reused.descriptors 5 = some 1) ∧
    ∃ later, Reached (SocketStep id) (fun _ _ => True) (closing.accept 5 0) later ∧
      ¬later.WellListed := by
  have reuse : SocketStep id (.accept 5) closing (closing.accept 5 0) :=
    .accept rfl rfl (by decide) rfl
  have early : ¬ReusesInTime (.accept 5) closing := not_not.mpr (List.mem_singleton_self 5)
  refine ⟨⟨?_, rfl, rfl⟩, ?_⟩
  · exact (wellListed_of_reusesInTime 1 Socket id).1 _ (reached_next reused_reached .broadcast trivial)
  · exact (wellListed_of_reusesInTime 1 Socket id).2 _ _ _ closing_reached reuse early

/-- A worker closes the socket of an upgraded connection; before the worker takes it off
`websockets`, the listener gets the same descriptor and a frame is sent. -/
theorem frame_to_foreign_connection : ¬∀ (workers : Nat) (Leaf : Type) (leafOf : Socket → Leaf)
    (sockets : Sockets workers Leaf), Reaches leafOf sockets → sockets.WellListed := by
  intro safe
  have reuse : SocketStep id (.accept 5) closing (closing.accept 5 0) :=
    .accept rfl rfl (by decide) rfl
  have closed : Reaches id closing := closing_reached.mono fun _ _ _ => trivial
  have reached : Reaches id (closing.accept 5 0).broadcast :=
    (closed.next trivial reuse).next trivial .broadcast
  have framed := (safe 1 Socket id _ reached).frames 1 List.mem_cons_self
  exact absurd framed (by decide)

end Etracker
