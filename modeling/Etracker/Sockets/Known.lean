import Etracker.Sockets.Conserved

/-! What the holder of a list knows about it: the sockets that it works on have items,
and these items are for the connections that own the descriptors. -/

namespace Etracker

open Foundation Foundation.Runs

def Holder.known {Leaf : Type} : Holder Leaf → List Socket
  | .nobody => []
  | .worker deleteSocketList place =>
      match place with
      | .handles socket _ | .upgrades socket | .closes socket => socket :: deleteSocketList
      | .looks | .deletes | .closed _ | .unlists _ => deleteSocketList
  | .collector _ place =>
      match place with
      | .expires socket | .unlisted socket => [socket]
      | .sweeps | .visits _ | .closed _ => []

/-- A socket that is being deleted is no longer on `deleteSocketList`. -/
def Holder.Dropped {Leaf : Type} : Holder Leaf → Prop
  | .worker deleteSocketList (.closes socket) => socket ∉ deleteSocketList
  | .worker deleteSocketList (.closed socket) => socket ∉ deleteSocketList
  | _ => True

theorem Holder.leaving_of_known {Leaf : Type} {holder : Holder Leaf} (dropped : holder.Dropped)
    {socket : Socket} (known : socket ∈ holder.known) : holder.leaving ≠ some socket := by
  cases holder with
  | nobody => exact nomatch known
  | worker deleteSocketList place =>
      cases place with
      | closed closed =>
          intro leaves
          cases leaves
          exact dropped known
      | _ => exact nofun
  | collector _ place =>
      cases place with
      | closed closed => exact nomatch known
      | _ => exact nofun

variable {workers : Nat} {Leaf : Type} {leafOf : Socket → Leaf}

namespace Sockets

def Has (sockets : Sockets workers Leaf) (number : Fin workers) (socket : Socket) : Prop :=
  socket ∈ (sockets.socketLists number).map SocketItem.socket

theorem Finds.has {sockets : Sockets workers Leaf} {number : Fin workers} {socket : Socket}
    {item : SocketItem} (found : sockets.Finds number socket item) : sockets.Has number socket :=
  List.mem_map.mpr ⟨item, found⟩

structure Known (sockets : Sockets workers Leaf) : Prop where
  present : ∀ number, ∀ socket ∈ (sockets.holder number).known, sockets.Has number socket
  dropped : ∀ number, (sockets.holder number).Dropped

end Sockets

open Sockets

theorem Sockets.Known.hold {sockets : Sockets workers Leaf} (known : sockets.Known)
    {number : Fin workers} {holder : Holder Leaf} (dropped : holder.Dropped)
    (finds : ∀ socket ∈ holder.known, sockets.Has number socket) :
    (sockets.hold number holder).Known := by
  constructor
  · intro other
    show ∀ socket ∈ (Function.update sockets.holder number holder other).known, _
    by_cases here : other = number
    · subst here
      rw [Function.update_self]
      exact finds
    · rw [Function.update_of_ne here]
      exact known.present other
  · intro other
    show (Function.update sockets.holder number holder other).Dropped
    by_cases here : other = number
    · subst here
      rwa [Function.update_self]
    · rw [Function.update_of_ne here]
      exact known.dropped other

theorem Sockets.Known.setList {sockets : Sockets workers Leaf} (known : sockets.Known)
    {number : Fin workers} {socketList : List SocketItem}
    (keeps : ∀ socket ∈ (sockets.holder number).known, sockets.Has number socket →
      socket ∈ socketList.map SocketItem.socket) : (sockets.setList number socketList).Known := by
  refine ⟨?_, known.dropped⟩
  intro other socket inside
  have present := known.present other socket inside
  show socket ∈ (Function.update sockets.socketLists number socketList other).map SocketItem.socket
  by_cases here : other = number
  · subst here
    rw [Function.update_self]
    exact keeps socket inside present
  · rw [Function.update_of_ne here]
    exact present

theorem mem_updateSocketL {socketList : List SocketItem} {other : Socket}
    (listed : other ∈ socketList.map SocketItem.socket) (socket : Socket) (connection : Connection)
    (now : Int) :
    other ∈ (updateSocketL socketList socket connection now).map SocketItem.socket := by
  obtain ⟨item, member, rfl⟩ := List.mem_map.mp listed
  rw [updateSocketL]
  split_ifs with present
  · rw [List.map_map]
    refine List.mem_map.mpr ⟨item, member, ?_⟩
    simp only [Function.comp_apply]
    split_ifs <;> rfl
  · rw [List.map_append]
    exact List.mem_append_left _ listed

theorem mem_deleteSocketItem {socketList : List SocketItem} {other socket : Socket}
    (listed : other ∈ socketList.map SocketItem.socket) (differs : other ≠ socket) :
    other ∈ (deleteSocketItem socketList socket).map SocketItem.socket := by
  obtain ⟨item, member, rfl⟩ := List.mem_map.mp listed
  exact List.mem_map_of_mem (List.mem_filter.mpr ⟨member, decide_eq_true differs⟩)

theorem mem_setSocket {sockets : List Socket} {socket other : Socket} :
    other ∈ setSocket sockets socket ↔ other = socket ∨ other ∈ sockets := by
  rw [setSocket]
  split_ifs with present
  · constructor
    · exact Or.inr
    · rintro (rfl | member)
      · exact present
      · exact member
  · rw [List.mem_append, List.mem_singleton, or_comm]

theorem mem_deleteSocket {sockets : List Socket} {socket other : Socket} :
    other ∈ deleteSocket sockets socket ↔ other ∈ sockets ∧ other ≠ socket := by
  simp [deleteSocket]

section Keeps

variable {before : Sockets workers Leaf} {number : Fin workers} {holder : Holder Leaf}

theorem Sockets.Known.at_place (known : before.Known) (place : before.holder number = holder) :
    (∀ socket ∈ holder.known, before.Has number socket) ∧ holder.Dropped := by
  subst place
  exact ⟨known.present number, known.dropped number⟩

theorem Sockets.Known.of_same (known : before.Known) (after : Sockets workers Leaf)
    (lists : after.socketLists = before.socketLists) (holders : after.holder = before.holder) :
    after.Known := by
  constructor
  · simp only [Has, lists, holders]
    exact known.present
  · rw [holders]
    exact known.dropped

theorem Sockets.Known.goesOn (known : before.Known) (place : before.holder number = holder)
    {next : Holder Leaf} (dropped : next.Dropped) (fewer : next.known ⊆ holder.known) :
    (before.hold number next).Known := by
  apply known.hold dropped
  intro socket inside
  exact (known.at_place place).1 socket (fewer inside)

theorem Sockets.Known.deleteItem (known : before.Known) (place : before.holder number = holder)
    {socket : Socket} (unknown : socket ∉ holder.known) :
    (before.deleteItem number socket).Known := by
  subst place
  apply known.setList
  intro other inside listed
  exact mem_deleteSocketItem listed fun same => unknown (same ▸ inside)

end Keeps

theorem SocketStep.known {turn : SocketTurn workers Leaf} {before after : Sockets workers Leaf}
    (taken : SocketStep leafOf turn before after) (known : before.Known) : after.Known := by
  cases taken with
  | accept _ _ _ _ | acceptZero _ _ | broadcast => exact known.of_same _ rfl rfl
  | @insert _ socket connection number now _ _ =>
      have updated : (before.setList number
          (updateSocketL (before.socketLists number) socket connection now)).Known :=
        known.setList fun other _ listed => mem_updateSocketL listed _ _ _
      exact updated.of_same _ rfl rfl
  | refresh _ _ => exact known.setList fun other _ listed => mem_updateSocketL listed _ _ _
  | enter _ | leave _ | sweep _ _ | visit _ | visited _ | swept _ => exact known.hold trivial nofun
  | event place found =>
      refine known.hold trivial ?_
      intro socket inside
      rcases List.mem_cons.mp inside with rfl | old
      · exact found.has
      · exact (known.at_place place).1 _ old
  | discard place =>
      refine known.goesOn place trivial ?_
      intro socket inside
      rcases List.mem_cons.mp inside with rfl | listed
      · exact List.mem_cons_self
      · rcases mem_setSocket.mp listed with rfl | old
        · exact List.mem_cons_self
        · exact List.mem_cons_of_mem _ old
  | upgrade place =>
      exact (known.of_same (before.upgrade _) rfl rfl).goesOn place trivial (List.Subset.refl _)
  | handshake place =>
      exact (known.of_same (before.send _ _) rfl rfl).goesOn place trivial
        (List.subset_cons_self _ _)
  | handled place | notFound place _ =>
      exact known.goesOn place trivial (List.subset_cons_self _ _)
  | mapDeleteSocketList place => exact known.goesOn place trivial (List.Subset.refl _)
  | deleteSocketL place member =>
      refine known.goesOn place (fun left => (mem_deleteSocket.mp left).2 rfl) ?_
      intro socket inside
      rcases List.mem_cons.mp inside with rfl | left
      · exact member
      · exact (mem_deleteSocket.mp left).1
  | close place _ =>
      have left := (known.at_place place).2
      exact (known.of_same (before.close _ _) rfl rfl).goesOn place left
        (List.subset_cons_self _ _)
  | deleteItem place =>
      have deleted := known.deleteItem place (known.at_place place).2
      exact deleted.goesOn place trivial (List.Subset.refl _)
  | deleteWebsocket place | unlistExpired place =>
      exact (known.of_same (before.deleteWebsocket _) rfl rfl).goesOn place trivial
        (List.Subset.refl _)
  | expire _ found _ =>
      refine known.hold trivial ?_
      intro socket inside
      rw [List.mem_singleton.mp inside]
      exact found.has
  | closeExpired place _ => exact (known.of_same (before.close _ _) rfl rfl).hold trivial nofun
  | deleteExpired place => exact (known.deleteItem place nofun).hold trivial nofun

end Etracker
