import Etracker.Foundation.CString
import Mathlib.Logic.Function.Basic

/-! The hash list of `list.c` and `list.h`: a trie of `level` levels whose leaves
are sorted doubly linked lists of items.

A list owns its items. A `struct list` inside the trie is named by the branch
bytes that lead to it from the root, an item by its address. Every operation
reports the ways in which the C code would stop working. -/

namespace Etracker

open Foundation.CString

inductive Fault
  /-- A null pointer or freed memory is dereferenced. -/
  | dangling
  /-- A semaphore is waited for that nobody will post. -/
  | blocked
  /-- A pointer loop goes round more often than there are allocated items. -/
  | fuel
  /-- The process leaves through `exit`. -/
  | exit (code : Nat)
  deriving DecidableEq, Repr

abbrev Path := List UInt8
abbrev Address := Nat
abbrev Hash := List UInt8

def listLimitLevel : Nat := 2
def listByteSize : Nat := 256
def exitCodeListNotEmpty : Nat := 231
def exitCodeListWrongHashLength : Nat := 232
def exitCodeListWrongLimit : Nat := 233

inductive Endianness
  | littleEndian
  | bigEndian
  deriving DecidableEq, Repr

/-- The bits `LIST_SEMAPHORE_ENABLE_LEAF` and `LIST_SEMAPHORE_ENABLE_GLOBAL`. -/
structure SemaphoreEnabled where
  leaf : Bool
  global : Bool
  deriving DecidableEq, Repr

def listSemaphoreDisable : SemaphoreEnabled := ⟨false, false⟩
def listSemaphoreEnableLeaf : SemaphoreEnabled := ⟨true, false⟩

inductive ListReturn
  | listContinue
  | listBreak
  deriving DecidableEq, Repr

structure Item (α : Type) where
  hash : Hash
  previousInLeaf : Option Address
  nextInLeaf : Option Address
  leaf : Path
  data : Option α

/-- The fields of `struct list` that no operation changes after `initList`. -/
structure ListHeader where
  endianness : Endianness
  hashLength : Nat
  level : Nat
  semaphoreEnabled : SemaphoreEnabled
  deriving DecidableEq, Repr

structure HashList (α : Type) extends ListHeader where
  firstItem : Path → Option Address
  semaphore : Path → Option Nat
  items : Address → Option (Item α)
  /-- Every address handed out so far is below this one. -/
  fresh : Address
  /-- The data passed to `c_free` so far. -/
  freed : List α

variable {α σ : Type}

def ListHeader.initialSemaphore (header : ListHeader) (path : Path) : Option Nat :=
  if path.length = header.level ∧ header.semaphoreEnabled.leaf = true ∨
      path = [] ∧ header.semaphoreEnabled.global = true then some 1
  else none

/-- The recursion of `initList` over the branches only fills in `firstItem` and
`semaphore`; both are given here for every path at once. -/
def ListHeader.newList (header : ListHeader) : HashList α :=
  { header with
    firstItem := fun _ => none
    semaphore := header.initialSemaphore
    items := fun _ => none
    fresh := 0
    freed := [] }

def initList (level hashLength : Nat) (semaphoreEnabled : SemaphoreEnabled)
    (endianness : Endianness) : Except Fault (HashList α) := do
  if level > listLimitLevel then throw (.exit exitCodeListWrongLimit)
  if level > hashLength then throw (.exit exitCodeListWrongHashLength)
  pure (ListHeader.newList ⟨endianness, hashLength, level, semaphoreEnabled⟩)

def ListHeader.getLeafFrom (header : ListHeader) (hash : Hash) : Nat → Nat → Path → Path
  | 0, _, currentList => currentList
  | level + 1, nest, currentList =>
      let index := match header.endianness with
        | .bigEndian => header.hashLength - 1 - nest
        | .littleEndian => nest
      header.getLeafFrom hash level (nest + 1) (currentList ++ [hash.getD index 0])

def ListHeader.getLeaf (header : ListHeader) (hash : Hash) : Path :=
  header.getLeafFrom hash header.level 0 []

namespace HashList

def deref (list : HashList α) (item : Address) : Except Fault (Item α) :=
  match list.items item with
  | none => throw .dangling
  | some stored => pure stored

def modify (list : HashList α) (item : Address) (change : Item α → Item α) :
    Except Fault (HashList α) := do
  let stored ← list.deref item
  pure { list with items := Function.update list.items item (some (change stored)) }

def modifyUnlessNull (list : HashList α) (item : Option Address) (change : Item α → Item α) :
    Except Fault (HashList α) :=
  match item with
  | none => pure list
  | some item => list.modify item change

def setFirstItem (list : HashList α) (leaf : Path) (item : Option Address) : HashList α :=
  { list with firstItem := Function.update list.firstItem leaf item }

def dataOf (list : HashList α) (item : Address) : Except Fault α := do
  let stored ← list.deref item
  match stored.data with
  | none => throw .dangling
  | some data => pure data

def setData (list : HashList α) (item : Address) (data : Option α) : Except Fault (HashList α) :=
  list.modify item fun stored => { stored with data := data }

end HashList

def waitSemaphoreLeaf (list : HashList α) (leaf : Path) : Except Fault (HashList α) :=
  if list.semaphoreEnabled.leaf ∨ list.semaphoreEnabled.global then
    match list.semaphore leaf with
    | none => throw .dangling
    | some 0 => throw .blocked
    | some (value + 1) =>
        pure { list with semaphore := Function.update list.semaphore leaf (some value) }
  else pure list

def postSemaphoreLeaf (list : HashList α) (leaf : Path) : Except Fault (HashList α) :=
  if list.semaphoreEnabled.leaf ∨ list.semaphoreEnabled.global then
    match list.semaphore leaf with
    | none => throw .dangling
    | some value =>
        pure { list with semaphore := Function.update list.semaphore leaf (some (value + 1)) }
  else pure list

/-- The loop of `setHash`: the item found, its predecessor and the item the
search stopped at. -/
def setHashFrom (list : HashList α) (hash : Hash) :
    Nat → Option Address → Option Address →
      Except Fault (Option Address × Option Address × Option Address)
  | _, previousItem, none => pure (none, previousItem, none)
  | 0, _, some _ => throw .fuel
  | fuel + 1, previousItem, some currentItem => do
      let current ← list.deref currentItem
      match memcmp current.hash hash list.hashLength with
      | .eq => pure (some currentItem, previousItem, some currentItem)
      | .gt => pure (none, previousItem, some currentItem)
      | .lt => setHashFrom list hash fuel (some currentItem) current.nextInLeaf

def setHash (list : HashList α) (hash : Hash) : Except Fault (HashList α × Address) := do
  let leaf := list.getLeaf hash
  let (item, previousItem, currentItem) ←
    setHashFrom list hash list.fresh none (list.firstItem leaf)
  match item with
  | some item => pure (list, item)
  | none =>
      let item := list.fresh
      let list := { list with
        fresh := list.fresh + 1
        items := Function.update list.items item (some
          { hash := hash.take list.hashLength
            previousInLeaf := previousItem
            nextInLeaf := currentItem
            leaf := leaf
            data := none }) }
      let list ← list.modifyUnlessNull previousItem fun previous =>
        { previous with nextInLeaf := some item }
      let list ← list.modifyUnlessNull currentItem fun current =>
        { current with previousInLeaf := some item }
      let list := if previousItem = none then list.setFirstItem leaf (some item) else list
      pure (list, item)

def getHashFrom (list : HashList α) (hash : Hash) :
    Nat → Option Address → Except Fault (Option Address)
  | _, none => pure none
  | 0, some _ => throw .fuel
  | fuel + 1, some currentItem => do
      let current ← list.deref currentItem
      match memcmp current.hash hash list.hashLength with
      | .eq => pure (some currentItem)
      | .gt => pure none
      | .lt => getHashFrom list hash fuel current.nextInLeaf

def getHash (list : HashList α) (hash : Hash) : Except Fault (Option Address) :=
  getHashFrom list hash list.fresh (list.firstItem (list.getLeaf hash))

def deleteItem (list : HashList α) (item : Address) : Except Fault (HashList α) := do
  let stored ← list.deref item
  let list ←
    if stored.previousInLeaf = none then
      (list.setFirstItem stored.leaf stored.nextInLeaf).modifyUnlessNull stored.nextInLeaf
        fun next => { next with previousInLeaf := none }
    else do
      let list ← list.modifyUnlessNull stored.previousInLeaf fun previous =>
        { previous with nextInLeaf := stored.nextInLeaf }
      list.modifyUnlessNull stored.nextInLeaf fun next =>
        { next with previousInLeaf := stored.previousInLeaf }
  pure { list with
    items := Function.update list.items item none
    freed := list.freed ++ stored.data.toList }

def deleteHash (list : HashList α) (hash : Hash) : Except Fault (HashList α) := do
  match ← getHash list hash with
  | none => pure list
  | some item => deleteItem list item

/-- The callbacks given to `mapList`: the leaf and the item they are called for,
and the list together with what `args` points to. -/
abbrev Callback (α σ : Type) :=
  Path → Address → HashList α × σ → Except Fault (ListReturn × HashList α × σ)

/-- The loop over one leaf. The next item is read before the callback runs, for
the callback may free the current one. -/
def mapItems (callback : Callback α σ) (leaf : Path) :
    Nat → Option Address → HashList α × σ → Except Fault (ListReturn × HashList α × σ)
  | _, none, state => pure (.listContinue, state)
  | 0, some _, _ => throw .fuel
  | fuel + 1, some currentItem, (list, args) => do
      let current ← list.deref currentItem
      let nextItem := current.nextInLeaf
      let (test, state) ← callback leaf currentItem (list, args)
      if test = .listBreak then pure (.listBreak, state)
      else mapItems callback leaf fuel nextItem state

def mapLeaf (callback : Callback α σ) (leaf : Path) :
    HashList α × σ → Except Fault (ListReturn × HashList α × σ)
  | (list, args) => do
      if list.firstItem leaf = none then pure (.listContinue, list, args)
      else
        let list ← waitSemaphoreLeaf list leaf
        let (test, list, args) ←
          mapItems callback leaf list.fresh (list.firstItem leaf) (list, args)
        let list ← postSemaphoreLeaf list leaf
        pure (test, list, args)

def mapBranches {β state : Type} (visit : β → state → Except Fault (ListReturn × state)) :
    List β → state → Except Fault (ListReturn × state)
  | [], current => pure (.listContinue, current)
  | branch :: rest, current => do
      let (test, current) ← visit branch current
      if test = .listBreak then pure (.listBreak, current)
      else mapBranches visit rest current

def branches : List UInt8 := (List.range listByteSize).map UInt8.ofNat

def mapListFrom (callback : Callback α σ) :
    Nat → Path → HashList α × σ → Except Fault (ListReturn × HashList α × σ)
  | 0, path => mapLeaf callback path
  | level + 1, path =>
      mapBranches (fun index => mapListFrom callback level (path ++ [index])) branches

def mapList (list : HashList α) (args : σ) (callback : Callback α σ) :
    Except Fault (ListReturn × HashList α × σ) :=
  mapListFrom callback list.level [] (list, args)

def freeListFrom (list : HashList α) : Nat → Path → Bool → Except Fault Unit
  | level, path, firstRecursion => do
      if list.firstItem path ≠ none then throw (.exit exitCodeListNotEmpty)
      match level with
      | 0 => pure ()
      | below + 1 => branches.forM fun index => freeListFrom list below (path ++ [index]) false
      if (level = 0 ∧ list.semaphoreEnabled.leaf = true ∨
          firstRecursion = true ∧ list.semaphoreEnabled.global = true) ∧
          list.semaphore path = none then throw .dangling

def freeList (list : HashList α) : Except Fault Unit := freeListFrom list list.level [] true

def reInitListCallback : Callback α (HashList α)
  | _, item, (list, resultList) => do
      let stored ← list.deref item
      let (resultList, newItem) ← setHash resultList stored.hash
      let resultList ← resultList.setData newItem stored.data
      -- The old item loses its data pointer, so that deleting it frees no data.
      let list ← list.setData item none
      let list ← deleteItem list item
      pure (.listContinue, list, resultList)

def reInitList (list : HashList α) (level : Nat) : Except Fault (HashList α) := do
  let resultList ← initList level list.hashLength list.semaphoreEnabled list.endianness
  let (_, list, resultList) ← mapList list resultList reInitListCallback
  freeList list
  pure { resultList with freed := list.freed ++ resultList.freed }

end Etracker
