import TdRevent.EventEntry
import TdRevent.Ledger
import TdRevent.Owners
import TdRevent.Interaction.System
import Mathlib.Logic.Function.Basic

/-!
# The selectors of the Unix platforms

The selectors for epoll and for kqueue are the same program except for the
calls that tell the kernel which events of a socket to watch. These calls are
the fields of a `Backend`, and the rest is written once for every backend.

## Implementation notes

An `Event` is shared by the map of the selector and by the handlers that are
running, so it is known by its index and outlives its entry in the map. When
it has no owner left its socket is closed. An event that is freed can still be
read here, as no code reaches it. The hash map is the partial function it stores.

`TcpSocket` closes its descriptor when it is dropped, unless it was closed. What
else a drop does is left out: the code that the user put into the data and the
closures of an entry, and an accepted socket that no callback takes.

The operating system and the callbacks are the environment. `K` is what the
kernel keeps for the selector. It changes only with the answers of the
environment. `E` is the buffer in which the kernel returns events.

The field `log` is history. No function branches on it.
-/

namespace TdRevent.Unix

open Interaction

/-- The descriptors of the Unix platforms. -/
abbrev SOCKET := Int32

/-- The cast `socket as u64`. -/
def SOCKET.asU64 (socket : SOCKET) : UInt64 := socket.toInt64.toUInt64

/-- The cast `value as SOCKET`. -/
def SOCKET.ofU64 (value : UInt64) : SOCKET := value.toUInt32.toInt32

/-- The low half of the number is the descriptor again. -/
@[simp] theorem SOCKET.ofU64_asU64 (socket : SOCKET) : SOCKET.ofU64 socket.asU64 = socket := by
  apply Int32.toBitVec_inj.mp
  change BitVec.setWidth 32 (BitVec.signExtend 64 (Int32.toBitVec socket)) = Int32.toBitVec socket
  ext i hi
  rw [BitVec.getElem_setWidth, BitVec.getLsbD_signExtend]
  grind

variable {S δ E K Sys : Type} {R : Sys → Type}

/-- A registered socket. -/
structure Event (S δ : Type) where
  buffer : EventBuffer S
  entry : EventEntry S δ
  isEnd : Bool

namespace Event

def new (buffer : EventBuffer S) (entry : EventEntry S δ) : Event S δ := ⟨buffer, entry, false⟩

def isAccept (self : Event S δ) : Prop := self.entry.evEvents.contains EventFlags.FLAG_ACCEPT

instance (self : Event S δ) : Decidable self.isAccept :=
  inferInstanceAs (Decidable (self.entry.evEvents.contains _))

def asRawSocket (self : Event S δ) : S := self.buffer.asRawSocket

/-- Store what was read from the socket. -/
def fill (self : Event S δ) (bytes : List UInt8) : Event S δ :=
  { self with
    buffer :=
      { self.buffer with
        readCache := bytes ++ self.buffer.readCache.drop bytes.length
        read := self.buffer.read.write bytes } }

/-- Note the error of a failed operation. -/
def fail (self : Event S δ) (err : IoError) : Event S δ :=
  { self with buffer := { self.buffer with error := .error err } }

/-- Append outgoing bytes. -/
def append (self : Event S δ) (data : List UInt8) : Event S δ :=
  { self with buffer := { self.buffer with write := self.buffer.write.write data } }

/-- Drop the bytes that the socket took. -/
def drain (self : Event S δ) (len : ℕ) : Event S δ :=
  { self with buffer := { self.buffer with write := self.buffer.write.drain len } }

/-- Ask for write events. -/
def arm (self : Event S δ) : Event S δ where
  buffer := { self.buffer with isInWrite := true }
  entry := { self.entry with evEvents := self.entry.evEvents.insert EventFlags.FLAG_WRITE }
  isEnd := self.isEnd

/-- Ask for no more write events. -/
def disarm (self : Event S δ) : Event S δ where
  buffer := { self.buffer with isInWrite := false }
  entry := { self.entry with evEvents := self.entry.evEvents.remove EventFlags.FLAG_WRITE }
  isEnd := self.isEnd

def merge (self : Event S δ) (isDel : Bool) (entry : EventEntry S δ) : Event S δ :=
  { self with entry := self.entry.merge isDel entry }

/-- The end callback takes the data of the user out of the entry. -/
def takeData (self : Event S δ) : Event S δ :=
  { self with entry := { self.entry with data := none } }

end Event

/-- A selector, with the kernel and the history. -/
structure Selector (S δ E K : Type) where
  eventMaps : S → Option ℕ
  events : ℕ → Event S δ
  /-- How many events were registered. -/
  count : ℕ
  owners : Owners
  evts : E
  kernel : K
  log : List (SockEvent S)

/-- What a selector asks of its environment. -/
inductive SockAsk (S Sys : Type)
  /-- The user opens a socket. -/
  | openSocket
  | accept (socket : S)
  | read (socket : S) (capacity : ℕ)
  | write (socket : S) (data : List UInt8)
  | close (socket : S)
  | acceptCb (id : ℕ) (tcp : Except IoError S)
  | readCb (id : ℕ)
  /-- Run the end callback of the event, which was registered for the socket. -/
  | endCb (id : ℕ) (socket : S)
  /-- A call to the kernel that belongs to the backend. -/
  | sys (q : Sys)
  /-- An index is out of bounds. -/
  | panic

@[reducible] def SockReply (R : Sys → Type) : SockAsk S Sys → Type
  | .openSocket => S
  | .accept _ => Except IoError S
  | .read _ _ => Except IoError (List UInt8)
  | .write _ _ => Except IoError ℕ
  | .close _ => Unit
  | .acceptCb _ _ => RetValue
  | .readCb _ => RetValue
  | .endCb _ _ => Unit
  | .sys q => R q
  | .panic => Empty

abbrev SockCode (S δ E K : Type) {Sys : Type} (R : Sys → Type) (α : Type) :=
  Code (Selector S δ E K) (SockReply (S := S) R) α

namespace Selector

/-- Put a new event into the map. -/
def insert [DecidableEq S] (sel : Selector S δ E K) (buffer : EventBuffer S)
    (entry : EventEntry S δ) : Selector S δ E K :=
  { sel with
    eventMaps := Function.update sel.eventMaps buffer.asRawSocket (some sel.count)
    events := Function.update sel.events sel.count (.new buffer entry)
    count := sel.count + 1
    owners := sel.owners.enroll sel.count
    log := sel.log ++ [.registered sel.count buffer] }

def remove [DecidableEq S] (sel : Selector S δ E K) (socket : S) : Selector S δ E K :=
  { sel with eventMaps := Function.update sel.eventMaps socket none }

/-- Change one event. -/
def edit (sel : Selector S δ E K) (id : ℕ) (f : Event S δ → Event S δ) : Selector S δ E K :=
  { sel with events := Function.update sel.events id (f (sel.events id)) }

/-- A handler is started for the event. -/
def hold (sel : Selector S δ E K) (id : ℕ) : Selector S δ E K :=
  { sel with owners := sel.owners.hold id }

/-- The handler returns. -/
def release (sel : Selector S δ E K) (id : ℕ) : Selector S δ E K :=
  { sel with owners := sel.owners.release id }

/-- The socket of the event is closed. -/
def shut (sel : Selector S δ E K) (id : ℕ) : Selector S δ E K :=
  { sel with owners := sel.owners.shut id }

/-- How many owners the event has: the handlers that hold it, and the map. -/
def refs [DecidableEq S] (sel : Selector S δ E K) (id : ℕ) : ℕ :=
  sel.owners.holds id + if sel.eventMaps (sel.events id).asRawSocket = some id then 1 else 0

/-- Add to the history. -/
def note (sel : Selector S δ E K) (e : SockEvent S) : Selector S δ E K :=
  { sel with log := sel.log ++ [e] }

section

variable (sel : Selector S δ E K) (id : ℕ) (f : Event S δ → Event S δ)
  (buffer : EventBuffer S) (entry : EventEntry S δ)

@[simp] theorem edit_self : (sel.edit id f).events id = f (sel.events id) :=
  Function.update_self ..

theorem edit_of_ne {id' : ℕ} (h : id' ≠ id) : (sel.edit id f).events id' = sel.events id' :=
  Function.update_of_ne h ..

@[simp] theorem edit_eventMaps : (sel.edit id f).eventMaps = sel.eventMaps := rfl

/-- What a change of an event keeps of every event. -/
theorem edit_keeps {α : Type} (p : Event S δ → α) (hf : ∀ event, p (f event) = p event)
    (id' : ℕ) : p ((sel.edit id f).events id') = p (sel.events id') := by
  by_cases h : id' = id
  · rw [h, edit_self, hf]
  · rw [edit_of_ne _ _ _ h]

variable [DecidableEq S]

theorem insert_old {id' : ℕ} (h : id' < sel.count) :
    (sel.insert buffer entry).events id' = sel.events id' := Function.update_of_ne h.ne ..

@[simp] theorem insert_new :
    (sel.insert buffer entry).events sel.count = .new buffer entry := Function.update_self ..

@[simp] theorem insert_maps :
    (sel.insert buffer entry).eventMaps buffer.asRawSocket = some sel.count :=
  Function.update_self ..

theorem insert_maps_of_ne {socket : S} (h : socket ≠ buffer.asRawSocket) :
    (sel.insert buffer entry).eventMaps socket = sel.eventMaps socket :=
  Function.update_of_ne h ..

@[simp] theorem remove_maps (socket : S) : (sel.remove socket).eventMaps socket = none :=
  Function.update_self ..

theorem remove_maps_of_ne {socket socket' : S} (h : socket' ≠ socket) :
    (sel.remove socket).eventMaps socket' = sel.eventMaps socket' := Function.update_of_ne h ..

/-- The new event takes the place of the old one. -/
theorem remove_insert :
    (sel.remove buffer.asRawSocket).insert buffer entry = sel.insert buffer entry := by
  rw [remove, insert, insert, Function.update_idem]

variable {sel}

/-- A number that is not registered. -/
theorem remove_of_none {socket : S} (h : sel.eventMaps socket = none) :
    sel.remove socket = sel := by
  have hsame : Function.update sel.eventMaps socket none = sel.eventMaps :=
    h ▸ Function.update_eq_self socket sel.eventMaps
  rw [remove, hsame]

end

/-- The events in the map are registered, each under its own socket. -/
structure Keyed (sel : Selector S δ E K) : Prop where
  sockets : ∀ {socket id}, sel.eventMaps socket = some id →
    (sel.events id).asRawSocket = socket
  ids : ∀ {socket id}, sel.eventMaps socket = some id → id < sel.count

namespace Keyed

variable {sel : Selector S δ E K} (h : sel.Keyed)

include h in
/-- Two sockets do not share an event. -/
theorem inj {socket socket' : S} {id : ℕ} (hs : sel.eventMaps socket = some id)
    (hs' : sel.eventMaps socket' = some id) : socket = socket' :=
  (h.sockets hs).symm.trans (h.sockets hs')

include h in
theorem edit (id : ℕ) {f : Event S δ → Event S δ}
    (hf : ∀ event, (f event).asRawSocket = event.asRawSocket) : (sel.edit id f).Keyed where
  sockets hs := (sel.edit_keeps id f Event.asRawSocket hf _).trans (h.sockets hs)
  ids hs := h.ids hs

variable [DecidableEq S]

include h in
theorem insert (buffer : EventBuffer S) (entry : EventEntry S δ) :
    (sel.insert buffer entry).Keyed := by
  have hcases : ∀ {socket id}, (sel.insert buffer entry).eventMaps socket = some id →
      (socket = buffer.asRawSocket ∧ id = sel.count) ∨ sel.eventMaps socket = some id := by
    intro socket id hs
    by_cases hsocket : socket = buffer.asRawSocket
    · subst hsocket
      rw [sel.insert_maps, Option.some.injEq] at hs
      exact Or.inl ⟨rfl, hs.symm⟩
    · rw [sel.insert_maps_of_ne buffer entry hsocket] at hs
      exact Or.inr hs
  refine ⟨fun {socket id} hs => ?_, fun {socket id} hs => ?_⟩
  · rcases hcases hs with ⟨rfl, rfl⟩ | hs
    · rw [sel.insert_new]
      rfl
    · rw [sel.insert_old buffer entry (h.ids hs)]
      exact h.sockets hs
  · rcases hcases hs with ⟨rfl, rfl⟩ | hs
    · exact Nat.lt_succ_self _
    · exact Nat.lt_succ_of_lt (h.ids hs)

theorem remove_some {socket socket' : S} {id : ℕ}
    (hs : (sel.remove socket).eventMaps socket' = some id) :
    socket' ≠ socket ∧ sel.eventMaps socket' = some id := by
  have hne : socket' ≠ socket := by
    rintro rfl
    exact absurd ((sel.remove_maps socket').symm.trans hs) nofun
  exact ⟨hne, (sel.remove_maps_of_ne hne).symm.trans hs⟩

include h in
theorem remove (socket : S) : (sel.remove socket).Keyed where
  sockets hs := h.sockets (remove_some hs).2
  ids hs := h.ids (remove_some hs).2

end Keyed

/-- The sockets that are open are those of the events in the map. -/
structure Owned [DecidableEq S] (sel : Selector S δ E K) : Prop extends sel.Keyed where
  isOpen : ∀ id, sel.owners.isOpen id = true ↔
    sel.eventMaps (sel.events id).asRawSocket = some id

namespace Owned

variable [DecidableEq S] {sel : Selector S δ E K} (h : sel.Owned) {socket : S} {id : ℕ}

include h

/-- Every open event has an owner. -/
theorem refs_ne_zero (hopen : sel.owners.isOpen id = true) : sel.refs id ≠ 0 := by
  rw [refs, if_pos ((h.isOpen id).mp hopen)]
  exact Nat.succ_ne_zero _

/-- The events in the map are open. -/
theorem opened (hmaps : sel.eventMaps socket = some id) : sel.owners.isOpen id = true := by
  rw [h.isOpen, h.sockets hmaps]
  exact hmaps

theorem kernel (k : K) : { sel with kernel := k }.Owned := ⟨⟨h.sockets, h.ids⟩, h.isOpen⟩

theorem evts (evts : E) : { sel with evts := evts }.Owned := ⟨⟨h.sockets, h.ids⟩, h.isOpen⟩

theorem note (e : SockEvent S) : (sel.note e).Owned := ⟨⟨h.sockets, h.ids⟩, h.isOpen⟩

theorem hold (id : ℕ) : (sel.hold id).Owned := ⟨⟨h.sockets, h.ids⟩, h.isOpen⟩

theorem release (id : ℕ) : (sel.release id).Owned := ⟨⟨h.sockets, h.ids⟩, h.isOpen⟩

theorem edit (id : ℕ) {f : Event S δ → Event S δ}
    (hf : ∀ event, (f event).asRawSocket = event.asRawSocket) : (sel.edit id f).Owned where
  toKeyed := h.toKeyed.edit id hf
  isOpen id' := by
    rw [sel.edit_keeps id f Event.asRawSocket hf]
    exact h.isOpen id'

/-- A new event under a number that is free. -/
theorem insert {buffer : EventBuffer S} (hmaps : sel.eventMaps buffer.asRawSocket = none)
    (entry : EventEntry S δ) : (sel.insert buffer entry).Owned where
  toKeyed := h.toKeyed.insert buffer entry
  isOpen id := by
    by_cases hid : id = sel.count
    · subst hid
      rw [sel.insert_new]
      exact iff_of_true (sel.owners.enroll_isOpen_self _) (sel.insert_maps buffer entry)
    · have hevent : (sel.insert buffer entry).events id = sel.events id :=
        Function.update_of_ne hid ..
      have hopen : (sel.insert buffer entry).owners.isOpen id = sel.owners.isOpen id :=
        sel.owners.enroll_isOpen_of_ne hid
      rw [hevent, hopen, h.isOpen]
      by_cases hsocket : (sel.events id).asRawSocket = buffer.asRawSocket
      · rw [hsocket, hmaps, sel.insert_maps]
        exact iff_of_false nofun fun hcount => hid (Option.some.inj hcount).symm
      · rw [sel.insert_maps_of_ne buffer entry hsocket]

/-- An event that leaves the map is closed. -/
theorem unlink (hmaps : sel.eventMaps socket = some id) :
    ((sel.remove socket).shut id).Owned where
  toKeyed := ⟨(h.toKeyed.remove socket).sockets, (h.toKeyed.remove socket).ids⟩
  isOpen id' := by
    change (sel.owners.shut id).isOpen id' = true ↔
      (sel.remove socket).eventMaps (sel.events id').asRawSocket = some id'
    by_cases hid : id' = id
    · subst hid
      rw [h.sockets hmaps, sel.remove_maps, sel.owners.shut_isOpen_self]
      exact iff_of_false nofun nofun
    · rw [sel.owners.shut_isOpen_of_ne hid, h.isOpen]
      by_cases hsocket : (sel.events id').asRawSocket = socket
      · rw [hsocket, sel.remove_maps, hmaps]
        exact iff_of_false (fun hsame => hid (Option.some.inj hsame).symm) nofun
      · rw [sel.remove_maps_of_ne hsocket]

end Owned

end Selector

/-- The calls to the kernel in which the selectors differ. The flags are those
of the entry after the change that the call reports. -/
structure Backend (S δ E K : Type) {Sys : Type} (R : Sys → Type) where
  /-- The registration in `registerSocket`. -/
  add : S → EventFlags → SockCode S δ E K R (Except IoError Unit)
  /-- The change in `modifySocket`. -/
  change : S → EventFlags → SockCode S δ E K R (Except IoError Unit)
  /-- The request for write events in `sendSocket`. -/
  wantWrite : S → EventFlags → SockCode S δ E K R (Except IoError Unit)
  /-- The end of write events in `writeDone`. -/
  dropWrite : S → EventFlags → SockCode S δ E K R (Except IoError Unit)
  deregister : S → EventFlags → SockCode S δ E K R (Except IoError Unit)

section

variable [DecidableEq S] (B : Backend S δ E K R)

/-- Change one event. -/
def edit (id : ℕ) (f : Event S δ → Event S δ) : SockCode S δ E K R Unit := .modify (·.edit id f)

/-- `EventEntry::accept_cb`. -/
def acceptCb (id : ℕ) (tcp : Except IoError S) : SockCode S δ E K R RetValue := do
  let sel ← .read
  match (sel.events id).entry.accept with
  | none => pure .OK
  | some _ => .query (SockAsk.acceptCb id tcp)

/-- `EventEntry::read_cb`. -/
def readCb (id : ℕ) : SockCode S δ E K R RetValue := do
  let sel ← .read
  match (sel.events id).entry.read with
  | none => pure .OK
  | some _ => .query (SockAsk.readCb id)

/-- `EventEntry::end_cb`. -/
def endCb (id : ℕ) (socket : S) : SockCode S δ E K R Unit := do
  let sel ← .read
  match (sel.events id).entry.end_ with
  | none => pure ()
  | some _ => do
      edit id Event.takeData
      .query (SockAsk.endCb id socket)

/-- Free the event if it has no owner left: its socket is closed. -/
def freeUnowned (id : ℕ) : SockCode S δ E K R Unit := do
  let sel ← .read
  .when (sel.refs id = 0 ∧ sel.owners.isOpen id) do
    .modify (·.shut id)
    .query (SockAsk.close (sel.events id).asRawSocket)

/-- `eventMaps.remove`, whose result is dropped. -/
def removeEvent (socket : S) : SockCode S δ E K R Unit := do
  let sel ← .read
  match sel.eventMaps socket with
  | none => pure ()
  | some id => do
      .modify (·.remove socket)
      freeUnowned id

/-- The end of a handler, which drops its event. -/
def letGo (id : ℕ) : SockCode S δ E K R Unit := do
  .modify (·.release id)
  freeUnowned id

/-- A handler holds its event while it runs. -/
def holding (id : ℕ) (handler : SockCode S δ E K R Unit) : SockCode S δ E K R Unit := do
  .modify (·.hold id)
  handler
  letGo id

-- the event that is taken out of the map lives until its end callback has run
def unregisterSocket (socket : S) : SockCode S δ E K R (Except IoError Unit) := do
  let sel ← .read
  match sel.eventMaps socket with
  | none => B.deregister socket EventFlags.all
  | some id => do
      .modify fun sel => (sel.remove socket).shut id
      .query (SockAsk.close (sel.events id).asRawSocket)
      endCb id socket
      B.deregister socket EventFlags.all

/-- Unregister the socket of the event. -/
def dropEvent (id : ℕ) : SockCode S δ E K R Unit := do
  let sel ← .read
  let _ ← unregisterSocket B (sel.events id).asRawSocket

/-- The end of a handler: a callback that is over gives up its event. -/
def endIfOver (id : ℕ) : RetValue → SockCode S δ E K R Unit
  | .OVER => dropEvent B id
  | _ => pure ()

/-- What `readDone` does with the event. -/
def readEvent (id : ℕ) : SockCode S δ E K R Unit := do
  let sel ← .read
  if (sel.events id).isAccept then do
    let tcp ← .query (SockAsk.accept (sel.events id).asRawSocket)
    let ret ← acceptCb id tcp
    endIfOver B id ret
  else do
    let ret ← .query (SockAsk.read (sel.events id).asRawSocket
      (sel.events id).buffer.readCache.length)
    match ret with
    | .ok bytes =>
        if bytes = [] then dropEvent B id
        else do
          edit id (·.fill bytes)
          let sel ← .read
          if (sel.events id).buffer.hasReadBuffer then do
            let ret ← readCb id
            endIfOver B id ret
          else pure ()
    | .error err => do
        edit id (·.fail err)
        dropEvent B id

def readDone (socket : S) : SockCode S δ E K R Unit := do
  let sel ← .read
  match sel.eventMaps socket with
  | none => pure ()
  | some id => holding id (readEvent B id)

/-- The two ends of `writeDone` at which nothing is left to write. -/
def writeOver (id : ℕ) : SockCode S δ E K R Unit := do
  edit id Event.disarm
  let sel ← .read
  let _ ← B.dropWrite (sel.events id).asRawSocket (sel.events id).entry.evEvents

/-- What `writeDone` does with the event. -/
def writeEvent (id : ℕ) : SockCode S δ E K R Unit := do
  let sel ← .read
  if (sel.events id).buffer.write.len = 0 then writeOver B id
  else do
    let data := (sel.events id).buffer.write.getData
    let ret ← .query (SockAsk.write (sel.events id).asRawSocket data)
    match ret with
    | .ok len =>
        if len = 0 then dropEvent B id
        else do
          edit id (·.drain len)
          .modify (·.note (.accepted id (data.take len)))
          let sel ← .read
          if (sel.events id).buffer.write.empty then writeOver B id else pure ()
    | .error err => do
        edit id (·.fail err)
        dropEvent B id

def writeDone (socket : S) : SockCode S δ E K R Unit := do
  let sel ← .read
  match sel.eventMaps socket with
  | none => pure ()
  | some id => holding id (writeEvent B id)

/-- `registerSocket` after the number is free. -/
def addEvent (buffer : EventBuffer S) (entry : EventEntry S δ) :
    SockCode S δ E K R (Except IoError Unit) := do
  .modify (·.insert buffer entry)
  let ret ← B.add buffer.asRawSocket entry.evEvents
  match ret with
  | .error e => do
      removeEvent buffer.asRawSocket
      pure (.error e)
  | .ok () => pure (.ok ())

def registerSocket (buffer : EventBuffer S) (entry : EventEntry S δ) :
    SockCode S δ E K R (Except IoError Unit) := do
  removeEvent buffer.asRawSocket
  addEvent B buffer entry

/-- The block of `modifySocket` that changes the event and tells the kernel. -/
def changeEvent (id : ℕ) (isDel : Bool) (socket : S) (entry : EventEntry S δ) :
    SockCode S δ E K R (Except IoError Unit) := do
  edit id (·.merge isDel entry)
  let sel ← .read
  B.change socket (sel.events id).entry.evEvents

def modifySocket (isDel : Bool) (socket : S) (entry : EventEntry S δ) :
    SockCode S δ E K R (Except IoError Unit) := do
  let sel ← .read
  match sel.eventMaps socket with
  | none => pure (.ok ())
  | some id => do
      let ret ← changeEvent B id isDel socket entry
      match ret with
      | .ok () => pure (.ok ())
      | .error e => do
          let ret ← unregisterSocket B socket
          match ret with
          | .error e' => pure (.error e')
          | .ok () => pure (.error e)

def sendSocket (socket : S) (data : List UInt8) :
    SockCode S δ E K R (Except IoError ℕ) := do
  let sel ← .read
  match sel.eventMaps socket with
  | none => pure (.error (.Other "the socket already be remove"))
  | some id => do
      edit id (·.append data)
      .modify (·.note (.sent id data))
      let sel ← .read
      if (sel.events id).buffer.isInWrite ∨ (sel.events id).buffer.write.empty then pure (.ok 0)
      else do
        edit id Event.arm
        let sel ← .read
        let ret ← B.wantWrite (sel.events id).asRawSocket (sel.events id).entry.evEvents
        match ret with
        | .error e => pure (.error e)
        | .ok () => pure (.ok 0)

end

/-! ## Runs of a selector -/

/-- What the kernel does when a descriptor is opened or closed, and how it
answers the calls of the backend. -/
structure Os (S K : Type) {Sys : Type} (R : Sys → Type) where
  opens : S → K → K → Prop
  closes : S → K → K → Prop
  sys : (q : Sys) → K → R q → K → Prop

/-- The callbacks are the questions to the user. -/
def SockAsk.user : SockAsk S Sys → Prop
  | .acceptCb _ _ => True
  | .readCb _ => True
  | .endCb _ _ => True
  | _ => False

/-- The answers change the kernel only. A socket gives at most as many bytes
as there is room for, and takes at most as many as it is offered. -/
def SockAsk.answer (os : Os S K R) : (q : SockAsk S Sys) → Selector S δ E K →
    SockReply R q → Selector S δ E K → Prop
  | .openSocket, sel, s, sel' => ∃ k, os.opens s sel.kernel k ∧ sel' = { sel with kernel := k }
  | .accept _, sel, .ok s, sel' =>
      ∃ k, os.opens s sel.kernel k ∧ sel' = { sel with kernel := k }
  | .accept _, sel, .error _, sel' => sel' = sel
  | .read _ capacity, sel, r, sel' =>
      sel' = sel ∧ ∀ bytes, r = .ok bytes → bytes.length ≤ capacity
  | .write _ data, sel, r, sel' => sel' = sel ∧ ∀ len, r = .ok len → len ≤ data.length
  | .close s, sel, _, sel' => ∃ k, os.closes s sel.kernel k ∧ sel' = { sel with kernel := k }
  | .sys q, sel, r, sel' => ∃ k, os.sys q sel.kernel r k ∧ sel' = { sel with kernel := k }
  | .panic, _, r, _ => nomatch r
  | _, sel, _, sel' => sel' = sel

/-- The calls that reach a selector. `editBuffer` stands for what a callback
does to the buffer that it is given. -/
inductive SockCall (S δ : Type)
  | openSocket
  | registerSocket (buffer : EventBuffer S) (entry : EventEntry S δ)
  | modifySocket (isDel : Bool) (socket : S) (entry : EventEntry S δ)
  | unregisterSocket (socket : S)
  | sendSocket (socket : S) (data : List UInt8)
  | readDone (socket : S)
  | writeDone (socket : S)
  | doSelect
  | editBuffer (id : ℕ) (f : EventBuffer S → EventBuffer S)

/-- A callback leaves the socket in its buffer. -/
def SockCall.may : SockCall S δ → Prop
  | .editBuffer _ f => ∀ buffer, (f buffer).socket = buffer.socket
  | _ => True

/-- Change the buffer of an event. -/
def Event.editBuffer (f : EventBuffer S → EventBuffer S) (self : Event S δ) : Event S δ :=
  { self with buffer := f self.buffer }

/-- The code of a call. -/
def SockCall.code [DecidableEq S] (B : Backend S δ E K R) (doSelect : SockCode S δ E K R Unit) :
    SockCall S δ → SockCode S δ E K R Unit
  | .openSocket => do
      let _ ← .query SockAsk.openSocket
  | .registerSocket buffer entry => do
      let _ ← Unix.registerSocket B buffer entry
  | .modifySocket isDel socket entry => do
      let _ ← Unix.modifySocket B isDel socket entry
  | .unregisterSocket socket => do
      let _ ← Unix.unregisterSocket B socket
  | .sendSocket socket data => do
      let _ ← Unix.sendSocket B socket data
  | .readDone socket => Unix.readDone B socket
  | .writeDone socket => Unix.writeDone B socket
  | .doSelect => doSelect
  | .editBuffer id f => edit id (·.editBuffer f)

/-- A selector and its environment. -/
def unixSystem [DecidableEq S] (B : Backend S δ E K R) (os : Os S K R)
    (doSelect : SockCode S δ E K R Unit) :
    System (Selector S δ E K) (SockReply (S := S) R) (SockCall S δ) Unit where
  api := SockCall.code B doSelect
  user := SockAsk.user
  answer := SockAsk.answer os
  may _ op := op.may

/-- A selector before anything is registered. -/
def Selector.new [Zero S] (evts : E) (kernel : K) : Selector S δ E K where
  eventMaps := fun _ => none
  events := fun _ => .new (.new 0 0) .default
  count := 0
  owners := .new
  evts := evts
  kernel := kernel
  log := []

end TdRevent.Unix
