import TdRevent.EventEntry
import TdRevent.Ledger
import TdRevent.Owners
import TdRevent.Interaction.System
import Mathlib.Logic.Function.Basic

/-!
# The selector of Windows

The selector posts overlapped operations to a completion port. An operation
that was accepted is outstanding until its completion is dispatched, whether or
not it took effect at once. The handlers of the completions run the callbacks
and post the next operation.

## Implementation notes

An `Event` is shared by the map of the selector and by the handlers that are
running, so it is known by its index and outlives its entry in the map. Its
fields `read` and `write` are two addresses that completions carry, so they are
the two values of `Overlapped` of the index. An operation that is outstanding
is no owner, so a completion may be dispatched for an event that was freed.
Such an event can still be read and written here.

`TcpSocket` closes its descriptor when it is dropped, unless it was closed. What
else a drop does is left out: the code that the user put into the data and the
closures of an entry, an accepted socket that no callback takes, and the socket
that waits for a connection.

The fields `port`, `stale` and `log` are no state of the selector. The port is
what the system keeps, and changes only with the answers of the environment.
The others are history. No function branches on them.

The questions `dispatch` and `again` are marks. A handler puts the first before
it starts and the second before it posts the next operation.
-/

namespace TdRevent.Win

open Interaction

/-- The descriptors of Windows. -/
abbrev SOCKET := UInt64

instance : Zero SOCKET := ⟨0⟩

variable {S δ : Type}

/-- A registered socket. -/
structure Event (S δ : Type) where
  buffer : EventBuffer S
  entry : EventEntry S δ
  acceptSocket : Option S
  isEnd : Bool

namespace Event

def new (buffer : EventBuffer S) (entry : EventEntry S δ) : Event S δ where
  buffer := buffer
  entry := entry
  acceptSocket := none
  isEnd := false

def isAccept (self : Event S δ) : Prop := self.entry.evEvents.contains EventFlags.FLAG_ACCEPT

instance (self : Event S δ) : Decidable self.isAccept :=
  inferInstanceAs (Decidable (self.entry.evEvents.contains _))

def asRawSocket (self : Event S δ) : S := self.buffer.asRawSocket

/-- The system stores what it received. -/
def receive (self : Event S δ) (bytes : List UInt8) : Event S δ :=
  { self with
    buffer :=
      { self.buffer with
        readCache := bytes ++ self.buffer.readCache.drop bytes.length } }

/-- Append what was received to the read buffer. -/
def fill (self : Event S δ) (bytesTransferred : ℕ) : Event S δ :=
  { self with
    buffer :=
      { self.buffer with
        read := self.buffer.read.write (self.buffer.readCache.take bytesTransferred)
        isInRead := false } }

def setInRead (self : Event S δ) (value : Bool) : Event S δ :=
  { self with buffer := { self.buffer with isInRead := value } }

def setInWrite (self : Event S δ) (value : Bool) : Event S δ :=
  { self with buffer := { self.buffer with isInWrite := value } }

/-- Note the error of a failed operation. -/
def fail (self : Event S δ) (err : IoError) : Event S δ :=
  { self with buffer := { self.buffer with error := .error err } }

/-- Append outgoing bytes. -/
def append (self : Event S δ) (data : List UInt8) : Event S δ :=
  { self with buffer := { self.buffer with write := self.buffer.write.write data } }

/-- Drop the bytes that the socket took. -/
def drain (self : Event S δ) (len : ℕ) : Event S δ :=
  { self with buffer := { self.buffer with write := self.buffer.write.drain len } }

/-- The socket for the next connection. -/
def setAcceptSocket (self : Event S δ) (socket : Option S) : Event S δ :=
  { self with acceptSocket := socket }

/-- Give up the flags, unless the event persists. -/
def unlessPersist (self : Event S δ) (flags : EventFlags) : Event S δ :=
  if self.entry.hasFlag EventFlags.FLAG_PERSIST ∨
      self.entry.hasFlag EventFlags.FLAG_READ_PERSIST then self
  else { self with entry := { self.entry with evEvents := self.entry.evEvents.remove flags } }

def merge (self : Event S δ) (isDel : Bool) (entry : EventEntry S δ) : Event S δ :=
  { self with entry := self.entry.merge isDel entry }

def end_ (self : Event S δ) : Event S δ := { self with isEnd := true }

/-- The end callback takes the data of the user out of the entry. -/
def takeData (self : Event S δ) : Event S δ :=
  { self with entry := { self.entry with data := none } }

end Event

/-- The address of one of the two `CbOverlapped` of an event. -/
inductive Overlapped
  | read (id : ℕ)
  | write (id : ℕ)
  deriving DecidableEq

/-- The event that holds it. -/
def Overlapped.id : Overlapped → ℕ
  | .read id => id
  | .write id => id

/-- A packet of the completion port. Its key, given as flags, is the one of
`addSocket` or of `postInfo`. -/
structure CompletionStatus where
  bytesTransferred : ℕ
  flag : EventFlags
  overlapped : Option Overlapped

/-- How many operations and how many posted packets are on the way. -/
structure Port where
  outstanding : Overlapped → ℕ
  posted : Overlapped → ℕ

namespace Port

def new : Port := ⟨fun _ => 0, fun _ => 0⟩

/-- An operation is accepted. -/
def enqueue (port : Port) (o : Overlapped) : Port :=
  { port with outstanding := Function.update port.outstanding o (port.outstanding o + 1) }

/-- The completion of an operation is dispatched. -/
def complete (port : Port) (o : Overlapped) : Port :=
  { port with outstanding := Function.update port.outstanding o (port.outstanding o - 1) }

/-- `PostQueuedCompletionStatus`. -/
def post (port : Port) (o : Overlapped) : Port :=
  { port with posted := Function.update port.posted o (port.posted o + 1) }

/-- A posted packet is dispatched. -/
def take (port : Port) (o : Overlapped) : Port :=
  { port with posted := Function.update port.posted o (port.posted o - 1) }

section

variable (port : Port) (o : Overlapped) {o' : Overlapped}

@[simp] theorem enqueue_self : (port.enqueue o).outstanding o = port.outstanding o + 1 :=
  Function.update_self ..

theorem enqueue_of_ne (h : o' ≠ o) : (port.enqueue o).outstanding o' = port.outstanding o' :=
  Function.update_of_ne h ..

@[simp] theorem complete_self : (port.complete o).outstanding o = port.outstanding o - 1 :=
  Function.update_self ..

theorem complete_of_ne (h : o' ≠ o) : (port.complete o).outstanding o' = port.outstanding o' :=
  Function.update_of_ne h ..

/-- A completion leaves no more operations than there were. -/
theorem complete_le (o' : Overlapped) : (port.complete o).outstanding o' ≤ port.outstanding o' := by
  by_cases h : o' = o
  · subst h
    rw [complete_self]
    exact Nat.sub_le ..
  · exact (port.complete_of_ne o h).le

@[simp] theorem post_self : (port.post o).posted o = port.posted o + 1 := Function.update_self ..

theorem post_of_ne (h : o' ≠ o) : (port.post o).posted o' = port.posted o' :=
  Function.update_of_ne h ..

@[simp] theorem take_self : (port.take o).posted o = port.posted o - 1 := Function.update_self ..

theorem take_of_ne (h : o' ≠ o) : (port.take o).posted o' = port.posted o' :=
  Function.update_of_ne h ..

end

end Port

/-- The selector, with the completion port and the history. -/
structure Selector (S δ : Type) where
  eventMaps : S → Option ℕ
  events : ℕ → Event S δ
  /-- How many events were registered. -/
  count : ℕ
  owners : Owners
  port : Port
  /-- How many bytes at the front of the write buffer were accepted before. -/
  stale : ℕ → ℕ
  log : List (SockEvent S)

/-- The operations that the selector posts. -/
inductive Post
  | accept | read | write
  deriving DecidableEq

/-- What the selector asks of its environment. -/
inductive WinAsk (S : Type)
  /-- `local_addr` of the listener, and a new socket of that family. -/
  | newSocket (socket : S)
  | acceptOverlapped (socket acceptSocket : S) (overlapped : Overlapped)
  | readOverlapped (socket : S) (capacity : ℕ) (overlapped : Overlapped)
  | writeOverlapped (socket : S) (data : List UInt8) (overlapped : Overlapped)
  /-- `acceptComplete`, and the remote address out of the address buffer. -/
  | acceptComplete (socket acceptSocket : S)
  | addSocket (flag : EventFlags) (socket : S)
  | close (socket : S)
  | postInfo (bytes : ℕ) (flag : EventFlags) (overlapped : Overlapped)
  | getMany
  | dispatch (status : CompletionStatus) (overlapped : Overlapped)
  | again (post : Post) (socket : S)
  | acceptCb (id : ℕ) (tcp : Except IoError S)
  | readCb (id : ℕ)
  | writeCb (id : ℕ)
  | endCb (id : ℕ)
  /-- `unwrap` of nothing, or an index out of bounds. -/
  | panic

@[reducible] def WinReply : WinAsk S → Type
  | .newSocket _ => Except IoError S
  | .acceptOverlapped _ _ _ => Except IoError Bool
  | .readOverlapped _ _ _ => Except IoError (Option ℕ)
  | .writeOverlapped _ _ _ => Except IoError (Option ℕ)
  | .acceptComplete _ _ => Except IoError Unit
  | .addSocket _ _ => Except IoError Unit
  | .close _ => Unit
  | .postInfo _ _ _ => Except IoError Unit
  | .getMany => Except IoError (List CompletionStatus)
  | .dispatch _ _ => Unit
  | .again _ _ => Unit
  | .acceptCb _ _ => RetValue
  | .readCb _ => RetValue
  | .writeCb _ => RetValue
  | .endCb _ => Unit
  | .panic => Empty

abbrev WinCode (S δ α : Type) := Code (Selector S δ) (WinReply (S := S)) α

namespace Selector

/-- Change one event. -/
def edit (sel : Selector S δ) (id : ℕ) (f : Event S δ → Event S δ) : Selector S δ :=
  { sel with events := Function.update sel.events id (f (sel.events id)) }

/-- A handler is started for the event. -/
def hold (sel : Selector S δ) (id : ℕ) : Selector S δ :=
  { sel with owners := sel.owners.hold id }

/-- The handler returns. -/
def release (sel : Selector S δ) (id : ℕ) : Selector S δ :=
  { sel with owners := sel.owners.release id }

/-- The socket of the event is closed. -/
def shut (sel : Selector S δ) (id : ℕ) : Selector S δ :=
  { sel with owners := sel.owners.shut id }

/-- Add to the history. -/
def note (sel : Selector S δ) (e : SockEvent S) : Selector S δ := { sel with log := sel.log ++ [e] }

/-- The socket took the front of the write buffer. -/
def takeFront (sel : Selector S δ) (id len : ℕ) : Selector S δ :=
  { sel.edit id (·.drain len) with
    stale := Function.update sel.stale id (sel.stale id - len)
    log := sel.log ++ [.accepted id ((sel.events id).buffer.write.val.take len)] }

/-- The socket will take the write buffer, which stays as it is. -/
def takeAll (sel : Selector S δ) (id : ℕ) : Selector S δ :=
  { sel with
    stale := Function.update sel.stale id (sel.events id).buffer.write.val.length
    log := sel.log ++ [.accepted id (sel.events id).buffer.write.val] }

variable [DecidableEq S]

/-- Put a new event into the map. -/
def insert (sel : Selector S δ) (buffer : EventBuffer S) (entry : EventEntry S δ) :
    Selector S δ :=
  { sel with
    eventMaps := Function.update sel.eventMaps buffer.asRawSocket (some sel.count)
    events := Function.update sel.events sel.count (.new buffer entry)
    count := sel.count + 1
    owners := sel.owners.enroll sel.count
    log := sel.log ++ [.registered sel.count buffer] }

def remove (sel : Selector S δ) (socket : S) : Selector S δ :=
  { sel with eventMaps := Function.update sel.eventMaps socket none }

/-- How many owners the event has: the handlers that hold it, and the map. -/
def refs (sel : Selector S δ) (id : ℕ) : ℕ :=
  sel.owners.holds id + if sel.eventMaps (sel.events id).asRawSocket = some id then 1 else 0

@[simp] theorem insert_maps (sel : Selector S δ) (buffer : EventBuffer S)
    (entry : EventEntry S δ) :
    (sel.insert buffer entry).eventMaps buffer.asRawSocket = some sel.count :=
  Function.update_self ..

/-- A number that is not registered. -/
theorem remove_of_none {sel : Selector S δ} {socket : S} (h : sel.eventMaps socket = none) :
    sel.remove socket = sel := by
  have hsame : Function.update sel.eventMaps socket none = sel.eventMaps :=
    h ▸ Function.update_eq_self socket sel.eventMaps
  rw [remove, hsame]

end Selector

/-! ## The functions of the selector -/

section

variable [DecidableEq S]

/-- Change one event. -/
def edit (id : ℕ) (f : Event S δ → Event S δ) : WinCode S δ Unit := .modify (·.edit id f)

/-- `EventEntry::accept_cb`. -/
def acceptCb (id : ℕ) (tcp : Except IoError S) : WinCode S δ RetValue := do
  let sel ← .read
  match (sel.events id).entry.accept with
  | none => pure .OK
  | some _ => .query (WinAsk.acceptCb id tcp)

/-- `EventEntry::read_cb`. -/
def readCb (id : ℕ) : WinCode S δ RetValue := do
  let sel ← .read
  match (sel.events id).entry.read with
  | none => pure .OK
  | some _ => .query (WinAsk.readCb id)

/-- `EventEntry::write_cb`. -/
def writeCb (id : ℕ) : WinCode S δ RetValue := do
  let sel ← .read
  match (sel.events id).entry.write with
  | none => pure .OK
  | some _ => .query (WinAsk.writeCb id)

/-- `EventEntry::end_cb`. -/
def endCb (id : ℕ) : WinCode S δ Unit := do
  let sel ← .read
  match (sel.events id).entry.end_ with
  | none => pure ()
  | some _ => do
      edit id Event.takeData
      .query (WinAsk.endCb id)

/-- Free the event if it has no owner left: its socket is closed. -/
def freeUnowned (id : ℕ) : WinCode S δ Unit := do
  let sel ← .read
  .when (sel.refs id = 0 ∧ sel.owners.isOpen id) do
    .modify (·.shut id)
    .query (WinAsk.close (sel.events id).asRawSocket)

/-- `eventMaps.remove`, whose result is dropped. -/
def removeEvent (socket : S) : WinCode S δ Unit := do
  let sel ← .read
  match sel.eventMaps socket with
  | none => pure ()
  | some id => do
      .modify (·.remove socket)
      freeUnowned id

/-- The end of a handler, which drops its event. -/
def letGo (id : ℕ) : WinCode S δ Unit := do
  .modify (·.release id)
  freeUnowned id

/-- A handler holds its event while it runs. -/
def holding (id : ℕ) (handler : WinCode S δ Unit) : WinCode S δ Unit := do
  .modify (·.hold id)
  handler
  letGo id

def postAcceptEvent (socket : S) : WinCode S δ (Except IoError Unit) := do
  let sel ← .read
  match sel.eventMaps socket with
  | none => pure (.ok ())
  | some id =>
      if (sel.events id).buffer.isInRead then pure (.ok ())
      else do
        let listener := (sel.events id).asRawSocket
        let ret ← .query (WinAsk.newSocket listener)
        match ret with
        | .error e => pure (.error e)
        | .ok s => do
            edit id (·.setAcceptSocket (some s))
            let ret ← .query (WinAsk.acceptOverlapped listener s (.read id))
            pure (ret.map fun _ => ())

def postReadEvent (socket : S) : WinCode S δ (Except IoError Unit) := do
  let sel ← .read
  match sel.eventMaps socket with
  | none => pure (.ok ())
  | some id =>
      if (sel.events id).isEnd then pure (.ok ())
      else if (sel.events id).buffer.isInRead then pure (.ok ())
      else do
        let ret ← .query (WinAsk.readOverlapped (sel.events id).asRawSocket
          (sel.events id).buffer.readCache.length (.read id))
        pure (ret.map fun _ => ())

/-- The first step of `postWriteEvent`. -/
def appendData (id : ℕ) : Option (List UInt8) → WinCode S δ Unit
  | none => pure ()
  | some data => do
      edit id (·.append data)
      .modify (·.note (.sent id data))

/-- The rest of `postWriteEvent`. -/
def writeOut (id : ℕ) : WinCode S δ (Except IoError ℕ) := do
  let sel ← .read
  if (sel.events id).buffer.isInWrite ∨ (sel.events id).buffer.write.empty ∨
      (sel.events id).isEnd then pure (.ok 0)
  else do
    let res ← .query (WinAsk.writeOverlapped (sel.events id).asRawSocket
      (sel.events id).buffer.write.getData (.write id))
    match res with
    | .error e => pure (.error e)
    | .ok (some n) => do
        .modify (·.takeFront id n)
        let sel ← .read
        .when (¬ (sel.events id).buffer.write.empty) (edit id (·.setInWrite true))
        pure (.ok n)
    | .ok none => do
        .modify (·.takeAll id)
        pure (.ok 0)

def postWriteEvent (socket : S) (data : Option (List UInt8)) :
    WinCode S δ (Except IoError ℕ) := do
  let sel ← .read
  match sel.eventMaps socket with
  | none => pure (.error (.Other "the socket already be remove"))
  | some id => do
      appendData id data
      writeOut id

def checkSocketEvent (socket : S) : WinCode S δ (Except IoError Unit) := do
  let sel ← .read
  match sel.eventMaps socket with
  | none => pure (.ok ())
  | some id =>
      let flag := (sel.events id).entry.evEvents
      if flag.contains EventFlags.FLAG_ACCEPT then postAcceptEvent socket
      else do
        let ret ← (if flag.contains EventFlags.FLAG_READ then postReadEvent socket
          else pure (.ok ()))
        match ret with
        | .error e => pure (.error e)
        | .ok () =>
            if flag.contains EventFlags.FLAG_WRITE then do
              let ret ← postWriteEvent socket none
              pure (ret.map fun _ => ())
            else pure (.ok ())

/-- `registerSocket` after the number is free. -/
def addEvent (buffer : EventBuffer S) (entry : EventEntry S δ) :
    WinCode S δ (Except IoError Unit) := do
  let socket := buffer.asRawSocket
  let ret ← .query (WinAsk.addSocket entry.evEvents socket)
  match ret with
  | .error e => do
      -- the buffer is dropped
      .query (WinAsk.close socket)
      pure (.error e)
  | .ok () => do
      .modify (·.insert buffer entry)
      let ret ← checkSocketEvent socket
      match ret with
      | .error e => do
          removeEvent socket
          pure (.error e)
      | .ok () => pure (.ok ())

def registerSocket (buffer : EventBuffer S) (entry : EventEntry S δ) :
    WinCode S δ (Except IoError Unit) := do
  removeEvent buffer.asRawSocket
  addEvent buffer entry

def unregisterSocket (socket : S) : WinCode S δ (Except IoError Unit) := do
  let sel ← .read
  match sel.eventMaps socket with
  | none => pure (.ok ())
  | some id =>
      if (sel.events id).isEnd then pure (.ok ())
      else do
        .modify (·.shut id)
        .query (WinAsk.close (sel.events id).asRawSocket)
        edit id Event.end_
        .query (WinAsk.postInfo 0 EventFlags.FLAG_ENDED (.read id))

def modifySocket (isDel : Bool) (socket : S) (entry : EventEntry S δ) :
    WinCode S δ (Except IoError Unit) := do
  let sel ← .read
  match sel.eventMaps socket with
  | none => pure (.ok ())
  | some id => do
      edit id (·.merge isDel entry)
      let ret ← checkSocketEvent socket
      match ret with
      | .ok () => pure (.ok ())
      | .error e => do
          let ret ← unregisterSocket socket
          match ret with
          | .error e' => pure (.error e')
          | .ok () => pure (.error e)

/-- The last step of an event that was unregistered. -/
def _unregisterSocket (socket : S) : WinCode S δ (Except IoError Unit) := do
  let sel ← .read
  match sel.eventMaps socket with
  | none => pure (.ok ())
  | some id => do
      .modify (·.remove socket)
      -- the reference that was taken out of the map
      holding id (endCb id)
      pure (.ok ())

def sendSocket (socket : S) (data : List UInt8) : WinCode S δ (Except IoError ℕ) :=
  postWriteEvent socket (some data)

/-- Unregister the socket of the event. -/
def dropEvent (id : ℕ) : WinCode S δ Unit := do
  let sel ← .read
  let _ ← unregisterSocket (sel.events id).asRawSocket

/-- The end of `readDone`: an event that does not persist gives up the flags,
and the next operation is posted if the event still has its flag. -/
def postAgain (id : ℕ) (flags flag : EventFlags) (post : Post)
    (c : S → WinCode S δ (Except IoError Unit)) : WinCode S δ Unit := do
  edit id (·.unlessPersist flags)
  let sel ← .read
  .when ((sel.events id).entry.hasFlag flag) do
    .query (WinAsk.again post (sel.events id).asRawSocket)
    let ret ← c (sel.events id).asRawSocket
    match ret with
    | .error err => do
        edit id (·.fail err)
        dropEvent id
    | .ok () => edit id (·.setInRead true)

/-- `readDone` of a listener. -/
def acceptDone (id : ℕ) : WinCode S δ Unit := do
  let sel ← .read
  match (sel.events id).acceptSocket with
  | none => do
      let r ← .query WinAsk.panic
      nomatch r
  | some socket => do
      edit id (·.setAcceptSocket none)
      let result ← .query (WinAsk.acceptComplete (sel.events id).asRawSocket socket)
      edit id (·.setInRead false)
      let ret ← acceptCb id (result.map fun _ => socket)
      match ret with
      | .OVER => dropEvent id
      | _ =>
          postAgain id (EventFlags.FLAG_READ ∪ EventFlags.FLAG_ACCEPT) EventFlags.FLAG_ACCEPT
            .accept postAcceptEvent

def readDone (id : ℕ) (status : CompletionStatus) : WinCode S δ Unit := do
  let sel ← .read
  if (sel.events id).isAccept then acceptDone id
  else if status.flag.contains EventFlags.FLAG_ENDED then do
    let _ ← _unregisterSocket (sel.events id).asRawSocket
  else if status.bytesTransferred = 0 then dropEvent id
  else if (sel.events id).buffer.readCache.length < status.bytesTransferred then do
    let r ← .query WinAsk.panic
    nomatch r
  else do
    edit id (·.fill status.bytesTransferred)
    let sel ← .read
    let ret ← (if (sel.events id).buffer.hasReadBuffer then readCb id else pure .OK)
    match ret with
    | .OVER => dropEvent id
    | _ => postAgain id EventFlags.FLAG_READ EventFlags.FLAG_READ .read postReadEvent

def writeDone (id : ℕ) : WinCode S δ Unit := do
  edit id (·.setInWrite false)
  let ret ← writeCb id
  match ret with
  | .OVER => dropEvent id
  | _ => do
      let sel ← .read
      .when (¬ (sel.events id).buffer.write.empty) do
        .query (WinAsk.again .write (sel.events id).asRawSocket)
        let _ ← postWriteEvent (sel.events id).asRawSocket none

/-- Run the callback of the packet, which takes a reference to its event. -/
def dispatch (status : CompletionStatus) : WinCode S δ Unit :=
  match status.overlapped with
  | none => pure ()
  | some (.read id) => do
      .query (WinAsk.dispatch status (.read id))
      holding id (readDone id status)
  | some (.write id) => do
      .query (WinAsk.dispatch status (.write id))
      holding id (writeDone id)

/-- The loop of `doSelect`. -/
def dispatchAll : List CompletionStatus → WinCode S δ Unit
  | [] => pure ()
  | status :: statuses => do
      dispatch status
      dispatchAll statuses

/-- The error of a wait that ends without a packet. -/
def WAIT_TIMEOUT : IoError := .os 258

def doSelect : WinCode S δ (Except IoError ℕ) := do
  let ret ← .query WinAsk.getMany
  match ret with
  | .ok statuses => do
      dispatchAll statuses
      pure (.ok statuses.length)
  | .error e => if e = WAIT_TIMEOUT then pure (.ok 0) else pure (.error e)

end

/-! ## Runs of the selector -/

/-- The callbacks are the questions to the user. -/
def WinAsk.user : WinAsk S → Prop
  | .acceptCb _ _ => True
  | .readCb _ => True
  | .writeCb _ => True
  | .endCb _ => True
  | _ => False

/-- The system has a packet to deliver: the completion of an operation, or a
posted packet. The bytes of a read are in its buffer by then. The key of the
completion of an operation is left open. -/
inductive Delivers (sel : Selector S δ) (status : CompletionStatus) :
    Overlapped → Selector S δ → Prop
  | read {id} (bytes : List UInt8) (hout : sel.port.outstanding (.read id) ≠ 0)
      (hbytes : bytes.length = status.bytesTransferred)
      (hroom : bytes.length ≤ (sel.events id).buffer.readCache.length) :
      Delivers sel status (.read id)
        { sel.edit id (·.receive bytes) with port := sel.port.complete (.read id) }
  | write {id} (hout : sel.port.outstanding (.write id) ≠ 0) :
      Delivers sel status (.write id) { sel with port := sel.port.complete (.write id) }
  | posted {o} (hposted : sel.port.posted o ≠ 0) (hbytes : status.bytesTransferred = 0)
      (hflag : status.flag = EventFlags.FLAG_ENDED) :
      Delivers sel status o { sel with port := sel.port.take o }

/-- The answers of the environment. An operation that fails is not enqueued,
and a socket takes at most as many bytes as it is offered. -/
def WinAsk.answer : (q : WinAsk S) → Selector S δ → WinReply q → Selector S δ → Prop
  | .acceptOverlapped _ _ o, sel, .ok _, sel' => sel' = { sel with port := sel.port.enqueue o }
  | .readOverlapped _ _ o, sel, .ok _, sel' => sel' = { sel with port := sel.port.enqueue o }
  | .writeOverlapped _ data o, sel, .ok r, sel' =>
      sel' = { sel with port := sel.port.enqueue o } ∧ ∀ n, r = some n → n ≤ data.length
  | .postInfo _ _ o, sel, .ok _, sel' => sel' = { sel with port := sel.port.post o }
  | .dispatch status o, sel, _, sel' => Delivers sel status o sel'
  | .panic, _, r, _ => nomatch r
  | _, sel, _, sel' => sel' = sel

/-- The calls that reach the selector. `editBuffer` stands for what a callback
does to the buffer that it is given. -/
inductive WinCall (S δ : Type)
  | registerSocket (buffer : EventBuffer S) (entry : EventEntry S δ)
  | modifySocket (isDel : Bool) (socket : S) (entry : EventEntry S δ)
  | unregisterSocket (socket : S)
  | sendSocket (socket : S) (data : List UInt8)
  | doSelect
  | editBuffer (id : ℕ) (f : EventBuffer S → EventBuffer S)

/-- A callback leaves the socket in its buffer. -/
def WinCall.may : WinCall S δ → Prop
  | .editBuffer _ f => ∀ buffer, (f buffer).socket = buffer.socket
  | _ => True

/-- Change the buffer of an event. -/
def Event.editBuffer (f : EventBuffer S → EventBuffer S) (self : Event S δ) : Event S δ :=
  { self with buffer := f self.buffer }

/-- The code of a call. -/
def WinCall.code [DecidableEq S] : WinCall S δ → WinCode S δ Unit
  | .registerSocket buffer entry => do
      let _ ← Win.registerSocket buffer entry
  | .modifySocket isDel socket entry => do
      let _ ← Win.modifySocket isDel socket entry
  | .unregisterSocket socket => do
      let _ ← Win.unregisterSocket socket
  | .sendSocket socket data => do
      let _ ← Win.sendSocket socket data
  | .doSelect => do
      let _ ← Win.doSelect
  | .editBuffer id f => edit id (·.editBuffer f)

/-- The selector and its environment. -/
def winSystem (S δ : Type) [DecidableEq S] :
    System (Selector S δ) (WinReply (S := S)) (WinCall S δ) Unit where
  api := WinCall.code
  user := WinAsk.user
  answer := WinAsk.answer
  may _ op := op.may

/-- The selector before anything is registered. -/
def Selector.new [Zero S] : Selector S δ where
  eventMaps := fun _ => none
  events := fun _ => .new (.new 0 0) .default
  count := 0
  owners := .new
  port := .new
  stale := fun _ => 0
  log := []

end TdRevent.Win
