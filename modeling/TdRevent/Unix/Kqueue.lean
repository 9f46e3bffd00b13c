import TdRevent.Unix.Selector
import Mathlib.Data.Finset.Insert
import Mathlib.Data.Finset.Erase

/-!
# The selector for kqueue

The kernel keeps a set of filters for each open descriptor. Changes are
collected in the vector `sysEvents`, the same that receives the events of a
`keventTs` call, and `flushChanges` submits and clears the whole vector.

## Implementation notes

The fields from `batch` on are history: the events of the running `doSelect`,
those that were handed to a handler, and those that still have to be. The
question `hand` marks the moment at which the loop takes up an event.
-/

namespace TdRevent.Unix.Kqueue

open Interaction

inductive EventFilter
  | EVFILT_READ | EVFILT_WRITE
  deriving DecidableEq, Repr

/-- The bits of the flags of an event. -/
inductive EventBit
  | EV_ADD | EV_DELETE | EV_ENABLE | EV_DISABLE | EV_EOF | EV_ERROR
  deriving DecidableEq, Repr

abbrev EventFlag := Finset EventBit

structure KEvent where
  ident : UInt64
  filter : EventFilter
  flags : EventFlag
  deriving DecidableEq

/-- The vector of the selector, and the history of the running `doSelect`. -/
structure Events where
  sysEvents : List KEvent
  batch : List KEvent
  handed : List KEvent
  pending : List KEvent
  running : Bool

def Events.new : Events := ⟨[], [], [], [], false⟩

/-- The calls to the kernel, and the mark of the history. -/
inductive KqueueCall
  | kevent (changes : List KEvent)
  | keventTs
  | hand (e : KEvent)

@[reducible] def KqueueReply : KqueueCall → Type
  | .kevent _ => Except IoError Unit
  | .keventTs => Except IoError (List KEvent)
  | .hand _ => Unit

/-- The open descriptors and their filters. -/
structure Kernel where
  live : SOCKET → Bool
  filters : SOCKET → Finset EventFilter

variable {δ : Type}

abbrev KqueueCode (δ α : Type) := SockCode SOCKET δ Events Kernel KqueueReply α

/-- Change the vector. -/
def setSysEvents (f : List KEvent → List KEvent)
    (sel : Selector SOCKET δ Events Kernel) : Selector SOCKET δ Events Kernel :=
  { sel with evts := { sel.evts with sysEvents := f sel.evts.sysEvents } }

def evPush (fd : SOCKET) (filter : EventFilter) (flags : EventFlag) : KqueueCode δ Unit :=
  .modify (setSysEvents (· ++ [⟨fd.asU64, filter, flags⟩]))

def evRegister (fd : SOCKET) (filter : EventFilter) (enable : Bool) : KqueueCode δ Unit :=
  let flags : EventFlag := {.EV_ADD}
  let flags := if enable then flags ∪ {.EV_ENABLE} else flags ∪ {.EV_DISABLE}
  evPush fd filter flags

def flushChanges : KqueueCode δ (Except IoError Unit) := do
  let sel ← .read
  let result ← .query (SockAsk.sys (KqueueCall.kevent sel.evts.sysEvents))
  .modify (setSysEvents fun _ => [])
  pure result

def register (socket : SOCKET) (evEvents : EventFlags) :
    KqueueCode δ (Except IoError Unit) := do
  .when (evEvents.contains EventFlags.FLAG_READ) (evRegister socket .EVFILT_READ true)
  .when (evEvents.contains EventFlags.FLAG_WRITE) (evRegister socket .EVFILT_WRITE true)
  flushChanges

def deregister (socket : SOCKET) (evEvents : EventFlags) :
    KqueueCode δ (Except IoError Unit) := do
  .when (evEvents.contains EventFlags.FLAG_READ) (evPush socket .EVFILT_READ {.EV_DELETE})
  .when (evEvents.contains EventFlags.FLAG_WRITE) (evPush socket .EVFILT_WRITE {.EV_DELETE})
  flushChanges

/-- The calls of the kqueue selector. -/
def kqueue : Backend SOCKET δ Events Kernel KqueueReply where
  add := register
  change := register
  wantWrite socket _ := register socket EventFlags.FLAG_WRITE
  dropWrite socket _ := deregister socket EventFlags.FLAG_WRITE
  deregister := deregister

def readDone (socket : SOCKET) : KqueueCode δ Unit := Unix.readDone kqueue socket

def writeDone (socket : SOCKET) : KqueueCode δ Unit := Unix.writeDone kqueue socket

def registerSocket (buffer : EventBuffer SOCKET) (entry : EventEntry SOCKET δ) :
    KqueueCode δ (Except IoError Unit) := Unix.registerSocket kqueue buffer entry

def modifySocket (isDel : Bool) (socket : SOCKET) (entry : EventEntry SOCKET δ) :
    KqueueCode δ (Except IoError Unit) := Unix.modifySocket kqueue isDel socket entry

def unregisterSocket (socket : SOCKET) : KqueueCode δ (Except IoError Unit) :=
  Unix.unregisterSocket kqueue socket

def sendSocket (socket : SOCKET) (data : List UInt8) : KqueueCode δ (Except IoError ℕ) :=
  Unix.sendSocket kqueue socket data

/-- The loop takes up an event. -/
def hand (e : KEvent) : KqueueCode δ Unit := do
  .query (SockAsk.sys (KqueueCall.hand e))
  .modify fun sel =>
    { sel with
      evts :=
        { sel.evts with handed := sel.evts.handed ++ [e], pending := sel.evts.pending.tail } }

/-- The loop of `doSelect`, from the index `i` on. -/
def dispatch : ℕ → ℕ → KqueueCode δ Unit
  | 0, _ => pure ()
  | left + 1, i => do
      let sel ← .read
      match sel.evts.sysEvents[i]? with
      | none => .ask .panic nofun
      | some e => do
          hand e
          .when (e.filter = .EVFILT_READ) (readDone (.ofU64 e.ident))
          .when (e.filter = .EVFILT_WRITE) (writeDone (.ofU64 e.ident))
          dispatch left (i + 1)

def doSelect : KqueueCode δ Unit := do
  let ret ← .query (SockAsk.sys KqueueCall.keventTs)
  match ret with
  | .error _ => pure ()
  | .ok events => do
      .modify fun sel =>
        { sel with
          evts :=
            { sysEvents := events, batch := events, handed := [], pending := events,
              running := true } }
      dispatch events.length 0
      .modify fun sel => { sel with evts := { sel.evts with running := false } }

/-! ## The kernel -/

/-- The event asks for a change: events that were received do not. -/
def KEvent.alters (e : KEvent) : Prop := .EV_ADD ∈ e.flags ∨ .EV_DELETE ∈ e.flags

instance (e : KEvent) : Decidable e.alters := inferInstanceAs (Decidable (_ ∨ _))

/-- Change the filters of a descriptor, if it is open. -/
def Kernel.adjust (k : Kernel) (socket : SOCKET) (f : Finset EventFilter → Finset EventFilter) :
    Kernel :=
  if k.live socket then
    { k with filters := Function.update k.filters socket (f (k.filters socket)) }
  else k

/-- What a change asks for. -/
def KEvent.effect (flags : EventFlag) (filter : EventFilter) (filters : Finset EventFilter) :
    Finset EventFilter :=
  if .EV_DELETE ∈ flags then filters.erase filter
  else if .EV_ADD ∈ flags then insert filter filters
  else filters

def Kernel.change (k : Kernel) (e : KEvent) : Kernel :=
  k.adjust (.ofU64 e.ident) (KEvent.effect e.flags e.filter)

/-- A `kevent` call makes the changes to open descriptors, and succeeds exactly
if all of them are open. A closed descriptor loses its filters. -/
def kqueueOs : Os SOCKET Kernel KqueueReply where
  opens socket k k' :=
    k.live socket = false ∧
      k' = ⟨Function.update k.live socket true, Function.update k.filters socket ∅⟩
  closes socket k k' :=
    k' = ⟨Function.update k.live socket false, Function.update k.filters socket ∅⟩
  sys
    | .kevent changes, k, r, k' =>
        k' = changes.foldl Kernel.change k ∧
          (r = .ok () ↔ ∀ e ∈ changes, e.alters → k.live (.ofU64 e.ident) = true)
    | .keventTs, k, r, k' =>
        k' = k ∧ ∀ events, r = .ok events → ∀ e ∈ events, ¬ e.alters
    | .hand _, k, _, k' => k' = k

theorem kqueueOs_ok {changes : List KEvent} {k : Kernel}
    (h : ∀ e ∈ changes, e.alters → k.live (.ofU64 e.ident) = true) :
    kqueueOs.sys (.kevent changes) k (.ok ()) (changes.foldl Kernel.change k) :=
  ⟨rfl, fun _ => h, fun _ => rfl⟩

/-- The kqueue selector and its environment. -/
abbrev kqueueSystem (δ : Type) :
    System (Selector SOCKET δ Events Kernel) (SockReply (S := SOCKET) KqueueReply)
      (SockCall SOCKET δ) Unit :=
  unixSystem kqueue kqueueOs doSelect

end TdRevent.Unix.Kqueue
