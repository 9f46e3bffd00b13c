import TdRevent.Unix.Selector
import Mathlib.Data.Finset.Insert

/-!
# The selector for epoll

The kernel keeps one interest for each watched descriptor: the events to watch
and a number that it returns with them.
-/

namespace TdRevent.Unix

open Interaction

namespace Epoll

/-- The bits of an event kind that the selector uses. -/
inductive EpollBit
  | EPOLLIN | EPOLLOUT
  deriving DecidableEq, Repr

abbrev EpollEventKind := Finset EpollBit

structure EpollEvent where
  events : EpollEventKind
  data : UInt64
  deriving DecidableEq

inductive EpollOp
  | EpollCtlAdd | EpollCtlMod | EpollCtlDel
  deriving DecidableEq

/-- The calls to the kernel. -/
inductive EpollCall
  | epollCtl (op : EpollOp) (socket : SOCKET) (info : EpollEvent)
  | epollWait

@[reducible] def EpollReply : EpollCall → Type
  | .epollCtl .. => Except IoError Unit
  | .epollWait => Except IoError (List EpollEvent)

/-- The interest that the kernel keeps for each descriptor. -/
abbrev Interest := SOCKET → Option EpollEvent

variable {δ : Type}

abbrev EpollCode (δ α : Type) := SockCode SOCKET δ (List EpollEvent) Interest EpollReply α

def ioeventToEpoll (evEvents : EventFlags) : EpollEventKind :=
  let kind : EpollEventKind := ∅
  let kind := if evEvents.contains EventFlags.FLAG_READ then insert .EPOLLIN kind else kind
  if evEvents.contains EventFlags.FLAG_WRITE then insert .EPOLLOUT kind else kind

def epollCtl (op : EpollOp) (socket : SOCKET) (info : EpollEvent) :
    EpollCode δ (Except IoError Unit) :=
  .query (SockAsk.sys (EpollCall.epollCtl op socket info))

def modregister (socket : SOCKET) (evEvents : EventFlags) : EpollCode δ (Except IoError Unit) :=
  epollCtl .EpollCtlMod socket ⟨ioeventToEpoll evEvents, socket.asU64⟩

def deregister (socket : SOCKET) (evEvents : EventFlags) : EpollCode δ (Except IoError Unit) :=
  epollCtl .EpollCtlDel socket ⟨ioeventToEpoll evEvents, 0⟩

/-- The calls of the epoll selector. The change in `modifySocket` is made
with `EpollCtlDel`. -/
def epoll : Backend SOCKET δ (List EpollEvent) Interest EpollReply where
  add socket evEvents :=
    epollCtl .EpollCtlAdd socket ⟨ioeventToEpoll evEvents, socket.asU64⟩
  change socket evEvents := epollCtl .EpollCtlDel socket ⟨ioeventToEpoll evEvents, 0⟩
  wantWrite := modregister
  dropWrite := modregister
  deregister := deregister

def readDone (socket : SOCKET) : EpollCode δ Unit := Unix.readDone epoll socket

def writeDone (socket : SOCKET) : EpollCode δ Unit := Unix.writeDone epoll socket

def registerSocket (buffer : EventBuffer SOCKET) (entry : EventEntry SOCKET δ) :
    EpollCode δ (Except IoError Unit) := Unix.registerSocket epoll buffer entry

def modifySocket (isDel : Bool) (socket : SOCKET) (entry : EventEntry SOCKET δ) :
    EpollCode δ (Except IoError Unit) := Unix.modifySocket epoll isDel socket entry

def unregisterSocket (socket : SOCKET) : EpollCode δ (Except IoError Unit) :=
  Unix.unregisterSocket epoll socket

def sendSocket (socket : SOCKET) (data : List UInt8) : EpollCode δ (Except IoError ℕ) :=
  Unix.sendSocket epoll socket data

/-- The loop of `doSelect`, from the index `i` on. -/
def dispatch : ℕ → ℕ → EpollCode δ Unit
  | 0, _ => pure ()
  | left + 1, i => do
      let sel ← .read
      match sel.evts[i]? with
      | none => .ask .panic nofun
      | some value => do
          .when (.EPOLLIN ∈ value.events) (readDone (.ofU64 value.data))
          .when (.EPOLLOUT ∈ value.events) (writeDone (.ofU64 value.data))
          dispatch left (i + 1)

def doSelect : EpollCode δ Unit := do
  let ret ← .query (SockAsk.sys EpollCall.epollWait)
  match ret with
  | .error _ => pure ()
  | .ok events => do
      .modify fun sel => { sel with evts := events }
      dispatch events.length 0

/-! ## The kernel -/

/-- `epollCtl` succeeds only if the descriptor is absent for an addition and
present for a change or a deletion. A change or a deletion that may succeed does,
and an addition may still be refused. A closed descriptor is dropped. -/
def epollOs : Os SOCKET Interest EpollReply where
  opens _ k k' := k' = k
  closes socket k k' := k' = Function.update k socket none
  sys
    | .epollCtl op socket info, k, r, k' =>
        ((op = .EpollCtlAdd ↔ k socket = none) ∧ r = .ok () ∧
          k' = Function.update k socket (if op = .EpollCtlDel then none else some info)) ∨
        ((op = .EpollCtlAdd ∨ k socket = none) ∧ (∃ e, r = .error e) ∧ k' = k)
    | .epollWait, k, _, k' => k' = k

theorem epollOs_ok {op : EpollOp} {socket : SOCKET} {info : EpollEvent} {k : Interest}
    (h : op = .EpollCtlAdd ↔ k socket = none) :
    epollOs.sys (.epollCtl op socket info) k (.ok ())
      (Function.update k socket (if op = .EpollCtlDel then none else some info)) :=
  Or.inl ⟨h, rfl, rfl⟩

theorem epollOs_error {op : EpollOp} {socket : SOCKET} {info : EpollEvent} {k : Interest}
    (h : op = .EpollCtlAdd ∨ k socket = none) (e : IoError) :
    epollOs.sys (.epollCtl op socket info) k (.error e) k :=
  Or.inr ⟨h, ⟨e, rfl⟩, rfl⟩

/-- The rules of `epollCtl`. A call that succeeds has exactly its effect, and
one that fails has none. A change or a deletion succeeds exactly if the
descriptor is watched. An addition may fail. -/
structure Obeys (os : Os SOCKET Interest EpollReply) : Prop where
  opens : ∀ {socket k k'}, os.opens socket k k' → k' = k
  closes : ∀ {socket k k'}, os.closes socket k k' → k' = Function.update k socket none
  wait : ∀ {k r k'}, os.sys .epollWait k r k' → k' = k
  done : ∀ {op socket info k k'}, os.sys (.epollCtl op socket info) k (.ok ()) k' →
    k' = Function.update k socket (if op = .EpollCtlDel then none else some info)
  refused : ∀ {op socket info k e k'}, os.sys (.epollCtl op socket info) k (.error e) k' → k' = k
  watched : ∀ {op socket info k r k'}, op ≠ .EpollCtlAdd → k socket ≠ none →
    os.sys (.epollCtl op socket info) k r k' → r = .ok ()
  absent : ∀ {op socket info k k'}, op ≠ .EpollCtlAdd → k socket = none →
    ¬ os.sys (.epollCtl op socket info) k (.ok ()) k'

theorem epollOs_obeys : Obeys epollOs where
  opens h := h
  closes h := h
  wait h := h
  done := by
    rintro op socket info k k' (⟨-, -, hk⟩ | ⟨-, ⟨e, he⟩, -⟩)
    · exact hk
    · exact absurd he nofun
  refused := by
    rintro op socket info k e k' (⟨-, hr, -⟩ | ⟨-, -, hk⟩)
    · exact absurd hr nofun
    · exact hk
  watched := by
    rintro op socket info k r k' hop hk (⟨-, hr, -⟩ | ⟨hor, -, -⟩)
    · exact hr
    · exact absurd hor (not_or.mpr ⟨hop, hk⟩)
  absent := by
    rintro op socket info k k' hop hk (⟨hiff, -, -⟩ | ⟨-, ⟨e, he⟩, -⟩)
    · exact hop (hiff.mpr hk)
    · exact absurd he nofun

/-- The epoll selector and its environment. -/
abbrev epollSystem (δ : Type) :
    System (Selector SOCKET δ (List EpollEvent) Interest) (SockReply (S := SOCKET) EpollReply)
      (SockCall SOCKET δ) Unit :=
  unixSystem epoll epollOs doSelect

end Epoll

end TdRevent.Unix
