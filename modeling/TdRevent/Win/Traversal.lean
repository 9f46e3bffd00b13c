import TdRevent.Win.Calm
import TdRevent.Inflow

/-!
# The parts of the selector that no connection and no packet passes through

Most functions of the selector read no incoming bytes, hold no socket for the next
connection and register no event. What holds of their single steps and is kept by
composition holds of these functions. They are followed here once, for any such property.

## Implementation notes

The post of a listener is left to the property. The handler of a listener, that of a
stream and the registration are built from the functions here.
-/

namespace TdRevent.Win

open Interaction

variable {S δ α β : Type} {sel t : Selector S δ}

/-- A change of state that leaves the read buffers, their caches, the sockets for the next
connections and the registrations alone. -/
structure LeavesInput (sel t : Selector S δ) : Prop where
  read : ∀ id, (t.events id).buffer.read = (sel.events id).buffer.read
  readCache : ∀ id, (t.events id).buffer.readCache = (sel.events id).buffer.readCache
  acceptSocket : ∀ id, (t.events id).acceptSocket = (sel.events id).acceptSocket
  count : t.count = sel.count
  registered : registrations t.log = registrations sel.log

namespace LeavesInput

/-- No event changes. -/
theorem of_events (hevents : t.events = sel.events) (hcount : t.count = sel.count)
    (hregistered : registrations t.log = registrations sel.log) : LeavesInput sel t where
  read _ := by rw [hevents]
  readCache _ := by rw [hevents]
  acceptSocket _ := by rw [hevents]
  count := hcount
  registered := hregistered

theorem edit (sel : Selector S δ) (id : ℕ) {f : Event S δ → Event S δ}
    (hread : ∀ event, (f event).buffer.read = event.buffer.read)
    (hcache : ∀ event, (f event).buffer.readCache = event.buffer.readCache)
    (hsocket : ∀ event, (f event).acceptSocket = event.acceptSocket) :
    LeavesInput sel (sel.edit id f) where
  read := sel.edit_keeps id (fun event => event.buffer.read) hread
  readCache := sel.edit_keeps id (fun event => event.buffer.readCache) hcache
  acceptSocket := sel.edit_keeps id Event.acceptSocket hsocket
  count := rfl
  registered := rfl

theorem takeFront (sel : Selector S δ) (id n : ℕ) : LeavesInput sel (sel.takeFront id n) :=
  { edit sel id (f := (·.drain n)) (fun _ => rfl) (fun _ => rfl) fun _ => rfl with
    registered := registrations_accepted .. }

end LeavesInput

/-- The questions that hand over no bytes, no connection and no packet. -/
def WinAsk.plain : WinAsk S → Prop
  | .readOverlapped _ _ _ => True
  | .writeOverlapped _ _ _ => True
  | .close _ => True
  | .postInfo _ _ _ => True
  | .getMany => True
  | .again _ _ => True
  | .readCb _ => True
  | .writeCb _ => True
  | .endCb _ => True
  | _ => False

theorem WinAsk.plain.leaves {q : WinAsk S} (hq : q.plain) {r : WinReply q}
    (h : WinAsk.answer q sel r t) : LeavesInput sel t := by
  have hsame : ∀ {port : Port}, t = { sel with port := port } → LeavesInput sel t := by
    rintro port rfl
    exact .of_events rfl rfl rfl
  cases q with
  | readOverlapped => cases r <;> exact hsame h
  | writeOverlapped =>
      cases r with
      | error e => exact hsame h
      | ok n => exact hsame h.1
  | postInfo => cases r <;> exact hsame h
  | close => exact hsame h
  | getMany => exact hsame h
  | again => exact hsame h
  | readCb => exact hsame h
  | writeCb => exact hsame h
  | endCb => exact hsame h
  | _ => exact absurd hq id

/-- What holds of the single steps, and is kept by composition. -/
structure Traversal (P : ∀ {α : Type}, WinCode S δ α → Prop) : Prop where
  pure : ∀ {α : Type} (a : α), P (Pure.pure a : WinCode S δ α)
  bind : ∀ {α β : Type} {c : WinCode S δ α} {f : α → WinCode S δ β}, P c → (∀ a, P (f a)) →
    P (c >>= f)
  read_then : ∀ {β : Type} {f : Selector S δ → WinCode S δ β}, (∀ sel, P (f sel)) →
    P (.read >>= f)
  modify : ∀ {f : Selector S δ → Selector S δ}, (∀ sel, LeavesInput sel (f sel)) → P (.modify f)
  ask : ∀ {q : WinAsk S}, q.plain → P (.query q)
  postAcceptEvent : ∀ socket, P (Win.postAcceptEvent socket)

namespace Traversal

variable {P : ∀ {α : Type}, WinCode S δ α → Prop} (h : Traversal P)

include h

theorem when {p : Prop} [Decidable p] {c : WinCode S δ Unit} (hc : P c) : P (.when p c) := by
  unfold Code.when
  split
  · exact hc
  · exact h.pure ()

theorem edit (id : ℕ) {f : Event S δ → Event S δ}
    (hread : ∀ event, (f event).buffer.read = event.buffer.read)
    (hcache : ∀ event, (f event).buffer.readCache = event.buffer.readCache)
    (hsocket : ∀ event, (f event).acceptSocket = event.acceptSocket) : P (Win.edit id f) :=
  h.modify fun sel => .edit sel id hread hcache hsocket

/-! ## The owners -/

theorem freeUnowned (id : ℕ) : P (Win.freeUnowned id) := by
  refine h.read_then fun sel => h.when (h.bind (h.modify fun _ => ?_) fun _ => h.ask trivial)
  exact .of_events rfl rfl rfl

theorem letGo (id : ℕ) : P (Win.letGo id) :=
  h.bind (h.modify fun _ => .of_events rfl rfl rfl) fun _ => h.freeUnowned id

theorem holding (id : ℕ) {handler : WinCode S δ Unit} (hhandler : P handler) :
    P (Win.holding id handler) :=
  h.bind (h.modify fun _ => .of_events rfl rfl rfl) fun _ =>
    h.bind hhandler fun _ => h.letGo id

/-! ## The posts -/

theorem postReadEvent (socket : S) : P (Win.postReadEvent socket) := by
  refine h.read_then fun sel => ?_
  cases sel.eventMaps socket with
  | none => exact h.pure _
  | some id =>
      dsimp only
      split
      · exact h.pure _
      · split
        · exact h.pure _
        · exact h.bind (h.ask trivial) fun _ => h.pure _

theorem writeOut (id : ℕ) : P (Win.writeOut id) := by
  refine h.read_then fun sel => ?_
  split
  · exact h.pure _
  · refine h.bind (h.ask trivial) ?_
    rintro (e | _ | n)
    · exact h.pure _
    · refine h.bind (h.modify fun t => ?_) fun _ => h.pure _
      exact .of_events rfl rfl (registrations_accepted ..)
    · refine h.bind (h.modify fun t => .takeFront t id n) fun _ => h.read_then fun t => ?_
      refine h.bind (h.when ?_) fun _ => h.pure _
      exact h.edit id (fun _ => rfl) (fun _ => rfl) fun _ => rfl

theorem postWriteEvent (socket : S) (data : Option (List UInt8)) :
    P (Win.postWriteEvent socket data) := by
  refine h.read_then fun sel => ?_
  cases sel.eventMaps socket with
  | none => exact h.pure _
  | some id =>
      refine h.bind ?_ fun _ => h.writeOut id
      cases data with
      | none => exact h.pure ()
      | some data =>
          refine h.bind (h.edit id (fun _ => rfl) (fun _ => rfl) fun _ => rfl) fun _ => ?_
          exact h.modify fun _ => .of_events rfl rfl (registrations_sent ..)

theorem checkSocketEvent (socket : S) : P (Win.checkSocketEvent socket) := by
  refine h.read_then fun sel => ?_
  cases sel.eventMaps socket with
  | none => exact h.pure _
  | some id =>
      dsimp only
      split
      · exact h.postAcceptEvent socket
      · refine h.bind ?_ ?_
        · split
          · exact h.postReadEvent socket
          · exact h.pure _
        · rintro (e | _)
          · exact h.pure _
          · dsimp only
            split
            · exact h.bind (h.postWriteEvent socket none) fun _ => h.pure _
            · exact h.pure _

/-! ## The end of an event -/

theorem unregisterSocket (socket : S) : P (Win.unregisterSocket socket) := by
  refine h.read_then fun sel => ?_
  cases sel.eventMaps socket with
  | none => exact h.pure _
  | some id =>
      dsimp only
      split
      · exact h.pure _
      · refine h.bind (h.modify fun _ => .of_events rfl rfl rfl) fun _ => ?_
        refine h.bind (h.ask trivial) fun _ => ?_
        refine h.bind (h.edit id (fun _ => rfl) (fun _ => rfl) fun _ => rfl) fun _ => ?_
        exact h.ask trivial

theorem dropEvent (id : ℕ) : P (Win.dropEvent id) :=
  h.read_then fun _ => h.bind (h.unregisterSocket _) fun _ => h.pure ()

theorem modifySocket (isDel : Bool) (socket : S) (entry : EventEntry S δ) :
    P (Win.modifySocket isDel socket entry) := by
  refine h.read_then fun sel => ?_
  cases sel.eventMaps socket with
  | none => exact h.pure _
  | some id =>
      refine h.bind (h.edit id (fun _ => rfl) (fun _ => rfl) fun _ => rfl) fun _ => ?_
      refine h.bind (h.checkSocketEvent socket) ?_
      rintro (e | _)
      · refine h.bind (h.unregisterSocket socket) ?_
        rintro (e' | _) <;> exact h.pure _
      · exact h.pure _

/-! ## The handlers -/

theorem readCb (id : ℕ) : P (Win.readCb id) := by
  refine h.read_then fun sel => ?_
  cases (sel.events id).entry.read with
  | none => exact h.pure _
  | some cb => exact h.ask trivial

theorem writeCb (id : ℕ) : P (Win.writeCb id) := by
  refine h.read_then fun sel => ?_
  cases (sel.events id).entry.write with
  | none => exact h.pure _
  | some cb => exact h.ask trivial

theorem postAgain (id : ℕ) (flags flag : EventFlags) {post : Post}
    {c : S → WinCode S δ (Except IoError Unit)} (hc : ∀ socket, P (c socket)) :
    P (Win.postAgain id flags flag post c) := by
  have hunless : ∀ event : Event S δ, (event.unlessPersist flags).buffer = event.buffer ∧
      (event.unlessPersist flags).acceptSocket = event.acceptSocket := by
    intro event
    unfold Event.unlessPersist
    split <;> exact ⟨rfl, rfl⟩
  refine h.bind (h.edit id (fun event => ?_) (fun event => ?_) fun event => (hunless event).2)
    fun _ => h.read_then fun sel => h.when (h.bind (h.ask trivial) fun _ => h.bind (hc _) ?_)
  · rw [(hunless event).1]
  · rw [(hunless event).1]
  · rintro (e | _)
    · refine h.bind (h.edit id (fun _ => rfl) (fun _ => rfl) fun _ => rfl) fun _ => ?_
      exact h.dropEvent id
    · exact h.edit id (fun _ => rfl) (fun _ => rfl) fun _ => rfl

/-- What follows a callback: the event ends, or the code goes on. -/
theorem after_cb {id : ℕ} {ret : RetValue} {c : WinCode S δ Unit} (hc : P c) :
    P (match ret with
      | .OVER => Win.dropEvent id
      | _ => c) := by
  cases ret with
  | OVER => exact h.dropEvent id
  | OK => exact hc
  | CONTINUE => exact hc

/-- After the callback of a listener its next connection is waited for. -/
theorem accept_again (id : ℕ) (ret : RetValue) :
    P (match ret with
      | .OVER => Win.dropEvent id
      | _ => Win.postAgain (δ := δ) id (EventFlags.FLAG_READ ∪ EventFlags.FLAG_ACCEPT)
          EventFlags.FLAG_ACCEPT .accept Win.postAcceptEvent) :=
  h.after_cb (h.postAgain id _ _ h.postAcceptEvent)

/-- After the bytes of a stream are filled in, its callback runs and it is read on. -/
theorem read_again (id : ℕ) : P (Code.read >>= fun sel : Selector S δ =>
    (if (sel.events id).buffer.hasReadBuffer then Win.readCb id else Pure.pure .OK) >>=
      fun ret => match ret with
        | .OVER => Win.dropEvent id
        | _ => Win.postAgain id EventFlags.FLAG_READ EventFlags.FLAG_READ .read
            Win.postReadEvent) := by
  refine h.read_then fun sel => h.bind ?_ fun ret => ?_
  · split
    · exact h.readCb id
    · exact h.pure _
  · exact h.after_cb (h.postAgain id _ _ h.postReadEvent)

theorem writeDone (id : ℕ) : P (Win.writeDone id) := by
  refine h.bind (h.edit id (fun _ => rfl) (fun _ => rfl) fun _ => rfl) fun _ => ?_
  refine h.bind (h.writeCb id) fun ret => h.after_cb (h.read_then fun sel => h.when ?_)
  refine h.bind (h.ask trivial) fun _ => ?_
  exact h.bind (h.postWriteEvent _ none) fun _ => h.pure ()

/-! ## The last step of an event, and the loop -/

variable [DecidableEq S]

theorem remove (socket : S) : P (.modify (·.remove socket)) :=
  h.modify fun _ => .of_events rfl rfl rfl

theorem removeEvent (socket : S) : P (Win.removeEvent socket) := by
  refine h.read_then fun sel => ?_
  cases sel.eventMaps socket with
  | none => exact h.pure ()
  | some id => exact h.bind (h.remove socket) fun _ => h.freeUnowned id

theorem _unregisterSocket (socket : S) : P (Win._unregisterSocket socket) := by
  refine h.read_then fun sel => ?_
  cases sel.eventMaps socket with
  | none => exact h.pure _
  | some id =>
      refine h.bind (h.remove socket) fun _ => h.bind (h.holding id ?_) fun _ => h.pure _
      refine h.read_then fun sel => ?_
      cases (sel.events id).entry.end_ with
      | none => exact h.pure ()
      | some cb =>
          refine h.bind (h.edit id (fun _ => rfl) (fun _ => rfl) fun _ => rfl) fun _ => ?_
          exact h.ask trivial

theorem dispatchAll (hdispatch : ∀ status, P (Win.dispatch status))
    (statuses : List CompletionStatus) : P (Win.dispatchAll statuses) := by
  induction statuses with
  | nil => exact h.pure ()
  | cons status statuses ih => exact h.bind (hdispatch status) fun _ => ih

theorem doSelect (hdispatch : ∀ status, P (Win.dispatch status)) : P Win.doSelect := by
  refine h.bind (h.ask trivial) ?_
  rintro (e | statuses)
  · dsimp only
    split <;> exact h.pure _
  · exact h.bind (h.dispatchAll hdispatch statuses) fun _ => h.pure _

/-- The calls, but for changes of a buffer. -/
theorem code (hregister : ∀ buffer entry, P (Win.registerSocket buffer entry))
    (hdispatch : ∀ status, P (Win.dispatch status)) {op : WinCall S δ}
    (hop : ∀ id f, op ≠ .editBuffer id f) : P op.code := by
  cases op with
  | registerSocket buffer entry => exact h.bind (hregister buffer entry) fun _ => h.pure ()
  | modifySocket isDel socket entry =>
      exact h.bind (h.modifySocket isDel socket entry) fun _ => h.pure ()
  | unregisterSocket socket => exact h.bind (h.unregisterSocket socket) fun _ => h.pure ()
  | sendSocket socket data =>
      exact h.bind (h.postWriteEvent socket (some data)) fun _ => h.pure ()
  | doSelect => exact h.bind (h.doSelect hdispatch) fun _ => h.pure ()
  | editBuffer id f => exact absurd rfl (hop id f)

end Traversal

end TdRevent.Win
