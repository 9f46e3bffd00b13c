import TdRevent.Unix.Dispatch

/-!
# What epoll watches

The kernel should watch exactly the registered sockets, each for the events
that the flags of its entry ask for. Every operation but `modifySocket` keeps
this: `modifySocket` reports its change with `EpollCtlDel`, which drops the
socket and leaves it in the map.

Two more kinds of calls break the agreement. A registration of the number of a
socket from its own end callback is undone by the last call of
`unregisterSocket`. A registration of a socket from one of its own handlers is
refused, and the descriptor is closed with the new event. The handler still holds
the old event, and closes the number once more at its end, when it may be another
socket that is registered. Elsewhere the descriptor of a socket that is registered
a second time is closed before the kernel is asked to watch it. Kernel and map
forget the socket then, unless the kernel takes the number.
-/

namespace TdRevent.Unix.Epoll

open Interaction Discipline

variable {δ : Type} {sel : Selector SOCKET δ (List EpollEvent) Interest}
  {os : Os SOCKET Interest EpollReply}

/-- The interest that an event asks for. -/
def interestOf (socket : SOCKET) (event : Event SOCKET δ) : EpollEvent :=
  ⟨ioeventToEpoll event.entry.evEvents, socket.asU64⟩

/-- The kernel watches the registered sockets for the events of their entries. -/
def InterestAgrees (sel : Selector SOCKET δ (List EpollEvent) Interest) : Prop :=
  ∀ socket,
    sel.kernel socket = (sel.eventMaps socket).map fun id => interestOf socket (sel.events id)

/-- The calls that keep the agreement: a socket is not registered again while one
of its handlers is running, is not modified, and does not come back while its end
callback is running. -/
def KeepsInterest : Selector SOCKET δ (List EpollEvent) Interest →
    Move (SockReply (S := SOCKET) EpollReply) (SockCall SOCKET δ) → Prop
  | sel, .call (.registerSocket buffer _) =>
      ∀ id, sel.eventMaps buffer.asRawSocket = some id → sel.owners.holds id = 0
  | sel, .call (.modifySocket _ socket _) => sel.eventMaps socket = none
  | sel, .answer (.endCb _ socket) _ => sel.eventMaps socket = none
  | _, _ => True

/-- The invariant of the interests. -/
structure Watched (sel : Selector SOCKET δ (List EpollEvent) Interest) : Prop where
  agrees : InterestAgrees sel
  owned : sel.Owned

namespace Watched

theorem keyed (h : Watched sel) : sel.Keyed := h.owned.toKeyed

/-- A registered socket is watched. -/
theorem present (h : Watched sel) {socket : SOCKET} {id : ℕ}
    (hmaps : sel.eventMaps socket = some id) : sel.kernel socket ≠ none := by
  rw [h.agrees socket, hmaps]
  exact nofun

/-- No other socket is. -/
theorem absent (h : Watched sel) {socket : SOCKET} (hmaps : sel.eventMaps socket = none) :
    sel.kernel socket = none := by
  rw [h.agrees socket, hmaps]
  rfl

/-- The buffer of received events does not matter. -/
theorem with_evts (h : Watched sel) (evts : List EpollEvent) : Watched { sel with evts := evts } :=
  ⟨h.agrees, h.owned.evts evts⟩

theorem note (h : Watched sel) (e : SockEvent SOCKET) : Watched (sel.note e) :=
  ⟨h.agrees, h.owned.note e⟩

/-- A change of an event that leaves its flags and its socket. -/
theorem edit (h : Watched sel) (id : ℕ) {f : Event SOCKET δ → Event SOCKET δ}
    (hflags : ∀ event, (f event).entry.evEvents = event.entry.evEvents)
    (hsocket : ∀ event, (f event).asRawSocket = event.asRawSocket) :
    Watched (sel.edit id f) := by
  refine ⟨fun socket => ?_, h.owned.edit id hsocket⟩
  have hkept : ∀ id', interestOf socket ((sel.edit id f).events id') =
      interestOf socket (sel.events id') :=
    sel.edit_keeps id f (interestOf socket) fun event => by rw [interestOf, hflags, interestOf]
  simp only [hkept]
  exact h.agrees socket

/-- A change of the flags that the kernel is told about. -/
theorem edit_told (h : Watched sel) {socket : SOCKET} {id : ℕ}
    (hmaps : sel.eventMaps socket = some id) {f : Event SOCKET δ → Event SOCKET δ}
    (hsocket : ∀ event, (f event).asRawSocket = event.asRawSocket) :
    Watched { sel.edit id f with
      kernel := Function.update sel.kernel socket (some (interestOf socket (f (sel.events id)))) }
    := by
  refine ⟨fun socket' => ?_, (h.owned.edit id hsocket).kernel _⟩
  dsimp only
  by_cases hs : socket' = socket
  · subst hs
    rw [Function.update_self, Selector.edit_eventMaps, hmaps, Option.map_some, sel.edit_self]
  · rw [Function.update_of_ne hs, h.agrees socket']
    apply Option.map_congr
    intro id' hmaps'
    have hne : id' ≠ id := by
      rintro rfl
      exact hs (h.keyed.inj hmaps' hmaps)
    rw [sel.edit_of_ne id f hne]

/-- A new socket that the kernel took. -/
theorem insert (h : Watched sel) {buffer : EventBuffer SOCKET} (entry : EventEntry SOCKET δ)
    (hmaps : sel.eventMaps buffer.asRawSocket = none) :
    Watched { sel.insert buffer entry with
      kernel := Function.update sel.kernel buffer.asRawSocket
        (some (interestOf buffer.asRawSocket (.new buffer entry : Event SOCKET δ))) } := by
  refine ⟨fun socket => ?_, (h.owned.insert hmaps entry).kernel _⟩
  dsimp only
  by_cases hs : socket = buffer.asRawSocket
  · subst hs
    rw [Function.update_self, sel.insert_maps, Option.map_some, sel.insert_new]
  · rw [Function.update_of_ne hs, sel.insert_maps_of_ne buffer entry hs, h.agrees socket]
    apply Option.map_congr
    intro id hmaps
    rw [sel.insert_old buffer entry (h.keyed.ids hmaps)]

/-- A socket that was closed. -/
theorem unlink (h : Watched sel) {socket : SOCKET} {id : ℕ}
    (hmaps : sel.eventMaps socket = some id) :
    Watched { (sel.remove socket).shut id with
      kernel := Function.update sel.kernel socket none } := by
  refine ⟨fun socket' => ?_, (h.owned.unlink hmaps).kernel _⟩
  change Function.update sel.kernel socket none socket' =
    ((sel.remove socket).eventMaps socket').map fun id => interestOf socket' (sel.events id)
  by_cases hs : socket' = socket
  · subst hs
    rw [Function.update_self, sel.remove_maps, Option.map_none]
  · rw [Function.update_of_ne hs, sel.remove_maps_of_ne hs]
    exact h.agrees socket'

end Watched

/-! ## The operations -/

/-- Code that keeps the agreement. -/
abbrev KeepsWatched {α : Type} (os : Os SOCKET Interest EpollReply) (c : EpollCode δ α)
    (sel : Selector SOCKET δ (List EpollEvent) Interest) : Prop :=
  Keeps epoll os doSelect KeepsInterest (ofInv Watched) c sel

/-- A call to the kernel has its effect, or it fails and has none. -/
theorem epollCtl_answered (hos : Obeys os) {op : EpollOp} {socket : SOCKET} {info : EpollEvent}
    {Q : Except IoError Unit → Selector SOCKET δ (List EpollEvent) Interest → Prop}
    (hok : (op ≠ .EpollCtlAdd → sel.kernel socket ≠ none) → Q (.ok ()) { sel with
      kernel := Function.update sel.kernel socket (if op = .EpollCtlDel then none else some info) })
    (herror : (op ≠ .EpollCtlAdd → sel.kernel socket = none) → ∀ e, Q (.error e) sel) :
    (ofInv Watched).Safe (unixRuns epoll os doSelect KeepsInterest)
      (epollCtl op socket info) Q sel := by
  refine Safe.ask (fun hu => hu) trivial ?_
  rintro (e | ⟨⟩) _ ⟨⟨k, hk, rfl⟩, -⟩
  · obtain rfl := hos.refused hk
    refine ⟨herror (fun hop => ?_) e, trivial⟩
    by_contra hwatched
    exact absurd (hos.watched hop hwatched hk) nofun
  · obtain rfl := hos.done hk
    exact ⟨hok fun hop habsent => hos.absent hop habsent hk, trivial⟩

/-- Telling the kernel about changed flags. -/
theorem modregister_told {α : Type} (hos : Obeys os) (h : Watched sel) {socket : SOCKET} {id : ℕ}
    (hmaps : sel.eventMaps socket = some id) {f : Event SOCKET δ → Event SOCKET δ}
    (hsocket : ∀ event, (f event).asRawSocket = event.asRawSocket)
    {next : Except IoError Unit → EpollCode δ α}
    (hnext : ∀ r t, Watched t → KeepsWatched os (next r) t) :
    KeepsWatched os (do
      Unix.edit id f
      let sel ← .read
      let ret ← modregister (sel.events id).asRawSocket (sel.events id).entry.evEvents
      next ret) sel := by
  refine Safe.bind (Safe.modify (Safe.bind (Safe.read (Safe.bind ?_))) trivial)
  rw [sel.edit_self, hsocket, h.keyed.sockets hmaps]
  apply epollCtl_answered hos
  · exact fun _ => hnext _ _ (h.edit_told hmaps hsocket)
  · exact fun habsent => absurd (habsent nofun) (h.present hmaps)

/-- Taking a socket out of the kernel that is in no map changes nothing. -/
theorem deregister_absent (hos : Obeys os) (h : Watched sel) {socket : SOCKET}
    {evEvents : EventFlags} (hmaps : sel.eventMaps socket = none) :
    KeepsWatched os (deregister socket evEvents) sel := by
  apply epollCtl_answered hos
  · exact fun hwatched => absurd (h.absent hmaps) (hwatched nofun)
  · exact fun _ _ => h

theorem writeOver_watched (hos : Obeys os) (h : Watched sel) {socket : SOCKET} {id : ℕ}
    (hmaps : sel.eventMaps socket = some id) : KeepsWatched os (writeOver epoll id) sel :=
  modregister_told hos h hmaps (f := Event.disarm) (fun _ => rfl) fun _ _ ht => Safe.pure ht

theorem sendSocket_watched (hos : Obeys os) (h : Watched sel) (socket : SOCKET)
    (data : List UInt8) : KeepsWatched os (Unix.sendSocket epoll socket data) sel := by
  unfold Unix.sendSocket
  apply Safe.read_then
  cases hmaps : sel.eventMaps socket with
  | none => exact Safe.pure h
  | some id =>
      have hsent : Watched ((sel.edit id (·.append data)).note (.sent id data)) :=
        (h.edit id (f := (·.append data)) (fun _ => rfl) fun _ => rfl).note _
      refine Safe.bind (Safe.modify (Safe.bind (Safe.modify (Safe.bind (Safe.read ?_)) trivial))
        trivial)
      split
      · exact Safe.pure hsent
      · apply modregister_told hos hsent hmaps (f := Event.arm) (fun _ => rfl)
        intro r t ht
        cases r with
        | ok _ => exact Safe.pure ht
        | error e => exact Safe.pure ht

/-- A new socket that the kernel refused. Its event is closed. -/
theorem Watched.insert_refused (h : Watched sel) {buffer : EventBuffer SOCKET}
    (entry : EventEntry SOCKET δ) (hmaps : sel.eventMaps buffer.asRawSocket = none) :
    Watched { ((sel.insert buffer entry).remove buffer.asRawSocket).shut sel.count with
      kernel := Function.update sel.kernel buffer.asRawSocket none } := by
  have howned := (h.owned.insert hmaps entry).unlink (sel.insert_maps buffer entry)
  refine ⟨fun socket => ?_, howned.kernel _⟩
  change Function.update sel.kernel buffer.asRawSocket none socket =
    (((sel.insert buffer entry).remove buffer.asRawSocket).eventMaps socket).map fun id =>
      interestOf socket ((sel.insert buffer entry).events id)
  by_cases hs : socket = buffer.asRawSocket
  · subst hs
    rw [Function.update_self, Selector.remove_maps, Option.map_none]
  · rw [Function.update_of_ne hs, (sel.insert buffer entry).remove_maps_of_ne hs,
      sel.insert_maps_of_ne buffer entry hs]
    refine (h.agrees socket).trans (Option.map_congr fun id hid => ?_)
    have hold := sel.insert_old buffer entry (h.keyed.ids hid)
    exact congrArg (interestOf socket) hold.symm

/-- A registration under a number that is free. -/
theorem addEvent_watched (hos : Obeys os) (h : Watched sel) {buffer : EventBuffer SOCKET}
    {entry : EventEntry SOCKET δ} (hmaps : sel.eventMaps buffer.asRawSocket = none) :
    KeepsWatched os (addEvent epoll buffer entry) sel := by
  refine Safe.bind (Safe.modify (Safe.bind ?_) trivial)
  apply epollCtl_answered hos
  · exact fun _ => Safe.pure (h.insert entry hmaps)
  · intro _ e
    refine Safe.bind (removeEvent_of_maps (h.owned.insert hmaps entry)
      (sel.insert_maps buffer entry) (sel.owners.enroll_holds_self _) fun k hk => ?_)
    obtain rfl := hos.closes hk
    exact Safe.pure (h.insert_refused entry hmaps)

theorem registerSocket_watched (hos : Obeys os) (h : Watched sel) {buffer : EventBuffer SOCKET}
    {entry : EventEntry SOCKET δ}
    (hok : KeepsInterest sel (.call (.registerSocket buffer entry))) :
    KeepsWatched os (Unix.registerSocket epoll buffer entry) sel := by
  refine Safe.bind (removeEvent_owned h.owned hok ?_ ?_)
  · exact fun hmaps => addEvent_watched hos h hmaps
  · intro id k hmaps hk
    obtain rfl := hos.closes hk
    exact addEvent_watched hos (h.unlink hmaps) (sel.remove_maps buffer.asRawSocket)

/-- Every piece of the selector keeps the agreement. -/
theorem maintains_watched (hos : Obeys os) :
    Maintains (epoll (δ := δ)) os doSelect KeepsInterest (ofInv Watched) fun _ => True where
  guard _ _ _ _ := trivial
  guardClose _ _ _ _ _ := trivial
  editBuffer _ id _ h _ hf := ⟨h.edit id (fun _ => rfl) fun event => hf event.buffer, trivial⟩
  fill _ id _ h := ⟨h.edit id (fun _ => rfl) fun _ => rfl, trivial⟩
  fail _ id _ h := ⟨h.edit id (fun _ => rfl) fun _ => rfl, trivial⟩
  takeData _ id h := ⟨h.edit id (fun _ => rfl) fun _ => rfl, trivial⟩
  drain sel socket id len h hmaps _ :=
    have hedit : Watched (sel.edit id (·.drain len)) := h.edit id (fun _ => rfl) fun _ => rfl
    have hnote := hedit.note (.accepted id ((sel.events id).buffer.write.val.take len))
    ⟨trivial, trivial, fun _ => hnote, fun _ _ => writeOver_watched hos hnote hmaps⟩
  idle _ _ _ h _ hmaps _ := writeOver_watched hos h hmaps
  opens _ _ _ h hk := ⟨hos.opens hk ▸ h, trivial⟩
  unlink _ _ _ := trivial
  closes sel socket id k h hmaps hk :=
    ⟨by
      obtain rfl := hos.closes hk
      rw [h.keyed.sockets hmaps]
      exact h.unlink hmaps, trivial⟩
  hold _ id h := ⟨⟨h.agrees, h.owned.hold id⟩, trivial⟩
  release _ id h := letGo_owned h.owned trivial ⟨h.agrees, h.owned.release id⟩
  register _ _ _ h hok := registerSocket_watched hos h hok
  change sel isDel socket entry id _ hok hmaps := absurd (hok.symm.trans hmaps) nofun
  send sel socket data h _ := sendSocket_watched hos h socket data
  deregister _ _ h _ hmaps := deregister_absent hos h hmaps
  ended _ _ _ h _ hok := deregister_absent hos h hok
  dropKeep _ _ _ _ := trivial
  dropCall _ _ _ := trivial
  dropAccept _ _ _ _ := trivial
  dropRead _ _ _ := trivial
  dropEof _ _ _ _ _ _ := trivial
  dropWrite _ _ _ _ _ _ := trivial

/-! ## The main result -/

theorem Watched.new : Watched (.new [] fun _ => none : Selector SOCKET δ _ _) :=
  ⟨fun _ => rfl, ⟨nofun, nofun⟩, fun _ => iff_of_false nofun nofun⟩

theorem keeps_watched (hos : Obeys os) :
    (ofInv Watched).Keeps (unixRuns (δ := δ) epoll os doSelect KeepsInterest) :=
  keeps (ofInv_plain _) (maintains_watched hos)
    ⟨fun _ events h => h.with_evts events, fun _ _ _ h hk => hos.wait hk ▸ h⟩

/-- In every run whose calls keep it, the agreement holds whenever user code
runs, under every kernel that obeys the rules. -/
theorem interest_agrees (hos : Obeys os)
    {c : Config (Selector SOCKET δ (List EpollEvent) Interest)
      (SockReply (S := SOCKET) EpollReply) Unit}
    (hreach : (unixRuns epoll os doSelect KeepsInterest).Reaches (.new [] fun _ => none) c)
    (hopen : (unixRuns (δ := δ) epoll os doSelect KeepsInterest).Open c.stack) :
    InterestAgrees c.state :=
  (reaches_inv (keeps_watched hos) hreach Watched.new hopen).agrees

/-- Two sockets are registered, one sends and the other is unregistered. -/
theorem interest_agrees_two :
    ∃ c, (unixRuns epoll epollOs doSelect KeepsInterest).Reaches
        (.new [] fun _ => none : Selector SOCKET Unit _ _) c ∧
      (c.state.kernel 3).map (·.events) = some {.EPOLLIN, .EPOLLOUT} ∧ c.state.kernel 4 = none ∧
      InterestAgrees c.state := by
  have start := System.Reaches.refl (S := unixRuns epoll epollOs doSelect KeepsInterest)
    (.new [] fun _ => none : Selector SOCKET Unit _ _)
  have first := (start.call (.registerSocket (.new 3 0) (.newEvent 3 EventFlags.FLAG_READ
    none none none none)) trivial ⟨trivial, nofun⟩).answer (.ok ())
    ⟨⟨_, epollOs_ok (by decide), rfl⟩, trivial⟩
  have second := (first.call (.registerSocket (.new 4 0) .default) trivial
    ⟨trivial, nofun⟩).answer (.ok ()) ⟨⟨_, epollOs_ok (by decide), rfl⟩, trivial⟩
  have sent := (second.call (.sendSocket 3 [1]) trivial
    ⟨trivial, trivial⟩).answer (.ok ()) ⟨⟨_, epollOs_ok (by decide), rfl⟩, trivial⟩
  have closed := ((sent.call (.unregisterSocket 4) trivial
    ⟨trivial, trivial⟩).answer () ⟨⟨_, rfl, rfl⟩, trivial⟩).answer (.error (.os 2))
    ⟨⟨_, epollOs_error (by decide) _, rfl⟩, trivial⟩
  exact ⟨_, closed, by decide, rfl, interest_agrees epollOs_obeys closed trivial⟩

/-- `modifySocket` takes a registered socket out of the kernel and leaves it
in the map. -/
theorem modifySocket_drops :
    ∃ c, (epollSystem Unit).Reaches (.new [] fun _ => none) c ∧
      (epollSystem Unit).Open c.stack ∧ ¬ InterestAgrees c.state := by
  have start := System.Reaches.refl (S := epollSystem Unit) (.new [] fun _ => none)
  have registered := (start.call (.registerSocket (.new 3 0) (.newEvent 3 EventFlags.FLAG_READ
    none none none none)) trivial trivial).answer (.ok ()) ⟨_, epollOs_ok (by decide), rfl⟩
  have modified := (registered.call (.modifySocket false 3 (.newEvent 3 EventFlags.FLAG_WRITE
    none none none none)) trivial trivial).answer (.ok ()) ⟨_, epollOs_ok (by decide), rfl⟩
  exact ⟨_, modified, trivial, fun h => absurd (h 3) nofun⟩

end TdRevent.Unix.Epoll
