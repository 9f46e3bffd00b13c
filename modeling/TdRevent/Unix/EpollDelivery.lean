import TdRevent.Unix.Dispatch
import TdRevent.Interaction.Trace

/-!
# Which event gets a notification

A batch of `epollWait` names sockets by their numbers, and the loop of
`doSelect` looks each number up when it takes the notification up. Meanwhile a
handler may have closed the socket, and the number may belong to a new event.

An event keeps its number in the map until it is unregistered, so a pending
notification finds the event of the time of `epollWait` or none at all, unless
its number is registered again before it is taken up.

## Implementation notes

A notification with both bits is two: the handler of the first may change what
the second finds.
-/

namespace TdRevent.Unix.Epoll

open Interaction Discipline

variable {δ : Type} {os : Os SOCKET Interest EpollReply}

/-- The handlers of the loop. -/
inductive Handler
  | readDone | writeDone
  deriving DecidableEq

/-- The handlers that the loop runs for a notification, with their arguments. -/
def EpollEvent.handlers (value : EpollEvent) : List (Handler × SOCKET) :=
  (if .EPOLLIN ∈ value.events then [(.readDone, .ofU64 value.data)] else []) ++
    if .EPOLLOUT ∈ value.events then [(.writeDone, .ofU64 value.data)] else []

def Handler.run : Handler × SOCKET → EpollCode δ Unit
  | (.readDone, socket) => Epoll.readDone socket
  | (.writeDone, socket) => Epoll.writeDone socket

/-- A condition on the calls while the given handlers are still to be run. -/
abbrev Condition (δ : Type) :=
  List (Handler × SOCKET) → Selector SOCKET δ (List EpollEvent) Interest →
    Move (SockReply (S := SOCKET) EpollReply) (SockCall SOCKET δ) → Prop

/-- The progress of the loop over a batch that was received in `sel`: the
handlers that are still to be run, and the state. -/
inductive Handing (os : Os SOCKET Interest EpollReply) (ok : Condition δ) (batch : List EpollEvent)
    (sel : Selector SOCKET δ (List EpollEvent) Interest) :
    List (Handler × SOCKET) → Selector SOCKET δ (List EpollEvent) Interest → Prop
  | received :
      Handing os ok batch sel (batch.flatMap EpollEvent.handlers) { sel with evts := batch }
  | run {handler pending t u} (h : Handing os ok batch sel (handler :: pending) t)
      (hexec : (Handler.run handler).Exec
        (unixRuns epoll os doSelect (ok pending)).during t () u) :
      Handing os ok batch sel pending u

/-- No callback receives another batch. -/
def OneBatch : Selector SOCKET δ (List EpollEvent) Interest →
    Move (SockReply (S := SOCKET) EpollReply) (SockCall SOCKET δ) → Prop
  | _, .answer (.sys .epollWait) (.ok _) => False
  | _, _ => True

/-- Neither does one register a number for which a handler is still to be run. -/
def Reserved : Condition δ
  | pending, _, .call (.registerSocket buffer _) =>
      buffer.asRawSocket ∉ pending.map Prod.snd
  | _, sel, m => OneBatch sel m

/-- The batch is as it was received, and the numbers have their old events or none. -/
structure Undisturbed (batch : List EpollEvent) (numbers : List SOCKET)
    (map : SOCKET → Option ℕ) (sel : Selector SOCKET δ (List EpollEvent) Interest) : Prop where
  evts : sel.evts = batch
  maps : ∀ socket ∈ numbers, ∀ id, sel.eventMaps socket = some id → map socket = some id

section

variable {ok : Condition δ} {batch : List EpollEvent} {map : SOCKET → Option ℕ}
  {pending : List (Handler × SOCKET)} {numbers : List SOCKET}
  {sel t u : Selector SOCKET δ (List EpollEvent) Interest}

theorem undisturbed_invariant (batch : List EpollEvent) (map : SOCKET → Option ℕ)
    (hregister : ∀ sel buffer entry, ok pending sel (.call (.registerSocket buffer entry)) →
      buffer.asRawSocket ∉ numbers) :
    RegistryInvariant (Told fun evts : List EpollEvent => evts) (ok pending)
      (Undisturbed (δ := δ) batch numbers map) where
  edit _ _ h _ := ⟨h.evts, h.maps⟩
  note _ h := ⟨h.evts, h.maps⟩
  kernel _ h := ⟨h.evts, h.maps⟩
  owners _ h := ⟨h.evts, h.maps⟩
  told := by
    rintro sel _ h ⟨owners, evts, kernel, hevts, rfl⟩
    exact ⟨hevts.trans h.evts, h.maps⟩
  remove socket h :=
    ⟨h.evts, fun socket' hs id hid => h.maps socket' hs id (Selector.Keyed.remove_some hid).2⟩
  insert {sel buffer entry} h hok := by
    refine ⟨h.evts, fun socket hs id hid => ?_⟩
    have hne : socket ≠ buffer.asRawSocket := by
      rintro rfl
      exact hregister _ _ _ hok hs
    rw [sel.insert_maps_of_ne buffer entry hne] at hid
    exact h.maps socket hs id hid

/-- A handler leaves the batch, and the numbers that are not registered meanwhile. -/
theorem handler_undisturbed (ok : Condition δ) (pending : List (Handler × SOCKET))
    (hregister : ∀ sel buffer entry, ok pending sel (.call (.registerSocket buffer entry)) →
      buffer.asRawSocket ∉ numbers)
    (hbatch : ∀ sel events, ¬ ok pending sel (.answer (.sys .epollWait) (.ok events)))
    {handler : Handler × SOCKET} (ht : Undisturbed batch numbers map t)
    (hexec : (Handler.run handler).Exec (unixRuns epoll os doSelect (ok pending)).during t () u) :
    Undisturbed batch numbers map u := by
  have hinvariant := undisturbed_invariant batch map hregister
  have hmaintains : Maintains epoll os doSelect _ _ _ :=
    hinvariant.maintains (epoll_isLocal os fun evts => evts).does
  have hkeeps := hmaintains.keeps (fun _ _ _ => trivial) <| by
    intro sel hsel _
    unfold doSelect
    apply Safe.bind
    apply Safe.ask (fun hu => hu) trivial
    rintro r _ ⟨⟨k, -, rfl⟩, hok⟩
    refine ⟨?_, trivial⟩
    cases r with
    | error e => exact Safe.pure (hinvariant.kernel k hsel)
    | ok events => exact absurd hok (hbatch _ events)
  refine Safe.ends (Q := fun _ => Undisturbed batch numbers map) hkeeps (fun _ _ => trivial) ?_
    hexec
  obtain ⟨_ | _, socket⟩ := handler
  · exact hmaintains.readDone ht
  · exact hmaintains.writeDone ht fun _ _ _ => trivial

/-! ## The loop -/

/-- The loop runs a handler if the bit for it is set. -/
theorem handing_when {p : Prop} [Decidable p] {handler : Handler × SOCKET}
    (h : Handing os (fun _ => OneBatch) batch sel ((if p then [handler] else []) ++ pending) t)
    (ht : t.evts = batch)
    (hexec : (Code.when p (Handler.run handler)).Exec
      (unixRuns epoll os doSelect OneBatch).during t () u) :
    Handing os (fun _ => OneBatch) batch sel pending u ∧ u.evts = batch := by
  unfold Code.when at hexec
  split at hexec
  · rename_i hp
    rw [if_pos hp] at h
    have hundisturbed : Undisturbed batch [] (fun _ => none) t := ⟨ht, nofun⟩
    have hu := handler_undisturbed (fun _ => OneBatch) []
      (fun _ _ _ _ => List.not_mem_nil) (fun _ _ => id) hundisturbed hexec
    exact ⟨h.run hexec, hu.evts⟩
  · rename_i hp
    rw [if_neg hp] at h
    obtain ⟨-, rfl⟩ := (Code.exec_pure () ()).mp hexec
    exact ⟨h, ht⟩

/-- The loop runs the handlers of the batch one after the other. -/
theorem dispatch_handing {left i : ℕ} (hleft : i + left = batch.length)
    (h : Handing os (fun _ => OneBatch) batch sel
      ((batch.drop i).flatMap EpollEvent.handlers) t) (ht : t.evts = batch)
    (hexec : (dispatch left i).Exec (unixRuns epoll os doSelect OneBatch).during t () u) :
    Handing os (fun _ => OneBatch) batch sel [] u := by
  induction left generalizing i t with
  | zero =>
      obtain ⟨-, rfl⟩ := (Code.exec_pure () ()).mp hexec
      have hi : batch.length = i := hleft.symm
      rwa [List.drop_eq_nil_of_le hi.le] at h
  | succ left ih =>
      have hi : i < batch.length := by omega
      rw [List.drop_eq_getElem_cons hi, List.flatMap_cons, EpollEvent.handlers,
        List.append_assoc] at h
      unfold dispatch at hexec
      simp only [Code.exec_bind, Code.exec_read] at hexec
      obtain ⟨_, _, ⟨rfl, rfl⟩, hexec⟩ := hexec
      rw [ht, List.getElem?_eq_getElem hi] at hexec
      simp only [Code.exec_bind] at hexec
      obtain ⟨⟨⟩, v, hread, ⟨⟩, w, hwrite, hexec⟩ := hexec
      obtain ⟨h, hv⟩ := handing_when h ht hread
      obtain ⟨h, hw⟩ := handing_when h hv hwrite
      exact ih (by omega) h hw hexec

/-- While numbers are reserved, the pending ones keep their events or lose them. -/
theorem Handing.undisturbed (h : Handing os Reserved batch sel pending t) :
    Undisturbed batch (pending.map Prod.snd) sel.eventMaps t := by
  induction h with
  | received => exact ⟨rfl, fun _ _ _ hid => hid⟩
  | run h hexec ih =>
      apply handler_undisturbed Reserved _ (fun _ _ _ hok => hok) (fun _ _ => id) _ hexec
      exact ⟨ih.evts, fun socket hs => ih.maps socket (List.mem_cons_of_mem _ hs)⟩

/-! ## The main result -/

/-- A notification is delivered only to the event that was registered under its
number when the batch was received. -/
theorem delivered_to_registered {handler : Handler} {socket : SOCKET} {id : ℕ}
    (h : Handing os Reserved batch sel ((handler, socket) :: pending) t)
    (hmaps : t.eventMaps socket = some id) : sel.eventMaps socket = some id :=
  h.undisturbed.maps socket List.mem_cons_self id hmaps

end

/-- Some bytes are read, and the callback makes the given calls. -/
theorem readEvent_exec {ok : Selector SOCKET δ (List EpollEvent) Interest →
      Move (SockReply (S := SOCKET) EpollReply) (SockCall SOCKET δ) → Prop}
    (sel : Selector SOCKET δ (List EpollEvent) Interest)
    {u : Selector SOCKET δ (List EpollEvent) Interest} (id : ℕ)
    (bytes : List UInt8) (haccept : ¬ (sel.events id).isAccept) (hbytes : bytes ≠ [])
    (hlen : bytes.length ≤ (sel.events id).buffer.readCache.length)
    (hbuffer : ((sel.events id).fill bytes).buffer.hasReadBuffer)
    (hread : (sel.events id).entry.read ≠ none)
    (hok : ok sel (.answer (.read (sel.events id).asRawSocket
      (sel.events id).buffer.readCache.length) (.ok bytes)))
    (hreach : (unixRuns epoll os doSelect ok).Reaches (sel.edit id (·.fill bytes)) ⟨u, []⟩)
    (hok' : ok u (.answer (.readCb id) .OK)) :
    (readEvent epoll id).Exec (unixRuns epoll os doSelect ok).during sel () u := by
  obtain ⟨cb, hcb⟩ := Option.ne_none_iff_exists'.mp hread
  rw [← sel.edit_self id (·.fill bytes)] at hbuffer
  have hcb' : ((sel.edit id (·.fill bytes)).events id).entry.read = some cb := by
    rw [sel.edit_self]
    exact hcb
  unfold readEvent
  simp only [Code.exec_bind, Code.exec_read]
  refine ⟨sel, sel, ⟨rfl, rfl⟩, ?_⟩
  simp only [if_neg haccept, Code.exec_bind, Code.exec_query]
  refine ⟨.ok bytes, sel, Or.inl ⟨fun hu => hu, ⟨rfl, ?_⟩, hok⟩, ?_⟩
  · rintro _ ⟨⟩
    exact hlen
  · simp only [if_neg hbytes, Unix.edit, Code.exec_bind, Code.exec_modify, Code.exec_read]
    refine ⟨(), _, rfl, _, _, ⟨rfl, rfl⟩, ?_⟩
    simp only [if_pos hbuffer, Code.exec_bind, Unix.readCb, Code.exec_read]
    refine ⟨.OK, u, ⟨_, _, ⟨rfl, rfl⟩, ?_⟩, rfl, rfl⟩
    rw [hcb']
    exact ⟨.OK, u, Or.inr ⟨trivial, u, hreach, rfl, hok'⟩, rfl, rfl⟩

/-- A handler that leaves its event in the map. -/
theorem readDone_exec {ok : Selector SOCKET δ (List EpollEvent) Interest →
      Move (SockReply (S := SOCKET) EpollReply) (SockCall SOCKET δ) → Prop}
    (sel : Selector SOCKET δ (List EpollEvent) Interest)
    {u : Selector SOCKET δ (List EpollEvent) Interest} (socket : SOCKET) {id : ℕ}
    (hmaps : sel.eventMaps socket = some id)
    (hread : (readEvent epoll id).Exec (unixRuns epoll os doSelect ok).during (sel.hold id) () u)
    (hkept : (u.release id).refs id ≠ 0) :
    (Handler.run (.readDone, socket)).Exec (unixRuns epoll os doSelect ok).during sel ()
      (u.release id) := by
  change (Epoll.readDone socket).Exec _ sel () _
  unfold Epoll.readDone Unix.readDone
  simp only [Code.exec_bind, Code.exec_read]
  refine ⟨sel, sel, ⟨rfl, rfl⟩, ?_⟩
  rw [hmaps]
  simp only [holding, letGo, freeUnowned, Code.exec_bind, Code.exec_modify, Code.exec_read]
  refine ⟨(), _, rfl, (), u, hread, (), _, rfl, _, _, ⟨rfl, rfl⟩, ?_⟩
  rw [Code.when, if_neg fun hfreed => hkept hfreed.1]
  exact ⟨rfl, rfl⟩

/-- A socket is registered for reading. -/
def withStream (sel : Selector SOCKET Unit (List EpollEvent) Interest) (socket : SOCKET) :
    Selector SOCKET Unit (List EpollEvent) Interest :=
  { sel.insert (.new socket 0) (.newEvent socket EventFlags.FLAG_READ (some 1) none none none) with
    kernel := Function.update sel.kernel socket
      (some ⟨ioeventToEpoll EventFlags.FLAG_READ, socket.asU64⟩) }

/-- The sockets 3 and 4 are registered for reading. -/
def twoStreams : Selector SOCKET Unit (List EpollEvent) Interest :=
  withStream (withStream (.new [] fun _ => none) 3) 4

/-- Both can be read. -/
def bothReadable : List EpollEvent := [⟨{.EPOLLIN}, 3⟩, ⟨{.EPOLLIN}, 4⟩]

theorem twoStreams_reached :
    (epollSystem Unit).Reaches (.new [] fun _ => none) ⟨twoStreams, []⟩ := by
  have start := System.Reaches.refl (S := epollSystem Unit) (.new [] fun _ => none)
  have first := (start.call (.registerSocket (.new 3 0) (.newEvent 3 EventFlags.FLAG_READ
    (some 1) none none none)) trivial trivial).answer (.ok ()) ⟨_, epollOs_ok (by decide), rfl⟩
  exact (first.call (.registerSocket (.new 4 0) (.newEvent 4 EventFlags.FLAG_READ
    (some 1) none none none)) trivial trivial).answer (.ok ()) ⟨_, epollOs_ok (by decide), rfl⟩

/-- The callback for socket 3 registers socket 5. -/
theorem delivered_to_registered_five :
    ∃ t, Handing epollOs Reserved bothReadable twoStreams [(.readDone, 4)] t ∧
      t.eventMaps 5 = some 2 ∧ t.eventMaps 4 = some 1 ∧ twoStreams.eventMaps 4 = some 1 := by
  have start := System.Reaches.refl (S := unixRuns epoll epollOs doSelect
      (Reserved [(Handler.readDone, 4)]))
    (({ twoStreams with evts := bothReadable }.hold 0).edit 0 (·.fill [1]))
  have registered := (start.call (.registerSocket (.new 5 0) .default) trivial
    ⟨trivial, by simp [Reserved]; decide⟩).answer (.ok ())
      ⟨⟨_, epollOs_ok (by decide), rfl⟩, trivial⟩
  have read := readEvent_exec (.hold { twoStreams with evts := bothReadable } 0) 0 [1]
    (by decide) nofun (EventBuffer.new_room 3 0) rfl nofun trivial registered trivial
  have handled := readDone_exec { twoStreams with evts := bothReadable } 3 rfl read (by decide)
  have batch : Handing epollOs Reserved bothReadable twoStreams
      [(.readDone, 3), (.readDone, 4)] _ := .received
  have handing := batch.run handled
  exact ⟨_, handing, rfl, rfl, delivered_to_registered handing rfl⟩

/-- The callback for socket 3 unregisters socket 4 and registers a new socket
with the number 4. The notification for the old one is delivered to the new. -/
theorem delivered_to_new :
    (epollSystem Unit).Reaches (.new [] fun _ => none) ⟨twoStreams, []⟩ ∧
      ∃ t, Handing epollOs (fun _ => OneBatch) bothReadable twoStreams [(.readDone, 4)] t ∧
        twoStreams.eventMaps 4 = some 1 ∧ t.eventMaps 4 = some 2 := by
  have start := System.Reaches.refl (S := unixRuns epoll epollOs doSelect OneBatch)
    (({ twoStreams with evts := bothReadable }.hold 0).edit 0 (·.fill [1]))
  have closed := ((start.call (.unregisterSocket 4) trivial ⟨trivial, trivial⟩).answer ()
    ⟨⟨_, rfl, rfl⟩, trivial⟩).answer (.error (.os 2))
      ⟨⟨_, epollOs_error (by decide) _, rfl⟩, trivial⟩
  have registered := (closed.call (.registerSocket (.new 4 0) .default) trivial
    ⟨trivial, trivial⟩).answer (.ok ()) ⟨⟨_, epollOs_ok (by decide), rfl⟩, trivial⟩
  have read := readEvent_exec (.hold { twoStreams with evts := bothReadable } 0) 0 [1]
    (by decide) nofun (EventBuffer.new_room 3 0) rfl nofun trivial registered trivial
  have handled := readDone_exec { twoStreams with evts := bothReadable } 3 rfl read (by decide)
  have batch : Handing epollOs (fun _ => OneBatch) bothReadable twoStreams
      [(.readDone, 3), (.readDone, 4)] _ := .received
  exact ⟨twoStreams_reached, _, batch.run handled, rfl, rfl⟩

end TdRevent.Unix.Epoll
