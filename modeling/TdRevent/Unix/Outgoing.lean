import TdRevent.Unix.Dispatch
import TdRevent.Collections.Numbering

/-!
# Outgoing bytes of the Unix selectors

What the kernel accepted of a socket, followed by the bytes that wait in its
write buffer, is what `sendSocket` was given, byte for byte and in order: the
selectors keep the ledger, and no accepted byte stays in a buffer.

## Implementation notes

The argument does not depend on what the kernel does with the calls of the
backend, only on these calls leaving the events alone.
-/

namespace TdRevent.Unix

open Interaction Discipline

variable {S δ E K Sys : Type} {R : Sys → Type}

/-- The write buffers. -/
def Selector.writes (sel : Selector S δ E K) (id : ℕ) : Buffer := (sel.events id).buffer.write

/-- The invariant of the outgoing bytes. -/
structure Outgoing (sel : Selector S δ E K) : Prop where
  ledger : Ledger sel.log sel.count sel.writes fun _ => 0
  maps : Numbered sel.eventMaps sel.count

/-- The bytes of every registered socket are where they belong. -/
def Selector.BytesKept (sel : Selector S δ E K) : Prop :=
  ∀ socket id buffer, sel.eventMaps socket = some id → .registered id buffer ∈ sel.log →
    buffer.write = .new →
    acceptedFrom sel.log id ++ (sel.events id).buffer.write.val = sentTo sel.log id

variable {sel : Selector S δ E K}

theorem Outgoing.bytes_kept (h : Outgoing sel) : sel.BytesKept :=
  fun _ _ _ _ hmem hnew => (h.ledger.inPlace hmem hnew).bytes

theorem Outgoing.new [Zero S] (evts : E) (kernel : K) :
    Outgoing (.new evts kernel : Selector S δ E K) := ⟨Ledger.nil _, Numbered.empty⟩

/-! ## The steps -/

/-- What the backend changes does not matter. -/
theorem Outgoing.with_kernel (h : Outgoing sel) (evts : E) (kernel : K) :
    Outgoing { sel with evts := evts, kernel := kernel } := ⟨h.ledger, h.maps⟩

theorem Outgoing.with_owners (h : Outgoing sel) (owners : Owners) :
    Outgoing { sel with owners := owners } := ⟨h.ledger, h.maps⟩

theorem Outgoing.told (h : Outgoing sel) {t : Selector S δ E K}
    (ht : Told (fun _ => ()) sel t) : Outgoing t := by
  obtain ⟨owners, evts, kernel, -, rfl⟩ := ht
  exact (h.with_owners owners).with_kernel evts kernel

theorem Selector.edit_writes (sel : Selector S δ E K) (id : ℕ) (f : Event S δ → Event S δ) :
    (sel.edit id f).writes = Function.update sel.writes id (f (sel.events id)).buffer.write :=
  funext fun id' => Function.apply_update (fun _ event => event.buffer.write) sel.events id _ id'

/-- A change of an event that leaves its write buffer. -/
theorem Outgoing.edit (h : Outgoing sel) (id : ℕ) {f : Event S δ → Event S δ}
    (hf : ∀ event, (f event).buffer.write = event.buffer.write) :
    Outgoing (sel.edit id f) := by
  have hwrites : (sel.edit id f).writes = sel.writes :=
    funext fun id' => sel.edit_keeps id f (·.buffer.write) hf id'
  exact ⟨hwrites ▸ h.ledger, h.maps⟩

/-- `sendSocket` appends to the buffer what it was given. -/
theorem Outgoing.append (h : Outgoing sel) {id : ℕ} (hid : id < sel.count)
    (data : List UInt8) :
    Outgoing ((sel.edit id (·.append data)).note (.sent id data)) :=
  ⟨sel.edit_writes id (·.append data) ▸ h.ledger.append hid data, h.maps⟩

/-- A write takes off what the kernel accepted. -/
theorem Outgoing.drain (h : Outgoing sel) {id : ℕ} (hid : id < sel.count) (len : ℕ) :
    Outgoing ((sel.edit id (·.drain len)).note
      (.accepted id ((sel.events id).buffer.write.val.take len))) := by
  have hstale : Function.update (fun _ => 0) id (0 - len) = fun _ => 0 := by
    rw [Nat.zero_sub]
    exact Function.update_eq_self id _
  have hledger := h.ledger.accept hid len (Or.inl rfl)
  rw [hstale] at hledger
  exact ⟨sel.edit_writes id (·.drain len) ▸ hledger, h.maps⟩

variable [DecidableEq S]

/-- A new event has accepted and sent nothing. -/
theorem Outgoing.insert (h : Outgoing sel) (buffer : EventBuffer S) (entry : EventEntry S δ) :
    Outgoing (sel.insert buffer entry) := by
  have hwrites : (sel.insert buffer entry).writes =
      Function.update sel.writes sel.count buffer.write :=
    funext fun id => Function.apply_update (fun _ event => event.buffer.write) sel.events _ _ id
  exact ⟨hwrites ▸ h.ledger.insert buffer, h.maps.insert buffer.asRawSocket⟩

theorem Outgoing.remove (h : Outgoing sel) (socket : S) : Outgoing (sel.remove socket) :=
  ⟨h.ledger, h.maps.remove socket⟩

/-! ## The runs -/

/-- A callback leaves the write buffer. -/
def KeepsWrite : Selector S δ E K → Move (SockReply (S := S) R) (SockCall S δ) → Prop
  | _, .call (.editBuffer _ f) => ∀ buffer, (f buffer).write = buffer.write
  | _, _ => True

variable {B : Backend S δ E K R} {os : Os S K R} {select : SockCode S δ E K R Unit}

/-- Local code that asks and ends with the outgoing bytes in place. -/
theorem keeps_outgoing {α : Type} {A : Selector S δ E K → Selector S δ E K → Prop}
    {P : α → Selector S δ E K → Selector S δ E K → Prop} {c : SockCode S δ E K R α}
    (hc : Local os A P c) (hA : ∀ t, A sel t → Outgoing t) (hP : ∀ r t, P r sel t → Outgoing t) :
    Keeps B os select KeepsWrite (always Outgoing) c sel :=
  hc.safe (fun _ t _ ht => hA t ht) fun r t ht => ⟨hP r t ht, trivial⟩

/-- The same for code with one change of the state before its calls. -/
theorem keeps_outgoing_after {α : Type} {c : SockCode S δ E K R α}
    {g : Selector S δ E K → Selector S δ E K} (h : Outgoing (g sel))
    (hc : Local os (fun sel t => Told (fun _ => ()) (g sel) t)
      (fun _ sel t => Told (fun _ => ()) (g sel) t) c) :
    Keeps B os select KeepsWrite (always Outgoing) c sel :=
  keeps_outgoing hc (fun _ ht => h.told ht) fun _ _ ht => h.told ht

/-- Every piece of a selector keeps the outgoing bytes. -/
theorem Backend.IsLocal.maintains (hB : B.IsLocal os fun _ => ()) :
    Maintains B os select KeepsWrite (always Outgoing) fun _ => True where
  guard _ _ _ h := h
  guardClose _ socket _ _ h := (h.remove socket).with_owners _
  editBuffer _ id _ h hok _ := ⟨h.edit id fun event => hok event.buffer, trivial⟩
  fill _ id _ h := ⟨h.edit id fun _ => rfl, trivial⟩
  fail _ id _ h := ⟨h.edit id fun _ => rfl, trivial⟩
  takeData _ id h := ⟨h.edit id fun _ => rfl, trivial⟩
  drain _ socket id len h hmaps _ :=
    have hdrained := Outgoing.drain h (h.maps socket id hmaps) len
    have hdisarmed := hdrained.edit id (f := Event.disarm) fun _ => rfl
    ⟨trivial, trivial, fun _ => hdrained, fun _ _ =>
      keeps_outgoing_after (g := (·.edit id Event.disarm)) hdisarmed (hB.writeOver id)⟩
  idle _ _ id h _ _ _ :=
    keeps_outgoing_after (g := (·.edit id Event.disarm)) (h.edit id fun _ => rfl)
      (hB.writeOver id)
  opens sel _ k h _ := ⟨h.with_kernel sel.evts k, trivial⟩
  unlink _ _ _ := trivial
  closes sel socket _ k h _ _ :=
    ⟨((h.remove socket).with_owners _).with_kernel sel.evts k, trivial⟩
  hold _ _ h := ⟨h.with_owners _, trivial⟩
  release _ id h := keeps_outgoing_after (g := fun sel => sel) h (.letGo id)
  register sel buffer entry h _ := by
    have hinserted : ∀ t, (∃ u, Told (fun _ => ()) (sel.insert buffer entry) u ∧
        (t = u ∨ Told (fun _ => ()) (u.remove buffer.asRawSocket) t)) → Outgoing t := by
      rintro t ⟨u, hu, rfl | ht⟩
      · exact (h.insert buffer entry).told hu
      · exact (((h.insert buffer entry).told hu).remove _).told ht
    apply keeps_outgoing (hB.registerSocket buffer entry)
    · rintro t (ht | ht)
      · exact (h.remove _).told ht
      · exact hinserted t ht
    · exact fun _ t ht => hinserted t ht
  change _ isDel socket entry id h _ _ := by
    have hmerged := h.edit id (f := (·.merge isDel entry)) fun _ => rfl
    apply (keeps_outgoing_after (g := (·.edit id (·.merge isDel entry))) hmerged
      (hB.changeEvent id isDel socket entry)).mono
    intro _ t ht
    exact ⟨ht, fun _ _ => trivial⟩
  send sel socket data h _ := by
    have hsent : ∀ {id}, sel.eventMaps socket = some id →
        Outgoing ((sel.edit id (·.append data)).note (.sent id data)) :=
      fun hmaps => Outgoing.append h (h.maps socket _ hmaps) data
    apply keeps_outgoing (hB.sendSocket socket data)
    · rintro t ⟨id, hmaps, ht⟩
      exact ((hsent hmaps).edit id (f := Event.arm) fun _ => rfl).told ht
    · rintro _ t (⟨rfl, -⟩ | ⟨id, hmaps, ⟨rfl, -⟩ | ⟨ht, -, -⟩⟩)
      · exact h
      · exact hsent hmaps
      · exact ((hsent hmaps).edit id (f := Event.arm) fun _ => rfl).told ht
  deregister _ _ h _ _ := keeps_outgoing_after (g := id) h (hB.deregister ..)
  ended _ _ _ h _ _ := keeps_outgoing_after (g := id) h (hB.deregister ..)
  dropKeep _ _ _ _ := trivial
  dropCall _ _ _ := trivial
  dropAccept _ _ _ _ := trivial
  dropRead _ _ _ := trivial
  dropEof _ _ _ _ _ _ := trivial
  dropWrite _ _ _ _ _ _ := trivial

/-- The outgoing bytes of epoll are in place at every question. -/
theorem Epoll.reaches_outgoing {os : Os SOCKET Epoll.Interest Epoll.EpollReply}
    {evts : List Epoll.EpollEvent} {kernel : Epoll.Interest}
    {c : Config (Selector SOCKET δ (List Epoll.EpollEvent) Epoll.Interest)
      (SockReply (S := SOCKET) Epoll.EpollReply) Unit}
    (hreach : (unixRuns Epoll.epoll os Epoll.doSelect KeepsWrite).Reaches (.new evts kernel) c) :
    Outgoing c.state := by
  have hkeeps := Epoll.keeps (always_plain _) (Epoll.epoll_isLocal (δ := δ) os _).maintains
    ⟨fun _ _ h => h.with_kernel _ _, fun _ _ _ h _ => h.with_kernel _ _⟩
  exact reaches_always hkeeps hreach (Outgoing.new evts kernel)

/-- Those of kqueue are, too. -/
theorem Kqueue.reaches_outgoing {os : Os SOCKET Kqueue.Kernel Kqueue.KqueueReply}
    {evts : Kqueue.Events} {kernel : Kqueue.Kernel}
    {c : Config (Selector SOCKET δ Kqueue.Events Kqueue.Kernel)
      (SockReply (S := SOCKET) Kqueue.KqueueReply) Unit}
    (hreach : (unixRuns Kqueue.kqueue os Kqueue.doSelect KeepsWrite).Reaches
      (.new evts kernel) c) : Outgoing c.state := by
  have hkeeps := Kqueue.keeps (always_plain _)
    (Kqueue.kqueue_isLocal (δ := δ) (fun _ _ => rfl) os).maintains
    ⟨fun _ _ h _ => h.with_kernel _ _, fun _ _ _ h _ => h.with_kernel _ _,
      fun _ _ _ h _ => ⟨h.with_kernel _ _, fun _ _ _ _ => h.with_kernel _ _⟩⟩
  exact reaches_always hkeeps hreach (Outgoing.new evts kernel)

/-! ## The main result -/

/-- On both Unix selectors, and whatever the kernel does, no outgoing byte is
lost, sent twice or out of place. -/
theorem unix_bytes_kept :
    (∀ (os : Os SOCKET Epoll.Interest Epoll.EpollReply) (evts : List Epoll.EpollEvent)
        (kernel : Epoll.Interest)
        (c : Config (Selector SOCKET δ (List Epoll.EpollEvent) Epoll.Interest)
          (SockReply (S := SOCKET) Epoll.EpollReply) Unit),
        (unixRuns Epoll.epoll os Epoll.doSelect KeepsWrite).Reaches (.new evts kernel) c →
        c.state.BytesKept) ∧
      ∀ (os : Os SOCKET Kqueue.Kernel Kqueue.KqueueReply) (evts : Kqueue.Events)
        (kernel : Kqueue.Kernel)
        (c : Config (Selector SOCKET δ Kqueue.Events Kqueue.Kernel)
          (SockReply (S := SOCKET) Kqueue.KqueueReply) Unit),
        (unixRuns Kqueue.kqueue os Kqueue.doSelect KeepsWrite).Reaches (.new evts kernel) c →
        c.state.BytesKept :=
  ⟨fun _ _ _ _ hreach => (Epoll.reaches_outgoing hreach).bytes_kept,
    fun _ _ _ _ hreach => (Kqueue.reaches_outgoing hreach).bytes_kept⟩

/-- Two bytes are sent and the kernel accepts the first. -/
theorem unix_bytes_kept_partial :
    (∃ c, (unixRuns Epoll.epoll Epoll.epollOs Epoll.doSelect KeepsWrite).Reaches
        (.new [] fun _ => none : Selector SOCKET Unit _ _) c ∧
      acceptedFrom c.state.log 0 = [1] ∧ (c.state.events 0).buffer.write.val = [2] ∧
      c.state.BytesKept) ∧
    ∃ c, (unixRuns Kqueue.kqueue Kqueue.kqueueOs Kqueue.doSelect KeepsWrite).Reaches
        (.new .new ⟨fun _ => false, fun _ => ∅⟩ : Selector SOCKET Unit _ _) c ∧
      acceptedFrom c.state.log 0 = [1] ∧ (c.state.events 0).buffer.write.val = [2] ∧
      c.state.BytesKept := by
  constructor
  · have start := System.Reaches.refl
      (S := unixRuns Epoll.epoll Epoll.epollOs Epoll.doSelect KeepsWrite)
      (.new [] fun _ => none : Selector SOCKET Unit _ _)
    have registered := (start.call (.registerSocket (.new 3 0) .default) trivial
      ⟨trivial, trivial⟩).answer (.ok ()) ⟨⟨_, Epoll.epollOs_ok (by decide), rfl⟩, trivial⟩
    have sent := (registered.call (.sendSocket 3 [1, 2]) trivial
      ⟨trivial, trivial⟩).answer (.ok ()) ⟨⟨_, Epoll.epollOs_ok (by decide), rfl⟩, trivial⟩
    have written := (sent.call (.writeDone 3) trivial
      ⟨trivial, trivial⟩).answer (.ok 1) ⟨⟨rfl, by rintro _ ⟨⟩; decide⟩, trivial⟩
    exact ⟨_, written, rfl, rfl, unix_bytes_kept.1 _ _ _ _ written⟩
  · have start := System.Reaches.refl
      (S := unixRuns Kqueue.kqueue Kqueue.kqueueOs Kqueue.doSelect KeepsWrite)
      (.new .new ⟨fun _ => false, fun _ => ∅⟩ : Selector SOCKET Unit _ _)
    have opened := (start.call .openSocket trivial
      ⟨trivial, trivial⟩).answer (3 : SOCKET) ⟨⟨_, ⟨rfl, rfl⟩, rfl⟩, trivial⟩
    have registered := (opened.call (.registerSocket (.new 3 0) .default) trivial
      ⟨trivial, trivial⟩).answer (.ok ()) ⟨⟨_, Kqueue.kqueueOs_ok (by decide), rfl⟩, trivial⟩
    have sent := (registered.call (.sendSocket 3 [1, 2]) trivial
      ⟨trivial, trivial⟩).answer (.ok ()) ⟨⟨_, Kqueue.kqueueOs_ok (by decide), rfl⟩, trivial⟩
    have written := (sent.call (.writeDone 3) trivial
      ⟨trivial, trivial⟩).answer (.ok 1) ⟨⟨rfl, by rintro _ ⟨⟩; decide⟩, trivial⟩
    exact ⟨_, written, rfl, rfl, unix_bytes_kept.2 _ _ _ _ written⟩

end TdRevent.Unix
