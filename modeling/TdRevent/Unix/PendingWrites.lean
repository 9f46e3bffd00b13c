import TdRevent.Unix.EpollInterest
import TdRevent.Unix.KqueueFilters
import TdRevent.Collections.Numbering

/-!
# Pending output of the Unix selectors

A socket with bytes to write waits for write events: `isInWrite` is set, its
entry has `FLAG_WRITE`, and the kernel reports when it can be written. A socket
with nothing to write is not marked. So `sendSocket` may leave everything to
the write events when it finds the mark.

The first three are kept by every backend. That the kernel watches what the
flags ask for is the agreement of the two backends with their kernels.
-/

namespace TdRevent.Unix

open Interaction Discipline

variable {S δ E K Sys : Type} {R : Sys → Type}

/-- The event asks for write events as long as it has something to write. -/
structure Event.Waits (event : Event S δ) : Prop where
  marked : event.buffer.write.val ≠ [] ↔ event.buffer.isInWrite = true
  asked : event.buffer.write.val ≠ [] → Flag.WRITE ∈ event.entry.evEvents

/-- The event does, and the kernel reports them. -/
def Event.Flows (event : Event S δ) (watched : Prop) : Prop :=
  event.Waits ∧ (event.buffer.write.val ≠ [] → watched)

namespace Event.Waits

variable {event : Event S δ}

theorem new {buffer : EventBuffer S} {entry : EventEntry S δ} (hval : buffer.write.val = [])
    (hmark : buffer.isInWrite = false) : (Event.new buffer entry).Waits :=
  ⟨iff_of_false (fun h => h hval) (Bool.eq_false_iff.mp hmark), fun h => absurd hval h⟩

/-- A change that leaves the output and the flags. -/
theorem same {event' : Event S δ} (h : event.Waits)
    (hwrite : event'.buffer.write = event.buffer.write)
    (hmark : event'.buffer.isInWrite = event.buffer.isInWrite)
    (hflags : event'.entry.evEvents = event.entry.evEvents) : event'.Waits := by
  refine ⟨?_, ?_⟩
  · rw [hwrite, hmark]
    exact h.marked
  · rw [hwrite, hflags]
    exact h.asked

/-- More bytes for an event that is marked, or none for one that is not. -/
theorem append (h : event.Waits) (data : List UInt8)
    (hidle : (event.append data).buffer.isInWrite = true ∨
      (event.append data).buffer.write.val = []) : (event.append data).Waits := by
  rcases hidle with hmark | hval
  · have hbefore : event.buffer.write.val ≠ [] := h.marked.mpr hmark
    exact ⟨iff_of_true (Buffer.write_ne_nil hbefore data) hmark, fun _ => h.asked hbefore⟩
  · have hbefore : event.buffer.write.val = [] := by
      by_contra hne
      exact Buffer.write_ne_nil hne data hval
    exact ⟨iff_of_false (fun hne => hne hval) fun hmark => h.marked.mpr hmark hbefore,
      fun hne => absurd hval hne⟩

theorem arm (hval : event.buffer.write.val ≠ []) : event.arm.Waits := by
  refine ⟨iff_of_true hval rfl, fun _ => ?_⟩
  simp [Event.arm]

theorem disarm (hval : event.buffer.write.val = []) : event.disarm.Waits :=
  ⟨iff_of_false (fun h => h hval) nofun, fun h => absurd hval h⟩

/-- A write that leaves something. -/
theorem drain (h : event.Waits) {len : ℕ} (hval : (event.drain len).buffer.write.val ≠ []) :
    (event.drain len).Waits := by
  have hbefore : event.buffer.write.val ≠ [] := by
    intro hnil
    apply hval
    rw [Event.drain, Buffer.drain_val, hnil, List.drop_nil]
  exact ⟨iff_of_true hval (h.marked.mp hbefore), fun _ => h.asked hbefore⟩

end Event.Waits

/-- The invariant of the pending output. -/
structure Waiting (sel : Selector S δ E K) : Prop where
  waits : ∀ id, id < sel.count → (sel.events id).Waits
  maps : Numbered sel.eventMaps sel.count

namespace Waiting

variable {sel : Selector S δ E K} (h : Waiting sel)

theorem new [Zero S] (evts : E) (kernel : K) : Waiting (.new evts kernel : Selector S δ E K) :=
  ⟨fun id hid => absurd hid (Nat.not_lt_zero id), Numbered.empty⟩

include h

/-- What the backend changes does not matter. -/
theorem with_kernel (evts : E) (kernel : K) :
    Waiting { sel with evts := evts, kernel := kernel } := ⟨h.waits, h.maps⟩

theorem with_owners (owners : Owners) : Waiting { sel with owners := owners } := ⟨h.waits, h.maps⟩

theorem told {t : Selector S δ E K} (ht : Told (fun _ => ()) sel t) : Waiting t := by
  obtain ⟨owners, evts, kernel, -, rfl⟩ := ht
  exact (h.with_owners owners).with_kernel evts kernel

theorem note (e : SockEvent S) : Waiting (sel.note e) := ⟨h.waits, h.maps⟩

/-- A change of one event. -/
theorem edit {id : ℕ} {f : Event S δ → Event S δ}
    (hf : (sel.events id).Waits → (f (sel.events id)).Waits) : Waiting (sel.edit id f) := by
  refine ⟨fun id' hid' => ?_, h.maps⟩
  by_cases hid : id' = id
  · subst hid
    rw [sel.edit_self]
    exact hf (h.waits id' hid')
  · rw [sel.edit_of_ne id f hid]
    exact h.waits id' hid'

/-- Two changes of one event, the second of which settles it. -/
theorem edit_twice {id : ℕ} {f g : Event S δ → Event S δ} (e : SockEvent S)
    (hg : (g (f (sel.events id))).Waits) : Waiting (((sel.edit id f).note e).edit id g) := by
  refine ⟨fun id' hid' => ?_, h.maps⟩
  by_cases hid : id' = id
  · subst hid
    rw [Selector.edit_self, Selector.note, Selector.edit_self]
    exact hg
  · rw [Selector.edit_of_ne _ _ _ hid, Selector.note, Selector.edit_of_ne _ _ _ hid]
    exact h.waits id' hid'

variable [DecidableEq S]

theorem insert {buffer : EventBuffer S} (entry : EventEntry S δ) (hval : buffer.write.val = [])
    (hmark : buffer.isInWrite = false) : Waiting (sel.insert buffer entry) := by
  refine ⟨fun id hid => ?_, h.maps.insert buffer.asRawSocket⟩
  rcases Nat.lt_succ_iff_lt_or_eq.mp hid with hid | rfl
  · rw [sel.insert_old buffer entry hid]
    exact h.waits id hid
  · rw [sel.insert_new]
    exact Event.Waits.new hval hmark

theorem remove (socket : S) : Waiting (sel.remove socket) := ⟨h.waits, h.maps.remove socket⟩

end Waiting

/-! ## The runs -/

/-- Sockets are registered once, with nothing to write, and are not modified.
The callbacks leave the output, and the number of a socket does not come back
while its end callback is running. -/
def Regular : Selector S δ E K → Move (SockReply (S := S) R) (SockCall S δ) → Prop
  | sel, .call (.registerSocket buffer _) =>
      sel.eventMaps buffer.asRawSocket = none ∧ buffer.write.val = [] ∧
        buffer.isInWrite = false
  | sel, .call (.modifySocket _ socket _) => sel.eventMaps socket = none
  | _, .call (.editBuffer _ f) =>
      ∀ buffer, (f buffer).write = buffer.write ∧ (f buffer).isInWrite = buffer.isInWrite
  | sel, .answer (.endCb _ socket) _ => sel.eventMaps socket = none
  | _, _ => True

variable [DecidableEq S] {B : Backend S δ E K R} {os : Os S K R} {select : SockCode S δ E K R Unit}
  {sel : Selector S δ E K}

/-- Local code that ends with the output waiting. -/
theorem keeps_waiting {α : Type} {A : Selector S δ E K → Selector S δ E K → Prop}
    {P : α → Selector S δ E K → Selector S δ E K → Prop} {c : SockCode S δ E K R α}
    (hc : Local os A P c) (hP : ∀ r t, P r sel t → Waiting t) :
    Keeps B os select Regular (ofInv Waiting) c sel :=
  hc.safe (fun _ _ _ _ => trivial) fun r t ht => ⟨hP r t ht, trivial⟩

/-- Every piece of a selector keeps the output waiting. -/
theorem Backend.IsLocal.maintains_waiting (hB : B.IsLocal os fun _ => ()) :
    Maintains B os select Regular (ofInv Waiting) fun _ => True where
  guard _ _ _ _ := trivial
  guardClose _ _ _ _ _ := trivial
  editBuffer _ _ _ h hok _ :=
    ⟨h.edit fun hevent => hevent.same (hok _).1 (hok _).2 rfl, trivial⟩
  fill _ _ _ h := ⟨h.edit fun hevent => hevent.same rfl rfl rfl, trivial⟩
  fail _ _ _ h := ⟨h.edit fun hevent => hevent.same rfl rfl rfl, trivial⟩
  takeData _ _ h := ⟨h.edit fun hevent => hevent.same rfl rfl rfl, trivial⟩
  drain sel socket id len h hmaps _ := by
    refine ⟨trivial, trivial, fun hval => ?_, fun hval _ => ?_⟩
    · refine (h.edit fun hevent => hevent.drain ?_).note _
      rwa [Selector.note, sel.edit_self] at hval
    · rw [Selector.note, sel.edit_self] at hval
      apply keeps_waiting (hB.writeOver id)
      exact fun _ _ ht => (h.edit_twice (f := (·.drain len)) _ (Event.Waits.disarm hval)).told ht
  idle sel _ id h _ _ hval :=
    keeps_waiting (hB.writeOver id) fun _ _ ht => (h.edit fun _ => Event.Waits.disarm hval).told ht
  opens sel _ k h _ := ⟨h.with_kernel sel.evts k, trivial⟩
  unlink _ _ _ := trivial
  closes sel socket _ k h _ _ :=
    ⟨((h.remove socket).with_owners _).with_kernel sel.evts k, trivial⟩
  hold _ _ h := ⟨h.with_owners _, trivial⟩
  release _ id h := keeps_waiting (.letGo (h := fun _ => ()) id) fun _ _ ht => h.told ht
  register _ buffer entry h hok := by
    have hinserted := h.insert entry hok.2.1 hok.2.2
    apply keeps_waiting (hB.registerSocket buffer entry)
    rintro _ _ ⟨u, hu, rfl | ht⟩
    · exact hinserted.told hu
    · exact ((hinserted.told hu).remove _).told ht
  change _ _ _ _ _ _ hok hmaps := absurd (hok.symm.trans hmaps) nofun
  send sel socket data h _ := by
    apply keeps_waiting (hB.sendSocket socket data)
    rintro _ t (⟨rfl, -⟩ | ⟨id, -, ⟨rfl, hidle⟩ | ⟨ht, -, hval⟩⟩)
    · exact h
    · refine (h.edit fun hevent => hevent.append data ?_).note _
      rwa [Selector.note, sel.edit_self] at hidle
    · rw [Selector.note, sel.edit_self] at hval
      exact (h.edit_twice (f := (·.append data)) _ (Event.Waits.arm hval)).told ht
  deregister _ _ h _ _ := keeps_waiting (hB.deregister ..) fun _ _ ht => h.told ht
  ended _ _ _ h _ _ := keeps_waiting (hB.deregister ..) fun _ _ ht => h.told ht
  dropKeep _ _ _ _ := trivial
  dropCall _ _ _ := trivial
  dropAccept _ _ _ _ := trivial
  dropRead _ _ _ := trivial
  dropEof _ _ _ _ _ _ := trivial
  dropWrite _ _ _ _ _ _ := trivial

/-! ## The main result -/

/-- The kernel reports when the socket can be written. -/
def Epoll.WatchesWrite (kernel : Epoll.Interest) (socket : SOCKET) : Prop :=
  ∃ info, kernel socket = some info ∧ .EPOLLOUT ∈ info.events

def Kqueue.WatchesWrite (kernel : Kqueue.Kernel) (socket : SOCKET) : Prop :=
  .EVFILT_WRITE ∈ kernel.filters socket

/-- The regular runs in which a socket that is registered is open. One that is
not may be registered if its flags ask for a filter, as the kernel refuses it. -/
def Kqueue.RegularOpen {δ : Type} : Selector SOCKET δ Kqueue.Events Kqueue.Kernel →
    Move (SockReply (S := SOCKET) Kqueue.KqueueReply) (SockCall SOCKET δ) → Prop
  | sel, .call (.registerSocket buffer entry) =>
      Regular (R := Kqueue.KqueueReply) sel (.call (.registerSocket buffer entry)) ∧
        (sel.kernel.live buffer.asRawSocket = true ∨
          ∃ filter : Kqueue.EventFilter, filter.flag ∈ entry.evEvents)
  | sel, m => Regular sel m

theorem Epoll.waiting {os : Os SOCKET Epoll.Interest Epoll.EpollReply}
    {evts : List Epoll.EpollEvent} {kernel : Epoll.Interest}
    {c : Config (Selector SOCKET δ (List Epoll.EpollEvent) Epoll.Interest)
      (SockReply (S := SOCKET) Epoll.EpollReply) Unit}
    (hreach : (unixRuns Epoll.epoll os Epoll.doSelect Regular).Reaches (.new evts kernel) c)
    (hopen : (unixRuns (δ := δ) Epoll.epoll os Epoll.doSelect Regular).Open c.stack) :
    Waiting c.state := by
  have hkeeps := Epoll.keeps (ofInv_plain _)
    (Epoll.epoll_isLocal (δ := δ) os _).maintains_waiting
    ⟨fun _ _ h => h.with_kernel _ _, fun _ _ _ h _ => h.with_kernel _ _⟩
  exact reaches_inv hkeeps hreach (Waiting.new evts kernel) hopen

theorem Kqueue.waiting {os : Os SOCKET Kqueue.Kernel Kqueue.KqueueReply}
    {evts : Kqueue.Events} {kernel : Kqueue.Kernel}
    {c : Config (Selector SOCKET δ Kqueue.Events Kqueue.Kernel)
      (SockReply (S := SOCKET) Kqueue.KqueueReply) Unit}
    (hreach : (unixRuns Kqueue.kqueue os Kqueue.doSelect Regular).Reaches (.new evts kernel) c)
    (hopen : (unixRuns (δ := δ) Kqueue.kqueue os Kqueue.doSelect Regular).Open c.stack) :
    Waiting c.state := by
  have hkeeps := Kqueue.keeps (ofInv_plain _)
    (Kqueue.kqueue_isLocal (δ := δ) (fun _ _ => rfl) os).maintains_waiting
    ⟨fun _ _ h _ => h.with_kernel _ _, fun _ _ _ h _ => h.with_kernel _ _,
      fun _ _ _ h _ => ⟨h.with_kernel _ _, fun _ _ _ _ => h.with_kernel _ _⟩⟩
  exact reaches_inv hkeeps hreach (Waiting.new evts kernel) hopen

theorem Regular.keeps_interest {sel : Selector SOCKET δ (List Epoll.EpollEvent) Epoll.Interest}
    {m : Move (SockReply (S := SOCKET) Epoll.EpollReply) (SockCall SOCKET δ)}
    (h : Regular sel m) : Epoll.KeepsInterest sel m := by
  unfold Epoll.KeepsInterest
  split
  · exact fun id hmaps => absurd (h.1.symm.trans hmaps) nofun
  · exact h
  · exact h
  · trivial

namespace Kqueue.RegularOpen

variable {sel : Selector SOCKET δ Kqueue.Events Kqueue.Kernel}
  {m : Move (SockReply (S := SOCKET) Kqueue.KqueueReply) (SockCall SOCKET δ)}

theorem regular (h : Kqueue.RegularOpen sel m) : Regular sel m := by
  unfold Kqueue.RegularOpen at h
  split at h
  · exact h.1
  · exact h

theorem filter_safe (h : Kqueue.RegularOpen sel m) : Kqueue.FilterSafe sel m := by
  have hregular := h.regular
  unfold Kqueue.FilterSafe
  split
  · exact ⟨h.2, fun id hmaps => absurd (hregular.1.symm.trans hmaps) nofun⟩
  · unfold Kqueue.KeepsFilters
    split
    · rename_i hother
      exact absurd rfl (hother _ _)
    · exact fun id hmaps => absurd (hregular.symm.trans hmaps) nofun
    · exact fun id hmaps => absurd (hregular.symm.trans hmaps) nofun
    · trivial

end Kqueue.RegularOpen

/-- No pending output is stranded: whenever user code runs, a registered socket
is marked exactly if it has something to write, and then its entry asks for
write events and the kernel watches for them. -/
theorem output_flows :
    (∀ os : Os SOCKET Epoll.Interest Epoll.EpollReply, Epoll.Obeys os →
      ∀ c : Config (Selector SOCKET δ (List Epoll.EpollEvent) Epoll.Interest)
        (SockReply (S := SOCKET) Epoll.EpollReply) Unit,
      (unixRuns Epoll.epoll os Epoll.doSelect Regular).Reaches (.new [] fun _ => none) c →
      (unixRuns (δ := δ) Epoll.epoll os Epoll.doSelect Regular).Open c.stack →
      ∀ socket id, c.state.eventMaps socket = some id →
        (c.state.events id).Flows (Epoll.WatchesWrite c.state.kernel socket)) ∧
    ∀ c : Config (Selector SOCKET δ Kqueue.Events Kqueue.Kernel)
        (SockReply (S := SOCKET) Kqueue.KqueueReply) Unit,
      (unixRuns Kqueue.kqueue Kqueue.kqueueOs Kqueue.doSelect Kqueue.RegularOpen).Reaches
        (.new .new ⟨fun _ => false, fun _ => ∅⟩) c →
      (unixRuns (δ := δ) Kqueue.kqueue Kqueue.kqueueOs Kqueue.doSelect Kqueue.RegularOpen).Open
        c.stack →
      ∀ socket id, c.state.eventMaps socket = some id →
        (c.state.events id).Flows (Kqueue.WatchesWrite c.state.kernel socket) := by
  constructor
  · intro os hos c hreach hopen socket id hmaps
    have hwaiting := Epoll.waiting hreach hopen
    have hwaits := hwaiting.waits id (hwaiting.maps socket id hmaps)
    refine ⟨hwaits, fun hval => ?_⟩
    have hagrees := (reaches_inv (Epoll.keeps_watched hos)
      (hreach.weaken fun _ _ => Regular.keeps_interest) Epoll.Watched.new hopen).agrees socket
    rw [hmaps] at hagrees
    refine ⟨_, hagrees, ?_⟩
    have hflag := hwaits.asked hval
    simp [Epoll.interestOf, Epoll.ioeventToEpoll, hflag]
  · intro c hreach hopen socket id hmaps
    have hwaiting := Kqueue.waiting (hreach.weaken fun _ _ => Kqueue.RegularOpen.regular) hopen
    have hwaits := hwaiting.waits id (hwaiting.maps socket id hmaps)
    refine ⟨hwaits, fun hval => ?_⟩
    have hfiltered := reaches_inv Kqueue.keeps_filtered
      (hreach.weaken fun _ _ => Kqueue.RegularOpen.filter_safe) Kqueue.Filtered.new hopen
    exact ((hfiltered.agrees socket).filters hmaps .EVFILT_WRITE).mpr (hwaits.asked hval)

/-- Two bytes are sent, the kernel accepts the first, and the other still waits. -/
theorem output_flows_partial :
    (∃ c, (unixRuns Epoll.epoll Epoll.epollOs Epoll.doSelect Regular).Reaches
        (.new [] fun _ => none : Selector SOCKET Unit _ _) c ∧
      c.state.eventMaps 3 = some 0 ∧ (c.state.events 0).buffer.write.val = [2] ∧
      (c.state.events 0).Flows (Epoll.WatchesWrite c.state.kernel 3)) ∧
    ∃ c, (unixRuns Kqueue.kqueue Kqueue.kqueueOs Kqueue.doSelect Kqueue.RegularOpen).Reaches
        (.new .new ⟨fun _ => false, fun _ => ∅⟩ : Selector SOCKET Unit _ _) c ∧
      c.state.eventMaps 3 = some 0 ∧ (c.state.events 0).buffer.write.val = [2] ∧
      (c.state.events 0).Flows (Kqueue.WatchesWrite c.state.kernel 3) := by
  constructor
  · have start := System.Reaches.refl
      (S := unixRuns Epoll.epoll Epoll.epollOs Epoll.doSelect Regular)
      (.new [] fun _ => none : Selector SOCKET Unit _ _)
    have registered := (start.call (.registerSocket (.new 3 0) .default) trivial
      ⟨trivial, rfl, rfl, rfl⟩).answer (.ok ()) ⟨⟨_, Epoll.epollOs_ok (by decide), rfl⟩, trivial⟩
    have sent := (registered.call (.sendSocket 3 [1, 2]) trivial
      ⟨trivial, trivial⟩).answer (.ok ()) ⟨⟨_, Epoll.epollOs_ok (by decide), rfl⟩, trivial⟩
    have written := (sent.call (.writeDone 3) trivial
      ⟨trivial, trivial⟩).answer (.ok 1) ⟨⟨rfl, by rintro _ ⟨⟩; decide⟩, trivial⟩
    exact ⟨_, written, rfl, rfl,
      output_flows.1 _ Epoll.epollOs_obeys _ written trivial 3 0 rfl⟩
  · have start := System.Reaches.refl
      (S := unixRuns Kqueue.kqueue Kqueue.kqueueOs Kqueue.doSelect Kqueue.RegularOpen)
      (.new .new ⟨fun _ => false, fun _ => ∅⟩ : Selector SOCKET Unit _ _)
    have opened := (start.call .openSocket trivial
      ⟨trivial, trivial⟩).answer (3 : SOCKET) ⟨⟨_, ⟨rfl, rfl⟩, rfl⟩, trivial⟩
    have registered := (opened.call (.registerSocket (.new 3 0) .default) trivial
      ⟨trivial, ⟨rfl, rfl, rfl⟩, .inl rfl⟩).answer (.ok ())
        ⟨⟨_, Kqueue.kqueueOs_ok (by decide), rfl⟩, trivial⟩
    have sent := (registered.call (.sendSocket 3 [1, 2]) trivial
      ⟨trivial, trivial⟩).answer (.ok ()) ⟨⟨_, Kqueue.kqueueOs_ok (by decide), rfl⟩, trivial⟩
    have written := (sent.call (.writeDone 3) trivial
      ⟨trivial, trivial⟩).answer (.ok 1) ⟨⟨rfl, by rintro _ ⟨⟩; decide⟩, trivial⟩
    exact ⟨_, written, rfl, rfl, output_flows.2 _ written trivial 3 0 rfl⟩

end TdRevent.Unix
