import TdRevent.Callbacks
import TdRevent.Unix.KqueueFilters
import TdRevent.Unix.Registry

/-!
# The callbacks of a stream on kqueue

The kernel reports a chunk as long as the read filter is set. Nothing that the
selector does for a stream takes the filter back, so every chunk is read. The
callback for writing is never called.

## Implementation notes

A step is what the loop of `doSelect` runs for one event, or a call of
`sendSocket`. Between two steps anything may happen that leaves the registration
of the socket alone, and a callback may do the same.
-/

namespace TdRevent.Unix.Kqueue

open Interaction

variable {δ : Type} {sel t u : Selector SOCKET δ Events Kernel} {socket : SOCKET} {id : ℕ}

/-- The socket is registered for reading as before. -/
structure Leaves (socket : SOCKET) (id : ℕ) (sel t : Selector SOCKET δ Events Kernel) : Prop where
  maps : t.eventMaps socket = sel.eventMaps socket
  raw : (t.events id).asRawSocket = (sel.events id).asRawSocket
  read : (t.events id).entry.read = (sel.events id).entry.read
  accept : (t.events id).isAccept ↔ (sel.events id).isAccept
  filter : .EVFILT_READ ∈ t.kernel.filters socket ↔ .EVFILT_READ ∈ sel.kernel.filters socket
  quiet : (∀ e ∈ sel.evts.sysEvents, ¬ e.alters) → ∀ e ∈ t.evts.sysEvents, ¬ e.alters

namespace Leaves

theorem refl (sel : Selector SOCKET δ Events Kernel) : Leaves socket id sel sel :=
  ⟨rfl, rfl, rfl, Iff.rfl, Iff.rfl, fun h => h⟩

theorem trans (h : Leaves socket id sel t) (h' : Leaves socket id t u) :
    Leaves socket id sel u where
  maps := h'.maps.trans h.maps
  raw := h'.raw.trans h.raw
  read := h'.read.trans h.read
  accept := h'.accept.trans h.accept
  filter := h'.filter.trans h.filter
  quiet hq := h'.quiet (h.quiet hq)

/-- An event changes, but not its socket, its read callback and its kind. -/
theorem edit (sel : Selector SOCKET δ Events Kernel) (id' : ℕ)
    {f : Event SOCKET δ → Event SOCKET δ}
    (hsocket : ∀ event, (f event).asRawSocket = event.asRawSocket)
    (hread : ∀ event, (f event).entry.read = event.entry.read)
    (haccept : ∀ event, (f event).isAccept = event.isAccept) :
    Leaves socket id sel (sel.edit id' f) where
  maps := rfl
  raw := sel.edit_keeps id' f Event.asRawSocket hsocket id
  read := sel.edit_keeps id' f (fun event => event.entry.read) hread id
  accept := (sel.edit_keeps id' f Event.isAccept haccept id).to_iff
  filter := Iff.rfl
  quiet h := h

theorem note (sel : Selector SOCKET δ Events Kernel) (e : SockEvent SOCKET) :
    Leaves socket id sel (sel.note e) := ⟨rfl, rfl, rfl, Iff.rfl, Iff.rfl, fun h => h⟩

theorem owners (sel : Selector SOCKET δ Events Kernel) (owners : Owners) :
    Leaves socket id sel { sel with owners := owners } :=
  ⟨rfl, rfl, rfl, Iff.rfl, Iff.rfl, fun h => h⟩

/-- A submission that is not about reading. -/
theorem submitted (sel : Selector SOCKET δ Events Kernel) (socket' : SOCKET)
    {f : Finset EventFilter → Finset EventFilter}
    (hf : ∀ filters, .EVFILT_READ ∈ f filters ↔ .EVFILT_READ ∈ filters) :
    Leaves socket id sel (Kqueue.submitted sel socket' f) where
  maps := rfl
  raw := rfl
  read := rfl
  accept := Iff.rfl
  filter := by
    unfold Kqueue.submitted Kernel.adjust
    split
    · by_cases hs : socket = socket'
      · subst hs
        dsimp only
        rw [Function.update_self, hf]
      · dsimp only
        rw [Function.update_of_ne hs]
    · exact Iff.rfl
  quiet _ := nofun

end Leaves

/-! ## The steps -/

/-- How the environment answers during a step. The socket gives the chunk, a write
takes some bytes, and callbacks return `OK`. -/
def answers (socket : SOCKET) (id : ℕ) (i : Input) : (q : SockAsk SOCKET KqueueCall) →
    Selector SOCKET δ Events Kernel → SockReply KqueueReply q →
    Selector SOCKET δ Events Kernel → Prop
  | .readCb _, sel, r, t => r = .OK ∧ Leaves socket id sel t
  | .read s n, sel, r, t =>
      SockAsk.answer kqueueOs (.read s n) sel r t ∧ ∃ bytes, i = .chunk bytes ∧ r = .ok bytes
  | .write s data, sel, r, t =>
      SockAsk.answer kqueueOs (.write s data) sel r t ∧ ∃ len, len ≠ 0 ∧ r = .ok len
  | q, sel, r, t => SockAsk.answer kqueueOs q sel r t

theorem answers_silent {i : Input} {q : SockAsk SOCKET KqueueCall}
    {r : SockReply KqueueReply q} (hq : q.Silent) (h : answers socket id i q sel r t) :
    SockAsk.answer kqueueOs q sel r t := by
  cases q with
  | close => exact h
  | sys => exact h
  | _ => exact hq.elim

/-- The callback that an exchange is about. -/
def callback
    (x : Exchange (Selector SOCKET δ Events Kernel) (SockReply (S := SOCKET) KqueueReply)) :
    Option Callback :=
  match x.question with
  | .readCb _ => some .readCb
  | _ => none

/-- What the selector does for an input, and the callbacks that it runs. -/
inductive Handles (socket : SOCKET) (id : ℕ) : Selector SOCKET δ Events Kernel → Input →
    List Callback → Selector SOCKET δ Events Kernel → Prop
  | chunk {s u : Selector SOCKET δ Events Kernel} {tr} (bytes : List UInt8) (hbytes : bytes ≠ [])
      (hfilter : .EVFILT_READ ∈ s.kernel.filters socket)
      (htrace : (readDone socket).Trace (answers socket id (.chunk bytes)) s tr () u) :
      Handles socket id s (.chunk bytes) (tr.filterMap callback) u
  | unread {s : Selector SOCKET δ Events Kernel} (bytes : List UInt8)
      (hfilter : .EVFILT_READ ∉ s.kernel.filters socket) :
      Handles socket id s (.chunk bytes) [] s
  | sent {s u : Selector SOCKET δ Events Kernel} {tr r} (data : List UInt8)
      (htrace : (sendSocket socket data).Trace (answers socket id (.sent data)) s tr r u) :
      Handles socket id s (.sent data) (tr.filterMap callback) u
  | written {s u : Selector SOCKET δ Events Kernel} {tr}
      (hfilter : .EVFILT_WRITE ∈ s.kernel.filters socket)
      (hdata : (s.events id).buffer.write.val ≠ [])
      (htrace : (writeDone socket).Trace (answers socket id .written) s tr () u) :
      Handles socket id s .written (tr.filterMap callback) u

/-- The stream is registered and its read filter is set. -/
structure Watched (reg : Registration) (socket : SOCKET) (id : ℕ)
    (sel : Selector SOCKET δ Events Kernel) : Prop where
  maps : sel.eventMaps socket = some id
  raw : (sel.events id).asRawSocket = socket
  read : (sel.events id).entry.read = reg.read
  stream : ¬ (sel.events id).isAccept
  filter : .EVFILT_READ ∈ sel.kernel.filters socket
  quiet : ∀ e ∈ sel.evts.sysEvents, ¬ e.alters

variable {reg : Registration}

theorem Watched.leaves (h : Watched reg socket id sel) (ht : Leaves socket id sel t) :
    Watched reg socket id t where
  maps := ht.maps.trans h.maps
  raw := ht.raw.trans h.raw
  read := ht.read.trans h.read
  stream := mt ht.accept.mp h.stream
  filter := ht.filter.mpr h.filter
  quiet := ht.quiet h.quiet

/-- The map owns the event. -/
theorem Watched.refs (h : Watched reg socket id sel) : sel.refs id ≠ 0 := by
  rw [Selector.refs, h.raw, if_pos h.maps]
  exact Nat.succ_ne_zero _

theorem Watched.owners (h : Watched reg socket id sel) (owners : Owners) :
    Watched reg socket id { sel with owners := owners } := h.leaves (.owners sel owners)

/-! ## Reading -/

variable {i : Input}
  {tr : List (Exchange (Selector SOCKET δ Events Kernel) (SockReply (S := SOCKET) KqueueReply))}

/-- The read callback runs if there is one, and returns `OK`. -/
theorem readCb_handles {r : RetValue}
    (htrace : (readCb id).Trace (answers socket id i) sel tr r t) :
    tr.filterMap callback = (if (sel.events id).entry.read = none then [] else [.readCb]) ∧
      r = .OK ∧ Leaves socket id sel t := by
  unfold readCb at htrace
  rw [Code.trace_read_then] at htrace
  cases hread : (sel.events id).entry.read with
  | none =>
      rw [hread] at htrace
      obtain ⟨rfl, rfl, rfl⟩ := htrace
      exact ⟨rfl, rfl, .refl _⟩
  | some cb =>
      rw [hread] at htrace
      obtain ⟨⟨rfl, ht⟩, rfl⟩ := (Code.trace_query ..).mp htrace
      exact ⟨rfl, rfl, ht⟩

theorem exists_readCb (sel : Selector SOCKET δ Events Kernel) :
    ∃ tr, (readCb id).Trace (answers socket id i) sel tr .OK sel := by
  unfold readCb
  simp only [Code.trace_read_then]
  cases (sel.events id).entry.read with
  | none => exact ⟨[], rfl, rfl, rfl⟩
  | some cb => exact ⟨_, (Code.trace_query ..).mpr ⟨⟨rfl, .refl sel⟩, rfl⟩⟩

/-- A handler that returns does not free the event. -/
theorem letGo_trace (h : Watched reg socket id sel) :
    (letGo id).Trace (answers socket id i) sel tr () t ↔ tr = [] ∧ t = sel.release id := by
  unfold letGo freeUnowned
  rw [Code.trace_modify_then, Code.trace_read_then, Code.when,
    if_neg fun hfreed => (h.owners _).refs hfreed.1]
  exact (Code.trace_pure () ()).trans (and_congr_right fun _ => ⟨fun h => h.2, fun h => ⟨rfl, h⟩⟩)

/-- A chunk is put into the buffer before the read callback runs. -/
theorem readEvent_chunk (h : Watched reg socket id sel) {bytes : List UInt8} (hbytes : bytes ≠ []) :
    (readEvent kqueue id).Trace (answers socket id (.chunk bytes)) sel tr () t ↔
      bytes.length ≤ (sel.events id).buffer.readCache.length ∧ ∃ tr',
        tr = ⟨.read (sel.events id).asRawSocket (sel.events id).buffer.readCache.length, sel,
          .ok bytes, sel⟩ :: tr' ∧
        (do
          let ret ← readCb id
          endIfOver kqueue id ret).Trace (answers socket id (.chunk bytes))
            (sel.edit id (·.fill bytes)) tr' () t := by
  have hbuffer : ((sel.edit id (·.fill bytes)).events id).buffer.hasReadBuffer = true := by
    rw [sel.edit_self]
    simpa [EventBuffer.hasReadBuffer, Event.fill, Buffer.empty] using
      (sel.events id).buffer.read.write_ne_nil_of_ne_nil hbytes
  unfold readEvent Unix.edit
  rw [Code.trace_read_then, if_neg h.stream, Code.trace_query_then]
  constructor
  · rintro ⟨_, _, tr, ⟨⟨rfl, hroom⟩, _, hchunk, rfl⟩, rfl, htrace⟩
    obtain rfl := Input.chunk.inj hchunk
    dsimp only at htrace
    rw [if_neg hbytes, Code.trace_modify_then, Code.trace_read_then, if_pos hbuffer] at htrace
    exact ⟨hroom bytes rfl, tr, rfl, htrace⟩
  · rintro ⟨hroom, tr, rfl, htrace⟩
    refine ⟨.ok bytes, sel, tr, ⟨⟨rfl, ?_⟩, bytes, rfl, rfl⟩, rfl, ?_⟩
    · rintro _ ⟨⟩
      exact hroom
    · dsimp only
      rwa [if_neg hbytes, Code.trace_modify_then, Code.trace_read_then, if_pos hbuffer]

theorem fill_leaves (bytes : List UInt8) : Leaves socket id sel (sel.edit id (·.fill bytes)) :=
  .edit sel id (fun _ => rfl) (fun _ => rfl) fun _ => rfl

theorem readEvent_handles (h : Watched reg socket id sel) {bytes : List UInt8} (hbytes : bytes ≠ [])
    (htrace : (readEvent kqueue id).Trace (answers socket id (.chunk bytes)) sel tr () t) :
    tr.filterMap callback = reg.onRead ∧ Watched reg socket id t := by
  obtain ⟨-, _, rfl, hrest⟩ := (readEvent_chunk h hbytes).mp htrace
  obtain ⟨r, u, tr₁, tr₂, rfl, hcb, hend⟩ := (Code.trace_bind ..).mp hrest
  obtain ⟨hcalled, rfl, hu⟩ := readCb_handles hcb
  obtain ⟨rfl, -, rfl⟩ := hend
  have hfilled := h.leaves (fill_leaves bytes)
  refine ⟨?_, hfilled.leaves hu⟩
  rw [List.append_nil, List.filterMap_cons_none rfl, hcalled, hfilled.read, Registration.onRead]

/-- The handler holds the event while it reads. -/
theorem readDone_trace (h : Watched reg socket id sel) :
    (readDone socket).Trace (answers socket id i) sel tr () t ↔
      ∃ u tr₁ tr₂, tr = tr₁ ++ tr₂ ∧
        (readEvent kqueue id).Trace (answers socket id i) (sel.hold id) tr₁ () u ∧
        (letGo id).Trace (answers socket id i) u tr₂ () t := by
  unfold readDone Unix.readDone holding
  rw [Code.trace_read_then, h.maps]
  dsimp only
  rw [Code.trace_modify_then, Code.trace_bind]
  exact ⟨fun ⟨_, htrace⟩ => htrace, fun htrace => ⟨(), htrace⟩⟩

/-- A chunk is read, and the read callback runs. -/
theorem readDone_handles (h : Watched reg socket id sel) {bytes : List UInt8} (hbytes : bytes ≠ [])
    (htrace : (readDone socket).Trace (answers socket id (.chunk bytes)) sel tr () t) :
    tr.filterMap callback = reg.onRead ∧ Watched reg socket id t := by
  obtain ⟨u, tr₁, tr₂, rfl, hread, hend⟩ := (readDone_trace h).mp htrace
  obtain ⟨hcalled, hu⟩ := readEvent_handles (h.owners _) hbytes hread
  obtain ⟨rfl, rfl⟩ := (letGo_trace hu).mp hend
  rw [List.append_nil]
  exact ⟨hcalled, hu.owners _⟩

/-- Every chunk that fits into the cache can be read. -/
theorem Watched.reads (h : Watched reg socket id sel) {bytes : List UInt8} (hbytes : bytes ≠ [])
    (hroom : bytes.length ≤ (sel.events id).buffer.readCache.length) :
    Handles socket id sel (.chunk bytes) reg.onRead
      (((sel.hold id).edit id (·.fill bytes)).release id) := by
  obtain ⟨tr, hcb⟩ := exists_readCb ((sel.hold id).edit id (·.fill bytes))
  have hheld : Watched reg socket id (sel.hold id) := h.owners _
  have hread := (readEvent_chunk hheld hbytes).mpr ⟨hroom, tr, rfl,
    (Code.trace_bind ..).mpr ⟨.OK, _, tr, [], tr.append_nil.symm, hcb, rfl, rfl, rfl⟩⟩
  have hend := (letGo_trace (i := .chunk bytes) (hheld.leaves (fill_leaves bytes))).mpr ⟨rfl, rfl⟩
  have htrace := (readDone_trace h).mpr ⟨_, _, _, rfl, hread, hend⟩
  rw [← (readDone_handles h hbytes htrace).1]
  exact .chunk bytes hbytes h.filter htrace

/-- Chunks that fit are read one after the other. -/
theorem Watched.reads_all {chunks : List (List UInt8)} (h : Watched reg socket id sel)
    (hfit : ∀ bytes ∈ chunks,
      bytes ≠ [] ∧ bytes.length ≤ (sel.events id).buffer.readCache.length) :
    ∃ calls t, Responds (Handles socket id) (Leaves socket id) sel (chunks.map .chunk) calls t := by
  induction chunks generalizing sel with
  | nil => exact ⟨[], sel, .nil sel⟩
  | cons bytes chunks ih =>
      obtain ⟨⟨hbytes, hroom⟩, hrest⟩ := List.forall_mem_cons.mp hfit
      have hcache : (((sel.hold id).edit id (·.fill bytes)).events id).buffer.readCache.length =
          (sel.events id).buffer.readCache.length := by
        rw [Selector.edit_self, Selector.hold]
        simp [Event.fill, Nat.add_sub_cancel' hroom]
      have hread : Watched reg socket id (((sel.hold id).edit id (·.fill bytes)).release id) :=
        ((h.owners _).leaves (fill_leaves bytes)).owners _
      obtain ⟨calls, t, hrun⟩ := ih hread (hcache ▸ hrest)
      exact ⟨_, t, .input (h.reads hbytes hroom) hrun⟩

/-! ## Writing -/

/-- No callback is asked for. -/
def silent (socket : SOCKET) (id : ℕ) (i : Input) :
    Contract (Selector SOCKET δ Events Kernel) (SockReply (S := SOCKET) KqueueReply) :=
  ⟨fun q _ => ¬ q.user, answers socket id i⟩

/-- Code that asks for no callback runs none. -/
theorem callbacks_of_silent {α : Type} {c : KqueueCode δ α} {a : α}
    {Q : α → Selector SOCKET δ Events Kernel → Prop} (hc : c.wp (silent socket id i) Q sel)
    (htrace : c.Trace (answers socket id i) sel tr a t) : tr.filterMap callback = [] ∧ Q a t := by
  obtain ⟨hasks, hQ⟩ := Code.wp_trace c hc htrace
  refine ⟨List.filterMap_eq_nil_iff.mpr fun x hx => ?_, hQ⟩
  have huser := hasks x hx
  unfold callback
  split
  · rename_i hquestion
    rw [hquestion] at huser
    exact absurd trivial huser
  · rfl

/-- A submission about writing. -/
theorem submits_leaves {flags : EventFlag} {raw : SOCKET}
    (hquiet : ∀ e ∈ sel.evts.sysEvents, ¬ e.alters)
    (hflags : .EV_ADD ∈ flags ∨ .EV_DELETE ∈ flags)
    (hread : ∀ filters, .EVFILT_READ ∈ asked flags EventFlags.FLAG_WRITE filters ↔
      .EVFILT_READ ∈ filters) :
    (do
      .when (EventFlags.FLAG_WRITE.contains EventFlags.FLAG_READ) (evPush raw .EVFILT_READ flags)
      .when (EventFlags.FLAG_WRITE.contains EventFlags.FLAG_WRITE) (evPush raw .EVFILT_WRITE flags)
      flushChanges : KqueueCode δ _).wp (silent socket id i)
      (fun _ => Leaves socket id sel) sel := by
  refine Code.wp_mono _ (fun r t ht => ?_) ((submits hflags).wp _
    (fun _ _ _ _ hq ht => answers_silent hq ht) sel fun _ _ hq _ => hq.not_user)
  obtain ⟨-, rfl⟩ := ht hquiet
  exact .submitted sel raw hread

theorem wantWrite_leaves {raw : SOCKET} (hquiet : ∀ e ∈ sel.evts.sysEvents, ¬ e.alters) :
    (register raw EventFlags.FLAG_WRITE : KqueueCode δ _).wp (silent socket id i)
      (fun _ => Leaves socket id sel) sel := by
  refine submits_leaves hquiet (Or.inl (by decide)) fun filters => ?_
  exact (mem_asked_add ..).trans (or_iff_left (by decide))

theorem dropWrite_leaves {raw : SOCKET} (hquiet : ∀ e ∈ sel.evts.sysEvents, ¬ e.alters) :
    (deregister raw EventFlags.FLAG_WRITE : KqueueCode δ _).wp (silent socket id i)
      (fun _ => Leaves socket id sel) sel := by
  refine submits_leaves hquiet (Or.inr (by decide)) fun filters => ?_
  exact (mem_asked_delete ..).trans (and_iff_left (by decide))

theorem arm_leaves : Leaves socket id sel (sel.edit id Event.arm) := by
  refine .edit sel id (fun _ => rfl) (fun _ => rfl) fun event => ?_
  simp [Event.isAccept, Event.arm]

theorem disarm_leaves : Leaves socket id sel (sel.edit id Event.disarm) := by
  refine .edit sel id (fun _ => rfl) (fun _ => rfl) fun event => ?_
  simp [Event.isAccept, Event.disarm]

theorem writeOver_leaves (hquiet : ∀ e ∈ sel.evts.sysEvents, ¬ e.alters) :
    (writeOver kqueue id).wp (silent socket id i) (fun _ => Leaves socket id sel) sel := by
  unfold writeOver
  refine (Code.wp_bind ..).mpr ((Code.wp_bind ..).mpr ((Code.wp_bind ..).mpr ?_))
  refine Code.wp_mono _ (fun _ t ht => ?_) (dropWrite_leaves hquiet)
  exact disarm_leaves.trans ht

theorem writeEvent_leaves (h : Watched reg socket id sel) :
    (writeEvent kqueue id).wp (silent socket id i) (fun _ => Leaves socket id sel) sel := by
  unfold writeEvent
  refine (Code.wp_bind ..).mpr (Code.wp_read.mpr ?_)
  split
  · exact writeOver_leaves h.quiet
  · refine (Code.wp_bind ..).mpr ((Code.wp_query ..).mpr ⟨fun hu => hu, ?_⟩)
    rintro _ _ ⟨⟨hsame, -⟩, len, hlen, rfl⟩
    dsimp only
    rw [hsame, if_neg hlen]
    have hdrained : Leaves socket id sel ((sel.edit id (·.drain len)).note
        (.accepted id ((sel.events id).buffer.write.getData.take len))) :=
      (Leaves.edit sel id (f := (·.drain len)) (fun _ => rfl) (fun _ => rfl) fun _ => rfl).trans
        (.note ..)
    refine (Code.wp_bind ..).mpr ((Code.wp_bind ..).mpr ((Code.wp_bind ..).mpr ?_))
    refine Code.wp_read.mpr ?_
    split
    · exact Code.wp_mono _ (fun _ t ht => hdrained.trans ht) (writeOver_leaves h.quiet)
    · exact hdrained

theorem letGo_leaves (h : Watched reg socket id sel) :
    (letGo id).wp (silent socket id i) (fun _ => Leaves socket id sel) sel := by
  unfold letGo freeUnowned
  refine (Code.wp_bind ..).mpr ((Code.wp_bind ..).mpr (Code.wp_read.mpr ?_))
  rw [Code.when, if_neg fun hfreed => (h.owners _).refs hfreed.1]
  exact Leaves.owners sel _

/-- A write takes some bytes, and no callback runs. -/
theorem writeDone_leaves (h : Watched reg socket id sel) :
    (writeDone socket).wp (silent socket id i) (fun _ => Leaves socket id sel) sel := by
  unfold writeDone Unix.writeDone holding
  refine (Code.wp_bind ..).mpr (Code.wp_read.mpr ?_)
  rw [h.maps]
  have hheld : Leaves socket id sel (sel.hold id) := .owners sel _
  refine (Code.wp_bind ..).mpr ((Code.wp_bind ..).mpr ?_)
  refine Code.wp_mono _ (fun _ u hu => ?_) (writeEvent_leaves (h.leaves hheld))
  have hkept := hheld.trans hu
  exact Code.wp_mono _ (fun _ _ ht => hkept.trans ht) (letGo_leaves (h.leaves hkept))

theorem sendSocket_leaves (h : Watched reg socket id sel) (data : List UInt8) :
    (sendSocket socket data).wp (silent socket id i) (fun _ => Leaves socket id sel) sel := by
  unfold sendSocket Unix.sendSocket
  refine (Code.wp_bind ..).mpr (Code.wp_read.mpr ?_)
  rw [h.maps]
  have hsent : Leaves socket id sel ((sel.edit id (·.append data)).note (.sent id data)) :=
    (Leaves.edit sel id (f := (·.append data)) (fun _ => rfl) (fun _ => rfl) fun _ => rfl).trans
      (.note ..)
  refine (Code.wp_bind ..).mpr ((Code.wp_bind ..).mpr ((Code.wp_bind ..).mpr ?_))
  refine Code.wp_read.mpr ?_
  split
  · exact hsent
  · refine (Code.wp_bind ..).mpr ((Code.wp_bind ..).mpr ((Code.wp_bind ..).mpr ?_))
    refine Code.wp_mono _ (fun r t ht => ?_) (wantWrite_leaves (hsent.quiet h.quiet))
    have harmed := hsent.trans (arm_leaves.trans ht)
    cases r with
    | ok _ => exact harmed
    | error e => exact harmed

/-! ## The simulation -/

theorem readiness_simulates : reg.readiness.Simulates (Handles (δ := δ) socket id)
    (Leaves socket id) (fun _ => Watched reg socket id) where
  idle h ht := h.leaves ht
  step h hstep := by
    cases hstep with
    | chunk bytes hbytes _ htrace => exact readDone_handles h hbytes htrace
    | unread bytes hfilter => exact absurd h.filter hfilter
    | sent data htrace =>
        obtain ⟨hsilent, ht⟩ := callbacks_of_silent (sendSocket_leaves h data) htrace
        exact ⟨hsilent, h.leaves ht⟩
    | written _ _ htrace =>
        obtain ⟨hsilent, ht⟩ := callbacks_of_silent (writeDone_leaves h) htrace
        exact ⟨hsilent, h.leaves ht⟩

/-- A stream that was registered for reading is watched. -/
theorem registerSocket_watched {buffer : EventBuffer SOCKET} {entry : EventEntry SOCKET δ}
    (hquiet : ∀ e ∈ sel.evts.sysEvents, ¬ e.alters) (hread : Flag.READ ∈ entry.evEvents)
    (hstream : Flag.ACCEPT ∉ entry.evEvents)
    (hexec : (registerSocket buffer entry).Exec (SockAsk.answer kqueueOs) sel (.ok ()) t) :
    Watched entry.registration buffer.asRawSocket sel.count t := by
  have hwp : (registerSocket buffer entry).wp
      (⟨fun _ _ => True, SockAsk.answer kqueueOs⟩ : Contract (Selector SOCKET δ Events Kernel)
        (SockReply (S := SOCKET) KqueueReply))
      (fun r t => r = .ok () → Watched entry.registration buffer.asRawSocket sel.count t)
      sel := by
    unfold registerSocket Unix.registerSocket addEvent
    refine (Code.wp_bind ..).mpr (Code.wp_mono _ ?_ ((Local.removeEvent (h := fun evts => evts)
      _).wp _ (fun _ _ _ _ _ ht => ht) sel fun _ _ _ _ => trivial))
    rintro _ _ ⟨owners, evts, kernel, rfl, rfl⟩
    set sel : Selector SOCKET δ Events Kernel :=
      { sel.remove buffer.asRawSocket with owners := owners, kernel := kernel }
    refine (Code.wp_bind ..).mpr ((Code.wp_bind ..).mpr ?_)
    refine Code.wp_mono _ (fun r t ht => ?_) ((submits (Or.inl (by decide))).wp _
      (fun _ _ _ _ _ ht => ht) (sel.insert buffer entry) fun _ _ _ _ => trivial)
    obtain ⟨hr, rfl⟩ := ht hquiet
    cases r with
    | error e =>
        refine (Code.wp_bind ..).mpr (Code.wp_mono _ ?_ ((Local.removeEvent (h := fun _ => ())
          _).wp _ (fun _ _ _ _ _ ht => ht) _ fun _ _ _ _ => trivial))
        exact fun _ _ _ => nofun
    | ok _ =>
        intro _
        have hlive := (hr.mp rfl).resolve_right fun hnone => hnone .EVFILT_READ hread
        have hnew := sel.insert_new buffer entry
        refine
          { maps := sel.insert_maps buffer entry
            raw := congrArg Event.asRawSocket hnew
            read := congrArg (fun event : Event SOCKET δ => event.entry.read) hnew
            stream := fun haccept => ?_
            filter := ?_
            quiet := nofun }
        · have hlistens := (congrArg Event.isAccept hnew).mp haccept
          exact hstream ((EventFlags.contains_ACCEPT _).mp hlistens)
        · unfold submitted Kernel.adjust
          rw [if_pos hlive]
          dsimp only
          rw [Function.update_self]
          exact (mem_asked_add ..).mpr (Or.inr hread)
  exact Code.wp_exec _ hwp hexec rfl

/-- A stream is registered at some point of a run. Then it gets these inputs and
callbacks. -/
inductive Serves (buffer : EventBuffer SOCKET) (entry : EventEntry SOCKET δ) (is : List Input)
    (os : List Callback) : Prop
  | intro {ok kernel t u}
      {c : Config (Selector SOCKET δ Events Kernel) (SockReply (S := SOCKET) KqueueReply) Unit}
      (hreach : (unixRuns kqueue kqueueOs doSelect ok).Reaches (.new .new kernel) c)
      (hopen : (unixRuns kqueue kqueueOs doSelect ok).Open c.stack)
      (hregister : (registerSocket buffer entry).Exec (SockAsk.answer kqueueOs) c.state (.ok ()) t)
      (hrun : Responds (Handles buffer.asRawSocket c.state.count)
        (Leaves buffer.asRawSocket c.state.count) t is os u)

/-- The callbacks of a stream are those of the first machine. -/
theorem Serves.outputs {buffer : EventBuffer SOCKET} {entry : EventEntry SOCKET δ}
    {is : List Input} {os : List Callback} (h : Serves buffer entry is os)
    (hread : Flag.READ ∈ entry.registration.flags)
    (hstream : Flag.ACCEPT ∉ entry.registration.flags) :
    os = entry.registration.readiness.outputs () is := by
  obtain ⟨hreach, hopen, hregister, hrun⟩ := h
  have hquiet := (quiet_reached hreach hopen).vector
  have hwatched := registerSocket_watched hquiet hread hstream hregister
  exact (readiness_simulates.responds hwatched hrun).1

end TdRevent.Unix.Kqueue
