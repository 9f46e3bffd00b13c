import TdRevent.Callbacks
import TdRevent.Interaction.Trace
import TdRevent.Win.Calm
import TdRevent.Win.Outstanding

/-!
# The callbacks of a stream on Windows

A chunk completes the read that is posted. The handler runs the read callback and
posts the next read only if the event persists. The callback for writing runs for
every completed write.

## Implementation notes

A step is what `doSelect` runs for one packet, or a call of `sendSocket`. The key
of a packet is what the socket was added to the port with. Between two steps
anything may happen that leaves the registration of the socket and its reads alone,
and a callback may do the same.
-/

namespace TdRevent.Win

open Interaction

variable {S δ : Type} {sel t u : Selector S δ} {socket : S} {id : ℕ}

/-- The socket is registered as before, and its reads are as before. -/
structure Leaves (socket : S) (id : ℕ) (sel t : Selector S δ) : Prop where
  maps : t.eventMaps socket = sel.eventMaps socket
  raw : (t.events id).asRawSocket = (sel.events id).asRawSocket
  flags : (t.events id).entry.evEvents = (sel.events id).entry.evEvents
  read : (t.events id).entry.read = (sel.events id).entry.read
  write : (t.events id).entry.write = (sel.events id).entry.write
  isEnd : (t.events id).isEnd = (sel.events id).isEnd
  inRead : (t.events id).buffer.isInRead = (sel.events id).buffer.isInRead
  reading : t.port.outstanding (.read id) = sel.port.outstanding (.read id)

namespace Leaves

theorem refl (sel : Selector S δ) : Leaves socket id sel sel :=
  ⟨rfl, rfl, rfl, rfl, rfl, rfl, rfl, rfl⟩

theorem trans (h : Leaves socket id sel t) (h' : Leaves socket id t u) :
    Leaves socket id sel u where
  maps := h'.maps.trans h.maps
  raw := h'.raw.trans h.raw
  flags := h'.flags.trans h.flags
  read := h'.read.trans h.read
  write := h'.write.trans h.write
  isEnd := h'.isEnd.trans h.isEnd
  inRead := h'.inRead.trans h.inRead
  reading := h'.reading.trans h.reading

/-- The outgoing side of an event changes. -/
theorem edit (sel : Selector S δ) (id' : ℕ) {f : Event S δ → Event S δ}
    (hsocket : ∀ event, (f event).asRawSocket = event.asRawSocket)
    (hentry : ∀ event, (f event).entry = event.entry)
    (hend : ∀ event, (f event).isEnd = event.isEnd)
    (hin : ∀ event, (f event).buffer.isInRead = event.buffer.isInRead) :
    Leaves socket id sel (sel.edit id' f) where
  maps := rfl
  raw := sel.edit_keeps id' Event.asRawSocket hsocket id
  flags := congrArg EventEntry.evEvents (sel.edit_keeps id' Event.entry hentry id)
  read := congrArg EventEntry.read (sel.edit_keeps id' Event.entry hentry id)
  write := congrArg EventEntry.write (sel.edit_keeps id' Event.entry hentry id)
  isEnd := sel.edit_keeps id' Event.isEnd hend id
  inRead := sel.edit_keeps id' (fun event => event.buffer.isInRead) hin id
  reading := rfl

/-- The events are left alone, and so are the posted reads. -/
theorem of_port {owners : Owners} {port : Port} {stale : ℕ → ℕ} {log : List (SockEvent S)}
    (hport : port.outstanding (.read id) = sel.port.outstanding (.read id)) :
    Leaves socket id sel { sel with owners := owners, port := port, stale := stale, log := log } :=
  ⟨rfl, rfl, rfl, rfl, rfl, rfl, rfl, hport⟩

theorem owners (sel : Selector S δ) (owners : Owners) :
    Leaves socket id sel { sel with owners := owners } := of_port rfl

theorem enqueue_write (sel : Selector S δ) (id' : ℕ) :
    Leaves socket id sel { sel with port := sel.port.enqueue (.write id') } := by
  have hne : Overlapped.read id ≠ .write id' := nofun
  exact of_port (sel.port.enqueue_of_ne _ hne)

theorem complete_write (sel : Selector S δ) (id' : ℕ) :
    Leaves socket id sel { sel with port := sel.port.complete (.write id') } := by
  have hne : Overlapped.read id ≠ .write id' := nofun
  exact of_port (sel.port.complete_of_ne _ hne)

theorem takeFront (sel : Selector S δ) (id' n : ℕ) :
    Leaves socket id sel (sel.takeFront id' n) := by
  have hdrained : Leaves socket id sel (sel.edit id' (·.drain n)) :=
    .edit sel id' (fun _ => rfl) (fun _ => rfl) (fun _ => rfl) fun _ => rfl
  exact hdrained.trans (of_port rfl)

theorem takeAll (sel : Selector S δ) (id' : ℕ) : Leaves socket id sel (sel.takeAll id') :=
  of_port rfl

end Leaves

/-! ## The steps -/

/-- How the environment answers during a step. Reads can be posted, and callbacks
return `OK`. -/
def answers (socket : S) (id : ℕ) : (q : WinAsk S) → Selector S δ → WinReply q → Selector S δ → Prop
  | .readCb _, sel, r, t => r = .OK ∧ Leaves socket id sel t
  | .writeCb _, sel, r, t => r = .OK ∧ Leaves socket id sel t
  | .endCb _, sel, _, t => Leaves socket id sel t
  | .readOverlapped s n o, sel, r, t =>
      WinAsk.answer (.readOverlapped s n o) sel r t ∧ ∃ len, r = .ok len
  | q, sel, r, t => WinAsk.answer q sel r t

/-- The callback that an exchange is about. -/
def callback (x : Exchange (Selector S δ) (WinReply (S := S))) : Option Callback :=
  match x.question with
  | .readCb _ => some .readCb
  | .writeCb _ => some .writeCb
  | _ => none

variable [DecidableEq S]

/-- What the selector does for an input, and the callbacks that it runs. -/
inductive Handles (flags : EventFlags) (socket : S) (id : ℕ) :
    Selector S δ → Input → List Callback → Selector S δ → Prop
  | chunk {s u : Selector S δ} {tr} (bytes : List UInt8) (hbytes : bytes ≠ [])
      (hposted : s.port.outstanding (.read id) ≠ 0)
      (htrace : (Win.dispatch ⟨bytes.length, flags, some (.read id)⟩).Trace (answers socket id)
        s tr () u) :
      Handles flags socket id s (.chunk bytes) (tr.filterMap callback) u
  | unread {s : Selector S δ} (bytes : List UInt8)
      (hidle : s.port.outstanding (.read id) = 0) :
      Handles flags socket id s (.chunk bytes) [] s
  | sent {s u : Selector S δ} {tr r} (data : List UInt8)
      (htrace : (Win.sendSocket socket data).Trace (answers socket id) s tr r u) :
      Handles flags socket id s (.sent data) (tr.filterMap callback) u
  | written {s u : Selector S δ} {tr} (len : ℕ) (hposted : s.port.outstanding (.write id) ≠ 0)
      (htrace : (Win.dispatch ⟨len, flags, some (.write id)⟩).Trace (answers socket id) s tr () u) :
      Handles flags socket id s .written (tr.filterMap callback) u

/-- The stream is registered. -/
structure Registered (reg : Registration) (socket : S) (id : ℕ) (sel : Selector S δ) : Prop where
  maps : sel.eventMaps socket = some id
  raw : (sel.events id).asRawSocket = socket
  flags : (sel.events id).entry.evEvents = reg.flags
  read : (sel.events id).entry.read = reg.read
  isEnd : (sel.events id).isEnd = false

/-- A read is posted for the stream, if it is armed. -/
structure Connected (reg : Registration) (socket : S) (id : ℕ) (armed : Bool)
    (sel : Selector S δ) : Prop where
  write : (sel.events id).entry.write = reg.write
  reading : sel.port.outstanding (.read id) = armed.toNat
  registered : armed = true → Registered reg socket id sel

variable {reg : Registration} {armed : Bool}

omit [DecidableEq S] in
theorem Registered.leaves (h : Registered reg socket id sel) (ht : Leaves socket id sel t) :
    Registered reg socket id t where
  maps := ht.maps.trans h.maps
  raw := ht.raw.trans h.raw
  flags := ht.flags.trans h.flags
  read := ht.read.trans h.read
  isEnd := ht.isEnd.trans h.isEnd

omit [DecidableEq S] in
theorem Connected.leaves (h : Connected reg socket id armed sel) (ht : Leaves socket id sel t) :
    Connected reg socket id armed t where
  write := ht.write.trans h.write
  reading := ht.reading.trans h.reading
  registered harmed := (h.registered harmed).leaves ht

/-! ## Code that runs no callback -/

/-- No callback is asked for. -/
def silent (socket : S) (id : ℕ) : Contract (Selector S δ) (WinReply (S := S)) :=
  ⟨fun q _ => ¬ q.user, answers socket id⟩

variable {tr : List (Exchange (Selector S δ) (WinReply (S := S)))}

omit [DecidableEq S] in
/-- Code that asks for no callback runs none. -/
theorem callbacks_of_silent {α : Type} {c : WinCode S δ α} {a : α} {Q : α → Selector S δ → Prop}
    (hc : c.wp (silent socket id) Q sel) (htrace : c.Trace (answers socket id) sel tr a t) :
    tr.filterMap callback = [] ∧ Q a t := by
  obtain ⟨hasks, hQ⟩ := Code.wp_trace c hc htrace
  refine ⟨List.filterMap_eq_nil_iff.mpr fun x hx => ?_, hQ⟩
  have huser := hasks x hx
  unfold callback
  split
  · rename_i hquestion
    rw [hquestion] at huser
    exact absurd trivial huser
  · rename_i hquestion
    rw [hquestion] at huser
    exact absurd trivial huser
  · rfl

section

omit [DecidableEq S]

variable {C : Contract (Selector S δ) (WinReply (S := S))}
  (hasks : ∀ s data o t, C.asks (.writeOverlapped s data o) t)
  (hanswers : ∀ s data o sel r t, C.answers (.writeOverlapped s data o) sel r t →
    WinAsk.answer (.writeOverlapped s data o) sel r t)

include hasks hanswers

theorem writeOut_leaves (id' : ℕ) :
    (Win.writeOut id').wp C (fun _ => Leaves socket id sel) sel := by
  unfold Win.writeOut
  refine (Code.wp_bind ..).mpr (Code.wp_read.mpr ?_)
  split
  · exact .refl sel
  · refine (Code.wp_bind ..).mpr ((Code.wp_query ..).mpr ⟨hasks .., fun r t ht => ?_⟩)
    replace ht := hanswers _ _ _ _ _ _ ht
    rcases r with e | r
    · obtain rfl := ht
      exact .refl t
    · obtain ⟨rfl, -⟩ := ht
      have hposted : Leaves socket id sel _ := .enqueue_write sel id'
      cases r with
      | none => exact hposted.trans (.takeAll _ id')
      | some n =>
          have htaken := hposted.trans (.takeFront _ id' n)
          refine (Code.wp_bind ..).mpr ((Code.wp_bind ..).mpr (Code.wp_read.mpr ?_))
          refine (Code.wp_bind ..).mpr ?_
          unfold Code.when
          split
          · exact htaken.trans (.edit _ id' (fun _ => rfl) (fun _ => rfl) (fun _ => rfl)
              fun _ => rfl)
          · exact htaken

/-- Posting a write leaves the reads alone. -/
theorem postWriteEvent_leaves (socket' : S) (data : Option (List UInt8)) :
    (Win.postWriteEvent socket' data).wp C (fun _ => Leaves socket id sel) sel := by
  unfold Win.postWriteEvent
  refine (Code.wp_bind ..).mpr (Code.wp_read.mpr ?_)
  cases sel.eventMaps socket' with
  | none => exact .refl sel
  | some id' =>
      refine (Code.wp_bind ..).mpr ?_
      cases data with
      | none => exact writeOut_leaves hasks hanswers id'
      | some data =>
          have happended : Leaves socket id sel
              ((sel.edit id' (·.append data)).note (.sent id' data)) :=
            (Leaves.edit sel id' (f := (·.append data)) (fun _ => rfl) (fun _ => rfl)
              (fun _ => rfl) fun _ => rfl).trans (.of_port rfl)
          have hout : (Win.writeOut id').wp C (fun _ => Leaves socket id sel)
              ((sel.edit id' (·.append data)).note (.sent id' data)) :=
            Code.wp_mono _ (fun _ t ht => happended.trans ht)
              (writeOut_leaves hasks hanswers id')
          exact (Code.wp_bind ..).mpr hout

end

omit [DecidableEq S] in
theorem postWriteEvent_silent (socket' : S) (data : Option (List UInt8)) :
    (Win.postWriteEvent socket' data).wp (silent socket id) (fun _ => Leaves socket id sel) sel :=
  postWriteEvent_leaves (fun _ _ _ _ hu => hu) (fun _ _ _ _ _ _ ht => ht) socket' data

/-! ## The owners of the event -/

section

omit [DecidableEq S]

/-- The handler, and what follows it. -/
theorem holding_trace {ans : (q : WinAsk S) → Selector S δ → WinReply q → Selector S δ → Prop}
    {handler : WinCode S δ Unit} :
    (Win.holding id handler).Trace ans sel tr () t ↔ ∃ u tr₁ tr₂, tr = tr₁ ++ tr₂ ∧
      handler.Trace ans (sel.hold id) tr₁ () u ∧ (Win.letGo id).Trace ans u tr₂ () t := by
  unfold Win.holding
  rw [Code.trace_modify_then, Code.trace_bind]
  exact ⟨fun ⟨_, htrace⟩ => htrace, fun htrace => ⟨(), htrace⟩⟩

variable {C : Contract (Selector S δ) (WinReply (S := S))} (hasks : ∀ s t, C.asks (.close s) t)
  (hanswers : ∀ s sel r t, C.answers (.close s) sel r t → t = sel)

include hasks hanswers

theorem freeUnowned_wp (id : ℕ) :
    (Win.freeUnowned id).wp C (fun _ t => ∃ owners, t = { sel with owners := owners }) sel := by
  unfold Win.freeUnowned Code.when
  refine (Code.wp_bind ..).mpr (Code.wp_read.mpr ?_)
  split
  · exact (Code.wp_bind ..).mpr ((Code.wp_modify ..).mpr ((Code.wp_query ..).mpr
      ⟨hasks .., fun r t ht => ⟨_, hanswers _ _ _ _ ht⟩⟩))
  · exact ⟨sel.owners, rfl⟩

theorem letGo_leaves (id' : ℕ) : (Win.letGo id').wp C (fun _ => Leaves socket id sel) sel := by
  refine (Code.wp_bind ..).mpr ((Code.wp_modify ..).mpr ?_)
  refine Code.wp_mono _ ?_ (freeUnowned_wp hasks hanswers id')
  rintro _ _ ⟨owners, rfl⟩
  exact .owners sel owners

end

omit [DecidableEq S] in
/-- A handler that returns runs no callback. -/
theorem letGo_silent (id' : ℕ) :
    (Win.letGo id').wp (silent socket id) (fun _ => Leaves socket id sel) sel :=
  letGo_leaves (fun _ _ hu => hu) (fun _ _ _ _ ht => ht) id'

/-- The handler of a packet runs after it is delivered. -/
theorem dispatch_read {status : CompletionStatus} (ho : status.overlapped = some (.read id)) :
    (Win.dispatch status).Trace (answers socket id) sel tr () t ↔
      ∃ u v tr₁ tr₂, Delivers sel status (.read id) u ∧
        tr = ⟨.dispatch status (.read id), sel, (), u⟩ :: (tr₁ ++ tr₂) ∧
        (Win.readDone id status).Trace (answers socket id) (u.hold id) tr₁ () v ∧
        (Win.letGo id).Trace (answers socket id) v tr₂ () t := by
  unfold Win.dispatch
  rw [ho]
  dsimp only
  rw [Code.trace_query_then]
  simp only [holding_trace]
  constructor
  · rintro ⟨_, u, _, hdelivers, rfl, v, tr₁, tr₂, rfl, hread, hend⟩
    exact ⟨u, v, tr₁, tr₂, hdelivers, rfl, hread, hend⟩
  · rintro ⟨u, v, tr₁, tr₂, hdelivers, rfl, hread, hend⟩
    exact ⟨(), u, _, hdelivers, rfl, v, tr₁, tr₂, rfl, hread, hend⟩

/-! ## A completed write -/

omit [DecidableEq S] in
/-- The write callback runs if there is one, and returns `OK`. -/
theorem writeCb_handles {r : RetValue}
    (htrace : (Win.writeCb id).Trace (answers socket id) sel tr r t) :
    tr.filterMap callback = (if (sel.events id).entry.write = none then [] else [.writeCb]) ∧
      r = .OK ∧ Leaves socket id sel t := by
  unfold Win.writeCb at htrace
  rw [Code.trace_read_then] at htrace
  cases hwrite : (sel.events id).entry.write with
  | none =>
      rw [hwrite] at htrace
      obtain ⟨rfl, rfl, rfl⟩ := htrace
      exact ⟨rfl, rfl, .refl _⟩
  | some cb =>
      rw [hwrite] at htrace
      obtain ⟨⟨rfl, ht⟩, rfl⟩ := (Code.trace_query ..).mp htrace
      exact ⟨rfl, rfl, ht⟩

omit [DecidableEq S] in
/-- The end of `writeDone`. -/
theorem write_again_leaves :
    (do
      let sel ← .read
      .when (¬ (sel.events id).buffer.write.empty) do
        .query (WinAsk.again .write (sel.events id).asRawSocket)
        let _ ← Win.postWriteEvent (sel.events id).asRawSocket none :
      WinCode S δ Unit).wp (silent socket id) (fun _ => Leaves socket id sel) sel := by
  refine (Code.wp_bind ..).mpr (Code.wp_read.mpr ?_)
  unfold Code.when
  split
  · refine (Code.wp_bind ..).mpr ((Code.wp_query ..).mpr ⟨fun hu => hu, ?_⟩)
    intro _ t ht
    obtain rfl : t = sel := ht
    exact (Code.wp_bind ..).mpr (Code.wp_mono _ (fun _ _ hu => hu) (postWriteEvent_silent _ none))
  · exact .refl sel

/-- A write is completed, and the write callback runs. -/
theorem writeDone_handles (h : Connected reg socket id armed sel) {len : ℕ} {flags : EventFlags}
    (htrace : (Win.dispatch ⟨len, flags, some (.write id)⟩).Trace (answers socket id) sel tr () t) :
    tr.filterMap callback = reg.onWrite ∧ Connected reg socket id armed t := by
  unfold Win.dispatch at htrace
  dsimp only at htrace
  rw [Code.trace_query_then] at htrace
  obtain ⟨_, u, tr, hdelivers, rfl, htrace⟩ := htrace
  have hcompleted : Leaves socket id sel u := by
    cases hdelivers with
    | write => exact .complete_write sel id
    | posted => exact .of_port rfl
  obtain ⟨w, tr, tr₃, rfl, htrace, hlet⟩ := holding_trace.mp htrace
  unfold Win.writeDone Win.edit at htrace
  rw [Code.trace_modify_then] at htrace
  have hheld : Leaves socket id sel (u.hold id) := hcompleted.trans (.owners u _)
  have hdone : Leaves socket id sel ((u.hold id).edit id (·.setInWrite false)) :=
    hheld.trans (.edit _ id (fun _ => rfl) (fun _ => rfl) (fun _ => rfl) fun _ => rfl)
  obtain ⟨r, v, tr₁, tr₂, rfl, hcb, hend⟩ := (Code.trace_bind ..).mp htrace
  obtain ⟨hcalled, rfl, hv⟩ := writeCb_handles hcb
  obtain ⟨hsilent, hw⟩ := callbacks_of_silent write_again_leaves hend
  obtain ⟨hquiet, ht⟩ := callbacks_of_silent (letGo_silent id) hlet
  refine ⟨?_, h.leaves (((hdone.trans hv).trans hw).trans ht)⟩
  have hwrite := (hdone.write).trans h.write
  rw [List.filterMap_cons_none rfl, List.filterMap_append, List.filterMap_append, hcalled, hsilent,
    hquiet, List.append_nil, List.append_nil, Registration.onWrite, ← hwrite]

/-! ## A chunk -/

/-- The posted read of a registered stream was completed. -/
structure Received (reg : Registration) (socket : S) (id : ℕ) (sel : Selector S δ) : Prop extends
    Registered reg socket id sel where
  write : (sel.events id).entry.write = reg.write
  idle : sel.port.outstanding (.read id) = 0

omit [DecidableEq S] in
theorem Received.leaves (h : Received reg socket id sel) (ht : Leaves socket id sel t) :
    Received reg socket id t :=
  ⟨h.toRegistered.leaves ht, ht.write.trans h.write, ht.reading.trans h.idle⟩

section

omit [DecidableEq S]

variable (id' : ℕ) {f : Event S δ → Event S δ}
  (hsocket : ∀ event, (f event).asRawSocket = event.asRawSocket)
  (hentry : ∀ event, (f event).entry = event.entry)
  (hend : ∀ event, (f event).isEnd = event.isEnd)

include hsocket hentry hend

theorem Registered.edit (h : Registered reg socket id sel) :
    Registered reg socket id (sel.edit id' f) := by
  have hkept := sel.edit_keeps id' Event.entry hentry id
  exact
    { maps := h.maps
      raw := (sel.edit_keeps id' Event.asRawSocket hsocket id).trans h.raw
      flags := (congrArg EventEntry.evEvents hkept).trans h.flags
      read := (congrArg EventEntry.read hkept).trans h.read
      isEnd := (sel.edit_keeps id' Event.isEnd hend id).trans h.isEnd }

theorem Connected.edit (h : Connected reg socket id armed sel) :
    Connected reg socket id armed (sel.edit id' f) where
  write := (congrArg EventEntry.write (sel.edit_keeps id' Event.entry hentry id)).trans h.write
  reading := h.reading
  registered harmed := (h.registered harmed).edit id' hsocket hentry hend

theorem Received.edit (h : Received reg socket id sel) :
    Received reg socket id (sel.edit id' f) where
  toRegistered := h.toRegistered.edit id' hsocket hentry hend
  write := (congrArg EventEntry.write (sel.edit_keeps id' Event.entry hentry id)).trans h.write
  idle := h.idle

end

omit [DecidableEq S] in
/-- The read callback runs if there is one, and returns `OK`. -/
theorem readCb_handles {r : RetValue}
    (htrace : (Win.readCb id).Trace (answers socket id) sel tr r t) :
    tr.filterMap callback = (if (sel.events id).entry.read = none then [] else [.readCb]) ∧
      r = .OK ∧ Leaves socket id sel t := by
  unfold Win.readCb at htrace
  rw [Code.trace_read_then] at htrace
  cases hread : (sel.events id).entry.read with
  | none =>
      rw [hread] at htrace
      obtain ⟨rfl, rfl, rfl⟩ := htrace
      exact ⟨rfl, rfl, .refl _⟩
  | some cb =>
      rw [hread] at htrace
      obtain ⟨⟨rfl, ht⟩, rfl⟩ := (Code.trace_query ..).mp htrace
      exact ⟨rfl, rfl, ht⟩

omit [DecidableEq S] in
/-- The next read is posted. -/
theorem Received.posted (h : Received reg socket id sel) :
    Connected reg socket id true { sel with port := sel.port.enqueue (.read id) } where
  write := h.write
  reading := (sel.port.enqueue_self _).trans (congrArg (· + 1) h.idle)
  registered _ := ⟨h.maps, h.raw, h.flags, h.read, h.isEnd⟩

omit [DecidableEq S] in
/-- Only a read that the buffer waits for stops the post of the next one. -/
theorem postReadEvent_wp {C : Contract (Selector S δ) (WinReply (S := S))}
    {Q : Except IoError Unit → Selector S δ → Prop} (h : Received reg socket id sel)
    (hasks : ∀ s n o t, C.asks (.readOverlapped s n o) t)
    (hstopped : (sel.events id).buffer.isInRead = true → Q (.ok ()) sel)
    (hQ : (sel.events id).buffer.isInRead = false → ∀ s n r t,
      C.answers (.readOverlapped s n (.read id)) sel r t → Q (r.map fun _ => ()) t) :
    (Win.postReadEvent socket).wp C Q sel := by
  unfold Win.postReadEvent
  refine (Code.wp_bind ..).mpr (Code.wp_read.mpr ?_)
  rw [h.maps]
  dsimp only
  rw [if_neg (by simp [h.isEnd])]
  split
  · rename_i hin
    exact hstopped hin
  · rename_i hin
    refine (Code.wp_bind ..).mpr ((Code.wp_query ..).mpr ⟨hasks .., fun r t ht => ?_⟩)
    exact hQ (Bool.eq_false_of_not_eq_true hin) _ _ r t ht

section

omit [DecidableEq S]

theorem Received.persists_iff (h : Received reg socket id sel) :
    ((sel.events id).entry.hasFlag EventFlags.FLAG_PERSIST ∨
      (sel.events id).entry.hasFlag EventFlags.FLAG_READ_PERSIST) ↔ reg.Persists := by
  simp [EventEntry.hasFlag, h.flags, Registration.Persists]

/-- An event that persists keeps its flags. -/
theorem Received.keeps_flags (h : Received reg socket id sel) (hpersists : reg.Persists) :
    sel.edit id (·.unlessPersist EventFlags.FLAG_READ) = sel := by
  have hevent : (sel.events id).unlessPersist EventFlags.FLAG_READ = sel.events id :=
    if_pos (h.persists_iff.mpr hpersists)
  unfold Selector.edit
  dsimp only
  rw [hevent, Function.update_eq_self]

/-- An event that does not persist asks for no further read. -/
theorem Received.gives_up (h : Received reg socket id sel) (hnot : ¬ reg.Persists) :
    ¬ ((sel.edit id (·.unlessPersist EventFlags.FLAG_READ)).events id).entry.hasFlag
        EventFlags.FLAG_READ ∧
      Connected reg socket id false (sel.edit id (·.unlessPersist EventFlags.FLAG_READ)) := by
  constructor
  · rw [sel.edit_self, Event.unlessPersist, if_neg (mt h.persists_iff.mp hnot)]
    simp [EventEntry.hasFlag]
  · refine ⟨(sel.edit_keeps id (fun event => event.entry.write) (fun event => ?_) id).trans h.write,
      h.idle, fun harmed => absurd harmed Bool.false_ne_true⟩
    unfold Event.unlessPersist
    split <;> rfl

variable {C : Contract (Selector S δ) (WinReply (S := S))}
  (hagain : ∀ post s t, C.asks (.again post s) t)
  (hasks : ∀ s n o t, C.asks (.readOverlapped s n o) t)
  (hanswers : ∀ q sel r t, C.answers q sel r t → answers socket id q sel r t)

include hagain hasks hanswers

/-- The end of `readDone`: a stream that persists is armed again. -/
theorem postAgain_arms (h : Received reg socket id sel) (hread : Flag.READ ∈ reg.flags)
    (hin : (sel.events id).buffer.isInRead = false) :
    (Win.postAgain id EventFlags.FLAG_READ EventFlags.FLAG_READ .read
      (Win.postReadEvent : S → WinCode S δ _)).wp C
      (fun _ => Connected reg socket id (decide reg.Persists)) sel := by
  unfold Win.postAgain
  refine (Code.wp_bind ..).mpr ((Code.wp_bind ..).mpr (Code.wp_read.mpr ?_))
  dsimp only
  by_cases hpersists : reg.Persists
  · have hsame := h.keeps_flags hpersists
    rw [← hsame] at h hin
    have hflag : ((sel.edit id (·.unlessPersist EventFlags.FLAG_READ)).events id).entry.hasFlag
        EventFlags.FLAG_READ := by
      rw [EventEntry.hasFlag, h.flags]
      exact (EventFlags.contains_READ _).mpr hread
    unfold Code.when
    rw [if_pos hflag, h.raw]
    refine (Code.wp_bind ..).mpr ((Code.wp_query ..).mpr ⟨hagain .., fun _ t ht => ?_⟩)
    have hask : t = sel.edit id (·.unlessPersist EventFlags.FLAG_READ) := hanswers _ _ _ _ ht
    rw [hask]
    refine (Code.wp_bind ..).mpr (postReadEvent_wp h hasks
      (fun hstopped => absurd (hin.symm.trans hstopped) Bool.false_ne_true) fun _ => ?_)
    intro s n r u hu
    obtain ⟨hu, len, rfl⟩ := hanswers _ _ _ _ hu
    obtain rfl := hu
    have hedit := h.posted.edit id (f := (·.setInRead true)) (fun _ => rfl) (fun _ => rfl)
      fun _ => rfl
    rwa [decide_eq_true hpersists]
  · obtain ⟨hflag, hconnected⟩ := h.gives_up hpersists
    unfold Code.when
    rw [if_neg hflag, decide_eq_false hpersists]
    exact hconnected

end

/-- A completion with the flag of an end marker takes the event out of the map. -/
theorem ended_handles {r : Except IoError Unit} (h : Received reg socket id sel)
    (htrace : (Win._unregisterSocket socket).Trace (answers socket id) sel tr r t) :
    tr.filterMap callback = [] ∧ Connected reg socket id false t := by
  unfold Win._unregisterSocket at htrace
  rw [Code.trace_read_then, h.maps] at htrace
  dsimp only at htrace
  rw [Code.trace_modify_then] at htrace
  obtain ⟨_, _, tr, _, rfl, htrace, rfl, -, rfl⟩ := (Code.trace_bind ..).mp htrace
  obtain ⟨w, tr₁, tr₂, rfl, htrace, hlet⟩ := holding_trace.mp htrace
  obtain ⟨hsilent, hleft⟩ := callbacks_of_silent (letGo_silent id) hlet
  have hremoved : Connected reg socket id false ((sel.remove socket).hold id) :=
    ⟨h.write, h.idle, nofun⟩
  unfold Win.endCb at htrace
  rw [Code.trace_read_then] at htrace
  rw [List.append_nil, List.filterMap_append, hsilent, List.append_nil]
  cases hcb : (((sel.remove socket).hold id).events id).entry.end_ with
  | none =>
      rw [hcb] at htrace
      obtain ⟨rfl, -, rfl⟩ := htrace
      exact ⟨rfl, hremoved.leaves hleft⟩
  | some cb =>
      rw [hcb] at htrace
      dsimp only at htrace
      unfold Win.edit at htrace
      rw [Code.trace_modify_then] at htrace
      obtain ⟨ht, rfl⟩ := (Code.trace_query ..).mp htrace
      have htaken : Connected reg socket id false
          (((sel.remove socket).hold id).edit id Event.takeData) :=
        ⟨(Selector.edit_keeps _ id (f := Event.takeData) (fun event => event.entry.write)
          (fun _ => rfl) id).trans h.write, h.idle, nofun⟩
      exact ⟨rfl, (htaken.leaves ht).leaves hleft⟩

omit [DecidableEq S] in
/-- The packet of a chunk is a completed read. -/
theorem Connected.received {bytes : List UInt8} {flags : EventFlags}
    (h : Connected reg socket id true sel) (hbytes : bytes ≠ [])
    (hdelivers : Delivers sel ⟨bytes.length, flags, some (.read id)⟩ (.read id) u) :
    Received reg socket id u := by
  cases hdelivers with
  | read bytes' _ _ _ =>
      have hreceive := (h.registered rfl).edit id (f := (·.receive bytes')) (fun _ => rfl)
        (fun _ => rfl) fun _ => rfl
      refine ⟨⟨hreceive.maps, hreceive.raw, hreceive.flags, hreceive.read, hreceive.isEnd⟩, ?_, ?_⟩
      · have hkept := sel.edit_keeps id (f := (·.receive bytes')) Event.entry (fun _ => rfl) id
        exact (congrArg EventEntry.write hkept).trans h.write
      · exact (sel.port.complete_self _).trans (congrArg (· - 1) h.reading)
  | posted _ hlen _ => exact absurd (List.length_eq_zero_iff.mp hlen) hbytes

/-- What the handler finds when it takes up a chunk. -/
structure Taken (reg : Registration) (socket : S) (id : ℕ) (bytes : List UInt8)
    (sel : Selector S δ) : Prop extends Received reg socket id sel where
  room : bytes.length ≤ (sel.events id).buffer.readCache.length
  stream : ¬ (sel.events id).isAccept

omit [DecidableEq S] in
theorem Connected.taken {bytes : List UInt8} {flags : EventFlags}
    (h : Connected reg socket id true sel) (hstream : Flag.ACCEPT ∉ reg.flags) (hbytes : bytes ≠ [])
    (hdelivers : Delivers sel ⟨bytes.length, flags, some (.read id)⟩ (.read id) u) :
    Taken reg socket id bytes u where
  toReceived := h.received hbytes hdelivers
  room := hdelivers.room
  stream := by
    rw [Event.isAccept, (h.received hbytes hdelivers).flags]
    exact mt (EventFlags.contains_ACCEPT _).mp hstream

omit [DecidableEq S] in
theorem fill_inRead (sel : Selector S δ) (len : ℕ) :
    ((sel.edit id (·.fill len)).events id).buffer.isInRead = false :=
  congrArg (fun event : Event S δ => event.buffer.isInRead) (sel.edit_self id _)

namespace Taken

omit [DecidableEq S]

variable {bytes : List UInt8} (h : Taken reg socket id bytes sel)

include h

theorem owners (owners : Owners) : Taken reg socket id bytes { sel with owners := owners } :=
  ⟨h.toReceived.leaves (.owners sel owners), h.room, h.stream⟩

/-- The chunk is put into the buffer. -/
theorem filled : Received reg socket id (sel.edit id (·.fill bytes.length)) :=
  h.toReceived.edit id (fun _ => rfl) (fun _ => rfl) fun _ => rfl

theorem filled_buffer (hbytes : bytes ≠ []) :
    ((sel.edit id (·.fill bytes.length)).events id).buffer.hasReadBuffer = true := by
  have hbytes' : (sel.events id).buffer.readCache.take bytes.length ≠ [] := by
    intro hnil
    have hlength := congrArg List.length hnil
    rw [List.length_take, Nat.min_eq_left h.room] at hlength
    exact hbytes (List.length_eq_zero_iff.mp hlength)
  rw [sel.edit_self]
  simpa [EventBuffer.hasReadBuffer, Event.fill, Buffer.empty] using
    (sel.events id).buffer.read.write_ne_nil_of_ne_nil hbytes'

end Taken

/-- A chunk that does not end the event is put into the buffer. Then the read callback
runs, and the next read is posted. -/
theorem readDone_chunk {bytes : List UInt8}
    (h : Taken reg socket id bytes sel) (hended : Flag.ENDED ∉ reg.flags) (hbytes : bytes ≠ []) :
    (Win.readDone id ⟨bytes.length, reg.flags, some (.read id)⟩).Trace (answers socket id)
        sel tr () t ↔
      ∃ v tr₁ tr₂, tr = tr₁ ++ tr₂ ∧
        (Win.readCb id).Trace (answers socket id) (sel.edit id (·.fill bytes.length)) tr₁ .OK v ∧
        (Win.postAgain id EventFlags.FLAG_READ EventFlags.FLAG_READ .read
          Win.postReadEvent).Trace (answers socket id) v tr₂ () t := by
  unfold Win.readDone Win.edit
  dsimp only
  rw [Code.trace_read_then, if_neg h.stream, if_neg (mt (EventFlags.contains_ENDED _).mp hended),
    if_neg (mt List.length_eq_zero_iff.mp hbytes), if_neg h.room.not_gt,
    Code.trace_modify_then, Code.trace_read_then, if_pos (h.filled_buffer hbytes), Code.trace_bind]
  constructor
  · rintro ⟨r, v, tr₁, tr₂, rfl, hcb, hend⟩
    obtain ⟨-, rfl, -⟩ := readCb_handles hcb
    exact ⟨v, tr₁, tr₂, rfl, hcb, hend⟩
  · rintro ⟨v, tr₁, tr₂, rfl, hcb, hend⟩
    exact ⟨.OK, v, tr₁, tr₂, rfl, hcb, hend⟩

/-- A chunk is received. The read callback runs unless the packet ends the event. -/
theorem readDone_handles {bytes : List UInt8}
    (h : Taken reg socket id bytes sel) (hread : Flag.READ ∈ reg.flags) (hbytes : bytes ≠ [])
    (htrace : (Win.readDone id ⟨bytes.length, reg.flags, some (.read id)⟩).Trace
      (answers socket id) sel tr () t) :
    tr.filterMap callback = (if Flag.ENDED ∉ reg.flags then reg.onRead else []) ∧
      Connected reg socket id (decide (Flag.ENDED ∉ reg.flags ∧ reg.Persists)) t := by
  by_cases hended : Flag.ENDED ∈ reg.flags
  · unfold Win.readDone at htrace
    rw [Code.trace_read_then, if_neg h.stream,
      if_pos ((EventFlags.contains_ENDED _).mpr hended), h.raw] at htrace
    obtain ⟨_, _, _, _, rfl, htrace, rfl, -, rfl⟩ := (Code.trace_bind ..).mp htrace
    rw [List.append_nil, if_neg (not_not_intro hended),
      decide_eq_false fun hpersists => hpersists.1 hended]
    exact ended_handles h.toReceived htrace
  · obtain ⟨v, tr₁, tr₂, rfl, hcb, hend⟩ := (readDone_chunk h hended hbytes).mp htrace
    obtain ⟨hcalled, -, hv⟩ := readCb_handles hcb
    obtain ⟨hsilent, ht⟩ := callbacks_of_silent (postAgain_arms (fun _ _ _ hu => hu)
      (fun _ _ _ _ hu => hu) (fun _ _ _ _ ht => ht) (h.filled.leaves hv) hread
      (hv.inRead.trans (fill_inRead ..))) hend
    rw [List.filterMap_append, hcalled, hsilent, List.append_nil, if_pos hended,
      Registration.onRead, h.filled.read]
    refine ⟨rfl, ?_⟩
    simpa [hended] using ht

/-- The packet of a chunk is dispatched. -/
theorem dispatch_handles {bytes : List UInt8} (h : Connected reg socket id true sel)
    (hread : Flag.READ ∈ reg.flags) (hstream : Flag.ACCEPT ∉ reg.flags) (hbytes : bytes ≠ [])
    (htrace : (Win.dispatch ⟨bytes.length, reg.flags, some (.read id)⟩).Trace (answers socket id)
      sel tr () t) :
    tr.filterMap callback = (if Flag.ENDED ∉ reg.flags then reg.onRead else []) ∧
      Connected reg socket id (decide (Flag.ENDED ∉ reg.flags ∧ reg.Persists)) t := by
  obtain ⟨u, v, tr₁, tr₂, hdelivers, rfl, hdone, hlet⟩ := (dispatch_read rfl).mp htrace
  have htaken := (h.taken hstream hbytes hdelivers).owners (u.owners.hold id)
  obtain ⟨hcalled, hv⟩ := readDone_handles htaken hread hbytes hdone
  obtain ⟨hsilent, hleft⟩ := callbacks_of_silent (letGo_silent id) hlet
  rw [List.filterMap_cons_none rfl, List.filterMap_append, hcalled, hsilent, List.append_nil]
  exact ⟨rfl, hv.leaves hleft⟩

omit [DecidableEq S] in
theorem exists_readCb (socket : S) (sel : Selector S δ) :
    ∃ tr, (Win.readCb id).Trace (answers socket id) sel tr .OK sel := by
  unfold Win.readCb
  simp only [Code.trace_read_then]
  cases (sel.events id).entry.read with
  | none => exact ⟨[], rfl, rfl, rfl⟩
  | some cb => exact ⟨_, (Code.trace_query ..).mpr ⟨⟨rfl, .refl sel⟩, rfl⟩⟩

omit [DecidableEq S] in
theorem Selector.exists_letGo (sel : Selector S δ) (socket : S) (id : ℕ) :
    ∃ tr r t, (Win.letGo id).Trace (answers socket id) sel tr r t := by
  have hwp : (Win.letGo id).wp
      ⟨fun q s => ∃ r t, answers socket id q s r t, answers socket id⟩
      (fun _ => Leaves socket id sel) sel := by
    refine letGo_leaves ?_ ?_ id
    · exact fun _ sel => ⟨(), sel, rfl⟩
    · exact fun _ _ _ _ ht => ht
  exact Code.exists_trace _ hwp

/-- Every chunk that fits into the cache can be received. -/
theorem Connected.receives {bytes : List UInt8} (h : Connected reg socket id true sel)
    (hread : Flag.READ ∈ reg.flags) (hstream : Flag.ACCEPT ∉ reg.flags)
    (hended : Flag.ENDED ∉ reg.flags) (hbytes : bytes ≠ [])
    (hroom : bytes.length ≤ (sel.events id).buffer.readCache.length) :
    ∃ t, Handles reg.flags socket id sel (.chunk bytes) reg.onRead t := by
  have hposted : sel.port.outstanding (.read id) ≠ 0 := h.reading.trans_ne Nat.one_ne_zero
  obtain ⟨u, hdelivers⟩ : ∃ u,
      Delivers sel ⟨bytes.length, reg.flags, some (.read id)⟩ (.read id) u :=
    ⟨_, .read bytes hposted rfl hroom⟩
  have htaken := (h.taken hstream hbytes hdelivers).owners (u.owners.hold id)
  obtain ⟨tr₁, hcb⟩ := exists_readCb socket ((u.hold id).edit id (·.fill bytes.length))
  obtain ⟨tr₂, _, v, hend⟩ := Code.exists_trace _ (postAgain_arms (fun _ _ _ => ⟨(), _, rfl⟩)
    (fun _ _ _ _ => ⟨.ok none, _, rfl, none, rfl⟩) (fun _ _ _ _ ht => ht) htaken.filled hread
    (fill_inRead ..))
  obtain ⟨tr₃, _, t, hlet⟩ := v.exists_letGo socket id
  have hdone := (readDone_chunk htaken hended hbytes).mpr ⟨_, tr₁, tr₂, rfl, hcb, hend⟩
  have htrace := (dispatch_read rfl).mpr ⟨_, v, _, tr₃, hdelivers, rfl, hdone, hlet⟩
  have hcalled := (dispatch_handles h hread hstream hbytes htrace).1
  rw [if_pos hended] at hcalled
  rw [← hcalled]
  exact ⟨t, .chunk bytes hbytes hposted htrace⟩

/-- Without a posted read no chunk is received. -/
theorem responds_unread {flags : EventFlags} (hidle : sel.port.outstanding (.read id) = 0)
    (chunks : List (List UInt8)) :
    Responds (Handles flags socket id) (Leaves socket id) sel (chunks.map .chunk) [] sel := by
  induction chunks with
  | nil => exact .nil sel
  | cons bytes chunks ih => exact .input (.unread bytes hidle) ih

/-! ## The simulation -/

theorem completion_simulates (hread : Flag.READ ∈ reg.flags) (hstream : Flag.ACCEPT ∉ reg.flags) :
    reg.completion.Simulates (Handles (δ := δ) reg.flags socket id) (Leaves socket id)
      (Connected reg socket id) where
  idle h ht := h.leaves ht
  step {armed sel i os t} h hstep := by
    cases hstep with
    | chunk bytes hbytes hposted htrace =>
        cases armed with
        | false => exact absurd h.reading hposted
        | true =>
            obtain ⟨hcalled, ht⟩ := dispatch_handles h hread hstream hbytes htrace
            refine ⟨hcalled.trans ?_, ht⟩
            simp [Registration.completion]
    | unread bytes hidle =>
        cases armed with
        | false => exact ⟨rfl, h⟩
        | true => exact absurd (h.reading.symm.trans hidle) Nat.one_ne_zero
    | sent data htrace =>
        obtain ⟨hsilent, ht⟩ := callbacks_of_silent (postWriteEvent_silent ..) htrace
        exact ⟨hsilent, h.leaves ht⟩
    | written len _ htrace => exact writeDone_handles h htrace

/-- A new event has no read posted. -/
theorem registered_received (sel : Selector S δ) (buffer : EventBuffer S)
    (entry : EventEntry S δ) (hfresh : sel.port.outstanding (.read sel.count) = 0) :
    Received entry.registration buffer.asRawSocket sel.count (sel.insert buffer entry) := by
  have hnew := sel.insert_new buffer entry
  have hentry := congrArg Event.entry hnew
  exact
    { maps := Selector.insert_maps ..
      raw := congrArg Event.asRawSocket hnew
      flags := congrArg EventEntry.evEvents hentry
      read := congrArg EventEntry.read hentry
      isEnd := congrArg Event.isEnd hnew
      write := congrArg EventEntry.write hentry
      idle := hfresh }

omit [DecidableEq S] in
/-- The first post succeeds only if a read is posted, or the buffer waits for one. -/
theorem postReadEvent_arms (h : Received reg socket id sel)
    (hin : (sel.events id).buffer.isInRead = !armed) :
    (Win.postReadEvent socket).wp ⟨fun _ _ => True, WinAsk.answer⟩
      (fun r t => r = .ok () → Connected reg socket id armed t) sel := by
  refine postReadEvent_wp h (fun _ _ _ _ => trivial) (fun hstopped _ => ?_) fun hidle => ?_
  · obtain rfl : armed = false := Bool.not_eq_eq_eq_not.mp (hin.symm.trans hstopped)
    exact ⟨h.write, h.idle, nofun⟩
  · obtain rfl : armed = true := Bool.not_eq_eq_eq_not.mp (hin.symm.trans hidle)
    rintro s n (e | len) t ht
    · exact nofun
    · obtain rfl := ht
      exact fun _ => h.posted

omit [DecidableEq S] in
/-- The posts of `checkSocketEvent` succeed only if a read is posted, or the buffer
waits for one. -/
theorem checkSocketEvent_arms (h : Received reg socket id sel)
    (hin : (sel.events id).buffer.isInRead = !armed) (hread : Flag.READ ∈ reg.flags)
    (hstream : Flag.ACCEPT ∉ reg.flags) :
    (Win.checkSocketEvent socket).wp ⟨fun _ _ => True, WinAsk.answer⟩
      (fun r t => r = .ok () → Connected reg socket id armed t) sel := by
  unfold Win.checkSocketEvent
  refine (Code.wp_bind ..).mpr (Code.wp_read.mpr ?_)
  rw [h.maps]
  dsimp only
  rw [h.flags, if_neg (mt (EventFlags.contains_ACCEPT _).mp hstream),
    if_pos ((EventFlags.contains_READ _).mpr hread)]
  refine (Code.wp_bind ..).mpr (Code.wp_mono _ ?_ (postReadEvent_arms h hin))
  rintro (e | _) t ht
  · exact nofun
  · have harmed := ht rfl
    change Code.wp _ (if _ then _ else _) _ _
    split
    · refine (Code.wp_bind ..).mpr (Code.wp_mono _ (fun r u hu _ => harmed.leaves hu) ?_)
      exact postWriteEvent_leaves (fun _ _ _ _ => trivial) (fun _ _ _ _ _ _ hw => hw) _ none
    · exact fun _ => harmed

theorem removeEvent_wp {C : Contract (Selector S δ) (WinReply (S := S))}
    (hasks : ∀ s t, C.asks (.close s) t)
    (hanswers : ∀ s sel r t, C.answers (.close s) sel r t → t = sel) (socket : S) :
    (Win.removeEvent socket).wp C
      (fun _ t => ∃ owners, t = { sel.remove socket with owners := owners }) sel := by
  unfold Win.removeEvent
  refine (Code.wp_bind ..).mpr (Code.wp_read.mpr ?_)
  cases hmaps : sel.eventMaps socket with
  | none => exact ⟨sel.owners, (Selector.remove_of_none hmaps).symm⟩
  | some id => exact (Code.wp_bind ..).mpr (freeUnowned_wp hasks hanswers id)

/-- A stream that was registered for reading has a read posted, unless its buffer waits
for one. -/
theorem registerSocket_connected {buffer : EventBuffer S} {entry : EventEntry S δ}
    (hfresh : sel.port.outstanding (.read sel.count) = 0) (hread : Flag.READ ∈ entry.evEvents)
    (hstream : Flag.ACCEPT ∉ entry.evEvents)
    (hexec : (Win.registerSocket buffer entry).Exec WinAsk.answer sel (.ok ()) t) :
    Connected entry.registration buffer.asRawSocket sel.count (!buffer.isInRead) t := by
  have hwp : (Win.registerSocket buffer entry).wp ⟨fun _ _ => True, WinAsk.answer⟩
      (fun r t => r = .ok () → Connected entry.registration buffer.asRawSocket sel.count
        (!buffer.isInRead) t) sel := by
    refine (Code.wp_bind ..).mpr (Code.wp_mono _ ?_
      (removeEvent_wp (fun _ _ => trivial) (fun _ _ _ _ ht => ht) buffer.asRawSocket))
    rintro _ _ ⟨owners, rfl⟩
    refine (Code.wp_bind ..).mpr ((Code.wp_query ..).mpr ⟨trivial, ?_⟩)
    rintro (e | _) t ht
    · exact (Code.wp_bind ..).mpr ((Code.wp_query ..).mpr ⟨trivial, fun _ _ _ => nofun⟩)
    obtain rfl := ht
    refine (Code.wp_bind ..).mpr ((Code.wp_bind ..).mpr ?_)
    have hinserted := registered_received { sel.remove buffer.asRawSocket with owners := owners }
      buffer entry hfresh
    have hin : ((Selector.insert { sel.remove buffer.asRawSocket with owners := owners } buffer
        entry).events sel.count).buffer.isInRead = !(!buffer.isInRead) :=
      (congrArg (fun event : Event S δ => event.buffer.isInRead)
        (Selector.insert_new ..)).trans (Bool.not_not _).symm
    refine Code.wp_mono _ ?_ (checkSocketEvent_arms hinserted hin hread hstream)
    rintro (e | _) t ht
    · exact (Code.wp_bind ..).mpr (Code.wp_mono _ (fun _ _ _ => nofun)
        (removeEvent_wp (fun _ _ => trivial) (fun _ _ _ _ ht => ht) buffer.asRawSocket))
    · exact ht
  exact Code.wp_exec _ hwp hexec rfl

/-- A stream is registered at some point of a run. Then it gets these inputs and
callbacks. -/
inductive Serves [Zero S] (buffer : EventBuffer S) (entry : EventEntry S δ) (is : List Input)
    (os : List Callback) : Prop
  | intro {ok t u} {c : Config (Selector S δ) (WinReply (S := S)) Unit}
      (hreach : (winRuns ok).Reaches .new c)
      (hregister : (Win.registerSocket buffer entry).Exec WinAsk.answer c.state (.ok ()) t)
      (hrun : Responds (Handles entry.evEvents buffer.asRawSocket c.state.count)
        (Leaves buffer.asRawSocket c.state.count) t is os u)

/-- The callbacks of a stream are those of the second machine. -/
theorem Serves.outputs [Zero S] {buffer : EventBuffer S} {entry : EventEntry S δ}
    {is : List Input} {os : List Callback} (h : Serves buffer entry is os)
    (hread : Flag.READ ∈ entry.registration.flags)
    (hstream : Flag.ACCEPT ∉ entry.registration.flags) :
    os = entry.registration.completion.outputs (!buffer.isInRead) is := by
  obtain ⟨hreach, hregister, hrun⟩ := h
  have hfresh := (Discipline.reaches_always fresh_maintains.keeps hreach Fresh.new).fresh
  have hconnected := registerSocket_connected (hfresh (.read _) le_rfl) hread hstream hregister
  exact ((completion_simulates hread hstream).responds hconnected hrun).1

end TdRevent.Win
