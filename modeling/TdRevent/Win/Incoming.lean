import TdRevent.Win.Outstanding
import TdRevent.Win.Traversal
import TdRevent.Interaction.Moves

/-!
# Incoming bytes of the Windows selector

The system puts the bytes of a read into the cache of the event before it delivers the
packet. The handler appends them to the read buffer at once, before any other packet or
callback, and only the callbacks take them from there. While an event has no two reads
outstanding, the bytes that the packets announced for it are those that its callbacks
took off, followed by those that its read buffer still holds, byte for byte and in order.

## Implementation notes

A packet of a listener and one that is marked as ended bring no bytes. What a packet
brings is at the front of the cache, where the system put it. Two outstanding reads would
share the cache, and the second could overwrite what the first received. With one, the
system alone writes the cache until the packet is dispatched, so it is taken to write then.
-/

namespace TdRevent.Win

open Interaction Discipline

variable {S δ α β : Type}

/-- The packet brings bytes for the event. -/
def Selector.Fills (sel : Selector S δ) (id : ℕ) (status : CompletionStatus) : Prop :=
  ¬ (sel.events id).isAccept ∧ ¬ status.flag.contains EventFlags.FLAG_ENDED ∧
    status.bytesTransferred ≠ 0

instance (sel : Selector S δ) (id : ℕ) (status : CompletionStatus) :
    Decidable (sel.Fills id status) :=
  inferInstanceAs (Decidable (_ ∧ _ ∧ _))

/-- The read buffers. -/
def Selector.reads (sel : Selector S δ) (id : ℕ) : Buffer := (sel.events id).buffer.read

/-- Where the system puts what it receives. -/
def Selector.caches (sel : Selector S δ) (id : ℕ) : List UInt8 := (sel.events id).buffer.readCache

theorem Selector.edit_reads (sel : Selector S δ) (id : ℕ) (f : Event S δ → Event S δ) :
    (sel.edit id f).reads = Function.update sel.reads id (f (sel.events id)).buffer.read :=
  funext fun id' => Function.apply_update (fun _ event => event.buffer.read) sel.events id _ id'

theorem Selector.edit_caches (sel : Selector S δ) (id : ℕ) (f : Event S δ → Event S δ) :
    (sel.edit id f).caches = Function.update sel.caches id (f (sel.events id)).buffer.readCache :=
  funext fun id' =>
    Function.apply_update (fun _ event => event.buffer.readCache) sel.events id _ id'

/-- What is seen of the incoming bytes: the read buffers, the caches, how many events there
are, and with which buffers they came. -/
@[ext]
structure View (S : Type) where
  reads : ℕ → Buffer
  caches : ℕ → List UInt8
  count : ℕ
  registered : List (ℕ × EventBuffer S)

def Selector.view (sel : Selector S δ) : View S :=
  ⟨sel.reads, sel.caches, sel.count, registrations sel.log⟩

theorem Selector.edit_view (sel : Selector S δ) (id : ℕ) {f : Event S δ → Event S δ}
    (hread : ∀ event, (f event).buffer.read = event.buffer.read)
    (hcache : ∀ event, (f event).buffer.readCache = event.buffer.readCache) :
    (sel.edit id f).view = sel.view :=
  View.ext (funext (sel.edit_keeps id (fun event => event.buffer.read) hread))
    (funext (sel.edit_keeps id (fun event => event.buffer.readCache) hcache)) rfl rfl

/-- What may be seen of the incoming bytes after a move. -/
def ViewAfter : Move (WinReply (S := S)) (WinCall S δ) → Selector S δ → View S → Prop
  | .answer (.addSocket _ _) (.ok ()), sel, view => ∃ buffer : EventBuffer S, view =
      { reads := Function.update sel.reads sel.count buffer.read
        caches := Function.update sel.caches sel.count buffer.readCache
        count := sel.count + 1
        registered := registrations sel.log ++ [(sel.count, buffer)] }
  | .answer (.dispatch status (.read id)) _, sel, view => ∃ bytes : List UInt8,
      bytes.length = status.bytesTransferred ∧ view =
        { sel.view with
          reads :=
            if sel.Fills id status then Function.update sel.reads id ((sel.reads id).write bytes)
            else sel.reads
          caches := Function.update sel.caches id (bytes ++ (sel.caches id).drop bytes.length) }
  | .call (.editBuffer id f), sel, view => view =
      { sel.view with
        reads := Function.update sel.reads id (f (sel.events id).buffer).read
        caches := Function.update sel.caches id (f (sel.events id).buffer).readCache }
  | _, sel, view => view = sel.view

/-- A move makes of the read buffers what it should. -/
abbrev Reading : Move (WinReply (S := S)) (WinCall S δ) → Selector S δ → Selector S δ → Prop :=
  Gives Selector.view ViewAfter

/-- The bytes of the packet go to the front of the cache, and nothing else changes. -/
theorem Delivers.receives {sel t : Selector S δ} {status : CompletionStatus} {id : ℕ}
    (h : Delivers sel status (.read id) t) :
    ∃ bytes : List UInt8, bytes.length = status.bytesTransferred ∧ t.reads = sel.reads ∧
      t.caches = Function.update sel.caches id (bytes ++ (sel.caches id).drop bytes.length) ∧
      t.count = sel.count ∧ registrations t.log = registrations sel.log := by
  cases h with
  | read bytes _ hbytes _ =>
      have hreads := funext (sel.edit_keeps id (f := (·.receive bytes))
        (fun event => event.buffer.read) fun _ => rfl)
      exact ⟨bytes, hbytes, hreads, sel.edit_caches id (·.receive bytes), rfl, rfl⟩
  | posted _ hbytes _ => exact ⟨[], hbytes.symm, rfl, (Function.update_eq_self ..).symm, rfl, rfl⟩

/-- The bytes that are filled in are those of the packet. -/
theorem Delivers.filled {sel t : Selector S δ} {id n : ℕ} {bytes rest : List UInt8}
    (hlength : bytes.length = n) (hreads : t.reads = sel.reads)
    (hcaches : t.caches = Function.update sel.caches id (bytes ++ rest)) :
    (t.edit id (·.fill n)).reads =
      Function.update sel.reads id ((sel.reads id).write bytes) := by
  have hcache : (t.events id).buffer.readCache = bytes ++ rest :=
    (congrFun hcaches id).trans (Function.update_self ..)
  have hread : (t.events id).buffer.read = sel.reads id := congrFun hreads id
  rw [Selector.edit_reads, hreads]
  dsimp only [Event.fill]
  rw [hcache, hread, ← hlength, List.take_left]

/-- A packet that brings bytes is the completion of a read. -/
theorem Delivers.registered {sel t : Selector S δ} {status : CompletionStatus} {id : ℕ}
    (h : Delivers sel status (.read id) t) (hfresh : Fresh sel)
    (hsome : status.bytesTransferred ≠ 0) : id < sel.count := by
  refine Nat.lt_of_not_le fun hle => ?_
  cases h with
  | read _ hout _ _ => exact hout (hfresh.fresh (.read id) hle)
  | posted _ hbytes _ => exact hsome hbytes

variable [DecidableEq S]

/-- The code makes of the read buffers what its moves should. -/
abbrev Tracks (ok : Selector S δ → Move (WinReply (S := S)) (WinCall S δ) → Prop)
    (c : WinCode S δ α)
    (Q : α → Move (WinReply (S := S)) (WinCall S δ) → Selector S δ → Selector S δ → Prop) :
    Move (WinReply (S := S)) (WinCall S δ) → Selector S δ → Selector S δ → Prop :=
  c.Follows (winRuns ok) (fun _ => True) Reading Q

/-- From every state on the code leaves the read buffers alone, up to its moves. -/
structure Steady (ok : Selector S δ → Move (WinReply (S := S)) (WinCall S δ) → Prop)
    (c : WinCode S δ α) : Prop where
  follows : ∀ {m sel t}, Reading m sel t →
    Tracks ok c (fun _ m sel t => True ∧ Reading m sel t) m sel t

variable {ok : Selector S δ → Move (WinReply (S := S)) (WinCall S δ) → Prop}

namespace Steady

theorem pure (a : α) : Steady ok (Pure.pure a : WinCode S δ α) := ⟨fun h => ⟨trivial, h⟩⟩

theorem bind {c : WinCode S δ α} {f : α → WinCode S δ β} (hc : Steady ok c)
    (hf : ∀ a, Steady ok (f a)) : Steady ok (c >>= f) :=
  ⟨fun h => ((hc.follows h).mono fun a _ _ _ ht => (hf a).follows ht.2).bind⟩

theorem read_then {f : Selector S δ → WinCode S δ β} (hf : ∀ sel, Steady ok (f sel)) :
    Steady ok (.read >>= f) :=
  ⟨fun h => .read_then ((hf _).follows h)⟩

theorem modify {f : Selector S δ → Selector S δ} (hf : ∀ t, (f t).view = t.view) :
    Steady ok (.modify f) :=
  ⟨fun {m sel t} h => .modify ⟨trivial, by
    unfold Reading Gives
    rw [hf t]
    exact h⟩⟩

theorem edit (id : ℕ) {f : Event S δ → Event S δ}
    (hread : ∀ event, (f event).buffer.read = event.buffer.read)
    (hcache : ∀ event, (f event).buffer.readCache = event.buffer.readCache) :
    Steady ok (Win.edit id f) :=
  modify fun t => t.edit_view id hread hcache

/-- A question whose answer shows nothing new. -/
theorem ask {q : WinAsk S} (hsame : ∀ (u : Selector S δ) r, ViewAfter (.answer q r) u u.view)
    (hanswer : ∀ (u : Selector S δ) r t, WinAsk.answer q u r t → t.view = u.view) :
    Steady ok (.query q) := by
  refine ⟨fun h => .ask trivial h fun r u v _ _ hv => ⟨trivial, ?_⟩⟩
  unfold Reading Gives
  rw [hanswer u r v hv.1]
  exact hsame u r

/-- A question after whose answer the state is as before. -/
theorem same {q : WinAsk S} (hsame : ∀ (u : Selector S δ) r, ViewAfter (.answer q r) u u.view)
    (hanswer : ∀ (u : Selector S δ) r t, WinAsk.answer q u r t → t = u) :
    Steady ok (.query q) := ask hsame fun u r t ht => congrArg Selector.view (hanswer u r t ht)

/-- A panic ends the run. -/
theorem panic {f : Empty → WinCode S δ β} : Steady ok (.query WinAsk.panic >>= f) :=
  ⟨fun h => .bind (.stop Empty.elim trivial h)⟩

theorem plain {q : WinAsk S} (hq : q.plain) : Steady ok (.query q : WinCode S δ _) := by
  refine ask (fun u r => ?_) fun u r t ht => ?_
  · cases q <;> first | rfl | exact absurd hq id
  · have hleaves := hq.leaves ht
    exact View.ext (funext hleaves.read) (funext hleaves.readCache) hleaves.count
      hleaves.registered

theorem postAcceptEvent (socket : S) :
    Steady (δ := δ) ok (Win.postAcceptEvent socket) := by
  refine read_then fun sel => ?_
  cases sel.eventMaps socket with
  | none => exact pure _
  | some id =>
      dsimp only
      split
      · exact pure _
      · refine bind (same (fun _ _ => rfl) fun _ _ _ ht => ht) ?_
        rintro (e | s)
        · exact pure _
        · refine bind (edit id (fun _ => rfl) fun _ => rfl) fun _ => ?_
          refine bind (ask (fun _ _ => rfl) ?_) fun _ => pure _
          rintro u (e | b) t ht
          · exact congrArg Selector.view ht
          · obtain rfl := ht
            rfl

theorem traversal : Traversal (S := S) (δ := δ) (Steady ok) where
  pure := pure
  bind := bind
  read_then := read_then
  modify hf := modify fun t => View.ext (funext (hf t).read) (funext (hf t).readCache)
    (hf t).count (hf t).registered
  ask := plain
  postAcceptEvent := postAcceptEvent

/-! ## The handlers -/

theorem acceptCb (id : ℕ) (tcp : Except IoError S) :
    Steady (δ := δ) ok (Win.acceptCb id tcp) := by
  refine read_then fun sel => ?_
  cases (sel.events id).entry.accept with
  | none => exact pure _
  | some cb => exact same (fun _ _ => rfl) fun _ _ _ ht => ht

theorem acceptDone (id : ℕ) : Steady (S := S) (δ := δ) ok (Win.acceptDone id) := by
  refine read_then fun sel => ?_
  cases (sel.events id).acceptSocket with
  | none => exact panic
  | some socket =>
      refine bind (edit id (fun _ => rfl) fun _ => rfl) fun _ => ?_
      refine bind (same (fun _ _ => rfl) fun _ _ _ ht => ht) fun _ => ?_
      refine bind (edit id (fun _ => rfl) fun _ => rfl) fun _ => bind (acceptCb id _) fun ret => ?_
      exact traversal.accept_again id ret

/-- A packet is dispatched. The bytes that it brings are at the front of the cache, and
the handler appends them to the read buffer. -/
theorem readDone {id : ℕ} {status : CompletionStatus} {sel t : Selector S δ}
    (ht : Delivers sel status (.read id) t) :
    Tracks ok (Win.readDone id status) (fun _ m sel t => True ∧ Reading m sel t)
      (.answer (.dispatch status (.read id)) ()) sel (t.hold id) := by
  obtain ⟨bytes, hlength, hreads, hcaches, hrest⟩ := ht.receives
  have hentry := (ht.listens id).1
  -- Where nothing is appended, the packet brings nothing.
  have hleft : ¬ sel.Fills id status →
      Reading (.answer (.dispatch status (.read id)) ()) sel (t.hold id) := by
    refine fun hnot => ⟨bytes, hlength, View.ext ?_ hcaches hrest.1 hrest.2⟩
    rw [if_neg hnot]
    exact hreads
  have haccept : ((t.hold id).events id).isAccept ↔ (sel.events id).isAccept := by
    unfold Event.isAccept Selector.hold
    rw [hentry]
  refine .read_then ?_
  split
  · rename_i h
    exact (acceptDone id).follows (hleft fun hfills => hfills.1 (haccept.mp h))
  · rename_i hstream
    split
    · rename_i h
      exact (bind (traversal._unregisterSocket _) fun _ => pure ()).follows (hleft fun hfills =>
        hfills.2.1 (h))
    · rename_i hended
      split
      · rename_i h
        exact (traversal.dropEvent id).follows (hleft fun hfills => hfills.2.2 h)
      · rename_i hsome
        refine if_neg (Nat.not_lt.mpr ht.room) ▸ .bind (.modify ?_)
        have hfills : sel.Fills id status :=
          ⟨fun h => hstream (haccept.mpr h),
            fun h => hended (h), hsome⟩
        have hreading : Reading (.answer (.dispatch status (.read id)) ()) sel
            ((t.hold id).edit id (·.fill status.bytesTransferred)) := by
          refine ⟨bytes, hlength, View.ext ?_ ?_ hrest.1 hrest.2⟩
          · rw [if_pos hfills]
            exact Delivers.filled hlength hreads hcaches
          · exact (funext ((t.hold id).edit_keeps id (f := (·.fill status.bytesTransferred))
              (fun event => event.buffer.readCache) fun _ => rfl)).trans hcaches
        exact (traversal.read_again id).follows hreading

theorem dispatch (status : CompletionStatus) :
    Steady (S := S) (δ := δ) ok (Win.dispatch status) := by
  unfold Win.dispatch
  split
  · exact pure ()
  · rename_i id _
    exact ⟨fun h => .bind (.ask trivial h fun _ _ _ _ _ hv => .bind (.modify (.bind
      ((readDone hv.1).mono fun _ _ _ _ ht => (traversal.letGo id).follows ht.2))))⟩
  · rename_i id _
    refine bind (ask (fun _ _ => rfl) fun u _ t ht => ?_) fun _ =>
      traversal.holding id (traversal.writeDone id)
    cases ht with
    | write => rfl
    | posted => rfl

/-! ## The calls -/

/-- The event comes with the answer of the system. -/
theorem registerSocket (buffer : EventBuffer S) (entry : EventEntry S δ) :
    Steady ok (Win.registerSocket buffer entry) := by
  refine bind (traversal.removeEvent _) fun _ => ⟨fun h => .bind (.ask trivial h ?_)⟩
  rintro (e | _) u v - - ⟨hv, -⟩
  · obtain rfl := hv
    exact (bind (plain (q := .close buffer.asRawSocket) trivial) fun _ => pure _).follows rfl
  · obtain rfl := hv
    have hreading : Reading (.answer (.addSocket entry.evEvents buffer.asRawSocket) (.ok ()))
        v (v.insert buffer entry) := by
      refine ⟨buffer, View.ext (funext fun id => ?_) (funext fun id => ?_) rfl ?_⟩
      · exact Function.apply_update (fun _ event => event.buffer.read) v.events _ _ id
      · exact Function.apply_update (fun _ event => event.buffer.readCache) v.events _ _ id
      · exact registrations_append ..
    refine .bind (.modify ((bind (traversal.checkSocketEvent _) ?_).follows hreading))
    rintro (e | _)
    · exact bind (traversal.removeEvent _) fun _ => pure _
    · exact pure _

end Steady

/-- Every call makes of the read buffers what it should. -/
theorem winRuns_follows : (winRuns (S := S) (δ := δ) ok).Follows (fun _ => True) Reading := by
  intro op sel _ _
  by_cases hop : ∃ id f, op = .editBuffer id f
  · obtain ⟨id, f, rfl⟩ := hop
    exact .modify ⟨trivial, View.ext (sel.edit_reads id (·.editBuffer f))
      (sel.edit_caches id (·.editBuffer f)) rfl rfl⟩
  · have hcode : Steady ok op.code := Steady.traversal.code Steady.registerSocket Steady.dispatch
      fun id f heq => hop ⟨id, f, heq⟩
    refine hcode.follows ?_
    cases op with
    | editBuffer id f => exact absurd ⟨id, f, rfl⟩ hop
    | _ => rfl

/-! ## The runs -/

/-- A callback takes bytes off the front of the read buffer and leaves the cache alone, and
no other read uses the cache when a packet is dispatched. -/
def TakesInput : Selector S δ → Move (WinReply (S := S)) (WinCall S δ) → Prop
  | _, .call (.editBuffer _ f) => ∀ buffer : EventBuffer S,
      buffer.read.Takes (f buffer).read ∧ (f buffer).readCache = buffer.readCache
  | sel, .answer (.dispatch _ (.read id)) _ => sel.port.outstanding (.read id) ≤ 1
  | _, _ => True

/-- What a move tells about the incoming bytes. -/
def intakes : Move (WinReply (S := S)) (WinCall S δ) → Selector S δ → Selector S δ → List Intake
  | .answer (.dispatch status (.read id)) _, sel, t =>
      if sel.Fills id status then [.received id ((t.caches id).take status.bytesTransferred)]
      else []
  | .call (.editBuffer id f), sel, _ =>
      [.taken id ((sel.reads id).taken (f (sel.events id).buffer).read)]
  | _, _, _ => []

/-- The ledger of a state. -/
abbrev Selector.Inflow (log : List Intake) (sel : Selector S δ) : Prop :=
  TdRevent.Inflow log (registrations sel.log) sel.count sel.reads

/-- The log that is written from the moves keeps the ledger. -/
theorem inflow_move {log : List Intake} {m : Move (WinReply (S := S)) (WinCall S δ)}
    {sel t : Selector S δ} (h : sel.Inflow log) (hfresh : Fresh sel)
    (hallows : (winRuns TakesInput).Allows sel m) (hreading : Reading m sel t) :
    t.Inflow (log ++ intakes m sel t) := by
  have hview : ∀ {view : View S} {log' : List Intake}, t.view = view →
      TdRevent.Inflow log' view.registered view.count view.reads → t.Inflow log' := by
    rintro _ _ rfl ht
    exact ht
  have hsame : t.view = sel.view → t.Inflow (log ++ []) := fun heq =>
    hview heq ((List.append_nil log).symm ▸ h)
  cases m with
  | call op =>
      cases op with
      | editBuffer id f => exact hview hreading (h.take (hallows.2 (sel.events id).buffer).1)
      | _ => exact hsame hreading
  | answer q r =>
      cases q with
      | addSocket flag socket =>
          cases r with
          | error e => exact hsame hreading
          | ok _ =>
              obtain ⟨buffer, hbuffer⟩ := hreading
              exact hview hbuffer ((List.append_nil log).symm ▸ h.insert buffer)
      | dispatch status o =>
          cases o with
          | write id => exact hsame hreading
          | read id =>
              obtain ⟨bytes, hlength, hbytes⟩ := hreading
              obtain ⟨v, hdelivers, -⟩ := hallows
              have hcache : t.caches id = bytes ++ (sel.caches id).drop bytes.length :=
                (congrFun (congrArg View.caches hbytes) id).trans (Function.update_self ..)
              refine hview hbytes ?_
              simp only [intakes]
              split
              · rename_i hfills
                rw [hcache, ← hlength, List.take_left]
                exact h.receive (hdelivers.registered hfresh hfills.2.2) bytes
              · exact (List.append_nil log).symm ▸ h
      | _ => exact hsame hreading

/-- The incoming bytes of every event that was registered are accounted for. -/
def Selector.InputKept (sel : Selector S δ) (log : List Intake) : Prop :=
  ∀ id buffer, .registered id buffer ∈ sel.log → buffer.read.AtEnd →
    buffer.read.val ++ receivedBy log id = takenFrom log id ++ (sel.events id).buffer.read.val

/-! ## The main result -/

/-- On Windows, and whatever the system does, in every run without two outstanding reads of
an event, whose callbacks take bytes off the front of the read buffers only, no incoming
byte is lost, doubled or out of place. A log of what the moves tell exists for every run. -/
theorem win_input_kept [Zero S] (c : Config (Selector S δ) (WinReply (S := S)) Unit) :
    ((winRuns TakesInput).Reaches .new c →
      ∃ log, (winRuns TakesInput).Logged intakes ⟨.new, []⟩ log c) ∧
    ∀ log, (winRuns TakesInput).Logged intakes ⟨.new, []⟩ log c → c.state.InputKept log := by
  refine ⟨fun ⟨_, hrun⟩ => hrun.logged, fun log hlogged => ?_⟩
  have hfollows : (winRuns TakesInput).Follows (fun _ => True) (Reading (S := S) (δ := δ)) :=
    winRuns_follows
  have hinflow := hfollows.logged (J := fun log (sel : Selector S δ) => sel.Inflow log) hlogged
    trivial (.nil fun _ => rfl) fun _ _ _ _ hJ _ hreach hallows => inflow_move hJ
      (reaches_always fresh_maintains.keeps hreach.choose_spec Fresh.new) hallows
  exact fun id buffer hmem hend => hinflow.kept rfl hmem hend

/-- Two bytes come, and the callback takes the first and ends the event. -/
theorem win_input_kept_taken :
    ∃ log c, (winRuns TakesInput).Logged intakes
        ⟨(.new : Selector SOCKET Unit), []⟩ log c ∧
      receivedBy log 0 = [1, 2] ∧ takenFrom log 0 = [1] ∧
      (c.state.events 0).buffer.read.val = [2] ∧ c.state.InputKept log := by
  have start := System.Logged.nil (f := intakes) (S := winRuns TakesInput)
    ⟨(.new : Selector SOCKET Unit), []⟩
  have registered := ((start.call (.registerSocket
    { EventBuffer.new 3 0 with readCache := [0, 0] } (.newEvent 3 EventFlags.FLAG_READ
    (some 1) none none none)) trivial ⟨trivial, trivial⟩).answer (.ok ())
    ⟨rfl, trivial⟩).answer (.ok none) ⟨rfl, trivial⟩
  have received := ((registered.call .doSelect trivial ⟨trivial, trivial⟩).answer
    (.ok [⟨2, ∅, some (.read 0)⟩]) ⟨rfl, trivial⟩).answer ()
    ⟨.read [1, 2] (by decide) rfl (by decide), Nat.le_refl 1⟩
  have taken := (received.call (.editBuffer 0 fun buffer =>
    { buffer with read := buffer.read.drain 1 }) trivial
    ⟨fun _ => rfl, fun buffer => ⟨.drain buffer.read 1, rfl⟩⟩).answer .OVER ⟨rfl, trivial⟩
  exact ⟨_, _, taken, rfl, rfl, rfl, (win_input_kept _).2 _ taken⟩

end TdRevent.Win
