import TdRevent.Unix.Dispatch
import TdRevent.Inflow
import TdRevent.Interaction.Moves

/-!
# Incoming bytes of the Unix selectors

What a socket gave is appended to the read buffer of its event, and only the callbacks
take it from there. In every run the bytes that the kernel delivered for an event are
those that its callbacks took off, followed by those that its read buffer still holds,
byte for byte and in order.

## Implementation notes

What each move makes of the read buffers is known from the move and from the state
before it. A registration may close the descriptor of the old event first, and the new
event is seen after that. All other code of the selectors is steady: it shows no change.
-/

namespace TdRevent.Unix

open Interaction

variable {S δ E K Sys H : Type} {R : Sys → Type} {α β : Type}

/-- The read buffers. -/
def Selector.reads (sel : Selector S δ E K) (id : ℕ) : Buffer := (sel.events id).buffer.read

theorem Selector.edit_reads (sel : Selector S δ E K) (id : ℕ) (f : Event S δ → Event S δ) :
    (sel.edit id f).reads = Function.update sel.reads id (f (sel.events id)).buffer.read :=
  funext fun id' => Function.apply_update (fun _ event => event.buffer.read) sel.events id _ id'

/-- The read buffers after a move. -/
def readsAfter : Move (SockReply (S := S) R) (SockCall S δ) → Selector S δ E K → ℕ → Buffer
  | .answer (.read socket _) (.ok bytes), sel =>
      match sel.eventMaps socket with
      | some id =>
          if bytes = [] then sel.reads
          else Function.update sel.reads id ((sel.reads id).write bytes)
      | none => sel.reads
  | .call (.editBuffer id f), sel => Function.update sel.reads id (f (sel.events id).buffer).read
  | _, sel => sel.reads

/-- The read buffers, how many events there are, and with which buffers they came. -/
def Selector.intake (sel : Selector S δ E K) : (ℕ → Buffer) × ℕ × List (ℕ × EventBuffer S) :=
  (sel.reads, sel.count, registrations sel.log)

/-- The same after a registration. -/
def Selector.intakeWith (sel : Selector S δ E K) (buffer : EventBuffer S) :
    (ℕ → Buffer) × ℕ × List (ℕ × EventBuffer S) :=
  (Function.update sel.reads sel.count buffer.read, sel.count + 1,
    registrations sel.log ++ [(sel.count, buffer)])

/-- What may be seen of the incoming bytes after a move. -/
def IntakeAfter (m : Move (SockReply (S := S) R) (SockCall S δ)) (sel : Selector S δ E K)
    (intake : (ℕ → Buffer) × ℕ × List (ℕ × EventBuffer S)) : Prop :=
  intake = (readsAfter m sel, sel.count, registrations sel.log) ∨
    match m with
    | .call (.registerSocket buffer _) => intake = sel.intakeWith buffer
    | .answer (.close _) _ => ∃ buffer, intake = sel.intakeWith buffer
    | _ => False

/-- A move makes of the read buffers what it should. -/
abbrev Reading : Move (SockReply (S := S) R) (SockCall S δ) → Selector S δ E K →
    Selector S δ E K → Prop :=
  Gives Selector.intake IntakeAfter

/-- A silent question shows nothing. -/
theorem SockAsk.Silent.unread {q : SockAsk S Sys} (hq : q.Silent) (sel : Selector S δ E K)
    (r : SockReply R q) : IntakeAfter (R := R) (.answer q r) sel sel.intake := by
  cases q with
  | close => exact Or.inl rfl
  | sys => exact Or.inl rfl
  | _ => exact hq.elim

variable [DecidableEq S]

/-- The code makes of the read buffers what its moves should. -/
abbrev Tracks (B : Backend S δ E K R) (os : Os S K R) (select : SockCode S δ E K R Unit)
    (ok : Selector S δ E K → Move (SockReply (S := S) R) (SockCall S δ) → Prop)
    (c : SockCode S δ E K R α)
    (Q : α → Move (SockReply (S := S) R) (SockCall S δ) → Selector S δ E K →
      Selector S δ E K → Prop) :
    Move (SockReply (S := S) R) (SockCall S δ) → Selector S δ E K → Selector S δ E K → Prop :=
  c.Follows (unixRuns B os select ok) Selector.Keyed Reading Q

/-- From every state on the code leaves the read buffers alone, up to its moves. -/
structure Steady (B : Backend S δ E K R) (os : Os S K R) (select : SockCode S δ E K R Unit)
    (ok : Selector S δ E K → Move (SockReply (S := S) R) (SockCall S δ) → Prop)
    (c : SockCode S δ E K R α) : Prop where
  follows : ∀ {m sel t}, t.Keyed → Reading m sel t →
    Tracks B os select ok c (fun _ m sel t => t.Keyed ∧ Reading m sel t) m sel t

variable {B : Backend S δ E K R} {os : Os S K R} {select : SockCode S δ E K R Unit}
  {ok : Selector S δ E K → Move (SockReply (S := S) R) (SockCall S δ) → Prop}

/-- Local code that leaves the read buffers as they are. -/
theorem Local.tracks {A : Selector S δ E K → Selector S δ E K → Prop}
    {Q : α → Selector S δ E K → Selector S δ E K → Prop} {c : SockCode S δ E K R α}
    (hc : Local os A Q c) {m : Move (SockReply (S := S) R) (SockCall S δ)}
    {sel t : Selector S δ E K} {intake : (ℕ → Buffer) × ℕ × List (ℕ × EventBuffer S)}
    (hintake : IntakeAfter m sel intake)
    (hA : ∀ u, A t u → u.Keyed ∧ u.intake = intake)
    (hQ : ∀ a u, Q a t u → u.Keyed ∧ u.intake = intake) :
    Tracks B os select ok c (fun _ m sel t => t.Keyed ∧ Reading m sel t) m sel t := by
  have hwp := hc.wp (.unseen (unixRuns B os select ok) Selector.Keyed Selector.intake
    IntakeAfter intake) (fun _ _ _ _ _ h => h.1) t
    fun q u hq hu => ⟨hA u hu, hq.not_user, hq.unread u⟩
  refine (Code.Follows.of_wp (Q := fun _ u => u.Keyed ∧ u.intake = intake) c hintake
    (Code.wp_mono c hQ hwp)).mono ?_
  rintro _ m s u ⟨⟨hkeyed, hu⟩, hgives⟩
  unfold Reading Gives
  rw [hu]
  exact ⟨hkeyed, hgives⟩

namespace Steady

theorem pure (a : α) : Steady B os select ok (Pure.pure a) := ⟨fun hkeyed h => ⟨hkeyed, h⟩⟩

theorem bind {c : SockCode S δ E K R α} {f : α → SockCode S δ E K R β}
    (hc : Steady B os select ok c) (hf : ∀ a, Steady B os select ok (f a)) :
    Steady B os select ok (c >>= f) :=
  ⟨fun hkeyed h => ((hc.follows hkeyed h).mono
    fun a _ _ _ ht => (hf a).follows ht.1 ht.2).bind⟩

theorem read_then {f : Selector S δ E K → SockCode S δ E K R β}
    (hf : ∀ sel, Steady B os select ok (f sel)) : Steady B os select ok (.read >>= f) :=
  ⟨fun hkeyed h => .read_then ((hf _).follows hkeyed h)⟩

theorem when {p : Prop} [Decidable p] {c : SockCode S δ E K R Unit}
    (hc : p → Steady B os select ok c) : Steady B os select ok (.when p c) :=
  ⟨fun hkeyed h => .when (fun hp => (hc hp).follows hkeyed h) fun _ => ⟨hkeyed, h⟩⟩

theorem modify {f : Selector S δ E K → Selector S δ E K} (hf : ∀ t, t.Keyed → (f t).Keyed)
    (hintake : ∀ t, (f t).intake = t.intake) : Steady B os select ok (.modify f) := by
  refine ⟨fun {m sel t} hkeyed h => .modify ⟨hf t hkeyed, ?_⟩⟩
  unfold Reading Gives
  rwa [hintake]

theorem edit (id : ℕ) {f : Event S δ → Event S δ}
    (hsocket : ∀ event, (f event).asRawSocket = event.asRawSocket)
    (hread : ∀ event, (f event).buffer.read = event.buffer.read) :
    Steady B os select ok (Unix.edit id f) := by
  refine modify (fun t ht => ht.edit id hsocket) fun t => Prod.ext (funext fun id' => ?_) rfl
  exact t.edit_keeps id f (fun event => event.buffer.read) hread id'

theorem note {e : SockEvent S} (he : ∀ log, registrations (log ++ [e]) = registrations log) :
    Steady B os select ok (.modify (·.note e)) :=
  modify (fun _ ht => ⟨ht.sockets, ht.ids⟩) fun t => Prod.ext rfl (Prod.ext rfl (he t.log))

/-- A question whose answer shows nothing new. -/
theorem ask {q : SockAsk S Sys}
    (hsame : ∀ (u : Selector S δ E K) (r : SockReply R q), u.reads = readsAfter (.answer q r) u)
    (hanswer : ∀ (u : Selector S δ E K) r t, SockAsk.answer os q u r t →
      ∃ kernel, t = { u with kernel := kernel }) : Steady B os select ok (.query q) := by
  refine ⟨fun hkeyed h => .ask hkeyed h fun r u v hu _ hv => ?_⟩
  obtain ⟨kernel, rfl⟩ := hanswer u r v hv.1
  exact ⟨⟨hu.sockets, hu.ids⟩, Or.inl (Prod.ext (hsame u r) rfl)⟩

/-- A callback. -/
theorem call {q : SockAsk S Sys}
    (hsame : ∀ (u : Selector S δ E K) (r : SockReply R q), u.reads = readsAfter (.answer q r) u)
    (hanswer : ∀ (u : Selector S δ E K) r t, SockAsk.answer os q u r t → t = u) :
    Steady B os select ok (.query q) :=
  ask hsame fun u r t ht => ⟨u.kernel, hanswer u r t ht⟩

/-- Code in which an event may be dropped. -/
theorem drops {h : E → H} {f : Selector S δ E K → Selector S δ E K}
    {A : Selector S δ E K → Selector S δ E K → Prop} {c : SockCode S δ E K R α}
    (hc : Local os A (fun _ sel t => Told h (f sel) t) c)
    (hA : ∀ sel t, A sel t → Told h (f sel) t)
    (hf : ∀ t, t.Keyed → (f t).Keyed) (hintake : ∀ t, (f t).intake = t.intake) :
    Steady B os select ok c := by
  have htold : ∀ {t u : Selector S δ E K}, t.Keyed → Told h (f t) u →
      u.Keyed ∧ u.intake = t.intake := by
    rintro t _ ht ⟨owners, evts, kernel, -, rfl⟩
    exact ⟨⟨(hf t ht).sockets, (hf t ht).ids⟩, hintake t⟩
  exact ⟨fun hkeyed hreads =>
    hc.tracks hreads (fun u hu => htold hkeyed (hA _ u hu)) fun _ _ => htold hkeyed⟩

theorem calls {h : E → H} {c : SockCode S δ E K R α} (hc : Calls os h c) :
    Steady B os select ok c :=
  drops (f := fun sel => sel) hc (fun _ _ hu => hu) (fun _ ht => ht) fun _ => rfl

theorem removeEvent (socket : S) : Steady B os select ok (Unix.removeEvent socket) :=
  drops (h := fun _ => ()) (.removeEvent socket) (fun _ _ hu => hu) (fun _ ht => ht.remove socket)
    fun _ => rfl

/-- A handler holds its event. -/
theorem holding (id : ℕ) {handler : SockCode S δ E K R Unit}
    (h : Steady B os select ok handler) : Steady B os select ok (Unix.holding id handler) :=
  bind (modify (fun _ ht => ⟨ht.sockets, ht.ids⟩) fun _ => rfl) fun _ =>
    bind h fun _ => calls (h := fun _ => ()) (.letGo id)

/-! ## The functions of the selector -/

theorem acceptCb (id : ℕ) (tcp : Except IoError S) :
    Steady B os select ok (Unix.acceptCb id tcp) := by
  refine read_then fun sel => ?_
  cases (sel.events id).entry.accept with
  | none => exact pure _
  | some cb => exact call (fun _ _ => rfl) fun _ _ _ ht => ht

theorem readCb (id : ℕ) : Steady B os select ok (Unix.readCb id) := by
  refine read_then fun sel => ?_
  cases (sel.events id).entry.read with
  | none => exact pure _
  | some cb => exact call (fun _ _ => rfl) fun _ _ _ ht => ht

theorem endCb (id : ℕ) (socket : S) : Steady B os select ok (Unix.endCb id socket) := by
  refine read_then fun sel => ?_
  cases (sel.events id).entry.end_ with
  | none => exact pure ()
  | some cb =>
      refine bind (edit id (fun _ => rfl) fun _ => rfl) fun _ => ?_
      exact call (fun _ _ => rfl) fun _ _ _ ht => ht

variable {h : E → H} (hB : B.IsLocal os h)

include hB

theorem unregisterSocket (socket : S) :
    Steady B os select ok (Unix.unregisterSocket B socket) := by
  refine read_then fun sel => ?_
  cases sel.eventMaps socket with
  | none => exact calls (hB.deregister ..)
  | some id =>
      refine bind (modify (fun t ht => ?_) fun _ => rfl) fun _ => ?_
      · exact ⟨(ht.remove socket).sockets, (ht.remove socket).ids⟩
      refine bind (ask (fun _ _ => rfl) ?_) fun _ => ?_
      · rintro u _ _ ⟨kernel, -, rfl⟩
        exact ⟨kernel, rfl⟩
      · exact bind (endCb id socket) fun _ => calls (hB.deregister ..)

theorem dropEvent (id : ℕ) : Steady B os select ok (Unix.dropEvent B id) :=
  read_then fun _ => bind (unregisterSocket hB _) fun _ => pure ()

theorem endIfOver (id : ℕ) (ret : RetValue) :
    Steady B os select ok (Unix.endIfOver B id ret) := by
  cases ret with
  | OVER => exact dropEvent hB id
  | OK => exact pure ()
  | CONTINUE => exact pure ()

theorem writeOver (id : ℕ) : Steady B os select ok (Unix.writeOver B id) :=
  bind (edit id (fun _ => rfl) fun _ => rfl) fun _ =>
    read_then fun _ => bind (calls (hB.dropWrite ..)) fun _ => pure ()

theorem writeEvent (id : ℕ) : Steady B os select ok (Unix.writeEvent B id) := by
  refine read_then fun sel => ?_
  split
  · exact writeOver hB id
  · refine bind (call (fun _ _ => rfl) fun _ _ _ ht => ht.1) ?_
    rintro (e | len)
    · exact bind (edit id (fun _ => rfl) fun _ => rfl) fun _ => dropEvent hB id
    · dsimp only
      split
      · exact dropEvent hB id
      · refine bind (edit id (fun _ => rfl) fun _ => rfl) fun _ => ?_
        refine bind (note fun log => registrations_accepted ..) fun _ => ?_
        refine read_then fun t => ?_
        split
        · exact writeOver hB id
        · exact pure ()

theorem writeDone (socket : S) : Steady B os select ok (Unix.writeDone B socket) := by
  refine read_then fun sel => ?_
  cases sel.eventMaps socket with
  | none => exact pure ()
  | some id => exact holding id (writeEvent hB id)

theorem modifySocket (isDel : Bool) (socket : S) (entry : EventEntry S δ) :
    Steady B os select ok (Unix.modifySocket B isDel socket entry) := by
  refine read_then fun sel => ?_
  cases sel.eventMaps socket with
  | none => exact pure _
  | some id =>
      have hchange : Steady B os select ok (Unix.changeEvent B id isDel socket entry) :=
        bind (edit id (fun _ => rfl) fun _ => rfl) fun _ => read_then fun _ => calls (hB.change ..)
      refine bind hchange ?_
      rintro (e | _)
      · refine bind (unregisterSocket hB socket) ?_
        rintro (e' | _) <;> exact pure _
      · exact pure _

theorem sendSocket (socket : S) (data : List UInt8) :
    Steady B os select ok (Unix.sendSocket B socket data) := by
  refine read_then fun sel => ?_
  cases sel.eventMaps socket with
  | none => exact pure _
  | some id =>
      refine bind (edit id (fun _ => rfl) fun _ => rfl) fun _ => ?_
      refine bind (note fun log => registrations_sent ..) fun _ => ?_
      refine read_then fun t => ?_
      split
      · exact pure _
      · refine bind (edit id (fun _ => rfl) fun _ => rfl) fun _ => read_then fun _ => ?_
        refine bind (calls (hB.wantWrite ..)) ?_
        rintro (e | _) <;> exact pure _

/-- The bytes that were read are appended to the read buffer of the event, under whose
socket they were read. -/
theorem readEvent {m : Move (SockReply (S := S) R) (SockCall S δ)} {sel t : Selector S δ E K}
    {socket : S} {id : ℕ} (hkeyed : t.Keyed) (h : Reading m sel t)
    (hmaps : t.eventMaps socket = some id) :
    Tracks B os select ok (Unix.readEvent B id) (fun _ m sel t => t.Keyed ∧ Reading m sel t)
      m sel t := by
  refine .read_then ?_
  split
  · have haccept : Steady B os select ok
        (.query (SockAsk.accept (t.events id).asRawSocket)) := by
      refine ask (fun _ _ => rfl) fun u r v hv => ?_
      cases r with
      | error e => exact ⟨u.kernel, hv⟩
      | ok s =>
          obtain ⟨kernel, -, rfl⟩ := hv
          exact ⟨kernel, rfl⟩
    exact (bind haccept fun tcp => bind (acceptCb id tcp) fun ret =>
      endIfOver hB id ret).follows hkeyed h
  · refine .bind (.ask hkeyed h ?_)
    rintro r u v hu (huser | rfl) ⟨⟨rfl, -⟩, -⟩
    · exact huser.elim
    have hraw : v.eventMaps (v.events id).asRawSocket = some id :=
      hu.sockets hmaps ▸ hmaps
    cases r with
    | error e =>
        have hfailed : Steady B os select ok (do
            Unix.edit id (·.fail e)
            Unix.dropEvent B id) :=
          bind (edit id (fun _ => rfl) fun _ => rfl) fun _ => dropEvent hB id
        exact hfailed.follows hu (Or.inl rfl)
    | ok bytes =>
        dsimp only
        split
        · rename_i hnil
          refine (dropEvent hB id).follows hu (Or.inl ?_)
          simp only [readsAfter, hraw, if_pos hnil]
          rfl
        · rename_i hbytes
          refine .bind (.modify (.read_then ?_))
          have hfilled : (v.edit id (·.fill bytes)).Keyed := hu.edit id fun _ => rfl
          have hreading : Reading (R := R) (.answer (.read (v.events id).asRawSocket
              (v.events id).buffer.readCache.length) (.ok bytes)) v
              (v.edit id (·.fill bytes)) := by
            refine Or.inl ?_
            simp only [readsAfter, hraw, if_neg hbytes]
            exact Prod.ext (v.edit_reads id (·.fill bytes)) rfl
          split
          · exact (bind (readCb id) fun ret => endIfOver hB id ret).follows hfilled hreading
          · exact ⟨hfilled, hreading⟩

theorem readDone (socket : S) : Steady B os select ok (Unix.readDone B socket) := by
  refine ⟨fun {m sel t} hkeyed h => .read_then ?_⟩
  cases hmaps : t.eventMaps socket with
  | none => exact ⟨hkeyed, h⟩
  | some id =>
      have hheld : (t.hold id).Keyed := ⟨hkeyed.sockets, hkeyed.ids⟩
      have hmapped : (t.hold id).eventMaps socket = some id := hmaps
      refine .bind (.modify (.bind ((readEvent hB hheld h hmapped).mono fun _ m s u hu => ?_)))
      exact (calls (h := fun _ => ()) (.letGo id)).follows hu.1 hu.2

end Steady

/-! ## The calls -/

/-- Every call makes of the read buffers what it should. -/
theorem Selector.insert_intake (sel : Selector S δ E K) (buffer : EventBuffer S)
    (entry : EventEntry S δ) : (sel.insert buffer entry).intake = sel.intakeWith buffer := by
  refine Prod.ext ?_ (Prod.ext rfl (registrations_append ..))
  exact funext fun id => Function.apply_update (fun _ event => event.buffer.read) sel.events _ _ id

/-- The old event is dropped before the new one is seen. -/
theorem removeEvent_tracks {sel : Selector S δ E K} (hkeyed : sel.Keyed)
    (buffer : EventBuffer S) (entry : EventEntry S δ) :
    Tracks B os select ok (Unix.removeEvent buffer.asRawSocket)
      (fun _ m sel t => t.Keyed ∧ Reading m sel (t.insert buffer entry))
      (.call (.registerSocket buffer entry)) sel sel := by
  refine .read_then ?_
  cases sel.eventMaps buffer.asRawSocket with
  | none => exact ⟨hkeyed, Or.inr (sel.insert_intake buffer entry)⟩
  | some id =>
      have hremoved := hkeyed.remove buffer.asRawSocket
      refine .bind (.modify (.read_then (.when (fun _ => .bind (.modify ?_)) fun _ => ?_)))
      · refine .ask ⟨hremoved.sockets, hremoved.ids⟩ (Or.inl rfl) ?_
        rintro r u _ hu - ⟨⟨kernel, -, rfl⟩, -⟩
        refine ⟨⟨hu.sockets, hu.ids⟩, Or.inr ⟨buffer, ?_⟩⟩
        exact { u with kernel := kernel }.insert_intake buffer entry
      · exact ⟨hremoved, Or.inr ((sel.remove _).insert_intake buffer entry)⟩

theorem Backend.IsLocal.register_follows {h : E → H} (hB : B.IsLocal os h)
    {sel : Selector S δ E K} (hkeyed : sel.Keyed) (buffer : EventBuffer S)
    (entry : EventEntry S δ) :
    Tracks B os select ok (Unix.registerSocket B buffer entry)
      (fun _ m sel t => t.Keyed ∧ Reading m sel t)
      (.call (.registerSocket buffer entry)) sel sel := by
  refine .bind ((removeEvent_tracks hkeyed buffer entry).mono ?_)
  rintro _ m s t ⟨ht, hreading⟩
  refine .bind (.modify (.bind ?_))
  refine ((Steady.calls (hB.add ..)).follows (ht.insert buffer entry) hreading).mono ?_
  rintro (e | _) m s t ⟨ht, hreading⟩
  · exact ((Steady.removeEvent _).bind fun _ => .pure _).follows ht hreading
  · exact ⟨ht, hreading⟩

theorem Backend.IsLocal.follows {h : E → H} (hB : B.IsLocal os h)
    (hselect : Steady B os select ok select) :
    (unixRuns B os select ok).Follows Selector.Keyed Reading := by
  have hstart : ∀ {c : SockCode S δ E K R Unit} {op sel}, Steady B os select ok c → sel.Keyed →
      sel.intake = (readsAfter (R := R) (.call op) sel, sel.count, registrations sel.log) →
      Tracks B os select ok c (fun _ m sel t => t.Keyed ∧ Reading m sel t) (.call op) sel sel :=
    fun hc hkeyed hintake => hc.follows hkeyed (Or.inl hintake)
  rintro op sel ⟨hmay, -⟩ hkeyed
  cases op with
  | openSocket =>
      refine hstart (.bind (.ask (fun _ _ => rfl) ?_) fun _ => .pure ()) hkeyed rfl
      rintro _ _ _ ⟨kernel, -, rfl⟩
      exact ⟨kernel, rfl⟩
  | registerSocket buffer entry =>
      exact ((hB.register_follows hkeyed buffer entry).mono fun _ _ _ _ ht => ht).bind
  | modifySocket isDel socket entry =>
      exact hstart (.bind (.modifySocket hB isDel socket entry) fun _ => .pure ()) hkeyed rfl
  | unregisterSocket socket =>
      exact hstart (.bind (.unregisterSocket hB socket) fun _ => .pure ()) hkeyed rfl
  | sendSocket socket data =>
      exact hstart (.bind (.sendSocket hB socket data) fun _ => .pure ()) hkeyed rfl
  | readDone socket => exact hstart (.readDone hB socket) hkeyed rfl
  | writeDone socket => exact hstart (.writeDone hB socket) hkeyed rfl
  | doSelect => exact hstart hselect hkeyed rfl
  | editBuffer id f =>
      exact .modify ⟨hkeyed.edit id fun event => hmay event.buffer,
        Or.inl (Prod.ext (sel.edit_reads id (·.editBuffer f)) rfl)⟩

/-! ## The loops -/

theorem Epoll.doSelect_steady {os : Os SOCKET Epoll.Interest Epoll.EpollReply}
    {select : Epoll.EpollCode δ Unit}
    {ok : Selector SOCKET δ (List Epoll.EpollEvent) Epoll.Interest →
      Move (SockReply (S := SOCKET) Epoll.EpollReply) (SockCall SOCKET δ) → Prop} :
    Steady Epoll.epoll os select ok (Epoll.doSelect (δ := δ)) := by
  have hB := Epoll.epoll_isLocal (δ := δ) os fun _ => ()
  have hdispatch : ∀ left i, Steady Epoll.epoll os select ok (Epoll.dispatch (δ := δ) left i) := by
    intro left
    induction left with
    | zero => exact fun _ => .pure ()
    | succ left ih =>
        refine fun i => .read_then fun sel => ?_
        cases sel.evts[i]? with
        | none => exact ⟨fun hkeyed h => .stop Empty.elim hkeyed h⟩
        | some value =>
            refine .bind (.when fun _ => .readDone hB _) fun _ => ?_
            exact .bind (.when fun _ => .writeDone hB _) fun _ => ih (i + 1)
  refine .bind (.ask (fun _ _ => rfl) ?_) ?_
  · rintro _ _ _ ⟨kernel, -, rfl⟩
    exact ⟨kernel, rfl⟩
  · rintro (e | events)
    · exact .pure ()
    · refine .bind (.modify (fun t ht => ⟨ht.sockets, ht.ids⟩) fun _ => rfl) fun _ => ?_
      exact hdispatch events.length 0

theorem Kqueue.doSelect_steady {os : Os SOCKET Kqueue.Kernel Kqueue.KqueueReply}
    {select : Kqueue.KqueueCode δ Unit}
    {ok : Selector SOCKET δ Kqueue.Events Kqueue.Kernel →
      Move (SockReply (S := SOCKET) Kqueue.KqueueReply) (SockCall SOCKET δ) → Prop} :
    Steady Kqueue.kqueue os select ok (Kqueue.doSelect (δ := δ)) := by
  have hB := Kqueue.kqueue_isLocal (δ := δ) (h := fun _ => ()) (fun _ _ => rfl) os
  have hsys : ∀ q, Steady Kqueue.kqueue os select ok
      (.query (SockAsk.sys q) : Kqueue.KqueueCode δ _) := by
    refine fun q => .ask (fun _ _ => rfl) ?_
    rintro _ _ _ ⟨kernel, -, rfl⟩
    exact ⟨kernel, rfl⟩
  have hdispatch : ∀ left i, Steady Kqueue.kqueue os select ok
      (Kqueue.dispatch (δ := δ) left i) := by
    intro left
    induction left with
    | zero => exact fun _ => .pure ()
    | succ left ih =>
        refine fun i => .read_then fun sel => ?_
        cases sel.evts.sysEvents[i]? with
        | none => exact ⟨fun hkeyed h => .stop Empty.elim hkeyed h⟩
        | some e =>
            refine .bind (.bind (hsys _) fun _ =>
              .modify (fun t ht => ⟨ht.sockets, ht.ids⟩) fun _ => rfl) fun _ => ?_
            refine .bind (.when fun _ => .readDone hB _) fun _ => ?_
            exact .bind (.when fun _ => .writeDone hB _) fun _ => ih (i + 1)
  refine .bind (hsys _) ?_
  rintro (e | events)
  · exact .pure ()
  · refine .bind (.modify (fun t ht => ⟨ht.sockets, ht.ids⟩) fun _ => rfl) fun _ => ?_
    refine .bind (hdispatch events.length 0) fun _ => ?_
    exact .modify (fun t ht => ⟨ht.sockets, ht.ids⟩) fun _ => rfl

/-! ## The runs -/

/-- A callback takes bytes off the front of the read buffer. -/
def TakesInput : Selector S δ E K → Move (SockReply (S := S) R) (SockCall S δ) → Prop
  | _, .call (.editBuffer _ f) => ∀ buffer : EventBuffer S, buffer.read.Takes (f buffer).read
  | _, _ => True

/-- What a move tells about the incoming bytes. -/
def intakes : Move (SockReply (S := S) R) (SockCall S δ) → Selector S δ E K → Selector S δ E K →
    List Intake
  | .answer (.read socket _) (.ok bytes), sel, _ =>
      match sel.eventMaps socket with
      | some id => if bytes = [] then [] else [.received id bytes]
      | none => []
  | .call (.editBuffer id f), sel, _ =>
      [.taken id ((sel.reads id).taken (f (sel.events id).buffer).read)]
  | _, _, _ => []

/-- The ledger of a state. -/
abbrev Selector.Inflow (log : List Intake) (sel : Selector S δ E K) : Prop :=
  TdRevent.Inflow log (registrations sel.log) sel.count sel.reads

/-- The log that is written from the moves keeps the ledger. -/
theorem inflow_move {log : List Intake} {m : Move (SockReply (S := S) R) (SockCall S δ)}
    {sel t : Selector S δ E K} (h : sel.Inflow log) (hkeyed : sel.Keyed)
    (hallows : (unixRuns B os select TakesInput).Allows sel m) (hreading : Reading m sel t) :
    t.Inflow (log ++ intakes m sel t) := by
  -- the ledger of a state is that of what is seen of it
  have hinflow : ∀ {log' intake}, t.intake = intake →
      TdRevent.Inflow log' intake.2.2 intake.2.1 intake.1 → t.Inflow log' := by
    rintro log' _ rfl h'
    exact h'
  have hsame : TdRevent.Inflow (log ++ []) (registrations sel.log) sel.count sel.reads := by
    rwa [List.append_nil]
  rcases hreading with hseen | hregistered
  · refine hinflow hseen ?_
    cases m with
    | call op =>
        cases op with
        | editBuffer id f => exact h.take (hallows.2 (sel.events id).buffer)
        | _ => exact hsame
    | answer q r =>
        cases q with
        | read socket capacity =>
            cases r with
            | error e => exact hsame
            | ok bytes =>
                simp only [intakes, readsAfter]
                cases hmaps : sel.eventMaps socket with
                | none => exact hsame
                | some id =>
                    dsimp only
                    split
                    · exact hsame
                    · exact h.receive (hkeyed.ids hmaps) bytes
        | _ => exact hsame
  · have hinsert : ∀ buffer, t.intake = sel.intakeWith buffer → t.Inflow (log ++ []) :=
      fun buffer hbuffer => hinflow hbuffer ((List.append_nil log).symm ▸ h.insert buffer)
    cases m with
    | call op =>
        cases op with
        | registerSocket buffer entry => exact hinsert buffer hregistered
        | _ => exact hregistered.elim
    | answer q r =>
        cases q with
        | close socket =>
            obtain ⟨buffer, hbuffer⟩ := hregistered
            exact hinsert buffer hbuffer
        | _ => exact hregistered.elim

/-- The incoming bytes of every event that was registered are accounted for. -/
def Selector.InputKept (sel : Selector S δ E K) (log : List Intake) : Prop :=
  ∀ id buffer, .registered id buffer ∈ sel.log → buffer.read.AtEnd →
    buffer.read.val ++ receivedBy log id = takenFrom log id ++ (sel.events id).buffer.read.val

theorem logged_kept [Zero S] {h : E → H} (hB : B.IsLocal os h)
    (hselect : Steady B os select TakesInput select) {evts : E} {kernel : K}
    {log : List Intake} {c : Config (Selector S δ E K) (SockReply (S := S) R) Unit}
    (hlogged : (unixRuns B os select TakesInput).Logged intakes ⟨.new evts kernel, []⟩ log c) :
    c.state.InputKept log := by
  have hinflow := (hB.follows hselect).logged
    (J := fun log (sel : Selector S δ E K) => sel.Inflow log) hlogged
    ⟨nofun, nofun⟩ (.nil fun _ => rfl) fun _ _ _ _ hJ hkeyed _ => inflow_move hJ hkeyed
  exact fun id buffer hmem hend => hinflow.kept rfl hmem hend

/-! ## The main result -/

/-- On both Unix selectors, and whatever the kernel does, in every run whose callbacks take
bytes off the front of the read buffers only, no incoming byte is lost, doubled or out of
place. A log of what the moves tell exists for every run. -/
theorem unix_input_kept :
    (∀ (os : Os SOCKET Epoll.Interest Epoll.EpollReply) (evts : List Epoll.EpollEvent)
        (kernel : Epoll.Interest)
        (c : Config (Selector SOCKET δ (List Epoll.EpollEvent) Epoll.Interest)
          (SockReply (S := SOCKET) Epoll.EpollReply) Unit),
        ((unixRuns Epoll.epoll os Epoll.doSelect TakesInput).Reaches (.new evts kernel) c →
          ∃ log, (unixRuns Epoll.epoll os Epoll.doSelect TakesInput).Logged intakes
            ⟨.new evts kernel, []⟩ log c) ∧
        ∀ log, (unixRuns Epoll.epoll os Epoll.doSelect TakesInput).Logged intakes
          ⟨.new evts kernel, []⟩ log c → c.state.InputKept log) ∧
      ∀ (os : Os SOCKET Kqueue.Kernel Kqueue.KqueueReply) (evts : Kqueue.Events)
        (kernel : Kqueue.Kernel)
        (c : Config (Selector SOCKET δ Kqueue.Events Kqueue.Kernel)
          (SockReply (S := SOCKET) Kqueue.KqueueReply) Unit),
        ((unixRuns Kqueue.kqueue os Kqueue.doSelect TakesInput).Reaches (.new evts kernel) c →
          ∃ log, (unixRuns Kqueue.kqueue os Kqueue.doSelect TakesInput).Logged intakes
            ⟨.new evts kernel, []⟩ log c) ∧
        ∀ log, (unixRuns Kqueue.kqueue os Kqueue.doSelect TakesInput).Logged intakes
          ⟨.new evts kernel, []⟩ log c → c.state.InputKept log := by
  refine ⟨fun os evts kernel c => ⟨fun ⟨_, hrun⟩ => hrun.logged, fun log hlogged => ?_⟩,
    fun os evts kernel c => ⟨fun ⟨_, hrun⟩ => hrun.logged, fun log hlogged => ?_⟩⟩
  · exact logged_kept (Epoll.epoll_isLocal os fun _ => ()) Epoll.doSelect_steady hlogged
  · exact logged_kept (Kqueue.kqueue_isLocal (h := fun _ => ()) (fun _ _ => rfl) os)
      Kqueue.doSelect_steady hlogged

/-- Two bytes come, the callback takes the first, and another byte comes. -/
theorem unix_input_kept_taken :
    ∃ log c, (unixRuns Epoll.epoll Epoll.epollOs Epoll.doSelect TakesInput).Logged intakes
        ⟨(.new [] fun _ => none : Selector SOCKET Unit _ _), []⟩ log c ∧
      receivedBy log 0 = [1, 2, 3] ∧ takenFrom log 0 = [1] ∧
      (c.state.events 0).buffer.read.val = [2, 3] ∧ c.state.InputKept log := by
  have start := System.Logged.nil (f := intakes)
    (S := unixRuns Epoll.epoll Epoll.epollOs Epoll.doSelect TakesInput)
    ⟨(.new [] fun _ => none : Selector SOCKET Unit _ _), []⟩
  have registered := (start.call (.registerSocket
    { EventBuffer.new 3 0 with readCache := [0, 0] } (.newEvent 3 EventFlags.FLAG_READ
    (some 1) none none none)) trivial ⟨trivial, trivial⟩).answer (.ok ())
    ⟨⟨_, Epoll.epollOs_ok (by decide), rfl⟩, trivial⟩
  have received := (registered.call (.readDone 3) trivial ⟨trivial, trivial⟩).answer
    (.ok [1, 2]) ⟨⟨rfl, by rintro _ ⟨⟩; decide⟩, trivial⟩
  have taken := (received.call (.editBuffer 0 fun buffer =>
    { buffer with read := buffer.read.drain 1 }) trivial
    ⟨fun _ => rfl, fun buffer => .drain buffer.read 1⟩).answer .OK ⟨rfl, trivial⟩
  have again := (taken.call (.readDone 3) trivial ⟨trivial, trivial⟩).answer (.ok [3])
    ⟨⟨rfl, by rintro _ ⟨⟩; decide⟩, trivial⟩
  exact ⟨_, _, again, rfl, rfl, rfl, (unix_input_kept.1 _ _ _ _).2 _ again⟩

end TdRevent.Unix
