import TdRevent.Unix.Dispatch

/-!
# What the kqueue selector submits

`register` and `deregister` push their changes into the vector of the selector
and submit all of it. The events that the last `keventTs` returned are in the
same vector until a submission clears it, so they are submitted with the changes.
-/

namespace TdRevent.Unix.Kqueue

open Interaction Discipline

variable {δ : Type} {sel : Selector SOCKET δ Events Kernel}
  {C : Contract (Selector SOCKET δ Events Kernel) (SockReply (S := SOCKET) KqueueReply)}

/-- The changes of one call of `register` or `deregister`. -/
def changelist (flags : EventFlag) (socket : SOCKET) (evEvents : EventFlags) : List KEvent :=
  (if evEvents.contains EventFlags.FLAG_READ then [⟨socket.asU64, .EVFILT_READ, flags⟩] else []) ++
    if evEvents.contains EventFlags.FLAG_WRITE then [⟨socket.asU64, .EVFILT_WRITE, flags⟩] else []

/-- The change that is pushed under a condition. -/
theorem wp_when_push {p : Prop} [Decidable p] {socket : SOCKET} {filter : EventFilter}
    {flags : EventFlag} {Q : Unit → Selector SOCKET δ Events Kernel → Prop} :
    (Code.when p (evPush socket filter flags)).wp C Q sel ↔
      Q () (setSysEvents (· ++ if p then [⟨socket.asU64, filter, flags⟩] else []) sel) := by
  unfold Code.when
  split
  · exact Iff.rfl
  · simp only [setSysEvents, List.append_nil]
    exact Iff.rfl

/-- The vector and the changes are submitted, and the vector is cleared. -/
theorem wp_submission {socket : SOCKET} {evEvents : EventFlags} {flags : EventFlag}
    {Q : Except IoError Unit → Selector SOCKET δ Events Kernel → Prop} :
    (do
      Code.when (evEvents.contains EventFlags.FLAG_READ) (evPush socket .EVFILT_READ flags)
      Code.when (evEvents.contains EventFlags.FLAG_WRITE) (evPush socket .EVFILT_WRITE flags)
      flushChanges).wp C Q sel ↔
      let changes := sel.evts.sysEvents ++ changelist flags socket evEvents
      let pushed := setSysEvents (fun _ => changes) sel
      C.asks (.sys (.kevent changes)) pushed ∧
        ∀ r t, C.answers (.sys (.kevent changes)) pushed r t →
          Q r (setSysEvents (fun _ => []) t) := by
  dsimp only
  rw [changelist, ← List.append_assoc]
  simp only [Code.wp_bind, wp_when_push]
  exact Iff.rfl

/-- A submission clears the vector and changes the kernel. -/
def Flushed (sel t : Selector SOCKET δ Events Kernel) : Prop :=
  ∃ kernel, t = { sel with evts := { sel.evts with sysEvents := [] }, kernel := kernel }

variable {os : Os SOCKET Kernel KqueueReply}

theorem submission_flushes (socket : SOCKET) (evEvents : EventFlags) (flags : EventFlag) :
    Local os (fun _ _ => True) (fun _ => Flushed (δ := δ)) (do
      .when (evEvents.contains EventFlags.FLAG_READ) (evPush socket .EVFILT_READ flags)
      .when (evEvents.contains EventFlags.FLAG_WRITE) (evPush socket .EVFILT_WRITE flags)
      flushChanges) := by
  refine ⟨fun C hanswers sel hasks => wp_submission.mpr ⟨hasks _ _ trivial trivial, ?_⟩⟩
  intro r t ht
  obtain ⟨k, -, rfl⟩ := hanswers _ _ r t trivial ht
  exact ⟨k, rfl⟩

theorem kqueue_flushes : (kqueue (δ := δ)).Does os Flushed where
  add _ _ := submission_flushes ..
  change _ _ := submission_flushes ..
  wantWrite _ _ := submission_flushes ..
  dropWrite _ _ := submission_flushes ..
  deregister _ _ := submission_flushes ..

/-! ## The main result -/

section

variable {ans : (q : SockAsk SOCKET KqueueCall) → Selector SOCKET δ Events Kernel →
    SockReply KqueueReply q → Selector SOCKET δ Events Kernel → Prop}
  {tr : List (Exchange (Selector SOCKET δ Events Kernel) (SockReply (S := SOCKET) KqueueReply))}
  {t : Selector SOCKET δ Events Kernel}

theorem trace_when_push {p : Prop} [Decidable p] {socket : SOCKET} {filter : EventFilter}
    {flags : EventFlag} {u : Unit} :
    (Code.when p (evPush socket filter flags)).Trace ans sel tr u t ↔
      tr = [] ∧
        t = setSysEvents (· ++ if p then [⟨socket.asU64, filter, flags⟩] else []) sel := by
  unfold Code.when
  split
  · exact Code.trace_modify ..
  · simp only [Code.trace_pure, setSysEvents, List.append_nil, true_and]

/-- One call to the kernel, with the vector and the changes. -/
theorem trace_submission {socket : SOCKET} {evEvents : EventFlags} {flags : EventFlag}
    {r : Except IoError Unit}
    (htrace : (do
      Code.when (evEvents.contains EventFlags.FLAG_READ) (evPush socket .EVFILT_READ flags)
      Code.when (evEvents.contains EventFlags.FLAG_WRITE) (evPush socket .EVFILT_WRITE flags)
      flushChanges).Trace ans sel tr r t) :
    ∃ x, tr = [x] ∧ ans x.question x.before x.reply x.after ∧
      x.question = .sys (.kevent (sel.evts.sysEvents ++ changelist flags socket evEvents)) ∧
      x.before = setSysEvents (fun _ => sel.evts.sysEvents ++ changelist flags socket evEvents)
        sel ∧
      t = setSysEvents (fun _ => []) x.after := by
  simp only [Code.trace_bind, trace_when_push] at htrace
  obtain ⟨_, _, _, _, rfl, ⟨rfl, rfl⟩, _, _, _, _, rfl, ⟨rfl, rfl⟩, htrace⟩ := htrace
  obtain ⟨r, u, _, hanswer, rfl, rfl, -, rfl⟩ := htrace
  refine ⟨⟨_, _, r, u⟩, rfl, hanswer, ?_, ?_, rfl⟩
  · simp only [setSysEvents, changelist, List.append_assoc]
  · simp only [setSysEvents, changelist, List.append_assoc]

end

/-- No event is received. -/
def NoEvents : Selector SOCKET δ Events Kernel →
    Move (SockReply (S := SOCKET) KqueueReply) (SockCall SOCKET δ) → Prop
  | _, .answer (.sys .keventTs) (.ok events) => events = []
  | _, _ => True

theorem empty_invariant {ok : Selector SOCKET δ Events Kernel →
      Move (SockReply (S := SOCKET) KqueueReply) (SockCall SOCKET δ) → Prop} :
    RegistryInvariant (R := KqueueReply) Flushed ok
      fun sel : Selector SOCKET δ Events Kernel => sel.evts.sysEvents = [] where
  edit _ _ h _ := h
  note _ h := h
  kernel _ h := h
  owners _ h := h
  told := by
    rintro sel _ - ⟨kernel, rfl⟩
    rfl
  remove _ h := h
  insert h _ := h

theorem empty_keeps :
    (ofInv fun sel : Selector SOCKET δ Events Kernel => sel.evts.sysEvents = []).Keeps
      (unixRuns kqueue os doSelect NoEvents) := by
  apply (empty_invariant.maintains kqueue_flushes).keeps fun _ _ _ => trivial
  intro sel hsel _
  unfold doSelect
  refine Safe.bind (Safe.ask (fun hu => hu) trivial ?_)
  rintro r _ ⟨⟨k, -, rfl⟩, hok⟩
  refine ⟨?_, trivial⟩
  cases r with
  | error e => exact Safe.pure hsel
  | ok events =>
      obtain rfl : events = [] := hok
      exact Safe.bind (Safe.modify (Safe.bind (Safe.pure (Safe.modify rfl trivial))) trivial)

/-- A call of `register` or `deregister` submits exactly its own changes if and
only if the vector is empty. In a run without received events it always is. -/
theorem submits_exactly :
    (∀ (sel : Selector SOCKET δ Events Kernel) (socket : SOCKET) (evEvents : EventFlags)
        (ans : (q : SockAsk SOCKET KqueueCall) → Selector SOCKET δ Events Kernel →
          SockReply KqueueReply q → Selector SOCKET δ Events Kernel → Prop)
        (tr : List (Exchange (Selector SOCKET δ Events Kernel)
          (SockReply (S := SOCKET) KqueueReply)))
        (r : Except IoError Unit) (t : Selector SOCKET δ Events Kernel),
      ((register socket evEvents).Trace ans sel tr r t →
        (tr.map (·.question) =
            [.sys (.kevent (changelist ({.EV_ADD} ∪ {.EV_ENABLE}) socket evEvents))] ↔
          sel.evts.sysEvents = [])) ∧
      ((deregister socket evEvents).Trace ans sel tr r t →
        (tr.map (·.question) = [.sys (.kevent (changelist {.EV_DELETE} socket evEvents))] ↔
          sel.evts.sysEvents = []))) ∧
    ∀ (os : Os SOCKET Kernel KqueueReply) (kernel : Kernel)
      (c : Config (Selector SOCKET δ Events Kernel) (SockReply (S := SOCKET) KqueueReply) Unit),
      (unixRuns kqueue os doSelect NoEvents).Reaches (.new .new kernel) c →
      (unixRuns (δ := δ) kqueue os doSelect NoEvents).Open c.stack →
      c.state.evts.sysEvents = [] := by
  refine ⟨fun sel socket evEvents ans tr r t => ?_, fun os kernel c hreach hopen => ?_⟩
  · have hexact : ∀ changes : List KEvent,
        ([.sys (.kevent (sel.evts.sysEvents ++ changes))] : List (SockAsk SOCKET KqueueCall)) =
          [.sys (.kevent changes)] ↔ sel.evts.sysEvents = [] := by
      intro changes
      simp
    constructor
    · intro htrace
      obtain ⟨x, rfl, -, hquestion, -⟩ := trace_submission htrace
      rw [List.map_singleton, hquestion]
      exact hexact _
    · intro htrace
      obtain ⟨x, rfl, -, hquestion, -⟩ := trace_submission htrace
      rw [List.map_singleton, hquestion]
      exact hexact _
  · exact reaches_inv empty_keeps hreach rfl hopen

/-- Socket 3 is registered for reading in a new selector. -/
theorem submits_exactly_first :
    ∃ tr r t, (register 3 EventFlags.FLAG_READ).Trace (kqueueSystem Unit).during
        (.new .new ⟨fun _ => true, fun _ => ∅⟩) tr r t ∧
      tr.map (·.question) = [.sys (.kevent
        (changelist ({.EV_ADD} ∪ {.EV_ENABLE}) 3 EventFlags.FLAG_READ))] := by
  have htrace : ∃ tr r t, (register 3 EventFlags.FLAG_READ).Trace (kqueueSystem Unit).during
      (.new .new ⟨fun _ => true, fun _ => ∅⟩) tr r t :=
    ⟨_, .ok (), _, .ok (), _, _, Or.inl ⟨fun hu => hu, _, kqueueOs_ok (fun _ _ _ => rfl), rfl⟩, rfl,
      rfl, rfl, rfl⟩
  obtain ⟨tr, r, t, htrace⟩ := htrace
  exact ⟨tr, r, t, htrace, ((submits_exactly.1 _ _ _ _ _ _ _).1 htrace).mpr rfl⟩

/-- Socket 4 is readable, and its event is submitted with the changes for socket 5. -/
theorem submits_received :
    ∃ c tr r t, (kqueueSystem Unit).Reaches (.new .new ⟨fun _ => false, fun _ => ∅⟩) c ∧
      c.stack = [] ∧
      (register 5 EventFlags.FLAG_READ).Trace (kqueueSystem Unit).during c.state tr r t ∧
      tr.map (·.question) ≠ [.sys (.kevent
        (changelist ({.EV_ADD} ∪ {.EV_ENABLE}) 5 EventFlags.FLAG_READ))] := by
  have start := System.Reaches.refl (S := kqueueSystem Unit)
    (.new .new ⟨fun _ => false, fun _ => ∅⟩)
  have opened := (start.call .openSocket trivial trivial).answer (4 : SOCKET) ⟨_, ⟨rfl, rfl⟩, rfl⟩
  have registered := (opened.call (.registerSocket (.new 4 0) (.newEvent 4 EventFlags.FLAG_READ
    none none none none)) trivial trivial).answer (.ok ()) ⟨_, kqueueOs_ok (by decide), rfl⟩
  have received := (registered.call .doSelect trivial trivial).answer
    (.ok [⟨(4 : SOCKET).asU64, .EVFILT_READ, ∅⟩]) ⟨_, ⟨rfl, by rintro _ ⟨⟩; decide⟩, rfl⟩
  have read := (received.answer () ⟨_, rfl, rfl⟩).answer (.ok [1])
    ⟨rfl, by rintro _ ⟨⟩; exact EventBuffer.new_room 4 0⟩
  have opened := (read.call .openSocket trivial trivial).answer (5 : SOCKET) ⟨_, ⟨rfl, rfl⟩, rfl⟩
  refine ⟨_, _, .ok (), _, opened, rfl, ⟨.ok (), _, _,
    Or.inl ⟨fun hu => hu, _, kqueueOs_ok (by decide), rfl⟩, rfl, rfl, rfl, rfl⟩, ?_⟩
  intro h
  have hchanges := KqueueCall.kevent.inj (SockAsk.sys.inj (List.cons.inj h).1)
  exact absurd (congrArg List.length hchanges) nofun

end TdRevent.Unix.Kqueue
