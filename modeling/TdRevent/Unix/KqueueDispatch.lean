import TdRevent.Unix.Dispatch

/-!
# The dispatch loop of kqueue

The loop reads the received events from the vector `sysEvents`, in which a
registration collects its changes and which it clears. So every event is
handed to its handler, in order and once, as long as nothing is registered or
deregistered before the last event of a batch is taken up. After such a call
the next index is out of bounds.

The condition lists the ways in which a handler comes to register: calls of
the user, the results of the callbacks, the end of the input, errors, and the
end of the output. It does not depend on the kernel.
-/

namespace TdRevent.Unix.Kqueue

open Interaction Discipline

variable {δ : Type} {sel : Selector SOCKET δ Events Kernel}
  {os : Os SOCKET Kernel KqueueReply}

/-- The moves after which the vector still holds the events that are pending. -/
def KeepsVector : Selector SOCKET δ Events Kernel →
    Move (SockReply (S := SOCKET) KqueueReply) (SockCall SOCKET δ) → Prop
  | sel, .call (.registerSocket _ _) => sel.evts.pending = []
  | sel, .call (.modifySocket _ socket _) =>
      sel.evts.pending = [] ∨ sel.eventMaps socket = none
  | sel, .call (.unregisterSocket _) => sel.evts.pending = []
  | sel, .call (.sendSocket socket data) =>
      sel.evts.pending = [] ∨ ∀ id, sel.eventMaps socket = some id →
        (sel.events id).buffer.isInWrite = true ∨
          ((sel.events id).buffer.write.write data).val = []
  | sel, .call (.writeDone _) => sel.evts.pending = []
  | sel, .call .doSelect => sel.evts.running = false
  | sel, .answer (.acceptCb _ _) ret => ret = RetValue.OVER → sel.evts.pending = []
  | sel, .answer (.readCb _) ret => ret = RetValue.OVER → sel.evts.pending = []
  | sel, .answer (.read _ _) ret =>
      sel.evts.pending = [] ∨ ∃ bytes, ret = .ok bytes ∧ bytes ≠ []
  | sel, .answer (.write _ data) ret =>
      sel.evts.pending = [] ∨ ∃ len, ret = .ok len ∧ len ≠ 0 ∧ len ≠ data.length
  | sel, .answer (.sys (.hand e)) _ =>
      sel.evts.pending.tail = [] ∨ e.filter ≠ .EVFILT_WRITE ∨
        ∀ id, sel.eventMaps (.ofU64 e.ident) = some id →
          (sel.events id).buffer.write.val ≠ []
  | _, _ => True

/-- The history of a batch. -/
structure Events.Handing (evts : Events) : Prop where
  batch : evts.handed ++ evts.pending = evts.batch
  idle : evts.running = false → evts.pending = []
  vector : evts.pending ≠ [] → evts.sysEvents = evts.batch

/-- All of the buffer but the vector. -/
def Events.history (evts : Events) : List KEvent × List KEvent × List KEvent × Bool :=
  (evts.batch, evts.handed, evts.pending, evts.running)

/-- The loop never indexes out of bounds, and a handler leaves the history of
the running batch. -/
def handing :
    Discipline (Selector SOCKET δ Events Kernel) (SockReply (S := SOCKET) KqueueReply) where
  inv sel := sel.evts.Handing
  rel sel t := t.evts.running = sel.evts.running ∧ t.evts.pending = sel.evts.pending ∧
    (sel.evts.running = true → t.evts.batch = sel.evts.batch ∧ t.evts.handed = sel.evts.handed)
  guard q _ := q ≠ .panic
  refl _ := ⟨rfl, rfl, fun _ => ⟨rfl, rfl⟩⟩
  trans := by
    rintro s t u ⟨hrun, hpending, hsame⟩ ⟨hrun', hpending', hsame'⟩
    refine ⟨hrun'.trans hrun, hpending'.trans hpending, fun h => ?_⟩
    obtain ⟨hbatch, hhanded⟩ := hsame h
    obtain ⟨hbatch', hhanded'⟩ := hsame' (hrun.trans h)
    exact ⟨hbatch'.trans hbatch, hhanded'.trans hhanded⟩

theorem Events.Handing.of_history {evts evts' : Events} (h : evts.Handing)
    (hsame : evts'.history = evts.history) (hpending : evts.pending = []) : evts'.Handing := by
  simp only [Events.history, Prod.mk.injEq] at hsame
  obtain ⟨hbatch, hhanded, hpending', hrun⟩ := hsame
  refine ⟨?_, fun _ => hpending'.trans hpending, fun hne => absurd (hpending'.trans hpending) hne⟩
  rw [hbatch, hhanded, hpending']
  exact h.batch

theorem rel_of_history {t : Selector SOCKET δ Events Kernel}
    (hsame : t.evts.history = sel.evts.history) : handing.rel sel t := by
  simp only [Events.history, Prod.mk.injEq] at hsame
  obtain ⟨hbatch, hhanded, hpending, hrun⟩ := hsame
  exact ⟨hrun, hpending, fun _ => ⟨hbatch, hhanded⟩⟩

theorem guard_silent {q : SockAsk SOCKET KqueueCall} (hq : q.Silent) : handing.guard q sel := by
  rintro rfl
  exact hq

/-- The backend may be called when no event is pending. -/
theorem keeps_handing {α : Type}
    {A : Selector SOCKET δ Events Kernel → Selector SOCKET δ Events Kernel → Prop}
    {P : α → Selector SOCKET δ Events Kernel → Selector SOCKET δ Events Kernel → Prop}
    {c : KqueueCode δ α} (hc : Local os A P c) (h : sel.evts.Handing)
    (hpending : sel.evts.pending = [])
    (hP : ∀ r t, P r sel t → t.evts.history = sel.evts.history) :
    handing.Safe (unixRuns kqueue os doSelect KeepsVector) c
      (fun _ t => t.evts.Handing ∧ t.evts.pending = []) sel := by
  apply hc.safe (fun _ _ hq _ => guard_silent hq)
  intro r t ht
  have hsame := hP r t ht
  have hrel := rel_of_history hsame
  exact ⟨⟨h.of_history hsame hpending, hrel.2.1.trans hpending⟩, hrel⟩

theorem history_isLocal (os : Os SOCKET Kernel KqueueReply) :
    (kqueue (δ := δ)).IsLocal os Events.history := kqueue_isLocal (fun _ _ => rfl) os

theorem history_of_told {s t : Selector SOCKET δ Events Kernel}
    (ht : Told Events.history s t) (hs : s.evts = sel.evts) :
    t.evts.history = sel.evts.history := by
  obtain ⟨owners, evts, kernel, hevts, rfl⟩ := ht
  exact hevts.trans (congrArg Events.history hs)

theorem writeOver_handing (h : sel.evts.Handing) (hpending : sel.evts.pending = []) (id : ℕ) :
    Keeps kqueue os doSelect KeepsVector handing (writeOver kqueue id) sel :=
  (keeps_handing ((history_isLocal os).writeOver id) h hpending
    fun _ _ ht => history_of_told ht rfl).mono fun _ _ ht => ht.1

theorem deregister_handing (h : sel.evts.Handing) (hpending : sel.evts.pending = [])
    (socket : SOCKET) (evEvents : EventFlags) :
    Keeps kqueue os doSelect KeepsVector handing (deregister socket evEvents) sel :=
  (keeps_handing ((history_isLocal os).deregister socket evEvents) h hpending
    fun _ _ ht => history_of_told ht rfl).mono fun _ _ ht => ht.1

theorem sendSocket_handing (h : sel.evts.Handing) {socket : SOCKET} {data : List UInt8}
    (hok : KeepsVector sel (.call (.sendSocket socket data))) :
    Keeps kqueue os doSelect KeepsVector handing (Unix.sendSocket kqueue socket data) sel := by
  refine ((history_isLocal os).sendSocket socket data).safe (fun _ _ hq _ => guard_silent hq) ?_
  rintro r t (⟨rfl, -⟩ | ⟨id, hmaps, ⟨rfl, -⟩ | ⟨ht, hflag, hval⟩⟩)
  · exact ⟨h, handing.refl _⟩
  · exact ⟨h, handing.refl _⟩
  · have hsame : t.evts.history = sel.evts.history := history_of_told ht rfl
    rcases hok with hpending | hnone
    · exact ⟨h.of_history hsame hpending, rel_of_history hsame⟩
    · -- the call would not have asked for write events
      simp only [Selector.note, Selector.edit_self] at hflag hval
      rcases hnone id hmaps with hset | hempty
      · exact Bool.noConfusion (hset.symm.trans hflag)
      · exact absurd hempty hval

/-- A handler that returns leaves the buffer of received events. -/
theorem letGo_handing (h : sel.evts.Handing) (id : ℕ) :
    Keeps kqueue os doSelect KeepsVector handing (letGo id) sel := by
  refine (Local.letGo (h := fun evts : Events => evts) id).safe
    (fun _ _ hq _ => guard_silent hq) ?_
  rintro _ _ ⟨owners, evts, kernel, rfl, rfl⟩
  exact ⟨h, handing.refl _⟩

theorem maintains_handing (os : Os SOCKET Kernel KqueueReply) :
    Maintains (kqueue (δ := δ)) os doSelect KeepsVector handing
      fun sel => sel.evts.pending = [] where
  guard _ _ hq _ := hq
  guardClose _ _ _ _ _ := nofun
  editBuffer _ _ _ h _ _ := ⟨h, handing.refl _⟩
  fill _ _ _ h := ⟨h, handing.refl _⟩
  fail _ _ _ h := ⟨h, handing.refl _⟩
  takeData _ _ h := ⟨h, handing.refl _⟩
  drain sel _ id len h _ _ :=
    have hdrained : ((sel.edit id (·.drain len)).note
        (.accepted id ((sel.events id).buffer.write.val.take len))).evts.Handing := h
    ⟨handing.refl _, handing.refl _, fun _ => hdrained, fun _ hpending =>
      writeOver_handing hdrained hpending id⟩
  idle _ _ id h hpending _ _ := writeOver_handing h hpending id
  opens _ _ _ h _ := ⟨h, handing.refl _⟩
  unlink _ _ _ := handing.refl _
  closes _ _ _ _ h _ _ := ⟨h, handing.refl _⟩
  hold _ _ h := ⟨h, handing.refl _⟩
  release _ id h := letGo_handing h id
  register sel buffer entry h hpending := by
    refine (keeps_handing ((history_isLocal os).registerSocket buffer entry) h hpending
      ?_).mono fun _ _ ht => ht.1
    rintro _ t ⟨u, hu, ht⟩
    have hadded : u.evts.history = sel.evts.history := history_of_told hu rfl
    rcases ht with rfl | ht
    · exact hadded
    · have hremoved : t.evts.history = u.evts.history := history_of_told ht rfl
      exact hremoved.trans hadded
  change sel isDel socket entry id h hok hmaps :=
    have hpending := hok.resolve_right fun hnone => absurd (hmaps.symm.trans hnone) nofun
    (keeps_handing ((history_isLocal os).changeEvent id isDel socket entry) h hpending
      fun _ _ ht => history_of_told ht rfl).mono fun _ _ ht => ⟨ht.1, fun _ _ => ht.2⟩
  send _ _ _ h hok := sendSocket_handing h hok
  deregister _ socket h hpending _ := deregister_handing h hpending socket _
  ended _ _ socket h hpending _ := deregister_handing h hpending socket _
  dropKeep _ _ hpending hrel := hrel.2.1.trans hpending
  dropCall _ _ hpending := hpending
  dropAccept _ _ _ hok := hok rfl
  dropRead _ _ hok := hok rfl
  dropEof _ _ _ _ hok hend := hok.resolve_right fun ⟨bytes, hr, hne⟩ => hne (hend bytes hr)
  dropWrite _ _ _ _ hok hend := hok.resolve_right fun ⟨len, hr, hzero, hall⟩ =>
    (hend len hr).elim hzero hall

/-! ## The loop -/

/-- The handler of one event. -/
theorem handler_handing (os : Os SOCKET Kernel KqueueReply) (h : sel.evts.Handing) {e : KEvent}
    (hidle : e.filter = .EVFILT_WRITE → ∀ id, sel.eventMaps (.ofU64 e.ident) = some id →
      (sel.events id).buffer.write.val = [] → sel.evts.pending = []) :
    Keeps kqueue os doSelect KeepsVector handing (do
      .when (e.filter = .EVFILT_READ) (readDone (.ofU64 e.ident))
      .when (e.filter = .EVFILT_WRITE) (writeDone (.ofU64 e.ident))) sel := by
  have hm := maintains_handing (δ := δ) os
  refine Safe.bind (Safe.mono (Q := fun _ t => t.evts.Handing ∧ (e.filter = .EVFILT_WRITE →
    ∀ id, t.eventMaps (.ofU64 e.ident) = some id → (t.events id).buffer.write.val = [] →
      t.evts.pending = [])) (Safe.when ?_ fun _ => ⟨h, hidle⟩) fun _ t ht => ?_)
  · intro hread
    exact (hm.readDone h).mono fun _ _ ht =>
      ⟨ht, fun hwrite => absurd (hread.symm.trans hwrite) (by decide)⟩
  · exact Safe.when (fun hwrite => hm.writeDone ht.1 (ht.2 hwrite)) fun _ => ht.1

/-- Taking up an event. -/
theorem wp_hand (e : KEvent) :
    (hand e).wp (handing.contract (unixRuns (δ := δ) kqueue os doSelect KeepsVector))
      (fun _ t => KeepsVector sel (.answer (.sys (.hand e)) ()) ∧ ∃ k, t = { sel with
        kernel := k
        evts := { sel.evts with
          handed := sel.evts.handed ++ [e]
          pending := sel.evts.pending.tail } }) sel := by
  unfold hand
  refine (Code.wp_bind _ _ _ _).mpr ⟨⟨guard_silent trivial, fun hu => hu.elim⟩, fun _ t ht => ?_⟩
  rcases ht with ⟨-, ⟨k, -, rfl⟩, hok⟩ | ⟨hu, -⟩
  · exact ⟨hok, k, rfl⟩
  · exact hu.elim

/-- The loop, from the index of the first event that is pending. -/
theorem dispatch_handing (os : Os SOCKET Kernel KqueueReply) (left : ℕ)
    (h : sel.evts.Handing) (hrun : sel.evts.running = true)
    (hleft : sel.evts.pending.length = left) :
    (dispatch left sel.evts.handed.length).wp
      (handing.contract (unixRuns (δ := δ) kqueue os doSelect KeepsVector))
      (fun _ t => t.evts.Handing ∧ t.evts.running = true ∧ t.evts.pending = []) sel := by
  induction left generalizing sel with
  | zero => exact ⟨h, hrun, List.length_eq_zero_iff.mp hleft⟩
  | succ left ih =>
      cases hpending : sel.evts.pending with
      | nil => exact absurd (hpending ▸ hleft) nofun
      | cons e rest =>
          have hbatch : sel.evts.handed ++ e :: rest = sel.evts.batch := hpending ▸ h.batch
          have hvector : sel.evts.sysEvents = sel.evts.batch := h.vector (hpending ▸ nofun)
          have hget : sel.evts.sysEvents[sel.evts.handed.length]? = some e := by
            rw [hvector, ← hbatch]
            simp
          unfold dispatch
          apply (Code.wp_bind _ _ _ _).mpr
          simp only [Code.wp_read, hget]
          refine (Code.wp_bind _ _ _ _).mpr (Code.wp_mono _ ?_ (wp_hand e))
          rintro _ t ⟨hok, k, rfl⟩
          rw [hpending, List.tail_cons]
          set t : Selector SOCKET δ Events Kernel := { sel with
            kernel := k
            evts := { sel.evts with handed := sel.evts.handed ++ [e], pending := rest } } with ht
          have htaken : t.evts.Handing := by
            refine ⟨?_, fun hstop => Bool.noConfusion (hrun.symm.trans hstop), fun _ => hvector⟩
            exact (List.append_assoc ..).trans hbatch
          have hidle : e.filter = .EVFILT_WRITE → ∀ id, t.eventMaps (.ofU64 e.ident) = some id →
              (t.events id).buffer.write.val = [] → t.evts.pending = [] := by
            intro hwrite id hmaps hval
            rcases hok with hlast | hother | hfull
            · rw [hpending] at hlast
              exact hlast
            · exact absurd hwrite hother
            · exact absurd hval (hfull id hmaps)
          have hhandler := (Code.wp_bind _ _ _ _).mp (handler_handing os htaken hidle)
          refine (Code.wp_bind _ _ _ _).mpr (Code.wp_mono _ (fun _ u hu => ?_) hhandler)
          refine (Code.wp_bind _ _ _ _).mpr (Code.wp_mono _ ?_ hu)
          rintro _ u ⟨hinv, hrun', hpending', hsame⟩
          have hhanded : u.evts.handed = sel.evts.handed ++ [e] := (hsame hrun).2
          have hnext := ih hinv (hrun'.trans hrun) (by
            rw [hpending']
            rw [hpending] at hleft
            exact Nat.succ.inj hleft)
          rwa [hhanded, List.length_append] at hnext

theorem doSelect_handing (h : sel.evts.Handing) (hrun : sel.evts.running = false) :
    Keeps kqueue os doSelect KeepsVector handing (doSelect (δ := δ)) sel := by
  have hidle : sel.evts.pending = [] := h.idle hrun
  apply Safe.bind
  apply Safe.ask (fun hu => hu) (guard_silent (q := .sys .keventTs) trivial)
  rintro r _ ⟨⟨k, -, rfl⟩, -⟩
  refine ⟨?_, handing.refl _⟩
  cases r with
  | error e => exact Safe.pure h
  | ok events =>
      refine (Code.wp_bind _ _ _ _).mpr ((Code.wp_bind _ _ _ _).mpr ?_)
      have hstart : Events.Handing ⟨events, events, [], events, true⟩ :=
        ⟨rfl, fun hstop => Bool.noConfusion hstop, fun _ => rfl⟩
      let start : Selector SOCKET δ Events Kernel := { sel with
        kernel := k
        evts := ⟨events, events, [], events, true⟩ }
      refine Code.wp_mono _ ?_ (dispatch_handing os events.length
        (show start.evts.Handing from hstart) rfl rfl)
      rintro _ t ⟨ht, -, hpending⟩
      refine ⟨⟨ht.batch, fun _ => hpending, fun hne => absurd hpending hne⟩, ?_⟩
      refine ⟨hrun.symm, hpending.trans hidle.symm, fun hstart => ?_⟩
      exact Bool.noConfusion (hrun.symm.trans hstart)

/-! ## The main result -/

/-- In every run whose moves leave the vector to the loop, no index is out of
bounds, the events of a batch are handed to the handlers in order, and a batch
that is over was handed out. -/
theorem doSelect_hands {kernel : Kernel}
    {c : Config (Selector SOCKET δ Events Kernel) (SockReply (S := SOCKET) KqueueReply) Unit}
    (hreach : (unixRuns kqueue os doSelect KeepsVector).Reaches (.new .new kernel) c) :
    (∀ f stack, c.stack = f :: stack → f.question ≠ .panic) ∧
      ((unixRuns (δ := δ) kqueue os doSelect KeepsVector).Open c.stack →
        c.state.evts.handed ++ c.state.evts.pending = c.state.evts.batch ∧
          (c.state.evts.running = false → c.state.evts.handed = c.state.evts.batch)) := by
  have hkeeps : handing.Keeps (unixRuns (δ := δ) kqueue os doSelect KeepsVector) :=
    (maintains_handing os).keeps (fun _ _ hpending => hpending)
      fun sel h hrun => doSelect_handing h hrun
  have hnew : (Selector.new .new kernel : Selector SOCKET δ Events Kernel).evts.Handing :=
    ⟨rfl, fun _ => rfl, fun hne => absurd rfl hne⟩
  obtain ⟨t, stack⟩ := c
  refine ⟨fun f stack' hstack => ?_, fun hopen => ?_⟩
  · subst hstack
    by_cases huser : SockAsk.user f.question
    · rintro hpanic
      rw [hpanic] at huser
      exact huser
    · exact reaches_guard hkeeps hreach hnew huser
  · have h : t.evts.Handing := reaches_inv hkeeps hreach hnew hopen
    refine ⟨h.batch, fun hstop => ?_⟩
    have hall := h.batch
    rwa [h.idle hstop, List.append_nil] at hall

/-- Two sockets have input, and their handlers only read it. -/
theorem doSelect_hands_two :
    ∃ c, (unixRuns kqueue kqueueOs doSelect KeepsVector).Reaches
        (.new .new ⟨fun _ => false, fun _ => ∅⟩ : Selector SOCKET Unit _ _) c ∧
      c.state.evts.batch.map KEvent.ident = [3, 4] ∧
      c.state.evts.handed = c.state.evts.batch := by
  have start := System.Reaches.refl (S := unixRuns kqueue kqueueOs doSelect KeepsVector)
    (.new .new ⟨fun _ => false, fun _ => ∅⟩ : Selector SOCKET Unit _ _)
  have opened := ((start.call .openSocket trivial
    ⟨trivial, trivial⟩).answer (3 : SOCKET) ⟨⟨_, ⟨rfl, rfl⟩, rfl⟩, trivial⟩).call .openSocket
    trivial ⟨trivial, trivial⟩ |>.answer (4 : SOCKET) ⟨⟨_, ⟨rfl, rfl⟩, rfl⟩, trivial⟩
  have first := (opened.call (.registerSocket (.new 3 0) (.newEvent 3 EventFlags.FLAG_READ
    none none none none)) trivial ⟨trivial, rfl⟩).answer (.ok ())
    ⟨⟨_, kqueueOs_ok (by decide), rfl⟩, trivial⟩
  have second := (first.call (.registerSocket (.new 4 0) (.newEvent 4 EventFlags.FLAG_READ
    none none none none)) trivial ⟨trivial, rfl⟩).answer (.ok ())
    ⟨⟨_, kqueueOs_ok (by decide), rfl⟩, trivial⟩
  have received := (second.call .doSelect trivial ⟨trivial, rfl⟩).answer
    (.ok [⟨3, .EVFILT_READ, ∅⟩, ⟨4, .EVFILT_READ, ∅⟩])
    ⟨⟨_, ⟨rfl, by rintro _ ⟨⟩; decide⟩, rfl⟩, trivial⟩
  have third := (received.answer () ⟨⟨_, rfl, rfl⟩, Or.inr (Or.inl nofun)⟩).answer (.ok [7])
    ⟨⟨rfl, by rintro _ ⟨⟩; exact EventBuffer.new_room (3 : SOCKET) 0⟩,
      Or.inr ⟨[7], rfl, nofun⟩⟩
  have finished := (third.answer () ⟨⟨_, rfl, rfl⟩, Or.inr (Or.inl nofun)⟩).answer (.ok [8])
    ⟨⟨rfl, by rintro _ ⟨⟩; exact EventBuffer.new_room (4 : SOCKET) 0⟩,
      Or.inr ⟨[8], rfl, nofun⟩⟩
  exact ⟨_, finished, rfl, ((doSelect_hands finished).2 trivial).2 rfl⟩

/-- The first of two sockets is at the end of its input. Unregistering it
clears the vector, and the loop indexes out of bounds. -/
theorem doSelect_panics :
    ∃ c f stack, (kqueueSystem Unit).Reaches (.new .new ⟨fun _ => false, fun _ => ∅⟩) c ∧
      c.stack = f :: stack ∧ f.question = .panic ∧ c.state.evts.batch.length = 2 := by
  have start := System.Reaches.refl (S := kqueueSystem Unit)
    (.new .new ⟨fun _ => false, fun _ => ∅⟩)
  have opened := ((start.call .openSocket trivial
    trivial).answer (3 : SOCKET) ⟨_, ⟨rfl, rfl⟩, rfl⟩).call .openSocket
    trivial trivial |>.answer (4 : SOCKET) ⟨_, ⟨rfl, rfl⟩, rfl⟩
  have first := (opened.call (.registerSocket (.new 3 0) (.newEvent 3 EventFlags.FLAG_READ
    none none none none)) trivial trivial).answer (.ok ()) ⟨_, kqueueOs_ok (by decide), rfl⟩
  have second := (first.call (.registerSocket (.new 4 0) (.newEvent 4 EventFlags.FLAG_READ
    none none none none)) trivial trivial).answer (.ok ()) ⟨_, kqueueOs_ok (by decide), rfl⟩
  have received := (second.call .doSelect trivial trivial).answer
    (.ok [⟨3, .EVFILT_READ, ∅⟩, ⟨4, .EVFILT_READ, ∅⟩])
    ⟨_, ⟨rfl, by rintro _ ⟨⟩; decide⟩, rfl⟩
  have read := (received.answer () ⟨_, rfl, rfl⟩).answer (.ok [])
    ⟨rfl, by rintro _ ⟨⟩; exact Nat.zero_le _⟩
  have cleared := (read.answer () ⟨_, rfl, rfl⟩).answer (.error (.os 9))
    ⟨_, ⟨rfl, iff_of_false nofun (by decide)⟩, rfl⟩
  exact ⟨_, _, _, cleared, rfl, rfl, rfl⟩

end TdRevent.Unix.Kqueue
