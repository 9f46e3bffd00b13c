import TdRevent.MainLoop
import TdRevent.Polls

/-!
# What one round of the main loop reports

`run` sleeps after a round in which `runOnce` returned `false`. A comment says that
this is for rounds in which nothing was processed. `runOnce` negates the result of
`timerProcess`, so it reports nothing exactly for a round without events in which a
timer was fired, and it reports something for a round that was idle.

## Implementation notes

Whether a round reports what it did is decided by the events that the wait returned,
the clock, and the timers before the round.
-/

namespace TdRevent

open Interaction

variable {S δ Sel κ Op : Type} {ρ : κ → Type}

namespace EventLoop

variable {ans : (q : TimerAsk S δ) → EventLoop S δ → TimerReply q → EventLoop S δ → Prop}
  {ev ev' : EventLoop S δ} {tr : List (Exchange (EventLoop S δ) (TimerReply (S := S) (δ := δ)))}
  {now : UInt64} {fuel n : ℕ} {isOp : Bool} {ret : Bool × ℕ}

/-- The flag is set exactly if a timer was fired. -/
theorem trace_fireLoop (h : (fireLoop now fuel isOp n).Trace ans ev tr ret ev') :
    n ≤ ret.2 ∧ (ret.1 = true ↔ isOp = true ∨ n < ret.2) := by
  induction fuel generalizing isOp n ev tr with
  | zero =>
      obtain ⟨r, -⟩ := h
      exact nomatch r
  | succ fuel ih =>
      rw [fireLoop, Code.trace_read_then] at h
      rcases htick : ev.timer.tickTime now with ⟨_ | entry, timer⟩
      · rw [htick] at h
        obtain ⟨-, rfl, -⟩ := h
        simp
      · simp only [htick] at h
        obtain ⟨_, _, _, h⟩ := h.rest
        obtain ⟨hle, hop⟩ := ih h
        exact ⟨by omega, iff_of_true (hop.mpr (Or.inl rfl)) (Or.inr hle)⟩

/-- A timer is fired exactly if one is due. -/
theorem lt_fired_iff (h : (fireLoop now fuel isOp n).Trace ans ev tr ret ev') :
    n < ret.2 ↔ ev.timer.due now ≠ [] := by
  cases fuel with
  | zero =>
      obtain ⟨r, -⟩ := h
      exact nomatch r
  | succ fuel =>
      rw [fireLoop, Code.trace_read_then] at h
      rcases htick : ev.timer.tickTime now with ⟨_ | entry, timer⟩
      · rw [htick] at h
        obtain ⟨-, rfl, -⟩ := h
        have hdue : ev.timer.due now = [] := List.filter_eq_nil_iff.mpr fun f hf => by
          simpa using (Timer.tickTime_eq_none htick).2 f hf
        simp [hdue]
      · simp only [htick] at h
        obtain ⟨_, _, _, h⟩ := h.rest
        obtain ⟨key, hmem, hle, -⟩ := Timer.tickTime_eq_some htick
        exact iff_of_true (trace_fireLoop h).1
          (List.ne_nil_of_mem (Timer.mem_due.mpr ⟨hmem, hle⟩))

/-- A pass reads the clock first, and says whether a timer was due then. -/
theorem trace_timerPass (h : (timerPass fuel).Trace ans ev tr ret ev') :
    ∃ now u rest, tr = ⟨.nowMicro 0, ev, now, u⟩ :: rest ∧ (ret.1 = true ↔ ret.2 ≠ 0) ∧
      (ret.2 ≠ 0 ↔ u.timer.due now ≠ []) := by
  obtain ⟨now, u, rest, -, rfl, hpass⟩ := (Code.trace_query_then _ _ _).mp h
  obtain ⟨ret', v, tr₁, tr₂, rfl, hloop, hend⟩ :=
    (Code.trace_bind _ _ _).mp ((Code.trace_modify_then _ _ _).mp hpass)
  obtain ⟨rfl, rfl, rfl⟩ := (Code.trace_modify_then _ _ _).mp hend
  refine ⟨now, u, _, rfl, ?_, ?_⟩
  · rw [(trace_fireLoop hloop).2, Nat.pos_iff_ne_zero]
    simp
  · have hfired := lt_fired_iff hloop
    rwa [Nat.pos_iff_ne_zero] at hfired

end EventLoop

/-- `runOnce` reports `true` exactly if it dispatched an event or fired a timer. -/
def Outcome.Right (o : Outcome) : Prop := o.ret = .ok true ↔ o.dispatched ≠ 0 ∨ o.fired ≠ 0

/-- Where the report is right, `false` stands for a call that processed nothing. -/
theorem Outcome.Right.idle_iff {o : Outcome} (h : o.Right) {b : Bool} (hb : o.ret = .ok b) :
    o.ret = .ok false ↔ o.dispatched = 0 ∧ o.fired = 0 :=
  calc o.ret = .ok false ↔ ¬ o.ret = .ok true := by cases b <;> simp [hb]
    _ ↔ ¬ (o.dispatched ≠ 0 ∨ o.fired ≠ 0) := not_congr h
    _ ↔ o.dispatched = 0 ∧ o.fired = 0 := by omega

/-- The wait failed; or it returned an event that goes to a handler; or it returned
events and a timer that was queued before is due when the clock is read. -/
inductive Works (wait : κ) (seen : ρ wait → Except IoError (List Bool)) :
    List (Exchange (MainLoop S δ Sel) (MainReply (S := S) (δ := δ) ρ)) → Prop
  | failed {s ret u rest e} (hret : seen ret = .error e) :
      Works wait seen (⟨.selector wait, s, ret, u⟩ :: rest)
  | handled {s ret u rest flags} (hret : seen ret = .ok flags) (hflags : true ∈ flags) :
      Works wait seen (⟨.selector wait, s, ret, u⟩ :: rest)
  | due {s ret u v now w rest flags} (hret : seen ret = .ok flags) (hflags : flags ≠ [])
      (hdue : s.timers.timer.due now ≠ []) :
      Works wait seen
        (⟨.selector wait, s, ret, u⟩ :: ⟨.timers (.nowMicro 0), v, now, w⟩ :: rest)

/-- Where no event goes to a handler, an event and a due timer are needed. -/
theorem works_iff {wait : κ} {seen : ρ wait → Except IoError (List Bool)}
    {s u v w : MainLoop S δ Sel} {ret : ρ wait} {now : UInt64} {flags : List Bool}
    {rest : List (Exchange (MainLoop S δ Sel) (MainReply (S := S) (δ := δ) ρ))}
    (hseen : seen ret = .ok flags) (hflags : true ∉ flags) :
    Works wait seen (⟨.selector wait, s, ret, u⟩ :: ⟨.timers (.nowMicro 0), v, now, w⟩ :: rest) ↔
      flags ≠ [] ∧ s.timers.timer.due now ≠ [] := by
  constructor
  · intro h
    cases h with
    | failed hret => cases hseen.symm.trans hret
    | handled hret htrue =>
        cases hseen.symm.trans hret
        exact absurd htrue hflags
    | due hret hne hdue =>
        cases hseen.symm.trans hret
        exact ⟨hne, hdue⟩
  · rintro ⟨hne, hdue⟩
    exact .due hseen hne hdue

section

variable [Zero S] {Y : System Sel ρ Op Unit}
  {doSelect : Code Sel ρ (Except IoError (ℕ × ℕ))} {wait : κ}
  {seen : ρ wait → Except IoError (List Bool)} {fuel rounds : ℕ} {s t : MainLoop S δ Sel}
  {tr : List (Exchange (MainLoop S δ Sel) (MainReply (S := S) (δ := δ) ρ))} {o : Outcome}

/-- A question of the selector that is no callback leaves the timers. -/
theorem timers_of_during {q : κ} {r : ρ q} (hq : ¬ Y.user q)
    (h : (mainSystem Y doSelect).during (.selector q) s r t) : t.timers = s.timers := by
  rcases h with ⟨-, sel, -, rfl⟩ | ⟨hq', -⟩
  · rfl
  · exact absurd hq' hq

/-- The clock leaves the queue. -/
theorem timer_of_during {step now : UInt64}
    (h : (mainSystem Y doSelect).during (.timers (.nowMicro step)) s now t) :
    t.timers.timer = s.timers.timer := by
  rcases h with ⟨-, ev, rfl, rfl⟩ | ⟨hq', -⟩
  · rfl
  · exact nomatch hq'

/-- The wait of `doSelect` within the loop. Until an event goes to a handler the
timers stay as they are. -/
theorem trace_doSelect (hpolls : Polls doSelect wait seen) (hwait : ¬ Y.user wait)
    {r : Except IoError (ℕ × ℕ)}
    (h : (doSelect.within MainLoop.selectorPart).Trace (mainSystem Y doSelect).during s tr r t) :
    ∃ (ret : ρ wait) (s' u : MainLoop S δ Sel) (rest : List _),
      tr = ⟨.selector wait, s', ret, u⟩ :: rest ∧ s'.timers = s.timers ∧
      Polled (seen ret) r rest ∧ (rest = [] → t.timers = s.timers) := by
  obtain ⟨tr', hsees, htrace⟩ := h.of_within (fun _ _ _ _ => True)
    fun _ _ _ _ _ => trivial
  obtain ⟨ret', u', rest', -, rfl, hpolled⟩ := hpolls htrace
  obtain ⟨s', ret, u, rest, rfl, -, rfl, -, hrest⟩ := Part.sees_cons hsees
  obtain ⟨hbefore, hafter⟩ := h.framed (f := MainLoop.timers) fun _ _ => rfl
  refine ⟨ret, s', u, rest, rfl, hbefore, hpolled.of_forall₂ hrest, ?_⟩
  rintro rfl
  have hkept : u.timers = s'.timers := timers_of_during hwait (h.answered _ List.mem_cons_self)
  exact hafter.trans (hkept.trans hbefore)

/-- The pass of `timerProcess` within the loop. -/
theorem trace_timers {ret : Bool × ℕ}
    (h : ((EventLoop.timerPass fuel).within MainLoop.timersPart).Trace
      (mainSystem Y doSelect).during s tr ret t) :
    ∃ (now : UInt64) (v w : MainLoop S δ Sel) (rest : List _),
      tr = ⟨.timers (.nowMicro 0), v, now, w⟩ :: rest ∧
      (ret.1 = true ↔ ret.2 ≠ 0) ∧ (ret.2 ≠ 0 ↔ s.timers.timer.due now ≠ []) := by
  obtain ⟨tr', hsees, htrace⟩ := h.of_within (fun _ _ _ _ => True)
    fun _ _ _ _ _ => trivial
  obtain ⟨now', u', rest', rfl, hop, hfired⟩ := EventLoop.trace_timerPass htrace
  obtain ⟨v, now, w, rest, rfl, hbefore, rfl, rfl, hrest⟩ := Part.sees_cons hsees
  have hkept : w.timers.timer = v.timers.timer := timer_of_during (h.answered _ List.mem_cons_self)
  have hqueue : w.timers.timer = s.timers.timer := hkept.trans (congrArg EventLoop.timer hbefore)
  exact ⟨now, v, w, rest, rfl, hop, hqueue ▸ hfired⟩

/-- The exact condition for one round, whatever follows it. -/
theorem right_iff_works (hpolls : Polls doSelect wait seen) (hwait : ¬ Y.user wait)
    (h : (EventLoop.runOnce doSelect fuel).Trace (mainSystem Y doSelect).during s tr o t)
    (more : List (Exchange (MainLoop S δ Sel) (MainReply (S := S) (δ := δ) ρ))) :
    o.Right ↔ Works wait seen (tr ++ more) := by
  obtain ⟨r, u, tr₁, tr₂, rfl, hselect, hrest⟩ := (Code.trace_bind _ _ _).mp h
  obtain ⟨ret, s', u', rest, rfl, hs', hpolled, hkept⟩ := trace_doSelect hpolls hwait hselect
  generalize hseen : seen ret = flags at hpolled
  cases hpolled with
  | failed e =>
      obtain ⟨-, rfl, -⟩ := hrest
      exact iff_of_true (by simp [Outcome.Right]) (.failed hseen)
  | @idle flags hflags =>
      obtain ⟨ret', v, tr₃, tr₄, rfl, hpass, rfl, rfl, rfl⟩ := (Code.trace_bind _ _ _).mp hrest
      obtain ⟨now, v', w, rest, rfl, hop, hfired⟩ := trace_timers hpass
      change _ ↔ Works wait seen (⟨.selector wait, s', ret, u'⟩ ::
        ⟨.timers (.nowMicro 0), v', now, w⟩ :: (rest ++ [] ++ more))
      rw [works_iff hseen hflags, hs', ← hkept rfl, ← hfired]
      -- the negation of `isOp` agrees with what was fired only if the events decide
      have hright : Outcome.Right ⟨.ok (flags.length ≠ 0 ∨ ¬ ret'.1), 0, ret'.2⟩ ↔
          ((flags ≠ [] ∨ ¬ ret'.2 ≠ 0) ↔ ret'.2 ≠ 0) := by
        simp [Outcome.Right, hop]
      rw [hright]
      tauto
  | busy hflags hpos =>
      obtain ⟨ret', v, tr₃, tr₄, rfl, hpass, rfl, rfl, rfl⟩ := (Code.trace_bind _ _ _).mp hrest
      have hlen := List.length_pos_of_mem hflags
      refine iff_of_true (iff_of_true ?_ (Or.inl hpos.ne')) (.handled hseen hflags)
      simp [hlen.ne']

end

/-! ## The rounds of a run -/

/-- A round of the loop of `run`: what it asked, what it did, and whether it slept. -/
structure Round (S δ Sel : Type) {κ : Type} (ρ : κ → Type) where
  exchanges : List (Exchange (MainLoop S δ Sel) (MainReply (S := S) (δ := δ) ρ))
  outcome : Outcome
  slept : Bool

/-- The report is right, and the round sleeps exactly if it processed nothing. An
error ends `run` instead. -/
def Round.Right (r : Round S δ Sel ρ) : Prop :=
  r.outcome.Right ∧ ∀ b, r.outcome.ret = .ok b →
    (r.slept = true ↔ r.outcome.dispatched = 0 ∧ r.outcome.fired = 0)

/-- The loop of `run` makes the round. -/
def Turns (ans : (q : MainAsk S δ κ) → MainLoop S δ Sel → MainReply ρ q → MainLoop S δ Sel → Prop)
    (doSelect : Code Sel ρ (Except IoError (ℕ × ℕ))) (fuel : ℕ) (s : MainLoop S δ Sel)
    (r : Round S δ Sel ρ) (t : MainLoop S δ Sel) : Prop :=
  s.run = true ∧
    (EventLoop.round doSelect fuel).Trace ans s r.exchanges (r.outcome, r.slept) t

section

variable {ans : (q : MainAsk S δ κ) → MainLoop S δ Sel → MainReply ρ q → MainLoop S δ Sel → Prop}
  {doSelect : Code Sel ρ (Except IoError (ℕ × ℕ))} {fuel rounds : ℕ} {s t : MainLoop S δ Sel}
  {tr : List (Exchange (MainLoop S δ Sel) (MainReply (S := S) (δ := δ) ρ))}

/-- A round is a call of `runOnce`, and it sleeps exactly if that returned `false`. -/
theorem trace_round {ret : Outcome × Bool}
    (h : (EventLoop.round doSelect fuel).Trace ans s tr ret t) :
    ∃ tr₁ u more, tr = tr₁ ++ more ∧ (EventLoop.runOnce doSelect fuel).Trace ans s tr₁ ret.1 u ∧
      (ret.2 = true ↔ ret.1.ret = .ok false) := by
  obtain ⟨o, u, tr₁, more, rfl, honce, hsleep⟩ := (Code.trace_bind _ _ _).mp h
  obtain ⟨ret', dispatched, fired⟩ := o
  rcases ret' with e | _ | _
  · obtain ⟨-, rfl, -⟩ := hsleep
    exact ⟨tr₁, u, more, rfl, honce, by simp⟩
  · obtain ⟨-, v, tr₂, -, rfl, -, rfl, -⟩ := (Code.trace_query_then _ _ _).mp hsleep
    exact ⟨tr₁, u, _, rfl, honce, by simp⟩
  · obtain ⟨-, rfl, -⟩ := hsleep
    exact ⟨tr₁, u, more, rfl, honce, by simp⟩

/-- An execution of the loop is a path of rounds. -/
theorem trace_runLoop {ret : Except IoError Unit}
    (h : (EventLoop.runLoop doSelect fuel rounds).Trace ans s tr ret t) :
    ∃ rs, Path (Turns ans doSelect fuel) s rs t ∧ tr = rs.flatMap Round.exchanges := by
  induction rounds generalizing s tr with
  | zero =>
      obtain ⟨r, -⟩ := h
      exact nomatch r
  | succ rounds ih =>
      rw [EventLoop.runLoop, Code.trace_read_then] at h
      by_cases hrun : s.run
      · simp only [if_pos hrun] at h
        obtain ⟨⟨o, slept⟩, u, tr₁, tr₂, rfl, hround, hrest⟩ := (Code.trace_bind _ _ _).mp h
        have hturn : Turns ans doSelect fuel s ⟨tr₁, o, slept⟩ u := ⟨hrun, hround⟩
        cases hret : o.ret with
        | error e =>
            simp only [hret] at hrest
            obtain ⟨rfl, -, rfl⟩ := hrest
            exact ⟨[⟨tr₁, o, slept⟩], .cons hturn (.nil _), by simp⟩
        | ok b =>
            simp only [hret] at hrest
            obtain ⟨rs, hpath, rfl⟩ := ih hrest
            exact ⟨⟨tr₁, o, slept⟩ :: rs, .cons hturn hpath, by simp⟩
      · simp only [if_neg hrun] at h
        obtain ⟨rfl, -, rfl⟩ := h
        exact ⟨[], .nil _, rfl⟩

end

/-- In every call of `runOnce`, and in every round of every `run`, the report is
right exactly if the round works. -/
structure ReportsWork (S δ : Type) [Zero S] (Y : System Sel ρ Op Unit)
    (doSelect : Code Sel ρ (Except IoError (ℕ × ℕ))) (wait : κ)
    (seen : ρ wait → Except IoError (List Bool)) : Prop where
  once : ∀ fuel (s : MainLoop S δ Sel) tr o t,
    (EventLoop.runOnce doSelect fuel).Trace (mainSystem Y doSelect).during s tr o t →
      (o.Right ↔ Works wait seen tr)
  rounds : ∀ fuel n (s : MainLoop S δ Sel) tr ret t,
    (EventLoop.run doSelect fuel n).Trace (mainSystem Y doSelect).during s tr ret t →
      ∃ rs, Path (Turns (mainSystem Y doSelect).during doSelect fuel) { s with run := true }
          rs t ∧
        tr = rs.flatMap Round.exchanges ∧ ∀ r ∈ rs, r.Right ↔ Works wait seen r.exchanges

/-- What holds of a call holds of the rounds. -/
theorem reports_work_of_polls [Zero S] {Y : System Sel ρ Op Unit}
    {doSelect : Code Sel ρ (Except IoError (ℕ × ℕ))} {wait : κ}
    {seen : ρ wait → Except IoError (List Bool)} (hpolls : Polls doSelect wait seen)
    (hwait : ¬ Y.user wait) : ReportsWork S δ Y doSelect wait seen where
  once fuel s tr o t h := by
    have hright := right_iff_works hpolls hwait h []
    rwa [List.append_nil] at hright
  rounds fuel n s tr ret t h := by
    obtain ⟨rs, hpath, htr⟩ := trace_runLoop ((Code.trace_modify_then _ _ _).mp h)
    refine ⟨rs, hpath, htr, fun r hr => ?_⟩
    obtain ⟨s', t', -, hround⟩ := hpath.step_of_mem hr
    obtain ⟨tr₁, u, more, heq, honce, hslept⟩ := trace_round hround
    rw [heq, ← right_iff_works hpolls hwait honce more]
    exact ⟨fun hright => hright.1, fun hright => ⟨hright, fun b hb =>
      hslept.trans (hright.idle_iff hb)⟩⟩

/-- The exact condition under which a round reports what it did and `run` sleeps
after the rounds that processed nothing, for each selector. -/
theorem runOnce_reports_work
    (eos : Unix.Os Unix.SOCKET Unix.Epoll.Interest Unix.Epoll.EpollReply)
    (kos : Unix.Os Unix.SOCKET Unix.Kqueue.Kernel Unix.Kqueue.KqueueReply) :
    ReportsWork Unix.SOCKET δ
      (Unix.unixSystem Unix.Epoll.epoll eos (Unix.Epoll.doSelect (δ := δ)))
      Unix.Epoll.doSelectCounted (.sys .epollWait) Unix.Epoll.seen ∧
    ReportsWork Unix.SOCKET δ
      (Unix.unixSystem Unix.Kqueue.kqueue kos (Unix.Kqueue.doSelect (δ := δ)))
      Unix.Kqueue.doSelectCounted (.sys .keventTs) Unix.Kqueue.seen ∧
    ReportsWork Win.SOCKET δ (Win.winSystem Win.SOCKET δ)
      Win.doSelectCounted .getMany Win.seen :=
  ⟨reports_work_of_polls Unix.Epoll.polls nofun, reports_work_of_polls Unix.Kqueue.polls nofun,
    reports_work_of_polls Win.polls nofun⟩

/-- A loop on epoll. -/
abbrev EpollLoop := MainLoop Unix.SOCKET Unit
  (Unix.Selector Unix.SOCKET Unit (List Unix.Epoll.EpollEvent) Unix.Epoll.Interest)

/-- Before anything is registered, with these timers. -/
def epollLoop (timer : Timer Unix.SOCKET Unit) : EpollLoop where
  run := true
  timers := { EventLoop.new 9 0 fun _ => (.OK, 0) with timer := timer }
  selector := .new [] fun _ => none

/-- The rounds of the loop on epoll. -/
def EpollTurns (fuel : ℕ) (s : EpollLoop) :=
  Turns (mainSystem (Unix.Epoll.epollSystem Unit) Unix.Epoll.doSelectCounted).during
    Unix.Epoll.doSelectCounted fuel s

theorem runOnce_reports_work_event :
    ∃ tr t, (EventLoop.runOnce Unix.Epoll.doSelectCounted 1).Trace
        (mainSystem (Unix.Epoll.epollSystem Unit) Unix.Epoll.doSelectCounted).during
        (epollLoop (.new 9)) tr ⟨.ok true, 1, 0⟩ t ∧
      Works (.sys .epollWait) Unix.Epoll.seen tr := by
  have htrace : ∃ tr t, (EventLoop.runOnce Unix.Epoll.doSelectCounted 1).Trace
      (mainSystem (Unix.Epoll.epollSystem Unit) Unix.Epoll.doSelectCounted).during
      (epollLoop (.new 9)) tr ⟨.ok true, 1, 0⟩ t :=
    ⟨[_, _], _, .ok [⟨{.EPOLLIN}, 5⟩], _, [_], Or.inl ⟨nofun, _, ⟨_, rfl, rfl⟩, rfl⟩, rfl,
      (0 : UInt64), _, [], Or.inl ⟨nofun, _, rfl, rfl⟩, rfl, rfl, rfl, rfl⟩
  obtain ⟨tr, t, htrace⟩ := htrace
  have hright := (runOnce_reports_work Unix.Epoll.epollOs Unix.Kqueue.kqueueOs).1.once 1 _ tr _ t
    htrace
  exact ⟨tr, t, htrace, hright.mp (by simp [Outcome.Right])⟩

/-- A round without events and timers does not sleep, and one that fires a timer does. -/
theorem idle_round_reports_work :
    (∃ tr t, EpollTurns 1 (epollLoop (.new 9)) ⟨tr, ⟨.ok true, 0, 0⟩, false⟩ t) ∧
    (∃ tr t, EpollTurns 2
      (epollLoop ((Timer.new 9).schedule { (EventEntry.default : EventEntry Unix.SOCKET Unit) with
        timeId := 1, tickMs := 5 })) ⟨tr, ⟨.ok false, 0, 1⟩, true⟩ t) ∧
    ¬ Outcome.Right ⟨.ok true, 0, 0⟩ ∧ ¬ Outcome.Right ⟨.ok false, 0, 1⟩ := by
  refine ⟨?_, ?_, by simp [Outcome.Right], by simp [Outcome.Right]⟩
  · exact ⟨[_, _], _, rfl, .ok [], _, [_], Or.inl ⟨nofun, _, ⟨_, rfl, rfl⟩, rfl⟩, rfl,
      (0 : UInt64), _, [], Or.inl ⟨nofun, _, rfl, rfl⟩, rfl, rfl, rfl, rfl⟩
  · exact ⟨[_, _, _], _, rfl, .ok [], _, [_, _], Or.inl ⟨nofun, _, ⟨_, rfl, rfl⟩, rfl⟩, rfl,
      (9 : UInt64), _, [_], Or.inl ⟨nofun, _, rfl, rfl⟩, rfl,
      (), _, [], Or.inl ⟨nofun, rfl⟩, rfl, rfl, rfl, rfl⟩

end TdRevent
