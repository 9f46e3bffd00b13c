import TdRevent.RunOnce

/-!
# How the main loop ends

`run` sets its flag and makes rounds as long as the flag is set. It returns without an
error only after a round in which a callback called `shutdown`, and with an error only
after a round whose wait failed. In the second case the flag is still set, so
`is_running` holds of a loop that has ended. A call of `shutdown` before `run` has no
effect.

## Implementation notes

A callback may itself call `run`, which sets the flag again. That a callback unset the
flag is therefore a statement about the calls that it made until it returned.
-/

namespace TdRevent

open Interaction

variable {S δ Sel κ Op : Type} {ρ : κ → Type}

/-- No call of `shutdown`. -/
def NoShutdown (_ : MainLoop S δ Sel) :
    Move (MainReply (S := S) (δ := δ) ρ) (MainCall S δ Op) → Prop
  | .call .shutdown => False
  | _ => True

section

variable {Y : System Sel ρ Op Unit} {doSelect : Code Sel ρ (Except IoError (ℕ × ℕ))}
  {s t : MainLoop S δ Sel}

/-- No answer changes the flag. -/
theorem MainAsk.answer_run {q : MainAsk S δ κ} {r : MainReply ρ q}
    (h : MainAsk.answer Y q s r t) : t.run = s.run := by
  cases q with
  | timers q =>
      obtain ⟨ev, -, rfl⟩ := h
      rfl
  | selector q =>
      obtain ⟨sel, -, rfl⟩ := h
      rfl
  | sleep => exact congrArg MainLoop.run h
  | fuel => exact nomatch r

/-! ## Without `shutdown` the flag stays set -/

namespace MainLoop

variable [Zero S]

/-- The runs in which nobody calls `shutdown`. -/
abbrev unstopped (Y : System Sel ρ Op Unit)
    (doSelect : Code Sel ρ (Except IoError (ℕ × ℕ))) :=
  (mainSystem (S := S) (δ := δ) Y doSelect).restrict NoShutdown

abbrev running : Discipline (MainLoop S δ Sel) (MainReply (S := S) (δ := δ) ρ) :=
  .ofInv fun ml => ml.run = true

/-- Code of a part does not know the flag. -/
theorem safe_within {τ κ' γ : Type} {ρ' : κ' → Type}
    {P : Part (MainLoop S δ Sel) τ (MainReply (S := S) (δ := δ) ρ) ρ'}
    (hP : ∀ u ml, (P.set u ml).run = ml.run) (c : Code τ ρ' γ) (hs : s.run = true) :
    running.Safe (unstopped Y doSelect) (c.within P) (fun _ ml => ml.run = true) s := by
  induction c generalizing s with
  | ret a => exact .pure hs
  | get next ih => exact ih (P.get s) hs
  | put u next ih => exact ih ((hP u s).trans hs)
  | ask q next ih =>
      refine ⟨⟨trivial, fun _ => hs⟩, fun r t hr => ?_⟩
      have ht : t.run = true := by
        rcases hr with ⟨-, hanswer, -⟩ | ⟨-, u, hu, -, hanswer, -⟩
        · exact (MainAsk.answer_run hanswer).trans hs
        · exact (MainAsk.answer_run hanswer).trans hu
      exact ih (P.reply q r) ht

theorem safe_runOnce (fuel : ℕ) (hs : s.run = true) :
    running.Safe (unstopped Y doSelect) (EventLoop.runOnce doSelect fuel)
      (fun _ ml => ml.run = true) s := by
  refine .bind (.mono (safe_within (fun _ _ => rfl) doSelect hs) fun ret t ht => ?_)
  rcases ret with e | ⟨size, dispatched⟩
  · exact .pure ht
  · exact .bind (.mono (safe_within (fun _ _ => rfl) _ ht) fun _ u hu => .pure hu)

theorem safe_round (fuel : ℕ) (hs : s.run = true) :
    running.Safe (unstopped Y doSelect) (EventLoop.round doSelect fuel)
      (fun _ ml => ml.run = true) s := by
  refine .bind (.mono (safe_runOnce fuel hs) fun o t ht => ?_)
  rcases o with ⟨_ | _ | _, dispatched, fired⟩
  · exact .pure ht
  · refine .bind (.ask nofun trivial fun _ u hu => ⟨.pure ?_, trivial⟩)
    exact (MainAsk.answer_run (Y := Y) (q := .sleep) (r := ()) hu.1).trans ht
  · exact .pure ht

theorem safe_runLoop (fuel rounds : ℕ) (hs : s.run = true) :
    running.Safe (unstopped Y doSelect) (EventLoop.runLoop doSelect fuel rounds)
      (fun _ ml => ml.run = true) s := by
  induction rounds generalizing s with
  | zero => exact .stop nofun nofun trivial
  | succ rounds ih =>
      refine .read_then ?_
      rw [if_pos hs]
      refine .bind (.mono (safe_round fuel hs) fun ret t ht => ?_)
      rcases ret with ⟨⟨_ | _, dispatched, fired⟩, slept⟩
      · exact .pure ht
      · exact ih ht

theorem running_keeps : running.Keeps (unstopped (S := S) (δ := δ) Y doSelect) := by
  refine Discipline.keeps_of_safe fun op s hmay hs => ?_
  cases op with
  | timers op => exact safe_within (fun _ _ => rfl) op.code hs
  | selector op => exact safe_within (fun _ _ => rfl) (Y.api op) hs
  | runOnce fuel => exact .bind (.mono (safe_runOnce fuel hs) fun _ _ ht => .pure ht)
  | run fuel rounds =>
      refine .bind (.mono (.bind (.mono (.modify (Q := fun _ ml => ml.run = true) rfl trivial)
        fun _ t ht => safe_runLoop fuel rounds ht)) fun _ _ ht => .pure ht)
  | shutdown => exact hmay.2.elim

/-- Who unsets the flag calls `shutdown`. -/
theorem shutdown_called {ms : List (Move (MainReply (S := S) (δ := δ) ρ) (MainCall S δ Op))}
    (hrun : (mainSystem Y doSelect).Run ⟨s, []⟩ ms ⟨t, []⟩) (hs : s.run = true)
    (ht : t.run = false) : .call .shutdown ∈ ms := by
  by_contra hnone
  have hms : ∀ m ∈ ms, ∀ ml : MainLoop S δ Sel, NoShutdown ml m := by
    rintro (op | ⟨q, r⟩) hm ml
    · cases op with
      | shutdown => exact hnone hm
      | _ => trivial
    · trivial
  have hkept : t.run = true :=
    Discipline.reaches_inv running_keeps ⟨ms, hrun.restrict hms⟩ hs trivial
  exact Bool.false_ne_true (ht.symm.trans hkept)

end MainLoop

end

/-! ## The rounds of an execution -/

/-- The rounds of the loop of `run`, what it returns, and where it ends. -/
inductive Rounds
    (ans : (q : MainAsk S δ κ) → MainLoop S δ Sel → MainReply ρ q → MainLoop S δ Sel → Prop)
    (doSelect : Code Sel ρ (Except IoError (ℕ × ℕ))) (fuel : ℕ) :
    MainLoop S δ Sel → List (Round S δ Sel ρ) → Except IoError Unit → MainLoop S δ Sel → Prop
  | stopped {s} (hrun : s.run = false) : Rounds ans doSelect fuel s [] (.ok ()) s
  | failed {s t r e} (hturn : Turns ans doSelect fuel s r t) (he : r.outcome.ret = .error e) :
      Rounds ans doSelect fuel s [r] (.error e) t
  | again {s t u r rs ret b} (hturn : Turns ans doSelect fuel s r u) (hb : r.outcome.ret = .ok b)
      (rest : Rounds ans doSelect fuel u rs ret t) :
      Rounds ans doSelect fuel s (r :: rs) ret t

section

variable {ans : (q : MainAsk S δ κ) → MainLoop S δ Sel → MainReply ρ q → MainLoop S δ Sel → Prop}
  {doSelect : Code Sel ρ (Except IoError (ℕ × ℕ))} {fuel rounds : ℕ} {s t : MainLoop S δ Sel}
  {tr : List (Exchange (MainLoop S δ Sel) (MainReply (S := S) (δ := δ) ρ))}
  {rs : List (Round S δ Sel ρ)}

theorem trace_rounds {ret : Except IoError Unit}
    (h : (EventLoop.runLoop doSelect fuel rounds).Trace ans s tr ret t) :
    ∃ rs, Rounds ans doSelect fuel s rs ret t ∧ tr = rs.flatMap Round.exchanges := by
  induction rounds generalizing s tr with
  | zero =>
      obtain ⟨r, -⟩ := h
      exact nomatch r
  | succ rounds ih =>
      rw [EventLoop.runLoop, Code.trace_read_then] at h
      by_cases hrun : s.run
      · simp only [if_pos hrun] at h
        obtain ⟨⟨o, slept⟩, u, tr₁, tr₂, rfl, hround, hrest⟩ := (Code.trace_bind _ _ _).mp h
        have hturn : Turns ans doSelect fuel s ⟨tr₁, o, slept⟩ u := ⟨hrun, hround⟩
        cases hret : o.ret with
        | error e =>
            simp only [hret] at hrest
            obtain ⟨rfl, rfl, rfl⟩ := hrest
            exact ⟨[⟨tr₁, o, slept⟩], .failed hturn hret, by simp⟩
        | ok b =>
            simp only [hret] at hrest
            obtain ⟨rs, hrs, rfl⟩ := ih hrest
            exact ⟨⟨tr₁, o, slept⟩ :: rs, .again hturn hret hrs, by simp⟩
      · simp only [if_neg hrun] at h
        obtain ⟨rfl, rfl, rfl⟩ := h
        exact ⟨[], .stopped (Bool.eq_false_iff.mpr hrun), rfl⟩

/-- What `run` did before its last round. -/
def Runs (ans : (q : MainAsk S δ κ) → MainLoop S δ Sel → MainReply ρ q → MainLoop S δ Sel → Prop)
    (doSelect : Code Sel ρ (Except IoError (ℕ × ℕ))) (fuel : ℕ) (s : MainLoop S δ Sel)
    (rs : List (Round S δ Sel ρ)) (u : MainLoop S δ Sel) : Prop :=
  Path (Turns ans doSelect fuel) s rs u ∧ ∀ r ∈ rs, ∃ b, r.outcome.ret = .ok b

theorem Runs.cons {u v : MainLoop S δ Sel} {r : Round S δ Sel ρ} {rs : List (Round S δ Sel ρ)}
    {b : Bool} (hturn : Turns ans doSelect fuel s r u) (hb : r.outcome.ret = .ok b)
    (h : Runs ans doSelect fuel u rs v) : Runs ans doSelect fuel s (r :: rs) v :=
  ⟨.cons hturn h.1, List.forall_mem_cons.mpr ⟨⟨b, hb⟩, h.2⟩⟩

/-- The flag was set when the last round of a run that succeeds began, and not at its end. -/
theorem Rounds.ok (h : Rounds ans doSelect fuel s rs (.ok ()) t) (hs : s.run = true) :
    t.run = false ∧ ∃ rs' last u b, rs = rs' ++ [last] ∧ Runs ans doSelect fuel s rs' u ∧
      Turns ans doSelect fuel u last t ∧ last.outcome.ret = .ok b := by
  generalize hret : (Except.ok () : Except IoError Unit) = ret at h
  induction h with
  | stopped hrun => exact absurd (hs.symm.trans hrun) (by simp)
  | failed => cases hret
  | @again s t u r rs ret b hturn hb rest ih =>
      by_cases hu : u.run = true
      · obtain ⟨ht, rs', last, v, b', rfl, hruns, hlast, hb'⟩ := ih hu hret
        exact ⟨ht, r :: rs', last, v, b', rfl, hruns.cons hturn hb, hlast, hb'⟩
      · cases rest with
        | stopped hrun => exact ⟨hrun, [], r, s, b, rfl, ⟨.nil s, nofun⟩, hturn, hb⟩
        | failed hturn' _ => exact absurd hturn'.1 hu
        | again hturn' _ _ => exact absurd hturn'.1 hu

theorem Rounds.error {e : IoError} (h : Rounds ans doSelect fuel s rs (.error e) t) :
    ∃ rs' last u, rs = rs' ++ [last] ∧ Runs ans doSelect fuel s rs' u ∧
      Turns ans doSelect fuel u last t ∧ last.outcome.ret = .error e := by
  generalize hret : (Except.error e : Except IoError Unit) = ret at h
  induction h with
  | stopped hrun => cases hret
  | @failed s t r e' hturn he =>
      obtain rfl := Except.error.inj hret
      exact ⟨[], r, s, rfl, ⟨.nil s, nofun⟩, hturn, he⟩
  | @again s t u r rs ret b hturn hb rest ih =>
      obtain ⟨rs', last, v, rfl, hruns, hlast, he⟩ := ih hret
      exact ⟨r :: rs', last, v, rfl, hruns.cons hturn hb, hlast, he⟩

/-- A round changes the flag only while a question is open. -/
theorem Turns.flag {r : Round S δ Sel ρ} (h : Turns ans doSelect fuel s r t) :
    Framed MainLoop.run s r.exchanges t := by
  obtain ⟨-, h⟩ := h
  obtain ⟨⟨ret, dispatched, fired⟩, u, tr₁, tr₂, htr, honce, hsleep⟩ := (Code.trace_bind _ _ _).mp h
  rw [htr]
  have hend : Framed MainLoop.run u tr₂ t := by
    rcases ret with e | _ | _
    · obtain ⟨rfl, -, rfl⟩ := hsleep
      exact rfl
    · obtain ⟨-, v, tr₂, -, rfl, rfl, -, rfl⟩ := (Code.trace_query_then _ _ _).mp hsleep
      exact ⟨rfl, rfl⟩
    · obtain ⟨rfl, -, rfl⟩ := hsleep
      exact rfl
  refine Framed.append ?_ hend
  obtain ⟨ret', v, tr₃, tr₄, rfl, hselect, hpass⟩ := (Code.trace_bind _ _ _).mp honce
  refine (hselect.framed fun _ _ => rfl).append ?_
  rcases ret' with e | ⟨size, dispatched'⟩
  · obtain ⟨rfl, -, rfl⟩ := hpass
    exact rfl
  · obtain ⟨_, w, tr₅, tr₆, rfl, hfire, rfl, -, rfl⟩ := (Code.trace_bind _ _ _).mp hpass
    rw [List.append_nil]
    exact hfire.framed fun _ _ => rfl

end

/-! ## Who ends the loop -/

section

variable [Zero S] {Y : System Sel ρ Op Unit} {doSelect : Code Sel ρ (Except IoError (ℕ × ℕ))}
  {wait : κ} {seen : ρ wait → Except IoError (List Bool)} {fuel : ℕ} {s t : MainLoop S δ Sel}

/-- In the exchange a callback called `shutdown` before it returned. -/
def Stops (Y : System Sel ρ Op Unit) (doSelect : Code Sel ρ (Except IoError (ℕ × ℕ)))
    (x : Exchange (MainLoop S δ Sel) (MainReply (S := S) (δ := δ) ρ)) : Prop :=
  MainAsk.user Y x.question ∧ ∃ ms v, (mainSystem Y doSelect).Run ⟨x.before, []⟩ ms ⟨v, []⟩ ∧
    .call .shutdown ∈ ms ∧ MainAsk.answer Y x.question v x.reply x.after

/-- A callback of the round stops the loop if the flag is unset at its end. -/
theorem Turns.stops {r : Round S δ Sel ρ}
    (h : Turns (mainSystem Y doSelect).during doSelect fuel s r t) (ht : t.run = false) :
    ∃ x ∈ r.exchanges, Stops Y doSelect x ∧ x.after.run = false := by
  obtain ⟨x, hx, hbefore, hafter⟩ := h.flag.exists_loss (p := (· = true)) h.1 (by simp [ht])
  have hunset : x.after.run = false := Bool.eq_false_iff.mpr hafter
  rcases h.2.answered x hx with ⟨-, hanswer⟩ | ⟨huser, v, ⟨ms, hrun⟩, hanswer⟩
  · exact absurd ((MainAsk.answer_run hanswer).trans hbefore) hafter
  · have hv : v.run = false := (MainAsk.answer_run hanswer).symm.trans hunset
    exact ⟨x, hx, ⟨huser, ms, v, hrun, MainLoop.shutdown_called hrun hbefore hv, hanswer⟩, hunset⟩

/-- A call of `runOnce` that fails waits, and does nothing else. -/
theorem trace_runOnce_failed {tr : List (Exchange (MainLoop S δ Sel) (MainReply ρ))} {o : Outcome}
    {e : IoError} (hpolls : Polls doSelect wait seen) (hwait : ¬ Y.user wait)
    (h : (EventLoop.runOnce doSelect fuel).Trace (mainSystem Y doSelect).during s tr o t)
    (he : o.ret = .error e) :
    ∃ s' ret u, tr = [⟨.selector wait, s', ret, u⟩] ∧ seen ret = .error e := by
  obtain ⟨ret, u, tr₁, tr₂, rfl, hselect, hpass⟩ := (Code.trace_bind _ _ _).mp h
  obtain ⟨answer, s', v, rest, rfl, -, hpolled, -⟩ := trace_doSelect hpolls hwait hselect
  rcases ret with e' | ⟨size, dispatched⟩
  · obtain ⟨rfl, rfl, rfl⟩ := hpass
    obtain rfl := Except.error.inj he
    generalize hseen : seen answer = flags at hpolled
    cases hpolled with
    | failed => exact ⟨s', answer, v, rfl, hseen⟩
  · obtain ⟨_, _, _, _, -, -, -, rfl, -⟩ := (Code.trace_bind _ _ _).mp hpass
    cases he

/-- A round that fails does not touch the flag. -/
theorem Turns.waits {r : Round S δ Sel ρ} {e : IoError} (hpolls : Polls doSelect wait seen)
    (hwait : ¬ Y.user wait) (h : Turns (mainSystem Y doSelect).during doSelect fuel s r t)
    (he : r.outcome.ret = .error e) :
    t.run = true ∧ ∃ s' ret u, r.exchanges = [⟨.selector wait, s', ret, u⟩] ∧
      seen ret = .error e := by
  have hex : ∃ s' ret u, r.exchanges = [⟨.selector wait, s', ret, u⟩] ∧ seen ret = .error e := by
    obtain ⟨o, u, tr₁, tr₂, htr, honce, hsleep⟩ := (Code.trace_bind _ _ _).mp h.2
    rcases hret : o.ret with e' | _ | _
    · simp only [hret] at hsleep
      obtain ⟨rfl, hout, -⟩ := hsleep
      have ho : o.ret = .error e := (congrArg (fun p => p.1.ret) hout).symm.trans he
      rw [htr, List.append_nil]
      exact trace_runOnce_failed hpolls hwait honce ho
    · simp only [hret] at hsleep
      obtain ⟨_, _, _, -, -, -, hout, -⟩ := (Code.trace_query_then _ _ _).mp hsleep
      exact absurd ((congrArg (fun p => p.1.ret) hout).symm.trans he) (by simp [hret])
    · simp only [hret] at hsleep
      exact absurd ((congrArg (fun p => p.1.ret) hsleep.2.1).symm.trans he) (by simp [hret])
  obtain ⟨s', ret, u, hr, hseen⟩ := hex
  refine ⟨?_, s', ret, u, hr, hseen⟩
  have hflag := h.flag
  rw [hr] at hflag
  obtain ⟨hbefore, hafter⟩ := hflag
  have hmem : (⟨.selector wait, s', ret, u⟩ : Exchange _ (MainReply ρ)) ∈ r.exchanges :=
    hr ▸ List.mem_singleton_self _
  rcases h.2.answered _ hmem with ⟨-, hanswer⟩ | ⟨huser, -⟩
  · have hkept : u.run = s'.run := MainAsk.answer_run (q := .selector wait) (r := ret) hanswer
    exact hafter.trans (hkept.trans (hbefore.trans h.1))
  · exact absurd huser hwait

/-- How every execution of `run` ends. -/
structure EndsByShutdown (S δ : Type) [Zero S] (Y : System Sel ρ Op Unit)
    (doSelect : Code Sel ρ (Except IoError (ℕ × ℕ))) (wait : κ)
    (seen : ρ wait → Except IoError (List Bool)) : Prop where
  ok : ∀ fuel n (s : MainLoop S δ Sel) tr t,
    (EventLoop.run doSelect fuel n).Trace (mainSystem Y doSelect).during s tr (.ok ()) t →
      t.run = false ∧ ∃ rs last u,
        tr = (rs ++ [last]).flatMap Round.exchanges ∧
        Runs (mainSystem Y doSelect).during doSelect fuel { s with run := true } rs u ∧
        Turns (mainSystem Y doSelect).during doSelect fuel u last t ∧
        (∃ b, last.outcome.ret = .ok b) ∧
        ∃ x ∈ last.exchanges, Stops Y doSelect x ∧ x.after.run = false
  error : ∀ fuel n (s : MainLoop S δ Sel) tr e t,
    (EventLoop.run doSelect fuel n).Trace (mainSystem Y doSelect).during s tr (.error e) t →
      t.run = true ∧ ∃ rs last u,
        tr = (rs ++ [last]).flatMap Round.exchanges ∧
        Runs (mainSystem Y doSelect).during doSelect fuel { s with run := true } rs u ∧
        Turns (mainSystem Y doSelect).during doSelect fuel u last t ∧
        ∃ s' ret v, last.exchanges = [⟨.selector wait, s', ret, v⟩] ∧ seen ret = .error e

theorem ends_by_shutdown_of_polls (hpolls : Polls doSelect wait seen) (hwait : ¬ Y.user wait) :
    EndsByShutdown S δ Y doSelect wait seen where
  ok fuel n s tr t h := by
    obtain ⟨rs, hrs, htr⟩ := trace_rounds ((Code.trace_modify_then _ _ _).mp h)
    obtain ⟨ht, rs', last, u, b, rfl, hruns, hlast, hb⟩ := hrs.ok rfl
    exact ⟨ht, rs', last, u, htr, hruns, hlast, ⟨b, hb⟩, hlast.stops ht⟩
  error fuel n s tr e t h := by
    obtain ⟨rs, hrs, htr⟩ := trace_rounds ((Code.trace_modify_then _ _ _).mp h)
    obtain ⟨rs', last, u, rfl, hruns, hlast, he⟩ := hrs.error
    obtain ⟨ht, hex⟩ := hlast.waits hpolls hwait he
    exact ⟨ht, rs', last, u, htr, hruns, hlast, hex⟩

end

/-- On every platform `run` returns `Ok` only after a round in which a callback called
`shutdown`, with the flag unset; and an error only after a round in which the wait
failed, with the flag still set. -/
theorem run_ends_by_shutdown
    (eos : Unix.Os Unix.SOCKET Unix.Epoll.Interest Unix.Epoll.EpollReply)
    (kos : Unix.Os Unix.SOCKET Unix.Kqueue.Kernel Unix.Kqueue.KqueueReply) :
    EndsByShutdown Unix.SOCKET δ
      (Unix.unixSystem Unix.Epoll.epoll eos (Unix.Epoll.doSelect (δ := δ)))
      Unix.Epoll.doSelectCounted (.sys .epollWait) Unix.Epoll.seen ∧
    EndsByShutdown Unix.SOCKET δ
      (Unix.unixSystem Unix.Kqueue.kqueue kos (Unix.Kqueue.doSelect (δ := δ)))
      Unix.Kqueue.doSelectCounted (.sys .keventTs) Unix.Kqueue.seen ∧
    EndsByShutdown Win.SOCKET δ (Win.winSystem Win.SOCKET δ)
      Win.doSelectCounted .getMany Win.seen :=
  ⟨ends_by_shutdown_of_polls Unix.Epoll.polls nofun,
    ends_by_shutdown_of_polls Unix.Kqueue.polls nofun, ends_by_shutdown_of_polls Win.polls nofun⟩

theorem reaches_shutdown [Zero S] {Y : System Sel ρ Op Unit}
    {doSelect : Code Sel ρ (Except IoError (ℕ × ℕ))} (s : MainLoop S δ Sel) :
    (mainSystem Y doSelect).Reaches s ⟨{ s with run := false }, []⟩ :=
  have start := System.Reaches.refl (S := mainSystem Y doSelect) s
  start.call MainCall.shutdown trivial trivial

/-- A loop whose timer calls `shutdown`. -/
theorem run_ends_by_shutdown_timer :
    ∃ tr t, (EventLoop.run Unix.Epoll.doSelectCounted 2 2).Trace
        (mainSystem (Unix.Epoll.epollSystem Unit) Unix.Epoll.doSelectCounted).during
        (epollLoop ((Timer.new 9).schedule { (EventEntry.default : EventEntry Unix.SOCKET Unit) with
          timeId := 1, tickMs := 5, timer := some 7 })) tr (.ok ()) t ∧ t.run = false := by
  have htrace : ∃ tr t, (EventLoop.run Unix.Epoll.doSelectCounted 2 2).Trace
      (mainSystem (Unix.Epoll.epollSystem Unit) Unix.Epoll.doSelectCounted).during
      (epollLoop ((Timer.new 9).schedule { (EventEntry.default : EventEntry Unix.SOCKET Unit) with
        timeId := 1, tickMs := 5, timer := some 7 })) tr (.ok ()) t :=
    ⟨[_, _, _, _], _, .ok [], _, [_, _, _], Or.inl ⟨nofun, _, ⟨_, rfl, rfl⟩, rfl⟩, rfl,
      (9 : UInt64), _, [_, _], Or.inl ⟨nofun, _, rfl, rfl⟩, rfl,
      ((.OK, 0) : RetValue × UInt64), _, [_],
      Or.inr ⟨trivial, _, reaches_shutdown _, _, ⟨rfl, rfl⟩, rfl⟩, rfl,
      (), _, [], Or.inl ⟨nofun, rfl⟩, rfl, rfl, rfl, rfl⟩
  obtain ⟨tr, t, htrace⟩ := htrace
  exact ⟨tr, t, htrace,
    ((run_ends_by_shutdown Unix.Epoll.epollOs Unix.Kqueue.kqueueOs).1.ok 2 2 _ tr t htrace).1⟩

end TdRevent
