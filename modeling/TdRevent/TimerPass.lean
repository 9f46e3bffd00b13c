import TdRevent.TimerCalls
import Mathlib.Logic.Relation

/-!
# One pass over the due timers

A pass fires the timers that were due when it began, except those that a
callback of the pass deleted. What the callbacks add and what the pass queues
again is due later.

## Implementation notes

The index need not agree with the queue during a pass: the id of the timer
that is being fired counts as free. The invariant of the pass therefore speaks
of the due timers only, whose records no addition touches.
-/

namespace TdRevent

open Interaction

variable {S δ : Type}

/-- The entries fired in a stretch of history. -/
def firedIn (log : List (TimerEvent S δ)) : List (EventEntry S δ) :=
  log.filterMap fun
    | .fired _ entry => some entry
    | _ => none

/-- The entries queued in a stretch of history. -/
def armedIn (log : List (TimerEvent S δ)) : List (EventEntry S δ) :=
  log.filterMap fun
    | .armed _ entry _ => some entry
    | _ => none

/-- The keys of the timers deleted in a stretch of history. -/
def deletedIn (log : List (TimerEvent S δ)) : List TreeKey :=
  log.filterMap fun
    | .deleted _ _ returned => returned.map (·.key)
    | _ => none

@[simp] theorem firedIn_append (l m : List (TimerEvent S δ)) :
    firedIn (l ++ m) = firedIn l ++ firedIn m := List.filterMap_append

@[simp] theorem armedIn_append (l m : List (TimerEvent S δ)) :
    armedIn (l ++ m) = armedIn l ++ armedIn m := List.filterMap_append

@[simp] theorem deletedIn_append (l m : List (TimerEvent S δ)) :
    deletedIn (l ++ m) = deletedIn l ++ deletedIn m := List.filterMap_append

/-- The queued timers that are due at `now`. -/
def Timer.due (t : Timer S δ) (now : UInt64) : List (TreeKey × EventEntry S δ) :=
  t.timerQueue.entries.filter (·.1.tick ≤ now)

theorem Timer.mem_due {t : Timer S δ} {now : UInt64} {f : TreeKey × EventEntry S δ} :
    f ∈ t.due now ↔ f ∈ t.timerQueue ∧ f.1.tick ≤ now := by
  simp [Timer.due, OrderedMap.mem_def]

theorem Timer.due_sorted (t : Timer S δ) (now : UInt64) :
    (t.due now).Pairwise fun a b => a.1 < b.1 := t.timerQueue.sorted.filter _

/-! ## The environment of a pass -/

/-- What a callback of a pass may call in the state `ev`. -/
def TimerCall.Permitted (ev : EventLoop S δ) : TimerCall S δ → Prop
  | .addTimer entry => entry.timeId = 0 ∧ entry.tickStep ≠ 0
  | .addNewTimer tickStep _ _ _ => tickStep ≠ 0
  | .addNewTimerAt tickTime _ _ => ∀ now, ev.pass = some now → now < tickTime
  | .delTimer _ => True
  | .timerProcess _ => False

/-- The clock does not go back, and its reading leaves room for the step. -/
def clockAnswer : (q : TimerAsk S δ) → EventLoop S δ → TimerReply q → EventLoop S δ → Prop
  | .nowMicro step, ev, c, ev' =>
      ev.clock ≤ c ∧ c.toNat + step.toNat < UInt64.size ∧ ev' = { ev with clock := c }
  | _, _, _, _ => False

/-- One call of a callback, from its start to its end. -/
def PassCall [Zero S] (ev ev' : EventLoop S δ) : Prop :=
  ∃ op : TimerCall S δ, op.Permitted ev ∧ op.code.Exec clockAnswer ev () ev'

/-- A callback makes any number of permitted calls and returns anything. The
loop may spin only when no id is free, and needs no more rounds than it has. -/
def passContract [Zero S] :
    Contract (EventLoop S δ) (TimerReply (S := S) (δ := δ)) where
  asks
    | .nowMicro _, _ => True
    | .timerCb _, _ => True
    | .spin, ev => ev.timer.Full
    | .fuel, _ => False
  answers
    | .timerCb _, ev, _, ev' => Relation.ReflTransGen PassCall ev ev'
    | q, ev, r, ev' => clockAnswer q ev r ev'

/-- The contract of the calls that a callback makes. -/
def callContract : Contract (EventLoop S δ) (TimerReply (S := S) (δ := δ)) where
  asks _ _ := True
  answers := clockAnswer

theorem passContract_runs [Zero S] : EventLoop.Runs (passContract (S := S) (δ := δ)) where
  clock _ _ := trivial
  spin _ h := h
  tells _ _ _ _ h := h.2.2

theorem callContract_runs : EventLoop.Runs (callContract (S := S) (δ := δ)) where
  clock _ _ := trivial
  spin _ _ := trivial
  tells _ _ _ _ h := h.2.2

/-- A deadline that lies a step after a reading of the clock is after `now`. -/
theorem now_lt_deadline {now c step : UInt64} (hc : now ≤ c) (hstep : step ≠ 0)
    (hfits : c.toNat + step.toNat < UInt64.size) : now < c + step := by
  have hpos : step.toNat ≠ 0 := fun h => hstep (UInt64.toNat_inj.mp h)
  have hle : now.toNat ≤ c.toNat := UInt64.le_iff_toNat_le.mp hc
  rw [UInt64.lt_iff_toNat_lt, UInt64.toNat_add, Nat.mod_eq_of_lt hfits]
  omega

/-! ## The invariant of a pass -/

/-- A pass over the timers due at `now` goes on, and the index finds those
that are left. -/
structure InPass (now : UInt64) (ev : EventLoop S δ) : Prop where
  pass : ev.pass = some now
  clock : now ≤ ev.clock
  key : ∀ key entry, (key, entry) ∈ ev.timer.timerQueue → entry.key = key
  index : ∀ f ∈ ev.timer.due now, ev.timer.timeMaps f.1.id = some f.1.tick

/-- A stretch of a pass with the history `log`. Each timer that was due at
its start was fired, was deleted or is still due, and no other is due. -/
structure Fires (now : UInt64) (ev : EventLoop S δ) (log : List (TimerEvent S δ))
    (ev' : EventLoop S δ) : Prop where
  logged : ev'.log = ev.log ++ log
  due : (firedIn log).map (fun e => (e.key, e)) ++ ev'.timer.due now =
    (ev.timer.due now).filter (·.1 ∉ deletedIn log)
  armed : ∀ e ∈ armedIn log, now < e.tickMs
  deleted : ∀ k ∈ deletedIn log, k.tick ≤ now → k ∈ (ev.timer.due now).map (·.1)
  inPass : InPass now ev'

variable {now : UInt64} {ev ev' ev'' : EventLoop S δ} {l m : List (TimerEvent S δ)}

theorem Fires.refl (h : InPass now ev) : Fires now ev [] ev where
  logged := (List.append_nil _).symm
  due := by simp [firedIn, deletedIn]
  armed := by simp [armedIn]
  deleted := by simp [deletedIn]
  inPass := h

/-- What is due after the stretch was due before. -/
theorem Fires.due_sublist (h : Fires now ev l ev') :
    (ev'.timer.due now).Sublist (ev.timer.due now) := by
  have hsub := List.sublist_append_right ((firedIn l).map fun e => (e.key, e))
    (ev'.timer.due now)
  rw [h.due] at hsub
  exact hsub.trans List.filter_sublist

/-- A timer that was fired is not due any more, so it is not deleted as such. -/
theorem Fires.fired_not_due (h : Fires now ev l ev') {e : EventEntry S δ} (he : e ∈ firedIn l) :
    e.key.tick ≤ now ∧ e.key ∉ (ev'.timer.due now).map (·.1) := by
  have hsorted := ((ev.timer.due_sorted now).filter (·.1 ∉ deletedIn l))
  rw [← h.due, List.pairwise_append] at hsorted
  have hmem : (e.key, e) ∈ (firedIn l).map fun e => (e.key, e) := List.mem_map_of_mem he
  have hdue := List.mem_append_left (ev'.timer.due now) hmem
  rw [h.due] at hdue
  refine ⟨(Timer.mem_due.mp (List.mem_of_mem_filter hdue)).2, fun hk => ?_⟩
  obtain ⟨f, hf, hkey⟩ := List.mem_map.mp hk
  exact (hsorted.2.2 _ hmem f hf).ne' hkey

theorem Fires.trans (h : Fires now ev l ev') (h' : Fires now ev' m ev'') :
    Fires now ev (l ++ m) ev'' where
  logged := by rw [h'.logged, h.logged, List.append_assoc]
  due := by
    have hkeep : ((firedIn l).map fun e => (e.key, e)).filter (·.1 ∉ deletedIn m) =
        (firedIn l).map fun e => (e.key, e) := by
      apply List.filter_eq_self.mpr
      intro f hf
      obtain ⟨e, he, rfl⟩ := List.mem_map.mp hf
      obtain ⟨htick, hdue⟩ := h.fired_not_due he
      simpa using fun hdel => hdue (h'.deleted _ hdel htick)
    calc (firedIn (l ++ m)).map (fun e => (e.key, e)) ++ ev''.timer.due now
        = (firedIn l).map (fun e => (e.key, e)) ++
            (ev'.timer.due now).filter (·.1 ∉ deletedIn m) := by
          rw [← h'.due, firedIn_append, List.map_append, List.append_assoc]
      _ = ((ev.timer.due now).filter (·.1 ∉ deletedIn l)).filter (·.1 ∉ deletedIn m) := by
          rw [← h.due, List.filter_append, hkeep]
      _ = (ev.timer.due now).filter (·.1 ∉ deletedIn (l ++ m)) := by
          rw [List.filter_filter]
          apply List.filter_congr
          intro f _
          simp [not_or, Bool.and_comm]
  armed e he := by
    rw [armedIn_append] at he
    exact (List.mem_append.mp he).elim (h.armed e) (h'.armed e)
  deleted k hk htick := by
    rw [deletedIn_append] at hk
    rcases List.mem_append.mp hk with hk | hk
    · exact h.deleted k hk htick
    · exact (h.due_sublist.map _).subset (h'.deleted k hk htick)
  inPass := h'.inPass

/-! ## The steps of a pass -/

/-- An addition whose deadline is later, under an id that no due timer has. -/
theorem Fires.arm (h : InPass now ev) {c : UInt64} (hc : now ≤ c) (number : Option ℕ)
    (cursor : UInt32) (entry : EventEntry S δ) (hlater : now < entry.tickMs)
    (hid : ∀ f ∈ ev.timer.due now, f.1.id ≠ entry.timeId) :
    ∃ l, Fires now ev l (EventLoop.arm { ev with clock := c } number cursor entry) := by
  have hdue : (Timer.schedule { ev.timer with timeId := cursor } entry).due now =
      ev.timer.due now := by
    refine OrderedMap.filter_insert ?_ fun f hf => ?_
    · simpa using hlater
    · exact TreeKey.lt_iff.mpr (Or.inl (UInt64.lt_of_le_of_lt (by simpa using hf) hlater))
  refine ⟨[.armed _ entry _], rfl, ?_, ?_, ?_, h.pass, hc, ?_, ?_⟩
  · simp only [EventLoop.arm, hdue]
    simp [firedIn, deletedIn]
  · simpa [armedIn] using hlater
  · simp [deletedIn]
  · intro key e he
    rcases Timer.mem_schedule.mp he with heq | ⟨-, he⟩
    · obtain ⟨rfl, rfl⟩ := Prod.mk.inj heq
      rfl
    · exact h.key key e he
  · intro f hf
    have hf' : f ∈ ev.timer.due now := by simpa only [EventLoop.arm, hdue] using hf
    simp only [EventLoop.arm, Timer.timeMaps_schedule, if_neg (hid f hf')]
    exact h.index f hf'

/-- A deletion takes the timer that it returns off the due ones. -/
theorem InPass.due_forget (h : InPass now ev) (tick : UInt64) (id : UInt32)
    (numbers : List ℕ) :
    (ev.timer.forget ⟨tick, id⟩).due now = (ev.timer.due now).filter
      (·.1 ∉ deletedIn [.deleted id numbers (ev.timer.timerQueue.find ⟨tick, id⟩)]) := by
  have hdue : (ev.timer.forget ⟨tick, id⟩).due now =
      (ev.timer.due now).filter (·.1 ≠ ⟨tick, id⟩) := OrderedMap.filter_remove
  rw [hdue]
  cases hfind : ev.timer.timerQueue.find ⟨tick, id⟩ with
  | none =>
      simp only [deletedIn, List.filterMap_cons, List.filterMap_nil, Option.map_none,
        List.not_mem_nil, not_false_eq_true, decide_true, List.filter_true]
      apply List.filter_eq_self.mpr
      intro f hf
      have hne : f.1 ≠ ⟨tick, id⟩ := fun hk =>
        OrderedMap.find_eq_none_iff.mp hfind f.2 (hk ▸ (Timer.mem_due.mp hf).1)
      simpa using hne
  | some e =>
      have hkey := h.key _ _ (OrderedMap.find_eq_some_iff.mp hfind)
      simp [deletedIn, hkey]

/-- A deleted timer was queued, so it was due if its deadline was over. -/
theorem InPass.deleted_due (h : InPass now ev) {key k : TreeKey} {id : UInt32}
    {numbers : List ℕ}
    (hk : k ∈ deletedIn [.deleted id numbers (ev.timer.timerQueue.find key)])
    (htick : k.tick ≤ now) : k ∈ (ev.timer.due now).map (·.1) := by
  obtain ⟨e, hfind, rfl⟩ : ∃ e, ev.timer.timerQueue.find key = some e ∧ e.key = k := by
    cases hfind : ev.timer.timerQueue.find key with
    | none => simp [deletedIn, hfind] at hk
    | some e => exact ⟨e, rfl, by simpa [deletedIn, hfind, eq_comm] using hk⟩
  have hmem := OrderedMap.find_eq_some_iff.mp hfind
  have hkey := h.key _ _ hmem
  rw [hkey] at htick ⊢
  exact List.mem_map_of_mem (f := Prod.fst) (Timer.mem_due.mpr ⟨hmem, htick⟩)

/-- A deletion leaves the records of the other due timers. -/
theorem InPass.index_forget (h : InPass now ev) {tick : UInt64} {id : UInt32}
    (hid : ev.timer.timeMaps id = some tick) :
    ∀ f ∈ (ev.timer.forget ⟨tick, id⟩).due now,
      (ev.timer.forget ⟨tick, id⟩).timeMaps f.1.id = some f.1.tick := by
  intro f hf
  have hdue : (ev.timer.forget ⟨tick, id⟩).due now =
      (ev.timer.due now).filter (·.1 ≠ ⟨tick, id⟩) := OrderedMap.filter_remove
  rw [hdue, List.mem_filter] at hf
  have hindex := h.index f hf.1
  rw [Timer.timeMaps_forget, if_neg, hindex]
  intro hk
  have hk' : f.1.id = id := hk
  rw [hk', hid] at hindex
  have hne : f.1 ≠ ⟨tick, id⟩ := by simpa using hf.2
  exact hne (TreeKey.ext (Option.some.inj hindex).symm hk')

/-- A deletion. -/
theorem Fires.delTimer (h : InPass now ev) (id : UInt32) :
    ∃ l, Fires now ev l (ev.deleted id) := by
  cases hid : ev.timer.timeMaps id with
  | none =>
      have hev : ev.deleted id =
          { ev with log := ev.log ++ [.deleted id (ev.live id) none] } := by
        simp only [EventLoop.deleted, Timer.delTimer_of_none hid]
      rw [hev]
      refine ⟨_, rfl, ?_, ?_, ?_, h.pass, h.clock, h.key, h.index⟩
      · simp [firedIn, deletedIn]
      · simp [armedIn]
      · simp [deletedIn]
  | some tick =>
      have hev : ev.deleted id =
          { ev with
            timer := ev.timer.forget ⟨tick, id⟩
            log := ev.log ++
              [.deleted id (ev.live id) (ev.timer.timerQueue.find ⟨tick, id⟩)] } := by
        simp only [EventLoop.deleted, Timer.delTimer_of_some hid]
      rw [hev]
      refine ⟨_, rfl, ?_, ?_, fun k => h.deleted_due, h.pass, h.clock, ?_, h.index_forget hid⟩
      · rw [h.due_forget tick id (ev.live id)]
        simp [firedIn]
      · simp [armedIn]
      · exact fun key e he => h.key key e (Timer.mem_forget.mp he).2

/-- The expiry of the first timer. No other due timer has its id. -/
theorem Fires.fire (h : InPass now ev) {entry : EventEntry S δ} {timer : Timer S δ}
    (hdue : ev.timer.tickTime now = (some entry, timer)) :
    ∃ l, Fires now ev l (ev.fire entry timer) ∧
      (timer.due now).length < (ev.timer.due now).length ∧
      ∀ f ∈ timer.due now, f.1.id ≠ entry.timeId := by
  obtain ⟨key, hmem, htick, -, hentries, rfl⟩ := Timer.tickTime_eq_some hdue
  have hkey := h.key _ _ hmem
  have hcons : ev.timer.due now = (key, entry) :: (ev.timer.forget key).due now := by
    rw [Timer.due, hentries, List.filter_cons_of_pos (by simpa using htick), ← Timer.due]
  have hother : ∀ f ∈ (ev.timer.forget key).due now, f.1.id ≠ key.id := by
    intro f hf hid
    have hindex := h.index f (hcons ▸ List.mem_cons_of_mem _ hf)
    rw [hid, h.index (key, entry) (hcons ▸ List.mem_cons_self)] at hindex
    have hsorted := hcons ▸ ev.timer.due_sorted now
    exact ((List.pairwise_cons.mp hsorted).1 f hf).ne
      (TreeKey.ext (Option.some.inj hindex) hid.symm)
  refine ⟨[.fired (ev.owner entry.key) entry], ⟨rfl, ?_, ?_, ?_, h.pass, h.clock, ?_, ?_⟩,
    ?_, ?_⟩
  · simp only [EventLoop.fire, hcons]
    simp [firedIn, deletedIn, hkey]
  · simp [armedIn]
  · simp [deletedIn]
  · exact fun k e he => h.key k e (Timer.mem_forget.mp he).2
  · intro f hf
    simp only [EventLoop.fire, Timer.timeMaps_forget, if_neg (hother f hf)]
    exact h.index f (hcons ▸ List.mem_cons_of_mem _ hf)
  · simp [hcons]
  · intro f hf
    rw [show entry.timeId = key.id from congrArg TreeKey.id hkey]
    exact hother f hf

/-- A free id is the id of no due timer. -/
theorem InPass.not_due_of_free (h : InPass now ev) {id : UInt32}
    (hid : ev.timer.timeMaps id = none) : ∀ f ∈ ev.timer.due now, f.1.id ≠ id := by
  rintro f hf rfl
  exact absurd ((h.index f hf).symm.trans hid) (by simp)

/-- A permitted call fires nothing and arms nothing that is due. -/
theorem Fires.call [Zero S] (h : InPass now ev) (hcall : PassCall ev ev') :
    ∃ l, Fires now ev l ev' := by
  obtain ⟨op, hop, hexec⟩ := hcall
  have hpass : ∀ fuel, op ≠ .timerProcess fuel := by
    rintro fuel rfl
    exact hop
  refine Code.wp_exec (C := callContract) (Q := fun _ ev' => ∃ l, Fires now ev l ev') op.code
    (TimerCall.wp_code callContract_runs hpass fun u hu => ?_) hexec
  cases hu with
  | idle _ => exact ⟨[], .refl h⟩
  | addTimer hstep hc hid =>
      have hfree := hid.free (Or.inl hop.1)
      have hle := UInt64.le_trans h.clock hc.1
      exact Fires.arm h hle none _ _ (now_lt_deadline hle hstep hc.2.1) (h.not_due_of_free hfree)
  | addNewTimer hc hid =>
      have hfree := hid.free (Or.inl rfl)
      have hle := UInt64.le_trans h.clock hc.1
      exact Fires.arm h hle none _ _ (now_lt_deadline hle hop hc.2.1) (h.not_due_of_free hfree)
  | addNewTimerAt hid =>
      have hfree := hid.free (Or.inl rfl)
      exact Fires.arm h h.clock none _ _ (hop now h.pass) (h.not_due_of_free hfree)
  | delTimer => exact Fires.delTimer h _

theorem Fires.calls [Zero S] (h : InPass now ev)
    (hcalls : Relation.ReflTransGen PassCall ev ev') : ∃ l, Fires now ev l ev' := by
  induction hcalls with
  | refl => exact ⟨[], .refl h⟩
  | tail _ hcall ih =>
      obtain ⟨l, hl⟩ := ih
      obtain ⟨m, hm⟩ := Fires.call hl.inPass hcall
      exact ⟨l ++ m, hl.trans hm⟩

theorem Fires.idle (h : Fires now ev l ev') :
    Fires now ev l { ev' with firing := none } :=
  ⟨h.logged, h.due, h.armed, h.deleted, h.inPass.pass, h.inPass.clock, h.inPass.key,
    h.inPass.index⟩

/-- One timer of the pass: what is due gets less. -/
theorem wp_processEntry_fires [Zero S] (h : InPass now ev) {entry : EventEntry S δ}
    {timer : Timer S δ} (hdue : ev.timer.tickTime now = (some entry, timer)) :
    (EventLoop.processEntry entry timer).wp passContract
      (fun _ ev' => (∃ l, Fires now ev l ev') ∧
        (ev'.timer.due now).length < (ev.timer.due now).length) ev := by
  obtain ⟨l, hfire, hlen, hother⟩ := Fires.fire h hdue
  -- the callback adds only later timers, so no due timer takes the id of the fired one
  have hreturn : ∀ r ev', EventLoop.Returned passContract (ev.fire entry timer) entry r ev' →
      (∃ m, Fires now ev (l ++ m) { ev' with firing := none }) ∧
        (ev'.timer.due now).Sublist (timer.due now) := by
    intro r ev' hr
    cases hr with
    | skipped _ =>
        exact ⟨⟨[], (List.append_nil l).symm ▸ hfire.idle⟩, List.Sublist.refl _⟩
    | called hcalls =>
        obtain ⟨m, hm⟩ := Fires.calls hfire.inPass hcalls
        exact ⟨⟨m, hfire.trans hm.idle⟩, hm.due_sublist⟩
  refine EventLoop.wp_processEntry passContract_runs trivial ?_ ?_
  · intro r ev' hr _
    obtain ⟨⟨m, hm⟩, hsub⟩ := hreturn r ev' hr
    exact ⟨⟨l ++ m, hm⟩, hsub.length_le.trans_lt hlen⟩
  · intro r ev' hr hrearms c hc id cursor hid
    obtain ⟨⟨m, hm⟩, hsub⟩ := hreturn r ev' hr
    have hle := UInt64.le_trans hm.inPass.clock hc.1
    have hnotdue : ∀ f ∈ ev'.timer.due now, f.1.id ≠ id := by
      rcases hid.cases with rfl | hfree
      · exact fun f hf => hother f (hsub.subset hf)
      · exact hm.inPass.not_due_of_free hfree
    obtain ⟨k, hk⟩ := Fires.arm hm.inPass hle (some (ev.owner entry.key)) cursor
      { (EventLoop.settle entry r).2 with
        timeId := id, tickMs := c + (EventLoop.settle entry r).2.tickStep }
      (now_lt_deadline hle hrearms.2 hc.2.1) hnotdue
    exact ⟨⟨_, hm.trans hk⟩, (hk.due_sublist.trans hsub).length_le.trans_lt hlen⟩

/-- A pass over agreeing timers ends. It fires the timers that were due when
it began and were not deleted meanwhile, each once, by deadline and then by
descending id. What it queues is due later and is not fired. -/
theorem timerProcess_fires [Zero S] (ev : EventLoop S δ) (h : ev.timer.Agrees) (fuel : ℕ)
    (hfuel : ev.timer.timerQueue.entries.length < fuel) :
    (EventLoop.timerProcess fuel).wp passContract
      (fun _ ev' => ∃ now log, ev.clock ≤ now ∧ ev'.log = ev.log ++ .began now :: log ∧
        firedIn log = ((ev.timer.due now).map (·.2)).filter (·.key ∉ deletedIn log) ∧
        (firedIn log).Pairwise (fun a b =>
          a.tickMs < b.tickMs ∨ a.tickMs = b.tickMs ∧ b.timeId < a.timeId) ∧
        ∀ e ∈ armedIn log, now < e.tickMs ∧ e ∉ firedIn log) ev := by
  unfold EventLoop.timerProcess
  simp only [Code.wp_bind, Code.wp_modify, Code.wp_pure]
  apply EventLoop.wp_nowMicro passContract_runs
  intro now hnow
  have hstart : InPass now
      { ev with clock := now, pass := some now, log := ev.log ++ [.began now] } :=
    ⟨rfl, UInt64.le_refl _, h.key, fun f hf => h.indexed (Timer.mem_due.mp hf).1⟩
  refine EventLoop.wp_timerProcessLoop
    (fun n ev' => (∃ l, Fires now
        { ev with clock := now, pass := some now, log := ev.log ++ [.began now] } l ev') ∧
      (ev'.timer.due now).length < n) ?_ ?_ ?_ ?_
  · exact fun ev' h' => absurd h'.2 (Nat.not_lt_zero _)
  · rintro n ev' entry timer ⟨⟨l, hl⟩, hn⟩ hdue
    refine Code.wp_mono _ ?_ (wp_processEntry_fires hl.inPass hdue)
    rintro _ ev'' ⟨⟨m, hm⟩, hlt⟩
    exact ⟨⟨l ++ m, hl.trans hm⟩, by omega⟩
  · rintro n ev' isOp ⟨⟨l, hl⟩, -⟩ hdue
    have hnone : ev'.timer.due now = [] := by
      apply List.filter_eq_nil_iff.mpr
      intro f hf
      simpa using (Timer.tickTime_eq_none hdue).2 f hf
    have hfired := hl.due
    rw [hnone, List.append_nil] at hfired
    have hkeyed : ∀ f ∈ (ev.timer.due now), f.2.key = f.1 := fun f hf =>
      h.key _ _ (Timer.mem_due.mp hf).1
    refine ⟨now, l, hnow.1, by simpa using hl.logged, ?_, ?_, ?_⟩
    · have hmap := congrArg (List.map Prod.snd) hfired
      rw [List.map_map] at hmap
      calc firedIn l = ((ev.timer.due now).filter (·.1 ∉ deletedIn l)).map (·.2) :=
            (List.map_id _).symm.trans hmap
        _ = ((ev.timer.due now).filter (·.2.key ∉ deletedIn l)).map (·.2) := by
            congr 1
            exact List.filter_congr fun f hf => by rw [hkeyed f hf]
        _ = ((ev.timer.due now).map (·.2)).filter (·.key ∉ deletedIn l) := by
            rw [List.filter_map]
            rfl
    · have hsorted := (ev.timer.due_sorted now).filter (·.1 ∉ deletedIn l)
      rw [← hfired, List.pairwise_map] at hsorted
      exact hsorted.imp fun hlt => TreeKey.lt_iff.mp hlt
    · intro e he
      refine ⟨hl.armed e he, fun hf => ?_⟩
      exact absurd (hl.armed e he) (UInt64.not_lt.mpr (hl.fired_not_due hf).1)
  · exact ⟨⟨[], .refl hstart⟩, (List.length_filter_le _ _).trans_lt hfuel⟩

/-- Two timers of one deadline, with nothing going on. -/
def twoTimers : EventLoop Int32 Unit :=
  { (EventLoop.new 9 0 fun _ => (.OK, 0) : EventLoop Int32 Unit) with
    timer := ((Timer.new 9).schedule { (EventEntry.default : EventEntry Int32 Unit) with
        timeId := 1, tickMs := 5, timer := some 7 }).schedule
      { (EventEntry.default : EventEntry Int32 Unit) with
        timeId := 2, tickMs := 5, timer := some 8 } }

theorem timerProcess_fires_two :
    (EventLoop.timerProcess 3).wp passContract
      (fun _ ev' => ∃ now log, 0 ≤ now ∧ ev'.log = .began now :: log ∧
        firedIn log = ((twoTimers.timer.due now).map (·.2)).filter (·.key ∉ deletedIn log) ∧
        (firedIn log).Pairwise (fun a b =>
          a.tickMs < b.tickMs ∨ a.tickMs = b.tickMs ∧ b.timeId < a.timeId) ∧
        ∀ e ∈ armedIn log, now < e.tickMs ∧ e ∉ firedIn log) twoTimers :=
  timerProcess_fires twoTimers (((Timer.new_agrees 9).schedule rfl).schedule rfl) 3 (by decide)

end TdRevent
