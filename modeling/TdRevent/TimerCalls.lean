import TdRevent.EventLoop
import TdRevent.TimerIndex

/-!
# What the timer calls do

One rule for each function of the event loop, under any contract that lets
the loop read the clock. The invariants of the other modules are derived from
these rules alone.
-/

namespace TdRevent

open Interaction

variable {S δ : Type}

namespace Timer

/-- No id is free on the way of the cursor, so `calcNewId` does not end. -/
def Full (t : Timer S δ) : Prop := ∀ k, (t.timeMaps (t.nextId^[k + 1] t.timeId)).isSome

/-- The id that an addition gives to an entry of the id `request`, and the
cursor afterwards. -/
inductive Assigned (t : Timer S δ) (request : UInt32) : UInt32 → UInt32 → Prop
  | kept (h : request ≠ 0) : Assigned t request request t.timeId
  | fresh {id} (hrequest : request = 0)
      (h : t.calcNewId = some (id, { t with timeId := id })) : Assigned t request id id

/-- An id that was requested or was free. -/
theorem Assigned.cases {t : Timer S δ} {request id cursor : UInt32}
    (h : t.Assigned request id cursor) : id = request ∨ t.timeMaps id = none := by
  cases h with
  | kept _ => exact Or.inl rfl
  | fresh _ h => exact Or.inr (calcNewId_eq_some h).1

theorem Assigned.free {t : Timer S δ} {request id cursor : UInt32}
    (h : t.Assigned request id cursor) (hrequest : request = 0 ∨ t.timeMaps request = none) :
    t.timeMaps id = none := by
  cases h with
  | kept h => exact hrequest.resolve_left h
  | fresh _ h => exact (calcNewId_eq_some h).1

theorem addTimer_eq_none {t : Timer S δ} {now : UInt64} {entry : EventEntry S δ}
    (h : t.addTimer now entry = none) : t.Full := by
  unfold addTimer at h
  split at h
  · cases h
  · rw [Option.map_eq_none_iff] at h
    split at h
    · exact calcNewId_eq_none.mp h
    · cases h

/-- What `addTimer` queues, and under which id. -/
theorem addTimer_assigned {t u : Timer S δ} {now : UInt64} {entry : EventEntry S δ} {id : UInt32}
    (hstep : entry.tickStep ≠ 0) (h : t.addTimer now entry = some (id, u)) :
    ∃ cursor, t.Assigned entry.timeId id cursor ∧
      u = Timer.schedule { t with timeId := cursor }
        { entry with timeId := id, tickMs := now + entry.tickStep } := by
  unfold addTimer at h
  rw [if_neg hstep] at h
  obtain ⟨⟨id', v⟩, hid, heq⟩ := Option.map_eq_some_iff.mp h
  obtain ⟨rfl, rfl⟩ := Prod.mk.inj heq
  split at hid
  · obtain ⟨-, rfl⟩ := calcNewId_eq_some hid
    exact ⟨id', .fresh ‹_› hid, rfl⟩
  · obtain ⟨rfl, rfl⟩ := Prod.mk.inj (Option.some.inj hid)
    exact ⟨t.timeId, .kept ‹_›, rfl⟩

theorem addFirstTimer_assigned {t u : Timer S δ} {entry : EventEntry S δ} {id : UInt32}
    (h : t.addFirstTimer entry = some (id, u)) :
    t.Assigned 0 id id ∧
      u = Timer.schedule { t with timeId := id } { entry with timeId := id } := by
  obtain ⟨⟨id', v⟩, hid, heq⟩ := Option.map_eq_some_iff.mp h
  obtain ⟨rfl, rfl⟩ := Prod.mk.inj heq
  obtain ⟨-, rfl⟩ := calcNewId_eq_some hid
  exact ⟨.fresh rfl hid, rfl⟩

end Timer

namespace EventLoop

/-- Queue the entry as the timer of that number, the cursor being moved. -/
def arm (ev : EventLoop S δ) (number : Option ℕ) (cursor : UInt32) (entry : EventEntry S δ) :
    EventLoop S δ :=
  { ev with
    timer := Timer.schedule { ev.timer with timeId := cursor } entry
    added := if number.isSome then ev.added else ev.added + 1
    owner := Function.update ev.owner entry.key (number.getD ev.added)
    log := ev.log ++
      [.armed (number.getD ev.added) entry (ev.timer.timeMaps entry.timeId)] }

theorem armed_schedule (ev : EventLoop S δ) (number : Option ℕ) (cursor : UInt32)
    (entry : EventEntry S δ) :
    ev.armed number entry.timeId (Timer.schedule { ev.timer with timeId := cursor } entry) =
      ev.arm number cursor entry := by
  have hfind : (Timer.schedule { ev.timer with timeId := cursor } entry).lookup entry.timeId =
      some entry := by
    simp only [Timer.lookup, Timer.timeMaps_schedule, if_true, Option.bind_some]
    exact OrderedMap.find_eq_some_iff.mpr (Timer.mem_schedule.mpr (Or.inl rfl))
  simp only [armed, hfind, arm]

/-- The contract lets the loop read the clock, and spin when no id is free. -/
structure Runs (C : Contract (EventLoop S δ) (TimerReply (S := S) (δ := δ))) : Prop where
  clock : ∀ step ev, C.asks (.nowMicro step) ev
  spin : ∀ ev : EventLoop S δ, ev.timer.Full → C.asks .spin ev
  tells : ∀ step ev c ev', C.answers (.nowMicro step) ev c ev' → ev' = { ev with clock := c }

variable {C : Contract (EventLoop S δ) (TimerReply (S := S) (δ := δ))} {ev : EventLoop S δ}

/-- The clock reading that the contract allows for a step. -/
def Tells (C : Contract (EventLoop S δ) (TimerReply (S := S) (δ := δ))) (ev : EventLoop S δ)
    (step c : UInt64) : Prop :=
  C.answers (.nowMicro step) ev c { ev with clock := c }

theorem wp_nowMicro (hC : Runs C) {step : UInt64} {Q : UInt64 → EventLoop S δ → Prop}
    (h : ∀ c, Tells C ev step c → Q c { ev with clock := c }) :
    (nowMicro step).wp C Q ev := by
  refine ⟨hC.clock step ev, fun c ev' hc => ?_⟩
  obtain rfl := hC.tells _ _ _ _ hc
  exact h c hc

theorem wp_store_first (hC : Runs C) {entry : EventEntry S δ}
    {Q : UInt32 → EventLoop S δ → Prop}
    (h : ∀ id cursor, ev.timer.Assigned 0 id cursor →
      Q id (ev.arm none cursor { entry with timeId := id })) :
    (store none (ev.timer.addFirstTimer entry)).wp C Q ev := by
  cases hadd : ev.timer.addFirstTimer entry with
  | none => exact ⟨hC.spin ev (Timer.calcNewId_eq_none.mp (Option.map_eq_none_iff.mp hadd)),
      fun r => Empty.elim r⟩
  | some r =>
      obtain ⟨id, u⟩ := r
      obtain ⟨hid, rfl⟩ := Timer.addFirstTimer_assigned hadd
      simp only [store, Code.wp_bind, Code.wp_modify, Code.wp_pure]
      rw [armed_schedule ev none id { entry with timeId := id }]
      exact h id id hid

theorem wp_addTimer (hC : Runs C) {number : Option ℕ} {entry : EventEntry S δ}
    {Q : UInt32 → EventLoop S δ → Prop} (hzero : entry.tickStep = 0 → Q 0 ev)
    (harm : entry.tickStep ≠ 0 → ∀ c, Tells C ev entry.tickStep c →
      ∀ id cursor, ev.timer.Assigned entry.timeId id cursor →
        Q id (arm { ev with clock := c } number cursor
          { entry with timeId := id, tickMs := c + entry.tickStep })) :
    (addTimer number entry).wp C Q ev := by
  unfold addTimer
  split
  · exact hzero ‹_›
  · rename_i hstep
    simp only [Code.wp_bind, Code.wp_read]
    apply wp_nowMicro hC
    intro c hc
    cases hadd : ev.timer.addTimer c entry with
    | none => exact ⟨hC.spin _ (Timer.addTimer_eq_none hadd), fun r => Empty.elim r⟩
    | some r =>
        obtain ⟨id, u⟩ := r
        obtain ⟨cursor, hid, rfl⟩ := Timer.addTimer_assigned hstep hadd
        simp only [store, Code.wp_bind, Code.wp_modify, Code.wp_pure]
        rw [armed_schedule { ev with clock := c } number cursor
          { entry with timeId := id, tickMs := c + entry.tickStep }]
        exact harm hstep c hc id cursor hid

/-- Whether the timer of the entry is queued again after this result. -/
def rearms (entry : EventEntry S δ) (r : RetValue × UInt64) : Prop :=
  (settle entry r).1 = false ∧ (settle entry r).2.tickStep ≠ 0

instance (entry : EventEntry S δ) (r : RetValue × UInt64) : Decidable (rearms entry r) :=
  inferInstanceAs (Decidable (_ ∧ _))

@[simp] theorem settle_timeId (entry : EventEntry S δ) (r : RetValue × UInt64) :
    (settle entry r).2.timeId = entry.timeId := by
  obtain ⟨ret, time⟩ := r
  cases ret <;> rfl

/-- The callback of the entry, started in `ev`, ends in this state with this
result. -/
inductive Returned (C : Contract (EventLoop S δ) (TimerReply (S := S) (δ := δ)))
    (ev : EventLoop S δ) (entry : EventEntry S δ) : RetValue × UInt64 → EventLoop S δ → Prop
  | skipped (h : entry.timer = none) : Returned C ev entry (.OK, 0) ev
  | called {r ev'} (h : C.answers (.timerCb entry) ev r ev') : Returned C ev entry r ev'

/-- One timer that is due: its callback runs, then it ends or is queued again.
Without a callback nothing is asked. -/
theorem wp_processEntry_returned (hC : Runs C) {entry : EventEntry S δ} {timer : Timer S δ}
    {Q : Unit → EventLoop S δ → Prop}
    (hask : C.asks (.timerCb entry) (ev.fire entry timer))
    (hend : ∀ r ev', Returned C (ev.fire entry timer) entry r ev' →
      (entry.timer = none → r = (.OK, 0) ∧ ev' = ev.fire entry timer) → ¬ rearms entry r →
      Q () { ev' with firing := none })
    (harm : ∀ r ev', Returned C (ev.fire entry timer) entry r ev' →
      (entry.timer = none → r = (.OK, 0) ∧ ev' = ev.fire entry timer) → rearms entry r →
      ∀ c, Tells C { ev' with firing := none } (settle entry r).2.tickStep c →
      ∀ id cursor, ev'.timer.Assigned entry.timeId id cursor →
        Q () (arm { ev' with firing := none, clock := c } (some (ev.owner entry.key)) cursor
          { (settle entry r).2 with
            timeId := id, tickMs := c + (settle entry r).2.tickStep })) :
    (processEntry entry timer).wp C Q ev := by
  have after : ∀ r ev', Returned C (ev.fire entry timer) entry r ev' →
      (entry.timer = none → r = (.OK, 0) ∧ ev' = ev.fire entry timer) →
      (if (settle entry r).1 then pure () else do
        let _ ← addTimer (some (ev.owner entry.key)) (settle entry r).2
        : LoopCode S δ Unit).wp C Q { ev' with firing := none } := by
    intro r ev' hr hskip
    by_cases hover : (settle entry r).1 = true
    · rw [if_pos hover]
      exact hend r ev' hr hskip fun h => Bool.noConfusion (hover.symm.trans h.1)
    · have hover' : (settle entry r).1 = false := by simpa using hover
      rw [if_neg hover]
      simp only [Code.wp_bind]
      refine wp_addTimer hC (fun hstep => hend r ev' hr hskip fun h => h.2 hstep) ?_
      intro hstep c hc id cursor hid
      exact harm r ev' hr hskip ⟨hover', hstep⟩ c hc id cursor (by simpa using hid)
  unfold processEntry
  simp only [Code.wp_bind, Code.wp_read, Code.wp_modify]
  unfold timerCb
  split
  · exact after _ _ (.skipped ‹_›) fun _ => ⟨rfl, rfl⟩
  · rename_i hsome
    exact ⟨hask, fun r ev' h => after r ev' (.called h) fun hnone =>
      absurd (hsome.symm.trans hnone) (by simp)⟩

/-- One timer that is due, whether it has a callback or not. -/
theorem wp_processEntry (hC : Runs C) {entry : EventEntry S δ} {timer : Timer S δ}
    {Q : Unit → EventLoop S δ → Prop}
    (hask : C.asks (.timerCb entry) (ev.fire entry timer))
    (hend : ∀ r ev', Returned C (ev.fire entry timer) entry r ev' → ¬ rearms entry r →
      Q () { ev' with firing := none })
    (harm : ∀ r ev', Returned C (ev.fire entry timer) entry r ev' → rearms entry r →
      ∀ c, Tells C { ev' with firing := none } (settle entry r).2.tickStep c →
      ∀ id cursor, ev'.timer.Assigned entry.timeId id cursor →
        Q () (arm { ev' with firing := none, clock := c } (some (ev.owner entry.key)) cursor
          { (settle entry r).2 with
            timeId := id, tickMs := c + (settle entry r).2.tickStep })) :
    (processEntry entry timer).wp C Q ev :=
  wp_processEntry_returned hC hask (fun r ev' hr _ => hend r ev' hr)
    fun r ev' hr _ => harm r ev' hr

/-- The rule of the loop: an assertion for each remaining number of rounds,
which a round takes to the one for a number less. -/
theorem wp_timerProcessLoop {now : UInt64} (I : ℕ → EventLoop S δ → Prop)
    {Q : Bool → EventLoop S δ → Prop}
    (hfuel : ∀ ev, I 0 ev → C.asks .fuel ev)
    (hround : ∀ n ev entry timer, I (n + 1) ev →
      ev.timer.tickTime now = (some entry, timer) →
      (processEntry entry timer).wp C (fun _ => I n) ev)
    (hend : ∀ n ev isOp, I (n + 1) ev → ev.timer.tickTime now = (none, ev.timer) →
      Q isOp ev)
    {fuel : ℕ} {isOp : Bool} (h : I fuel ev) :
    (timerProcessLoop now fuel isOp).wp C Q ev := by
  induction fuel generalizing ev isOp with
  | zero => exact ⟨hfuel ev h, fun r => Empty.elim r⟩
  | succ fuel ih =>
      unfold timerProcessLoop
      simp only [Code.wp_bind, Code.wp_read]
      rcases hdue : ev.timer.tickTime now with ⟨_ | entry, timer⟩
      · obtain ⟨rfl, -⟩ := Timer.tickTime_eq_none hdue
        exact hend fuel ev isOp h hdue
      · simp only [Code.wp_bind]
        exact Code.wp_mono _ (fun _ ev' h' => ih h') (hround fuel ev entry timer h hdue)

end EventLoop

/-- What the environment sees of a call other than a pass: the state after it. -/
inductive TimerCall.Effect [Zero S]
    (C : Contract (EventLoop S δ) (TimerReply (S := S) (δ := δ))) (ev : EventLoop S δ) :
    TimerCall S δ → EventLoop S δ → Prop
  | idle {entry} (hstep : entry.tickStep = 0) : Effect C ev (.addTimer entry) ev
  | addTimer {entry c id cursor} (hstep : entry.tickStep ≠ 0)
      (hc : EventLoop.Tells C ev entry.tickStep c)
      (hid : ev.timer.Assigned entry.timeId id cursor) :
      Effect C ev (.addTimer entry)
        (EventLoop.arm { ev with clock := c } none cursor
          { entry with timeId := id, tickMs := c + entry.tickStep })
  | addNewTimer {step tickRepeat timerCb data c id cursor}
      (hc : EventLoop.Tells C ev step c) (hid : ev.timer.Assigned 0 id cursor) :
      Effect C ev (.addNewTimer step tickRepeat timerCb data)
        (EventLoop.arm { ev with clock := c } none cursor
          { EventEntry.newTimer c step tickRepeat timerCb data with timeId := id })
  | addNewTimerAt {time timerCb data id cursor} (hid : ev.timer.Assigned 0 id cursor) :
      Effect C ev (.addNewTimerAt time timerCb data)
        (ev.arm none cursor { EventEntry.newTimerAt time timerCb data with timeId := id })
  | delTimer {id} : Effect C ev (.delTimer id) (ev.deleted id)

/-- The rule of the calls other than a pass. -/
theorem TimerCall.wp_code [Zero S]
    {C : Contract (EventLoop S δ) (TimerReply (S := S) (δ := δ))} {ev : EventLoop S δ}
    (hC : EventLoop.Runs C) {op : TimerCall S δ} (hop : ∀ fuel, op ≠ .timerProcess fuel)
    {Q : Unit → EventLoop S δ → Prop} (h : ∀ ev', op.Effect C ev ev' → Q () ev') :
    op.code.wp C Q ev := by
  cases op with
  | addTimer entry =>
      simp only [code, Code.wp_bind]
      exact EventLoop.wp_addTimer hC (fun hstep => h _ (.idle hstep))
        fun hstep c hc id cursor hid => h _ (.addTimer hstep hc hid)
  | addNewTimer step tickRepeat timerCb data =>
      simp only [code, EventLoop.addNewTimer, Code.wp_bind, Code.wp_read]
      exact EventLoop.wp_nowMicro hC fun c hc =>
        EventLoop.wp_store_first hC fun id cursor hid => h _ (.addNewTimer hc hid)
  | addNewTimerAt time timerCb data =>
      simp only [code, EventLoop.addNewTimerAt, Code.wp_bind, Code.wp_read]
      exact EventLoop.wp_store_first hC fun id cursor hid => h _ (.addNewTimerAt hid)
  | delTimer id => exact h _ .delTimer
  | timerProcess fuel => exact absurd rfl (hop fuel)

end TdRevent
