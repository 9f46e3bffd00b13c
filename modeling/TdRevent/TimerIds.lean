import TdRevent.TimerRuns

/-!
# Timer ids

The ids of the live timers are distinct as long as every allocation during a
callback finds a free id before it comes to the id of the running timer. That
id is out of the index while the callback runs, and `calcNewId` takes it
for free. An entry added again needs its old id to be free as well.
-/

namespace TdRevent

open Interaction

variable {S δ : Type}

namespace Timer

/-- From its cursor on, `calcNewId` meets a free id and not `id` before it. -/
def FreeBefore (t : Timer S δ) (id : UInt32) : Prop :=
  ∃ k, t.timeMaps (t.nextId^[k + 1] t.timeId) = none ∧
    ∀ j ≤ k, t.nextId^[j + 1] t.timeId ≠ id

/-- A free id is passed over exactly if another one is met before it. -/
theorem calcNewId_ne_iff {t u : Timer S δ} {id new : UInt32} (hid : t.timeMaps id = none)
    (h : t.calcNewId = some (new, u)) : new ≠ id ↔ t.FreeBefore id := by
  obtain ⟨new', hsearch, heq⟩ := Option.map_eq_some_iff.mp h
  obtain ⟨rfl, rfl⟩ := Prod.mk.inj heq
  obtain ⟨k, -, hk, hfree, hbusy⟩ := OrbitSearch.search_eq_some.mp hsearch
  have hbusy' : ∀ j < k, t.timeMaps (t.nextId^[j + 1] t.timeId) ≠ none := by
    intro j hj hnone
    have hbusy := hbusy j hj
    rw [isFree, hnone] at hbusy
    cases hbusy
  constructor
  · intro hne
    refine ⟨k, by rw [hk]; exact Option.isNone_iff_eq_none.mp hfree, fun j hj hjid => ?_⟩
    rcases hj.lt_or_eq with hj | rfl
    · exact hbusy' j hj (hjid ▸ hid)
    · exact hne (hk.symm.trans hjid)
  · rintro ⟨m, hm, hother⟩ rfl
    have hkm : k ≤ m := not_lt.mp fun hlt => hbusy' m hlt hm
    exact hother k hkm hk

/-- Deletion frees no id but the deleted one. -/
theorem timeMaps_delTimer {t : Timer S δ} {id id' : UInt32} (h : t.timeMaps id' = none) :
    (t.delTimer id).2.timeMaps id' = none := by
  cases hid : t.timeMaps id with
  | none => rw [delTimer_of_none hid]; exact h
  | some tick =>
      rw [delTimer_of_some hid, timeMaps_forget]
      split
      · rfl
      · exact h

end Timer

namespace EventLoop

/-- The ids of the live timers: those queued, and that of the timer which is
being fired, if its callback will have it queued again. -/
def liveIds (ev : EventLoop S δ) : List UInt32 :=
  ev.timer.timerQueue.entries.map (·.2.timeId) ++
    (ev.firing.toList.filter fun f => rearms f.2 (ev.results 0)).map (·.2.timeId)

/-- An allocation does not give out the id of a timer that is being fired and
will be queued again. -/
def Room (ev : EventLoop S δ) : Prop :=
  ∀ f, ev.firing = some f → rearms f.2 (ev.results 0) → ev.timer.FreeBefore f.2.timeId

/-- The invariant of the ids. -/
structure DistinctIds (ev : EventLoop S δ) : Prop where
  agrees : ev.timer.Agrees
  firing : ∀ f, ev.firing = some f → rearms f.2 (ev.results 0) →
    ev.timer.timeMaps f.2.timeId = none
  log : ∀ number entry replaced, .armed number entry replaced ∈ ev.log → replaced = none

end EventLoop

/-- The condition on a call under which the ids stay distinct. -/
def TimerCall.KeepsIds (ev : EventLoop S δ) : TimerCall S δ → Prop
  | .addTimer entry =>
      if entry.timeId = 0 then ev.Room
      else ev.timer.timeMaps entry.timeId = none ∧
        ∀ f, ev.firing = some f → EventLoop.rearms f.2 (ev.results 0) →
          f.2.timeId ≠ entry.timeId
  | .addNewTimer .. => ev.Room
  | .addNewTimerAt .. => ev.Room
  | _ => True

namespace EventLoop

variable {ev : EventLoop S δ}

theorem DistinctIds.nodup (h : DistinctIds ev) : ev.liveIds.Nodup := by
  have hqueue : (ev.timer.timerQueue.entries.map (·.2.timeId)).Nodup := by
    refine List.Nodup.map_on ?_ ev.timer.timerQueue.entries_nodup
    rintro ⟨key, e⟩ he ⟨key', e'⟩ he' hid
    obtain ⟨rfl, rfl⟩ := h.agrees.id_unique he he' hid
    rfl
  refine List.nodup_append.mpr ⟨hqueue, ?_, ?_⟩
  · cases ev.firing with
    | none => exact List.nodup_nil
    | some f => by_cases hf : rearms f.2 (ev.results 0) <;> simp [hf]
  · rintro id hid _ hid' rfl
    obtain ⟨⟨key, e⟩, he, rfl⟩ := List.mem_map.mp hid
    obtain ⟨f, hf, hfid⟩ := List.mem_map.mp hid'
    obtain ⟨hfiring, hrearms⟩ := List.mem_filter.mp hf
    have hnone := h.firing f (Option.mem_toList.mp hfiring) (by simpa using hrearms)
    have hsome := h.agrees.indexed he
    rw [← h.agrees.key _ _ he, show e.key.id = f.2.timeId from hfid.symm, hnone] at hsome
    cases hsome

/-- An addition under an id that is free. -/
theorem DistinctIds.arm (h : DistinctIds ev) {c : UInt64} {number : Option ℕ}
    {cursor : UInt32} {entry : EventEntry S δ} (hfree : ev.timer.timeMaps entry.timeId = none)
    (hfiring : ∀ f, ev.firing = some f → rearms f.2 (ev.results 0) →
      f.2.timeId ≠ entry.timeId) :
    DistinctIds (EventLoop.arm { ev with clock := c } number cursor entry) where
  agrees := (h.agrees.move_cursor cursor).schedule hfree
  firing f hf hrearms := by
    simp only [EventLoop.arm, Timer.timeMaps_schedule, if_neg (hfiring f hf hrearms)]
    exact h.firing f hf hrearms
  log n e r hr := by
    rcases List.mem_append.mp hr with hr | hr
    · exact h.log n e r hr
    · cases List.mem_singleton.mp hr
      exact hfree

theorem DistinctIds.deleted (h : DistinctIds ev) (id : UInt32) :
    DistinctIds (ev.deleted id) where
  agrees := h.agrees.delTimer id
  firing f hf hrearms := Timer.timeMaps_delTimer (h.firing f hf hrearms)
  log n e r hr := by
    rcases List.mem_append.mp hr with hr | hr
    · exact h.log n e r hr
    · cases List.mem_singleton.mp hr

/-- The id of the timer that is being fired is free. -/
theorem DistinctIds.fire (h : DistinctIds ev) {now : UInt64} {entry : EventEntry S δ}
    {timer : Timer S δ} (hdue : ev.timer.tickTime now = (some entry, timer)) :
    DistinctIds (ev.fire entry timer) ∧ timer.timeMaps entry.timeId = none := by
  have hagrees := h.agrees.tickTime now
  rw [hdue] at hagrees
  obtain ⟨key, hmem, -, -, -, rfl⟩ := Timer.tickTime_eq_some hdue
  have hid : entry.timeId = key.id := congrArg TreeKey.id (h.agrees.key _ _ hmem)
  have hnone : (ev.timer.forget key).timeMaps entry.timeId = none := by
    rw [Timer.timeMaps_forget, if_pos hid]
  refine ⟨⟨hagrees, ?_, fun n e r hr => ?_⟩, hnone⟩
  · rintro f ⟨⟩ -
    exact hnone
  · rcases List.mem_append.mp hr with hr | hr
    · exact h.log n e r hr
    · cases List.mem_singleton.mp hr

/-- An id given out under the condition is free, and is not that of a timer
that is being fired and will be queued again. -/
theorem DistinctIds.assigned (h : DistinctIds ev) (hroom : ev.Room) {id cursor : UInt32}
    (hid : ev.timer.Assigned 0 id cursor) :
    ev.timer.timeMaps id = none ∧ ∀ f, ev.firing = some f → rearms f.2 (ev.results 0) →
      f.2.timeId ≠ id := by
  refine ⟨hid.free (Or.inl rfl), fun f hf hrearms => ?_⟩
  cases hid with
  | kept h => exact absurd rfl h
  | fresh _ hnew =>
      exact ((Timer.calcNewId_ne_iff (h.firing f hf hrearms) hnew).mpr
        (hroom f hf hrearms)).symm

/-- The ids stay distinct in all runs whose calls meet the condition. -/
theorem distinctIds_invariant [Zero S] :
    Invariant TimerCall.KeepsIds (DistinctIds (S := S) (δ := δ)) where
  call {C ev ev' op} h _ hok heffect := by
    cases heffect with
    | idle _ => exact h
    | @addTimer entry c id cursor _ _ hid =>
        by_cases hzero : entry.timeId = 0
        · rw [TimerCall.KeepsIds, if_pos hzero] at hok
          rw [hzero] at hid
          obtain ⟨hfree, hother⟩ := h.assigned hok hid
          exact h.arm hfree hother
        · rw [TimerCall.KeepsIds, if_neg hzero] at hok
          cases hid with
          | kept _ => exact h.arm hok.1 hok.2
          | fresh hrequest _ => exact absurd hrequest hzero
    | addNewTimer _ hid =>
        obtain ⟨hfree, hother⟩ := h.assigned hok hid
        exact h.arm hfree hother
    | addNewTimerAt hid =>
        obtain ⟨hfree, hother⟩ := h.assigned hok hid
        exact h.arm hfree hother
    | delTimer => exact h.deleted _
  began _ _ h _ := ⟨h.agrees, h.firing, fun n e r hr => h.log n e r (by simpa using hr)⟩
  ended h := ⟨h.agrees, h.firing, h.log⟩
  fire results h _ hdue :=
    have hfire := (h.fire hdue)
    ⟨hfire.1.agrees, fun f hf _ => by cases hf; exact hfire.2, hfire.1.log⟩
  finished h _ _ := ⟨h.agrees, (fun _ hf => nomatch hf), h.log⟩
  again ev f c id cursor h hf hrearms hid := by
    have hfinish : DistinctIds ev.finish := ⟨h.agrees, (fun _ hf => nomatch hf), h.log⟩
    exact hfinish.arm (hid.free (Or.inr (h.firing f hf hrearms))) fun _ hf => nomatch hf

/-- In every run whose calls meet the condition, the ids of the live timers
are distinct whenever code of the user runs, and no timer was ever queued over
the record of another one. -/
theorem live_ids_distinct [Zero S] {timeMaxId : UInt32} {clock : UInt64}
    {results : ℕ → RetValue × UInt64}
    {c : Config (EventLoop S δ) (TimerReply (S := S) (δ := δ)) Unit}
    (hreach : (timerSystem.restrict (Move.onCalls TimerCall.KeepsIds)).Reaches
      (new timeMaxId clock results) c)
    (hopen : (timerSystem (S := S) (δ := δ)).Open c.stack) :
    c.state.liveIds.Nodup ∧
      ∀ number entry replaced, .armed number entry replaced ∈ c.state.log →
        replaced = none := by
  have hnew : DistinctIds (new timeMaxId clock results : EventLoop S δ) :=
    ⟨Timer.new_agrees timeMaxId, (fun _ hf => nomatch hf), fun _ _ _ hr => nomatch hr⟩
  have h := distinctIds_invariant.holds hnew hreach hopen
  exact ⟨h.nodup, h.log⟩

/-- A repeating timer fires, and its callback adds a second timer. With two
ids, the second timer gets the id that is left. -/
theorem live_ids_distinct_two :
    ∃ c, (timerSystem.restrict (Move.onCalls TimerCall.KeepsIds)).Reaches
        (new 2 0 fun _ => (.CONTINUE, 5) : EventLoop Int32 Unit) c ∧
      c.state.liveIds = [2, 1] ∧ c.state.liveIds.Nodup := by
  have start := System.Reaches.refl (S := timerSystem.restrict (Move.onCalls TimerCall.KeepsIds))
    (new 2 0 fun _ => (.CONTINUE, 5) : EventLoop Int32 Unit)
  have added := (start.call (.addNewTimer 5 true (some 7) none) trivial
    ⟨trivial, fun _ hf => nomatch hf⟩).answer (0 : UInt64) ⟨rfl, trivial⟩
  have firing := (added.call (.timerProcess 2) trivial
    ⟨⟨rfl, rfl⟩, trivial⟩).answer (10 : UInt64) ⟨rfl, trivial⟩
  have second := (firing.call (.addNewTimer 5 false (some 7) none) trivial
    ⟨trivial, by
      rintro f ⟨⟩ _
      refine ⟨0, rfl, fun j hj => ?_⟩
      obtain rfl : j = 0 := Nat.le_zero.mp hj
      decide⟩).answer (10 : UInt64) ⟨rfl, trivial⟩
  exact ⟨_, second, by decide, (live_ids_distinct second trivial).1⟩

/-- With one id, the timer added by the callback gets the id of the timer that
is being fired. When that one is queued again, the record of the new timer is
overwritten. -/
theorem live_ids_collide :
    (∃ c, timerSystem.Reaches (new 1 0 fun _ => (.CONTINUE, 5) : EventLoop Int32 Unit) c ∧
      timerSystem.Open c.stack ∧ ¬ c.state.liveIds.Nodup) ∧
    ∃ c, timerSystem.Reaches (new 1 0 fun _ => (.CONTINUE, 5) : EventLoop Int32 Unit) c ∧
      timerSystem.Open c.stack ∧
      ∃ number entry tick, .armed number entry (some tick) ∈ c.state.log := by
  have start := System.Reaches.refl (S := timerSystem)
    (new 1 0 fun _ => (.CONTINUE, 5) : EventLoop Int32 Unit)
  have added := (start.call (.addNewTimer 5 true (some 7) none) trivial
    trivial).answer (0 : UInt64) rfl
  have firing := (added.call (.timerProcess 2) trivial ⟨rfl, rfl⟩).answer (10 : UInt64) rfl
  have second := (firing.call (.addNewTimer 5 false (some 7) none) trivial
    trivial).answer (10 : UInt64) rfl
  have again := (second.answer (RetValue.CONTINUE, (5 : UInt64)) ⟨rfl, rfl⟩).answer
    (11 : UInt64) rfl
  exact ⟨⟨_, second, trivial, by decide⟩,
    ⟨_, again, trivial, 0, _, 15, List.mem_of_getElem? (i := 4) rfl⟩⟩

end EventLoop

end TdRevent
