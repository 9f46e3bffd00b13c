import TdRevent.Timer

/-!
# The index of the timer queue

The queue is keyed by deadline and id, the index by id alone. They describe
the same timers after every operation: two operations insert into both, and
the deletion by id and the expiry remove from both.
-/

namespace TdRevent

namespace Timer

variable {S δ : Type} {t u : Timer S δ}

/-- The index and the queue describe the same timers, and every entry is
queued under its own key. -/
structure Agrees (t : Timer S δ) : Prop where
  index : ∀ id tick, t.timeMaps id = some tick ↔
    ∃ entry, (TreeKey.mk tick id, entry) ∈ t.timerQueue
  key : ∀ key entry, (key, entry) ∈ t.timerQueue → entry.key = key

/-- What the deletion and the expiry do to the timer of a key. -/
def forget (t : Timer S δ) (key : TreeKey) : Timer S δ :=
  { t with
    timeMaps := Function.update t.timeMaps key.id none
    timerQueue := t.timerQueue.remove key }

/-! ## What each function does -/

@[simp] theorem mem_schedule {entry : EventEntry S δ} {f : TreeKey × EventEntry S δ} :
    f ∈ (t.schedule entry).timerQueue ↔
      f = (entry.key, entry) ∨ f.1 ≠ entry.key ∧ f ∈ t.timerQueue :=
  OrderedMap.mem_insert

@[simp] theorem timeMaps_schedule {entry : EventEntry S δ} {id : UInt32} :
    (t.schedule entry).timeMaps id =
      if id = entry.timeId then some entry.tickMs else t.timeMaps id :=
  Function.update_apply ..

@[simp] theorem mem_forget {key : TreeKey} {f : TreeKey × EventEntry S δ} :
    f ∈ (t.forget key).timerQueue ↔ f.1 ≠ key ∧ f ∈ t.timerQueue :=
  OrderedMap.mem_remove

@[simp] theorem timeMaps_forget {key : TreeKey} {id : UInt32} :
    (t.forget key).timeMaps id = if id = key.id then none else t.timeMaps id :=
  Function.update_apply ..

/-- `calcNewId` returns a free id and moves the cursor to it. -/
theorem calcNewId_eq_some {id : UInt32} (h : t.calcNewId = some (id, u)) :
    t.timeMaps id = none ∧ u = { t with timeId := id } := by
  obtain ⟨id', hs, heq⟩ := Option.map_eq_some_iff.mp h
  obtain ⟨rfl, rfl⟩ := Prod.mk.inj heq
  obtain ⟨k, -, -, hfree, -⟩ := OrbitSearch.search_eq_some.mp hs
  exact ⟨Option.isNone_iff_eq_none.mp hfree, rfl⟩

/-- The search gives up only where the loop of the source never ends. -/
theorem calcNewId_eq_none :
    t.calcNewId = none ↔ ∀ k, (t.timeMaps (t.nextId^[k + 1] t.timeId)).isSome := by
  let _ : Fintype UInt32 := Fintype.ofEquiv (Fin UInt32.size)
    ⟨UInt32.ofFin, UInt32.toFin, fun _ => rfl, fun _ => rfl⟩
  have hcard : Fintype.card UInt32 = UInt32.size :=
    (Fintype.ofEquiv_card _).trans (Fintype.card_fin _)
  rw [calcNewId, Option.map_eq_none_iff, ← hcard, OrbitSearch.search_card_eq_none]
  simp [isFree]

/-- An entry without a step is not queued; any other is queued under its id,
or under a new one if it has none. -/
theorem addTimer_eq_some {now : UInt64} {entry : EventEntry S δ} {id : UInt32}
    (h : t.addTimer now entry = some (id, u)) :
    (entry.tickStep = 0 ∧ id = 0 ∧ u = t) ∨
      (entry.tickStep ≠ 0 ∧ ∃ v, u = v.schedule
          { entry with timeId := id, tickMs := now + entry.tickStep } ∧
        (entry.timeId ≠ 0 ∧ id = entry.timeId ∧ v = t ∨
          entry.timeId = 0 ∧ t.timeMaps id = none ∧ v = { t with timeId := id })) := by
  unfold addTimer at h
  by_cases hstep : entry.tickStep = 0
  · rw [if_pos hstep] at h
    obtain ⟨rfl, rfl⟩ := Prod.mk.inj (Option.some.inj h)
    exact Or.inl ⟨hstep, rfl, rfl⟩
  · rw [if_neg hstep] at h
    obtain ⟨⟨id', v⟩, hid, heq⟩ := Option.map_eq_some_iff.mp h
    obtain ⟨rfl, rfl⟩ := Prod.mk.inj heq
    refine Or.inr ⟨hstep, v, rfl, ?_⟩
    by_cases hzero : entry.timeId = 0
    · rw [if_pos hzero] at hid
      exact Or.inr ⟨hzero, calcNewId_eq_some hid⟩
    · rw [if_neg hzero] at hid
      obtain ⟨rfl, rfl⟩ := Prod.mk.inj (Option.some.inj hid)
      exact Or.inl ⟨hzero, rfl, rfl⟩

theorem addFirstTimer_eq_some {entry : EventEntry S δ} {id : UInt32}
    (h : t.addFirstTimer entry = some (id, u)) :
    t.timeMaps id = none ∧
      u = Timer.schedule { t with timeId := id } { entry with timeId := id } := by
  obtain ⟨⟨id', v⟩, hid, heq⟩ := Option.map_eq_some_iff.mp h
  obtain ⟨rfl, rfl⟩ := Prod.mk.inj heq
  obtain ⟨hfree, rfl⟩ := calcNewId_eq_some hid
  exact ⟨hfree, rfl⟩

theorem delTimer_of_none {id : UInt32} (h : t.timeMaps id = none) :
    t.delTimer id = (none, t) := by
  simp [delTimer, h]

theorem delTimer_of_some {id : UInt32} {tick : UInt64} (h : t.timeMaps id = some tick) :
    t.delTimer id = (t.timerQueue.find ⟨tick, id⟩, t.forget ⟨tick, id⟩) := by
  simp [delTimer, h, forget]

/-- An expiry takes out the first timer, and that timer is due. -/
theorem tickTime_eq_some {tm : UInt64} {entry : EventEntry S δ}
    (h : t.tickTime tm = (some entry, u)) :
    ∃ key, (key, entry) ∈ t.timerQueue ∧ key.tick ≤ tm ∧
      (∀ f ∈ t.timerQueue, key ≤ f.1) ∧
      t.timerQueue.entries = (key, entry) :: u.timerQueue.entries ∧ u = t.forget key := by
  unfold tickTime at h
  split at h
  · cases congrArg Prod.fst h
  · rename_i hle
    split at h
    · rename_i key entry' queue hpop
      obtain ⟨he, rfl⟩ := Prod.mk.inj h
      cases he
      have hfirst := OrderedMap.getFirst_of_pop hpop
      obtain ⟨hmem, hleast⟩ := OrderedMap.getFirst_eq_some hfirst
      have hqueue : queue = t.timerQueue.remove key :=
        OrderedMap.ext_mem fun f => (OrderedMap.mem_pop hpop).trans OrderedMap.mem_remove.symm
      refine ⟨key, hmem, ?_, hleast, OrderedMap.popFirst_eq_some.mp hpop, ?_⟩
      · simpa [tickFirst, hfirst] using hle
      · rw [forget, hqueue]
    · cases congrArg Prod.fst h

/-- Nothing expires if no timer is due. -/
theorem tickTime_eq_none {tm : UInt64} (h : t.tickTime tm = (none, u)) :
    u = t ∧ ∀ f ∈ t.timerQueue, tm < f.1.tick := by
  unfold tickTime at h
  split at h
  · rename_i hlt
    refine ⟨(congrArg Prod.snd h).symm, fun f hf => ?_⟩
    cases hfirst : t.timerQueue.getFirst with
    | none =>
        rw [OrderedMap.mem_def, OrderedMap.getFirst_eq_none.mp hfirst] at hf
        cases hf
    | some e =>
        have hkey := TreeKey.tick_le_of_le ((OrderedMap.getFirst_eq_some hfirst).2 f hf)
        have htm : tm < e.1.tick := by simpa [tickFirst, hfirst] using hlt
        exact UInt64.lt_of_lt_of_le htm hkey
  · split at h
    · cases congrArg Prod.fst h
    · rename_i hpop
      refine ⟨(congrArg Prod.snd h).symm, fun f hf => ?_⟩
      rw [OrderedMap.mem_def, OrderedMap.popFirst_eq_none.mp hpop] at hf
      cases hf

/-! ## The invariant -/

theorem new_agrees (timeMaxId : UInt32) : (new timeMaxId : Timer S δ).Agrees where
  index := by simp [new]
  key := by simp [new]

theorem Agrees.move_cursor (h : t.Agrees) (id : UInt32) :
    Agrees { t with timeId := id } := ⟨h.index, h.key⟩

/-- An indexed timer is queued under the indexed key. -/
theorem Agrees.indexed (h : t.Agrees) {key : TreeKey} {entry : EventEntry S δ}
    (hmem : (key, entry) ∈ t.timerQueue) : t.timeMaps key.id = some key.tick :=
  (h.index _ _).mpr ⟨entry, hmem⟩

/-- No two queued timers share an id. -/
theorem Agrees.id_unique (h : t.Agrees) {key key' : TreeKey} {entry entry' : EventEntry S δ}
    (hmem : (key, entry) ∈ t.timerQueue) (hmem' : (key', entry') ∈ t.timerQueue)
    (hid : entry.timeId = entry'.timeId) : key = key' ∧ entry = entry' := by
  have hkey : key.id = key'.id := by
    rw [← h.key _ _ hmem, ← h.key _ _ hmem']
    exact hid
  have htick : key.tick = key'.tick :=
    Option.some.inj ((h.indexed hmem).symm.trans ((congrArg _ hkey).trans (h.indexed hmem')))
  obtain rfl : key = key' := TreeKey.ext htick hkey
  exact ⟨rfl, OrderedMap.mem_unique hmem hmem'⟩

theorem Agrees.schedule (h : t.Agrees) {entry : EventEntry S δ}
    (hfree : t.timeMaps entry.timeId = none) : (t.schedule entry).Agrees where
  index id tick := by
    have hold : ∀ f, (TreeKey.mk tick entry.timeId, f) ∉ t.timerQueue := by
      intro f hf
      have hindexed := h.indexed hf
      rw [hfree] at hindexed
      cases hindexed
    by_cases hid : id = entry.timeId
    · subst hid
      simp only [timeMaps_schedule, if_true, mem_schedule, Prod.mk.injEq, EventEntry.key,
        TreeKey.mk.injEq, and_true, hold, and_false, or_false, Option.some.injEq]
      exact ⟨fun htick => ⟨entry, htick.symm, rfl⟩, fun ⟨_, htick, _⟩ => htick.symm⟩
    · rw [timeMaps_schedule, if_neg hid, h.index]
      simp only [mem_schedule, Prod.mk.injEq, EventEntry.key, TreeKey.mk.injEq, hid, and_false,
        false_and, ne_eq, not_false_eq_true, true_and, false_or]
  key key f := by
    rintro hmem
    rcases mem_schedule.mp hmem with heq | ⟨-, hf⟩
    · obtain ⟨rfl, rfl⟩ := Prod.mk.inj heq
      rfl
    · exact h.key key f hf

theorem Agrees.forget (h : t.Agrees) {key : TreeKey}
    (hkey : t.timeMaps key.id = some key.tick) : (t.forget key).Agrees where
  index id tick := by
    by_cases hid : id = key.id
    · -- the only queued key of that id is the forgotten one
      subst hid
      simp only [timeMaps_forget, if_true, reduceCtorEq, mem_forget, false_iff, not_exists]
      rintro f ⟨hne, hf⟩
      have hindexed := h.indexed hf
      rw [hkey] at hindexed
      exact hne (TreeKey.ext (Option.some.inj hindexed).symm rfl)
    · have hne : TreeKey.mk tick id ≠ key := fun heq => hid (congrArg TreeKey.id heq)
      simp only [timeMaps_forget, if_neg hid, h.index, mem_forget, ne_eq, hne,
        not_false_eq_true, true_and]
  key key' f hmem := h.key key' f (mem_forget.mp hmem).2

theorem Agrees.addTimer (h : t.Agrees) {now : UInt64} {entry : EventEntry S δ} {id : UInt32}
    (hid : entry.timeId = 0 ∨ t.timeMaps entry.timeId = none)
    (heq : t.addTimer now entry = some (id, u)) : u.Agrees := by
  rcases addTimer_eq_some heq with ⟨-, -, rfl⟩ | ⟨-, v, rfl, hv⟩
  · exact h
  · rcases hv with ⟨hne, rfl, rfl⟩ | ⟨-, hfree, rfl⟩
    · exact h.schedule (hid.resolve_left hne)
    · exact (h.move_cursor _).schedule hfree

theorem Agrees.addFirstTimer (h : t.Agrees) {entry : EventEntry S δ} {id : UInt32}
    (heq : t.addFirstTimer entry = some (id, u)) : u.Agrees := by
  obtain ⟨hfree, rfl⟩ := addFirstTimer_eq_some heq
  exact (h.move_cursor _).schedule hfree

theorem Agrees.delTimer (h : t.Agrees) (id : UInt32) : (t.delTimer id).2.Agrees := by
  cases hid : t.timeMaps id with
  | none => rw [delTimer_of_none hid]; exact h
  | some tick => rw [delTimer_of_some hid]; exact h.forget hid

theorem Agrees.tickTime (h : t.Agrees) (tm : UInt64) : (t.tickTime tm).2.Agrees := by
  obtain ⟨r, u, heq⟩ : ∃ r u, t.tickTime tm = (r, u) := ⟨_, _, rfl⟩
  rw [heq]
  cases r with
  | none => exact (tickTime_eq_none heq).1 ▸ h
  | some entry =>
      obtain ⟨key, hmem, -, -, -, rfl⟩ := tickTime_eq_some heq
      exact h.forget (h.indexed hmem)

/-! ## Runs of the timer -/

/-- The timers that a run of operations from `Timer::new` reaches. -/
inductive Reachable (timeMaxId : UInt32) : Timer S δ → Prop
  | new : Reachable timeMaxId (Timer.new timeMaxId)
  | addFirstTimer {t u : Timer S δ} {id} (entry) (tail : Reachable timeMaxId t)
      (h : t.addFirstTimer entry = some (id, u)) : Reachable timeMaxId u
  | addTimer {t u : Timer S δ} {id} (now entry) (tail : Reachable timeMaxId t)
      (hid : entry.timeId = 0 ∨ t.timeMaps entry.timeId = none)
      (h : t.addTimer now entry = some (id, u)) : Reachable timeMaxId u
  | delTimer {t : Timer S δ} (id) (tail : Reachable timeMaxId t) :
      Reachable timeMaxId (t.delTimer id).2
  | tickTime {t : Timer S δ} (tm) (tail : Reachable timeMaxId t) :
      Reachable timeMaxId (t.tickTime tm).2

theorem Reachable.agrees {timeMaxId : UInt32} (h : Reachable timeMaxId t) : t.Agrees := by
  induction h with
  | new => exact new_agrees timeMaxId
  | addFirstTimer entry _ h ih => exact ih.addFirstTimer h
  | addTimer now entry _ hid h ih => exact ih.addTimer hid h
  | delTimer id _ ih => exact ih.delTimer id
  | tickTime tm _ ih => exact ih.tickTime tm

/-- A deletion finds exactly the live ids. It returns the timer of the id and
takes that timer and nothing else out of the queue and the index. -/
theorem Agrees.delTimer_spec (h : t.Agrees) (id : UInt32) :
    ((t.delTimer id).1.isSome ↔ ∃ key entry, (key, entry) ∈ t.timerQueue ∧
      entry.timeId = id) ∧
    (t.delTimer id).2.timeId = t.timeId ∧
    ∀ entry, (t.delTimer id).1 = some entry →
      entry.timeId = id ∧ (entry.key, entry) ∈ t.timerQueue ∧
      (∀ f, f ∈ (t.delTimer id).2.timerQueue ↔ f ∈ t.timerQueue ∧ f ≠ (entry.key, entry)) ∧
      ∀ id', (t.delTimer id).2.timeMaps id' = if id' = id then none else t.timeMaps id' := by
  cases hid : t.timeMaps id with
  | none =>
      rw [delTimer_of_none hid]
      refine ⟨⟨by simp, ?_⟩, rfl, by simp⟩
      rintro ⟨key, entry, hmem, rfl⟩
      have hindexed := h.indexed hmem
      rw [← h.key _ _ hmem] at hindexed
      exact absurd (hid.symm.trans hindexed) (by simp)
  | some tick =>
      obtain ⟨entry, hmem⟩ := (h.index id tick).mp hid
      have hkey := h.key _ _ hmem
      rw [delTimer_of_some hid, OrderedMap.find_eq_some_iff.mpr hmem]
      refine ⟨⟨fun _ => ⟨_, entry, hmem, congrArg TreeKey.id hkey⟩, fun _ => rfl⟩, rfl, ?_⟩
      rintro _ ⟨⟩
      refine ⟨congrArg TreeKey.id hkey, hkey ▸ hmem, fun f => ?_, fun id' => timeMaps_forget⟩
      rw [mem_forget, hkey, and_comm]
      refine and_congr_right fun hf => not_congr ⟨fun hk => ?_, fun hk => hk ▸ rfl⟩
      exact Prod.ext hk (OrderedMap.mem_unique (hk ▸ hf : (TreeKey.mk tick id, f.2) ∈ _) hmem)

/-- In every run of timer operations the index and the queue hold the same
timers, each queued under its own key, with no id twice. Hence a deletion is
exact. -/
theorem reachable_index {timeMaxId : UInt32} (h : Reachable timeMaxId t) :
    (∀ id tick, t.timeMaps id = some tick ↔
      ∃ entry, (TreeKey.mk tick id, entry) ∈ t.timerQueue) ∧
    (∀ tick id entry, (TreeKey.mk tick id, entry) ∈ t.timerQueue →
      entry.tickMs = tick ∧ entry.timeId = id) ∧
    (∀ f ∈ t.timerQueue, ∀ g ∈ t.timerQueue, f.2.timeId = g.2.timeId → f = g) ∧
    ∀ id,
      ((t.delTimer id).1.isSome ↔ ∃ f ∈ t.timerQueue, f.2.timeId = id) ∧
      ∀ entry, (t.delTimer id).1 = some entry →
        entry.timeId = id ∧ (entry.key, entry) ∈ t.timerQueue ∧
        (∀ f, f ∈ (t.delTimer id).2.timerQueue ↔
          f ∈ t.timerQueue ∧ f ≠ (entry.key, entry)) ∧
        ∀ id', (t.delTimer id).2.timeMaps id' =
          if id' = id then none else t.timeMaps id' := by
  have ha := h.agrees
  refine ⟨ha.index, fun tick id entry hmem => ?_, ?_, fun id => ?_⟩
  · have hkey := ha.key _ _ hmem
    exact ⟨congrArg TreeKey.tick hkey, congrArg TreeKey.id hkey⟩
  · rintro ⟨key, entry⟩ hf ⟨key', entry'⟩ hg hid
    obtain ⟨rfl, rfl⟩ := ha.id_unique hf hg hid
    rfl
  · obtain ⟨hlive, -, hspec⟩ := ha.delTimer_spec id
    exact ⟨hlive.trans ⟨fun ⟨key, entry, hf, hid⟩ => ⟨(key, entry), hf, hid⟩,
      fun ⟨f, hf, hid⟩ => ⟨f.1, f.2, hf, hid⟩⟩, hspec⟩

/-- Two timers, of which the second fires: the first is still found. -/
theorem reachable_index_two :
    ∃ t : Timer Int32 Unit, Reachable 9 t ∧
      ((t.delTimer 1).1.isSome ↔ ∃ f ∈ t.timerQueue, f.2.timeId = 1) ∧
      (t.delTimer 1).1.isSome ∧ (t.delTimer 2).1 = none := by
  have empty : Reachable 9 (new 9 : Timer Int32 Unit) := .new
  have first := empty.addFirstTimer (EventEntry.newTimerAt 7 none none) rfl
  have second := Reachable.addTimer 0
    { (EventEntry.default : EventEntry Int32 Unit) with tickStep := 5 } first (Or.inl rfl) rfl
  have expired := second.tickTime 6
  exact ⟨_, expired, ((reachable_index expired).2.2.2 1).1, by decide, rfl⟩

end Timer

end TdRevent
