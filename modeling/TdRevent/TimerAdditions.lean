import TdRevent.TimerIdSearch
import TdRevent.TimerCalls

/-!
# What an addition tells its caller

Zero stands for a failed addition, and every other result for the id of the
timer. The cursor reaches zero only where `timeMaxId` is the largest `u32`:
there no id is greater than the limit, and the sum wraps around. A timer is
then queued under the id zero, and its addition seems to have failed.

## Implementation notes

The runs here may add an entry under an id that is live. The older timer stays
in the queue then, although the index has lost it, and a later addition at the
same deadline may overwrite it.
-/

namespace TdRevent

namespace Timer

variable {S δ : Type} {t u : Timer S δ} {id : UInt32} {entry : EventEntry S δ}

/-- An addition tells whether it queued the entry. Its result is zero if it
did not, and otherwise the id by which the entry is live and can be taken
back, which leaves the timers as they were. -/
def Reports (t : Timer S δ) (entry : EventEntry S δ) (r : Option (UInt32 × Timer S δ)) : Prop :=
  ∃ id u, r = some (id, u) ∧
    (id = 0 ↔ u = { t with timeId := u.timeId }) ∧
    (id ≠ 0 → (u.timeMaps id).isSome ∧
      u.delTimer id = (some { entry with timeId := id }, { t with timeId := u.timeId }))

/-- The next free id that the cursor comes to. -/
def ComesTo (t : Timer S δ) (id : UInt32) : Prop :=
  ∃ k, t.nextId^[k + 1] t.timeId = id ∧ t.timeMaps id = none ∧
    ∀ j < k, (t.timeMaps (t.nextId^[j + 1] t.timeId)).isSome

/-- With the largest limit, zero is free and no id above the cursor is. -/
def ComesToZero (t : Timer S δ) : Prop :=
  t.timeMaxId = 4294967295 ∧ t.timeMaps 0 = none ∧
    ∀ id, t.timeId < id → (t.timeMaps id).isSome

/-- An addition at the deadline finds an id other than zero, and no timer that
the index has lost is in its place in the queue. -/
def Clear (t : Timer S δ) (deadline : UInt64) : Prop :=
  ¬ t.ComesToZero ∧ ∀ id, t.ComesTo id → t.timerQueue.find ⟨deadline, id⟩ = none

/-- The timers that additions, deletions and expiries lead to. -/
inductive Built (timeMaxId : UInt32) : Timer S δ → Prop
  | new : Built timeMaxId (Timer.new timeMaxId)
  | addFirstTimer {t u : Timer S δ} {id} (entry) (tail : Built timeMaxId t)
      (h : t.addFirstTimer entry = some (id, u)) : Built timeMaxId u
  | addTimer {t u : Timer S δ} {id} (now entry) (tail : Built timeMaxId t)
      (h : t.addTimer now entry = some (id, u)) : Built timeMaxId u
  | delTimer {t : Timer S δ} (id) (tail : Built timeMaxId t) :
      Built timeMaxId (t.delTimer id).2
  | tickTime {t : Timer S δ} (tm) (tail : Built timeMaxId t) :
      Built timeMaxId (t.tickTime tm).2

/-! ## The two additions -/

/-- The id after the cursor is given out if it is free. -/
theorem calcNewId_of_free (hfree : t.timeMaps (t.nextId t.timeId) = none) :
    t.calcNewId = some (t.nextId t.timeId, { t with timeId := t.nextId t.timeId }) :=
  calcNewId_eq_some_iff.mpr ⟨1, calcNewIdLoop_eq_some.mpr
    ⟨rfl, 0, Nat.one_pos, rfl, hfree, fun j hj => absurd hj (Nat.not_lt_zero j)⟩⟩

theorem addFirstTimer_of_new (entry : EventEntry S δ) (hnew : t.calcNewId = some (id, u)) :
    t.addFirstTimer entry = some (id, u.schedule { entry with timeId := id }) := by
  rw [addFirstTimer, hnew]
  rfl

theorem addTimer_of_new {now : UInt64} (hstep : entry.tickStep ≠ 0) (hentry : entry.timeId = 0)
    (hnew : t.calcNewId = some (id, u)) :
    t.addTimer now entry =
      some (id, u.schedule { entry with timeId := id, tickMs := now + entry.tickStep }) := by
  rw [addTimer, if_neg hstep, if_pos hentry, hnew]
  rfl

/-! ## Taking an entry back -/

/-- A deletion undoes an addition under a free id, unless the addition
overwrote a timer that the index had lost. -/
theorem del_schedule_iff (entry : EventEntry S δ) (hfree : t.timeMaps entry.timeId = none) :
    (t.schedule entry).delTimer entry.timeId = (some entry, t) ↔
      t.timerQueue.find entry.key = none := by
  have hindexed : (t.schedule entry).timeMaps entry.timeId = some entry.tickMs := by simp
  rw [delTimer_of_some hindexed, OrderedMap.find_eq_none_iff]
  change ((t.schedule entry).timerQueue.find entry.key,
    (t.schedule entry).forget entry.key) = _ ↔ _
  constructor
  · intro heq e he
    have hqueue := congrArg (fun r => r.2.timerQueue) heq
    exact (mem_forget.mp (hqueue ▸ he : (entry.key, e) ∈ _)).1 rfl
  · intro hnew
    refine Prod.ext (OrderedMap.find_eq_some_iff.mpr (mem_schedule.mpr (Or.inl rfl)))
      (Timer.ext (OrderedMap.ext_mem fun f => ?_) (funext fun id => ?_) rfl rfl)
    · have hne : f ∈ t.timerQueue → f.1 ≠ entry.key :=
        fun hf hkey => hnew f.2 (hkey ▸ hf)
      rw [mem_forget, mem_schedule]
      constructor
      · rintro ⟨hne, rfl | ⟨-, hf⟩⟩
        · exact absurd rfl hne
        · exact hf
      · exact fun hf => ⟨hne hf, Or.inr ⟨hne hf, hf⟩⟩
    · rw [timeMaps_forget, timeMaps_schedule]
      by_cases hid : id = entry.timeId
      · subst hid
        exact (if_pos rfl).trans hfree.symm
      · exact (if_neg hid).trans (if_neg hid)

/-- An entry that was queued under a free id is reported unless the id is zero
or a timer was overwritten. -/
theorem reports_iff (entry : EventEntry S δ) (hfree : t.timeMaps id = none) :
    Reports t entry
      (some (id, Timer.schedule { t with timeId := id } { entry with timeId := id })) ↔
      id ≠ 0 ∧ t.timerQueue.find ⟨entry.tickMs, id⟩ = none := by
  have hback := del_schedule_iff (t := { t with timeId := id })
    { entry with timeId := id } hfree
  have hlive : (Timer.schedule { t with timeId := id } { entry with timeId := id }).timeMaps
      id = some entry.tickMs := by simp
  have hchanged : Timer.schedule { t with timeId := id } { entry with timeId := id } ≠
      { t with timeId := id } := by
    intro heq
    rw [heq] at hlive
    exact absurd (hfree.symm.trans hlive) (by simp)
  constructor
  · rintro ⟨id', u, heq, hzero, htaken⟩
    obtain ⟨rfl, rfl⟩ := Prod.mk.inj (Option.some.inj heq)
    have hid : id ≠ 0 := fun hid => hchanged (hzero.mp hid)
    exact ⟨hid, hback.mp (htaken hid).2⟩
  · rintro ⟨hid, hnew⟩
    exact ⟨id, _, rfl, ⟨fun h0 => absurd h0 hid, fun heq => absurd heq hchanged⟩,
      fun _ => ⟨hlive ▸ rfl, hback.mpr hnew⟩⟩

/-! ## The cursor -/

theorem nextId_range (c : UInt32) : t.nextId c ≤ t.timeMaxId ∨ t.nextId c = 1 := by
  unfold nextId
  split
  · exact Or.inr rfl
  · exact Or.inl (UInt32.not_lt.mp ‹_›)

theorem calcNewId_range (h : t.calcNewId = some (id, u)) :
    id ≤ t.timeMaxId ∨ id = 1 := by
  obtain ⟨n, hn⟩ := calcNewId_eq_some_iff.mp h
  obtain ⟨-, k, -, hiter, -, -⟩ := calcNewIdLoop_eq_some.mp hn
  rw [Function.iterate_succ_apply'] at hiter
  exact hiter ▸ nextId_range _

theorem Assigned.cursor_range {request cursor : UInt32} (h : t.Assigned request id cursor)
    (hcursor : t.timeId ≤ t.timeMaxId ∨ t.timeId = 1) :
    cursor ≤ t.timeMaxId ∨ cursor = 1 := by
  cases h with
  | kept _ => exact hcursor
  | fresh _ hnew => exact calcNewId_range hnew

/-- The limit stays, and the cursor stays below it or at one. -/
theorem Built.cursor {timeMaxId : UInt32} (h : Built timeMaxId t) :
    t.timeMaxId = timeMaxId ∧ (t.timeId ≤ t.timeMaxId ∨ t.timeId = 1) := by
  induction h with
  | new => exact ⟨rfl, Or.inl (UInt32.le_iff_toNat_le.mpr (Nat.zero_le _))⟩
  | addFirstTimer entry _ hadd ih =>
      obtain ⟨hid, rfl⟩ := addFirstTimer_assigned hadd
      exact ⟨ih.1, hid.cursor_range ih.2⟩
  | @addTimer t u id now entry _ hadd ih =>
      by_cases hstep : entry.tickStep = 0
      · obtain ⟨-, -, rfl⟩ | ⟨hne, -⟩ := addTimer_eq_some hadd
        · exact ih
        · exact absurd hstep hne
      · obtain ⟨cursor, hid, rfl⟩ := addTimer_assigned hstep hadd
        exact ⟨ih.1, hid.cursor_range ih.2⟩
  | @delTimer t id _ ih =>
      cases hid : t.timeMaps id with
      | none => rw [delTimer_of_none hid]; exact ih
      | some tick => rw [delTimer_of_some hid]; exact ih
  | @tickTime t tm _ ih =>
      obtain ⟨r, u, heq⟩ : ∃ r u, t.tickTime tm = (r, u) := ⟨_, _, rfl⟩
      rw [heq]
      cases r with
      | none => exact (tickTime_eq_none heq).1 ▸ ih
      | some entry =>
          obtain ⟨key, -, -, -, -, rfl⟩ := tickTime_eq_some heq
          exact ih

theorem le_max_id (c : UInt32) : c ≤ 4294967295 :=
  UInt32.le_iff_toNat_le.mpr (Nat.le_of_lt_succ c.toNat_lt)

/-- Below the largest `u32` the cursor does not come to zero. -/
theorem Built.nextId_ne_zero {timeMaxId : UInt32} (h : Built timeMaxId t)
    (hmax : t.timeMaxId ≠ 4294967295) (k : ℕ) : t.nextId^[k + 1] t.timeId ≠ 0 := by
  have hrange : t.nextId^[k] t.timeId ≤ t.timeMaxId ∨ t.nextId^[k] t.timeId = 1 := by
    cases k with
    | zero => exact h.cursor.2
    | succ k =>
        rw [Function.iterate_succ_apply']
        exact nextId_range _
  rw [Function.iterate_succ_apply']
  generalize t.nextId^[k] t.timeId = c at hrange
  unfold nextId
  split
  · decide
  · intro hzero
    have hc : c = 4294967295 := by grind
    rcases hrange with hle | hone
    · exact hmax (UInt32.le_antisymm (le_max_id _) (hc ▸ hle))
    · rw [hc] at hone
      cases hone

/-- With the largest `u32` as the limit the cursor wraps around. -/
theorem toNat_iterate_of_max (hmax : t.timeMaxId = 4294967295) (k : ℕ) :
    (t.nextId^[k] t.timeId).toNat = (t.timeId.toNat + k) % UInt32.size := by
  induction k with
  | zero => exact (Nat.mod_eq_of_lt t.timeId.toNat_lt).symm
  | succ k ih =>
      have hnext : ∀ c, t.nextId c = c + 1 := by
        intro c
        rw [nextId, hmax, if_neg (UInt32.not_lt.mpr (le_max_id _))]
      rw [Function.iterate_succ_apply', hnext, UInt32.toNat_add, ih]
      exact Nat.mod_add_mod _ _ _

/-- `calcNewId` gives out the free id that the cursor comes to. -/
theorem ComesTo.eq (hnew : t.calcNewId = some (id, u)) {id' : UInt32} :
    t.ComesTo id' ↔ id' = id := by
  obtain ⟨n, hn⟩ := calcNewId_eq_some_iff.mp hnew
  obtain ⟨-, k, -, hiter, hfree, hmin⟩ := calcNewIdLoop_eq_some.mp hn
  constructor
  · rintro ⟨k', hiter', hfree', hmin'⟩
    have hloop := calcNewIdLoop_eq_some.mpr
      ⟨rfl, k', Nat.lt_succ_self k', hiter', hfree', hmin'⟩
    have hcalc := calcNewId_eq_some_iff.mpr ⟨_, hloop⟩
    exact congrArg Prod.fst (Option.some.inj (hcalc.symm.trans hnew))
  · rintro rfl
    exact ⟨k, hiter, hfree, hmin⟩

/-- With the largest limit the cursor comes to an id above it by counting on. -/
theorem iterate_of_max_eq (hmax : t.timeMaxId = 4294967295) (hlt : t.timeId < id) :
    t.nextId^[(id.toNat - t.timeId.toNat - 1) + 1] t.timeId = id := by
  have hlt' : t.timeId.toNat < id.toNat := UInt32.lt_iff_toNat_lt.mp hlt
  have hbound : id.toNat < 4294967296 := id.toNat_lt
  apply UInt32.toNat_inj.mp
  rw [toNat_iterate_of_max hmax]
  simp only [UInt32.size]
  omega

/-- The closed form of the condition that the cursor comes to zero first. -/
theorem Built.comesTo_zero_iff {timeMaxId : UInt32} (h : Built timeMaxId t) :
    t.ComesTo 0 ↔ t.ComesToZero := by
  by_cases hmax : t.timeMaxId = 4294967295
  · have hcursor : t.timeId.toNat < 4294967296 := t.timeId.toNat_lt
    constructor
    · rintro ⟨k, hiter, hfree, hmin⟩
      refine ⟨hmax, hfree, fun id hlt => ?_⟩
      have hlt' : t.timeId.toNat < id.toNat := UInt32.lt_iff_toNat_lt.mp hlt
      have hbound : id.toNat < 4294967296 := id.toNat_lt
      have hzero : (t.timeId.toNat + (k + 1)) % 4294967296 = 0 := by
        rw [← UInt32.size, ← toNat_iterate_of_max hmax, hiter]
        rfl
      rw [← iterate_of_max_eq hmax hlt]
      exact hmin _ (by omega)
    · rintro ⟨-, hfree, htaken⟩
      have hvalue : ∀ j, j ≤ 4294967295 - t.timeId.toNat →
          (t.nextId^[j + 1] t.timeId).toNat =
            if j = 4294967295 - t.timeId.toNat then 0 else t.timeId.toNat + (j + 1) := by
        intro j hj
        rw [toNat_iterate_of_max hmax]
        simp only [UInt32.size]
        split <;> omega
      refine ⟨4294967295 - t.timeId.toNat, UInt32.toNat_inj.mp ?_, hfree, fun j hj => ?_⟩
      · rw [hvalue _ (Nat.le_refl _), if_pos rfl]
        rfl
      · apply htaken
        rw [UInt32.lt_iff_toNat_lt, hvalue j hj.le, if_neg hj.ne]
        omega
  · refine iff_of_false ?_ fun hzero => hmax hzero.1
    rintro ⟨k, hiter, -⟩
    exact h.nextId_ne_zero hmax k hiter

/-- A free id below the limit is one that the cursor comes to. -/
theorem Built.not_full {timeMaxId : UInt32} (h : Built timeMaxId t)
    (hid : t.InRange id) (hfree : t.timeMaps id = none) : ¬ t.Full := by
  intro hfull
  have hmeets : ∃ k, t.nextId^[k + 1] t.timeId = id := by
    by_cases hmax : t.timeMaxId = 4294967295
    · have hcursor : t.timeId.toNat < 4294967296 := t.timeId.toNat_lt
      have hbound : id.toNat < 4294967296 := id.toNat_lt
      refine ⟨(id.toNat + 4294967295 - t.timeId.toNat) % 4294967296, ?_⟩
      apply UInt32.toNat_inj.mp
      rw [toNat_iterate_of_max hmax]
      simp only [UInt32.size]
      omega
    · have hone : 1 ≤ t.timeMaxId := UInt32.le_trans hid.1 hid.2
      have hlt : t.timeMaxId < 4294967295 :=
        UInt32.lt_of_le_of_ne (le_max_id _) hmax
      have hcursor : t.timeId ≤ t.timeMaxId := by
        rcases h.cursor.2 with hle | heq
        · exact hle
        · exact heq ▸ hone
      obtain ⟨k, -, -, hiter⟩ := exists_roundsTo hone hlt hcursor hid
      exact ⟨k, hiter⟩
  obtain ⟨k, hk⟩ := hmeets
  have hsome := hfull k
  rw [hk, hfree] at hsome
  cases hsome

/-- The index never loses a timer if no addition is under a live id. -/
theorem Agrees.clear_iff (h : t.Agrees) {deadline : UInt64} :
    t.Clear deadline ↔ ¬ t.ComesToZero := by
  refine ⟨fun hclear => hclear.1, fun hzero => ⟨hzero, ?_⟩⟩
  rintro id ⟨-, -, hfree, -⟩
  refine OrderedMap.find_eq_none_iff.mpr fun e he => ?_
  exact absurd (hfree.symm.trans (h.indexed he)) (by simp)

/-- An addition and a deletion move the cursor of timers without records. -/
theorem Built.move_cursor [Zero S] {timeMaxId c : UInt32}
    (h : Built timeMaxId { (Timer.new timeMaxId : Timer S δ) with timeId := c }) :
    Built timeMaxId { (Timer.new timeMaxId : Timer S δ) with
      timeId := (Timer.new timeMaxId : Timer S δ).nextId c } := by
  let t : Timer S δ := { (Timer.new timeMaxId : Timer S δ) with timeId := c }
  have hadd := addFirstTimer_of_new (EventEntry.default : EventEntry S δ)
    (calcNewId_of_free (t := t) rfl)
  have hdel := (h.addFirstTimer _ hadd).delTimer (t.nextId c)
  rw [(del_schedule_iff { (EventEntry.default : EventEntry S δ) with
    timeId := t.nextId c } rfl).mpr rfl] at hdel
  exact hdel

/-- With the largest limit the cursor can be anywhere. -/
theorem built_cursor [Zero S] (c : ℕ) :
    Built 4294967295 { (Timer.new 4294967295 : Timer S δ) with timeId := UInt32.ofNat c } := by
  induction c with
  | zero => exact .new
  | succ c ih =>
      have hnext : (Timer.new 4294967295 : Timer S δ).nextId (UInt32.ofNat c) =
          UInt32.ofNat (c + 1) := by
        rw [UInt32.ofNat_add]
        exact if_neg (UInt32.not_lt.mpr (le_max_id _))
      exact hnext ▸ ih.move_cursor

/-- Where an id is free, an addition tells its caller the truth if and only if
it queues nothing or the way is clear at its deadline. -/
theorem additions_report {timeMaxId : UInt32} (h : Built timeMaxId t) (hfree : ¬ t.Full)
    (now : UInt64) (entry : EventEntry S δ) (hentry : entry.timeId = 0) :
    (Reports t { entry with tickMs := now + entry.tickStep } (t.addTimer now entry) ↔
      entry.tickStep = 0 ∨ t.Clear (now + entry.tickStep)) ∧
    (Reports t entry (t.addFirstTimer entry) ↔ t.Clear entry.tickMs) := by
  cases hnew : t.calcNewId with
  | none => exact absurd (calcNewId_eq_none.mp hnew) hfree
  | some r =>
      obtain ⟨id, u⟩ := r
      obtain ⟨hid, rfl⟩ := calcNewId_eq_some hnew
      have hclear : ∀ deadline, t.Clear deadline ↔
          id ≠ 0 ∧ t.timerQueue.find ⟨deadline, id⟩ = none := by
        intro deadline
        rw [Clear, ← h.comesTo_zero_iff]
        simp [ComesTo.eq hnew, eq_comm]
      constructor
      · by_cases hstep : entry.tickStep = 0
        · simp [addTimer, hstep, Reports]
        · rw [addTimer_of_new hstep hentry hnew, or_iff_right hstep, hclear]
          exact reports_iff { entry with tickMs := now + entry.tickStep } hid
      · rw [addFirstTimer_of_new entry hnew, hclear]
        exact reports_iff entry hid

/-- A timer of a limit below the largest `u32` is reported. -/
theorem additions_report_nine :
    let t : Timer Int32 Unit := Timer.new 9
    let entry : EventEntry Int32 Unit := { (EventEntry.default : EventEntry Int32 Unit) with
      tickStep := 5 }
    Reports t { entry with tickMs := 2 + 5 } (t.addTimer 2 entry) ∧
      Reports t entry (t.addFirstTimer entry) := by
  intro t entry
  have hfree : ¬ t.Full := Built.not_full .new (show t.InRange 1 by decide) rfl
  have hclear : ∀ deadline, t.Clear deadline := fun deadline =>
    (new_agrees 9).clear_iff.mpr fun hzero => absurd hzero.1 (by decide)
  have hreport := additions_report .new hfree 2 entry rfl
  exact ⟨hreport.1.mpr (Or.inr (hclear _)), hreport.2.mpr (hclear _)⟩

/-- After a turn through all ids the next timer is queued under zero, and its
addition returns zero. -/
theorem addition_returns_zero :
    let t : Timer Int32 Unit :=
      { (Timer.new 4294967295 : Timer Int32 Unit) with timeId := 4294967295 }
    let entry : EventEntry Int32 Unit := { (EventEntry.default : EventEntry Int32 Unit) with
      tickStep := 5 }
    Built 4294967295 t ∧ (t.InRange 1 ∧ t.timeMaps 1 = none) ∧ entry.timeId = 0 ∧
      (∃ u, t.addTimer 2 entry = some (0, u) ∧ u.timeMaps 0 = some 7) ∧
      ¬ Reports t { entry with tickMs := 2 + 5 } (t.addTimer 2 entry) ∧
      ¬ Reports t entry (t.addFirstTimer entry) := by
  intro t entry
  have hnext : t.nextId t.timeId = 0 := by decide
  have hnew := calcNewId_of_free (t := t) rfl
  rw [hnext] at hnew
  have hadd : t.addTimer 2 entry = _ := addTimer_of_new (by decide) rfl hnew
  refine ⟨built_cursor 4294967295, by decide, rfl, ⟨_, hadd, rfl⟩, ?_, ?_⟩
  · rw [hadd]
    exact fun h => ((reports_iff { entry with tickMs := 2 + 5 } rfl).mp h).1 rfl
  · rw [addFirstTimer_of_new entry hnew]
    exact fun h => ((reports_iff entry rfl).mp h).1 rfl

end Timer

end TdRevent
