import TdRevent.TimerDeadlines

/-!
# Every firing takes an arming

What a pass fires leaves the queue with it. A timer that fires again was therefore
armed again in between: the numbers that tell the timers apart are given once.
-/

namespace TdRevent

open Interaction

variable {S δ : Type}

namespace EventLoop

variable {s t : EventLoop S δ × List (TimerFrame S δ)} {l : Happening S δ}
  {ls : List (Happening S δ)} {number : ℕ}

/-- The timer was added and is not queued. -/
structure Unqueued (number : ℕ) (s : EventLoop S δ × List (TimerFrame S δ)) : Prop where
  added : number < s.1.added
  unqueued : ∀ f ∈ s.1.timer.timerQueue, s.1.owner f.1 ≠ number

/-- The arming of another timer. -/
theorem Unqueued.arm {ev : EventLoop S δ} {fs : List (TimerFrame S δ)}
    (h : Unqueued number (ev, fs)) {other : Option ℕ} {cursor : UInt32} {entry : EventEntry S δ}
    (hne : other.getD ev.added ≠ number) : Unqueued number (ev.arm other cursor entry, fs) := by
  refine ⟨?_, fun f hf => ?_⟩
  · cases other with
    | none => exact h.added.trans (Nat.lt_succ_self _)
    | some n => exact h.added
  · rcases mem_arm hf with ⟨rfl, howner⟩ | ⟨hf, howner⟩
    · rw [howner]
      exact hne
    · rw [howner]
      exact h.unqueued f hf

theorem Unqueued.shrink (h : Unqueued number s) (hadded : t.1.added = s.1.added)
    (howner : t.1.owner = s.1.owner)
    (hsub : ∀ f ∈ t.1.timer.timerQueue, f ∈ s.1.timer.timerQueue) : Unqueued number t := by
  refine ⟨hadded ▸ h.added, fun f hf => ?_⟩
  rw [howner]
  exact h.unqueued f (hsub f hf)

/-- Only an arming of the timer queues it. -/
theorem TimerStep.unqueued (hstep : TimerStep s l t) (hl : l.arming number = none)
    (h : Unqueued number s) : Unqueued number t := by
  have hne : ∀ {n : ℕ} {a : Option UInt64 × EventEntry S δ},
      (if n = number then some a else none) = none → n ≠ number := by
    intro n a hnone heq
    rw [if_pos heq] at hnone
    cases hnone
  cases hstep with
  | @armed ev fs c _ _ _ _ _ =>
      have hclock : Unqueued number ({ ev with clock := c }, fs) := ⟨h.added, h.unqueued⟩
      exact hclock.arm (hne hl)
  | armed_at _ _ => exact h.arm (hne hl)
  | deleted _ => exact h.shrink rfl rfl fun f hf => Timer.mem_delTimer hf
  | began _ => exact h.shrink rfl rfl fun f hf => hf
  | ended _ => exact h.shrink rfl rfl fun f hf => hf
  | fired hdue =>
      obtain ⟨_, -, -, -, -, rfl⟩ := Timer.tickTime_eq_some hdue
      exact h.shrink rfl rfl fun f hf => (Timer.mem_forget.mp hf).2
  | over_ hr _ =>
      rw [hr.kept]
      exact h.shrink rfl rfl fun f hf => hf
  | @rearmed ev ev' fs n entry r c _ _ hr _ _ =>
      rw [hr.kept]
      have hidle : Unqueued number
          ({ ev with results := ev'.results, firing := none, clock := c }, fs) :=
        ⟨h.added, h.unqueued⟩
      exact @Unqueued.arm S δ number _ fs hidle (some n) _ _ (hne hl)

/-- A timer that fires leaves the queue. -/
theorem TimerStep.fired_unqueued {now : UInt64} {entry : EventEntry S δ}
    (hstep : TimerStep s (.fired now number entry) t) (hs : Places s) : Unqueued number t := by
  cases hstep with
  | fired hdue =>
      obtain ⟨hmem, -, rfl⟩ := hs.taken hdue
      refine ⟨hs.added _ hmem, fun f hf heq => ?_⟩
      obtain ⟨hne, hf⟩ := Timer.mem_forget.mp hf
      exact hne (congrArg Prod.fst (hs.distinct f hf _ hmem heq))

/-- A timer that fires was queued. -/
theorem TimerStep.fired_queued {now : UInt64} {entry : EventEntry S δ}
    (hstep : TimerStep s (.fired now number entry) t) (hs : Places s) :
    ¬ Unqueued number s := by
  cases hstep with
  | fired hdue => exact fun h => h.unqueued _ (hs.taken hdue).1 rfl

theorem path_unqueued (h : Path TimerStep s ls t) (hquiet : ∀ l ∈ ls, l.arming number = none)
    (hs : Unqueued number s) : Unqueued number t := by
  induction h with
  | nil _ => exact hs
  | cons hstep _ ih =>
      exact ih (fun l hl => hquiet l (List.mem_cons_of_mem _ hl))
        (hstep.unqueued (hquiet _ List.mem_cons_self) hs)

/-- Between two firings of a timer it is armed. -/
theorem path_rearmed (hs : Places s)
    {pre mid post : List (Happening S δ)} {now now' : UInt64} {entry entry' : EventEntry S δ}
    (h : Path TimerStep s
      (pre ++ .fired now number entry :: (mid ++ .fired now' number entry' :: post)) t) :
    ∃ l ∈ mid, l.arming number ≠ none := by
  by_contra hnone
  obtain ⟨u, hpre, hrest⟩ := h.split
  have hu : Places u := path_places hpre hs
  rcases hrest with _ | @⟨_, v, _, _, _, hfirst, hrest⟩
  obtain ⟨w, hmid, hrest⟩ := hrest.split
  rcases hrest with _ | ⟨hsecond, -⟩
  have hw : Places w := path_places hmid (hfirst.places hu)
  have hquiet : ∀ l ∈ mid, l.arming number = none := fun l hl =>
    by_contra fun hne => hnone ⟨l, hl, hne⟩
  exact hsecond.fired_queued hw (path_unqueued hmid hquiet (hfirst.fired_unqueued hu))

end EventLoop

end TdRevent
