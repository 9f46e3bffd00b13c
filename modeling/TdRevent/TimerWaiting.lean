import TdRevent.TimerDeadlines

/-!
# Every due timer is served

An arming stays in the queue until it fires, its id is deleted, or another arming takes
its key. When a pass ends, nothing is queued that is due at its time. So by the end of a
pass every arming whose deadline has come was served in one of these ways.

## Implementation notes

Passes may be nested: a callback can start one of its own. The pass that ends is the one
that was begun last among those that have not ended.
-/

namespace TdRevent

open Interaction

variable {S δ : Type}

/-- The times of the passes that are going on after the step, the latest first. -/
def Happening.passes : Happening S δ → List UInt64 → List UInt64
  | .began now, passes => now :: passes
  | .ended, passes => passes.tail
  | _, passes => passes

/-- The times of the passes that are going on. -/
def openPasses (ls : List (Happening S δ)) : List UInt64 :=
  ls.foldl (fun passes l => l.passes passes) []

/-- What takes an arming of the timer out of the queue. -/
def Happening.Serves (number : ℕ) (entry : EventEntry S δ) (l : Happening S δ) : Prop :=
  (∃ now, l = .fired now number entry) ∨ l = .deleted entry.timeId ∨
    ∃ other clock entry', l.arming other = some (clock, entry') ∧ entry'.key = entry.key

/-- By the end of a pass every arming is served whose deadline the time of the pass has
come to. -/
def Served (ls : List (Happening S δ)) : Prop :=
  ∀ pre mid post l number clock entry now, ls = pre ++ l :: (mid ++ .ended :: post) →
    l.arming number = some (clock, entry) → (openPasses (pre ++ l :: mid)).head? = some now →
    entry.tickMs ≤ now → ∃ l' ∈ mid, l'.Serves number entry

namespace EventLoop

variable {s t : EventLoop S δ × List (TimerFrame S δ)} {l : Happening S δ}
  {ls : List (Happening S δ)} {number : ℕ} {entry : EventEntry S δ}

/-- The timer is queued as it was armed. -/
structure QueuedAs (number : ℕ) (entry : EventEntry S δ)
    (s : EventLoop S δ × List (TimerFrame S δ)) : Prop where
  queued : (entry.key, entry) ∈ s.1.timer.timerQueue
  owner : s.1.owner entry.key = number

/-- An arming queues its timer. -/
theorem queuedAs_arm (ev : EventLoop S δ) (fs : List (TimerFrame S δ)) (other : Option ℕ)
    (cursor : UInt32) : QueuedAs (other.getD ev.added) entry (ev.arm other cursor entry, fs) :=
  ⟨Timer.mem_schedule.mpr (Or.inl rfl), Function.update_self ..⟩

/-- An arming under another key. -/
theorem QueuedAs.arm {ev : EventLoop S δ} {fs : List (TimerFrame S δ)}
    (h : QueuedAs number entry (ev, fs)) {other : Option ℕ} {cursor : UInt32}
    {entry' : EventEntry S δ} (hne : entry'.key ≠ entry.key) :
    QueuedAs number entry (ev.arm other cursor entry', fs) :=
  ⟨Timer.mem_schedule.mpr (Or.inr ⟨hne.symm, h.queued⟩),
    (Function.update_of_ne hne.symm ..).trans h.owner⟩

theorem TimerStep.queuedAs_armed (hstep : TimerStep s l t) {clock : Option UInt64}
    (hl : l.arming number = some (clock, entry)) : QueuedAs number entry t := by
  have hinj : ∀ {n : ℕ} {c : Option UInt64} {e : EventEntry S δ},
      (if n = number then some (c, e) else none) = some (clock, entry) →
      n = number ∧ e = entry := by
    intro n c e h
    split at h
    · rename_i hn
      exact ⟨hn, (Prod.mk.inj (Option.some.inj h)).2⟩
    · cases h
  cases hstep with
  | @armed ev fs c _ cursor _ _ _ =>
      obtain ⟨rfl, rfl⟩ := hinj hl
      exact queuedAs_arm { ev with clock := c } fs none cursor
  | @armed_at ev fs _ cursor _ _ _ =>
      obtain ⟨rfl, rfl⟩ := hinj hl
      exact queuedAs_arm ev fs none cursor
  | @rearmed ev ev' fs n _ _ c _ cursor _ _ _ =>
      obtain ⟨rfl, rfl⟩ := hinj hl
      exact queuedAs_arm { ev' with firing := none, clock := c } fs (some n) cursor
  | deleted _ => cases hl
  | began _ => cases hl
  | ended _ => cases hl
  | fired _ => cases hl
  | over_ _ _ => cases hl

/-- A timer stays queued until something serves it. -/
theorem TimerStep.queuedAs (hstep : TimerStep s l t) (hs : Places s) (h : QueuedAs number entry s)
    (hl : ¬ l.Serves number entry) : QueuedAs number entry t := by
  have hkey : ∀ {other : ℕ} {clock : Option UInt64} {entry' : EventEntry S δ},
      l.arming other = some (clock, entry') → entry'.key ≠ entry.key := fun harming heq =>
    hl (Or.inr (Or.inr ⟨_, _, _, harming, heq⟩))
  cases hstep with
  | @armed ev fs c _ _ _ _ _ =>
      have hclock : QueuedAs number entry ({ ev with clock := c }, fs) := ⟨h.queued, h.owner⟩
      exact hclock.arm (hkey (if_pos rfl))
  | armed_at _ _ => exact h.arm (hkey (if_pos rfl))
  | @deleted ev fs id =>
      have hid : id ≠ entry.timeId := fun heq => hl (Or.inr (Or.inl (heq ▸ rfl)))
      refine ⟨?_, h.owner⟩
      change (entry.key, entry) ∈ (ev.timer.delTimer id).2.timerQueue
      cases hmaps : ev.timer.timeMaps id with
      | none =>
          rw [Timer.delTimer_of_none hmaps]
          exact h.queued
      | some tick =>
          rw [Timer.delTimer_of_some hmaps]
          exact Timer.mem_forget.mpr ⟨fun hk => hid (congrArg TreeKey.id hk).symm, h.queued⟩
  | began _ => exact ⟨h.queued, h.owner⟩
  | ended _ => exact ⟨h.queued, h.owner⟩
  | @fired ev fs now entry' _ hdue =>
      obtain ⟨hmem, -, rfl⟩ := hs.taken hdue
      refine ⟨Timer.mem_forget.mpr ⟨fun hk => hl (Or.inl ⟨now, ?_⟩), h.queued⟩, h.owner⟩
      have hsame := hs.distinct _ hmem _ h.queued (congrArg ev.owner hk).symm
      obtain rfl : entry' = entry := congrArg Prod.snd hsame
      rw [← h.owner]
  | over_ hr _ =>
      rw [hr.kept]
      exact ⟨h.queued, h.owner⟩
  | @rearmed ev ev' fs n entry' r c _ _ hr _ _ =>
      rw [hr.kept]
      have hidle : QueuedAs number entry
          ({ ev with results := ev'.results, firing := none, clock := c }, fs) :=
        ⟨h.queued, h.owner⟩
      exact hidle.arm (hkey (if_pos rfl))

theorem path_queuedAs (h : Path TimerStep s ls t) (hs : Places s)
    (hqueued : QueuedAs number entry s) (hls : ∀ l ∈ ls, ¬ l.Serves number entry) :
    QueuedAs number entry t := by
  induction h with
  | nil _ => exact hqueued
  | cons hstep _ ih =>
      exact ih (hstep.places hs) (hstep.queuedAs hs hqueued (hls _ List.mem_cons_self))
        fun l hl => hls l (List.mem_cons_of_mem _ hl)

/-! ## The passes -/

/-- The time of the pass that the frame is. -/
def frameTime : TimerFrame S δ → Option UInt64
  | .pass now => some now
  | .callback _ _ => none

/-- The frames of the passes are those of the steps. -/
def PassesOpen (ls : List (Happening S δ)) (s : EventLoop S δ × List (TimerFrame S δ)) : Prop :=
  s.2.filterMap frameTime = openPasses ls

theorem TimerStep.passes (hstep : TimerStep s l t) (h : PassesOpen ls s) :
    PassesOpen (ls ++ [l]) t := by
  have hsnoc : openPasses (ls ++ [l]) = l.passes (openPasses ls) := List.foldl_append ..
  unfold PassesOpen at h ⊢
  rw [hsnoc, ← h]
  cases hstep with
  | _ => rfl

theorem path_passes {ev : EventLoop S δ} (h : Path TimerStep (ev, []) ls t) : PassesOpen ls t :=
  h.invariant rfl fun _ _ _ _ h hstep => hstep.passes h

/-- Nothing is due when a pass ends. -/
theorem TimerStep.ended_queuedAs (hstep : TimerStep s .ended t) (h : QueuedAs number entry s) :
    ∃ now, (s.2.filterMap frameTime).head? = some now ∧ now < entry.tickMs := by
  cases hstep with
  | ended hdone => exact ⟨_, rfl, (Timer.tickTime_eq_none hdone).2 _ h.queued⟩

/-- On every path, the end of a pass finds every due timer served. -/
theorem path_served {ev : EventLoop S δ} (hev : Places (ev, []))
    (h : Path TimerStep (ev, []) ls t) : Served ls := by
  rintro pre mid post l number clock entry now rfl harming hpass hdue
  by_contra hnone
  have hquiet : ∀ l' ∈ mid, ¬ l'.Serves number entry := fun l' hl' hserves =>
    hnone ⟨l', hl', hserves⟩
  obtain ⟨u, hpre, hrest⟩ := h.split
  rcases hrest with _ | @⟨_, v, _, _, _, harmed, hrest⟩
  obtain ⟨w, hmid, hrest⟩ := hrest.split
  rcases hrest with _ | ⟨hended, -⟩
  have hv : Places v := harmed.places (path_places hpre hev)
  obtain ⟨now', hnow', hlate⟩ := hended.ended_queuedAs
    (path_queuedAs hmid hv (harmed.queuedAs_armed harming) hquiet)
  have hpasses : w.2.filterMap frameTime = openPasses (pre ++ l :: mid) :=
    path_passes (hpre.append (.cons harmed hmid))
  rw [hpasses, hpass] at hnow'
  obtain rfl := Option.some.inj hnow'
  exact absurd hdue (UInt64.not_le.mpr hlate)

end EventLoop

end TdRevent
