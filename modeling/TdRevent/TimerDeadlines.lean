import TdRevent.TimerPlaces

/-!
# When a timer fires

A pass fires an arming whose deadline is not after the time of the pass. The
deadline of an arming is the sum of a clock reading and the step, computed
modulo 2^64. The timer therefore fires early exactly where that sum wraps
around: a very long step stands for a deadline in the past.

## Implementation notes

A timer that is queued at a given time has no reading of the clock.
-/

namespace TdRevent

open Interaction

variable {S δ : Type}

/-- The clock reading and the entry of an arming of the timer. -/
def Happening.arming (number : ℕ) : Happening S δ → Option (Option UInt64 × EventEntry S δ)
  | .armed n clock entry => if n = number then some (clock, entry) else none
  | .rearmed n _ clock entry => if n = number then some (some clock, entry) else none
  | _ => none

/-- The last arming of the timer. -/
def lastArming (number : ℕ) (ls : List (Happening S δ)) :
    Option (Option UInt64 × EventEntry S δ) :=
  (ls.filterMap (Happening.arming number)).getLast?

section

variable {number : ℕ} {ls : List (Happening S δ)} {l : Happening S δ}

theorem lastArming_snoc :
    lastArming number (ls ++ [l]) = (l.arming number).or (lastArming number ls) := by
  rw [lastArming, lastArming, List.filterMap_append]
  cases h : l.arming number with
  | none => simp [h]
  | some a => simp [h]

theorem lastArming_snoc_of_none (h : l.arming number = none) :
    lastArming number (ls ++ [l]) = lastArming number ls := by
  rw [lastArming_snoc, h, Option.none_or]

theorem lastArming_snoc_of_some {a : Option UInt64 × EventEntry S δ}
    (h : l.arming number = some a) : lastArming number (ls ++ [l]) = some a := by
  rw [lastArming_snoc, h, Option.some_or]

end

/-- No timer fires early: the time of the pass is at or after the sum of the
reading and the step of the arming that it fires. -/
def OnTime (ls : List (Happening S δ)) : Prop :=
  ∀ pre post now number entry c, ls = pre ++ .fired now number entry :: post →
    lastArming number pre = some (some c, entry) →
    c.toNat + entry.tickStep.toNat ≤ now.toNat

namespace EventLoop

variable {s t : EventLoop S δ × List (TimerFrame S δ)} {l : Happening S δ}
  {ls : List (Happening S δ)}

/-- The queued timers are as they were armed last. -/
def Armed (ls : List (Happening S δ)) (s : EventLoop S δ × List (TimerFrame S δ)) : Prop :=
  ∀ f ∈ s.1.timer.timerQueue, ∃ clock, lastArming (s.1.owner f.1) ls = some (clock, f.2)

/-- After an arming the timer is queued as it was armed, and the others are as
they were. -/
theorem Armed.arm {ev : EventLoop S δ} {fs : List (TimerFrame S δ)} (h : Armed ls (ev, fs))
    {number : Option ℕ} {cursor : UInt32} {entry : EventEntry S δ} {clock : Option UInt64}
    (hself : l.arming (number.getD ev.added) = some (clock, entry))
    (hother : ∀ n, n ≠ number.getD ev.added → l.arming n = none)
    (hqueue : ∀ g ∈ ev.timer.timerQueue, ev.owner g.1 ≠ number.getD ev.added) :
    Armed (ls ++ [l]) (ev.arm number cursor entry, fs) := by
  intro f hf
  rcases mem_arm hf with ⟨rfl, howner⟩ | ⟨hf, howner⟩
  · exact ⟨clock, by rw [howner, lastArming_snoc_of_some hself]⟩
  · rw [howner, lastArming_snoc_of_none (hother _ (hqueue f hf))]
    exact h f hf

/-- A step that arms nothing and queues nothing. -/
theorem Armed.shrink (h : Armed ls s) (hl : ∀ n, l.arming n = none)
    (howner : t.1.owner = s.1.owner)
    (hsub : ∀ f ∈ t.1.timer.timerQueue, f ∈ s.1.timer.timerQueue) : Armed (ls ++ [l]) t := by
  intro f hf
  rw [howner, lastArming_snoc_of_none (hl _)]
  exact h f (hsub f hf)

theorem TimerStep.armed_last (hstep : TimerStep s l t) (hs : Places s) (h : Armed ls s) :
    Armed (ls ++ [l]) t := by
  cases hstep with
  | @armed ev fs c id cursor entry _ _ =>
      have hclock : Armed ls ({ ev with clock := c }, fs) := h
      exact hclock.arm (if_pos rfl) (fun n hn => if_neg hn.symm) fun g hg => (hs.added g hg).ne
  | armed_at _ _ =>
      exact h.arm (if_pos rfl) (fun n hn => if_neg hn.symm) fun g hg => (hs.added g hg).ne
  | deleted _ => exact h.shrink (fun _ => rfl) rfl fun f hf => Timer.mem_delTimer hf
  | began _ => exact h.shrink (fun _ => rfl) rfl fun f hf => hf
  | ended _ => exact h.shrink (fun _ => rfl) rfl fun f hf => hf
  | fired hdue =>
      obtain ⟨key, -, -, -, -, rfl⟩ := Timer.tickTime_eq_some hdue
      exact h.shrink (fun _ => rfl) rfl fun f hf => (Timer.mem_forget.mp hf).2
  | over_ hr _ =>
      rw [hr.kept]
      exact h.shrink (fun _ => rfl) rfl fun f hf => hf
  | @rearmed ev ev' fs number entry r c id cursor hr _ _ =>
      rw [hr.kept]
      have hidle : Armed ls
          ({ ev with results := ev'.results, firing := none, clock := c }, fs) := h
      refine hidle.arm (if_pos rfl) (fun n hn => if_neg hn.symm) fun g hg heq => ?_
      exact hs.apart g hg (heq ▸ List.mem_cons_self)

/-- The deadline of an arming is the wrapped sum of the reading and the step. -/
theorem TimerStep.deadline (hstep : TimerStep s l t) {number : ℕ} {c : UInt64}
    {entry : EventEntry S δ} (h : l.arming number = some (some c, entry)) :
    entry.tickMs = c + entry.tickStep := by
  have hinj : ∀ {n : ℕ} {clock : Option UInt64} {e : EventEntry S δ},
      (if n = number then some (clock, e) else none) = some (some c, entry) →
      clock = some c ∧ e = entry := by
    intro n clock e h
    split at h
    · exact Prod.mk.inj (Option.some.inj h)
    · cases h
  cases hstep with
  | armed _ htick =>
      obtain ⟨hc, rfl⟩ := hinj h
      obtain rfl := Option.some.inj hc
      exact htick
  | armed_at _ _ => exact absurd (hinj h).1 (by simp)
  | rearmed _ _ _ =>
      obtain ⟨hc, rfl⟩ := hinj h
      obtain rfl := Option.some.inj hc
      rfl
  | deleted _ => cases h
  | began _ => cases h
  | ended _ => cases h
  | fired _ => cases h
  | over_ _ _ => cases h

/-- The invariant of a path from the start of the library. -/
structure Deadlines (ls : List (Happening S δ)) (s : EventLoop S δ × List (TimerFrame S δ)) :
    Prop where
  places : Places s
  armed : Armed ls s
  deadline : ∀ number c entry, lastArming number ls = some (some c, entry) →
    entry.tickMs = c + entry.tickStep

theorem Deadlines.step (h : Deadlines ls s) (hstep : TimerStep s l t) :
    Deadlines (ls ++ [l]) t where
  places := hstep.places h.places
  armed := hstep.armed_last h.places h.armed
  deadline number c entry hlast := by
    cases hl : l.arming number with
    | none =>
        rw [lastArming_snoc_of_none hl] at hlast
        exact h.deadline number c entry hlast
    | some a =>
        rw [lastArming_snoc_of_some hl] at hlast
        obtain rfl := Option.some.inj hlast
        exact hstep.deadline hl

variable {timeMaxId : UInt32} {clock : UInt64} {results : ℕ → RetValue × UInt64}
  {ev : EventLoop S δ} {fs : List (TimerFrame S δ)}

theorem path_deadlines (h : TimerPath (new timeMaxId clock results) ls ev fs) :
    Deadlines ls (ev, fs) := by
  have hnew : Deadlines [] ((new timeMaxId clock results : EventLoop S δ), []) := by
    refine ⟨places_new _ _ _, fun f hf => ?_, fun number c entry hlast => ?_⟩
    · simp [new, Timer.new] at hf
    · cases hlast
  exact h.invariant hnew fun _ _ _ _ h hstep => h.step hstep

/-- What a pass fires is the last arming of its timer, and is due. -/
theorem path_fired (h : TimerPath (new timeMaxId clock results) ls ev fs)
    {pre post : List (Happening S δ)} {now : UInt64} {number : ℕ} {entry : EventEntry S δ}
    (hls : ls = pre ++ .fired now number entry :: post) :
    ∃ reading, lastArming number pre = some (reading, entry) ∧ entry.tickMs ≤ now ∧
      ∀ c, reading = some c → entry.tickMs = c + entry.tickStep := by
  subst hls
  obtain ⟨⟨ev', fs'⟩, hpre, hpost⟩ := h.split
  have hdead := path_deadlines hpre
  rcases hpost with _ | ⟨hstep, -⟩
  cases hstep with
  | fired hdue =>
      obtain ⟨hmem, htick, -⟩ := hdead.places.taken hdue
      obtain ⟨reading, hlast⟩ := hdead.armed _ hmem
      exact ⟨reading, hlast, htick, fun c hc => hdead.deadline _ c entry (hc ▸ hlast)⟩

/-- A sum that does not wrap around is reached exactly if it is due. -/
theorem due_iff {c step now : UInt64} (hdue : c + step ≤ now) :
    c.toNat + step.toNat ≤ now.toNat ↔ c.toNat + step.toNat < UInt64.size := by
  constructor
  · exact fun hle => hle.trans_lt now.toNat_lt
  · intro hfits
    rw [UInt64.le_iff_toNat_le, UInt64.toNat_add, Nat.mod_eq_of_lt hfits] at hdue
    exact hdue

/-- In every run a pass fires the last arming of a timer. If the deadline was
computed from a reading of the clock, the pass is not before the sum of the
reading and the step if and only if the sum is below 2^64. -/
theorem fires_on_time_iff [Zero S] (timeMaxId : UInt32) (clock : UInt64)
    (results : ℕ → RetValue × UInt64) :
    (∀ c : Config (EventLoop S δ) (TimerReply (S := S) (δ := δ)) Unit,
      anyCalls.Reaches (new timeMaxId clock results) c → anyCalls.Open c.stack →
      ∃ ls fs, TimerPath (new timeMaxId clock results) ls c.state fs ∧
        Noted ls c.state.log) ∧
    ∀ (ls : List (Happening S δ)) (ev : EventLoop S δ) (fs : List (TimerFrame S δ)),
      TimerPath (new timeMaxId clock results) ls ev fs →
      ∀ pre post now number entry, ls = pre ++ .fired now number entry :: post →
        ∃ reading, lastArming number pre = some (reading, entry) ∧ entry.tickMs ≤ now ∧
          ∀ c, reading = some c →
            (c.toNat + entry.tickStep.toNat ≤ now.toNat ↔
              c.toNat + entry.tickStep.toNat < UInt64.size) := by
  refine ⟨fun c => reaches_noted, ?_⟩
  intro ls ev fs hpath pre post now number entry hls
  obtain ⟨reading, hlast, hdue, hsum⟩ := path_fired hpath hls
  exact ⟨reading, hlast, hdue, fun c hc => due_iff (hsum c hc ▸ hdue)⟩

/-- A timer with the step 5, added at the clock value 5, fires at 10. -/
theorem fires_on_time_ten :
    ∃ reading, lastArming 0
        [.armed 0 (some 5)
          ({ (EventEntry.newTimer 5 5 false (some 7) none : EventEntry Int32 Unit) with
            timeId := 1 }), .began 10] =
        some (reading, { EventEntry.newTimer 5 5 false (some 7) none with timeId := 1 }) ∧
      (10 : UInt64) ≤ 10 ∧ ∀ c, reading = some c →
        (c.toNat + (5 : UInt64).toNat ≤ (10 : UInt64).toNat ↔
          c.toNat + (5 : UInt64).toNat < UInt64.size) := by
  have hpath : TimerPath (new 9 0 fun _ => (.OK, 0) : EventLoop Int32 Unit) _ _ _ :=
    .cons (@TimerStep.armed Int32 Unit _ _ 5 1 1
        (EventEntry.newTimer 5 5 false (some 7) none) (.fresh rfl rfl) rfl)
      (.cons (.began 10) (.cons (.fired rfl) (.nil _)))
  exact (fires_on_time_iff 9 0 fun _ => (.OK, 0)).2 _ _ _ hpath [_, _] [] 10 0 _ rfl

/-- A timer with the longest step, added at the clock value 5, fires at 10. -/
theorem fires_early :
    ∃ c ls fs, timerSystem.Reaches (new 9 0 fun _ => (.OK, 0) : EventLoop Int32 Unit) c ∧
      timerSystem.Open c.stack ∧ TimerPath (new 9 0 fun _ => (.OK, 0)) ls c.state fs ∧
      Noted ls c.state.log ∧ ¬ OnTime ls := by
  have start := System.Reaches.refl (S := timerSystem)
    (new 9 0 fun _ => (.OK, 0) : EventLoop Int32 Unit)
  have added := (start.call (.addNewTimer 18446744073709551615 false (some 7) none) trivial
    trivial).answer (5 : UInt64) rfl
  have firing := (added.call (.timerProcess 2) trivial ⟨rfl, rfl⟩).answer (10 : UInt64) rfl
  have hpath : TimerPath (new 9 0 fun _ => (.OK, 0)) _ _ _ :=
    .cons (@TimerStep.armed Int32 Unit _ _ 5 1 1
        (EventEntry.newTimer 5 18446744073709551615 false (some 7) none) (.fresh rfl rfl) rfl)
      (.cons (.began 10) (.cons (.fired rfl) (.nil _)))
  refine ⟨_, _, _, firing, trivial, hpath, ?_, fun hontime => ?_⟩
  · obtain ⟨log, hlog, hnoted⟩ := path_noted hpath
    exact (hlog : _ = log) ▸ hnoted
  · exact absurd (hontime [_, _] [] 10 0 _ 5 rfl rfl) (by decide)

end EventLoop

end TdRevent
