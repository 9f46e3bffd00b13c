import TdRevent.TimerPaths
import TdRevent.TimerDeletion

/-!
# Where the timers of a path are

Every timer that was added is in one place at most: it is queued once, or one
callback of it is running. The numbers of the timers tell them apart, also
where several carry one id.

## Implementation notes

The records of the index are among the queued timers, but a queued timer may
have lost its record to a later addition under the same id.
-/

namespace TdRevent

open Interaction

variable {S δ : Type}

/-- The timer whose callback the frame is. -/
def TimerFrame.number : TimerFrame S δ → Option ℕ
  | .pass _ => none
  | .callback number _ => some number

/-- The numbers of the timers whose callbacks are running. -/
def running (fs : List (TimerFrame S δ)) : List ℕ := fs.filterMap TimerFrame.number

@[simp] theorem running_pass (now : UInt64) (fs : List (TimerFrame S δ)) :
    running (.pass now :: fs) = running fs := rfl

@[simp] theorem running_callback (number : ℕ) (entry : EventEntry S δ)
    (fs : List (TimerFrame S δ)) : running (.callback number entry :: fs) = number :: running fs :=
  rfl

theorem mem_running {number : ℕ} {entry : EventEntry S δ} {fs : List (TimerFrame S δ)}
    (h : .callback number entry ∈ fs) : number ∈ running fs :=
  List.mem_filterMap.mpr ⟨_, h, rfl⟩

/-- A deletion queues nothing. -/
theorem Timer.mem_delTimer {t : Timer S δ} {id : UInt32} {f : TreeKey × EventEntry S δ}
    (hf : f ∈ (t.delTimer id).2.timerQueue) : f ∈ t.timerQueue := by
  cases hid : t.timeMaps id with
  | none => rwa [Timer.delTimer_of_none hid] at hf
  | some tick =>
      rw [Timer.delTimer_of_some hid] at hf
      exact (Timer.mem_forget.mp hf).2

/-- Every timer is in one place. -/
structure Placed (timer : Timer S δ) (owner : TreeKey → ℕ) (count : ℕ) (numbers : List ℕ) :
    Prop where
  key : ∀ key entry, (key, entry) ∈ timer.timerQueue → entry.key = key
  index : ∀ id tick, timer.timeMaps id = some tick →
    ∃ entry, (TreeKey.mk tick id, entry) ∈ timer.timerQueue
  distinct : ∀ f ∈ timer.timerQueue, ∀ g ∈ timer.timerQueue, owner f.1 = owner g.1 → f = g
  added : ∀ f ∈ timer.timerQueue, owner f.1 < count
  apart : ∀ f ∈ timer.timerQueue, owner f.1 ∉ numbers
  running : numbers.Nodup ∧ ∀ n ∈ numbers, n < count

namespace Placed

variable {timer : Timer S δ} {owner : TreeKey → ℕ} {count count' number : ℕ} {numbers : List ℕ}

/-- A timer that is taken out because it is due was queued under its own key. -/
theorem taken (h : Placed timer owner count numbers) {now : UInt64} {entry : EventEntry S δ}
    {rest : Timer S δ} (hdue : timer.tickTime now = (some entry, rest)) :
    (entry.key, entry) ∈ timer.timerQueue ∧ entry.tickMs ≤ now ∧
      rest = timer.forget entry.key := by
  obtain ⟨key, hmem, htick, -, -, hrest⟩ := Timer.tickTime_eq_some hdue
  obtain rfl := h.key _ _ hmem
  exact ⟨hmem, htick, hrest⟩

/-- A timer that is in no place is queued. -/
theorem schedule (h : Placed timer owner count numbers) (cursor : UInt32)
    (entry : EventEntry S δ) (hqueue : ∀ g ∈ timer.timerQueue, owner g.1 ≠ number)
    (hnumbers : number ∉ numbers) (hle : count ≤ count') (hcount : number < count') :
    Placed (Timer.schedule { timer with timeId := cursor } entry)
      (Function.update owner entry.key number) count' numbers := by
  have hmem : ∀ f ∈ (Timer.schedule { timer with timeId := cursor } entry).timerQueue,
      f = (entry.key, entry) ∧ Function.update owner entry.key number f.1 = number ∨
        f ∈ timer.timerQueue ∧ Function.update owner entry.key number f.1 = owner f.1 := by
    intro f hf
    rcases Timer.mem_schedule.mp hf with rfl | ⟨hne, hf⟩
    · exact Or.inl ⟨rfl, Function.update_self ..⟩
    · exact Or.inr ⟨hf, Function.update_of_ne hne ..⟩
  refine ⟨?_, ?_, ?_, ?_, ?_, h.running.1, fun n hn => (h.running.2 n hn).trans_le hle⟩
  · intro key e he
    rcases hmem _ he with ⟨heq, -⟩ | ⟨he, -⟩
    · obtain ⟨rfl, rfl⟩ := Prod.mk.inj heq
      rfl
    · exact h.key key e he
  · intro id tick hid
    rw [Timer.timeMaps_schedule] at hid
    split at hid
    · rename_i heq
      obtain rfl := Option.some.inj hid
      exact ⟨entry, Timer.mem_schedule.mpr (Or.inl (heq ▸ rfl))⟩
    · rename_i hne
      obtain ⟨e, he⟩ := h.index id tick hid
      exact ⟨e, Timer.mem_schedule.mpr (Or.inr ⟨fun hk => hne (congrArg TreeKey.id hk), he⟩)⟩
  · intro f hf g hg howner
    rcases hmem f hf with ⟨rfl, hf'⟩ | ⟨hf, hf'⟩ <;>
      rcases hmem g hg with ⟨rfl, hg'⟩ | ⟨hg, hg'⟩
    · rfl
    · exact absurd (hg'.symm.trans (howner.symm.trans hf')) (hqueue g hg)
    · exact absurd (hf'.symm.trans (howner.trans hg')) (hqueue f hf)
    · exact h.distinct f hf g hg (hf'.symm.trans (howner.trans hg'))
  · intro f hf
    rcases hmem f hf with ⟨-, hf'⟩ | ⟨hf, hf'⟩
    · exact hf'.trans_lt hcount
    · exact hf'.trans_lt ((h.added f hf).trans_le hle)
  · intro f hf
    rcases hmem f hf with ⟨-, hf'⟩ | ⟨hf, hf'⟩
    · exact fun hin => hnumbers (hf' ▸ hin)
    · exact fun hin => h.apart f hf (hf' ▸ hin)

theorem forget (h : Placed timer owner count numbers) (key : TreeKey) :
    Placed (timer.forget key) owner count numbers := by
  have hold : ∀ f ∈ (timer.forget key).timerQueue, f ∈ timer.timerQueue :=
    fun f hf => (Timer.mem_forget.mp hf).2
  refine ⟨fun k e he => h.key k e (hold _ he), ?_,
    fun f hf g hg => h.distinct f (hold f hf) g (hold g hg),
    fun f hf => h.added f (hold f hf), fun f hf => h.apart f (hold f hf), h.running⟩
  intro id tick hid
  rw [Timer.timeMaps_forget] at hid
  split at hid
  · cases hid
  · rename_i hne
    obtain ⟨e, he⟩ := h.index id tick hid
    exact ⟨e, Timer.mem_forget.mpr ⟨fun hk => hne (congrArg TreeKey.id hk), he⟩⟩

theorem delTimer (h : Placed timer owner count numbers) (id : UInt32) :
    Placed (timer.delTimer id).2 owner count numbers := by
  cases hid : timer.timeMaps id with
  | none => rw [Timer.delTimer_of_none hid]; exact h
  | some tick => rw [Timer.delTimer_of_some hid]; exact h.forget _

/-- A timer goes from the queue to its callback. -/
theorem call (h : Placed timer owner count numbers) {entry : EventEntry S δ}
    (hmem : (entry.key, entry) ∈ timer.timerQueue) :
    Placed (timer.forget entry.key) owner count (owner entry.key :: numbers) := by
  have hforget := h.forget entry.key
  refine ⟨hforget.key, hforget.index, hforget.distinct, hforget.added, fun f hf hin => ?_,
    List.nodup_cons.mpr ⟨h.apart _ hmem, h.running.1⟩, List.forall_mem_cons.mpr
      ⟨h.added _ hmem, h.running.2⟩⟩
  rcases List.mem_cons.mp hin with howner | hin
  · obtain ⟨hne, hf⟩ := Timer.mem_forget.mp hf
    exact hne (congrArg Prod.fst (h.distinct f hf _ hmem howner))
  · exact hforget.apart f hf hin

theorem return_ (h : Placed timer owner count (number :: numbers)) :
    Placed timer owner count numbers :=
  ⟨h.key, h.index, h.distinct, h.added, fun f hf hin => h.apart f hf (List.mem_cons_of_mem _ hin),
    (List.nodup_cons.mp h.running.1).2, fun n hn => h.running.2 n (List.mem_cons_of_mem _ hn)⟩

end Placed

namespace EventLoop

variable {s t : EventLoop S δ × List (TimerFrame S δ)} {l : Happening S δ}
  {ls : List (Happening S δ)}

/-- Every timer of the state is in one place. -/
def Places (s : EventLoop S δ × List (TimerFrame S δ)) : Prop :=
  Placed s.1.timer s.1.owner s.1.added (running s.2)

theorem places_new (timeMaxId : UInt32) (clock : UInt64) (results : ℕ → RetValue × UInt64) :
    Places ((new timeMaxId clock results : EventLoop S δ), []) := by
  refine ⟨?_, ?_, ?_, ?_, ?_, List.nodup_nil, ?_⟩ <;> simp [new, Timer.new, running]

theorem TimerStep.places (h : TimerStep s l t) (hs : Places s) : Places t := by
  cases h with
  | armed _ _ =>
      exact hs.schedule _ _ (fun g hg => (hs.added g hg).ne)
        (fun hin => (hs.running.2 _ hin).ne rfl) (Nat.le_succ _) (Nat.lt_succ_self _)
  | armed_at _ _ =>
      exact hs.schedule _ _ (fun g hg => (hs.added g hg).ne)
        (fun hin => (hs.running.2 _ hin).ne rfl) (Nat.le_succ _) (Nat.lt_succ_self _)
  | deleted id => exact hs.delTimer id
  | began _ => exact hs
  | ended _ => exact hs
  | fired hdue =>
      obtain ⟨hmem, -, rfl⟩ := hs.taken hdue
      exact hs.call hmem
  | over_ hr _ =>
      rw [hr.kept]
      exact hs.return_
  | rearmed hr _ _ =>
      rw [hr.kept]
      exact hs.return_.schedule _ _ (fun g hg heq => hs.apart g hg (heq ▸ List.mem_cons_self))
        (List.nodup_cons.mp hs.running.1).1 (Nat.le_refl _) (hs.running.2 _ List.mem_cons_self)

/-- Every timer of a path is in one place. -/
theorem path_places (h : Path TimerStep s ls t) (hs : Places s) : Places t :=
  h.invariant hs fun _ _ _ _ hs hstep => hstep.places hs

end EventLoop

end TdRevent
