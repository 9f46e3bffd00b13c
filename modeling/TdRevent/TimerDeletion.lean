import TdRevent.TimerRuns

/-!
# Deletion of timers

A deleted timer never fires again, unless it is deleted while its own callback
runs and the callback then has it queued again: `delTimer` does not find the
timer that is being fired. Timers that share an id are a second exception,
since the index holds one of them only.
-/

namespace TdRevent

open Interaction

variable {S δ : Type}

/-- The event is a deletion of the timer of that number. -/
def TimerEvent.Deletes (e : TimerEvent S δ) (number : ℕ) : Prop :=
  match e with
  | .deleted _ live _ => number ∈ live
  | _ => False

/-- The later event is not the firing of a timer that the earlier one deleted. -/
def TimerEvent.Respects (earlier later : TimerEvent S δ) : Prop :=
  match later with
  | .fired number _ => ¬ earlier.Deletes number
  | _ => True

/-- The condition on a deletion under which it is effective. The queued timers
of the id are the one that the index finds, and the timer that is being fired
is not queued again if it has the id. -/
def TimerCall.DeletesAll (ev : EventLoop S δ) : TimerCall S δ → Prop
  | .delTimer id =>
      (∀ f ∈ ev.timer.timerQueue, f.2.timeId = id →
        ev.timer.timeMaps id = some f.1.tick) ∧
      ∀ f, ev.firing = some f → f.2.timeId = id → ¬ EventLoop.rearms f.2 (ev.results 0)
  | _ => True

/-- The timer of that number was deleted. -/
def Dead (log : List (TimerEvent S δ)) (number : ℕ) : Prop := ∃ e ∈ log, e.Deletes number

@[simp] theorem dead_concat {log : List (TimerEvent S δ)} {e : TimerEvent S δ} {number : ℕ} :
    Dead (log ++ [e]) number ↔ Dead log number ∨ e.Deletes number := by
  simp [Dead, or_and_right, exists_or]

namespace EventLoop

variable {ev : EventLoop S δ}

theorem mem_queued {number : ℕ} :
    number ∈ ev.queued ↔ ∃ f ∈ ev.timer.timerQueue, ev.owner f.1 = number := by
  simp [queued, OrderedMap.mem_def]

theorem mem_live {number : ℕ} {id : UInt32} :
    number ∈ ev.live id ↔
      (∃ f ∈ ev.timer.timerQueue, f.2.timeId = id ∧ ev.owner f.1 = number) ∨
        ∃ f, ev.firing = some f ∧ f.2.timeId = id ∧ f.1 = number := by
  simp [live, OrderedMap.mem_def, and_assoc]

/-- The invariant of the deletions: the queued timers and the one that is
being fired are different timers, and no queued timer was deleted. -/
structure Deletions (ev : EventLoop S δ) : Prop where
  key : ∀ key entry, (key, entry) ∈ ev.timer.timerQueue → entry.key = key
  distinct : ∀ f ∈ ev.timer.timerQueue, ∀ g ∈ ev.timer.timerQueue,
    ev.owner f.1 = ev.owner g.1 → f = g
  added : ∀ f ∈ ev.timer.timerQueue, ev.owner f.1 < ev.added
  alive : ∀ f ∈ ev.timer.timerQueue, ¬ Dead ev.log (ev.owner f.1)
  firing : ∀ f, ev.firing = some f → f.1 < ev.added ∧
    (∀ g ∈ ev.timer.timerQueue, ev.owner g.1 ≠ f.1) ∧
    (rearms f.2 (ev.results 0) → ¬ Dead ev.log f.1)
  dead : ∀ number, Dead ev.log number → number < ev.added
  log : ev.log.Pairwise TimerEvent.Respects

/-- A queued timer after an addition is the added one or an old one. -/
theorem mem_arm {number : Option ℕ} {cursor : UInt32} {entry : EventEntry S δ}
    {f : TreeKey × EventEntry S δ} (hf : f ∈ (ev.arm number cursor entry).timer.timerQueue) :
    (f = (entry.key, entry) ∧ (ev.arm number cursor entry).owner f.1 = number.getD ev.added) ∨
      (f ∈ ev.timer.timerQueue ∧ (ev.arm number cursor entry).owner f.1 = ev.owner f.1) := by
  rcases Timer.mem_schedule.mp hf with rfl | ⟨hne, hf⟩
  · exact Or.inl ⟨rfl, Function.update_self ..⟩
  · exact Or.inr ⟨hf, Function.update_of_ne hne ..⟩

/-- The addition of a timer that is neither queued nor deleted. -/
theorem Deletions.arm (h : Deletions ev) (number : Option ℕ) (cursor : UInt32)
    (entry : EventEntry S δ)
    (hqueue : ∀ g ∈ ev.timer.timerQueue, ev.owner g.1 ≠ number.getD ev.added)
    (hadded : number.getD ev.added < (ev.arm number cursor entry).added)
    (halive : ¬ Dead ev.log (number.getD ev.added))
    (hfiring : ∀ f, ev.firing = some f → f.1 ≠ number.getD ev.added) :
    Deletions (ev.arm number cursor entry) := by
  have hle : ev.added ≤ (ev.arm number cursor entry).added := by
    simp only [EventLoop.arm]
    split <;> omega
  have hdead : ∀ n, Dead (ev.arm number cursor entry).log n ↔ Dead ev.log n := fun n =>
    dead_concat.trans (or_iff_left id)
  refine ⟨?_, ?_, ?_, ?_, ?_, ?_, ?_⟩
  · intro key e he
    rcases mem_arm he with ⟨heq, -⟩ | ⟨he, -⟩
    · obtain ⟨rfl, rfl⟩ := Prod.mk.inj heq
      rfl
    · exact h.key key e he
  · intro f hf g hg howner
    rcases mem_arm hf with ⟨rfl, hf'⟩ | ⟨hf, hf'⟩ <;>
      rcases mem_arm hg with ⟨rfl, hg'⟩ | ⟨hg, hg'⟩
    · rfl
    · exact absurd (hg'.symm.trans (howner.symm.trans hf')) (hqueue g hg)
    · exact absurd (hf'.symm.trans (howner.trans hg')) (hqueue f hf)
    · exact h.distinct f hf g hg (hf'.symm.trans (howner.trans hg'))
  · intro f hf
    rcases mem_arm hf with ⟨-, hf'⟩ | ⟨hf, hf'⟩
    · exact hf' ▸ hadded
    · exact hf' ▸ (h.added f hf).trans_le hle
  · intro f hf
    rw [hdead]
    rcases mem_arm hf with ⟨-, hf'⟩ | ⟨hf, hf'⟩
    · exact hf' ▸ halive
    · exact hf' ▸ h.alive f hf
  · intro f hf
    obtain ⟨hlt, hne, hnot⟩ := h.firing f hf
    refine ⟨hlt.trans_le hle, fun g hg => ?_, fun hr => ?_⟩
    · rcases mem_arm hg with ⟨-, hg'⟩ | ⟨hg, hg'⟩
      · exact hg' ▸ (hfiring f hf).symm
      · exact hg' ▸ hne g hg
    · rw [hdead]
      exact hnot hr
  · exact fun n hn => (h.dead n ((hdead n).mp hn)).trans_le hle
  · exact List.pairwise_append.mpr
      ⟨h.log, List.pairwise_singleton .., fun a _ b hb => by
        obtain rfl := List.mem_singleton.mp hb
        exact trivial⟩

/-- A timer that is added for the first time. -/
theorem Deletions.arm_new (h : Deletions ev) (c : UInt64) (cursor : UInt32)
    (entry : EventEntry S δ) :
    Deletions (EventLoop.arm { ev with clock := c } none cursor entry) := by
  have hclock : Deletions { ev with clock := c } :=
    ⟨h.key, h.distinct, h.added, h.alive, h.firing, h.dead, h.log⟩
  refine hclock.arm none cursor entry (fun g hg => (h.added g hg).ne) (Nat.lt_succ_self _)
    (fun hd => (h.dead _ hd).ne rfl) fun f hf => (h.firing f hf).1.ne

/-- A deletion leaves no queued timer of its id. -/
theorem mem_deleted (h : Deletions ev) {id : UInt32}
    (hindex : ∀ f ∈ ev.timer.timerQueue, f.2.timeId = id →
      ev.timer.timeMaps id = some f.1.tick)
    {f : TreeKey × EventEntry S δ} (hf : f ∈ (ev.deleted id).timer.timerQueue) :
    f ∈ ev.timer.timerQueue ∧ f.2.timeId ≠ id := by
  cases hid : ev.timer.timeMaps id with
  | none =>
      simp only [EventLoop.deleted, Timer.delTimer_of_none hid] at hf
      refine ⟨hf, fun heq => ?_⟩
      rw [hindex f hf heq] at hid
      cases hid
  | some tick =>
      simp only [EventLoop.deleted, Timer.delTimer_of_some hid, Timer.mem_forget] at hf
      refine ⟨hf.2, fun heq => hf.1 ?_⟩
      have htick := hindex f hf.2 heq
      rw [hid] at htick
      have hkey := h.key _ _ hf.2
      apply TreeKey.ext (Option.some.inj htick).symm
      rw [← hkey]
      exact heq

theorem Deletions.deleted (h : Deletions ev) {id : UInt32}
    (hindex : ∀ f ∈ ev.timer.timerQueue, f.2.timeId = id →
      ev.timer.timeMaps id = some f.1.tick)
    (hfiring : ∀ f, ev.firing = some f → f.2.timeId = id → ¬ rearms f.2 (ev.results 0)) :
    Deletions (ev.deleted id) := by
  have hmem : ∀ f ∈ (ev.deleted id).timer.timerQueue,
      f ∈ ev.timer.timerQueue ∧ f.2.timeId ≠ id := fun f hf => mem_deleted h hindex hf
  have hdead : ∀ n, Dead (ev.deleted id).log n ↔ Dead ev.log n ∨ n ∈ ev.live id := fun n =>
    dead_concat
  refine ⟨fun key e he => h.key key e (hmem _ he).1,
    fun f hf g hg => h.distinct f (hmem f hf).1 g (hmem g hg).1,
    fun f hf => h.added f (hmem f hf).1, ?_, ?_, ?_, ?_⟩
  · intro f hf hd
    obtain ⟨hf, hid⟩ := hmem f hf
    rcases (hdead _).mp hd with hd | hlive
    · exact h.alive f hf hd
    · rcases mem_live.mp hlive with ⟨g, hg, hgid, howner⟩ | ⟨g, hg, -, hnumber⟩
      · exact hid (h.distinct g hg f hf howner ▸ hgid)
      · exact (h.firing g hg).2.1 f hf hnumber.symm
  · intro f hf
    obtain ⟨hlt, hne, hnot⟩ := h.firing f hf
    refine ⟨hlt, fun g hg => hne g (hmem g hg).1, fun hr hd => ?_⟩
    rcases (hdead _).mp hd with hd | hlive
    · exact hnot hr hd
    · rcases mem_live.mp hlive with ⟨g, hg, -, howner⟩ | ⟨g, hg, hgid, -⟩
      · exact hne g hg howner
      · obtain rfl := Option.some.inj (hf.symm.trans hg)
        exact hfiring f hf hgid hr
  · intro n hn
    rcases (hdead n).mp hn with hn | hlive
    · exact h.dead n hn
    · rcases mem_live.mp hlive with ⟨g, hg, -, rfl⟩ | ⟨g, hg, -, rfl⟩
      · exact h.added g hg
      · exact (h.firing g hg).1
  · exact List.pairwise_append.mpr
      ⟨h.log, List.pairwise_singleton .., fun a _ b hb => by
        obtain rfl := List.mem_singleton.mp hb
        exact trivial⟩

/-- The timer that is fired was not deleted. -/
theorem Deletions.fire (h : Deletions ev) {now : UInt64} {entry : EventEntry S δ}
    {timer : Timer S δ} (results : ℕ → RetValue × UInt64)
    (hdue : ev.timer.tickTime now = (some entry, timer)) :
    Deletions { ev.fire entry timer with results := results } := by
  obtain ⟨key, hmem, -, -, -, rfl⟩ := Timer.tickTime_eq_some hdue
  obtain rfl := h.key _ _ hmem
  have hold : ∀ f ∈ (ev.timer.forget entry.key).timerQueue, f ∈ ev.timer.timerQueue :=
    fun f hf => (Timer.mem_forget.mp hf).2
  have hdead : ∀ n, Dead (ev.fire entry (ev.timer.forget entry.key)).log n ↔ Dead ev.log n :=
    fun n => dead_concat.trans (or_iff_left id)
  refine ⟨fun k e he => h.key k e (hold _ he),
    fun f hf g hg => h.distinct f (hold f hf) g (hold g hg),
    fun f hf => h.added f (hold f hf), fun f hf hd => h.alive f (hold f hf) ((hdead _).mp hd),
    ?_, fun n hn => h.dead n ((hdead n).mp hn), ?_⟩
  · rintro f ⟨⟩
    refine ⟨h.added _ hmem, fun g hg howner => ?_, fun _ hd => h.alive _ hmem ((hdead _).mp hd)⟩
    have heq := h.distinct g (hold g hg) _ hmem howner
    exact (Timer.mem_forget.mp hg).1 (congrArg Prod.fst heq)
  · refine List.pairwise_append.mpr ⟨h.log, List.pairwise_singleton .., fun a ha b hb => ?_⟩
    obtain rfl := List.mem_singleton.mp hb
    exact fun hd => h.alive _ hmem ⟨a, ha, hd⟩

theorem Deletions.finish (h : Deletions ev) : Deletions ev.finish :=
  ⟨h.key, h.distinct, h.added, h.alive, (fun _ hf => nomatch hf), h.dead, h.log⟩

/-- Deletions are effective in all runs whose deletions meet the condition. -/
theorem deletions_invariant [Zero S] :
    Invariant TimerCall.DeletesAll (Deletions (S := S) (δ := δ)) where
  call {C ev ev' op} h _ hok heffect := by
    cases heffect with
    | idle _ => exact h
    | addTimer _ _ _ => exact h.arm_new _ _ _
    | addNewTimer _ _ => exact h.arm_new _ _ _
    | addNewTimerAt _ => exact h.arm_new _ _ _
    | delTimer => exact h.deleted hok.1 hok.2
  began ev now h _ := by
    have hdead : ∀ n, Dead (ev.log ++ [.began now]) n ↔ Dead ev.log n := fun n =>
      dead_concat.trans (or_iff_left id)
    refine ⟨h.key, h.distinct, h.added, fun f hf hd => h.alive f hf ((hdead _).mp hd),
      fun f hf => ?_, fun n hn => h.dead n ((hdead n).mp hn), ?_⟩
    · obtain ⟨hlt, hne, hnot⟩ := h.firing f hf
      exact ⟨hlt, hne, fun hr hd => hnot hr ((hdead _).mp hd)⟩
    · exact List.pairwise_append.mpr
        ⟨h.log, List.pairwise_singleton .., fun a _ b hb => by
          obtain rfl := List.mem_singleton.mp hb
          exact trivial⟩
  ended h := ⟨h.key, h.distinct, h.added, h.alive, h.firing, h.dead, h.log⟩
  fire results h _ hdue := h.fire results hdue
  finished h _ _ := h.finish
  again ev f c id cursor h hf hrearms _ := by
    obtain ⟨hlt, hne, hnot⟩ := h.firing f hf
    have hclock : Deletions { ev.finish with clock := c } :=
      ⟨h.key, h.distinct, h.added, h.alive, (fun _ hf => nomatch hf), h.dead, h.log⟩
    exact hclock.arm (some f.1) cursor _ hne hlt (hnot hrearms) fun _ hf => nomatch hf

/-- In every run whose deletions meet the condition, no timer fires after it
was deleted, no deleted timer is queued, and one that was deleted in its own
callback is not queued again. -/
theorem deletion_effective [Zero S] {timeMaxId : UInt32} {clock : UInt64}
    {results : ℕ → RetValue × UInt64}
    {c : Config (EventLoop S δ) (TimerReply (S := S) (δ := δ)) Unit}
    (hreach : (timerSystem.restrict (Move.onCalls TimerCall.DeletesAll)).Reaches
      (new timeMaxId clock results) c)
    (hopen : (timerSystem (S := S) (δ := δ)).Open c.stack) :
    c.state.log.Pairwise TimerEvent.Respects ∧
      ∀ id live returned, .deleted id live returned ∈ c.state.log → ∀ number ∈ live,
        number ∉ c.state.queued ∧
          ∀ f, c.state.firing = some f → f.1 = number → ¬ rearms f.2 (c.state.results 0) := by
  have hnew : Deletions (new timeMaxId clock results : EventLoop S δ) := by
    refine ⟨by simp [new, Timer.new], by simp [new, Timer.new], by simp [new, Timer.new],
      by simp [new, Timer.new], (fun _ hf => nomatch hf), fun n hn => ?_, .nil⟩
    obtain ⟨e, he, -⟩ := hn
    cases he
  have h := deletions_invariant.holds hnew hreach hopen
  refine ⟨h.log, fun id live returned hmem number hnumber => ?_⟩
  have hdead : Dead c.state.log number := ⟨_, hmem, hnumber⟩
  refine ⟨fun hqueued => ?_, fun f hf hfn hr => ?_⟩
  · obtain ⟨f, hf, rfl⟩ := mem_queued.mp hqueued
    exact h.alive f hf hdead
  · subst hfn
    exact (h.firing f hf).2.2 hr hdead

/-- The callback of one timer deletes another one that is due in the same pass. -/
theorem deletion_effective_two :
    ∃ c, (timerSystem.restrict (Move.onCalls TimerCall.DeletesAll)).Reaches
        (new 9 0 fun _ => (.CONTINUE, 5) : EventLoop Int32 Unit) c ∧
      c.state.queued = [] ∧ c.state.log.Pairwise TimerEvent.Respects := by
  have start := System.Reaches.refl (S := timerSystem.restrict (Move.onCalls TimerCall.DeletesAll))
    (new 9 0 fun _ => (.CONTINUE, 5) : EventLoop Int32 Unit)
  have added := (start.call (.addNewTimer 5 true (some 7) none) trivial
    ⟨trivial, trivial⟩).answer (0 : UInt64) ⟨rfl, trivial⟩
  have both := (added.call (.addNewTimer 6 true (some 8) none) trivial
    ⟨trivial, trivial⟩).answer (0 : UInt64) ⟨rfl, trivial⟩
  have firing := (both.call (.timerProcess 3) trivial
    ⟨⟨rfl, rfl⟩, trivial⟩).answer (10 : UInt64) ⟨rfl, trivial⟩
  have deleted := firing.call (.delTimer 2) trivial
    ⟨trivial, by decide, by rintro f ⟨⟩; decide⟩
  exact ⟨_, deleted, by decide, (deletion_effective deleted trivial).1⟩

/-- The callback of a timer deletes its own timer and returns `CONTINUE`. The
timer is queued again, and it fires again in the next pass. -/
theorem deletion_of_firing :
    ∃ c, timerSystem.Reaches (new 9 0 fun _ => (.CONTINUE, 5) : EventLoop Int32 Unit) c ∧
      timerSystem.Open c.stack ∧ ¬ c.state.log.Pairwise TimerEvent.Respects := by
  have start := System.Reaches.refl (S := timerSystem)
    (new 9 0 fun _ => (.CONTINUE, 5) : EventLoop Int32 Unit)
  have added := (start.call (.addNewTimer 5 true (some 7) none) trivial
    trivial).answer (0 : UInt64) rfl
  have firing := (added.call (.timerProcess 3) trivial ⟨rfl, rfl⟩).answer (10 : UInt64) rfl
  have deleted := firing.call (.delTimer 1) trivial trivial
  have settled := (deleted.answer (RetValue.CONTINUE, (5 : UInt64)) ⟨rfl, rfl⟩).answer
    (10 : UInt64) rfl
  have again := (settled.call (.timerProcess 3) trivial ⟨rfl, rfl⟩).answer (20 : UInt64) rfl
  refine ⟨_, again, trivial, fun h => ?_⟩
  have hlater := List.pairwise_iff_getElem.mp h 3 6 (by decide) (by decide) (by decide)
  exact hlater (List.mem_singleton.mpr rfl)

end EventLoop

end TdRevent
