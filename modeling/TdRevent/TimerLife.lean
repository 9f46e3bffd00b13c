import TdRevent.TimerPlaces
import TdRevent.TimerAdditions

/-!
# The life of a timer

The results of its callback decide how long a timer lives. After each firing it
is queued again, with the same callback, flags and data, if the result was
`CONTINUE` with a step, or `OK` for a persistent timer that has a step. The
step is the one that the callback gave last. After any other result the timer
is over.

## Implementation notes

What happens to one timer is a path of a small machine, whatever else the
steps of the event loop do. The machine sees the results of the callback and
the readings of the clock. It says nothing about a timer that was deleted
while it was queued, or whose id another timer was given before it was over.
-/

namespace TdRevent

open Interaction

variable {S δ : Type}

/-- The value of the last `CONTINUE`, or the original step. -/
def currentStep (step : UInt64) (results : List (RetValue × UInt64)) : UInt64 :=
  ((results.filter (·.1 = .CONTINUE)).getLast?.map (·.2)).getD step

/-- Whether a timer of this step goes on after the result. -/
def EventEntry.Continues (entry : EventEntry S δ) (step : UInt64) (r : RetValue × UInt64) : Prop :=
  r.1 = .CONTINUE ∧ 0 < r.2 ∨
    r.1 = .OK ∧ entry.evEvents.contains EventFlags.FLAG_PERSIST ∧ step ≠ 0

/-- The entry after these results and the reading `c` of the clock. -/
def EventEntry.again (entry : EventEntry S δ) (results : List (RetValue × UInt64)) (c : UInt64) :
    EventEntry S δ :=
  { entry with
    tickStep := currentStep entry.tickStep results
    tickMs := c + currentStep entry.tickStep results }

/-- What has become of a timer after these results. -/
inductive Life (S δ : Type)
  | waiting (results : List (RetValue × UInt64)) (entry : EventEntry S δ)
  | firing (results : List (RetValue × UInt64)) (entry : EventEntry S δ)
  | over_ (results : List (RetValue × UInt64))

/-- The life of the timer that was queued first with this entry. -/
inductive Life.Step (number : ℕ) (entry : EventEntry S δ) :
    Life S δ → Happening S δ → Life S δ → Prop
  | fired {results e} (now : UInt64) :
      Step number entry (.waiting results e) (.fired now number e) (.firing results e)
  | rearmed {results e r} (c : UInt64)
      (h : entry.Continues (currentStep entry.tickStep results) r) :
      Step number entry (.firing results e)
        (.rearmed number r c (entry.again (results ++ [r]) c))
        (.waiting (results ++ [r]) (entry.again (results ++ [r]) c))
  | over_ {results e r} (h : ¬ entry.Continues (currentStep entry.tickStep results) r) :
      Step number entry (.firing results e) (.over_ number r) (.over_ (results ++ [r]))

/-- Where a timer stands, as far as the steps tell. -/
inductive Stage
  | waiting | firing | over_
  deriving DecidableEq

def Life.stage : Life S δ → Stage
  | .waiting _ _ => .waiting
  | .firing _ _ => .firing
  | .over_ _ => .over_

/-- The timer that a step is about. -/
def Happening.number : Happening S δ → Option ℕ
  | .armed number _ _ => some number
  | .fired _ number _ => some number
  | .over_ number _ => some number
  | .rearmed number _ _ _ => some number
  | _ => none

/-- The stage of the timer after a step. -/
def Stage.after (number : ℕ) (stage : Stage) (l : Happening S δ) : Stage :=
  if l.number = some number then
    match l with
    | .fired _ _ _ => .firing
    | .over_ _ _ => .over_
    | _ => .waiting
  else stage

/-- The steps that are about the timer. -/
def own (number : ℕ) (ls : List (Happening S δ)) : List (Happening S δ) :=
  ls.filter (·.number = some number)

/-- At this stage the step does not delete the timer while it is queued, nor
give its id to another timer before it is over. -/
def Happening.Spares (number : ℕ) (id : UInt32) (stage : Stage) : Happening S δ → Prop
  | .deleted id' => stage = .waiting → id' ≠ id
  | .armed n _ entry => stage ≠ .over_ → n ≠ number → entry.timeId ≠ id
  | .rearmed n _ _ entry => stage ≠ .over_ → n ≠ number → entry.timeId ≠ id
  | _ => True

/-- The timer is not deleted and its id is not used again. -/
def Undisturbed (number : ℕ) (id : UInt32) (ls : List (Happening S δ)) : Prop :=
  ∀ pre l post, ls = pre ++ l :: post →
    l.Spares number id (pre.foldl (Stage.after number) .waiting)

/-! ## Steps and results -/

section

variable {number : ℕ} {id : UInt32} {l : Happening S δ} {ls : List (Happening S δ)}
  {results : List (RetValue × UInt64)} {r : RetValue × UInt64} {step : UInt64}

theorem currentStep_snoc :
    currentStep step (results ++ [r]) =
      if r.1 = .CONTINUE then r.2 else currentStep step results := by
  rw [currentStep, List.filter_append]
  by_cases h : r.1 = .CONTINUE
  · simp [h]
  · simp [h, currentStep]

theorem Undisturbed.init (h : Undisturbed number id (ls ++ [l])) : Undisturbed number id ls := by
  rintro pre l' post rfl
  exact h pre l' (post ++ [l]) (by simp)

theorem Undisturbed.last (h : Undisturbed number id (ls ++ [l])) :
    l.Spares number id (ls.foldl (Stage.after number) .waiting) := h ls l [] rfl

theorem undisturbed_of_forall (h : ∀ l ∈ ls, ∀ stage, l.Spares number id stage) :
    Undisturbed number id ls := by
  rintro pre l post rfl
  exact h l (by simp) _

theorem own_snoc_of_eq (h : l.number = some number) :
    own number (ls ++ [l]) = own number ls ++ [l] := by
  simp [own, h]

theorem own_snoc_of_ne (h : l.number ≠ some number) : own number (ls ++ [l]) = own number ls := by
  simp [own, h]

end

namespace EventLoop

variable {number : ℕ} {entry e : EventEntry S δ} {r : RetValue × UInt64}
  {results : List (RetValue × UInt64)}

/-- The entry has the callback, the flags and the data of the first one, and
the current step. -/
def SameTimer (entry : EventEntry S δ) (results : List (RetValue × UInt64))
    (e : EventEntry S δ) : Prop :=
  e = { entry with
    tickStep := currentStep entry.tickStep results
    tickMs := e.tickMs }

theorem SameTimer.refl (entry : EventEntry S δ) : SameTimer entry [] entry := rfl

theorem SameTimer.again (c : UInt64) : SameTimer entry results (entry.again results c) := rfl

theorem SameTimer.timeId (h : SameTimer entry results e) : e.timeId = entry.timeId := by
  rw [h]

/-- The source queues a timer again exactly if it goes on. -/
theorem SameTimer.rearms_iff (h : SameTimer entry results e) :
    rearms e r ↔ entry.Continues (currentStep entry.tickStep results) r := by
  obtain ⟨ret, time⟩ := r
  rw [h]
  cases ret
  · simp [rearms, settle, EventEntry.Continues]
  · simp [rearms, settle, EventEntry.Continues, UInt64.pos_iff_ne_zero]
  · simp [rearms, settle, EventEntry.Continues]

/-- What the source queues after a result. -/
theorem SameTimer.settle (h : SameTimer entry results e) (hr : rearms e r) (c : UInt64) :
    { (settle e r).2 with
      timeId := e.timeId, tickMs := c + (EventLoop.settle e r).2.tickStep } =
      entry.again (results ++ [r]) c := by
  obtain ⟨ret, time⟩ := r
  rw [EventEntry.again, currentStep_snoc, h]
  cases ret
  · rfl
  · rfl
  · exact absurd hr.1 (by simp [EventLoop.settle])

/-! ## The timer in the queue -/

/-- The timer is queued with the entry, and no other one has its id. -/
structure Waits (number : ℕ) (e : EventEntry S δ) (timer : Timer S δ) (owner : TreeKey → ℕ) :
    Prop where
  mem : (e.key, e) ∈ timer.timerQueue
  owner : owner e.key = number
  record : timer.timeMaps e.timeId = some e.tickMs
  sole : ∀ f ∈ timer.timerQueue, f.2.timeId = e.timeId → f = (e.key, e)

/-- No queued timer has the id. -/
def Lacks (id : UInt32) (timer : Timer S δ) : Prop := ∀ f ∈ timer.timerQueue, f.2.timeId ≠ id

variable {timer : Timer S δ} {owner : TreeKey → ℕ} {m : ℕ} {id : UInt32} {other : EventEntry S δ}
  {key : TreeKey}

theorem Waits.schedule (h : Waits number e timer owner) (cursor : UInt32)
    (hother : other.timeId ≠ e.timeId) :
    Waits number e (Timer.schedule { timer with timeId := cursor } other)
      (Function.update owner other.key m) := by
  have hne : e.key ≠ other.key := fun hk => hother (congrArg TreeKey.id hk).symm
  refine ⟨Timer.mem_schedule.mpr (Or.inr ⟨hne, h.mem⟩), ?_, ?_, fun f hf hid => ?_⟩
  · exact (Function.update_of_ne hne ..).trans h.owner
  · rw [Timer.timeMaps_schedule, if_neg hother.symm]
    exact h.record
  · rcases Timer.mem_schedule.mp hf with rfl | ⟨-, hf⟩
    · exact absurd hid hother
    · exact h.sole f hf hid

theorem Waits.forget (h : Waits number e timer owner) (hkey : key.id ≠ e.timeId) :
    Waits number e (timer.forget key) owner := by
  refine ⟨Timer.mem_forget.mpr ⟨fun hk => hkey (congrArg TreeKey.id hk).symm, h.mem⟩, h.owner,
    ?_, fun f hf => h.sole f (Timer.mem_forget.mp hf).2⟩
  rw [Timer.timeMaps_forget, if_neg hkey.symm]
  exact h.record

theorem Waits.delTimer (h : Waits number e timer owner) (hid : id ≠ e.timeId) :
    Waits number e (timer.delTimer id).2 owner := by
  cases hrecord : timer.timeMaps id with
  | none => rw [Timer.delTimer_of_none hrecord]; exact h
  | some tick => rw [Timer.delTimer_of_some hrecord]; exact h.forget hid

/-- The timer is queued under an id that no queued timer has. -/
theorem Lacks.schedule_self (h : Lacks e.timeId timer) (cursor : UInt32) :
    Waits m e (Timer.schedule { timer with timeId := cursor } e)
      (Function.update owner e.key m) := by
  refine ⟨Timer.mem_schedule.mpr (Or.inl rfl), Function.update_self .., ?_, fun f hf hid => ?_⟩
  · rw [Timer.timeMaps_schedule, if_pos rfl]
  · rcases Timer.mem_schedule.mp hf with rfl | ⟨-, hf⟩
    · rfl
    · exact absurd hid (h f hf)

theorem Lacks.schedule (h : Lacks id timer) (cursor : UInt32) (hother : other.timeId ≠ id) :
    Lacks id (Timer.schedule { timer with timeId := cursor } other) := by
  intro f hf
  rcases Timer.mem_schedule.mp hf with rfl | ⟨-, hf⟩
  · exact hother
  · exact h f hf

theorem Lacks.forget (h : Lacks id timer) : Lacks id (timer.forget key) :=
  fun f hf => h f (Timer.mem_forget.mp hf).2

theorem Lacks.delTimer (h : Lacks id timer) (id' : UInt32) : Lacks id (timer.delTimer id').2 := by
  cases hrecord : timer.timeMaps id' with
  | none => rw [Timer.delTimer_of_none hrecord]; exact h
  | some tick => rw [Timer.delTimer_of_some hrecord]; exact h.forget

/-- When the timer is taken out, its id is free. -/
theorem Waits.taken (h : Waits number e timer owner) : Lacks e.timeId (timer.forget e.key) := by
  intro f hf hid
  obtain ⟨hne, hf⟩ := Timer.mem_forget.mp hf
  exact hne (congrArg Prod.fst (h.sole f hf hid))

/-- A state in which the timer leads this life. -/
inductive Leading (number : ℕ) (entry : EventEntry S δ) :
    Life S δ → EventLoop S δ × List (TimerFrame S δ) → Prop
  | waiting {results e ev fs} (hsame : SameTimer entry results e)
      (h : Waits number e ev.timer ev.owner) : Leading number entry (.waiting results e) (ev, fs)
  | firing {results e ev fs} (hsame : SameTimer entry results e)
      (hframe : .callback number e ∈ fs) (h : Lacks entry.timeId ev.timer) :
      Leading number entry (.firing results e) (ev, fs)
  | over_ {results ev fs} (hqueue : ∀ f ∈ ev.timer.timerQueue, ev.owner f.1 ≠ number)
      (hframes : number ∉ running fs) : Leading number entry (.over_ results) (ev, fs)

/-! ## One step -/

variable {s t : EventLoop S δ × List (TimerFrame S δ)} {l : Happening S δ} {life : Life S δ}

/-- A step is about another timer, which leaves this one as it is, or a step of
its life. -/
def Follows (number : ℕ) (entry : EventEntry S δ) (life : Life S δ) (l : Happening S δ)
    (t : EventLoop S δ × List (TimerFrame S δ)) : Prop :=
  (l.number ≠ some number ∧ Leading number entry life t) ∨
    l.number = some number ∧ ∃ life', life.Step number entry l life' ∧ Leading number entry life' t

theorem ne_some {m n : ℕ} (h : m ≠ n) : some m ≠ some n := fun heq => h (Option.some.inj heq)

theorem follows_waiting (hsame : SameTimer entry results e)
    (h : Waits number e s.1.timer s.1.owner) (hplaces : Places s) (hadded : number < s.1.added)
    (hspares : l.Spares number entry.timeId .waiting) (hstep : TimerStep s l t) :
    Follows number entry (.waiting results e) l t := by
  have hid : e.timeId = entry.timeId := hsame.timeId
  have hnot : ∀ {ev m e' fs}, s = (ev, .callback m e' :: fs) → m ≠ number := by
    rintro ev m e' fs rfl rfl
    exact hplaces.apart _ h.mem (h.owner.symm ▸ List.mem_cons_self)
  cases hstep with
  | armed _ _ =>
      have hne := hspares nofun hadded.ne'
      exact Or.inl ⟨ne_some hadded.ne', .waiting hsame (h.schedule _ (hid ▸ hne))⟩
  | armed_at _ _ =>
      have hne := hspares nofun hadded.ne'
      exact Or.inl ⟨ne_some hadded.ne', .waiting hsame (h.schedule _ (hid ▸ hne))⟩
  | deleted id =>
      exact Or.inl ⟨nofun, .waiting hsame (h.delTimer (hid ▸ hspares rfl))⟩
  | began _ => exact Or.inl ⟨nofun, .waiting hsame h⟩
  | ended _ => exact Or.inl ⟨nofun, .waiting hsame h⟩
  | @fired ev fs now e' _ hdue =>
      obtain ⟨hmem, -, rfl⟩ := hplaces.taken hdue
      by_cases hown : e' = e
      · subst hown
        obtain rfl := h.owner
        exact Or.inr ⟨rfl, _, .fired now, .firing hsame List.mem_cons_self (hid ▸ h.taken)⟩
      · have hne : ev.owner e'.key ≠ number := fun howner =>
          hown (congrArg Prod.snd (hplaces.distinct _ hmem _ h.mem (howner.trans h.owner.symm)))
        have hkey : e'.key.id ≠ e.timeId := fun hk => hown (congrArg Prod.snd (h.sole _ hmem hk))
        exact Or.inl ⟨ne_some hne, .waiting hsame (h.forget hkey)⟩
  | over_ hr _ =>
      rw [hr.kept]
      exact Or.inl ⟨ne_some (hnot rfl), .waiting hsame h⟩
  | rearmed hr _ _ =>
      rw [hr.kept]
      have hne := hspares nofun (hnot rfl)
      exact Or.inl ⟨ne_some (hnot rfl), .waiting hsame (h.schedule _ (hid ▸ hne))⟩

theorem follows_firing (hsame : SameTimer entry results e) (hframe : .callback number e ∈ s.2)
    (h : Lacks entry.timeId s.1.timer) (hplaces : Places s) (hadded : number < s.1.added)
    (hzero : entry.timeId ≠ 0) (hspares : l.Spares number entry.timeId .firing)
    (hstep : TimerStep s l t) : Follows number entry (.firing results e) l t := by
  -- a callback of the timer that is on top is the one that is known
  have htop : ∀ {ev m e' fs}, s = (ev, .callback m e' :: fs) →
      m ≠ number ∧ .callback number e ∈ fs ∨ m = number ∧ e' = e ∧ number ∉ running fs := by
    rintro ev m e' fs rfl
    have hnodup := List.nodup_cons.mp hplaces.running.1
    rcases List.mem_cons.mp hframe with heq | hin
    · cases heq
      exact Or.inr ⟨rfl, rfl, hnodup.1⟩
    · exact Or.inl ⟨fun hm => hnodup.1 (hm ▸ mem_running hin), hin⟩
  cases hstep with
  | armed _ _ =>
      have hne := hspares nofun hadded.ne'
      exact Or.inl ⟨ne_some hadded.ne', .firing hsame hframe (h.schedule _ hne)⟩
  | armed_at _ _ =>
      have hne := hspares nofun hadded.ne'
      exact Or.inl ⟨ne_some hadded.ne', .firing hsame hframe (h.schedule _ hne)⟩
  | deleted id => exact Or.inl ⟨nofun, .firing hsame hframe (h.delTimer id)⟩
  | began _ => exact Or.inl ⟨nofun, .firing hsame (List.mem_cons_of_mem _ hframe) h⟩
  | ended _ =>
      rcases List.mem_cons.mp hframe with heq | hin
      · cases heq
      · exact Or.inl ⟨nofun, .firing hsame hin h⟩
  | @fired ev fs now e' _ hdue =>
      obtain ⟨hmem, -, rfl⟩ := hplaces.taken hdue
      have hne : ev.owner e'.key ≠ number := fun howner =>
        hplaces.apart _ hmem (howner ▸ mem_running hframe)
      exact Or.inl ⟨ne_some hne, .firing hsame (List.mem_cons_of_mem _ hframe) h.forget⟩
  | over_ hr hover =>
      rw [hr.kept]
      rcases htop rfl with ⟨hne, hin⟩ | ⟨rfl, rfl, hgone⟩
      · exact Or.inl ⟨ne_some hne, .firing hsame hin h⟩
      · refine Or.inr ⟨rfl, _, .over_ fun hc => hover (hsame.rearms_iff.mpr hc),
          .over_ (fun f hf heq => ?_) hgone⟩
        exact hplaces.apart f hf (heq ▸ List.mem_cons_self)
  | @rearmed ev ev' fs m e' r c id cursor hr hrearms hassigned =>
      rw [hr.kept]
      rcases htop rfl with ⟨hne, hin⟩ | ⟨rfl, rfl, hgone⟩
      · have hother := hspares nofun hne
        exact Or.inl ⟨ne_some hne, .firing hsame hin (h.schedule _ hother)⟩
      · -- an id other than zero is kept
        obtain rfl : id = e'.timeId := by
          cases hassigned with
          | kept _ => rfl
          | fresh hrequest _ => exact absurd (hsame.timeId.symm.trans hrequest) hzero
        rw [hsame.settle hrearms c]
        exact Or.inr ⟨rfl, _, .rearmed c (hsame.rearms_iff.mp hrearms),
          .waiting (.again c) (Lacks.schedule_self (e := entry.again _ c) h cursor)⟩

/-- A timer that is over stays over. -/
theorem follows_over (hqueue : ∀ f ∈ s.1.timer.timerQueue, s.1.owner f.1 ≠ number)
    (hframes : number ∉ running s.2) (hplaces : Places s) (hadded : number < s.1.added)
    (hstep : TimerStep s l t) : Follows number entry (.over_ results) l t := by
  have harm : ∀ (ev : EventLoop S δ) (n : Option ℕ) (cursor : UInt32) (e : EventEntry S δ),
      (∀ f ∈ ev.timer.timerQueue, ev.owner f.1 ≠ number) → n.getD ev.added ≠ number →
      ∀ f ∈ (ev.arm n cursor e).timer.timerQueue, (ev.arm n cursor e).owner f.1 ≠ number := by
    intro ev n cursor e hqueue hne f hf
    rcases mem_arm hf with ⟨-, howner⟩ | ⟨hf, howner⟩
    · exact howner.trans_ne hne
    · exact howner.trans_ne (hqueue f hf)
  have htop : ∀ {ev m e fs}, s = (ev, .callback m e :: fs) → m ≠ number ∧ number ∉ running fs := by
    rintro ev m e fs rfl
    exact ⟨fun hm => hframes (hm ▸ List.mem_cons_self),
      fun hin => hframes (List.mem_cons_of_mem _ hin)⟩
  cases hstep with
  | @armed ev fs c id cursor e _ _ =>
      exact Or.inl ⟨ne_some hadded.ne',
        .over_ (harm { ev with clock := c } none cursor _ hqueue hadded.ne') hframes⟩
  | armed_at _ _ =>
      exact Or.inl ⟨ne_some hadded.ne', .over_ (harm _ none _ _ hqueue hadded.ne') hframes⟩
  | deleted id =>
      exact Or.inl ⟨nofun, .over_ (fun f hf => hqueue f (Timer.mem_delTimer hf)) hframes⟩
  | began _ => exact Or.inl ⟨nofun, .over_ hqueue hframes⟩
  | ended _ => exact Or.inl ⟨nofun, .over_ hqueue hframes⟩
  | fired hdue =>
      obtain ⟨hmem, -, rfl⟩ := hplaces.taken hdue
      have hne := hqueue _ hmem
      refine Or.inl ⟨ne_some hne, .over_ (fun f hf => hqueue f (Timer.mem_forget.mp hf).2) ?_⟩
      exact fun hin => (List.mem_cons.mp hin).elim hne.symm hframes
  | over_ hr _ =>
      rw [hr.kept]
      obtain ⟨hne, hout⟩ := htop rfl
      exact Or.inl ⟨ne_some hne, .over_ hqueue hout⟩
  | @rearmed ev ev' fs m e r c id cursor hr _ _ =>
      rw [hr.kept]
      obtain ⟨hne, hout⟩ := htop rfl
      exact Or.inl ⟨ne_some hne, .over_ (harm { ev with
        results := ev'.results, firing := none, clock := c } (some m) cursor _ hqueue hne) hout⟩

/-- One step of the event loop, as seen by one timer. -/
theorem Leading.follows (h : Leading number entry life s) (hplaces : Places s)
    (hadded : number < s.1.added) (hzero : entry.timeId ≠ 0)
    (hspares : l.Spares number entry.timeId life.stage) (hstep : TimerStep s l t) :
    Follows number entry life l t := by
  cases h with
  | waiting hsame h => exact follows_waiting hsame h hplaces hadded hspares hstep
  | firing hsame hframe h =>
      exact follows_firing hsame hframe h hplaces hadded hzero hspares hstep
  | over_ hqueue hframes => exact follows_over hqueue hframes hplaces hadded hstep

/-! ## A whole run -/

/-- The labels so far are those of a life, unless the timer was disturbed. -/
structure Lives (number : ℕ) (entry : EventEntry S δ) (ls : List (Happening S δ))
    (s : EventLoop S δ × List (TimerFrame S δ)) : Prop where
  places : Places s
  added : number < s.1.added
  life : Undisturbed number entry.timeId ls →
    ∃ life, Path (Life.Step number entry) (.waiting [] entry) (own number ls) life ∧
      life.stage = ls.foldl (Stage.after number) .waiting ∧ Leading number entry life s

theorem TimerStep.added_le (hstep : TimerStep s l t) : s.1.added ≤ t.1.added := by
  cases hstep with
  | armed _ _ => exact Nat.le_succ _
  | armed_at _ _ => exact Nat.le_succ _
  | deleted _ => exact Nat.le_refl _
  | began _ => exact Nat.le_refl _
  | ended _ => exact Nat.le_refl _
  | fired _ => exact Nat.le_refl _
  | over_ hr _ => exact (congrArg EventLoop.added hr.kept).ge
  | rearmed hr _ _ => exact (congrArg EventLoop.added hr.kept).ge

theorem Lives.step {ls : List (Happening S δ)} (h : Lives number entry ls s)
    (hzero : entry.timeId ≠ 0) (hstep : TimerStep s l t) : Lives number entry (ls ++ [l]) t where
  places := hstep.places h.places
  added := h.added.trans_le hstep.added_le
  life hquiet := by
    obtain ⟨life, hpath, hstage, hlead⟩ := h.life hquiet.init
    have hspares := hstage ▸ hquiet.last
    rw [List.foldl_append, List.foldl_cons, List.foldl_nil, ← hstage]
    rcases hlead.follows h.places h.added hzero hspares hstep with
      ⟨hother, hlead⟩ | ⟨hown, life', hlife, hlead⟩
    · rw [own_snoc_of_ne hother]
      exact ⟨life, hpath, (if_neg hother).symm, hlead⟩
    · rw [own_snoc_of_eq hown]
      refine ⟨life', hpath.snoc hlife, ?_, hlead⟩
      cases hlife <;> simp [Stage.after, Happening.number, Life.stage]

/-- The life of a timer begins when it is queued under an id of its own. -/
theorem TimerStep.lives {ev : EventLoop S δ} {fs : List (TimerFrame S δ)}
    {reading : Option UInt64} (hstep : TimerStep (ev, fs) (.armed number reading entry) t)
    (hplaces : Places (ev, fs)) (hlacks : Lacks entry.timeId ev.timer) :
    Lives number entry [] t := by
  refine ⟨hstep.places hplaces, ?_, fun _ => ⟨_, .nil _, rfl, ?_⟩⟩
  · cases hstep with
    | armed _ _ => exact Nat.lt_succ_self _
    | armed_at _ _ => exact Nat.lt_succ_self _
  · cases hstep with
    | @armed _ _ _ id _ e _ _ =>
        exact .waiting (.refl _) (Lacks.schedule_self (e := { e with timeId := id }) hlacks _)
    | @armed_at _ _ id _ e _ _ =>
        exact .waiting (.refl _) (Lacks.schedule_self (e := { e with timeId := id }) hlacks _)

theorem Lives.path {ls : List (Happening S δ)} (h : Lives number entry [] s)
    (hzero : entry.timeId ≠ 0) (hpath : Path TimerStep s ls t) : Lives number entry ls t :=
  hpath.invariant h fun _ _ _ _ h hstep => h.step hzero hstep

/-- When a timer is over its id is not live. -/
theorem Lives.freed {ls : List (Happening S δ)} (h : Lives number entry ls s)
    (hquiet : Undisturbed number entry.timeId ls)
    (hstep : TimerStep s (.over_ number r) t) :
    Lacks entry.timeId t.1.timer ∧ t.1.timer.timeMaps entry.timeId = none := by
  obtain ⟨life, -, -, hlead⟩ := h.life hquiet
  have hplaces := hstep.places h.places
  have hlacks : Lacks entry.timeId t.1.timer := by
    cases hstep with
    | over_ hr _ =>
        rw [hr.kept]
        cases hlead with
        | waiting hsame hwaits =>
            exact absurd List.mem_cons_self (hwaits.owner ▸ h.places.apart _ hwaits.mem)
        | firing _ _ hlacks => exact hlacks
        | over_ _ hframes => exact absurd List.mem_cons_self hframes
  refine ⟨hlacks, Option.eq_none_iff_forall_ne_some.mpr fun tick hrecord => ?_⟩
  obtain ⟨e, hmem⟩ := hplaces.index _ _ hrecord
  exact hlacks _ hmem (congrArg TreeKey.id (hplaces.key _ _ hmem))

/-- In every run a timer of an id other than zero leads its life, if it is not
deleted and its id is not used again: what happens to it is a path of the
machine, and when it is over its id is not live. -/
theorem timer_leads_life [Zero S] (timeMaxId : UInt32) (clock : UInt64)
    (results : ℕ → RetValue × UInt64) :
    (∀ c : Config (EventLoop S δ) (TimerReply (S := S) (δ := δ)) Unit,
      anyCalls.Reaches (new timeMaxId clock results) c → anyCalls.Open c.stack →
      ∃ ls fs, TimerPath (new timeMaxId clock results) ls c.state fs ∧
        Noted ls c.state.log) ∧
    ∀ (pre : List (Happening S δ)) (ev : EventLoop S δ) (fs : List (TimerFrame S δ)),
      TimerPath (new timeMaxId clock results) pre ev fs →
      ∀ number reading entry t, TimerStep (ev, fs) (.armed number reading entry) t →
      Lacks entry.timeId ev.timer → entry.timeId ≠ 0 →
      ∀ post u, Path TimerStep t post u → Undisturbed number entry.timeId post →
        (∃ life, Path (Life.Step number entry) (.waiting [] entry) (own number post) life ∧
          Leading number entry life u) ∧
        ∀ xs r, post = xs ++ [.over_ number r] →
          Lacks entry.timeId u.1.timer ∧ u.1.timer.timeMaps entry.timeId = none := by
  refine ⟨fun c => reaches_noted, ?_⟩
  intro pre ev fs hpre number reading entry t harmed hlacks hzero post u hpost hquiet
  have hstart := harmed.lives (path_places hpre (places_new _ _ _)) hlacks
  obtain ⟨life, hlife, -, hlead⟩ := (hstart.path hzero hpost).life hquiet
  refine ⟨⟨life, hlife, hlead⟩, ?_⟩
  rintro xs r rfl
  obtain ⟨v, hxs, hlast⟩ := hpost.split
  rcases hlast with _ | ⟨hstep, hnil⟩
  cases hnil
  exact (hstart.path hzero hxs).freed hquiet.init hstep

/-- The firing of the timer of a number. -/
theorem TimerStep.fired_as {ev : EventLoop S δ} {fs : List (TimerFrame S δ)} {now : UInt64}
    {timer : Timer S δ} (hdue : ev.timer.tickTime now = (some entry, timer))
    (howner : ev.owner entry.key = number) :
    TimerStep (ev, .pass now :: fs) (.fired now number entry)
      (ev.fire entry timer, .callback number entry :: .pass now :: fs) := by
  subst howner
  exact .fired hdue

/-- The end of a callback of the user after which the timer is queued again. -/
theorem TimerStep.rearmed_as {ev : EventLoop S δ} {fs : List (TimerFrame S δ)} (c : UInt64)
    {id cursor : UInt32} (hcall : e.timer ≠ none) (hr : ev.results 0 = r) (hrearms : rearms e r)
    (hid : ev.timer.Assigned e.timeId id cursor) :
    TimerStep (ev, .callback number e :: fs)
      (.rearmed number r c { (EventLoop.settle e r).2 with
        timeId := id, tickMs := c + (EventLoop.settle e r).2.tickStep })
      (EventLoop.arm { ev with
          results := fun n => ev.results (n + 1), firing := none, clock := c } (some number) cursor
        { (EventLoop.settle e r).2 with
          timeId := id, tickMs := c + (EventLoop.settle e r).2.tickStep }, fs) := by
  subst hr
  exact .rearmed (.called hcall) hrearms hid

/-- A timer that is queued again after one firing. -/
theorem timer_leads_life_once :
    let entry : EventEntry Int32 Unit :=
      { EventEntry.newTimer 5 5 false (some 7) none with timeId := 1 }
    ∃ post u, post.length = 3 ∧
      (∃ life, Path (Life.Step 0 entry) (.waiting [] entry) (own 0 post) life ∧
        Leading 0 entry life u) ∧
      ∀ xs r, post = xs ++ [.over_ 0 r] →
        Lacks entry.timeId u.1.timer ∧ u.1.timer.timeMaps entry.timeId = none := by
  intro entry
  let start : EventLoop Int32 Unit := new 9 0 fun _ => (.CONTINUE, 5)
  let queued : EventLoop Int32 Unit := arm { start with clock := 5 } none 1 entry
  have harmed : TimerStep (start, []) (.armed 0 (some 5) entry) (queued, []) :=
    @TimerStep.armed Int32 Unit start [] 5 1 1
      (EventEntry.newTimer 5 5 false (some 7) none) (.fresh rfl rfl) rfl
  have hbegan := @TimerStep.began Int32 Unit queued [] 10
  have hfired := (Path.cons hbegan (.nil _)).snoc
    (@TimerStep.fired_as Int32 Unit 0 entry _ _ _ _ rfl rfl)
  have hpost := hfired.snoc (@TimerStep.rearmed_as Int32 Unit 0 entry (.CONTINUE, 5) _ _ 10
    1 1 (Option.some_ne_none _) rfl (by decide) (.kept (by decide)))
  exact ⟨_, _, rfl, (timer_leads_life 9 0 fun _ => (.CONTINUE, 5)).2 [] start [] (.nil _) 0 _ entry
    _ harmed (fun _ hf => nomatch hf) (by decide) _ _ hpost
    (undisturbed_of_forall (by simp [Happening.Spares]))⟩

/-! ## A timer of the id zero -/

/-- A run leads to a loop without timers whose cursor is at `c`. -/
def Turned (S δ : Type) [Zero S] (results : ℕ → RetValue × UInt64) (c : UInt32) : Prop :=
  ∃ (ev : EventLoop S δ) (ls : List (Happening S δ)),
    timerSystem.Reaches (new 4294967295 0 results) ⟨ev, []⟩ ∧
    TimerPath (new 4294967295 0 results) ls ev [] ∧
    ev.timer = { Timer.new 4294967295 with timeId := c } ∧
    ev.pass = none ∧ ev.firing = none ∧ ev.results = results

/-- The end of an addition of a new timer. -/
theorem start_store_first (ev : EventLoop S δ) {id : UInt32} {entry : EventEntry S δ}
    {stack : List (Frame (EventLoop S δ) (TimerReply (S := S) (δ := δ)) Unit)}
    (hnew : ev.timer.calcNewId = some (id, { ev.timer with timeId := id })) :
    (store none (ev.timer.addFirstTimer entry) >>= fun _ => pure ()).start ev stack =
      ⟨ev.arm none id { entry with timeId := id }, stack⟩ := by
  rw [Timer.addFirstTimer_of_new entry hnew]
  exact congrArg (Config.mk · stack) (armed_schedule ev none id { entry with timeId := id })

/-- An addition and a deletion move the cursor. -/
theorem Turned.move [Zero S] {results : ℕ → RetValue × UInt64} {c : UInt32}
    (h : Turned S δ results c) :
    Turned S δ results ((Timer.new 4294967295 : Timer S δ).nextId c) := by
  obtain ⟨ev, ls, hreach, hpath, htimer, hpass, hfiring, hresults⟩ := h
  let id := (Timer.new 4294967295 : Timer S δ).nextId c
  let entry : EventEntry S δ := { EventEntry.newTimerAt 0 none none with timeId := id }
  have hnext : ev.timer.nextId ev.timer.timeId = id := by rw [htimer]; rfl
  have hfree : ev.timer.timeMaps id = none := by rw [htimer]; rfl
  have hnew := Timer.calcNewId_of_free (t := ev.timer) (hnext ▸ hfree)
  rw [hnext] at hnew
  have hadded : timerSystem.Reaches (new 4294967295 0 results) ⟨ev.arm none id entry, []⟩ :=
    start_store_first ev hnew ▸ hreach.call (.addNewTimerAt 0 none none) trivial trivial
  have hdeleted := hadded.call (.delTimer id) trivial trivial
  refine ⟨_, _, hdeleted, (hpath.snoc (.armed_at (.fresh rfl hnew) rfl)).snoc (.deleted id), ?_,
    hpass, hfiring, hresults⟩
  have hback := (Timer.del_schedule_iff (t := { ev.timer with timeId := id }) entry hfree).mpr
    (by rw [htimer]; rfl)
  exact (congrArg Prod.snd hback).trans (by rw [htimer])

/-- With the largest limit the cursor can be anywhere. -/
theorem turned [Zero S] (results : ℕ → RetValue × UInt64) (c : ℕ) :
    Turned S δ results (UInt32.ofNat c) := by
  induction c with
  | zero => exact ⟨_, _, .refl _, .nil _, rfl, rfl, rfl, rfl⟩
  | succ c ih =>
      have hnext : (Timer.new 4294967295 : Timer S δ).nextId (UInt32.ofNat c) =
          UInt32.ofNat (c + 1) := by
        rw [UInt32.ofNat_add]
        exact if_neg (UInt32.not_lt.mpr (Timer.le_max_id _))
      exact hnext ▸ ih.move

/-- A timer that is queued again keeps its id. -/
theorem step_timeId {life life' : Life S δ} {n : ℕ} {c : UInt64}
    (h : life.Step number entry (.rearmed n r c e) life') : e.timeId = entry.timeId := by
  cases h
  rfl

/-- After a turn through all ids a timer gets the id zero. It is queued again
under another id. -/
theorem timer_loses_id :
    ∃ (c : Config (EventLoop Int32 Unit) TimerReply Unit) (pre post : List (Happening Int32 Unit))
      (ev : EventLoop Int32 Unit) (number : ℕ) (reading : Option UInt64)
      (entry : EventEntry Int32 Unit) (t : EventLoop Int32 Unit × List (TimerFrame Int32 Unit))
      (fs : List (TimerFrame Int32 Unit)),
      timerSystem.Reaches (new 4294967295 0 fun _ => (.CONTINUE, 5)) c ∧
      timerSystem.Open c.stack ∧
      TimerPath (new 4294967295 0 fun _ => (.CONTINUE, 5)) pre ev [] ∧
      TimerStep (ev, []) (.armed number reading entry) t ∧ Path TimerStep t post (c.state, fs) ∧
      Noted (pre ++ .armed number reading entry :: post) c.state.log ∧
      Lacks entry.timeId ev.timer ∧ Undisturbed number entry.timeId post ∧
      ¬ ∃ life, Path (Life.Step number entry) (.waiting [] entry) (own number post) life := by
  obtain ⟨ev, ls, hreach, hpath, htimer, hpass, hfiring, hresults⟩ :=
    turned (S := Int32) (δ := Unit) (fun _ => (.CONTINUE, 5)) 4294967295
  have hnew : ev.timer.calcNewId = some (0, { ev.timer with timeId := 0 }) := by
    rw [htimer]
    rfl
  let entry : EventEntry Int32 Unit :=
    { EventEntry.newTimer 0 5 false (some 7) none with timeId := 0 }
  have hadded : timerSystem.Reaches (new 4294967295 0 fun _ => (.CONTINUE, 5))
      ⟨arm { ev with clock := 0 } none 0 entry, []⟩ :=
    start_store_first { ev with clock := 0 } hnew ▸
      (hreach.call (.addNewTimer 5 false (some 7) none) trivial trivial).answer (0 : UInt64) rfl
  obtain ⟨timer, clock, results, pass, firing, added, owner, log⟩ := ev
  dsimp only at htimer hpass hfiring hresults
  subst htimer hpass hfiring hresults
  have firing := (hadded.call (.timerProcess 2) trivial ⟨rfl, rfl⟩).answer (10 : UInt64) rfl
  have again := (firing.answer (RetValue.CONTINUE, (5 : UInt64)) ⟨rfl, rfl⟩).answer
    (10 : UInt64) rfl
  have harmed := @TimerStep.armed Int32 Unit _ [] 0 0 0
    (EventEntry.newTimer 0 5 false (some 7) none) (.fresh rfl hnew) rfl
  let queued : EventLoop Int32 Unit := arm ⟨{ Timer.new 4294967295 with
    timeId := UInt32.ofNat 4294967295 }, 0, fun _ => (.CONTINUE, 5), none, none, added, owner,
      log⟩ none 0 entry
  have howner : Function.update owner entry.key added entry.key = added :=
    Function.update_self ..
  have hbegan := @TimerStep.began Int32 Unit queued [] 10
  have hfired := (Path.cons hbegan (.nil _)).snoc
    (@TimerStep.fired_as Int32 Unit added entry _ _ _ _ rfl howner)
  have hrearmed := hfired.snoc (@TimerStep.rearmed_as Int32 Unit added entry (.CONTINUE, 5) _ _ 10
    1 1 (Option.some_ne_none _) rfl (by decide) (.fresh rfl rfl))
  have hpost := hrearmed.snoc (.ended rfl)
  refine ⟨_, ls, _, _, added, some 0, entry, _, [], again, trivial, hpath, harmed, hpost, ?_, ?_,
    ?_, ?_⟩
  · obtain ⟨log, hlog, hnoted⟩ := path_noted (hpath.append (.cons harmed hpost))
    exact (hlog : _ = log) ▸ hnoted
  · exact nofun
  · exact undisturbed_of_forall (by simp [Happening.Spares])
  · rintro ⟨life, h⟩
    simp only [own, Happening.number, List.nil_append, List.cons_append, List.filter_cons,
      List.filter_nil, reduceCtorEq, decide_true, decide_false, if_true, if_false,
      Bool.false_eq_true] at h
    rcases h with _ | ⟨hfirst, h⟩
    rcases h with _ | ⟨hsecond, -⟩
    cases hfirst
    exact absurd (step_timeId hsecond) (by decide)

end EventLoop

end TdRevent
