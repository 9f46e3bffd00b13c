import TdRevent.TimerCalls
import TdRevent.Interaction.Paths

/-!
# What happens to timers, step by step

Every run of the event loop is a path of steps, each of which is one thing that
happens to a timer: it is queued, it fires, it ends or is queued again. The
steps name the clock readings and the results of the callbacks. What holds of
every path holds of every run.

## Implementation notes

The calls may come at any time here: a callback may start a pass of its own, and
an entry may be added under any id. The passes and callbacks that are under way
are frames beside the state.
-/

namespace TdRevent

open Interaction

variable {S δ : Type}

/-- One thing that happens to timers. -/
inductive Happening (S δ : Type)
  /-- A new timer was queued, after a reading of the clock if it has a step. -/
  | armed (number : ℕ) (clock : Option UInt64) (entry : EventEntry S δ)
  /-- `delTimer` was called. -/
  | deleted (id : UInt32)
  /-- A pass over the timers due at `now` began. -/
  | began (now : UInt64)
  | ended
  /-- The timer was taken out by the pass over the timers due at `now`. -/
  | fired (now : UInt64) (number : ℕ) (entry : EventEntry S δ)
  /-- The callback gave this result, and the timer was over. -/
  | over_ (number : ℕ) (result : RetValue × UInt64)
  /-- The callback gave this result, and the timer was queued again after this
  reading of the clock. -/
  | rearmed (number : ℕ) (result : RetValue × UInt64) (clock : UInt64) (entry : EventEntry S δ)

/-- What the history records of a step. -/
def Happening.Noted : Happening S δ → List (TimerEvent S δ) → Prop
  | .armed number _ entry, log => ∃ replaced, log = [.armed number entry replaced]
  | .deleted id, log => ∃ live returned, log = [.deleted id live returned]
  | .began now, log => log = [.began now]
  | .ended, log => log = []
  | .fired _ number entry, log => log = [.fired number entry]
  | .over_ _ _, log => log = []
  | .rearmed number _ _ entry, log => ∃ replaced, log = [.armed number entry replaced]

/-- The history of the steps, in order. -/
def Noted (ls : List (Happening S δ)) (log : List (TimerEvent S δ)) : Prop :=
  ∃ parts, List.Forall₂ Happening.Noted ls parts ∧ log = parts.flatten

/-- What is under way. -/
inductive TimerFrame (S δ : Type)
  | pass (now : UInt64)
  | callback (number : ℕ) (entry : EventEntry S δ)

namespace EventLoop

variable {ev ev' : EventLoop S δ}

/-- The callback of the entry ends in this state with this result. A timer
without a callback ends at once. -/
inductive Result (ev : EventLoop S δ) (entry : EventEntry S δ) :
    RetValue × UInt64 → EventLoop S δ → Prop
  | skipped (h : entry.timer = none) : Result ev entry (.OK, 0) ev
  | called (h : entry.timer ≠ none) :
      Result ev entry (ev.results 0) { ev with results := fun n => ev.results (n + 1) }

/-- The steps of the event loop. -/
inductive TimerStep : EventLoop S δ × List (TimerFrame S δ) → Happening S δ →
    EventLoop S δ × List (TimerFrame S δ) → Prop
  | armed {ev fs c id cursor} {entry : EventEntry S δ}
      (hid : ev.timer.Assigned entry.timeId id cursor)
      (htick : entry.tickMs = c + entry.tickStep) :
      TimerStep (ev, fs) (.armed ev.added (some c) { entry with timeId := id })
        (arm { ev with clock := c } none cursor { entry with timeId := id }, fs)
  | armed_at {ev fs id cursor} {entry : EventEntry S δ}
      (hid : ev.timer.Assigned entry.timeId id cursor) (hstep : entry.tickStep = 0) :
      TimerStep (ev, fs) (.armed ev.added none { entry with timeId := id })
        (ev.arm none cursor { entry with timeId := id }, fs)
  | deleted {ev fs} (id : UInt32) : TimerStep (ev, fs) (.deleted id) (ev.deleted id, fs)
  | began {ev fs} (now : UInt64) :
      TimerStep (ev, fs) (.began now)
        ({ ev with clock := now, pass := some now, log := ev.log ++ [.began now] },
          .pass now :: fs)
  | ended {ev fs now} (hdone : ev.timer.tickTime now = (none, ev.timer)) :
      TimerStep (ev, .pass now :: fs) .ended ({ ev with pass := none }, fs)
  | fired {ev fs now entry timer} (hdue : ev.timer.tickTime now = (some entry, timer)) :
      TimerStep (ev, .pass now :: fs) (.fired now (ev.owner entry.key) entry)
        (ev.fire entry timer, .callback (ev.owner entry.key) entry :: .pass now :: fs)
  | over_ {ev ev' fs number entry r} (hr : Result ev entry r ev') (hover : ¬ rearms entry r) :
      TimerStep (ev, .callback number entry :: fs) (.over_ number r)
        ({ ev' with firing := none }, fs)
  | rearmed {ev ev' fs number entry r c id cursor} (hr : Result ev entry r ev')
      (hrearms : rearms entry r) (hid : ev'.timer.Assigned entry.timeId id cursor) :
      TimerStep (ev, .callback number entry :: fs)
        (.rearmed number r c { (settle entry r).2 with
          timeId := id, tickMs := c + (settle entry r).2.tickStep })
        (arm { ev' with firing := none, clock := c } (some number) cursor
          { (settle entry r).2 with
            timeId := id, tickMs := c + (settle entry r).2.tickStep }, fs)

/-- A path from a state outside the library. -/
abbrev TimerPath (ev : EventLoop S δ) (ls : List (Happening S δ)) (ev' : EventLoop S δ)
    (fs : List (TimerFrame S δ)) : Prop := Path TimerStep (ev, []) ls (ev', fs)

/-! ## The history of a path -/

/-- The end of a callback takes one result and nothing else. -/
theorem Result.kept {entry : EventEntry S δ} {r : RetValue × UInt64} (h : Result ev entry r ev') :
    ev' = { ev with results := ev'.results } := by
  cases h <;> rfl

theorem TimerStep.noted {s t : EventLoop S δ × List (TimerFrame S δ)} {l : Happening S δ}
    (h : TimerStep s l t) : ∃ log, t.1.log = s.1.log ++ log ∧ l.Noted log := by
  cases h with
  | armed _ _ => exact ⟨_, rfl, _, rfl⟩
  | armed_at _ _ => exact ⟨_, rfl, _, rfl⟩
  | deleted _ => exact ⟨_, rfl, _, _, rfl⟩
  | began _ => exact ⟨_, rfl, rfl⟩
  | ended _ => exact ⟨[], (List.append_nil _).symm, rfl⟩
  | fired _ => exact ⟨_, rfl, rfl⟩
  | over_ hr _ =>
      rw [hr.kept]
      exact ⟨[], (List.append_nil _).symm, rfl⟩
  | rearmed hr _ _ =>
      rw [hr.kept]
      exact ⟨_, rfl, _, rfl⟩

/-- The history grows by what it records of the steps. -/
theorem path_noted {s t : EventLoop S δ × List (TimerFrame S δ)} {ls : List (Happening S δ)}
    (h : Path TimerStep s ls t) : ∃ log, t.1.log = s.1.log ++ log ∧ Noted ls log := by
  induction h with
  | nil s => exact ⟨[], (List.append_nil _).symm, [], .nil, rfl⟩
  | cons hstep _ ih =>
      obtain ⟨first, hfirst, hnoted⟩ := hstep.noted
      obtain ⟨_, hlog, parts, hparts, rfl⟩ := ih
      refine ⟨first ++ parts.flatten, ?_, first :: parts, .cons hnoted hparts, rfl⟩
      rw [hlog, hfirst, List.append_assoc]

/-! ## Runs are paths -/

/-- Every run is a path. -/
def followPaths (ev : EventLoop S δ) :
    Discipline (EventLoop S δ) (TimerReply (S := S) (δ := δ)) :=
  .following TimerStep (ev, [])

variable {ev₀ : EventLoop S δ}

/-- The steps from `start` to `ev`, after which these frames are under way. -/
def Leads (start : EventLoop S δ) (frames : List (TimerFrame S δ)) (ev : EventLoop S δ) : Prop :=
  ∀ fs, ∃ ls, Path TimerStep (start, fs) ls (ev, frames ++ fs)

variable {start : EventLoop S δ} {frames : List (TimerFrame S δ)}

theorem Leads.inv (h : Leads start frames ev) (hstart : (followPaths ev₀).inv start) :
    (followPaths ev₀).inv ev := by
  obtain ⟨ls, fs, hpath⟩ := hstart
  obtain ⟨ms, hms⟩ := h fs
  exact ⟨ls ++ ms, frames ++ fs, hpath.append hms⟩

theorem Leads.snoc (h : Leads start frames ev) {l : Happening S δ} {ev' : EventLoop S δ}
    {frames' : List (TimerFrame S δ)}
    (hstep : ∀ fs, TimerStep (ev, frames ++ fs) l (ev', frames' ++ fs)) :
    Leads start frames' ev' := by
  intro fs
  obtain ⟨ls, hls⟩ := h fs
  exact ⟨ls ++ [l], hls.snoc (hstep fs)⟩

/-- What a callback calls leaves the frames as they are. -/
theorem Leads.callback (h : Leads start frames ev) {u : EventLoop S δ}
    (hrel : (followPaths ev₀).rel ev u) : Leads start frames u := by
  intro fs
  obtain ⟨ls, hls⟩ := h fs
  obtain ⟨ms, hms⟩ := hrel (frames ++ fs)
  exact ⟨ls ++ ms, hls.append hms⟩

end EventLoop

variable [Zero S]

/-- The event loop with a user who may call anything at any time. -/
def anyCalls : System (EventLoop S δ) (TimerReply (S := S) (δ := δ)) (TimerCall S δ) Unit :=
  { timerSystem with may := fun _ _ => True }

namespace EventLoop

variable {ev₀ ev start : EventLoop S δ}

theorem followPaths_runs : Runs ((followPaths ev₀).contract anyCalls) where
  clock _ _ := ⟨trivial, fun h => h.elim⟩
  spin _ _ := ⟨trivial, fun h => h.elim⟩
  tells step ev c ev' h := by
    rcases h with ⟨-, h⟩ | ⟨h, -⟩
    · exact h
    · exact h.elim

/-- The result of a callback is that of a step, after the steps of its calls. -/
theorem returned_result {entry : EventEntry S δ} {r : RetValue × UInt64} {ev' : EventLoop S δ}
    (hr : Returned ((followPaths ev₀).contract anyCalls) ev entry r ev')
    (hskip : entry.timer = none → r = (.OK, 0) ∧ ev' = ev) :
    ∃ u, (followPaths ev₀).rel ev u ∧ Result u entry r ev' := by
  by_cases hnone : entry.timer = none
  · obtain ⟨rfl, rfl⟩ := hskip hnone
    exact ⟨ev', (followPaths ev₀).refl ev', .skipped hnone⟩
  · cases hr with
    | skipped h => exact absurd h hnone
    | called h =>
        rcases h with ⟨huser, -⟩ | ⟨-, u, -, hrel, rfl, rfl⟩
        · exact absurd trivial huser
        · exact ⟨u, hrel, .called hnone⟩

/-- One timer of a pass, as steps. -/
theorem Leads.wp_processEntry {now : UInt64} {entry : EventEntry S δ} {timer : Timer S δ}
    (h : Leads start [.pass now] ev) (hstart : (followPaths ev₀).inv start)
    (hdue : ev.timer.tickTime now = (some entry, timer)) :
    (processEntry entry timer).wp ((followPaths ev₀).contract anyCalls)
      (fun _ ev' => Leads start [.pass now] ev') ev := by
  have hfired : Leads start [.callback (ev.owner entry.key) entry, .pass now]
      (ev.fire entry timer) := h.snoc fun _ => .fired hdue
  refine wp_processEntry_returned followPaths_runs ?_ ?_ ?_
  · exact ⟨trivial, fun _ => hfired.inv hstart⟩
  · intro r ev' hr hskip hover
    obtain ⟨u, hrel, hresult⟩ := returned_result hr hskip
    exact (hfired.callback hrel).snoc fun _ => .over_ hresult hover
  · intro r ev' hr hskip hrearms c _ id cursor hid
    obtain ⟨u, hrel, hresult⟩ := returned_result hr hskip
    exact (hfired.callback hrel).snoc fun _ => .rearmed hresult hrearms hid

/-- A call other than a pass is one step, or none. -/
theorem leads_of_effect
    {C : Contract (EventLoop S δ) (TimerReply (S := S) (δ := δ))} {op : TimerCall S δ}
    {ev' : EventLoop S δ} (h : op.Effect C ev ev') : Leads ev [] ev' := by
  have hnil : Leads ev [] ev := fun fs => ⟨[], .nil (ev, fs)⟩
  cases h with
  | idle _ => exact hnil
  | @addTimer entry c id cursor _ _ hid =>
      exact hnil.snoc fun fs => @TimerStep.armed S δ ev ([] ++ fs) c id cursor
        { entry with tickMs := c + entry.tickStep } hid rfl
  | addNewTimer _ hid => exact hnil.snoc fun _ => .armed hid rfl
  | addNewTimerAt hid => exact hnil.snoc fun _ => .armed_at hid rfl
  | delTimer => exact hnil.snoc fun _ => .deleted _

/-- Every call follows the steps. -/
theorem followPaths_keeps : (followPaths (ev₀ : EventLoop S δ)).Keeps anyCalls := by
  intro op ev _ hev
  by_cases hop : ∃ fuel, op = .timerProcess fuel
  · obtain ⟨fuel, rfl⟩ := hop
    simp only [anyCalls, timerSystem, TimerCall.code, timerProcess, Code.wp_bind,
      Code.wp_modify, Code.wp_pure]
    apply wp_nowMicro followPaths_runs
    intro now _
    refine wp_timerProcessLoop (fun _ ev' => Leads ev [.pass now] ev') ?_ ?_ ?_ ?_
    · exact fun _ _ => ⟨trivial, fun huser => huser.elim⟩
    · exact fun _ ev' entry timer h hdue => h.wp_processEntry hev hdue
    · intro _ ev' _ h hdone
      have hended : Leads ev [] { ev' with pass := none } := h.snoc fun _ => .ended hdone
      exact ⟨hended.inv hev, hended⟩
    · exact fun fs => ⟨[.began now], .cons (.began now) (.nil _)⟩
  · refine TimerCall.wp_code followPaths_runs (fun fuel hfuel => hop ⟨fuel, hfuel⟩) ?_
    intro ev' heffect
    have hleads := leads_of_effect heffect
    exact ⟨hleads.inv hev, hleads⟩

/-- Whenever code of the user runs, a path has led there. -/
theorem reaches_path {c : Config (EventLoop S δ) (TimerReply (S := S) (δ := δ)) Unit}
    (hreach : anyCalls.Reaches ev₀ c) (hopen : anyCalls.Open c.stack) :
    ∃ ls fs, TimerPath ev₀ ls c.state fs :=
  Discipline.reaches_inv followPaths_keeps hreach ⟨[], [], .nil _⟩ hopen

/-- From the start of the library the path tells the whole history. -/
theorem reaches_noted {timeMaxId : UInt32} {clock : UInt64} {results : ℕ → RetValue × UInt64}
    {c : Config (EventLoop S δ) (TimerReply (S := S) (δ := δ)) Unit}
    (hreach : anyCalls.Reaches (new timeMaxId clock results) c)
    (hopen : anyCalls.Open c.stack) :
    ∃ ls fs, TimerPath (new timeMaxId clock results) ls c.state fs ∧ Noted ls c.state.log := by
  obtain ⟨ls, fs, hpath⟩ := reaches_path hreach hopen
  obtain ⟨log, hlog, hnoted⟩ := path_noted hpath
  exact ⟨ls, fs, hpath, (hlog : c.state.log = log) ▸ hnoted⟩

end EventLoop

end TdRevent
