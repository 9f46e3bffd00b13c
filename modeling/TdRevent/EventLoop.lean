import TdRevent.Timer
import TdRevent.Interaction.System

/-!
# The timers of the event loop

`timerProcess` takes out the due timers one by one, runs their callbacks and
queues them again. The callbacks are code of the user. They may call the
timer functions of the loop while the loop holds the entry that is fired.

## Implementation notes

The clock and the callbacks are the environment of the loop. A clock reading
is a question that carries the step to be added to it, so that a bound on the
sum can be stated. The result of a callback is fixed when it starts: the
stream `results` lists the results of all callbacks still to come. Every
execution is the execution for one such stream.

The fields from `pass` on are history. No function branches on them. A timer
has a number there, the count of the timers added before it, and keeps it
when it is queued again after its callback.
-/

namespace TdRevent

open Interaction

variable {S δ : Type}

/-- What happens to timers. -/
inductive TimerEvent (S δ : Type)
  /-- A pass over the timers due at `now` began. -/
  | began (now : UInt64)
  /-- The timer was queued. Its record replaced an older one of the same id. -/
  | armed (number : ℕ) (entry : EventEntry S δ) (replaced : Option UInt64)
  /-- The timer was taken out because it was due. -/
  | fired (number : ℕ) (entry : EventEntry S δ)
  /-- `delTimer` was called for the id that these timers carried then. -/
  | deleted (id : UInt32) (live : List ℕ) (returned : Option (EventEntry S δ))
  deriving DecidableEq

/-- The part of the event loop that concerns timers, with the clock, the
callback results to come, and the history. -/
structure EventLoop (S δ : Type) where
  timer : Timer S δ
  clock : UInt64
  results : ℕ → RetValue × UInt64
  /-- The time of the pass that is going on. -/
  pass : Option UInt64
  /-- The timer whose callback is running. -/
  firing : Option (ℕ × EventEntry S δ)
  /-- How many timers were added. -/
  added : ℕ
  /-- The number of the timer that is queued under a key. -/
  owner : TreeKey → ℕ
  log : List (TimerEvent S δ)

/-- What the loop asks of its environment. -/
inductive TimerAsk (S δ : Type)
  /-- Read the clock for a deadline that lies `step` later. -/
  | nowMicro (step : UInt64)
  /-- Run the callback of the entry. -/
  | timerCb (entry : EventEntry S δ)
  /-- `calcNewId` loops without end. -/
  | spin
  /-- The loop of `timerProcess` is longer than the model follows it. -/
  | fuel

@[reducible] def TimerReply : TimerAsk S δ → Type
  | .nowMicro _ => UInt64
  | .timerCb _ => RetValue × UInt64
  | .spin => Empty
  | .fuel => Empty

abbrev LoopCode (S δ α : Type) := Code (EventLoop S δ) (TimerReply (S := S) (δ := δ)) α

/-- The timer that the index finds under the id. -/
def Timer.lookup (t : Timer S δ) (id : UInt32) : Option (EventEntry S δ) :=
  (t.timeMaps id).bind fun tick => t.timerQueue.find ⟨tick, id⟩

namespace EventLoop

/-- A loop with the timers of `Timer::new`, before anything happened. -/
def new (timeMaxId : UInt32) (clock : UInt64) (results : ℕ → RetValue × UInt64) :
    EventLoop S δ where
  timer := .new timeMaxId
  clock := clock
  results := results
  pass := none
  firing := none
  added := 0
  owner := fun _ => 0
  log := []

/-- The numbers of the queued timers. -/
def queued (ev : EventLoop S δ) : List ℕ := ev.timer.timerQueue.entries.map (ev.owner ·.1)

/-- The numbers of the timers of the id: queued ones and the one that is
being fired. -/
def live (ev : EventLoop S δ) (id : UInt32) : List ℕ :=
  (ev.timer.timerQueue.entries.filter (·.2.timeId = id)).map (ev.owner ·.1) ++
    (ev.firing.toList.filter (·.2.timeId = id)).map (·.1)

/-- Take over the timers after an addition. Without a number it is the
addition of a new timer. -/
def armed (ev : EventLoop S δ) (number : Option ℕ) (id : UInt32) (timer : Timer S δ) :
    EventLoop S δ :=
  match timer.lookup id with
  | none => { ev with timer := timer }
  | some entry =>
      { ev with
        timer := timer
        added := if number.isSome then ev.added else ev.added + 1
        owner := Function.update ev.owner entry.key (number.getD ev.added)
        log := ev.log ++ [.armed (number.getD ev.added) entry (ev.timer.timeMaps id)] }

/-- Take over the timers after a deletion. -/
def deleted (ev : EventLoop S δ) (id : UInt32) : EventLoop S δ :=
  { ev with
    timer := (ev.timer.delTimer id).2
    log := ev.log ++ [.deleted id (ev.live id) (ev.timer.delTimer id).1] }

/-- Hand the entry to its callback. -/
def fire (ev : EventLoop S δ) (entry : EventEntry S δ) (timer : Timer S δ) : EventLoop S δ :=
  { ev with
    timer := timer
    firing := some (ev.owner entry.key, entry)
    log := ev.log ++ [.fired (ev.owner entry.key) entry] }

def nowMicro (step : UInt64) : LoopCode S δ UInt64 := .query (TimerAsk.nowMicro step)

/-- Store the result of an addition, or loop for ever where it has none. -/
def store (number : Option ℕ) : Option (UInt32 × Timer S δ) → LoopCode S δ UInt32
  | none => .ask .spin nofun
  | some (id, timer) => do
      .modify (·.armed number id timer)
      pure id

/-- `EventLoop::add_timer`. The clock is read only for an entry with a step.
The number is history. -/
def addTimer (number : Option ℕ) (entry : EventEntry S δ) : LoopCode S δ UInt32 :=
  if entry.tickStep = 0 then pure 0
  else do
    let now ← nowMicro entry.tickStep
    let ev ← .read
    store number (ev.timer.addTimer now entry)

def addNewTimer [Zero S] (tickStep : UInt64) (tickRepeat : Bool) (timerCb : Option FnPtr)
    (data : Option δ) : LoopCode S δ UInt32 := do
  let now ← nowMicro tickStep
  let ev ← .read
  store none (ev.timer.addFirstTimer (.newTimer now tickStep tickRepeat timerCb data))

def addNewTimerAt [Zero S] (tickTime : UInt64) (timerCb : Option FnPtr)
    (data : Option δ) : LoopCode S δ UInt32 := do
  let ev ← .read
  store none (ev.timer.addFirstTimer (.newTimerAt tickTime timerCb data))

def delTimer (timeId : UInt32) : LoopCode S δ (Option (EventEntry S δ)) := do
  let ev ← .read
  .modify (·.deleted timeId)
  pure (ev.timer.delTimer timeId).1

/-- `EventEntry::timer_cb`. -/
def timerCb (entry : EventEntry S δ) : LoopCode S δ (RetValue × UInt64) :=
  match entry.timer with
  | none => pure (.OK, 0)
  | some _ => .query (TimerAsk.timerCb entry)

/-- Whether the timer is over after this result, and its entry otherwise. -/
def settle (entry : EventEntry S δ) : RetValue × UInt64 → Bool × EventEntry S δ
  | (.OVER, _) => (true, entry)
  | (.CONTINUE, time) => (false, { entry with tickStep := time })
  | (.OK, _) => (decide (¬ entry.evEvents.contains EventFlags.FLAG_PERSIST), entry)

/-- The body of the loop of `timerProcess`, for the entry that was due. -/
def processEntry (entry : EventEntry S δ) (timer : Timer S δ) : LoopCode S δ Unit := do
  let ev ← .read
  .modify (·.fire entry timer)
  let ret ← timerCb entry
  .modify fun ev => { ev with firing := none }
  let (isOver, entry') := settle entry ret
  if isOver then pure ()
  else do
    let _ ← addTimer (some (ev.owner entry.key)) entry'

/-- The loop of `timerProcess`. -/
def timerProcessLoop (now : UInt64) : ℕ → Bool → LoopCode S δ Bool
  | 0, _ => .ask .fuel nofun
  | fuel + 1, isOp => do
      let ev ← .read
      match ev.timer.tickTime now with
      | (some entry, timer) => do
          processEntry entry timer
          timerProcessLoop now fuel true
      | (none, _) => pure isOp

/-- One pass over the due timers. -/
def timerProcess (fuel : ℕ) : LoopCode S δ Bool := do
  let now ← nowMicro 0
  .modify fun ev => { ev with pass := some now, log := ev.log ++ [.began now] }
  let isOp ← timerProcessLoop now fuel false
  .modify fun ev => { ev with pass := none }
  pure isOp

end EventLoop

/-- The calls that reach the timers. -/
inductive TimerCall (S δ : Type)
  | addTimer (entry : EventEntry S δ)
  | addNewTimer (tickStep : UInt64) (tickRepeat : Bool) (timerCb : Option FnPtr)
      (data : Option δ)
  | addNewTimerAt (tickTime : UInt64) (timerCb : Option FnPtr) (data : Option δ)
  | delTimer (timeId : UInt32)
  | timerProcess (fuel : ℕ)

/-- The code of a call. -/
def TimerCall.code [Zero S] : TimerCall S δ → LoopCode S δ Unit
  | .addTimer entry => do
      let _ ← EventLoop.addTimer none entry
  | .addNewTimer tickStep tickRepeat timerCb data => do
      let _ ← EventLoop.addNewTimer tickStep tickRepeat timerCb data
  | .addNewTimerAt tickTime timerCb data => do
      let _ ← EventLoop.addNewTimerAt tickTime timerCb data
  | .delTimer timeId => do
      let _ ← EventLoop.delTimer timeId
  | .timerProcess fuel => do
      let _ ← EventLoop.timerProcess fuel

/-! ## Runs of the event loop -/

/-- The callbacks are the questions to the user. -/
def TimerAsk.user : TimerAsk S δ → Prop
  | .timerCb _ => True
  | _ => False

/-- The clock shows any value. A callback gives the next result of the stream. -/
def TimerAsk.answer : (q : TimerAsk S δ) → EventLoop S δ → TimerReply q → EventLoop S δ → Prop
  | .nowMicro _, ev, c, ev' => ev' = { ev with clock := c }
  | .timerCb _, ev, r, ev' =>
      r = ev.results 0 ∧ ev' = { ev with results := fun n => ev.results (n + 1) }
  | .spin, _, r, _ => nomatch r
  | .fuel, _, r, _ => nomatch r

/-- A callback adds and deletes timers. An entry that is added again is one
that a deletion returned. -/
def TimerCall.may (ev : EventLoop S δ) : TimerCall S δ → Prop
  | .addTimer entry =>
      entry.timeId = 0 ∨
        ∃ id live entry', .deleted id live (some entry') ∈ ev.log ∧
          entry'.timeId = entry.timeId
  | .timerProcess _ => ev.pass = none ∧ ev.firing = none
  | _ => True

/-- The event loop and the user of its timers. -/
def timerSystem [Zero S] :
    System (EventLoop S δ) (TimerReply (S := S) (δ := δ)) (TimerCall S δ) Unit where
  api := TimerCall.code
  user := TimerAsk.user
  answer := TimerAsk.answer
  may := TimerCall.may

end TdRevent
