import TdRevent.EventBuffer
import TdRevent.TimerPass
import TdRevent.Interaction.Parts
import TdRevent.Interaction.Paths

/-!
# The main loop

`run` repeats `runOnce` until `shutdown` is called. `runOnce` waits for events of
the sockets, hands them to their handlers, and then fires the due timers. The main
loop is composed of the timers and of a selector, and a callback of either may call
every function of the loop.

## Implementation notes

The selector is any system, with its code for `doSelect`. The results of
`doSelect` and of `timerProcess` carry a count as history: of the events that were
handed to a handler, and of the timers that were fired. No function branches on the
counts, and `timerProcess_eq` says that the counted pass is the pass. The wait may
return at any time, so its timeout, which `runOnce` takes from the configuration, is
left out here.
-/

namespace TdRevent

open Interaction

variable {S δ Sel κ Op : Type} {ρ : κ → Type}

/-- The event loop: the flag of `run`, the timers and the selector. -/
structure MainLoop (S δ Sel : Type) where
  run : Bool
  timers : EventLoop S δ
  selector : Sel

/-- What the main loop asks of its environment. -/
inductive MainAsk (S δ κ : Type)
  | timers (q : TimerAsk S δ)
  | selector (q : κ)
  /-- The sleep of `run`. -/
  | sleep
  /-- The loop of `run` is longer than the model follows it. -/
  | fuel

@[reducible] def MainReply (ρ : κ → Type) : MainAsk S δ κ → Type
  | .timers q => TimerReply q
  | .selector q => ρ q
  | .sleep => Unit
  | .fuel => Empty

abbrev MainCode (S δ Sel : Type) {κ : Type} (ρ : κ → Type) (α : Type) :=
  Code (MainLoop S δ Sel) (MainReply (S := S) (δ := δ) ρ) α

/-- What one call of `runOnce` returns, and what it did. -/
structure Outcome where
  ret : Except IoError Bool
  /-- How many events were handed to a handler. -/
  dispatched : ℕ
  /-- How many timers were fired. -/
  fired : ℕ

namespace EventLoop

/-- The loop of `timerProcess`, with the number of timers that it fired. -/
def fireLoop (now : UInt64) : ℕ → Bool → ℕ → LoopCode S δ (Bool × ℕ)
  | 0, _, _ => .ask .fuel nofun
  | fuel + 1, isOp, fired => do
      let ev ← .read
      match ev.timer.tickTime now with
      | (some entry, timer) => do
          processEntry entry timer
          fireLoop now fuel true (fired + 1)
      | (none, _) => pure (isOp, fired)

/-- `timerProcess`, with the number of timers that it fired. -/
def timerPass (fuel : ℕ) : LoopCode S δ (Bool × ℕ) := do
  let now ← nowMicro 0
  .modify fun ev => { ev with pass := some now, log := ev.log ++ [.began now] }
  let ret ← fireLoop now fuel false 0
  .modify fun ev => { ev with pass := none }
  pure ret

theorem timerProcessLoop_eq (now : UInt64) (fuel : ℕ) (isOp : Bool) (fired : ℕ) :
    (timerProcessLoop now fuel isOp : LoopCode S δ Bool) =
      fireLoop now fuel isOp fired >>= fun ret => pure ret.1 := by
  induction fuel generalizing isOp fired with
  | zero => exact congrArg (Code.ask TimerAsk.fuel) (funext nofun)
  | succ fuel ih =>
      simp only [timerProcessLoop, fireLoop, bind_assoc]
      refine congrArg (Code.read >>= ·) (funext fun ev => ?_)
      rcases ev.timer.tickTime now with ⟨_ | entry, timer⟩
      · rfl
      · simp only [bind_assoc, ← ih true (fired + 1)]

theorem timerProcess_eq (fuel : ℕ) :
    (timerProcess fuel : LoopCode S δ Bool) = timerPass fuel >>= fun ret => pure ret.1 := by
  simp only [timerProcess, timerPass, timerProcessLoop_eq _ fuel false 0, bind_assoc,
    pure_bind]

end EventLoop

namespace MainLoop

/-- The timers of the loop. -/
def timersPart :
    Part (MainLoop S δ Sel) (EventLoop S δ) (MainReply (S := S) (δ := δ) ρ)
      (TimerReply (S := S) (δ := δ)) where
  get := timers
  set timers ml := { ml with timers := timers }
  question := .timers
  reply _ r := r
  get_set _ _ := rfl

/-- The selector of the loop. -/
def selectorPart : Part (MainLoop S δ Sel) Sel (MainReply (S := S) (δ := δ) ρ) ρ where
  get := selector
  set selector ml := { ml with selector := selector }
  question := .selector
  reply _ r := r
  get_set _ _ := rfl

end MainLoop

namespace EventLoop

open MainLoop

def shutdown : MainCode S δ Sel ρ Unit := .modify fun ml => { ml with run := false }

section

variable (doSelect : Code Sel ρ (Except IoError (ℕ × ℕ))) (fuel : ℕ)

def runOnce : MainCode S δ Sel ρ Outcome := do
  let ret ← doSelect.within selectorPart
  match ret with
  | .error e => pure ⟨.error e, 0, 0⟩
  | .ok (size, dispatched) => do
      let (isOp, fired) ← (timerPass fuel).within timersPart
      pure ⟨.ok (size ≠ 0 ∨ ¬ isOp), dispatched, fired⟩

/-- The body of the loop of `run`, up to the sleep. Whether it slept is history. -/
def round : MainCode S δ Sel ρ (Outcome × Bool) := do
  let outcome ← runOnce doSelect fuel
  match outcome.ret with
  | .ok false => do
      .query MainAsk.sleep
      pure (outcome, true)
  | _ => pure (outcome, false)

/-- The loop of `run`. -/
def runLoop : ℕ → MainCode S δ Sel ρ (Except IoError Unit)
  | 0 => .ask .fuel nofun
  | rounds + 1 => do
      let ml ← .read
      if ml.run then do
        let (outcome, _) ← round doSelect fuel
        match outcome.ret with
        | .error e => pure (.error e)
        | .ok _ => runLoop rounds
      else pure (.ok ())

def run (rounds : ℕ) : MainCode S δ Sel ρ (Except IoError Unit) := do
  .modify fun ml => { ml with run := true }
  runLoop doSelect fuel rounds

end

end EventLoop

/-- The calls that reach the loop. -/
inductive MainCall (S δ Op : Type)
  | timers (op : TimerCall S δ)
  | selector (op : Op)
  | runOnce (fuel : ℕ)
  | run (fuel rounds : ℕ)
  | shutdown

/-- The code of a call. -/
def MainCall.code [Zero S] (Y : System Sel ρ Op Unit)
    (doSelect : Code Sel ρ (Except IoError (ℕ × ℕ))) :
    MainCall S δ Op → MainCode S δ Sel ρ Unit
  | .timers op => op.code.within MainLoop.timersPart
  | .selector op => (Y.api op).within MainLoop.selectorPart
  | .runOnce fuel => do
      let _ ← EventLoop.runOnce doSelect fuel
  | .run fuel rounds => do
      let _ ← EventLoop.run doSelect fuel rounds
  | .shutdown => EventLoop.shutdown

/-- The callbacks of both parts are the questions to the user. -/
def MainAsk.user (Y : System Sel ρ Op Unit) : MainAsk S δ κ → Prop
  | .timers q => q.user
  | .selector q => Y.user q
  | _ => False

/-- The answers are those of the parts, and change no other part. -/
def MainAsk.answer (Y : System Sel ρ Op Unit) : (q : MainAsk S δ κ) → MainLoop S δ Sel →
    MainReply ρ q → MainLoop S δ Sel → Prop
  | .timers q, ml, r, ml' => ∃ ev, q.answer ml.timers r ev ∧ ml' = { ml with timers := ev }
  | .selector q, ml, r, ml' =>
      ∃ sel, Y.answer q ml.selector r sel ∧ ml' = { ml with selector := sel }
  | .sleep, ml, _, ml' => ml' = ml
  | .fuel, _, r, _ => nomatch r

/-- The event loop with its selector `Y`, and the user of both. Every call may
happen at every time. -/
def mainSystem [Zero S] (Y : System Sel ρ Op Unit)
    (doSelect : Code Sel ρ (Except IoError (ℕ × ℕ))) :
    System (MainLoop S δ Sel) (MainReply (S := S) (δ := δ) ρ) (MainCall S δ Op) Unit where
  api := MainCall.code Y doSelect
  user := MainAsk.user Y
  answer := MainAsk.answer Y
  may _ _ := True

end TdRevent
