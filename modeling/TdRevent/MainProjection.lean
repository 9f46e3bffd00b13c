import TdRevent.MainLoop
import TdRevent.TimerPaths
import TdRevent.Interaction.Projection

/-!
# The parts of the main loop

The main loop uses its timers and its selector through their calls alone. As the
timers see it, a run of the main loop is a run of the timers: what the sockets and
their callbacks do takes place while code of the user runs. The selector sees the
timers in the same way. Every rule for the runs of a part is therefore a rule for the
runs of the main loop.

## Implementation notes

`runOnce` calls `doSelect` and `timerProcess` on its own. These calls of the parts
are no moves of the environment of the loop. A callback may call `run` and `runOnce`
at any time, so the timers are those of `anyCalls`.
-/

namespace TdRevent

open Interaction

variable {S δ Sel κ κ' τ Op Op' : Type} {ρ : κ → Type} {ρ' : κ' → Type}

/-- The calls of the selector are those that it allows. -/
def selectorMay (Y : System Sel ρ Op Unit) :
    MainLoop S δ Sel → Move (MainReply (S := S) (δ := δ) ρ) (MainCall S δ Op) → Prop
  | ml, .call (.selector op) => Y.may ml.selector op
  | _, _ => True

/-- The main loop in these runs. -/
abbrev mainRuns [Zero S] (Y : System Sel ρ Op Unit)
    (doSelect : Code Sel ρ (Except IoError (ℕ × ℕ))) :
    System (MainLoop S δ Sel) (MainReply (S := S) (δ := δ) ρ) (MainCall S δ Op) Unit :=
  (mainSystem Y doSelect).restrict (selectorMay Y)

namespace MainLoop

variable {doSelect : Code Sel ρ (Except IoError (ℕ × ℕ))}
  {P : Part (MainLoop S δ Sel) τ (MainReply (S := S) (δ := δ) ρ) ρ'} {S' : System τ ρ' Op' Unit}
  {s : MainLoop S δ Sel}

/-- A part of which `runOnce` uses calls alone, and which `run` leaves alone
otherwise. -/
structure Weaves (P : Part (MainLoop S δ Sel) τ (MainReply (S := S) (δ := δ) ρ) ρ')
    (S' : System τ ρ' Op' Unit) (doSelect : Code Sel ρ (Except IoError (ℕ × ℕ))) : Prop where
  select : ∀ (rest : _ → MainCode S δ Sel ρ Unit) s, (∀ ret t, P.Woven S' (rest ret) t) →
    P.Woven S' ((doSelect.within selectorPart).bind rest) s
  pass : ∀ fuel (rest : _ → MainCode S δ Sel ρ Unit) s, (∀ ret t, P.Woven S' (rest ret) t) →
    P.Woven S' (((EventLoop.timerPass fuel).within timersPart).bind rest) s
  flag : ∀ run ml, P.get { ml with run := run } = P.get ml
  sleep : ∀ q, MainAsk.sleep ≠ P.question q
  fuel : ∀ q, MainAsk.fuel ≠ P.question q

namespace Weaves

variable (h : Weaves P S' doSelect)

include h

theorem runOnce (fuel : ℕ) {rest : Outcome → MainCode S δ Sel ρ Unit}
    (hrest : ∀ o t, P.Woven S' (rest o) t) :
    P.Woven S' (EventLoop.runOnce doSelect fuel >>= rest) s := by
  simp only [EventLoop.runOnce, bind_assoc]
  refine h.select _ s fun ret t => ?_
  rcases ret with e | ⟨size, dispatched⟩
  · exact hrest _ t
  · simp only [bind_assoc]
    exact h.pass fuel _ t fun ret u => hrest _ u

theorem round (fuel : ℕ) {rest : Outcome × Bool → MainCode S δ Sel ρ Unit}
    (hrest : ∀ o t, P.Woven S' (rest o) t) :
    P.Woven S' (EventLoop.round doSelect fuel >>= rest) s := by
  simp only [EventLoop.round, bind_assoc]
  refine h.runOnce fuel fun o t => ?_
  rcases o with ⟨_ | _ | _, dispatched, fired⟩
  · exact hrest _ t
  · exact .ask h.sleep fun _ u => hrest _ u
  · exact hrest _ t

theorem runLoop (fuel rounds : ℕ) {rest : Except IoError Unit → MainCode S δ Sel ρ Unit}
    (hrest : ∀ ret t, P.Woven S' (rest ret) t) :
    P.Woven S' (EventLoop.runLoop doSelect fuel rounds >>= rest) s := by
  induction rounds generalizing s with
  | zero => exact .ask h.fuel nofun
  | succ rounds ih =>
      simp only [EventLoop.runLoop, bind_assoc]
      refine .get ?_
      change P.Woven S' ((if s.run then _ else _) >>= rest) s
      split
      · simp only [bind_assoc]
        refine h.round fuel fun o t => ?_
        rcases o with ⟨⟨e | b, dispatched, fired⟩, slept⟩
        · exact hrest _ t
        · exact ih
      · exact hrest _ s

theorem run (fuel rounds : ℕ) {rest : Except IoError Unit → MainCode S δ Sel ρ Unit}
    (hrest : ∀ ret t, P.Woven S' (rest ret) t) :
    P.Woven S' (EventLoop.run doSelect fuel rounds >>= rest) s := by
  simp only [EventLoop.run, bind_assoc]
  exact .get (.put (h.flag true s) (h.runLoop fuel rounds hrest))

end Weaves

variable {Y : System Sel ρ Op Unit}

theorem selector_weaves {select : Op} (hselect : Y.api select = doSelect >>= fun _ => pure ())
    (hmay : ∀ sel, Y.may sel select) :
    Weaves (S := S) (δ := δ) selectorPart Y doSelect where
  select rest _ hrest := .call select doSelect (fun _ => ()) rest hselect (hmay _) hrest
  pass fuel _ s hrest := .other (fun _ _ => rfl) nofun (EventLoop.timerPass fuel) hrest s
  flag _ _ := rfl
  sleep := nofun
  fuel := nofun

variable [Zero S]

theorem timers_weaves : Weaves timersPart (anyCalls (S := S) (δ := δ)) doSelect where
  select _ s hrest := .other (fun _ _ => rfl) nofun doSelect hrest s
  pass fuel rest _ hrest := by
    refine .call (.timerProcess fuel) (EventLoop.timerPass fuel) (fun _ => ()) rest ?_ trivial
      hrest
    change (EventLoop.timerProcess fuel >>= fun _ => pure ()) = _
    rw [EventLoop.timerProcess_eq, bind_assoc]
    rfl
  flag _ _ := rfl
  sleep := nofun
  fuel := nofun

/-- The timers within the main loop. -/
theorem timers_projects :
    timersPart.Projects (mainRuns (S := S) (δ := δ) Y doSelect) anyCalls where
  api op s hmay := by
    cases op with
    | timers op => exact .same_call trivial
    | selector op => exact .other_call (fun _ _ => rfl) nofun (Y.api op) s
    | runOnce fuel => exact timers_weaves.runOnce fuel fun _ _ => .ret ..
    | run fuel rounds => exact timers_weaves.run fuel rounds fun _ _ => .ret ..
    | shutdown => exact .get (.put rfl (.ret ..))
  user _ := Iff.rfl
  answer := by
    rintro q s r t ⟨⟨ev, hanswer, rfl⟩, -⟩
    exact hanswer
  other := by
    rintro (q | q | _ | _) s r t hq ⟨hanswer, -⟩
    · exact absurd rfl (hq q)
    · obtain ⟨sel, -, rfl⟩ := hanswer
      rfl
    · obtain rfl := hanswer
      rfl
    · exact nomatch r

/-- The selector within the main loop. -/
theorem selector_projects {select : Op} (hselect : Y.api select = doSelect >>= fun _ => pure ())
    (hmay : ∀ sel, Y.may sel select) :
    selectorPart.Projects (mainRuns (S := S) (δ := δ) Y doSelect) Y where
  api op s hop := by
    cases op with
    | timers op => exact .other_call (fun _ _ => rfl) nofun (TimerCall.code op) s
    | selector op => exact .same_call hop.2
    | runOnce fuel => exact (selector_weaves hselect hmay).runOnce fuel fun _ _ => .ret ..
    | run fuel rounds => exact (selector_weaves hselect hmay).run fuel rounds fun _ _ => .ret ..
    | shutdown => exact .get (.put rfl (.ret ..))
  user _ := Iff.rfl
  answer := by
    rintro q s r t ⟨⟨sel, hanswer, rfl⟩, -⟩
    exact hanswer
  other := by
    rintro (q | q | _ | _) s r t hq ⟨hanswer, -⟩
    · obtain ⟨ev, -, rfl⟩ := hanswer
      rfl
    · exact absurd rfl (hq q)
    · obtain rfl := hanswer
      rfl
    · exact nomatch r

end MainLoop

end TdRevent
