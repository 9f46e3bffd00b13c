import Mathlib.Tactic.Common

/-!
# Systems that respond to inputs

A system takes inputs one by one and puts out a list for each. Between two inputs
its state may change in ways that concern nobody. If its steps stay in step with
a deterministic machine, then what it puts out for a list of inputs is what the
machine puts out.
-/

namespace Interaction

variable {σ τ ι ο : Type}

/-- A deterministic machine. -/
structure Machine (τ ι ο : Type) where
  next : τ → ι → τ
  out : τ → ι → List ο

/-- What the machine puts out for the inputs. -/
def Machine.outputs (m : Machine τ ι ο) : τ → List ι → List ο
  | _, [] => []
  | q, i :: is => m.out q i ++ m.outputs (m.next q i) is

/-- The state of the machine after the inputs. -/
def Machine.final (m : Machine τ ι ο) : τ → List ι → τ
  | q, [] => q
  | q, i :: is => m.final (m.next q i) is

/-- The system takes the inputs and puts out the list. -/
inductive Responds (step : σ → ι → List ο → σ → Prop) (idle : σ → σ → Prop) :
    σ → List ι → List ο → σ → Prop
  | nil (s) : Responds step idle s [] [] s
  | idle {s t u is os} (h : idle s t) (rest : Responds step idle t is os u) :
      Responds step idle s is os u
  | input {s t u i is os os'} (h : step s i os t) (rest : Responds step idle t is os' u) :
      Responds step idle s (i :: is) (os ++ os') u

/-- A relation that the steps of the system keep, with the outputs of the machine. -/
structure Machine.Simulates (m : Machine τ ι ο) (step : σ → ι → List ο → σ → Prop)
    (idle : σ → σ → Prop) (rel : τ → σ → Prop) : Prop where
  step : ∀ {q s i os t}, rel q s → step s i os t → os = m.out q i ∧ rel (m.next q i) t
  idle : ∀ {q s t}, rel q s → idle s t → rel q t

/-- A simulated system puts out what the machine does. -/
theorem Machine.Simulates.responds {m : Machine τ ι ο} {step : σ → ι → List ο → σ → Prop}
    {idle : σ → σ → Prop} {rel : τ → σ → Prop} (h : m.Simulates step idle rel) {q : τ} {s t : σ}
    {is : List ι} {os : List ο} (hrel : rel q s) (hrun : Responds step idle s is os t) :
    os = m.outputs q is ∧ rel (m.final q is) t := by
  induction hrun generalizing q with
  | nil s => exact ⟨rfl, hrel⟩
  | idle hidle _ ih => exact ih (h.idle hrel hidle)
  | input hstep _ ih =>
      obtain ⟨rfl, hnext⟩ := h.step hrel hstep
      obtain ⟨rfl, hfinal⟩ := ih hnext
      exact ⟨rfl, hfinal⟩

end Interaction
