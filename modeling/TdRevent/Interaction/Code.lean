import Mathlib.Logic.Basic
import Mathlib.Tactic.Common

/-!
# Code that hands control to its environment

A piece of library code reads and writes a state. In between it may put a
question to its environment: a system call, a clock reading, a callback of
the user. The rest of the code waits for the answer. A question of an empty
answer type is never answered, so it stands for a panic or for an endless
loop.
-/

namespace Interaction

variable {σ κ α β : Type} {ρ : κ → Type}

/-- Code over the state `σ` whose questions `q : κ` are answered in `ρ q`. -/
inductive Code (σ : Type) {κ : Type} (ρ : κ → Type) (α : Type) : Type
  | ret (a : α)
  | get (next : σ → Code σ ρ α)
  | put (s : σ) (next : Code σ ρ α)
  | ask (q : κ) (next : ρ q → Code σ ρ α)

namespace Code

/-- Run the first code, then the code that its result selects. -/
def bind : Code σ ρ α → (α → Code σ ρ β) → Code σ ρ β
  | ret a, f => f a
  | get next, f => get fun s => (next s).bind f
  | put s next, f => put s (next.bind f)
  | ask q next, f => ask q fun r => (next r).bind f

instance : Monad (Code σ ρ) where
  pure := ret
  bind := bind

instance : LawfulMonad (Code σ ρ) := by
  refine LawfulMonad.mk' (Code σ ρ) (fun c => ?_) (fun _ _ => rfl) (fun c f g => ?_)
  · change c.bind ret = c
    induction c with
    | ret a => rfl
    | get next ih => exact congrArg get (funext ih)
    | put s next ih => exact congrArg (put s) ih
    | ask q next ih => exact congrArg (ask q) (funext ih)
  · change (c.bind f).bind g = c.bind fun a => (f a).bind g
    induction c with
    | ret a => rfl
    | get next ih => exact congrArg get (funext ih)
    | put s next ih => exact congrArg (put s) ih
    | ask q next ih => exact congrArg (ask q) (funext ih)

/-- The current state. -/
def read : Code σ ρ σ := get ret

/-- Replace the state by its image. -/
def modify (f : σ → σ) : Code σ ρ Unit := get fun s => put (f s) (ret ())

/-- Run the code only if the condition holds. -/
def when (p : Prop) [Decidable p] (c : Code σ ρ Unit) : Code σ ρ Unit := if p then c else pure ()

/-- Put one question to the environment. -/
def query (q : κ) : Code σ ρ (ρ q) := ask q ret

end Code

/-- What is agreed about the questions: when the code may put one, and how
the environment answers it and changes the state meanwhile. -/
structure Contract (σ : Type) {κ : Type} (ρ : κ → Type) where
  asks : κ → σ → Prop
  answers : (q : κ) → σ → ρ q → σ → Prop

namespace Code

/-- Total correctness under a contract. Every question of the code is one it
may put, and whatever the answers are, the code returns with `Q`. -/
def wp (C : Contract σ ρ) : Code σ ρ α → (α → σ → Prop) → σ → Prop
  | ret a, Q, s => Q a s
  | get next, Q, s => (next s).wp C Q s
  | put t next, Q, _ => next.wp C Q t
  | ask q next, Q, s =>
      C.asks q s ∧ ∀ r t, C.answers q s r t → (next r).wp C Q t

variable {C : Contract σ ρ} {Q : α → σ → Prop} {s t : σ}

@[simp] theorem wp_pure (a : α) : (pure a : Code σ ρ α).wp C Q s ↔ Q a s := Iff.rfl

@[simp] theorem wp_read {Q : σ → σ → Prop} :
    (read : Code σ ρ σ).wp C Q s ↔ Q s s := Iff.rfl

@[simp] theorem wp_modify (f : σ → σ) {Q : Unit → σ → Prop} :
    (modify f : Code σ ρ Unit).wp C Q s ↔ Q () (f s) := Iff.rfl

@[simp] theorem wp_query (q : κ) {Q : ρ q → σ → Prop} :
    (query q : Code σ ρ (ρ q)).wp C Q s ↔
      C.asks q s ∧ ∀ r t, C.answers q s r t → Q r t := Iff.rfl

theorem wp_bind_iff (c : Code σ ρ α) (f : α → Code σ ρ β) (Q : β → σ → Prop) (s : σ) :
    (c.bind f).wp C Q s ↔ c.wp C (fun a t => (f a).wp C Q t) s := by
  induction c generalizing s with
  | ret a => exact Iff.rfl
  | get next ih => exact ih s s
  | put t next ih => exact ih t
  | ask q next ih =>
      exact and_congr_right fun _ =>
        forall_congr' fun r => forall_congr' fun t => imp_congr_right fun _ => ih r t

@[simp] theorem wp_bind (c : Code σ ρ α) (f : α → Code σ ρ β) (Q : β → σ → Prop) (s : σ) :
    (c >>= f).wp C Q s ↔ c.wp C (fun a t => (f a).wp C Q t) s :=
  wp_bind_iff c f Q s

/-- A weaker result is ensured wherever a stronger one is. -/
theorem wp_mono {Q' : α → σ → Prop} (c : Code σ ρ α) (h : ∀ a t, Q a t → Q' a t) :
    c.wp C Q s → c.wp C Q' s := by
  induction c generalizing s with
  | ret a => exact h a s
  | get next ih => exact ih s
  | put t next ih => exact ih
  | ask q next ih => exact fun hw => ⟨hw.1, fun r t ht => ih r (hw.2 r t ht)⟩

/-- One finished execution from `s`, its questions answered by `ans`, with
the result `a` in the state `t`. -/
def Exec (ans : (q : κ) → σ → ρ q → σ → Prop) : Code σ ρ α → σ → α → σ → Prop
  | ret a, s, b, t => b = a ∧ t = s
  | get next, s, b, t => (next s).Exec ans s b t
  | put u next, _, b, t => next.Exec ans u b t
  | ask q next, s, b, t => ∃ r u, ans q s r u ∧ (next r).Exec ans u b t

variable {ans : (q : κ) → σ → ρ q → σ → Prop}

@[simp] theorem exec_pure (a b : α) :
    (pure a : Code σ ρ α).Exec ans s b t ↔ b = a ∧ t = s := Iff.rfl

@[simp] theorem exec_read (b : σ) :
    (read : Code σ ρ σ).Exec ans s b t ↔ b = s ∧ t = s := Iff.rfl

@[simp] theorem exec_modify (f : σ → σ) (b : Unit) :
    (modify f : Code σ ρ Unit).Exec ans s b t ↔ t = f s := by
  cases b
  exact ⟨fun h => h.2, fun h => ⟨rfl, h⟩⟩

@[simp] theorem exec_query (q : κ) (b : ρ q) :
    (query q : Code σ ρ (ρ q)).Exec ans s b t ↔ ans q s b t := by
  constructor
  · rintro ⟨r, u, h, rfl, rfl⟩
    exact h
  · intro h
    exact ⟨b, t, h, rfl, rfl⟩

@[simp] theorem exec_bind (c : Code σ ρ α) (f : α → Code σ ρ β) (b : β) :
    (c >>= f).Exec ans s b t ↔ ∃ a u, c.Exec ans s a u ∧ (f a).Exec ans u b t := by
  change (c.bind f).Exec ans s b t ↔ _
  induction c generalizing s with
  | ret a =>
      constructor
      · exact fun h => ⟨a, s, ⟨rfl, rfl⟩, h⟩
      · rintro ⟨_, _, ⟨rfl, rfl⟩, h⟩
        exact h
  | get next ih => exact ih s
  | put u next ih => exact ih
  | ask q next ih =>
      constructor
      · rintro ⟨r, u, hr, h⟩
        obtain ⟨a, v, hv, h⟩ := (ih r).mp h
        exact ⟨a, v, ⟨r, u, hr, hv⟩, h⟩
      · rintro ⟨a, v, ⟨r, u, hr, hv⟩, h⟩
        exact ⟨r, u, hr, (ih r).mpr ⟨a, v, hv, h⟩⟩

theorem exec_read_then (f : σ → Code σ ρ β) (b : β) :
    (read >>= f).Exec ans s b t ↔ (f s).Exec ans s b t := Iff.rfl

theorem exec_modify_then (g : σ → σ) (f : Unit → Code σ ρ β) (b : β) :
    (modify g >>= f).Exec ans s b t ↔ (f ()).Exec ans (g s) b t := Iff.rfl

theorem exec_query_then (q : κ) (f : ρ q → Code σ ρ β) (b : β) :
    (query q >>= f).Exec ans s b t ↔ ∃ r u, ans q s r u ∧ (f r).Exec ans u b t := Iff.rfl

/-- What `wp` ensures holds at the end of every finished execution. -/
theorem wp_exec (c : Code σ ρ α) {a : α} (hw : c.wp C Q s)
    (he : c.Exec C.answers s a t) : Q a t := by
  induction c generalizing s with
  | ret b =>
      obtain ⟨rfl, rfl⟩ := he
      exact hw
  | get next ih => exact ih s hw he
  | put u next ih => exact ih hw he
  | ask q next ih =>
      obtain ⟨r, u, hr, he⟩ := he
      exact ih r (hw.2 r u hr) he

end Code

end Interaction
