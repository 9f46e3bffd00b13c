import TdRevent.Interaction.Code
import Mathlib.Algebra.BigOperators.Group.List.Basic
import Mathlib.Tactic.Abel

/-!
# Interleaved code and what it owns

Several tasks work on one shared state. Each puts its questions one at a time, and a
question is answered in one step, so the tasks are interleaved at their questions. A task
owns a part of a resource. It may borrow another part, which stays with its owner. The
shared state agrees with all that is owned.

The rule below has one premise for each operation. Its questions are put where their guard
holds, whatever the others own, and it ends owning what it gives back.
-/

namespace Interaction

variable {σ κ M α β : Type} {ρ : κ → Type}

/-- A shared state: how it answers, what has to hold where a question is put, what the
state says of all that is owned, and what may be owned outside the tasks. -/
structure Shared (σ : Type) {κ : Type} (ρ : κ → Type) (M : Type) [Add M] where
  answer : (q : κ) → σ → ρ q → σ → Prop
  guard : κ → σ → Prop
  inv : σ → M → Prop
  outside : M → Prop
  outside_add : ∀ m m', outside (m + m') ↔ outside m ∧ outside m'

namespace Code

/-- The result of code, or its next question. -/
def head : Code Unit ρ α → α ⊕ (q : κ) × (ρ q → Code Unit ρ α)
  | ret a => .inl a
  | get next => (next ()).head
  | put _ next => next.head
  | ask q next => .inr ⟨q, next⟩

variable [AddCommMonoid M] {X : Shared σ ρ M} {borrowed : M} {Q : α → M → Prop}

/-- The code owns a resource, and ends owning one with `Q`. The others own what is borrowed,
and anything else. -/
def Owns (X : Shared σ ρ M) (borrowed : M) (Q : α → M → Prop) : Code Unit ρ α → M → Prop
  | ret a, m => Q a m
  | get next, m => (next ()).Owns X borrowed Q m
  | put _ next, m => next.Owns X borrowed Q m
  | ask q next, m => ∀ s rest, X.inv s (m + (borrowed + rest)) → X.guard q s ∧
      ∀ r t, X.answer q s r t →
        ∃ m', X.inv t (m' + (borrowed + rest)) ∧ (next r).Owns X borrowed Q m'

theorem Owns.mono {Q' : α → M → Prop} {c : Code Unit ρ α} {m : M} (h : c.Owns X borrowed Q m)
    (himp : ∀ a m, Q a m → Q' a m) : c.Owns X borrowed Q' m := by
  induction c generalizing m with
  | ret a => exact himp a m h
  | get next ih => exact ih () h
  | put _ next ih => exact ih h
  | ask q next ih =>
      intro s rest hs
      obtain ⟨hguard, hnext⟩ := h s rest hs
      refine ⟨hguard, fun r t hr => ?_⟩
      obtain ⟨m', ht, hm'⟩ := hnext r t hr
      exact ⟨m', ht, ih r hm'⟩

theorem Owns.bind {Q : β → M → Prop} {c : Code Unit ρ α} {f : α → Code Unit ρ β} {m : M}
    (h : c.Owns X borrowed (fun a => (f a).Owns X borrowed Q) m) :
    (c >>= f).Owns X borrowed Q m := by
  change (c.bind f).Owns X borrowed Q m
  induction c generalizing m with
  | ret a => exact h
  | get next ih => exact ih () h
  | put _ next ih => exact ih h
  | ask q next ih =>
      intro s rest hs
      obtain ⟨hguard, hnext⟩ := h s rest hs
      refine ⟨hguard, fun r t hr => ?_⟩
      obtain ⟨m', ht, hm'⟩ := hnext r t hr
      exact ⟨m', ht, ih r hm'⟩

/-- One question. -/
theorem Owns.query {q : κ} {Q : ρ q → M → Prop} {m : M}
    (h : ∀ s rest, X.inv s (m + (borrowed + rest)) → X.guard q s ∧
      ∀ r t, X.answer q s r t → ∃ m', X.inv t (m' + (borrowed + rest)) ∧ Q r m') :
    (Code.query q : Code Unit ρ (ρ q)).Owns X borrowed Q m := h

theorem Owns.of_head {c : Code Unit ρ α} {m : M} (h : c.Owns X borrowed Q m) :
    (∀ a, c.head = .inl a → Q a m) ∧
      ∀ q next, c.head = .inr ⟨q, next⟩ → (ask q next).Owns X borrowed Q m := by
  induction c with
  | ret a =>
      refine ⟨fun b hb => ?_, nofun⟩
      obtain rfl := Sum.inl.inj hb
      exact h
  | get next ih => exact ih () h
  | put _ next ih => exact ih h
  | ask q next _ =>
      refine ⟨nofun, fun q' next' hq => ?_⟩
      obtain ⟨rfl, hnext⟩ := Sigma.mk.inj (Sum.inr.inj hq)
      obtain rfl := eq_of_heq hnext
      exact h

end Code

/-- An operation: what it takes over, what it borrows, and code that ends with what it
gives back. -/
structure Operation {κ : Type} (ρ : κ → Type) (M : Type) where
  takes : M
  borrows : M
  code : Code Unit ρ M

/-- Code that is running, and what it borrows. -/
structure Task {κ : Type} (ρ : κ → Type) (M : Type) where
  borrowed : M
  code : Code Unit ρ M

/-- The operation ends owning what it gives back. -/
def Operation.Sound [AddCommMonoid M] (X : Shared σ ρ M) (op : Operation ρ M) : Prop :=
  op.code.Owns X op.borrows (fun a m => m = a ∧ X.outside a) op.takes

/-- The shared state, what is owned outside the tasks, and the tasks. -/
structure Pool (σ : Type) {κ : Type} (ρ : κ → Type) (M : Type) where
  state : σ
  idle : M
  tasks : List (Task ρ M)

namespace Pool

variable [AddCommMonoid M]

/-- What the tasks borrow has an owner. -/
def Lent (idle : M) (tasks : List (Task ρ M)) : Prop :=
  ∀ task ∈ tasks, ∃ rest, idle = task.borrowed + rest

/-- An operation is called, a question is answered, or a task ends. What is lent may not be
taken over. -/
inductive Step (X : Shared σ ρ M) (may : Operation ρ M → Prop) : Pool σ ρ M → Pool σ ρ M → Prop
  | call {s idle tasks} (op : Operation ρ M) (hop : may op)
      (hlent : Lent idle (⟨op.borrows, op.code⟩ :: tasks)) :
      Step X may ⟨s, op.takes + idle, tasks⟩ ⟨s, idle, ⟨op.borrows, op.code⟩ :: tasks⟩
  | answer {s t idle pre post borrowed code q next} (r : ρ q)
      (hcode : code.head = .inr ⟨q, next⟩) (hanswer : X.answer q s r t) :
      Step X may ⟨s, idle, pre ++ ⟨borrowed, code⟩ :: post⟩
        ⟨t, idle, pre ++ ⟨borrowed, next r⟩ :: post⟩
  | finish {s idle pre post borrowed code m} (hcode : code.head = .inl m) :
      Step X may ⟨s, idle, pre ++ ⟨borrowed, code⟩ :: post⟩ ⟨s, m + idle, pre ++ post⟩

section

variable {X : Shared σ ρ M} {may : Operation ρ M → Prop} {s t : σ} {idle borrowed : M}
  {code : Code Unit ρ M}

/-- The only task goes on. -/
theorem Step.answer_only {q : κ} {next : ρ q → Code Unit ρ M} (r : ρ q)
    (hcode : code.head = .inr ⟨q, next⟩) (hanswer : X.answer q s r t) :
    Step X may ⟨s, idle, [⟨borrowed, code⟩]⟩ ⟨t, idle, [⟨borrowed, next r⟩]⟩ :=
  @Step.answer σ κ M ρ _ X may s t idle [] [] borrowed code q next r hcode hanswer

/-- The only task ends. -/
theorem Step.finish_only {m : M} (hcode : code.head = .inl m) :
    Step X may ⟨s, idle, [⟨borrowed, code⟩]⟩ ⟨s, m + idle, []⟩ :=
  @Step.finish σ κ M ρ _ X may s idle [] [] borrowed code m hcode

end

/-- A run of calls and tasks. -/
abbrev Reaches (X : Shared σ ρ M) (may : Operation ρ M → Prop) :
    Pool σ ρ M → Pool σ ρ M → Prop := Relation.ReflTransGen (Step X may)

/-- What a task owns. -/
def Holds (X : Shared σ ρ M) (task : Task ρ M) (m : M) : Prop :=
  task.code.Owns X task.borrowed (fun a m => m = a ∧ X.outside a) m

/-- The tasks own parts of a resource, and the state agrees with all that is owned. -/
structure Owned (X : Shared σ ρ M) (pool : Pool σ ρ M) (ms : List M) : Prop where
  tasks : List.Forall₂ (Holds X) pool.tasks ms
  outside : X.outside pool.idle
  lent : Lent pool.idle pool.tasks
  inv : X.inv pool.state (ms.sum + pool.idle)

variable {X : Shared σ ρ M} {may : Operation ρ M → Prop} {pool pool' : Pool σ ρ M} {ms : List M}

theorem Owned.split (h : Owned X pool ms) {pre post : List (Task ρ M)} {borrowed : M}
    {code : Code Unit ρ M} (htasks : pool.tasks = pre ++ ⟨borrowed, code⟩ :: post) :
    ∃ ms₁ m ms₂ rest, ms = ms₁ ++ m :: ms₂ ∧ List.Forall₂ (Holds X) pre ms₁ ∧
      code.Owns X borrowed (fun a m => m = a ∧ X.outside a) m ∧
      List.Forall₂ (Holds X) post ms₂ ∧ pool.idle = borrowed + rest ∧
      ∀ m', (ms₁ ++ m' :: ms₂).sum + pool.idle =
        m' + (borrowed + (ms₁.sum + ms₂.sum + rest)) := by
  obtain ⟨rest, hidle⟩ := h.lent ⟨borrowed, code⟩ (htasks ▸ by simp)
  have hall := (htasks ▸ h.tasks).flip
  have hpre := (List.forall₂_take_append ms pre _ hall).flip
  have hrest := (List.forall₂_drop_append ms pre _ hall).flip
  obtain ⟨m, ms₂, hcode, hpost, hdrop⟩ := List.forall₂_cons_left_iff.mp hrest
  refine ⟨_, m, ms₂, rest, ?_, hpre, hcode, hpost, hidle, fun m' => ?_⟩
  · rw [← hdrop, List.take_append_drop]
  · rw [hidle, List.sum_append, List.sum_cons]
    abel

/-- One step of one task, or of those who call. -/
theorem Owned.step (hmay : ∀ op, may op → op.Sound X)
    (h : Owned X pool ms) (hstep : Step X may pool pool') : ∃ ms', Owned X pool' ms' := by
  cases hstep with
  | @call s idle tasks op hop hlent =>
      refine ⟨op.takes :: ms, .cons (hmay op hop) h.tasks, ((X.outside_add _ _).mp h.outside).2,
        hlent, ?_⟩
      have hinv := h.inv
      rwa [List.sum_cons, add_assoc, add_left_comm]
  | @answer s t idle pre post borrowed code q next r hcode hanswer =>
      obtain ⟨ms₁, m, ms₂, rest, rfl, hpre, hm, hpost, hidle, hsum⟩ := h.split rfl
      obtain ⟨-, hnext⟩ := (hm.of_head.2 q next hcode) s _ (hsum m ▸ h.inv)
      obtain ⟨m', hinv, hm'⟩ := hnext r t hanswer
      refine ⟨ms₁ ++ m' :: ms₂, ?_, h.outside, ?_, (hsum m').symm ▸ hinv⟩
      · exact List.rel_append hpre (.cons hm' hpost)
      · intro task htask
        rcases List.mem_append.mp htask with htask | htask
        · exact h.lent task (List.mem_append_left _ htask)
        · rcases List.mem_cons.mp htask with rfl | htask
          · exact ⟨rest, hidle⟩
          · exact h.lent task (List.mem_append_right _ (List.mem_cons_of_mem _ htask))
  | @finish s idle pre post borrowed code m hcode =>
      obtain ⟨ms₁, m', ms₂, rest, rfl, hpre, hm, hpost, hidle, hsum⟩ := h.split rfl
      obtain ⟨rfl, houtside⟩ := hm.of_head.1 m hcode
      refine ⟨ms₁ ++ ms₂, List.rel_append hpre hpost,
        (X.outside_add _ _).mpr ⟨houtside, h.outside⟩, fun task htask => ?_, ?_⟩
      · have hmem : task ∈ pre ++ ⟨borrowed, code⟩ :: post := by
          rcases List.mem_append.mp htask with htask | htask
          · exact List.mem_append_left _ htask
          · exact List.mem_append_right _ (List.mem_cons_of_mem _ htask)
        obtain ⟨rest', hrest'⟩ := h.lent task hmem
        exact ⟨m' + rest', (congrArg (m' + ·) hrest').trans (add_left_comm ..)⟩
      · have hinv := h.inv
        simp only [List.sum_append, List.sum_cons] at hinv ⊢
        convert hinv using 1
        abel

/-- The rule for runs. -/
theorem Owned.reaches (hmay : ∀ op, may op → op.Sound X)
    (h : Owned X pool ms) (hreach : Reaches X may pool pool') : ∃ ms', Owned X pool' ms' := by
  induction hreach with
  | refl => exact ⟨ms, h⟩
  | tail _ hstep ih =>
      obtain ⟨ms', h'⟩ := ih
      exact h'.step hmay hstep

/-- Every question of a task is put where its guard holds. -/
theorem Owned.guard (h : Owned X pool ms) {task : Task ρ M} (htask : task ∈ pool.tasks) {q : κ}
    {next : ρ q → Code Unit ρ M} (hcode : task.code.head = .inr ⟨q, next⟩) :
    X.guard q pool.state := by
  obtain ⟨pre, post, htasks⟩ := List.append_of_mem htask
  obtain ⟨ms₁, m, ms₂, rest, rfl, -, hm, -, -, hsum⟩ := h.split htasks
  exact ((hm.of_head.2 q next hcode) _ _ (hsum m ▸ h.inv)).1

end Pool

end Interaction
