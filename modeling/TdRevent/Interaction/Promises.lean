import TdRevent.Interaction.System

/-!
# Promises that handlers suspend

A library may promise many things of its state at once. A handler breaks some of them
while it runs, calls the user, and keeps them again at its end. Whenever user code runs,
each promise is kept that no waiting handler is at work on.

## Implementation notes

Unlike an invariant, a promise need not hold when a call starts: the call may come from a
callback of the handler that broke it. What a call owes is that each promise that was
kept at its start is kept at its end.
-/

namespace Interaction

variable {σ κ β γ ε ι Op : Type} {ρ : κ → Type}

/-- The promises, the invariant they rest on, and what a handler that waits with a question
is at work on. -/
structure Promises (σ : Type) (κ : Type) (ι : Type) where
  inv : σ → Prop
  kept : ι → σ → Prop
  busy : κ → ι → Prop

namespace Promises

variable (P : Promises σ κ ι) (S : System σ ρ Op β)

/-- The promises that were kept at `i` are kept, apart from the exceptions. -/
structure Holds (i : σ) (except : ι → Prop) (s : σ) : Prop where
  inv : P.inv s
  kept : ∀ x, P.kept x i → ¬ except x → P.kept x s

/-- There is no exception. -/
abbrev HoldsAll (i : σ) : σ → Prop := P.Holds i fun _ => False

/-- The contract of code that was called in `i`. -/
def contract (i : σ) : Contract σ ρ where
  asks q s := S.user q → P.Holds i (P.busy q) s
  answers q s r t :=
    (¬ S.user q ∧ S.answer q s r t) ∨ (S.user q ∧ ∃ u, P.HoldsAll s u ∧ S.answer q u r t)

/-- The code that was called in `i` suspends promises at its questions only, and ends
with `Q`. -/
def Safe (i : σ) (c : Code σ ρ γ) (Q : γ → σ → Prop) (s : σ) : Prop := c.wp (P.contract S i) Q s

/-- Every operation keeps the promises. -/
def Keeps : Prop :=
  ∀ op s, S.may s op → P.inv s → P.Safe S s (S.api op) (fun _ => P.HoldsAll s) s

/-- User code runs in the state, each open question below it waits with code that keeps the
promises, and outside of all calls they are kept. -/
inductive Waits : σ → List (Frame σ ρ β) → Prop
  | nil {s} (hinv : P.inv s) (hkept : ∀ x, P.kept x s) : Waits s []
  | cons {s i a q next stack} (huser : S.user q) (hask : P.Holds i (P.busy q) a)
      (hsince : P.HoldsAll a s)
      (hnext : ∀ r t, (P.contract S i).answers q a r t →
        P.Safe S i (next r) (fun _ => P.HoldsAll i) t)
      (below : Waits i stack) : Waits s (⟨q, next⟩ :: stack)

/-- The configurations that occur. -/
inductive Fine : Config σ ρ β → Prop
  | waits {s stack} (h : P.Waits S s stack) : Fine ⟨s, stack⟩
  | asks {s i q next stack} (huser : ¬ S.user q)
      (hnext : ∀ r t, (P.contract S i).answers q s r t →
        P.Safe S i (next r) (fun _ => P.HoldsAll i) t)
      (below : P.Waits S i stack) : Fine ⟨s, ⟨q, next⟩ :: stack⟩

variable {P S} {i s t u : σ} {except : ι → Prop}

theorem HoldsAll.refl (h : P.inv s) : P.HoldsAll s s := ⟨h, fun _ hx _ => hx⟩

theorem Holds.mono {except' : ι → Prop} (h : P.Holds i except s)
    (himp : ∀ x, except x → except' x ∨ P.kept x s) : P.Holds i except' s := by
  refine ⟨h.inv, fun x hx hnot => ?_⟩
  by_cases hexcept : except x
  · exact (himp x hexcept).resolve_left hnot
  · exact h.kept x hx hexcept

theorem Holds.trans (h : P.Holds i except s) (h' : P.HoldsAll s t) : P.Holds i except t :=
  ⟨h'.inv, fun x hx hnot => h'.kept x (h.kept x hx hnot) id⟩

namespace Waits

theorem inv {stack : List (Frame σ ρ β)} (h : P.Waits S s stack) : P.inv s := by
  cases h with
  | nil hinv => exact hinv
  | cons _ _ hsince => exact hsince.inv

/-- The code below does not notice a change that keeps the promises. -/
theorem move {stack : List (Frame σ ρ β)} (h : P.Waits S s stack) (hst : P.HoldsAll s t) :
    P.Waits S t stack := by
  cases h with
  | nil _ hkept => exact .nil hst.inv fun x => hst.kept x (hkept x) id
  | cons huser hask hsince hnext below => exact .cons huser hask (hsince.trans hst) hnext below

/-- A promise that no waiting handler is at work on is kept. -/
theorem kept {stack : List (Frame σ ρ β)} (h : P.Waits S s stack) {x : ι}
    (hidle : ∀ f ∈ stack, ¬ P.busy f.question x) : P.kept x s := by
  induction h with
  | nil _ hkept => exact hkept x
  | cons _ hask hsince _ _ ih =>
      obtain ⟨hfirst, hrest⟩ := List.forall_mem_cons.mp hidle
      exact hsince.kept x (hask.kept x (ih hrest) hfirst) id

end Waits

theorem start_fine (c : Code σ ρ β) {stack : List (Frame σ ρ β)}
    (hc : P.Safe S i c (fun _ => P.HoldsAll i) s) (below : P.Waits S i stack) :
    P.Fine S (c.start s stack) := by
  induction c generalizing s with
  | ret a => exact .waits (below.move hc)
  | get next ih => exact ih s hc
  | put t next ih => exact ih hc
  | ask q next _ =>
      by_cases huser : S.user q
      · have hask := hc.1 huser
        exact .waits (.cons huser hask (.refl hask.inv) hc.2 below)
      · exact .asks huser hc.2 below

theorem step_fine (keeps : P.Keeps S) {c d : Config σ ρ β} {m : Move ρ Op}
    (hc : P.Fine S c) (hstep : S.Step c m d) : P.Fine S d := by
  cases hstep with
  | call op hopen hmay =>
      cases hc with
      | waits h => exact start_fine _ (keeps op _ hmay h.inv) h
      | asks huser _ _ => exact absurd hopen huser
  | answer r hanswer =>
      cases hc with
      | waits h =>
          cases h with
          | cons huser _ hsince hnext below =>
              exact start_fine _ (hnext r _ (Or.inr ⟨huser, _, hsince, hanswer⟩)) below
      | asks huser hnext below =>
          exact start_fine _ (hnext r _ (Or.inl ⟨huser, hanswer⟩)) below

/-- The rule: whenever user code runs, a promise that no waiting handler is at work on is
kept. -/
theorem reaches_kept (keeps : P.Keeps S) {c : Config σ ρ β} (hreach : S.Reaches s c)
    (hinv : P.inv s) (hkept : ∀ x, P.kept x s) (hopen : S.Open c.stack) {x : ι}
    (hidle : ∀ f ∈ c.stack, ¬ P.busy f.question x) : P.kept x c.state := by
  have hrun_fine : ∀ {c d : Config σ ρ β} {ms}, S.Run c ms d → P.Fine S c → P.Fine S d := by
    intro c d ms hrun
    induction hrun with
    | nil c => exact id
    | cons hstep _ ih => exact fun hc => ih (step_fine keeps hc hstep)
  obtain ⟨ms, hrun⟩ := hreach
  cases hrun_fine hrun (.waits (.nil hinv hkept)) with
  | waits h => exact h.kept hidle
  | asks huser _ _ => exact absurd hopen huser

/-! ## Safe code -/

namespace Safe

theorem pure {a : γ} {Q : γ → σ → Prop} (h : Q a s) : P.Safe S i (Pure.pure a) Q s := h

theorem modify {f : σ → σ} {Q : Unit → σ → Prop} (h : Q () (f s)) :
    P.Safe S i (.modify f) Q s := h

theorem mono {c : Code σ ρ γ} {Q Q' : γ → σ → Prop} (h : P.Safe S i c Q s)
    (himp : ∀ a t, Q a t → Q' a t) : P.Safe S i c Q' s := Code.wp_mono c himp h

theorem bind {c : Code σ ρ γ} {f : γ → Code σ ρ ε} {Q : ε → σ → Prop}
    (h : P.Safe S i c (fun a t => P.Safe S i (f a) Q t) s) : P.Safe S i (c >>= f) Q s :=
  (Code.wp_bind c f _ s).mpr h

theorem read_then {f : σ → Code σ ρ γ} {Q : γ → σ → Prop} (h : P.Safe S i (f s) Q s) :
    P.Safe S i (.read >>= f) Q s := h

theorem when {p : Prop} [Decidable p] {c : Code σ ρ Unit} {Q : Unit → σ → Prop}
    (h : p → P.Safe S i c Q s) (hnot : ¬ p → Q () s) : P.Safe S i (.when p c) Q s := by
  unfold Code.when
  split
  · exact h ‹p›
  · exact hnot ‹¬ p›

/-- A question that is answered at once. -/
theorem ask {q : κ} {Q : ρ q → σ → Prop} (huser : ¬ S.user q)
    (h : ∀ r t, S.answer q s r t → Q r t) : P.Safe S i (.query q) Q s := by
  refine ⟨fun hu => absurd hu huser, fun r t ht => ?_⟩
  rcases ht with ⟨-, ht⟩ | ⟨hu, -⟩
  · exact h r t ht
  · exact absurd hu huser

/-- A question without answers ends the run. -/
theorem stop {q : κ} {next : ρ q → Code σ ρ γ} {Q : γ → σ → Prop} (hempty : ρ q → False)
    (huser : ¬ S.user q) : P.Safe S i (.ask q next) Q s :=
  ⟨fun hu => absurd hu huser, fun r => (hempty r).elim⟩

/-- A callback: other calls happen before it returns, and keep the promises. -/
theorem call {q : κ} {Q : ρ q → σ → Prop} (huser : S.user q) (hask : P.Holds i (P.busy q) s)
    (h : ∀ u r t, P.HoldsAll s u → S.answer q u r t → Q r t) :
    P.Safe S i (.query q) Q s := by
  refine ⟨fun _ => hask, fun r t ht => ?_⟩
  rcases ht with ⟨hu, -⟩ | ⟨-, u, hu, ht⟩
  · exact absurd huser hu
  · exact h u r t hu ht

end Safe

end Promises

end Interaction
