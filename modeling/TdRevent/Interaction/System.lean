import TdRevent.Interaction.Code

/-!
# Runs of a library with re-entrant callbacks

The environment calls the operations of the library. While a question to the
user is open (a callback is running), it may call further operations before
it answers, and these may open further questions. Every other question is
answered before anything else happens.

The invariant rule below has one premise for each operation: started in a
state of the invariant, the operation re-establishes it before each question
to the user and at its end, assuming that the calls made in between keep it.
-/

namespace Interaction

variable {σ κ β γ ε Op : Type} {ρ : κ → Type}

/-- An open question and the code that waits for its answer. -/
structure Frame (σ : Type) {κ : Type} (ρ : κ → Type) (β : Type) where
  question : κ
  resume : ρ question → Code σ ρ β

/-- The state and the open questions, the latest first. -/
structure Config (σ : Type) {κ : Type} (ρ : κ → Type) (β : Type) where
  state : σ
  stack : List (Frame σ ρ β)

/-- Run code up to its end or to its next question. -/
def Code.start : Code σ ρ β → σ → List (Frame σ ρ β) → Config σ ρ β
  | .ret _, s, stack => ⟨s, stack⟩
  | .get next, s, stack => (next s).start s stack
  | .put t next, _, stack => next.start t stack
  | .ask q next, s, stack => ⟨s, ⟨q, next⟩ :: stack⟩

/-- What code establishes before its first question is put. -/
theorem Code.start_state {P : σ → Prop} (c : Code σ ρ β) {s : σ} (stack : List (Frame σ ρ β))
    (h : c.wp ⟨fun _ => P, fun _ _ _ _ => False⟩ (fun _ => P) s) : P (c.start s stack).state := by
  induction c generalizing s with
  | ret a => exact h
  | get next ih => exact ih s h
  | put t next ih => exact ih h
  | ask q next ih => exact h.1

/-- A move of the environment. -/
inductive Move {κ : Type} (ρ : κ → Type) (Op : Type)
  | call (op : Op)
  | answer (q : κ) (r : ρ q)

/-- A condition on the calls, as one on the moves. -/
def Move.onCalls (ok : σ → Op → Prop) : σ → Move ρ Op → Prop
  | s, .call op => ok s op
  | _, .answer _ _ => True

/-- The library with its environment: the operations, the questions that are
callbacks of the user, the possible answers, and the calls that may happen. -/
structure System (σ : Type) {κ : Type} (ρ : κ → Type) (Op β : Type) where
  api : Op → Code σ ρ β
  user : κ → Prop
  answer : (q : κ) → σ → ρ q → σ → Prop
  may : σ → Op → Prop

namespace System

variable (S : System σ ρ Op β)

/-- The user's code is running: outside the library or in a callback. -/
def Open : List (Frame σ ρ β) → Prop
  | [] => True
  | f :: _ => S.user f.question

@[simp] theorem open_nil : S.Open ([] : List (Frame σ ρ β)) := trivial

@[simp] theorem open_cons (f : Frame σ ρ β) (stack : List (Frame σ ρ β)) :
    S.Open (f :: stack) ↔ S.user f.question := Iff.rfl

/-- One move of the environment, and what the library does up to the next. -/
inductive Step : Config σ ρ β → Move ρ Op → Config σ ρ β → Prop
  | call {s stack} (op : Op) (hopen : S.Open stack) (hmay : S.may s op) :
      Step ⟨s, stack⟩ (.call op) ((S.api op).start s stack)
  | answer {s t q next stack} (r : ρ q) (hanswer : S.answer q s r t) :
      Step ⟨s, ⟨q, next⟩ :: stack⟩ (.answer q r) ((next r).start t stack)

/-- A finite run and the moves it is made of. -/
inductive Run : Config σ ρ β → List (Move ρ Op) → Config σ ρ β → Prop
  | nil (c) : Run c [] c
  | cons {c d e m ms} (hstep : S.Step c m d) (tail : Run d ms e) : Run c (m :: ms) e

/-- Some run from the state `s`, outside the library, ends in the configuration. -/
def Reaches (s : σ) (c : Config σ ρ β) : Prop := ∃ ms, S.Run ⟨s, []⟩ ms c

/-- The same library with an environment that makes only some of the moves.
The condition on a move is about the state before it. -/
def restrict (ok : σ → Move ρ Op → Prop) : System σ ρ Op β :=
  { S with
    may := fun s op => S.may s op ∧ ok s (.call op)
    answer := fun q s r t => S.answer q s r t ∧ ok s (.answer q r) }

variable {S}

theorem Run.append {c d e : Config σ ρ β} {ms ns : List (Move ρ Op)}
    (h : S.Run c ms d) (h' : S.Run d ns e) : S.Run c (ms ++ ns) e := by
  induction h with
  | nil c => exact h'
  | cons hstep _ ih => exact .cons hstep (ih h')

theorem Reaches.refl (s : σ) : S.Reaches s ⟨s, []⟩ := ⟨[], .nil _⟩

theorem Reaches.step {s : σ} {c d : Config σ ρ β} {m : Move ρ Op} (h : S.Reaches s c)
    (hstep : S.Step c m d) : S.Reaches s d := by
  obtain ⟨ms, hrun⟩ := h
  exact ⟨ms ++ [m], hrun.append (.cons hstep (.nil d))⟩

theorem Reaches.call {s t : σ} {stack : List (Frame σ ρ β)} (h : S.Reaches s ⟨t, stack⟩)
    (op : Op) (hopen : S.Open stack) (hmay : S.may t op) :
    S.Reaches s ((S.api op).start t stack) :=
  h.step (.call op hopen hmay)

theorem Reaches.answer {s t u : σ} {q : κ} {next : ρ q → Code σ ρ β}
    {stack : List (Frame σ ρ β)} (h : S.Reaches s ⟨t, ⟨q, next⟩ :: stack⟩) (r : ρ q)
    (hanswer : S.answer q t r u) : S.Reaches s ((next r).start u stack) :=
  h.step (.answer r hanswer)

/-- Fewer moves are allowed under a stronger condition. -/
theorem Step.weaken {ok ok' : σ → Move ρ Op → Prop} {c d : Config σ ρ β} {m : Move ρ Op}
    (himp : ∀ s m, ok s m → ok' s m) (h : (S.restrict ok).Step c m d) :
    (S.restrict ok').Step c m d := by
  cases h with
  | call op hopen hmay => exact .call op hopen ⟨hmay.1, himp _ _ hmay.2⟩
  | answer r hanswer => exact .answer r ⟨hanswer.1, himp _ _ hanswer.2⟩

theorem Run.weaken {ok ok' : σ → Move ρ Op → Prop} {c d : Config σ ρ β} {ms : List (Move ρ Op)}
    (himp : ∀ s m, ok s m → ok' s m) (h : (S.restrict ok).Run c ms d) :
    (S.restrict ok').Run c ms d := by
  induction h with
  | nil c => exact .nil c
  | cons hstep _ ih => exact .cons (hstep.weaken himp) ih

/-- A run of moves that are allowed is a run of the restricted library. -/
theorem Run.restrict {ok : σ → Move ρ Op → Prop} {c d : Config σ ρ β} {ms : List (Move ρ Op)}
    (h : S.Run c ms d) (hok : ∀ m ∈ ms, ∀ s, ok s m) : (S.restrict ok).Run c ms d := by
  induction h with
  | nil c => exact .nil c
  | cons hstep _ ih =>
      have hm := hok _ List.mem_cons_self
      refine .cons ?_ (ih fun m hm => hok m (List.mem_cons_of_mem _ hm))
      cases hstep with
      | call op hopen hmay => exact .call op hopen ⟨hmay, hm _⟩
      | answer r hanswer => exact .answer r ⟨hanswer, hm _⟩

theorem Reaches.weaken {ok ok' : σ → Move ρ Op → Prop} {s : σ} {c : Config σ ρ β}
    (himp : ∀ s m, ok s m → ok' s m) (h : (S.restrict ok).Reaches s c) :
    (S.restrict ok').Reaches s c := by
  obtain ⟨ms, hrun⟩ := h
  exact ⟨ms, hrun.weaken himp⟩

end System

/-- An invariant of the states in which user code runs, a relation that every
call made by a callback keeps between its start and its end, and what holds
whenever a question is put. -/
structure Discipline (σ : Type) {κ : Type} (ρ : κ → Type) where
  inv : σ → Prop
  rel : σ → σ → Prop
  guard : κ → σ → Prop
  refl : ∀ s, rel s s
  trans : ∀ {s t u}, rel s t → rel t u → rel s u

namespace Discipline

/-- An invariant alone. -/
def ofInv (inv : σ → Prop) : Discipline σ ρ :=
  ⟨inv, fun _ _ => True, fun _ _ => True, fun _ => trivial, fun _ _ => trivial⟩

/-- An invariant that holds at every question, not only at those to the user. -/
def always (inv : σ → Prop) : Discipline σ ρ :=
  ⟨inv, fun _ _ => True, fun _ => inv, fun _ => trivial, fun _ _ => trivial⟩

/-- The calls of a callback are in no relation, and the invariant is all that a
question needs. -/
structure Plain (D : Discipline σ ρ) : Prop where
  rel : ∀ s t, D.rel s t
  guard : ∀ q s, D.inv s → D.guard q s

theorem ofInv_plain (inv : σ → Prop) : (ofInv inv : Discipline σ ρ).Plain :=
  ⟨fun _ _ => trivial, fun _ _ _ => trivial⟩

theorem always_plain (inv : σ → Prop) : (always inv : Discipline σ ρ).Plain :=
  ⟨fun _ _ => trivial, fun _ _ h => h⟩

variable (D : Discipline σ ρ) (S : System σ ρ Op β)

/-- The contract of the operations. -/
def contract : Contract σ ρ where
  asks q s := D.guard q s ∧ (S.user q → D.inv s)
  answers q s r t :=
    (¬ S.user q ∧ S.answer q s r t) ∨
      (S.user q ∧ ∃ u, D.inv u ∧ D.rel s u ∧ S.answer q u r t)

/-- What an operation called in `i` has to establish at its end. -/
def post (i : σ) : β → σ → Prop := fun _ t => D.inv t ∧ D.rel i t

/-- Every operation keeps the discipline. -/
def Keeps : Prop :=
  ∀ op s, S.may s op → D.inv s → (S.api op).wp (D.contract S) (D.post s) s

/-- User code runs in the state, and each open question below it waits with
code that keeps the discipline once it is answered. -/
inductive Waits : σ → List (Frame σ ρ β) → Prop
  | nil {s} (hinv : D.inv s) : Waits s []
  | cons {s i a q next stack} (huser : S.user q) (hinv : D.inv s) (hrel : D.rel a s)
      (hnext : ∀ r t, (D.contract S).answers q a r t →
        (next r).wp (D.contract S) (D.post i) t)
      (below : Waits i stack) : Waits s (⟨q, next⟩ :: stack)

/-- The configurations that occur: user code runs, or another question is open. -/
inductive Fine : Config σ ρ β → Prop
  | waits {s stack} (h : D.Waits S s stack) : Fine ⟨s, stack⟩
  | asks {s i q next stack} (huser : ¬ S.user q) (hguard : D.guard q s)
      (hnext : ∀ r t, (D.contract S).answers q s r t →
        (next r).wp (D.contract S) (D.post i) t)
      (below : D.Waits S i stack) : Fine ⟨s, ⟨q, next⟩ :: stack⟩

variable {D S}

theorem Waits.inv {s : σ} {stack : List (Frame σ ρ β)} (h : D.Waits S s stack) : D.inv s := by
  cases h with
  | nil hinv => exact hinv
  | cons _ hinv => exact hinv

/-- The code below does not notice a change of state inside the relation. -/
theorem Waits.move {s t : σ} {stack : List (Frame σ ρ β)} (h : D.Waits S s stack)
    (hinv : D.inv t) (hrel : D.rel s t) : D.Waits S t stack := by
  cases h with
  | nil _ => exact .nil hinv
  | cons huser _ hrel' hnext below =>
      exact .cons huser hinv (D.trans hrel' hrel) hnext below

theorem start_fine (c : Code σ ρ β) {i s : σ} {stack : List (Frame σ ρ β)}
    (hw : c.wp (D.contract S) (D.post i) s) (below : D.Waits S i stack) :
    D.Fine S (c.start s stack) := by
  induction c generalizing s with
  | ret a => exact .waits (below.move hw.1 hw.2)
  | get next ih => exact ih s hw
  | put t next ih => exact ih hw
  | ask q next _ =>
      by_cases huser : S.user q
      · exact .waits (.cons huser (hw.1.2 huser) (D.refl s) hw.2 below)
      · exact .asks huser hw.1.1 hw.2 below

theorem step_fine (keeps : D.Keeps S) {c d : Config σ ρ β} {m : Move ρ Op}
    (hc : D.Fine S c) (hstep : S.Step c m d) : D.Fine S d := by
  cases hstep with
  | call op hopen hmay =>
      cases hc with
      | waits h => exact start_fine _ (keeps op _ hmay h.inv) h
      | asks huser _ _ _ => exact absurd hopen huser
  | answer r hanswer =>
      cases hc with
      | waits h =>
          cases h with
          | cons huser hinv hrel hnext below =>
              exact start_fine _ (hnext r _ (Or.inr ⟨huser, _, hinv, hrel, hanswer⟩)) below
      | asks huser _ hnext below =>
          exact start_fine _ (hnext r _ (Or.inl ⟨huser, hanswer⟩)) below

theorem run_fine (keeps : D.Keeps S) {c d : Config σ ρ β} {ms : List (Move ρ Op)}
    (hrun : S.Run c ms d) (hc : D.Fine S c) : D.Fine S d := by
  induction hrun with
  | nil c => exact hc
  | cons hstep _ ih => exact ih (step_fine keeps hc hstep)

/-- Code that keeps the discipline from the state `s` on, and ends with `Q`. -/
def Safe (D : Discipline σ ρ) (S : System σ ρ Op β) (c : Code σ ρ γ) (Q : γ → σ → Prop)
    (s : σ) : Prop := c.wp (D.contract S) (fun a t => Q a t ∧ D.rel s t) s

theorem Safe.pure {a : γ} {Q : γ → σ → Prop} {s : σ} (h : Q a s) :
    D.Safe S (Pure.pure a) Q s := ⟨h, D.refl s⟩

theorem Safe.read {Q : σ → σ → Prop} {s : σ} (h : Q s s) : D.Safe S .read Q s := ⟨h, D.refl s⟩

theorem Safe.modify {f : σ → σ} {Q : Unit → σ → Prop} {s : σ} (h : Q () (f s))
    (hf : D.rel s (f s)) : D.Safe S (.modify f) Q s := ⟨h, hf⟩

theorem Safe.when {p : Prop} [Decidable p] {c : Code σ ρ Unit} {Q : Unit → σ → Prop} {s : σ}
    (h : p → D.Safe S c Q s) (hnot : ¬ p → Q () s) : D.Safe S (.when p c) Q s := by
  unfold Code.when
  split
  · exact h ‹p›
  · exact Safe.pure (hnot ‹¬ p›)

theorem Safe.mono {c : Code σ ρ γ} {Q Q' : γ → σ → Prop} {s : σ} (h : D.Safe S c Q s)
    (himp : ∀ a t, Q a t → Q' a t) : D.Safe S c Q' s :=
  Code.wp_mono c (fun a t ht => ⟨himp a t ht.1, ht.2⟩) h

theorem Safe.bind {c : Code σ ρ γ} {f : γ → Code σ ρ ε} {Q : ε → σ → Prop} {s : σ}
    (h : D.Safe S c (fun a t => D.Safe S (f a) Q t) s) : D.Safe S (c >>= f) Q s := by
  refine (Code.wp_bind c f _ s).mpr (Code.wp_mono c ?_ h)
  rintro a t ⟨ht, hrel⟩
  exact Code.wp_mono (f a) (fun b u hu => ⟨hu.1, D.trans hrel hu.2⟩) ht

theorem Safe.read_then {f : σ → Code σ ρ γ} {Q : γ → σ → Prop} {s : σ}
    (h : D.Safe S (f s) Q s) : D.Safe S (.read >>= f) Q s := Safe.bind (Safe.read h)

/-- A question that is answered at once. -/
theorem Safe.ask {q : κ} {Q : ρ q → σ → Prop} {s : σ} (huser : ¬ S.user q)
    (hguard : D.guard q s) (h : ∀ r t, S.answer q s r t → Q r t ∧ D.rel s t) :
    D.Safe S (.query q) Q s := by
  refine ⟨⟨hguard, fun hu => absurd hu huser⟩, fun r t ht => ?_⟩
  rcases ht with ⟨-, ht⟩ | ⟨hu, -⟩
  · exact h r t ht
  · exact absurd hu huser

/-- A question without answers ends the run. -/
theorem Safe.stop {q : κ} {next : ρ q → Code σ ρ γ} {Q : γ → σ → Prop} {s : σ}
    (hempty : ρ q → False) (huser : ¬ S.user q) (hguard : D.guard q s) :
    D.Safe S (.ask q next) Q s :=
  ⟨⟨hguard, fun hu => absurd hu huser⟩, fun r => (hempty r).elim⟩

/-- A callback: other calls happen before it returns. -/
theorem Safe.call {q : κ} {Q : ρ q → σ → Prop} {s : σ} (huser : S.user q)
    (hguard : D.guard q s) (hinv : D.inv s)
    (h : ∀ u r t, D.inv u → D.rel s u → S.answer q u r t → Q r t ∧ D.rel u t) :
    D.Safe S (.query q) Q s := by
  refine ⟨⟨hguard, fun _ => hinv⟩, fun r t ht => ?_⟩
  rcases ht with ⟨hu, -⟩ | ⟨-, u, hu, hsu, ht⟩
  · exact absurd huser hu
  · obtain ⟨hQ, hut⟩ := h u r t hu hsu ht
    exact ⟨hQ, D.trans hsu hut⟩

/-- It is enough that every operation is safe. -/
theorem keeps_of_safe (h : ∀ op s, S.may s op → D.inv s →
    D.Safe S (S.api op) (fun _ => D.inv) s) : D.Keeps S :=
  h

/-- The invariant rule: whenever user code runs, the invariant holds. -/
theorem reaches_inv (keeps : D.Keeps S) {s : σ} {c : Config σ ρ β}
    (hreach : S.Reaches s c) (hs : D.inv s) (hopen : S.Open c.stack) : D.inv c.state := by
  obtain ⟨ms, hrun⟩ := hreach
  cases run_fine keeps hrun (.waits (.nil hs)) with
  | waits h => exact h.inv
  | asks huser _ _ _ => exact absurd hopen huser

/-- Whenever a question to the rest of the environment is open, its guard holds. -/
theorem reaches_guard (keeps : D.Keeps S) {s t : σ} {f : Frame σ ρ β}
    {stack : List (Frame σ ρ β)} (hreach : S.Reaches s ⟨t, f :: stack⟩) (hs : D.inv s)
    (huser : ¬ S.user f.question) : D.guard f.question t := by
  obtain ⟨ms, hrun⟩ := hreach
  cases run_fine keeps hrun (.waits (.nil hs)) with
  | waits h =>
      cases h with
      | cons hopen => exact absurd hopen huser
  | asks _ hguard _ _ => exact hguard

/-- The invariant rule for an invariant that holds at every question. -/
theorem reaches_always {inv : σ → Prop} (keeps : (always inv).Keeps S) {s : σ}
    {c : Config σ ρ β} (hreach : S.Reaches s c) (hs : inv s) : inv c.state := by
  obtain ⟨ms, hrun⟩ := hreach
  have hnil : (always inv).Waits S s [] := .nil hs
  cases run_fine keeps hrun (.waits hnil) with
  | waits h => exact h.inv
  | asks _ hguard _ _ => exact hguard

end Discipline

end Interaction
