import TdRevent.Interaction.System

/-!
# What one move makes of the state

A move of the environment starts or resumes code of the library, which runs up to its
next question. A relation between the state before the move and the state at that
question describes the move. If every piece of code follows the relation, every step of
every run does, and a log that is written from the moves alone agrees with the states.

## Implementation notes

The relation is about the whole move: the change that comes with the answer, and what
the code makes of it.
-/

namespace Interaction

variable {σ κ β γ ε φ ι Op : Type} {ρ : κ → Type}

/-- The code came from the state `s` before the move `m` to the state `t`. What each of
its moves makes of the state is in `R`, and it ends with `Q`. -/
def Code.Follows (S : System σ ρ Op β) (inv : σ → Prop) (R : Move ρ Op → σ → σ → Prop) :
    Code σ ρ γ → (γ → Move ρ Op → σ → σ → Prop) → Move ρ Op → σ → σ → Prop
  | ret a, Q, m, s, t => Q a m s t
  | get next, Q, m, s, t => (next t).Follows S inv R Q m s t
  | put u next, Q, m, s, _ => next.Follows S inv R Q m s u
  | ask q next, Q, m, s, t =>
      (inv t ∧ R m s t) ∧ ∀ r u v, inv u → (S.user q ∨ u = t) → S.answer q u r v →
        (next r).Follows S inv R Q (.answer q r) u v

namespace Code.Follows

variable {S : System σ ρ Op β} {inv : σ → Prop} {R : Move ρ Op → σ → σ → Prop}
  {m : Move ρ Op} {s t : σ}

theorem pure {a : γ} {Q : γ → Move ρ Op → σ → σ → Prop} (h : Q a m s t) :
    (Pure.pure a : Code σ ρ γ).Follows S inv R Q m s t := h

theorem read_then {f : σ → Code σ ρ γ} {Q : γ → Move ρ Op → σ → σ → Prop}
    (h : (f t).Follows S inv R Q m s t) : (Code.read >>= f).Follows S inv R Q m s t := h

theorem modify {f : σ → σ} {Q : Unit → Move ρ Op → σ → σ → Prop} (h : Q () m s (f t)) :
    (Code.modify f : Code σ ρ Unit).Follows S inv R Q m s t := h

theorem ask {q : κ} {Q : ρ q → Move ρ Op → σ → σ → Prop} (hinv : inv t) (hR : R m s t)
    (h : ∀ r u v, inv u → (S.user q ∨ u = t) → S.answer q u r v → Q r (.answer q r) u v) :
    (Code.query q).Follows S inv R Q m s t := ⟨⟨hinv, hR⟩, h⟩

/-- A question without answers ends the run. -/
theorem stop {q : κ} {next : ρ q → Code σ ρ γ} {Q : γ → Move ρ Op → σ → σ → Prop}
    (hempty : ρ q → False) (hinv : inv t) (hR : R m s t) :
    (Code.ask q next).Follows S inv R Q m s t := ⟨⟨hinv, hR⟩, fun r => (hempty r).elim⟩

theorem mono {c : Code σ ρ γ} {Q Q' : γ → Move ρ Op → σ → σ → Prop}
    (h : c.Follows S inv R Q m s t) (himp : ∀ a m s t, Q a m s t → Q' a m s t) :
    c.Follows S inv R Q' m s t := by
  induction c generalizing m s t with
  | ret a => exact himp a m s t h
  | get next ih => exact ih t h
  | put u next ih => exact ih h
  | ask q next ih => exact ⟨h.1, fun r u v hu hsame hanswer => ih r (h.2 r u v hu hsame hanswer)⟩

theorem bind {c : Code σ ρ γ} {f : γ → Code σ ρ ε} {Q : ε → Move ρ Op → σ → σ → Prop}
    (h : c.Follows S inv R (fun a m s t => (f a).Follows S inv R Q m s t) m s t) :
    (c >>= f).Follows S inv R Q m s t := by
  change (c.bind f).Follows S inv R Q m s t
  induction c generalizing m s t with
  | ret a => exact h
  | get next ih => exact ih t h
  | put u next ih => exact ih h
  | ask q next ih => exact ⟨h.1, fun r u v hu hsame hanswer => ih r (h.2 r u v hu hsame hanswer)⟩

theorem when {p : Prop} [Decidable p] {c : Code σ ρ Unit} {Q : Unit → Move ρ Op → σ → σ → Prop}
    (h : p → c.Follows S inv R Q m s t) (hnot : ¬ p → Q () m s t) :
    (Code.when p c).Follows S inv R Q m s t := by
  unfold Code.when
  split
  · exact h ‹p›
  · exact pure (hnot ‹¬ p›)

end Code.Follows

/-! ## The runs -/

variable {S : System σ ρ Op β} {inv : σ → Prop} {R : Move ρ Op → σ → σ → Prop}

/-- The code that waits for the answer follows the relation. -/
def Frame.Follows (S : System σ ρ Op β) (inv : σ → Prop) (R : Move ρ Op → σ → σ → Prop)
    (f : Frame σ ρ β) (t : σ) : Prop :=
  ∀ r u v, inv u → (S.user f.question ∨ u = t) → S.answer f.question u r v →
    (f.resume r).Follows S inv R (fun _ m s t => inv t ∧ R m s t) (.answer f.question r) u v

/-- The configurations that occur. -/
structure Config.Follows (S : System σ ρ Op β) (inv : σ → Prop) (R : Move ρ Op → σ → σ → Prop)
    (c : Config σ ρ β) : Prop where
  holds : inv c.state
  frames : ∀ f ∈ c.stack, f.Follows S inv R c.state
  below : ∀ f ∈ c.stack.tail, S.user f.question

/-- Every call follows the relation. -/
def System.Follows (S : System σ ρ Op β) (inv : σ → Prop) (R : Move ρ Op → σ → σ → Prop) : Prop :=
  ∀ op s, S.may s op → inv s →
    (S.api op).Follows S inv R (fun _ m s t => inv t ∧ R m s t) (.call op) s s

/-- A question to the user waits whatever the state becomes. -/
theorem Frame.Follows.move {f : Frame σ ρ β} {s t : σ} (h : f.Follows S inv R s)
    (huser : S.user f.question) : f.Follows S inv R t :=
  fun r u v hu _ hanswer => h r u v hu (Or.inl huser) hanswer

theorem Code.Follows.start (c : Code σ ρ β) {m : Move ρ Op} {s t : σ}
    {stack : List (Frame σ ρ β)}
    (hc : c.Follows S inv R (fun _ m s t => inv t ∧ R m s t) m s t)
    (hstack : ∀ f ∈ stack, S.user f.question ∧ ∀ u, f.Follows S inv R u) :
    R m s (c.start t stack).state ∧ (c.start t stack).Follows S inv R := by
  induction c generalizing t with
  | ret a =>
      exact ⟨hc.2, hc.1, fun f hf => (hstack f hf).2 t,
        fun f hf => (hstack f (List.mem_of_mem_tail hf)).1⟩
  | get next ih => exact ih t hc
  | put u next ih => exact ih hc
  | ask q next _ =>
      exact ⟨hc.1.2, hc.1.1, List.forall_mem_cons.mpr ⟨hc.2, fun f hf => (hstack f hf).2 t⟩,
        fun f hf => (hstack f hf).1⟩

namespace System.Follows

variable (h : S.Follows inv R)

include h

/-- What one step makes of the state. -/
theorem step {c d : Config σ ρ β} {m : Move ρ Op} (hc : c.Follows S inv R)
    (hstep : S.Step c m d) : R m c.state d.state ∧ d.Follows S inv R := by
  cases hstep with
  | @call s stack op hopen hmay =>
      have huser : ∀ f ∈ stack, S.user f.question := by
        cases stack with
        | nil => exact nofun
        | cons f stack => exact List.forall_mem_cons.mpr ⟨hopen, hc.below⟩
      exact Code.Follows.start _ (h op s hmay hc.holds) fun f hf =>
        ⟨huser f hf, fun _ => (hc.frames f hf).move (huser f hf)⟩
  | @answer s t q next stack r hanswer =>
      refine Code.Follows.start _ ?_ fun f hf => ?_
      · exact hc.frames _ List.mem_cons_self r s t hc.holds (Or.inr rfl) hanswer
      · exact ⟨hc.below f hf, fun _ =>
          (hc.frames f (List.mem_cons_of_mem _ hf)).move (hc.below f hf)⟩

end System.Follows

/-! ## Logs -/

/-- The move can be made in the state. -/
def System.Allows (S : System σ ρ Op β) (s : σ) : Move ρ Op → Prop
  | .call op => S.may s op
  | .answer q r => ∃ t, S.answer q s r t

theorem System.Step.allows {c d : Config σ ρ β} {m : Move ρ Op} (h : S.Step c m d) :
    S.Allows c.state m := by
  cases h with
  | call op _ hmay => exact hmay
  | answer r hanswer => exact ⟨_, hanswer⟩

/-- A run, and the entries that `f` writes for its moves from the states around them. -/
inductive System.Logged (S : System σ ρ Op β) (f : Move ρ Op → σ → σ → List ι) :
    Config σ ρ β → List ι → Config σ ρ β → Prop
  | nil (c) : Logged S f c [] c
  | cons {c d e m ls} (hstep : S.Step c m d) (rest : Logged S f d ls e) :
      Logged S f c (f m c.state d.state ++ ls) e

namespace System

variable {f : Move ρ Op → σ → σ → List ι} {c d : Config σ ρ β}

/-- Every run has a log. -/
theorem Run.logged {ms : List (Move ρ Op)} (h : S.Run c ms d) : ∃ ls, S.Logged f c ls d := by
  induction h with
  | nil c => exact ⟨[], .nil c⟩
  | cons hstep _ ih =>
      obtain ⟨ls, hls⟩ := ih
      exact ⟨_, .cons hstep hls⟩

/-- A run goes on by a step. -/
theorem Logged.snoc {e : Config σ ρ β} {ls : List ι} {m : Move ρ Op} (h : S.Logged f c ls d)
    (hstep : S.Step d m e) : S.Logged f c (ls ++ f m d.state e.state) e := by
  induction h with
  | nil c =>
      rw [List.nil_append, ← List.append_nil (f m c.state e.state)]
      exact .cons hstep (.nil e)
  | cons hfirst _ ih =>
      rw [List.append_assoc]
      exact .cons hfirst (ih hstep)

theorem Logged.call {s : σ} {stack : List (Frame σ ρ β)} {ls : List ι}
    (h : S.Logged f c ls ⟨s, stack⟩) (op : Op) (hopen : S.Open stack) (hmay : S.may s op) :
    S.Logged f c (ls ++ f (.call op) s ((S.api op).start s stack).state)
      ((S.api op).start s stack) :=
  h.snoc (.call op hopen hmay)

theorem Logged.answer {s t : σ} {q : κ} {next : ρ q → Code σ ρ β} {stack : List (Frame σ ρ β)}
    {ls : List ι} (h : S.Logged f c ls ⟨s, ⟨q, next⟩ :: stack⟩) (r : ρ q)
    (hanswer : S.answer q s r t) :
    S.Logged f c (ls ++ f (.answer q r) s ((next r).start t stack).state)
      ((next r).start t stack) :=
  h.snoc (.answer r hanswer)

/-- The invariant rule for the log and the state. -/
theorem Follows.logged (hfollows : S.Follows inv R) {J : List ι → σ → Prop} {s : σ} {ls : List ι}
    (h : S.Logged f ⟨s, []⟩ ls d) (hinv : inv s) (hs : J [] s)
    (hstep : ∀ ls m u v, J ls u → inv u → (∃ stack, S.Reaches s ⟨u, stack⟩) → S.Allows u m →
      R m u v → J (ls ++ f m u v) v) : J ls d.state := by
  have hall : ∀ {c ls d}, S.Logged f c ls d → S.Reaches s c → c.Follows S inv R →
      ∀ ls₀, J ls₀ c.state → J (ls₀ ++ ls) d.state := by
    intro c ls d h
    induction h with
    | nil c => exact fun _ _ ls₀ hc => (List.append_nil ls₀).symm ▸ hc
    | @cons c d e m ls hmove _ ih =>
        intro hreach hc ls₀ hJ
        obtain ⟨hR, hd⟩ := hfollows.step hc hmove
        have hnext := hstep ls₀ m c.state d.state hJ hc.holds ⟨c.stack, hreach⟩ hmove.allows hR
        have hrest := ih (hreach.step hmove) hd _ hnext
        rwa [List.append_assoc] at hrest
  exact hall h (.refl s) ⟨hinv, nofun, nofun⟩ [] hs

end System

/-! ## A part of the state that few moves change -/

/-- What is seen of the state after the move is one of the values that the move gives. -/
def Gives (view : σ → φ) (gives : Move ρ Op → σ → φ → Prop) (m : Move ρ Op) (s t : σ) : Prop :=
  gives m s (view t)

/-- The questions that are answered at once and show nothing new, where `v` is seen. -/
def Contract.unseen (S : System σ ρ Op β) (inv : σ → Prop) (view : σ → φ)
    (gives : Move ρ Op → σ → φ → Prop) (v : φ) : Contract σ ρ where
  asks q u := (inv u ∧ view u = v) ∧ ¬ S.user q ∧ ∀ r, gives (.answer q r) u (view u)
  answers := S.answer

theorem Code.Follows.of_wp {view : σ → φ} {gives : Move ρ Op → σ → φ → Prop} (c : Code σ ρ γ)
    {Q : γ → σ → Prop} {m : Move ρ Op} {s t : σ} {v : φ} (hv : gives m s v)
    (hc : c.wp (.unseen S inv view gives v) Q t) :
    c.Follows S inv (Gives view gives)
      (fun a m s t => Q a t ∧ gives m s v) m s t := by
  induction c generalizing m s t with
  | ret a => exact ⟨hc, hv⟩
  | get next ih => exact ih t hv hc
  | put u next ih => exact ih hv hc
  | ask q next ih =>
      obtain ⟨⟨⟨hinv, hview⟩, huser, hsame⟩, hnext⟩ := hc
      refine ⟨⟨hinv, ?_⟩, ?_⟩
      · unfold Gives
        rwa [hview]
      · rintro r u w - (hu | rfl) hanswer
        · exact absurd hu huser
        · exact ih r (hview ▸ hsame r) (hnext r w hanswer)

end Interaction
