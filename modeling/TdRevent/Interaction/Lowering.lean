import TdRevent.Interaction.System

/-!
# Libraries over a lower level

The questions of a library may be code of their own, over a lower level with finer
questions and with more in its state. Where every such piece of code answers as the
library assumes, the runs over the lower level are the runs of the library: whenever
user code runs, both have the same state and the same callbacks are open.

## Implementation notes

A question to the user is one question of the lower level. The others may be several,
or none. While such code is under way the library still waits in the state of before.
-/

namespace Interaction

variable {σ τ κ κ' α β Op : Type} {ρ : κ → Type} {ρ' : κ' → Type}

/-- Where the state of the library is in the lower level, and the code of its questions. -/
structure Lowering (σ τ : Type) {κ κ' : Type} (ρ : κ → Type) (ρ' : κ' → Type) where
  get : τ → σ
  set : σ → τ → τ
  code : (q : κ) → Code τ ρ' (ρ q)
  get_set : ∀ s x, get (set s x) = s

/-- The code of the library over the lower level. -/
def Code.lower (L : Lowering σ τ ρ ρ') : Code σ ρ α → Code τ ρ' α
  | ret a => ret a
  | get next => get fun x => (next (L.get x)).lower L
  | put s next => get fun x => put (L.set s x) (next.lower L)
  | ask q next => (L.code q).bind fun r => (next r).lower L

namespace Lowering

variable (L : Lowering σ τ ρ ρ') (S : System σ ρ Op β) (S' : System τ ρ' Op β)

/-- The questions of the lower level that are answered at once. -/
def contract : Contract τ ρ' := ⟨fun q' _ => ¬ S'.user q', S'.answer⟩

/-- The code comes to an answer that `q` may have in the state `s`. -/
def Answers (q : κ) (c : Code τ ρ' (ρ q)) (s : σ) (x : τ) : Prop :=
  c.wp (contract S') (fun r y => S.answer q s r (L.get y)) x

/-- The code of every question answers as the library assumes. -/
structure Refines : Prop where
  api : ∀ op, S'.api op = (S.api op).lower L
  may : ∀ x op, S'.may x op → S.may (L.get x) op
  system : ∀ q x, ¬ S.user q → L.Answers S S' q (L.code q) (L.get x) x
  user : ∀ q, S.user q → ∃ q' next, L.code q = .ask q' next ∧ S'.user q' ∧
    ∀ x r y, S'.answer q' x r y → L.Answers S S' q (next r) (L.get x) y

/-- The open callbacks of the lower level are those of the library. -/
inductive Stacks : List (Frame τ ρ' β) → List (Frame σ ρ β) → Prop
  | nil : Stacks [] []
  | cons {q q' next c fs' fs} (huser : S.user q) (hcode : L.code q = .ask q' c)
      (huser' : S'.user q')
      (hc : ∀ x r y, S'.answer q' x r y → L.Answers S S' q (c r) (L.get x) y)
      (h : Stacks fs' fs) :
      Stacks (⟨q', fun r' => (c r').bind fun r => (next r).lower L⟩ :: fs') (⟨q, next⟩ :: fs)

/-- The configuration of the lower level belongs to one of the library. -/
inductive Shows : Config τ ρ' β → Config σ ρ β → Prop
  | rests {x fs' fs} (h : L.Stacks S S' fs' fs) : Shows ⟨x, fs'⟩ ⟨L.get x, fs⟩
  | works {x s q q' next fs' fs} {c : ρ' q' → Code τ ρ' (ρ q)} (huser' : ¬ S'.user q')
      (hc : ∀ r y, S'.answer q' x r y → L.Answers S S' q (c r) s y) (h : L.Stacks S S' fs' fs) :
      Shows ⟨x, ⟨q', fun r' => (c r').bind fun r => (next r).lower L⟩ :: fs'⟩ ⟨s, ⟨q, next⟩ :: fs⟩

variable {L S S'}

theorem Stacks.isOpen {fs' : List (Frame τ ρ' β)} {fs : List (Frame σ ρ β)}
    (h : L.Stacks S S' fs' fs) : S.Open fs := by
  cases h with
  | nil => exact trivial
  | cons huser => exact huser

/-- The code of a question runs up to its next question, or the library gets its answer. -/
theorem start_answers {q : κ} {next : ρ q → Code σ ρ β} {fs' : List (Frame τ ρ' β)}
    {fs : List (Frame σ ρ β)} (hstacks : L.Stacks S S' fs' fs) {s : σ} {x : τ}
    {c : Code τ ρ' (ρ q)} (hc : L.Answers S S' q c s x)
    (hgo : ∀ r y, ∃ ms d, S.Run ((next r).start (L.get y) fs) ms d ∧
      L.Shows S S' (((next r).lower L).start y fs') d) :
    ∃ ms d, S.Run ⟨s, ⟨q, next⟩ :: fs⟩ ms d ∧
      L.Shows S S' ((c.bind fun r => (next r).lower L).start x fs') d := by
  induction c generalizing x with
  | ret r =>
      obtain ⟨ms, d, hrun, hshows⟩ := hgo r x
      exact ⟨_, d, .cons (.answer r hc) hrun, hshows⟩
  | get rest ih => exact ih x hc
  | put y rest ih => exact ih hc
  | ask q' rest _ => exact ⟨[], _, .nil _, .works hc.1 hc.2 hstacks⟩

namespace Refines

variable (h : L.Refines S S')

include h

/-- Code of the library runs up to the next question of the lower level. -/
theorem start (c : Code σ ρ β) (x : τ) {fs' : List (Frame τ ρ' β)} {fs : List (Frame σ ρ β)}
    (hstacks : L.Stacks S S' fs' fs) :
    ∃ ms d, S.Run (c.start (L.get x) fs) ms d ∧ L.Shows S S' ((c.lower L).start x fs') d := by
  induction c generalizing x with
  | ret a => exact ⟨[], _, .nil _, .rests hstacks⟩
  | get next ih => exact ih (L.get x) x
  | put s next ih =>
      obtain ⟨ms, d, hrun, hshows⟩ := ih (L.set s x)
      rw [L.get_set] at hrun
      exact ⟨ms, d, hrun, hshows⟩
  | ask q next ih =>
      by_cases huser : S.user q
      · obtain ⟨q', c, hcode, huser', hc⟩ := h.user q huser
        have hlower : (Code.ask q next).lower L =
            .ask q' fun r' => (c r').bind fun r => (next r).lower L :=
          congrArg (fun code => code.bind fun r => (next r).lower L) hcode
        rw [hlower]
        exact ⟨[], _, .nil _, .rests (.cons huser hcode huser' hc hstacks)⟩
      · exact start_answers hstacks (h.system q x huser) ih

/-- One step of the lower level is a run of the library. -/
theorem step {c' d' : Config τ ρ' β} {c : Config σ ρ β} {m : Move ρ' Op}
    (hshows : L.Shows S S' c' c) (hstep : S'.Step c' m d') :
    ∃ ms d, S.Run c ms d ∧ L.Shows S S' d' d := by
  cases hstep with
  | @call x fs' op hopen hmay =>
      rw [h.api op]
      cases hshows with
      | rests hstacks =>
          obtain ⟨ms, d, hrun, hshows⟩ := h.start (S.api op) x hstacks
          exact ⟨_, d, .cons (.call op hstacks.isOpen (h.may x op hmay)) hrun, hshows⟩
      | works huser' => exact absurd hopen huser'
  | answer r hanswer =>
      cases hshows with
      | rests hstacks =>
          cases hstacks with
          | cons _ _ _ hc hstacks =>
              exact start_answers hstacks (hc _ r _ hanswer) fun a y => h.start _ y hstacks
      | works _ hc hstacks =>
          exact start_answers hstacks (hc r _ hanswer) fun a y => h.start _ y hstacks

theorem run {c' d' : Config τ ρ' β} {c : Config σ ρ β} {ms' : List (Move ρ' Op)}
    (hrun : S'.Run c' ms' d') (hshows : L.Shows S S' c' c) :
    ∃ ms d, S.Run c ms d ∧ L.Shows S S' d' d := by
  induction hrun generalizing c with
  | nil c' => exact ⟨[], c, .nil c, hshows⟩
  | cons hstep _ ih =>
      obtain ⟨ms, d, hrun, hshows⟩ := h.step hshows hstep
      obtain ⟨ns, e, hrun', hshows⟩ := ih hshows
      exact ⟨ms ++ ns, e, hrun.append hrun', hshows⟩

/-- What is reached over the lower level, the library reaches. -/
theorem reaches {x : τ} {c' : Config τ ρ' β} (hreach : S'.Reaches x c') :
    ∃ c, S.Reaches (L.get x) c ∧ L.Shows S S' c' c := by
  obtain ⟨ms', hrun⟩ := hreach
  obtain ⟨ms, c, hrun, hshows⟩ := h.run hrun (.rests .nil)
  exact ⟨c, ⟨ms, hrun⟩, hshows⟩

end Refines

/-- Where user code of the lower level runs, user code of the library runs in the same
state, with the same callbacks open. -/
theorem Shows.of_open {c' : Config τ ρ' β} {c : Config σ ρ β} (h : L.Shows S S' c' c)
    (hopen : S'.Open c'.stack) : c.state = L.get c'.state ∧ L.Stacks S S' c'.stack c.stack := by
  cases h with
  | rests hstacks => exact ⟨rfl, hstacks⟩
  | works huser' => exact absurd hopen huser'

end Lowering

end Interaction
