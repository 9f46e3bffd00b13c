import TdRevent.Interaction.Trace

/-!
# Code that works on a part of the state

A library may be composed of parts, each with a state and questions of its own.
The code of a part is code of the whole. Its executions in the whole are
executions of the part, and between its questions it leaves the rest alone.

## Implementation notes

While a question is open the environment may change everything. A frame condition
is therefore stated along the exchanges of an execution, not for its two ends.
-/

namespace Interaction

variable {σ τ κ κ' α φ : Type} {ρ : κ → Type} {ρ' : κ' → Type}

/-- A part of a state, with its questions among those of the whole. -/
structure Part (σ τ : Type) {κ κ' : Type} (ρ : κ → Type) (ρ' : κ' → Type) where
  get : σ → τ
  set : τ → σ → σ
  question : κ' → κ
  reply : ∀ q, ρ (question q) → ρ' q
  get_set : ∀ t s, get (set t s) = t

/-- An exchange of the whole as the part sees it. -/
inductive Part.Sees (P : Part σ τ ρ ρ') : Exchange σ ρ → Exchange τ ρ' → Prop
  | of (q : κ') (s : σ) (r : ρ (P.question q)) (t : σ) :
      P.Sees ⟨P.question q, s, r, t⟩ ⟨q, P.get s, P.reply q r, P.get t⟩

theorem Part.sees_cons {P : Part σ τ ρ ρ'} {tr : List (Exchange σ ρ)} {q : κ'} {a b : τ}
    {r' : ρ' q} {tr' : List (Exchange τ ρ')}
    (h : List.Forall₂ P.Sees tr (⟨q, a, r', b⟩ :: tr')) :
    ∃ s r t rest, tr = ⟨P.question q, s, r, t⟩ :: rest ∧ P.get s = a ∧ P.reply q r = r' ∧
      P.get t = b ∧ List.Forall₂ P.Sees rest tr' := by
  rcases h with _ | ⟨⟨_, s, r, t⟩, hrest⟩
  exact ⟨s, r, t, _, rfl, rfl, rfl, rfl, hrest⟩

/-- `f` changes only while a question is open. -/
def Framed (f : σ → φ) : σ → List (Exchange σ ρ) → σ → Prop
  | s, [], t => f t = f s
  | s, x :: tr, t => f x.before = f s ∧ Framed f x.after tr t

namespace Framed

variable {f : σ → φ} {s t u : σ} {tr tr' : List (Exchange σ ρ)}

theorem of_eq (h : Framed f u tr t) (hu : f u = f s) : Framed f s tr t := by
  cases tr with
  | nil => exact Eq.trans h hu
  | cons x tr => exact ⟨h.1.trans hu, h.2⟩

theorem append (h : Framed f s tr u) (h' : Framed f u tr' t) : Framed f s (tr ++ tr') t := by
  induction tr generalizing s with
  | nil => exact h'.of_eq h
  | cons x tr ih => exact ⟨h.1, ih h.2⟩

/-- What was lost was lost while some question was open. -/
theorem exists_loss {p : φ → Prop} (h : Framed f s tr t) (hs : p (f s)) (ht : ¬ p (f t)) :
    ∃ x ∈ tr, p (f x.before) ∧ ¬ p (f x.after) := by
  induction tr generalizing s with
  | nil => exact absurd (h ▸ hs) ht
  | cons x tr ih =>
      have hbefore : p (f x.before) := h.1 ▸ hs
      by_cases hafter : p (f x.after)
      · obtain ⟨y, hy, hloss⟩ := ih h.2 hafter
        exact ⟨y, List.mem_cons_of_mem _ hy, hloss⟩
      · exact ⟨x, List.mem_cons_self, hbefore, hafter⟩

end Framed

namespace Code

/-- The code of a part, as code of the whole. -/
def within (P : Part σ τ ρ ρ') : Code τ ρ' α → Code σ ρ α
  | ret a => ret a
  | get next => get fun s => (next (P.get s)).within P
  | put t next => get fun s => put (P.set t s) (next.within P)
  | ask q next => ask (P.question q) fun r => (next (P.reply q r)).within P

variable {P : Part σ τ ρ ρ'} {ans : (q : κ) → σ → ρ q → σ → Prop} {s t : σ}
  {tr : List (Exchange σ ρ)} {a : α}

/-- An execution in the whole is an execution of the part. -/
theorem Trace.of_within (ans' : (q : κ') → τ → ρ' q → τ → Prop)
    (hans : ∀ q s r t, ans (P.question q) s r t → ans' q (P.get s) (P.reply q r) (P.get t))
    {c : Code τ ρ' α} (h : (c.within P).Trace ans s tr a t) :
    ∃ tr', List.Forall₂ P.Sees tr tr' ∧ c.Trace ans' (P.get s) tr' a (P.get t) := by
  induction c generalizing s tr with
  | ret b =>
      obtain ⟨rfl, rfl, rfl⟩ := h
      exact ⟨[], .nil, rfl, rfl, rfl⟩
  | get next ih => exact ih (P.get s) h
  | put u next ih =>
      obtain ⟨tr', hsees, htrace⟩ := ih h
      exact ⟨tr', hsees, (P.get_set u s) ▸ htrace⟩
  | ask q next ih =>
      obtain ⟨r, u, tr, hr, rfl, h⟩ := h
      obtain ⟨tr', hsees, htrace⟩ := ih (P.reply q r) h
      exact ⟨_, .cons (.of q s r u) hsees, _, _, tr', hans q s r u hr, rfl, htrace⟩

/-- The code of a part leaves alone what no change of the part concerns. -/
theorem Trace.framed {f : σ → φ} (hf : ∀ u s, f (P.set u s) = f s) {c : Code τ ρ' α}
    (h : (c.within P).Trace ans s tr a t) : Framed f s tr t := by
  have hall : ∀ s', f s' = f s → Framed f s' tr t := by
    induction c generalizing s tr with
    | ret b =>
        obtain ⟨rfl, rfl, rfl⟩ := h
        exact fun s' hs' => hs'.symm
    | get next ih => exact ih (P.get s) h
    | put u next ih => exact fun s' hs' => ih h s' (hs'.trans (hf u s).symm)
    | ask q next ih =>
        obtain ⟨r, u, tr, hr, rfl, h⟩ := h
        exact fun s' hs' => ⟨hs'.symm, ih (P.reply q r) h u rfl⟩
  exact hall s rfl

end Code

end Interaction
