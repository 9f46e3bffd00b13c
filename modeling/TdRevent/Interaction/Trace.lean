import TdRevent.Interaction.System

/-!
# Finished executions and their questions

An execution from its start to its end, with the list of the questions that it
put. Where a callback may call further operations, its question is answered
after a finished run of such calls.

## Implementation notes

The exchanges of the nested calls belong to their own executions. The list
holds those of one execution only.
-/

namespace Interaction

variable {σ κ α β γ Op : Type} {ρ : κ → Type}

/-- A question, its answer, and the states around it. -/
structure Exchange (σ : Type) {κ : Type} (ρ : κ → Type) where
  question : κ
  before : σ
  reply : ρ question
  after : σ

namespace Code

/-- One finished execution from `s`, its questions answered by `ans`, with
the exchanges in order. -/
def Trace (ans : (q : κ) → σ → ρ q → σ → Prop) :
    Code σ ρ α → σ → List (Exchange σ ρ) → α → σ → Prop
  | ret a, s, tr, b, t => tr = [] ∧ b = a ∧ t = s
  | get next, s, tr, b, t => (next s).Trace ans s tr b t
  | put u next, _, tr, b, t => next.Trace ans u tr b t
  | ask q next, s, tr, b, t =>
      ∃ r u tr', ans q s r u ∧ tr = ⟨q, s, r, u⟩ :: tr' ∧ (next r).Trace ans u tr' b t

variable {ans : (q : κ) → σ → ρ q → σ → Prop} {s t : σ} {tr : List (Exchange σ ρ)}

@[simp] theorem trace_pure (a b : α) :
    (pure a : Code σ ρ α).Trace ans s tr b t ↔ tr = [] ∧ b = a ∧ t = s := Iff.rfl

@[simp] theorem trace_read (b : σ) :
    (read : Code σ ρ σ).Trace ans s tr b t ↔ tr = [] ∧ b = s ∧ t = s := Iff.rfl

@[simp] theorem trace_modify (f : σ → σ) (b : Unit) :
    (modify f : Code σ ρ Unit).Trace ans s tr b t ↔ tr = [] ∧ t = f s := by
  cases b
  exact ⟨fun h => ⟨h.1, h.2.2⟩, fun h => ⟨h.1, rfl, h.2⟩⟩

@[simp] theorem trace_query (q : κ) (b : ρ q) :
    (query q : Code σ ρ (ρ q)).Trace ans s tr b t ↔ ans q s b t ∧ tr = [⟨q, s, b, t⟩] := by
  constructor
  · rintro ⟨r, u, _, h, rfl, rfl, rfl, rfl⟩
    exact ⟨h, rfl⟩
  · rintro ⟨h, rfl⟩
    exact ⟨b, t, [], h, rfl, rfl, rfl, rfl⟩

@[simp] theorem trace_bind (c : Code σ ρ α) (f : α → Code σ ρ β) (b : β) :
    (c >>= f).Trace ans s tr b t ↔
      ∃ a u tr₁ tr₂, tr = tr₁ ++ tr₂ ∧ c.Trace ans s tr₁ a u ∧ (f a).Trace ans u tr₂ b t := by
  change (c.bind f).Trace ans s tr b t ↔ _
  induction c generalizing s tr with
  | ret a =>
      constructor
      · exact fun h => ⟨a, s, [], tr, rfl, ⟨rfl, rfl, rfl⟩, h⟩
      · rintro ⟨_, _, _, _, rfl, ⟨rfl, rfl, rfl⟩, h⟩
        exact h
  | get next ih => exact ih s
  | put u next ih => exact ih
  | ask q next ih =>
      constructor
      · rintro ⟨r, u, _, hr, rfl, h⟩
        obtain ⟨a, v, tr₁, tr₂, rfl, hv, h⟩ := (ih r).mp h
        exact ⟨a, v, _ :: tr₁, tr₂, rfl, ⟨r, u, tr₁, hr, rfl, hv⟩, h⟩
      · rintro ⟨a, v, _, tr₂, rfl, ⟨r, u, tr₁, hr, rfl, hv⟩, h⟩
        exact ⟨r, u, tr₁ ++ tr₂, hr, rfl, (ih r).mpr ⟨a, v, tr₁, tr₂, rfl, hv, h⟩⟩

/-- The execution of the second code. -/
theorem Trace.rest {c : Code σ ρ α} {f : α → Code σ ρ β} {b : β}
    (h : (c >>= f).Trace ans s tr b t) : ∃ a u tr', (f a).Trace ans u tr' b t := by
  obtain ⟨a, u, -, tr', -, -, h⟩ := (trace_bind c f b).mp h
  exact ⟨a, u, tr', h⟩

theorem trace_read_then (f : σ → Code σ ρ β) (b : β) :
    (read >>= f).Trace ans s tr b t ↔ (f s).Trace ans s tr b t := Iff.rfl

theorem trace_modify_then (g : σ → σ) (f : Unit → Code σ ρ β) (b : β) :
    (modify g >>= f).Trace ans s tr b t ↔ (f ()).Trace ans (g s) tr b t := Iff.rfl

theorem trace_query_then (q : κ) (f : ρ q → Code σ ρ β) (b : β) :
    (query q >>= f).Trace ans s tr b t ↔
      ∃ r u tr', ans q s r u ∧ tr = ⟨q, s, r, u⟩ :: tr' ∧ (f r).Trace ans u tr' b t := Iff.rfl

/-- Every exchange of an execution is an answer of the environment. -/
theorem Trace.answered {c : Code σ ρ α} {a : α} (h : c.Trace ans s tr a t) :
    ∀ x ∈ tr, ans x.question x.before x.reply x.after := by
  induction c generalizing s tr with
  | ret b =>
      obtain ⟨rfl, -, -⟩ := h
      exact nofun
  | get next ih => exact ih s h
  | put u next ih => exact ih h
  | ask q next ih =>
      obtain ⟨r, u, tr, hr, rfl, h⟩ := h
      exact List.forall_mem_cons.mpr ⟨hr, ih r h⟩

/-- Every question of an execution is one that the code may put, and what `wp`
ensures holds at its end. -/
theorem wp_trace {C : Contract σ ρ} {Q : α → σ → Prop} (c : Code σ ρ α) {a : α}
    (hw : c.wp C Q s) (htrace : c.Trace C.answers s tr a t) :
    (∀ x ∈ tr, C.asks x.question x.before) ∧ Q a t := by
  induction c generalizing s tr with
  | ret b =>
      obtain ⟨rfl, rfl, rfl⟩ := htrace
      exact ⟨nofun, hw⟩
  | get next ih => exact ih s hw htrace
  | put u next ih => exact ih hw htrace
  | ask q next ih =>
      obtain ⟨r, u, tr, hr, rfl, htrace⟩ := htrace
      obtain ⟨hasks, hQ⟩ := ih r (hw.2 r u hr) htrace
      exact ⟨List.forall_mem_cons.mpr ⟨hw.1, hasks⟩, hQ⟩

/-- Code whose questions all have an answer has an execution. -/
theorem exists_trace {Q : α → σ → Prop} (c : Code σ ρ α)
    (hw : c.wp ⟨fun q s => ∃ r t, ans q s r t, ans⟩ Q s) : ∃ tr a t, c.Trace ans s tr a t := by
  induction c generalizing s with
  | ret a => exact ⟨[], a, s, rfl, rfl, rfl⟩
  | get next ih => exact ih s hw
  | put u next ih => exact ih hw
  | ask q next ih =>
      obtain ⟨⟨r, u, hr⟩, hnext⟩ := hw
      obtain ⟨tr, a, t, htrace⟩ := ih r (hnext r u hr)
      exact ⟨⟨q, s, r, u⟩ :: tr, a, t, r, u, tr, hr, rfl, htrace⟩

end Code

namespace System

/-- How the questions of one execution are answered: a callback returns after
a finished run of further calls, every other question is answered at once. -/
def during (S : System σ ρ Op β) (q : κ) (s : σ) (r : ρ q) (t : σ) : Prop :=
  (¬ S.user q ∧ S.answer q s r t) ∨
    (S.user q ∧ ∃ u, S.Reaches s ⟨u, []⟩ ∧ S.answer q u r t)

end System

namespace Discipline

variable {D : Discipline σ ρ} {S : System σ ρ Op β} {c : Code σ ρ γ} {Q : γ → σ → Prop}
  {s t : σ} {a : γ}

/-- What the contract of the operations ensures holds at the end of every execution. -/
theorem exec_during (keeps : D.Keeps S) (hrel : ∀ s t, D.rel s t)
    (hw : c.wp (D.contract S) Q s) (hexec : c.Exec S.during s a t) : Q a t := by
  induction c generalizing s with
  | ret b =>
      obtain ⟨rfl, rfl⟩ := hexec
      exact hw
  | get next ih => exact ih s hw hexec
  | put u next ih => exact ih hw hexec
  | ask q next ih =>
      obtain ⟨r, u, ⟨huser, hr⟩ | ⟨huser, v, hreach, hr⟩, hexec⟩ := hexec
      · exact ih r (hw.2 r u (Or.inl ⟨huser, hr⟩)) hexec
      · have hv := reaches_inv keeps hreach (hw.1.2 huser) S.open_nil
        exact ih r (hw.2 r u (Or.inr ⟨huser, v, hv, hrel _ _, hr⟩)) hexec

theorem Safe.ends (keeps : D.Keeps S) (hrel : ∀ s t, D.rel s t) (hsafe : D.Safe S c Q s)
    (hexec : c.Exec S.during s a t) : Q a t := (exec_during keeps hrel hsafe hexec).1

end Discipline

end Interaction
