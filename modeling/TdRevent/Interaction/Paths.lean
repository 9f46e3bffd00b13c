import TdRevent.Interaction.System

/-!
# Paths of labelled steps

A step relation says what may happen to a state, one label at a time. A system
follows the relation if every run of it is a path. The steps may keep frames
beside the state, such as the operations that are under way. An operation then
leaves the frames as it finds them, whatever it calls in between.
-/

namespace Interaction

variable {σ ι φ κ Op β : Type} {ρ : κ → Type}

/-- A finite path and its labels. -/
inductive Path (step : σ → ι → σ → Prop) : σ → List ι → σ → Prop
  | nil (s) : Path step s [] s
  | cons {s t u l ls} (h : step s l t) (rest : Path step t ls u) : Path step s (l :: ls) u

namespace Path

variable {step : σ → ι → σ → Prop} {s t u : σ} {l : ι} {ls ms : List ι}

theorem append (h : Path step s ls t) (h' : Path step t ms u) : Path step s (ls ++ ms) u := by
  induction h with
  | nil s => exact h'
  | cons hstep _ ih => exact .cons hstep (ih h')

theorem snoc (h : Path step s ls t) (hstep : step t l u) : Path step s (ls ++ [l]) u :=
  h.append (.cons hstep (.nil u))

/-- A path through the given labels comes to a state between them. -/
theorem split (h : Path step s (ls ++ ms) u) : ∃ t, Path step s ls t ∧ Path step t ms u := by
  induction ls generalizing s with
  | nil => exact ⟨s, .nil s, h⟩
  | cons l ls ih =>
      rcases h with _ | ⟨hstep, hrest⟩
      obtain ⟨t, hls, hms⟩ := ih hrest
      exact ⟨t, .cons hstep hls, hms⟩

/-- Every label belongs to a step. -/
theorem step_of_mem (h : Path step s ls t) (hl : l ∈ ls) : ∃ s' t', step s' l t' := by
  induction h with
  | nil s => exact nomatch hl
  | cons hstep _ ih =>
      rcases List.mem_cons.mp hl with rfl | hl
      · exact ⟨_, _, hstep⟩
      · exact ih hl

/-- The invariant rule, for an invariant of the labels so far and the state. -/
theorem invariant {inv : List ι → σ → Prop} (h : Path step s ls t) (hs : inv [] s)
    (hstep : ∀ ls t l u, inv ls t → step t l u → inv (ls ++ [l]) u) : inv ls t := by
  have hall : ∀ {s ms t}, Path step s ms t → ∀ ls, inv ls s → inv (ls ++ ms) t := by
    intro s ms t h
    induction h with
    | nil s => exact fun ls hs => (List.append_nil ls).symm ▸ hs
    | @cons s t u l ms h _ ih =>
        intro ls hs
        have hrest := ih (ls ++ [l]) (hstep ls s l t hs h)
        rwa [List.append_assoc] at hrest
  exact hall h [] hs

end Path

namespace Discipline

/-- The runs follow the steps from the start on, and every call keeps the frames. -/
def following (step : σ × φ → ι → σ × φ → Prop) (start : σ × φ) : Discipline σ ρ where
  inv s := ∃ ls f, Path step start ls (s, f)
  rel s t := ∀ f, ∃ ls, Path step (s, f) ls (t, f)
  guard _ _ := True
  refl s f := ⟨[], .nil (s, f)⟩
  trans h h' f := by
    obtain ⟨ls, hls⟩ := h f
    obtain ⟨ms, hms⟩ := h' f
    exact ⟨ls ++ ms, hls.append hms⟩

end Discipline

end Interaction
