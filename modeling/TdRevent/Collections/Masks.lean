import Mathlib.Data.BitVec
import Mathlib.Data.Finset.Fold
import Mathlib.Data.Fintype.Basic

/-!
# Finite sets as masks

A set of flags is a machine word when each flag has a bit of its own, and the word gives
back the flags whose bits are set.
-/

namespace Masks

variable {F : Type} [DecidableEq F] {w : ℕ} (pos : F → Fin w)

/-- The bits of the flags. -/
def mask (s : Finset F) : BitVec w := s.fold (· ||| ·) 0 fun f => .twoPow w (pos f)

/-- The flags whose bits are set. -/
def unmask [Fintype F] (v : BitVec w) : Finset F := {f | v.getLsbD (pos f) = true}

theorem mem_mask (s : Finset F) (i : ℕ) :
    (mask pos s).getLsbD i = true ↔ ∃ f ∈ s, (pos f : ℕ) = i := by
  induction s using Finset.induction_on with
  | empty => simp [mask]
  | insert f s hf ih =>
      have hinsert : mask pos (insert f s) = .twoPow w (pos f) ||| mask pos s :=
        Finset.fold_insert hf
      have hbit := (pos f).isLt
      rw [hinsert, BitVec.getLsbD_or, Bool.or_eq_true, ih, BitVec.getLsbD_twoPow]
      simp [hbit]

omit [DecidableEq F] in
@[simp] theorem mem_unmask [Fintype F] (v : BitVec w) (f : F) :
    f ∈ unmask pos v ↔ v.getLsbD (pos f) = true := by
  simp [unmask]

/-- A mask knows its flags. -/
theorem mem_mask_pos (hpos : pos.Injective) (s : Finset F) (f : F) :
    (mask pos s).getLsbD (pos f) = true ↔ f ∈ s := by
  rw [mem_mask]
  constructor
  · rintro ⟨f', hf', heq⟩
    exact hpos (Fin.ext heq) ▸ hf'
  · exact fun hf => ⟨f, hf, rfl⟩

/-- The flags are read back. -/
theorem unmask_mask [Fintype F] (hpos : pos.Injective) (s : Finset F) :
    unmask pos (mask pos s) = s := by
  ext f
  rw [mem_unmask, mem_mask_pos pos hpos]

end Masks
