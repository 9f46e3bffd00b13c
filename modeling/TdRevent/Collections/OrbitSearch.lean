import Mathlib.Data.Fintype.Pigeonhole
import Mathlib.Logic.Function.Iterate
import Mathlib.Tactic.Linarith

/-!
# Search along the orbit of a function

The search applies `next` again and again and stops at the first value that
is accepted. On a finite type as many steps as there are values see the whole
orbit, so a search that found nothing by then never will.
-/

namespace OrbitSearch

variable {α : Type}

/-- The first accepted value among the next `n` values of the orbit. -/
def search (next : α → α) (accept : α → Bool) : ℕ → α → Option α
  | 0, _ => none
  | n + 1, a => if accept (next a) then some (next a) else search next accept n (next a)

variable {next : α → α} {accept : α → Bool}

/-- The search returns the first accepted value of the orbit. -/
theorem search_eq_some {n : ℕ} {a b : α} :
    search next accept n a = some b ↔
      ∃ k < n, next^[k + 1] a = b ∧ accept b = true ∧
        ∀ j < k, accept (next^[j + 1] a) = false := by
  induction n generalizing a with
  | zero => simp [search]
  | succ n ih =>
      by_cases ha : accept (next a) = true
      · simp only [search, ha, if_true, Option.some.injEq]
        constructor
        · rintro rfl
          exact ⟨0, n.succ_pos, rfl, ha, by simp⟩
        · rintro ⟨k, -, hb, -, hmin⟩
          cases k with
          | zero => exact hb
          | succ k => exact absurd ha (by simpa using hmin 0 k.succ_pos)
      · have ha' : accept (next a) = false := by simpa using ha
        simp only [search, ha', Bool.false_eq_true, if_false, ih]
        constructor
        · rintro ⟨k, hk, hb, hacc, hmin⟩
          refine ⟨k + 1, by omega, hb, hacc, fun j hj => ?_⟩
          cases j with
          | zero => exact ha'
          | succ j => exact hmin j (by omega)
        · rintro ⟨k, hk, hb, hacc, hmin⟩
          cases k with
          | zero =>
              have hb' : next a = b := hb
              rw [hb', hacc] at ha'
              cases ha'
          | succ k => exact ⟨k, by omega, hb, hacc, fun j hj => hmin (j + 1) (by omega)⟩

theorem search_eq_none {n : ℕ} {a : α} :
    search next accept n a = none ↔ ∀ k < n, accept (next^[k + 1] a) = false := by
  induction n generalizing a with
  | zero => simp [search]
  | succ n ih =>
      by_cases ha : accept (next a) = true
      · simp only [search, ha, if_true, reduceCtorEq, false_iff, not_forall]
        exact ⟨0, n.succ_pos, by simpa using ha⟩
      · have ha' : accept (next a) = false := by simpa using ha
        simp only [search, ha', Bool.false_eq_true, if_false, ih]
        constructor
        · intro h k hk
          cases k with
          | zero => exact ha'
          | succ k => exact h k (by omega)
        · exact fun h k hk => h (k + 1) (by omega)

/-- A longer search finds what a shorter one found. -/
theorem search_mono {n m : ℕ} {a b : α} (h : search next accept n a = some b) (hnm : n ≤ m) :
    search next accept m a = some b := by
  obtain ⟨k, hk, hb⟩ := search_eq_some.mp h
  exact search_eq_some.mpr ⟨k, hk.trans_le hnm, hb⟩

/-- Searches that find something find the same. -/
theorem search_unique {n m : ℕ} {a b c : α} (hb : search next accept n a = some b)
    (hc : search next accept m a = some c) : b = c := by
  rcases Nat.le_total n m with hnm | hmn
  · exact Option.some.inj ((search_mono hb hnm).symm.trans hc)
  · exact Option.some.inj (hb.symm.trans (search_mono hc hmn))

/-- Where the orbit meets itself, the loop between the two times can be left out. -/
theorem iterate_skip {a : α} {i j k : ℕ} (hij : i < j) (hjk : j ≤ k)
    (h : next^[i + 1] a = next^[j + 1] a) :
    next^[k - (j - i) + 1] a = next^[k + 1] a := by
  have hshort : k - (j - i) + 1 = (k - j) + (i + 1) := by omega
  have hlong : k + 1 = (k - j) + (j + 1) := by omega
  rw [hshort, hlong, Function.iterate_add_apply next (k - j), h,
    ← Function.iterate_add_apply]

/-- Every value of the orbit is met within as many steps as the type has values. -/
theorem orbit_within_card [Fintype α] (a : α) (k : ℕ) :
    ∃ j < Fintype.card α, next^[j + 1] a = next^[k + 1] a := by
  induction k using Nat.strong_induction_on with
  | _ k ih =>
      by_cases hk : k < Fintype.card α
      · exact ⟨k, hk, rfl⟩
      · -- two of the first `k + 1` values agree, so an earlier time gives the same value
        have hcard : Fintype.card α < Fintype.card (Fin (k + 1)) := by
          rw [Fintype.card_fin]
          omega
        obtain ⟨x, y, hne, hxy⟩ := Fintype.exists_ne_map_eq_of_card_lt
          (fun i : Fin (k + 1) => next^[i + 1] a) hcard
        wlog hlt : x < y generalizing x y
        · exact this y x hne.symm hxy.symm (lt_of_le_of_ne (not_lt.mp hlt) hne.symm)
        have hx : x.1 < y.1 := hlt
        have hy : y.1 ≤ k := Nat.lt_succ_iff.mp y.2
        obtain ⟨j, hj, heq⟩ := ih (k - (y.1 - x.1)) (by omega)
        exact ⟨j, hj, heq.trans (iterate_skip hx hy hxy)⟩

/-- A search of that length fails only if no value of the orbit is accepted. -/
theorem search_card_eq_none [Fintype α] {a : α} :
    search next accept (Fintype.card α) a = none ↔
      ∀ k, accept (next^[k + 1] a) = false := by
  rw [search_eq_none]
  constructor
  · intro h k
    obtain ⟨j, hj, heq⟩ := @orbit_within_card _ next _ a k
    exact heq ▸ h j hj
  · exact fun h k _ => h k

end OrbitSearch
