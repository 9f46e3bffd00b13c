import Mathlib.Logic.Function.Iterate
import Mathlib.Tactic.Common

/-!
# A counter that turns round

The counter runs from one to `m` and then starts again at one. From any value
up to `m` each of these numbers is met exactly once among the next `m` values.
-/

namespace CyclicCounter

/-- The value after `c`. -/
def next (m c : ℕ) : ℕ := if m < c + 1 then 1 else c + 1

/-- How many steps lead from `c` to the next visit of `i`. -/
def distance (m c i : ℕ) : ℕ := if c < i then i - c else i + m - c

variable {m c i k : ℕ}

/-- The value after `k + 1` steps. -/
theorem iterate_next (hm : 1 ≤ m) (hc : c ≤ m) (k : ℕ) :
    (next m)^[k + 1] c = (c + k) % m + 1 := by
  induction k with
  | zero =>
      rcases Nat.lt_or_eq_of_le hc with hlt | rfl
      · simp [next, Nat.mod_eq_of_lt hlt, Nat.not_lt.mpr hlt]
      · simp [next]
  | succ k ih =>
      rw [Function.iterate_succ_apply', ih, ← Nat.add_assoc]
      have hlt : (c + k) % m < m := Nat.mod_lt _ hm
      rw [← Nat.mod_add_mod (c + k) m 1]
      by_cases hlast : (c + k) % m + 1 = m
      · simp [next, hlast]
      · have hroom : (c + k) % m + 1 < m := by omega
        rw [next, if_neg (by omega), Nat.mod_eq_of_lt hroom]

/-- The values stay in range. -/
theorem iterate_mem (hm : 1 ≤ m) (hc : c ≤ m) (k : ℕ) :
    1 ≤ (next m)^[k + 1] c ∧ (next m)^[k + 1] c ≤ m := by
  rw [iterate_next hm hc]
  exact ⟨Nat.le_add_left .., Nat.mod_lt _ hm⟩

theorem distance_pos (hi : 1 ≤ i) (hc : c ≤ m) : 1 ≤ distance m c i := by
  unfold distance
  split <;> omega

theorem distance_le (hi : i ≤ m) : distance m c i ≤ m := by
  unfold distance
  split <;> omega

/-- After the distance to `i` the counter is at `i`. -/
theorem iterate_distance (hi : 1 ≤ i) (him : i ≤ m) (hc : c ≤ m) :
    (next m)^[distance m c i] c = i := by
  obtain ⟨k, hk⟩ := Nat.exists_eq_add_of_le' (distance_pos hi hc)
  rw [hk, iterate_next (Nat.le_trans hi him) hc]
  unfold distance at hk
  split at hk
  · have hsum : c + k = i - 1 := by omega
    rw [hsum, Nat.mod_eq_of_lt (by omega)]
    omega
  · have hsum : c + k = i - 1 + m := by omega
    rw [hsum, Nat.add_mod_right, Nat.mod_eq_of_lt (by omega)]
    omega

/-- Within one turn a value is met at its distance only. -/
theorem distance_iterate (hc : c ≤ m) (hk : k < m) :
    distance m c ((next m)^[k + 1] c) = k + 1 := by
  rw [iterate_next (by omega) hc, distance]
  by_cases hturn : c + k < m
  · rw [Nat.mod_eq_of_lt hturn, if_pos (by omega)]
    omega
  · rw [Nat.mod_eq_sub_mod (by omega), Nat.mod_eq_of_lt (by omega), if_neg (by omega)]
    omega

end CyclicCounter
