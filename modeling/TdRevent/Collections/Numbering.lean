import Mathlib.Logic.Function.Basic
import Mathlib.Order.Nat

/-!
# Maps to numbers that were given out

A map from keys to numbers, where a new entry gets the next number. Entries may
be replaced and removed, and a number is not given out again.
-/

variable {K : Type}

/-- The numbers in the map were given out. -/
def Numbered (map : K → Option ℕ) (count : ℕ) : Prop := ∀ key n, map key = some n → n < count

namespace Numbered

variable {map : K → Option ℕ} {count : ℕ}

theorem empty : Numbered (fun _ : K => none) count := nofun

variable [DecidableEq K]

theorem insert (h : Numbered map count) (key : K) :
    Numbered (Function.update map key (some count)) (count + 1) := by
  intro key' n hn
  by_cases hkey : key' = key
  · subst hkey
    rw [Function.update_self, Option.some.injEq] at hn
    exact hn ▸ Nat.lt_succ_self _
  · rw [Function.update_of_ne hkey] at hn
    exact Nat.lt_succ_of_lt (h key' n hn)

theorem remove (h : Numbered map count) (key : K) :
    Numbered (Function.update map key none) count := by
  intro key' n hn
  by_cases hkey : key' = key
  · subst hkey
    rw [Function.update_self] at hn
    exact absurd hn nofun
  · rw [Function.update_of_ne hkey] at hn
    exact h key' n hn

end Numbered
