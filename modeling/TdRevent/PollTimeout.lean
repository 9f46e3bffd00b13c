import Mathlib.Data.UInt
import Mathlib.Tactic.Common

/-!
# The timeout of a poll

Each backend turns `io_poll_timeout_ms` into the wait that it asks of the
operating system. On Unix it is clamped as a signed number, so a timeout beyond
`isize::MAX` is negative and is not clamped at all. On Windows it is clamped to
the largest `u32`, which means no timeout.

## Implementation notes

`usize`, `u64` and `isize` have 64 bits, and so have `time_t` and `c_long`.
-/

namespace TdRevent

namespace Unix

/-- The clamp of both `doSelect` functions. -/
def timeoutMs (timeout : UInt64) : Int64 :=
  if timeout.toInt64 ≥ Int64.maxValue then Int64.maxValue else timeout.toInt64

namespace Kqueue

structure Timespec where
  tvSec : Int64
  tvNsec : Int64
  deriving DecidableEq

/-- The wait that is passed to `keventTs`. -/
def timespec (timeoutMs : Int64) : Timespec where
  tvSec := timeoutMs / 1000
  tvNsec := timeoutMs % 1000 * 1000000

/-- The wait is valid and denotes that many milliseconds. -/
def Timespec.Denotes (ts : Timespec) (ms : ℕ) : Prop :=
  0 ≤ ts.tvSec.toInt ∧ 0 ≤ ts.tvNsec.toInt ∧ ts.tvNsec.toInt < 1000000000 ∧
    ts.tvSec.toInt * 1000000000 + ts.tvNsec.toInt = ms * 1000000

end Kqueue

theorem toInt_toInt64 (n : UInt64) :
    n.toInt64.toInt = if n.toNat < 2 ^ 63 then (n.toNat : ℤ) else n.toNat - 2 ^ 64 := by
  change n.toBitVec.toInt = _
  rw [BitVec.toInt_eq_toNat_cond]
  change (if 2 * n.toNat < 2 ^ 64 then (n.toNat : ℤ) else n.toNat - ((2 ^ 64 : ℕ) : ℤ)) = _
  split_ifs <;> omega

/-- The clamp leaves every number as it is, read with a sign. -/
theorem toInt_timeoutMs (timeout : UInt64) :
    (timeoutMs timeout).toInt =
      if timeout.toNat < 2 ^ 63 then (timeout.toNat : ℤ) else timeout.toNat - 2 ^ 64 := by
  rw [← toInt_toInt64]
  unfold timeoutMs
  split
  · rename_i hge
    have hlt := Int64.toInt_lt timeout.toInt64
    have hle := Int64.le_iff_toInt_le.mp hge
    rw [Int64.toInt_maxValue] at hle ⊢
    omega
  · rfl

theorem toInt_timespec (t : Int64) :
    (Kqueue.timespec t).tvSec.toInt = t.toInt.tdiv 1000 ∧
      (Kqueue.timespec t).tvNsec.toInt = t.toInt.tmod 1000 * 1000000 := by
  constructor
  · exact Int64.toInt_div_of_ne_right t 1000 (by decide)
  · have hlow := Int.lt_tmod_of_pos t.toInt (b := 1000) (by decide)
    have hhigh := Int.tmod_lt_of_pos t.toInt (b := 1000) (by decide)
    change (t % 1000 * 1000000).toInt = _
    rw [Int64.toInt_mul, Int64.toInt_mod]
    change (t.toInt.tmod 1000 * 1000000).bmod (2 ^ 64) = _
    exact Int.bmod_eq_of_le (by omega) (by omega)

/-- The wait on kqueue denotes the clamped timeout, unless that is negative. -/
theorem denotes_timespec_iff (t : Int64) (ms : ℕ) :
    (Kqueue.timespec t).Denotes ms ↔ t.toInt = ms := by
  obtain ⟨hsec, hnsec⟩ := toInt_timespec t
  have hlow := Int.lt_tmod_of_pos t.toInt (b := 1000) (by decide)
  have hhigh := Int.tmod_lt_of_pos t.toInt (b := 1000) (by decide)
  have hsum := Int.tmod_add_tdiv_mul t.toInt 1000
  rw [Kqueue.Timespec.Denotes, hsec, hnsec]
  constructor
  · rintro ⟨-, -, -, heq⟩
    omega
  · intro heq
    have hpos : 0 ≤ t.toInt.tmod 1000 := Int.tmod_nonneg _ (by omega)
    refine ⟨?_, by omega, by omega, by omega⟩
    omega

/-- Up to `isize::MAX` the timeout is what the system is asked for, and beyond
it is not. -/
theorem timeoutMs_eq_iff (timeout : UInt64) :
    (timeoutMs timeout).toInt = ((min timeout.toNat (2 ^ 63 - 1) : ℕ) : ℤ) ↔
      timeout.toNat ≤ 2 ^ 63 - 1 := by
  have hbound := timeout.toNat_lt
  rw [toInt_timeoutMs]
  split_ifs <;> omega

end Unix

namespace Win

/-- `std::time::Duration`. -/
structure Duration where
  secs : UInt64
  nanos : UInt32
  nanos_lt : nanos.toNat < 1000000000

namespace Duration

/-- The whole milliseconds of the duration. -/
def millis (d : Duration) : ℕ := d.secs.toNat * 1000 + d.nanos.toNat / 1000000

theorem toNat_fromMillis_nanos (millis : UInt64) :
    ((millis % 1000).toUInt32 * 1000000).toNat = millis.toNat % 1000 * 1000000 := by
  have hrest : (millis % 1000).toUInt32.toNat = millis.toNat % 1000 := by
    rw [UInt64.toNat_toUInt32, UInt64.toNat_mod]
    exact Nat.mod_eq_of_lt ((Nat.mod_lt _ (by decide)).trans (by decide))
  rw [UInt32.toNat_mul, hrest]
  refine Nat.mod_eq_of_lt ?_
  change millis.toNat % 1000 * 1000000 < 4294967296
  omega

def fromMillis (millis : UInt64) : Duration where
  secs := millis / 1000
  nanos := (millis % 1000).toUInt32 * 1000000
  nanos_lt := by
    rw [toNat_fromMillis_nanos]
    omega

@[simp] theorem millis_fromMillis (n : UInt64) : (fromMillis n).millis = n.toNat := by
  have hsecs : (n / 1000).toNat = n.toNat / 1000 := UInt64.toNat_div ..
  rw [millis, fromMillis, toNat_fromMillis_nanos, hsecs]
  omega

end Duration

/-- No timeout. -/
def INFINITE : UInt32 := 4294967295

def checkedMul (a b : UInt64) : Option UInt64 :=
  if a.toNat * b.toNat < UInt64.size then some (a * b) else none

def checkedAdd (a b : UInt64) : Option UInt64 :=
  if a.toNat + b.toNat < UInt64.size then some (a + b) else none

/-- The milliseconds that the completion port is asked to wait. -/
def dur2ms (dur : Option Duration) : UInt32 :=
  match dur with
  | none => INFINITE
  | some dur =>
      let ms := checkedMul dur.secs 1000
      let msExtra := dur.nanos / 1000000
      ((ms.bind fun ms => checkedAdd ms msExtra.toUInt64).map fun ms =>
        (min 4294967295 ms).toUInt32).getD (INFINITE - 1)

theorem checkedMul_cases (a b : UInt64) :
    (∃ c, checkedMul a b = some c ∧ c.toNat = a.toNat * b.toNat) ∨
      checkedMul a b = none ∧ UInt64.size ≤ a.toNat * b.toNat := by
  unfold checkedMul
  split
  · exact Or.inl ⟨_, rfl, (UInt64.toNat_mul ..).trans (Nat.mod_eq_of_lt ‹_›)⟩
  · exact Or.inr ⟨rfl, Nat.not_lt.mp ‹_›⟩

theorem checkedAdd_cases (a b : UInt64) :
    (∃ c, checkedAdd a b = some c ∧ c.toNat = a.toNat + b.toNat) ∨
      checkedAdd a b = none ∧ UInt64.size ≤ a.toNat + b.toNat := by
  unfold checkedAdd
  split
  · exact Or.inl ⟨_, rfl, (UInt64.toNat_add ..).trans (Nat.mod_eq_of_lt ‹_›)⟩
  · exact Or.inr ⟨rfl, Nat.not_lt.mp ‹_›⟩

theorem toNat_min_max_value (ms : UInt64) :
    (min 4294967295 ms).toUInt32.toNat = min 4294967295 ms.toNat := by
  have hmin : (min 4294967295 ms).toNat = min 4294967295 ms.toNat := by
    change (if 4294967295 ≤ ms then 4294967295 else ms).toNat = _
    split
    · rename_i h
      exact (Nat.min_eq_left (UInt64.le_iff_toNat_le.mp h)).symm
    · rename_i h
      exact (Nat.min_eq_right (UInt64.le_iff_toNat_le.mp (UInt64.le_of_lt
        (UInt64.not_le.mp h)))).symm
  rw [UInt64.toNat_toUInt32, hmin]
  exact Nat.mod_eq_of_lt (by omega)

/-- A duration of more milliseconds than an `u64` holds is cut to the longest
wait, any other to the largest `u32`. -/
theorem toNat_dur2ms (d : Duration) :
    (dur2ms (some d)).toNat =
      if d.millis < UInt64.size then min 4294967295 d.millis else 4294967294 := by
  have hextra : (d.nanos / 1000000).toUInt64.toNat = d.nanos.toNat / 1000000 := UInt32.toNat_div ..
  have hthousand : (1000 : UInt64).toNat = 1000 := rfl
  simp only [dur2ms]
  rcases checkedMul_cases d.secs 1000 with ⟨ms, hmul, hms⟩ | ⟨hmul, hsize⟩
  · rcases checkedAdd_cases ms (d.nanos / 1000000).toUInt64 with
      ⟨total, hadd, htotal⟩ | ⟨hadd, hsize⟩
    · have hmillis : total.toNat = d.millis := by
        rw [htotal, hms, hextra, hthousand, Duration.millis]
      rw [hmul, Option.bind_some, hadd, Option.map_some, Option.getD_some, toNat_min_max_value,
        hmillis, if_pos (hmillis ▸ total.toNat_lt)]
    · have hover : ¬ d.millis < UInt64.size := by
        rw [hms, hextra, hthousand] at hsize
        exact Nat.not_lt.mpr hsize
      rw [hmul, Option.bind_some, hadd, if_neg hover]
      rfl
  · have hover : ¬ d.millis < UInt64.size := by
      rw [hthousand] at hsize
      exact Nat.not_lt.mpr (Nat.le_add_right_of_le hsize)
    rw [hmul, if_neg hover]
    rfl

/-- The wait is the duration or the longest one that ends, unless the duration
lies between that and the largest `u64`. There it has no end. -/
theorem dur2ms_eq_iff (d : Duration) :
    ((dur2ms (some d)).toNat = min d.millis (INFINITE.toNat - 1) ↔
      d.millis < INFINITE.toNat ∨ UInt64.size ≤ d.millis) ∧
    (dur2ms (some d) = INFINITE ↔ ¬ (d.millis < INFINITE.toNat ∨ UInt64.size ≤ d.millis)) := by
  have hinfinite : INFINITE.toNat = 4294967295 := rfl
  have hsize : UInt64.size = 18446744073709551616 := rfl
  rw [← UInt32.toNat_inj, toNat_dur2ms, hinfinite, hsize]
  constructor <;> split_ifs <;> omega

/-- The wait of `doSelect`, in milliseconds. -/
def pollWait (timeout : UInt64) : UInt32 := dur2ms (some (.fromMillis timeout))

end Win

/-- Each backend asks for the wait that it should in exactly these cases. On
Unix the timeout fits in an `isize`. On Windows its milliseconds are below the
largest `u32`, or beyond the largest `u64`. -/
theorem poll_waits (timeout : UInt64) (d : Win.Duration) :
    ((Unix.timeoutMs timeout).toInt = ((min timeout.toNat (2 ^ 63 - 1) : ℕ) : ℤ) ↔
      timeout.toNat ≤ 2 ^ 63 - 1) ∧
    (0 ≤ (Unix.timeoutMs timeout).toInt ↔ timeout.toNat ≤ 2 ^ 63 - 1) ∧
    ((Unix.Kqueue.timespec (Unix.timeoutMs timeout)).Denotes (min timeout.toNat (2 ^ 63 - 1)) ↔
      timeout.toNat ≤ 2 ^ 63 - 1) ∧
    ((Win.dur2ms (some d)).toNat = min d.millis (Win.INFINITE.toNat - 1) ↔
      d.millis < Win.INFINITE.toNat ∨ UInt64.size ≤ d.millis) ∧
    (Win.dur2ms (some d) = Win.INFINITE ↔
      ¬ (d.millis < Win.INFINITE.toNat ∨ UInt64.size ≤ d.millis)) ∧
    Win.dur2ms none = Win.INFINITE ∧
    ((Win.pollWait timeout).toNat = min timeout.toNat (Win.INFINITE.toNat - 1) ↔
      timeout.toNat < Win.INFINITE.toNat) := by
  have hclamp := Unix.timeoutMs_eq_iff timeout
  have hpoll := (Win.dur2ms_eq_iff (.fromMillis timeout)).1
  have hbound := timeout.toNat_lt
  refine ⟨hclamp, ?_, ?_, (Win.dur2ms_eq_iff d).1, (Win.dur2ms_eq_iff d).2, rfl, ?_⟩
  · rw [Unix.toInt_timeoutMs]
    split_ifs <;> omega
  · rw [Unix.denotes_timespec_iff]
    exact hclamp
  · rw [Win.Duration.millis_fromMillis] at hpoll
    exact hpoll.trans (or_iff_left (Nat.not_le.mpr hbound))

/-- The timeout `2 ^ 63` is negative on Unix, and some seven weeks are endless
on Windows. -/
theorem poll_waits_wrong :
    Unix.timeoutMs 9223372036854775808 = Int64.minValue ∧
      (Unix.Kqueue.timespec (Unix.timeoutMs 9223372036854775808)).tvSec < 0 ∧
      Win.dur2ms (some (.fromMillis 4294967295)) = Win.INFINITE := by
  decide

end TdRevent
