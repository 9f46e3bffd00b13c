import TdRevent.TimerIndex
import TdRevent.Collections.CyclicCounter

/-!
# The search for a timer id

The cursor of `calcNewId` is a counter that runs from one to `timeMaxId`
and starts again, unless `timeMaxId` is the largest `u32`. The loop ends if
and only if some id of that range is free, and it ends at the free id that is
nearest to the cursor.

## Implementation notes

`calcNewIdLoop` follows the loop of the source round by round and gives up
after a number of rounds. The loop of the source ends if some number of rounds
is enough.
-/

namespace TdRevent

namespace Timer

variable {S δ : Type} {t u : Timer S δ} {id : UInt32}

/-- The first rounds of the loop in `calcNewId`. -/
def calcNewIdLoop : ℕ → Timer S δ → Option (UInt32 × Timer S δ)
  | 0, _ => none
  | rounds + 1, t =>
      let t := { t with timeId := t.timeId + 1 }
      let t := if t.timeId > t.timeMaxId then { t with timeId := 1 } else t
      if (t.timeMaps t.timeId).isSome then t.calcNewIdLoop rounds
      else some (t.timeId, t)

/-- The loop is the search along the orbit of the cursor. -/
theorem calcNewIdLoop_eq_search (n : ℕ) (t : Timer S δ) :
    t.calcNewIdLoop n =
      (OrbitSearch.search t.nextId t.isFree n t.timeId).map fun id =>
        (id, { t with timeId := id }) := by
  induction n generalizing t with
  | zero => rfl
  | succ n ih =>
      have hround : (if t.timeId + 1 > t.timeMaxId then
            { { t with timeId := t.timeId + 1 } with timeId := 1 }
          else { t with timeId := t.timeId + 1 } : Timer S δ) =
          { t with timeId := t.nextId t.timeId } := by
        unfold nextId
        split <;> rfl
      simp only [calcNewIdLoop, hround, OrbitSearch.search]
      cases hfree : t.timeMaps (t.nextId t.timeId) with
      | none => simp [isFree, hfree]
      | some tick =>
          simp only [Option.isSome_some, if_true, isFree, hfree, Option.isNone_some,
            Bool.false_eq_true, if_false]
          exact ih { t with timeId := t.nextId t.timeId }

/-- The rounds after which the loop ends, and what it returns then. -/
theorem calcNewIdLoop_eq_some {n : ℕ} :
    t.calcNewIdLoop n = some (id, u) ↔
      u = { t with timeId := id } ∧
        ∃ k < n, t.nextId^[k + 1] t.timeId = id ∧ t.timeMaps id = none ∧
          ∀ j < k, (t.timeMaps (t.nextId^[j + 1] t.timeId)).isSome := by
  have htaken : ∀ i, t.isFree i = false ↔ (t.timeMaps i).isSome := by simp [isFree]
  rw [calcNewIdLoop_eq_search, Option.map_eq_some_iff]
  constructor
  · rintro ⟨id', hid, heq⟩
    obtain ⟨rfl, rfl⟩ := Prod.mk.inj heq
    obtain ⟨k, hk, hiter, hfree, hmin⟩ := OrbitSearch.search_eq_some.mp hid
    exact ⟨rfl, k, hk, hiter, Option.isNone_iff_eq_none.mp hfree,
      fun j hj => (htaken _).mp (hmin j hj)⟩
  · rintro ⟨rfl, k, hk, hiter, hfree, hmin⟩
    exact ⟨id, OrbitSearch.search_eq_some.mpr ⟨k, hk, hiter, Option.isNone_iff_eq_none.mpr hfree,
      fun j hj => (htaken _).mpr (hmin j hj)⟩, rfl⟩

/-- `calcNewId` returns what the loop returns after any number of rounds. -/
theorem calcNewId_eq_some_iff :
    t.calcNewId = some (id, u) ↔ ∃ n, t.calcNewIdLoop n = some (id, u) := by
  refine ⟨fun h => ⟨UInt32.size, (calcNewIdLoop_eq_search _ t).trans h⟩, ?_⟩
  rintro ⟨n, hn⟩
  cases hcalc : t.calcNewId with
  | none =>
      obtain ⟨-, k, -, hiter, hfree, -⟩ := calcNewIdLoop_eq_some.mp hn
      have htaken := calcNewId_eq_none.mp hcalc k
      rw [hiter, hfree] at htaken
      cases htaken
  | some r =>
      rw [calcNewIdLoop_eq_search] at hn
      obtain ⟨id', hid, heq⟩ := Option.map_eq_some_iff.mp hn
      obtain ⟨id'', hid', rfl⟩ := Option.map_eq_some_iff.mp hcalc
      rw [← heq, OrbitSearch.search_unique hid hid']

/-! ## The range of the cursor -/

/-- The number of rounds that take the cursor to the id, if every other id is taken. -/
def roundsTo (t : Timer S δ) (id : UInt32) : ℕ :=
  CyclicCounter.distance t.timeMaxId.toNat t.timeId.toNat id.toNat

/-- The ids that the cursor runs through. -/
def InRange (t : Timer S δ) (id : UInt32) : Prop := 1 ≤ id ∧ id ≤ t.timeMaxId

instance (t : Timer S δ) (id : UInt32) : Decidable (t.InRange id) :=
  inferInstanceAs (Decidable (_ ∧ _))

/-- Below the largest `u32` the cursor is the counter of the library. -/
theorem toNat_nextId (hlt : t.timeMaxId < 4294967295) {c : UInt32} (hc : c ≤ t.timeMaxId) :
    (t.nextId c).toNat = CyclicCounter.next t.timeMaxId.toNat c.toNat := by
  have hbound : t.timeMaxId.toNat < 4294967295 := UInt32.lt_iff_toNat_lt.mp hlt
  have hle : c.toNat ≤ t.timeMaxId.toNat := UInt32.le_iff_toNat_le.mp hc
  have hsucc : (c + 1).toNat = c.toNat + 1 := by
    rw [UInt32.toNat_add]
    exact Nat.mod_eq_of_lt (by simp; omega)
  unfold nextId CyclicCounter.next
  simp only [gt_iff_lt, UInt32.lt_iff_toNat_lt, hsucc]
  split
  · rfl
  · exact hsucc

section

variable (hmax : 1 ≤ t.timeMaxId) (hlt : t.timeMaxId < 4294967295)
  (hcursor : t.timeId ≤ t.timeMaxId)
include hmax hlt hcursor

theorem toNat_iterate_nextId (k : ℕ) :
    (t.nextId^[k] t.timeId).toNat =
      (CyclicCounter.next t.timeMaxId.toNat)^[k] t.timeId.toNat := by
  have hone : 1 ≤ t.timeMaxId.toNat := UInt32.le_iff_toNat_le.mp hmax
  have hle : t.timeId.toNat ≤ t.timeMaxId.toNat := UInt32.le_iff_toNat_le.mp hcursor
  induction k with
  | zero => rfl
  | succ k ih =>
      have hrange : t.nextId^[k] t.timeId ≤ t.timeMaxId := by
        rw [UInt32.le_iff_toNat_le, ih]
        cases k with
        | zero => exact hle
        | succ k => exact (CyclicCounter.iterate_mem hone hle k).2
      rw [Function.iterate_succ_apply', Function.iterate_succ_apply',
        toNat_nextId hlt hrange, ih]

theorem iterate_nextId_inRange (k : ℕ) : t.InRange (t.nextId^[k + 1] t.timeId) := by
  have hmem := CyclicCounter.iterate_mem (UInt32.le_iff_toNat_le.mp hmax)
    (UInt32.le_iff_toNat_le.mp hcursor) k
  rw [← toNat_iterate_nextId hmax hlt hcursor] at hmem
  exact ⟨UInt32.le_iff_toNat_le.mpr hmem.1, UInt32.le_iff_toNat_le.mpr hmem.2⟩

/-- The cursor comes to every id of the range within one turn. -/
theorem exists_roundsTo (hid : t.InRange id) :
    ∃ k < t.timeMaxId.toNat, t.roundsTo id = k + 1 ∧ t.nextId^[k + 1] t.timeId = id := by
  have hpos : 1 ≤ t.roundsTo id := CyclicCounter.distance_pos (UInt32.le_iff_toNat_le.mp hid.1)
    (UInt32.le_iff_toNat_le.mp hcursor)
  have hle : t.roundsTo id ≤ t.timeMaxId.toNat :=
    CyclicCounter.distance_le (UInt32.le_iff_toNat_le.mp hid.2)
  obtain ⟨k, hk⟩ := Nat.exists_eq_add_of_le' hpos
  refine ⟨k, by omega, hk, UInt32.toNat_inj.mp ?_⟩
  rw [toNat_iterate_nextId hmax hlt hcursor, ← hk]
  exact CyclicCounter.iterate_distance (UInt32.le_iff_toNat_le.mp hid.1)
    (UInt32.le_iff_toNat_le.mp hid.2) (UInt32.le_iff_toNat_le.mp hcursor)

theorem roundsTo_iterate {k : ℕ} (hk : k < t.timeMaxId.toNat) :
    t.roundsTo (t.nextId^[k + 1] t.timeId) = k + 1 := by
  rw [roundsTo, toNat_iterate_nextId hmax hlt hcursor]
  exact CyclicCounter.distance_iterate (UInt32.le_iff_toNat_le.mp hcursor) hk

/-- The loop ends if and only if an id of the range is free. -/
theorem calcNewIdLoop_ends_iff :
    (∃ n, (t.calcNewIdLoop n).isSome) ↔ ∃ id, t.InRange id ∧ t.timeMaps id = none := by
  constructor
  · rintro ⟨n, hn⟩
    obtain ⟨⟨id, u⟩, hloop⟩ := Option.isSome_iff_exists.mp hn
    obtain ⟨-, k, -, hiter, hfree, -⟩ := calcNewIdLoop_eq_some.mp hloop
    exact ⟨id, hiter ▸ iterate_nextId_inRange hmax hlt hcursor k, hfree⟩
  · rintro ⟨id, hid, hfree⟩
    obtain ⟨k, -, -, hiter⟩ := exists_roundsTo hmax hlt hcursor hid
    cases hcalc : t.calcNewId with
    | none =>
        have htaken := calcNewId_eq_none.mp hcalc k
        rw [hiter, hfree] at htaken
        cases htaken
    | some r =>
        obtain ⟨n, hn⟩ := calcNewId_eq_some_iff.mp hcalc
        exact ⟨n, hn ▸ rfl⟩

end

/-- The loop of `calcNewId` ends if and only if an id of the range is free.
It ends within one turn, at the free id that the cursor comes to first, and
changes nothing but the cursor. -/
theorem calcNewId_nearest (t : Timer S δ) (hmax : 1 ≤ t.timeMaxId)
    (hlt : t.timeMaxId < 4294967295) (hcursor : t.timeId ≤ t.timeMaxId) :
    ((∃ n, (t.calcNewIdLoop n).isSome) ↔ ∃ id, t.InRange id ∧ t.timeMaps id = none) ∧
    ∀ n id u, t.calcNewIdLoop n = some (id, u) →
      t.calcNewId = some (id, u) ∧
      t.calcNewIdLoop t.timeMaxId.toNat = some (id, u) ∧
      u = { t with timeId := id } ∧
      t.InRange id ∧ t.timeMaps id = none ∧
      ∀ id', t.InRange id' → t.timeMaps id' = none → id' ≠ id →
        t.roundsTo id < t.roundsTo id' := by
  refine ⟨calcNewIdLoop_ends_iff hmax hlt hcursor, fun n id u hloop => ?_⟩
  obtain ⟨rfl, k, -, hiter, hfree, hmin⟩ := calcNewIdLoop_eq_some.mp hloop
  have hfirst : ∀ j, t.timeMaps (t.nextId^[j + 1] t.timeId) = none → k ≤ j := by
    intro j hj
    by_contra hlt
    have htaken := hmin j (by omega)
    rw [hj] at htaken
    cases htaken
  have hrange : t.InRange id := hiter ▸ iterate_nextId_inRange hmax hlt hcursor k
  obtain ⟨m, hm, -, hvisit⟩ := exists_roundsTo hmax hlt hcursor hrange
  have hk : k < t.timeMaxId.toNat := (hfirst m (hvisit ▸ hfree)).trans_lt hm
  have hrounds : t.roundsTo id = k + 1 := hiter ▸ roundsTo_iterate hmax hlt hcursor hk
  refine ⟨calcNewId_eq_some_iff.mpr ⟨n, hloop⟩,
    calcNewIdLoop_eq_some.mpr ⟨rfl, k, hk, hiter, hfree, hmin⟩, rfl, hrange, hfree, ?_⟩
  intro id' hid' hfree' hne
  obtain ⟨j, -, hj, hiter'⟩ := exists_roundsTo hmax hlt hcursor hid'
  have hle := hfirst j (hiter' ▸ hfree')
  have hkj : k ≠ j := fun h => hne (hiter'.symm.trans (h ▸ hiter))
  rw [hrounds, hj]
  omega

/-- Three ids, of which the cursor passes over the taken one. -/
theorem calcNewId_nearest_three :
    let t : Timer Int32 Unit :=
      { (Timer.new 3 : Timer Int32 Unit) with
        timeId := 2, timeMaps := fun id => if id = 3 then some 5 else none }
    t.calcNewIdLoop 3 = some (1, { t with timeId := 1 }) ∧ t.roundsTo 1 < t.roundsTo 2 := by
  intro t
  have h := (calcNewId_nearest t (by decide) (by decide) (by decide)).2 3 1
    { t with timeId := 1 } rfl
  exact ⟨h.2.1, h.2.2.2.2.2 2 (by decide) rfl (by decide)⟩

end Timer

end TdRevent
