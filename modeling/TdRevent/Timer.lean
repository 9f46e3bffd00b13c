import TdRevent.EventEntry
import TdRevent.Collections.OrderedMap
import TdRevent.Collections.OrbitSearch
import Mathlib.Data.UInt
import Mathlib.Data.Prod.Lex
import Mathlib.Order.Lex

/-!
# The timer queue

Timers are queued by deadline, and an index from the timer id to the deadline
finds them for deletion. A clock reading is a parameter of the function that
takes it.

## Implementation notes

The hash map from `u32` to `u64` is the partial function it stores. The
red-black tree comes from a crate, which is assumed to be an ordered map in which
an insertion under a key that is present replaces the value. It is the ordered map
of the library. The sums are those of a release build: they wrap around.
-/

namespace TdRevent

/-- The key of a queued timer: its deadline and its id. -/
@[ext]
structure TreeKey where
  tick : UInt64
  id : UInt32
  deriving Repr

namespace TreeKey

/-- `Ord::cmp`: earlier deadlines first, and at one deadline larger ids first. -/
def cmp (self other : TreeKey) : Ordering :=
  if self.tick ≠ other.tick then compare self.tick other.tick
  else compare other.id self.id

/-- The key as a pair in lexicographic order. -/
def toLexNat (k : TreeKey) : ℕ ×ₗ ℕᵒᵈ :=
  toLex (k.tick.toNat, OrderDual.toDual k.id.toNat)

theorem toLexNat_injective : Function.Injective toLexNat := by
  intro a b h
  have hp : (a.tick.toNat, OrderDual.toDual a.id.toNat) =
      (b.tick.toNat, OrderDual.toDual b.id.toNat) := h
  have ht : a.tick.toNat = b.tick.toNat := congrArg Prod.fst hp
  have hi : a.id.toNat = b.id.toNat := congrArg Prod.snd hp
  exact TreeKey.ext (UInt64.toNat_inj.mp ht) (UInt32.toNat_inj.mp hi)

instance : LinearOrder TreeKey := LinearOrder.lift' toLexNat toLexNat_injective

theorem lt_iff {a b : TreeKey} :
    a < b ↔ a.tick < b.tick ∨ a.tick = b.tick ∧ b.id < a.id := by
  change toLexNat a < toLexNat b ↔ _
  rw [toLexNat, toLexNat, Prod.Lex.toLex_lt_toLex]
  simp only [OrderDual.toDual_lt_toDual, UInt64.lt_iff_toNat_lt, UInt32.lt_iff_toNat_lt,
    UInt64.toNat_inj]

theorem tick_le_of_le {a b : TreeKey} (h : a ≤ b) : a.tick ≤ b.tick := by
  rcases h.lt_or_eq with h | rfl
  · rcases lt_iff.mp h with h | h
    · exact UInt64.le_of_lt h
    · exact UInt64.le_of_eq h.1
  · exact UInt64.le_refl _

/-- The order of the queue is the one that the source computes. -/
theorem cmp_eq_lt_iff {a b : TreeKey} : a.cmp b = .lt ↔ a < b := by
  rw [lt_iff, cmp]
  by_cases ht : a.tick = b.tick
  · rw [if_neg (not_not.mpr ht)]
    refine compareOfLessAndEq_eq_lt.trans ⟨fun h => Or.inr ⟨ht, h⟩, fun h => ?_⟩
    exact (h.resolve_left (ht ▸ UInt64.lt_irrefl a.tick)).2
  · rw [if_pos ht]
    exact compareOfLessAndEq_eq_lt.trans ⟨Or.inl, fun h => h.resolve_right (fun h => ht h.1)⟩

end TreeKey

/-- The key under which an entry is queued. -/
def EventEntry.key {S δ : Type} (entry : EventEntry S δ) : TreeKey :=
  ⟨entry.tickMs, entry.timeId⟩

/-- The timers of an event loop. -/
@[ext]
structure Timer (S δ : Type) where
  timerQueue : OrderedMap TreeKey (EventEntry S δ)
  timeMaps : UInt32 → Option UInt64
  timeId : UInt32
  timeMaxId : UInt32

namespace Timer

variable {S δ : Type}

def new (timeMaxId : UInt32) : Timer S δ where
  timerQueue := .empty
  timeMaps := fun _ => none
  timeId := 0
  timeMaxId := timeMaxId

/-- The cursor after one round of the loop in `calcNewId`. -/
def nextId (t : Timer S δ) (id : UInt32) : UInt32 :=
  if id + 1 > t.timeMaxId then 1 else id + 1

/-- Whether the loop in `calcNewId` ends at this id. -/
def isFree (t : Timer S δ) (id : UInt32) : Bool := (t.timeMaps id).isNone

/-- The next free id after the cursor. The loop of the source does not end
if there is none. It returns within one turn of the id space or never. -/
def calcNewId (t : Timer S δ) : Option (UInt32 × Timer S δ) :=
  (OrbitSearch.search t.nextId t.isFree UInt32.size t.timeId).map fun id =>
    (id, { t with timeId := id })

/-- The two insertions that end `addTimer` and `addFirstTimer`. -/
def schedule (t : Timer S δ) (entry : EventEntry S δ) : Timer S δ :=
  { t with
    timeMaps := Function.update t.timeMaps entry.timeId (some entry.tickMs)
    timerQueue := t.timerQueue.insert ⟨entry.tickMs, entry.timeId⟩ entry }

/-- Queue an entry one step after the clock reading `now`. `none` stands for
the endless loop of `calcNewId`. -/
def addTimer (t : Timer S δ) (now : UInt64) (entry : EventEntry S δ) :
    Option (UInt32 × Timer S δ) :=
  if entry.tickStep = 0 then some (0, t)
  else
    (if entry.timeId = 0 then t.calcNewId else some (entry.timeId, t)).map
      fun (timeId, t) =>
        let entry := { entry with timeId := timeId, tickMs := now + entry.tickStep }
        (timeId, t.schedule entry)

/-- Queue an entry at the deadline it has. -/
def addFirstTimer (t : Timer S δ) (entry : EventEntry S δ) : Option (UInt32 × Timer S δ) :=
  t.calcNewId.map fun (timeId, t) =>
    (timeId, t.schedule { entry with timeId := timeId })

def delTimer (t : Timer S δ) (timeId : UInt32) : Option (EventEntry S δ) × Timer S δ :=
  match t.timeMaps timeId with
  | none => (none, t)
  | some tick =>
      (t.timerQueue.find ⟨tick, timeId⟩,
        { t with
          timeMaps := Function.update t.timeMaps timeId none
          timerQueue := t.timerQueue.remove ⟨tick, timeId⟩ })

/-- The earliest deadline. -/
def tickFirst (t : Timer S δ) : Option UInt64 := t.timerQueue.getFirst.map (·.1.tick)

/-- Take out the first timer if its deadline is not after `tm`. -/
def tickTime (t : Timer S δ) (tm : UInt64) : Option (EventEntry S δ) × Timer S δ :=
  if tm < t.tickFirst.getD (tm + 1) then (none, t)
  else
    match t.timerQueue.popFirst with
    | some ((key, entry), queue) =>
        (some entry,
          { t with
            timerQueue := queue
            timeMaps := Function.update t.timeMaps key.id none })
    | none => (none, t)

end Timer

end TdRevent
