import TdRevent.EventEntry
import Mathlib.Data.Set.Basic
import Mathlib.Data.UInt

/-!
# The comparison of entries

Equality looks at the deadlines if the left entry is a timer, and at the
descriptors otherwise. The order looks at the deadlines only, and the hash at
the descriptor only. The three agree on a set of entries exactly if its
deadlines and its descriptors tell the same entries apart.
-/

namespace TdRevent

namespace EventEntry

variable {S δ : Type}

/-- `Ord::cmp`: the later deadline comes first. -/
def cmp (self other : EventEntry S δ) : Ordering := compare other.tickMs self.tickMs

def partialCmp (self other : EventEntry S δ) : Option Ordering :=
  some (compare other.tickMs self.tickMs)

/-- `Hash::hash`, with the state of the hasher. -/
def hash {H : Type} (self : EventEntry S δ) (hashFd : S → H → H) (state : H) : H :=
  hashFd self.evFd state

theorem cmp_eq_iff {a b : EventEntry S δ} : a.cmp b = .eq ↔ a.tickMs = b.tickMs := by
  rw [cmp, Std.compare_eq_iff_eq, eq_comm]

variable [DecidableEq S]

/-- `PartialEq::eq`. -/
def eq (self other : EventEntry S δ) : Bool :=
  if self.evEvents.contains EventFlags.FLAG_TIMEOUT then self.tickMs = other.tickMs
  else self.evFd = other.evFd

/-- The laws of the four traits, for the entries of a set. -/
structure Lawful (X : Set (EventEntry S δ)) : Prop where
  refl : ∀ a ∈ X, a.eq a
  symm : ∀ a ∈ X, ∀ b ∈ X, a.eq b → b.eq a
  trans : ∀ a ∈ X, ∀ b ∈ X, ∀ c ∈ X, a.eq b → b.eq c → a.eq c
  cmp : ∀ a ∈ X, ∀ b ∈ X, a.cmp b = .eq ↔ a.eq b
  partialCmp : ∀ a ∈ X, ∀ b ∈ X, a.partialCmp b = some (a.cmp b)
  hash : ∀ a ∈ X, ∀ b ∈ X, a.eq b →
    ∀ (H : Type) (hashFd : S → H → H) (state : H), a.hash hashFd state = b.hash hashFd state

/-- Two entries of one deadline have one descriptor, and an entry that is no
timer has the deadline of every entry of its descriptor. -/
def Aligned (X : Set (EventEntry S δ)) : Prop :=
  ∀ a ∈ X, ∀ b ∈ X, (a.tickMs = b.tickMs → a.evFd = b.evFd) ∧
    (¬ a.hasFlag EventFlags.FLAG_TIMEOUT → a.evFd = b.evFd → a.tickMs = b.tickMs)

variable {a b : EventEntry S δ} {X : Set (EventEntry S δ)}

theorem eq_of_timer (h : a.hasFlag EventFlags.FLAG_TIMEOUT) :
    a.eq b ↔ a.tickMs = b.tickMs := by
  rw [eq, if_pos (by exact h), decide_eq_true_iff]

theorem eq_of_socket (h : ¬ a.hasFlag EventFlags.FLAG_TIMEOUT) : a.eq b ↔ a.evFd = b.evFd := by
  rw [eq, if_neg (by exact h), decide_eq_true_iff]

/-- In such a set equal entries are those of one deadline. -/
theorem Aligned.eq_iff (h : Aligned X) (ha : a ∈ X) (hb : b ∈ X) :
    a.eq b ↔ a.tickMs = b.tickMs := by
  by_cases hflag : a.hasFlag EventFlags.FLAG_TIMEOUT
  · exact eq_of_timer hflag
  · exact (eq_of_socket hflag).trans ⟨(h a ha b hb).2 hflag, (h a ha b hb).1⟩

/-- The laws hold for exactly the sets in which deadlines and descriptors tell
the same entries apart. -/
theorem lawful_iff (X : Set (EventEntry S δ)) : Lawful X ↔ Aligned X := by
  constructor
  · intro h a ha b hb
    constructor
    · intro htick
      have heq := (h.cmp a ha b hb).mp (cmp_eq_iff.mpr htick)
      by_cases hflag : a.hasFlag EventFlags.FLAG_TIMEOUT
      · by_contra hfd
        -- a hasher that keeps the descriptor tells the two apart
        exact hfd (h.hash a ha b hb heq S (fun fd _ => fd) a.evFd)
      · exact (eq_of_socket hflag).mp heq
    · intro hflag hfd
      exact cmp_eq_iff.mp ((h.cmp a ha b hb).mpr ((eq_of_socket hflag).mpr hfd))
  · intro h
    refine ⟨fun a ha => (h.eq_iff ha ha).mpr rfl, fun a ha b hb hab => ?_,
      fun a ha b hb c hc hab hbc => ?_, fun a ha b hb => ?_, fun _ _ _ _ => rfl,
      fun a ha b hb hab H hashFd state => ?_⟩
    · exact (h.eq_iff hb ha).mpr ((h.eq_iff ha hb).mp hab).symm
    · exact (h.eq_iff ha hc).mpr (((h.eq_iff ha hb).mp hab).trans ((h.eq_iff hb hc).mp hbc))
    · exact cmp_eq_iff.trans (h.eq_iff ha hb).symm
    · exact congrArg (hashFd · state) ((h a ha b hb).1 ((h.eq_iff ha hb).mp hab))

/-- A timer and two sockets, for which every law but reflexivity fails. -/
theorem comparison_unlawful :
    let timer : EventEntry Int32 Unit := .newTimerAt 0 none none
    let socket : EventEntry Int32 Unit := .newEvfd 3 EventFlags.FLAG_READ
    let other : EventEntry Int32 Unit := .newEvfd 4 EventFlags.FLAG_READ
    (timer.eq socket ∧ ¬ socket.eq timer) ∧ (socket.cmp other = .eq ∧ ¬ socket.eq other) ∧
      timer.evFd ≠ socket.evFd ∧ ¬ Lawful (Set.univ : Set (EventEntry Int32 Unit)) := by
  intro timer socket other
  refine ⟨by decide, by decide, by decide, fun h => ?_⟩
  have hsymm := h.symm timer trivial socket trivial (by decide)
  exact absurd hsymm (by decide)

end EventEntry

end TdRevent
