import Mathlib.Data.Nat.Notation
import Mathlib.Logic.Function.Basic

/-!
# The owners of the events

An `Event` is freed when its last owner drops it, and its socket is closed then, unless it
was closed before. The map of the selector owns the events that are registered, and a
handler owns the event that it was started for until it returns.

## Implementation notes

A handler holds several clones of its event, which live and die together, so they count
once. The other functions of the selectors clone an event only while no callback runs, and
drop the clones while the map still has the event.
-/

namespace TdRevent

/-- Who holds the events beside the map, and which sockets are still open. -/
structure Owners where
  /-- How many running handlers hold the event. -/
  holds : ℕ → ℕ
  /-- The socket of the event was not closed yet. -/
  isOpen : ℕ → Bool

namespace Owners

/-- No event was made. -/
def new : Owners := ⟨fun _ => 0, fun _ => false⟩

variable (owners : Owners) (id : ℕ)

/-- A new event, which the map takes. -/
def enroll : Owners :=
  ⟨Function.update owners.holds id 0, Function.update owners.isOpen id true⟩

/-- A handler is started for the event. -/
def hold : Owners :=
  { owners with holds := Function.update owners.holds id (owners.holds id + 1) }

/-- The handler returns. -/
def release : Owners :=
  { owners with holds := Function.update owners.holds id (owners.holds id - 1) }

/-- The socket of the event is closed. -/
def shut : Owners := { owners with isOpen := Function.update owners.isOpen id false }

@[simp] theorem enroll_holds_self : (owners.enroll id).holds id = 0 := Function.update_self ..

@[simp] theorem enroll_isOpen_self : (owners.enroll id).isOpen id = true := Function.update_self ..

@[simp] theorem shut_isOpen_self : (owners.shut id).isOpen id = false := Function.update_self ..

variable {id} {id' : ℕ}

theorem enroll_isOpen_of_ne (h : id' ≠ id) : (owners.enroll id).isOpen id' = owners.isOpen id' :=
  Function.update_of_ne h ..

theorem shut_isOpen_of_ne (h : id' ≠ id) : (owners.shut id).isOpen id' = owners.isOpen id' :=
  Function.update_of_ne h ..

end Owners

end TdRevent
