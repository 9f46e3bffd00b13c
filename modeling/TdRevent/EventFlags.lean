import Mathlib.Data.Finset.Basic
import Mathlib.Data.Finset.Insert
import Mathlib.Data.Fintype.Basic

/-!
# Event flags

The bit set of the source is the set of its flags. Every constant of the
source has one bit, and no bit is outside the constants.
-/

namespace TdRevent

/-- The bits of `EventFlags`. -/
inductive Flag
  | TIMEOUT | READ | WRITE | PERSIST | ERROR | ACCEPT | ENDED | READ_PERSIST | WRITE_PERSIST
  deriving DecidableEq, Repr

instance : Fintype Flag where
  elems := {.TIMEOUT, .READ, .WRITE, .PERSIST, .ERROR, .ACCEPT, .ENDED, .READ_PERSIST,
    .WRITE_PERSIST}
  complete f := by cases f <;> decide

/-- A set of event flags. -/
abbrev EventFlags := Finset Flag

namespace EventFlags

def FLAG_TIMEOUT : EventFlags := {Flag.TIMEOUT}
def FLAG_READ : EventFlags := {Flag.READ}
def FLAG_WRITE : EventFlags := {Flag.WRITE}
def FLAG_PERSIST : EventFlags := {Flag.PERSIST}
def FLAG_ERROR : EventFlags := {Flag.ERROR}
def FLAG_ACCEPT : EventFlags := {Flag.ACCEPT}
def FLAG_ENDED : EventFlags := {Flag.ENDED}
def FLAG_READ_PERSIST : EventFlags := {Flag.READ_PERSIST}
def FLAG_WRITE_PERSIST : EventFlags := {Flag.WRITE_PERSIST}

/-- Every flag. -/
def all : EventFlags := Finset.univ

/-- Every flag of the second set is in the first. -/
def contains (self other : EventFlags) : Prop := other ⊆ self

instance (self other : EventFlags) : Decidable (self.contains other) :=
  inferInstanceAs (Decidable (other ⊆ self))

/-- Set the flags of the second set. -/
def insert (self other : EventFlags) : EventFlags := self ∪ other

/-- Clear the flags of the second set. -/
def remove (self other : EventFlags) : EventFlags := self \ other

variable (self : EventFlags) (f : Flag)

@[simp] theorem contains_READ : self.contains FLAG_READ ↔ Flag.READ ∈ self := by
  simp [contains, FLAG_READ]

@[simp] theorem contains_WRITE : self.contains FLAG_WRITE ↔ Flag.WRITE ∈ self := by
  simp [contains, FLAG_WRITE]

@[simp] theorem contains_ACCEPT : self.contains FLAG_ACCEPT ↔ Flag.ACCEPT ∈ self := by
  simp [contains, FLAG_ACCEPT]

@[simp] theorem contains_PERSIST : self.contains FLAG_PERSIST ↔ Flag.PERSIST ∈ self := by
  simp [contains, FLAG_PERSIST]

@[simp] theorem contains_READ_PERSIST :
    self.contains FLAG_READ_PERSIST ↔ Flag.READ_PERSIST ∈ self := by
  simp [contains, FLAG_READ_PERSIST]

@[simp] theorem contains_ENDED : self.contains FLAG_ENDED ↔ Flag.ENDED ∈ self := by
  simp [contains, FLAG_ENDED]

@[simp] theorem mem_insert (other : EventFlags) :
    f ∈ self.insert other ↔ f ∈ self ∨ f ∈ other := by
  simp [insert]

@[simp] theorem mem_remove (other : EventFlags) :
    f ∈ self.remove other ↔ f ∈ self ∧ f ∉ other := by
  simp [remove]

@[simp] theorem mem_all : f ∈ all := Finset.mem_univ f

@[simp] theorem mem_READ : f ∈ FLAG_READ ↔ f = Flag.READ := by simp [FLAG_READ]

@[simp] theorem mem_WRITE : f ∈ FLAG_WRITE ↔ f = Flag.WRITE := by simp [FLAG_WRITE]

@[simp] theorem mem_ACCEPT : f ∈ FLAG_ACCEPT ↔ f = Flag.ACCEPT := by simp [FLAG_ACCEPT]

end EventFlags

end TdRevent
