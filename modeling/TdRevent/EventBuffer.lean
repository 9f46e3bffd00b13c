import Mathlib.Data.List.Basic
import Mathlib.Tactic.Common

/-!
# Buffers

A `Buffer` is a vector of bytes with a read and a write position. An
`EventBuffer` holds the two buffers of a socket and the flags of the
operations that are under way.

## Implementation notes

Positions are natural numbers: the sums of the source stay below the range of
`usize`. A socket is known by its descriptor, of the type `S`.
-/

namespace TdRevent

/-- An error of the operating system, or one that the library makes itself. -/
inductive IoError
  | os (code : Int)
  | Other (message : String)
  deriving DecidableEq

structure Buffer where
  val : List UInt8
  rpos : ℕ
  wpos : ℕ
  deriving DecidableEq

namespace Buffer

def new : Buffer := ⟨[], 0, 0⟩

def len (self : Buffer) : ℕ := self.val.length

def empty (self : Buffer) : Bool := self.val.length = 0

def getData (self : Buffer) : List UInt8 := self.val

/-- Remove the first `pos` bytes. -/
def drain (self : Buffer) (pos : ℕ) : Buffer where
  rpos := self.rpos - min self.rpos pos
  wpos := self.wpos - min self.wpos pos
  val := self.val.drop (min self.val.length pos)

/-- Copy the bytes to the write position. The vector grows first, filled with
zeros, if it is too short. -/
def write (self : Buffer) (buf : List UInt8) : Buffer :=
  let val := self.val ++ List.replicate (self.wpos + buf.length - self.val.length) 0
  { self with
    val := val.take self.wpos ++ buf ++ val.drop (self.wpos + buf.length)
    wpos := self.wpos + buf.length }

/-- The write position is the end of the bytes. -/
def AtEnd (self : Buffer) : Prop := self.wpos = self.val.length

theorem new_atEnd : new.AtEnd := rfl

/-- At the end, writing appends. -/
theorem write_val {self : Buffer} (h : self.AtEnd) (buf : List UInt8) :
    (self.write buf).val = self.val ++ buf := by
  have hpos : self.wpos = self.val.length := h
  simp [write, hpos]

theorem write_atEnd {self : Buffer} (h : self.AtEnd) (buf : List UInt8) :
    (self.write buf).AtEnd := by
  have hpos : (self.write buf).wpos = self.val.length + buf.length := congrArg (· + _) h
  rw [AtEnd, hpos, write_val h, List.length_append]

/-- Writing takes nothing away. -/
theorem write_ne_nil {self : Buffer} (h : self.val ≠ []) (buf : List UInt8) :
    (self.write buf).val ≠ [] := by
  intro hnil
  have hlength := congrArg List.length hnil
  have hpos := List.length_pos_iff.mpr h
  simp only [write, List.length_append, List.length_take, List.length_drop, List.length_replicate,
    List.length_nil] at hlength
  omega

/-- What was written is there. -/
theorem write_ne_nil_of_ne_nil (self : Buffer) {buf : List UInt8} (h : buf ≠ []) :
    (self.write buf).val ≠ [] := by
  simp [write, h]

@[simp] theorem drain_val (self : Buffer) (pos : ℕ) :
    (self.drain pos).val = self.val.drop pos := by
  rcases Nat.le_total self.val.length pos with h | h
  · simp [drain, Nat.min_eq_left h, List.drop_eq_nil_of_le h]
  · simp [drain, Nat.min_eq_right h]

theorem drain_atEnd {self : Buffer} (h : self.AtEnd) (pos : ℕ) : (self.drain pos).AtEnd := by
  have hpos : self.wpos = self.val.length := h
  simp only [AtEnd, drain_val, List.length_drop]
  simp only [drain, hpos]
  omega

theorem empty_iff (self : Buffer) : self.empty = true ↔ self.val = [] := by
  simp [empty]

end Buffer

/-- What the event loop keeps for a registered socket. -/
structure EventBuffer (S : Type) where
  read : Buffer
  write : Buffer
  socket : S
  readCache : List UInt8
  isInWrite : Bool
  isInRead : Bool
  error : Except IoError Unit

namespace EventBuffer

variable {S : Type}

def new (socket : S) (capacity : ℕ) : EventBuffer S where
  read := .new
  write := .new
  socket := socket
  readCache := List.replicate (max capacity 1024) 0
  isInWrite := false
  isInRead := false
  error := .ok ()

theorem new_room (socket : S) (capacity : ℕ) : 0 < (new socket capacity).readCache.length := by
  rw [new, List.length_replicate]
  exact Nat.lt_of_lt_of_le (by decide) (Nat.le_max_right capacity 1024)

def asRawSocket (self : EventBuffer S) : S := self.socket

def hasReadBuffer (self : EventBuffer S) : Bool := ¬ self.read.empty

end EventBuffer

end TdRevent
