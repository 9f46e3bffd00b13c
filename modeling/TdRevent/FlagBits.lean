import TdRevent.Collections.Masks
import TdRevent.EventFlags

/-!
# Event flags as numbers

The flags are one number in the source, with a bit for each constant. It is this number
that the completion port keeps as a key and gives back with every packet. The crate
`bitflags` makes the conversions, and what the selector needs of them is that a key gives
back the flags that it was made of.
-/

namespace TdRevent

open Masks

/-- The conversions of the crate `bitflags`. -/
structure FlagKeys where
  bits : EventFlags → UInt64
  fromBitsTruncate : UInt64 → EventFlags
  /-- No bit of a flag is dropped. -/
  fromBitsTruncate_bits : ∀ flags, fromBitsTruncate (bits flags) = flags

/-- The bit of the constant. -/
def Flag.position : Flag → Fin 64
  | .TIMEOUT => 0
  | .READ => 1
  | .WRITE => 2
  | .PERSIST => 3
  | .ERROR => 4
  | .ACCEPT => 5
  | .ENDED => 6
  | .READ_PERSIST => 7
  | .WRITE_PERSIST => 8

theorem Flag.position_injective : Function.Injective position := by decide

/-- The conversions that the documentation of the crate describes for the constants. -/
def FlagKeys.documented : FlagKeys where
  bits flags := ⟨mask Flag.position flags⟩
  fromBitsTruncate bits := unmask Flag.position bits.toBitVec
  fromBitsTruncate_bits := unmask_mask _ Flag.position_injective

open EventFlags in
example : FlagKeys.documented.bits (FLAG_READ ∪ FLAG_ENDED) = 0b1000010 := by decide

end TdRevent
