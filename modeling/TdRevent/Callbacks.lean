import TdRevent.EventEntry
import TdRevent.Interaction.Responses

/-!
# Which callbacks a stream gets

Two machines for the callbacks of a connected stream. One runs on readiness: every
chunk that arrives is read. The other runs on completions: a chunk is received if a
read was posted, and the next read is posted if the event persists. The machines
agree for certain registrations and inputs only.

## Implementation notes

The data of an input does not matter to the machines. `sent` stands for a call of
`sendSocket` and `written` for the completion of a write.
-/

namespace TdRevent

open Interaction

/-- What happens to a stream. -/
inductive Input
  | chunk (bytes : List UInt8)
  | sent (data : List UInt8)
  | written
  deriving DecidableEq

/-- The callbacks that a stream gets. -/
inductive Callback
  | readCb | writeCb
  deriving DecidableEq

/-- How a stream was registered. -/
structure Registration where
  flags : EventFlags
  read : Option FnPtr
  write : Option FnPtr

/-- What the callbacks of an entry depend on. -/
def EventEntry.registration {S δ : Type} (self : EventEntry S δ) : Registration :=
  ⟨self.evEvents, self.read, self.write⟩

namespace Registration

/-- The read stays posted after a chunk. -/
def Persists (reg : Registration) : Prop := Flag.PERSIST ∈ reg.flags ∨ Flag.READ_PERSIST ∈ reg.flags

instance (reg : Registration) : Decidable reg.Persists := inferInstanceAs (Decidable (_ ∨ _))

/-- What the read callback is called for. -/
def onRead (reg : Registration) : List Callback := if reg.read = none then [] else [.readCb]

def onWrite (reg : Registration) : List Callback := if reg.write = none then [] else [.writeCb]

/-- Every chunk is read, and no write is reported. -/
def readiness (reg : Registration) : Machine Unit Input Callback where
  next _ _ := ()
  out
    | _, .chunk _ => reg.onRead
    | _, .sent _ => []
    | _, .written => []

/-- A chunk is received if a read is posted. The state says whether one is. A
completion with the flag of an end marker ends the event instead. -/
def completion (reg : Registration) : Machine Bool Input Callback where
  next
    | armed, .chunk _ => armed && decide (Flag.ENDED ∉ reg.flags ∧ reg.Persists)
    | armed, .sent _ => armed
    | armed, .written => armed
  out
    | armed, .chunk _ => if armed = true ∧ Flag.ENDED ∉ reg.flags then reg.onRead else []
    | _, .sent _ => []
    | _, .written => reg.onWrite

end Registration

namespace Input

/-- The number of chunks. -/
def chunks : List Input → ℕ
  | [] => 0
  | .chunk _ :: is => chunks is + 1
  | .sent _ :: is => chunks is
  | .written :: is => chunks is

end Input

/-- The stream has no read callback, or no chunk arrives, or every chunk is received:
a read is posted, and the event persists or there is one chunk. And it has no write
callback, or no write is completed. -/
def AgreesFrom (reg : Registration) (armed : Bool) (is : List Input) : Prop :=
  (reg.read = none ∨ Input.chunks is = 0 ∨
    armed = true ∧ Flag.ENDED ∉ reg.flags ∧ (reg.Persists ∨ Input.chunks is ≤ 1)) ∧
  (reg.write = none ∨ Input.written ∉ is)

instance (reg : Registration) (armed : Bool) (is : List Input) :
    Decidable (AgreesFrom reg armed is) := inferInstanceAs (Decidable (_ ∧ _))

namespace Registration

variable (reg : Registration)

/-- The first machine reports no write. -/
theorem readiness_no_write (is : List Input) : Callback.writeCb ∉ reg.readiness.outputs () is := by
  induction is with
  | nil => exact List.not_mem_nil
  | cons i is ih =>
      refine fun hmem => (List.mem_append.mp hmem).elim (fun hi => ?_) ih
      cases i with
      | chunk bytes =>
          simp only [readiness, onRead] at hi
          split at hi <;> simp at hi
      | sent data => exact absurd hi List.not_mem_nil
      | written => exact absurd hi List.not_mem_nil

/-- Without a posted read the second machine reports no chunk. -/
theorem completion_no_read (is : List Input) :
    Callback.readCb ∉ reg.completion.outputs false is := by
  induction is with
  | nil => exact List.not_mem_nil
  | cons i is ih =>
      cases i with
      | chunk bytes => exact ih
      | sent data => exact ih
      | written =>
          refine fun hmem => (List.mem_append.mp hmem).elim (fun hi => ?_) ih
          simp only [completion, onWrite] at hi
          split at hi <;> simp at hi

/-! ## When the machines agree -/

variable {reg} {armed : Bool} {is : List Input}

theorem agreesFrom_sent (data : List UInt8) :
    AgreesFrom reg armed (.sent data :: is) ↔ AgreesFrom reg armed is := by
  simp [AgreesFrom, Input.chunks]

theorem agreesFrom_written :
    AgreesFrom reg armed (.written :: is) ↔ reg.write = none ∧ AgreesFrom reg armed is := by
  by_cases hwrite : reg.write = none <;>
  simp [AgreesFrom, Input.chunks, hwrite]

/-- Without a read callback it does not matter what the second machine receives. -/
theorem agreesFrom_chunk_silent (hread : reg.read = none) (bytes : List UInt8) (armed' : Bool) :
    AgreesFrom reg armed (.chunk bytes :: is) ↔ AgreesFrom reg armed' is := by
  simp [AgreesFrom, hread]

/-- With a read callback the chunk has to be received. -/
theorem agreesFrom_chunk (hread : reg.read ≠ none) (bytes : List UInt8) :
    AgreesFrom reg armed (.chunk bytes :: is) ↔
      (armed = true ∧ Flag.ENDED ∉ reg.flags) ∧
        AgreesFrom reg (reg.completion.next armed (.chunk bytes)) is := by
  by_cases hreceived : armed = true ∧ Flag.ENDED ∉ reg.flags
  · obtain ⟨rfl, hended⟩ := hreceived
    by_cases hpersists : reg.Persists <;>
    simp [AgreesFrom, Input.chunks, completion, hread, hended, hpersists]
  · refine iff_of_false (fun hagrees => ?_) fun hagrees => hreceived hagrees.1
    rcases hagrees.1 with hnone | hnone | ⟨harmed, hended, -⟩
    · exact hread hnone
    · exact Nat.succ_ne_zero _ hnone
    · exact hreceived ⟨harmed, hended⟩

/-- A write callback is called by the second machine only. -/
theorem outputs_written_iff :
    reg.readiness.outputs () (.written :: is) = reg.completion.outputs armed (.written :: is) ↔
      reg.write = none ∧ reg.readiness.outputs () is = reg.completion.outputs armed is := by
  change reg.readiness.outputs () is = reg.onWrite ++ reg.completion.outputs armed is ↔ _
  by_cases hwrite : reg.write = none
  · rw [onWrite, if_pos hwrite, List.nil_append]
    exact (and_iff_right hwrite).symm
  · refine iff_of_false (fun heq => ?_) fun heq => hwrite heq.1
    refine reg.readiness_no_write is (heq ▸ ?_)
    rw [onWrite, if_neg hwrite]
    exact List.mem_cons_self

/-- A chunk that is not received is reported by the first machine only. -/
theorem outputs_chunk_iff (hread : reg.read ≠ none) (bytes : List UInt8) :
    reg.readiness.outputs () (.chunk bytes :: is) =
        reg.completion.outputs armed (.chunk bytes :: is) ↔
      (armed = true ∧ Flag.ENDED ∉ reg.flags) ∧ reg.readiness.outputs () is =
        reg.completion.outputs (reg.completion.next armed (.chunk bytes)) is := by
  change reg.onRead ++ reg.readiness.outputs () is =
    (if armed = true ∧ Flag.ENDED ∉ reg.flags then reg.onRead else []) ++
      reg.completion.outputs (reg.completion.next armed (.chunk bytes)) is ↔ _
  by_cases hreceived : armed = true ∧ Flag.ENDED ∉ reg.flags
  · rw [if_pos hreceived, List.append_cancel_left_eq]
    exact (and_iff_right hreceived).symm
  · have hnext : reg.completion.next armed (.chunk bytes) = false := by
      by_contra h
      simp only [completion, Bool.not_eq_false, Bool.and_eq_true, decide_eq_true_eq] at h
      exact hreceived ⟨h.1, h.2.1⟩
    rw [if_neg hreceived, hnext, onRead, if_neg hread, List.nil_append]
    refine iff_of_false (fun heq => ?_) fun heq => hreceived heq.1
    exact reg.completion_no_read is (heq ▸ List.mem_cons_self)

/-- The two machines put out the same for these chunks and writes only. -/
theorem outputs_eq_iff (reg : Registration) (armed : Bool) (is : List Input) :
    reg.readiness.outputs () is = reg.completion.outputs armed is ↔ AgreesFrom reg armed is := by
  induction is generalizing armed with
  | nil => simp [Machine.outputs, AgreesFrom, Input.chunks]
  | cons i is ih =>
      cases i with
      | sent data => exact (ih armed).trans (agreesFrom_sent data).symm
      | written =>
          rw [outputs_written_iff, ih, agreesFrom_written]
      | chunk bytes =>
          by_cases hread : reg.read = none
          · have hnone : reg.onRead = [] := if_pos hread
            change reg.onRead ++ reg.readiness.outputs () is = (if _ then reg.onRead else []) ++
              reg.completion.outputs (reg.completion.next armed (.chunk bytes)) is ↔ _
            rw [hnone, ite_self, List.nil_append, List.nil_append, ih]
            exact (agreesFrom_chunk_silent hread bytes _).symm
          · rw [outputs_chunk_iff hread, ih, agreesFrom_chunk hread]

end Registration

end TdRevent
