import TdRevent.EventBuffer
import Mathlib.Logic.Function.Basic
import Mathlib.Order.Nat

/-!
# The ledger of the outgoing bytes

What the kernel accepted of a socket, followed by the bytes of its write buffer
that it did not accept yet, is what `sendSocket` was given, byte for byte and
in order. Sending appends to the buffer, and a write takes off the accepted
prefix or leaves it there. The selectors of all platforms keep this ledger.

## Implementation notes

The bytes at the front of a buffer that were accepted and are still in it are
called stale.
-/

namespace TdRevent

variable {S : Type}

/-- What happens to the bytes of the sockets. -/
inductive SockEvent (S : Type)
  /-- The event was registered with this buffer. -/
  | registered (id : ℕ) (buffer : EventBuffer S)
  /-- `sendSocket` appended the data. -/
  | sent (id : ℕ) (data : List UInt8)
  /-- The socket accepted the bytes. -/
  | accepted (id : ℕ) (bytes : List UInt8)

/-- The event that the entry of the history is about. -/
def SockEvent.id : SockEvent S → ℕ
  | .registered id _ => id
  | .sent id _ => id
  | .accepted id _ => id

/-- The data of all `sendSocket` calls on the event. -/
def sentTo (log : List (SockEvent S)) (id : ℕ) : List UInt8 :=
  log.flatMap fun
    | .sent id' data => if id' = id then data else []
    | _ => []

/-- The bytes of the event that the kernel accepted. -/
def acceptedFrom (log : List (SockEvent S)) (id : ℕ) : List UInt8 :=
  log.flatMap fun
    | .accepted id' bytes => if id' = id then bytes else []
    | _ => []

theorem sentTo_nil {log : List (SockEvent S)} {id : ℕ} (h : ∀ e ∈ log, e.id ≠ id) :
    sentTo log id = [] := by
  apply List.flatMap_eq_nil_iff.mpr
  intro e he
  cases e with
  | sent id' data => exact if_neg (h _ he)
  | _ => rfl

theorem acceptedFrom_nil {log : List (SockEvent S)} {id : ℕ} (h : ∀ e ∈ log, e.id ≠ id) :
    acceptedFrom log id = [] := by
  apply List.flatMap_eq_nil_iff.mpr
  intro e he
  cases e with
  | accepted id' bytes => exact if_neg (h _ he)
  | _ => rfl

@[simp] theorem sentTo_append (log log' : List (SockEvent S)) (id : ℕ) :
    sentTo (log ++ log') id = sentTo log id ++ sentTo log' id := List.flatMap_append

@[simp] theorem acceptedFrom_append (log log' : List (SockEvent S)) (id : ℕ) :
    acceptedFrom (log ++ log') id = acceptedFrom log id ++ acceptedFrom log' id :=
  List.flatMap_append

/-- The bytes of one event are where they belong. -/
structure InPlace (log : List (SockEvent S)) (id : ℕ) (write : Buffer) (stale : ℕ) : Prop where
  atEnd : write.AtEnd
  stale_le : stale ≤ write.val.length
  bytes : acceptedFrom log id ++ write.val.drop stale = sentTo log id

/-- The ledger is in order. -/
structure Ledger (log : List (SockEvent S)) (count : ℕ) (write : ℕ → Buffer)
    (stale : ℕ → ℕ) : Prop where
  inPlace : ∀ {id buffer}, .registered id buffer ∈ log → buffer.write = .new →
    InPlace log id (write id) (stale id)
  ids : ∀ e ∈ log, e.id < count
  fresh : ∀ {id}, count ≤ id → stale id = 0

namespace InPlace

variable {log : List (SockEvent S)} {id stale : ℕ} {write : Buffer}

/-- `sendSocket` appends to the buffer what it was given. -/
theorem append (h : InPlace log id write stale) (data : List UInt8) :
    InPlace (log ++ [.sent id data]) id (write.write data) stale := by
  have hval := Buffer.write_val h.atEnd data
  refine ⟨Buffer.write_atEnd h.atEnd data, ?_, ?_⟩
  · rw [hval, List.length_append]
    exact h.stale_le.trans (Nat.le_add_right _ _)
  · rw [hval, List.drop_append_of_le_length h.stale_le, sentTo_append, ← h.bytes]
    simp [acceptedFrom, sentTo]

/-- A write takes off what the kernel accepted. -/
theorem accept (h : InPlace log id write stale) (len : ℕ) (hlen : stale = 0 ∨ len = 0) :
    InPlace (log ++ [.accepted id (write.val.take len)]) id (write.drain len) (stale - len) := by
  have hend := Buffer.drain_atEnd h.atEnd len
  have hbytes := h.bytes
  rcases hlen with rfl | rfl
  · rw [Nat.zero_sub]
    refine ⟨hend, Nat.zero_le _, ?_⟩
    rw [List.drop_zero] at hbytes
    rw [List.drop_zero, Buffer.drain_val, sentTo_append, ← hbytes]
    simp [acceptedFrom, sentTo]
  · refine ⟨hend, ?_, ?_⟩
    · rw [Buffer.drain_val]
      exact h.stale_le
    · rw [Buffer.drain_val, sentTo_append, ← hbytes]
      simp [acceptedFrom, sentTo]

/-- The kernel accepts everything, and the buffer keeps it. -/
theorem queue (h : InPlace log id write 0) :
    InPlace (log ++ [.accepted id write.val]) id write write.val.length := by
  refine ⟨h.atEnd, le_rfl, ?_⟩
  have hbytes := h.bytes
  rw [List.drop_zero] at hbytes
  rw [List.drop_length, sentTo_append, ← hbytes]
  simp [acceptedFrom, sentTo]

/-- The history of other events does not matter. -/
theorem other (h : InPlace log id write stale) {e : SockEvent S} (he : e.id ≠ id) :
    InPlace (log ++ [e]) id write stale := by
  have hother : ∀ e' ∈ [e], e'.id ≠ id := by
    intro e' he'
    rw [List.mem_singleton.mp he']
    exact he
  refine ⟨h.atEnd, h.stale_le, ?_⟩
  rw [acceptedFrom_append, sentTo_append, acceptedFrom_nil hother, sentTo_nil hother,
    List.append_nil, List.append_nil]
  exact h.bytes

end InPlace

namespace Ledger

variable {log : List (SockEvent S)} {count id : ℕ} {write : ℕ → Buffer} {stale : ℕ → ℕ}

/-- Nothing was sent. -/
theorem nil (write : ℕ → Buffer) :
    Ledger ([] : List (SockEvent S)) 0 write fun _ => 0 where
  inPlace h := absurd h List.not_mem_nil
  ids _ h := absurd h List.not_mem_nil
  fresh _ := rfl

/-- An entry of the history about an event that exists. -/
theorem note (h : Ledger log count write stale) (hid : id < count) {e : SockEvent S}
    (he : e.id = id) (hold : ∀ buffer, e ≠ .registered id buffer) {w : Buffer} {n : ℕ}
    (hevent : InPlace log id (write id) (stale id) → InPlace (log ++ [e]) id w n) :
    Ledger (log ++ [e]) count (Function.update write id w) (Function.update stale id n) := by
  refine ⟨fun {id' buffer} hmem hnew => ?_, fun e' he' => ?_, fun {id'} hle => ?_⟩
  · have hmem' : .registered id' buffer ∈ log := by
      rcases List.mem_append.mp hmem with hmem | hmem
      · exact hmem
      · obtain rfl := List.mem_singleton.mp hmem
        obtain rfl : id' = id := he
        exact absurd rfl (hold buffer)
    have hplace := h.inPlace hmem' hnew
    by_cases hid' : id' = id
    · subst hid'
      rw [Function.update_self, Function.update_self]
      exact hevent hplace
    · rw [Function.update_of_ne hid', Function.update_of_ne hid']
      exact hplace.other (he ▸ Ne.symm hid')
  · rcases List.mem_append.mp he' with he' | he'
    · exact h.ids e' he'
    · rw [List.mem_singleton.mp he', he]
      exact hid
  · rw [Function.update_of_ne (hid.trans_le hle).ne']
    exact h.fresh hle

theorem append (h : Ledger log count write stale) (hid : id < count) (data : List UInt8) :
    Ledger (log ++ [.sent id data]) count
      (Function.update write id ((write id).write data)) stale := by
  have hnote := h.note hid (e := .sent id data) rfl nofun fun hplace => hplace.append data
  rwa [Function.update_eq_self] at hnote

theorem accept (h : Ledger log count write stale) (hid : id < count) (len : ℕ)
    (hlen : stale id = 0 ∨ len = 0) :
    Ledger (log ++ [.accepted id ((write id).val.take len)]) count
      (Function.update write id ((write id).drain len))
      (Function.update stale id (stale id - len)) :=
  h.note hid (e := .accepted id ((write id).val.take len)) rfl nofun
    fun hplace => hplace.accept len hlen

theorem queue (h : Ledger log count write stale) (hid : id < count) (hstale : stale id = 0) :
    Ledger (log ++ [.accepted id (write id).val]) count write
      (Function.update stale id (write id).val.length) := by
  have hnote := h.note hid (e := .accepted id (write id).val) (w := write id) rfl nofun
    fun hplace => by
      rw [hstale] at hplace
      exact hplace.queue
  rwa [Function.update_eq_self] at hnote

/-- A new event has accepted and sent nothing. -/
theorem insert (h : Ledger log count write stale) (buffer : EventBuffer S) :
    Ledger (log ++ [.registered count buffer]) (count + 1)
      (Function.update write count buffer.write) stale := by
  refine ⟨fun {id buffer'} hmem hnew => ?_, fun e he => ?_, fun hle => ?_⟩
  · rcases List.mem_append.mp hmem with hmem | hmem
    · have hid : id < count := h.ids _ hmem
      rw [Function.update_of_ne hid.ne]
      exact (h.inPlace hmem hnew).other hid.ne'
    · obtain ⟨hid, rfl⟩ : id = count ∧ buffer' = buffer := by simpa using hmem
      subst hid
      have hfresh : ∀ e ∈ log, e.id ≠ id := fun e he => (h.ids e he).ne
      rw [Function.update_self, h.fresh le_rfl, hnew]
      refine ⟨Buffer.new_atEnd, Nat.zero_le _, ?_⟩
      rw [acceptedFrom_append, sentTo_append, acceptedFrom_nil hfresh, sentTo_nil hfresh]
      rfl
  · rcases List.mem_append.mp he with he | he
    · exact Nat.lt_succ_of_lt (h.ids e he)
    · rw [List.mem_singleton.mp he]
      exact Nat.lt_succ_self _
  · exact h.fresh ((Nat.le_succ _).trans hle)

end Ledger

end TdRevent
