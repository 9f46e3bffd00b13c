import TdRevent.Ledger

/-!
# The ledger of the incoming bytes

What an event was registered with, followed by what was received for it, is what its
callbacks took off the read buffer, followed by what the read buffer still holds, byte
for byte and in order. The selectors of all platforms keep this ledger.
-/

namespace TdRevent

variable {S : Type}

/-- The events that were registered, each with its buffer. -/
def registrations (log : List (SockEvent S)) : List (ℕ × EventBuffer S) :=
  log.filterMap fun
    | .registered id buffer => some (id, buffer)
    | _ => none

theorem mem_registrations {log : List (SockEvent S)} {id : ℕ} {buffer : EventBuffer S} :
    (id, buffer) ∈ registrations log ↔ .registered id buffer ∈ log := by
  unfold registrations
  rw [List.mem_filterMap]
  constructor
  · rintro ⟨e, he, hid⟩
    cases e with
    | registered id' buffer' =>
        obtain ⟨rfl, rfl⟩ := Prod.mk.inj (Option.some.inj hid)
        exact he
    | sent => exact absurd hid nofun
    | accepted => exact absurd hid nofun
  · exact fun h => ⟨_, h, rfl⟩

@[simp] theorem registrations_append (log log' : List (SockEvent S)) :
    registrations (log ++ log') = registrations log ++ registrations log' :=
  List.filterMap_append ..

@[simp] theorem registrations_sent (log : List (SockEvent S)) (id : ℕ) (bytes : List UInt8) :
    registrations (log ++ [.sent id bytes]) = registrations log :=
  (registrations_append ..).trans (List.append_nil _)

@[simp] theorem registrations_accepted (log : List (SockEvent S)) (id : ℕ) (bytes : List UInt8) :
    registrations (log ++ [.accepted id bytes]) = registrations log :=
  (registrations_append ..).trans (List.append_nil _)

/-- What happens to the incoming bytes of the events. -/
inductive Intake
  /-- The system gave the bytes. -/
  | received (id : ℕ) (bytes : List UInt8)
  /-- A callback took the bytes off the read buffer. -/
  | taken (id : ℕ) (bytes : List UInt8)

/-- The bytes that the system gave for the event. -/
def receivedBy (log : List Intake) (id : ℕ) : List UInt8 :=
  log.flatMap fun
    | .received id' bytes => if id' = id then bytes else []
    | _ => []

/-- The bytes that the callbacks took. -/
def takenFrom (log : List Intake) (id : ℕ) : List UInt8 :=
  log.flatMap fun
    | .taken id' bytes => if id' = id then bytes else []
    | _ => []

@[simp] theorem receivedBy_append (log log' : List Intake) (id : ℕ) :
    receivedBy (log ++ log') id = receivedBy log id ++ receivedBy log' id := List.flatMap_append

@[simp] theorem takenFrom_append (log log' : List Intake) (id : ℕ) :
    takenFrom (log ++ log') id = takenFrom log id ++ takenFrom log' id := List.flatMap_append

/-- The bytes that are gone from the front of a buffer. -/
def Buffer.taken (read read' : Buffer) : List UInt8 :=
  read.val.take (read.val.length - read'.val.length)

/-- `read'` is `read` without some bytes at the front. -/
def Buffer.Takes (read read' : Buffer) : Prop :=
  (read.AtEnd → read'.AtEnd) ∧ ∃ n, read'.val = read.val.drop n

theorem Buffer.Takes.drain (read : Buffer) (n : ℕ) : read.Takes (read.drain n) :=
  ⟨fun h => drain_atEnd h n, n, read.drain_val n⟩

/-- What was taken and what is left. -/
theorem Buffer.Takes.append {read read' : Buffer} (h : read.Takes read') :
    read.taken read' ++ read'.val = read.val := by
  obtain ⟨-, n, hval⟩ := h
  have hlen : read.val.length - read'.val.length = min n read.val.length := by
    rw [hval, List.length_drop]
    omega
  rw [taken, hlen, ← List.take_eq_take_min, hval, List.take_append_drop]

/-- The ledger is in order, for the events that were registered. -/
structure Inflow (log : List Intake) (registered : List (ℕ × EventBuffer S)) (count : ℕ)
    (read : ℕ → Buffer) : Prop where
  ids : ∀ x ∈ registered, x.1 < count
  fresh : ∀ id, count ≤ id →
    receivedBy log id = [] ∧ takenFrom log id = [] ∧ (read id).val = []
  flow : ∀ x ∈ registered, x.2.read.AtEnd → (read x.1).AtEnd ∧
    x.2.read.val ++ receivedBy log x.1 = takenFrom log x.1 ++ (read x.1).val

namespace Inflow

variable {log : List Intake} {registered : List (ℕ × EventBuffer S)} {count id : ℕ}
  {read : ℕ → Buffer}

/-- Nothing was received. -/
theorem nil (hread : ∀ id, (read id).val = []) :
    Inflow [] ([] : List (ℕ × EventBuffer S)) 0 read where
  ids _ h := absurd h List.not_mem_nil
  fresh _ _ := ⟨rfl, rfl, hread _⟩
  flow _ h := absurd h List.not_mem_nil

variable (h : Inflow log registered count read)

include h

/-- A new event has received nothing. -/
theorem insert (buffer : EventBuffer S) :
    Inflow log (registered ++ [(count, buffer)]) (count + 1)
      (Function.update read count buffer.read) := by
  refine ⟨fun x hx => ?_, fun id hid => ?_, fun x hx hend => ?_⟩
  · rcases List.mem_append.mp hx with hx | hx
    · exact Nat.lt_succ_of_lt (h.ids x hx)
    · obtain rfl := List.mem_singleton.mp hx
      exact Nat.lt_succ_self _
  · rw [Function.update_of_ne (Nat.lt_of_succ_le hid).ne']
    exact h.fresh id ((Nat.le_succ _).trans hid)
  · rcases List.mem_append.mp hx with hx | hx
    · rw [Function.update_of_ne (h.ids x hx).ne]
      exact h.flow x hx hend
    · obtain rfl := List.mem_singleton.mp hx
      obtain ⟨hreceived, htaken, -⟩ := h.fresh count le_rfl
      rw [Function.update_self, hreceived, htaken, List.append_nil, List.nil_append]
      exact ⟨hend, rfl⟩

/-- An entry about the bytes of an event. -/
theorem note {e : Intake} {r : Buffer}
    (hother : ∀ id', id' ≠ id → receivedBy [e] id' = [] ∧ takenFrom [e] id' = [])
    (hfresh : (read id).val = [] → count ≤ id →
      receivedBy [e] id = [] ∧ takenFrom [e] id = [] ∧ r.val = [])
    (hflow : ∀ initial received taken : List UInt8, (read id).AtEnd →
      initial ++ received = taken ++ (read id).val → r.AtEnd ∧
      initial ++ (received ++ receivedBy [e] id) = (taken ++ takenFrom [e] id) ++ r.val) :
    Inflow (log ++ [e]) registered count (Function.update read id r) := by
  refine ⟨h.ids, fun id' hid => ?_, fun x hx hend => ?_⟩
  · rw [receivedBy_append, takenFrom_append]
    obtain ⟨hreceived, htaken, hval⟩ := h.fresh id' hid
    by_cases hid' : id' = id
    · subst hid'
      obtain ⟨hreceived', htaken', hval'⟩ := hfresh hval hid
      rw [hreceived, htaken, hreceived', htaken', Function.update_self]
      exact ⟨rfl, rfl, hval'⟩
    · obtain ⟨hreceived', htaken'⟩ := hother id' hid'
      rw [hreceived, htaken, hreceived', htaken', Function.update_of_ne hid']
      exact ⟨rfl, rfl, hval⟩
  · rw [receivedBy_append, takenFrom_append]
    obtain ⟨hatEnd, hbytes⟩ := h.flow x hx hend
    by_cases hid : x.1 = id
    · subst hid
      rw [Function.update_self]
      exact hflow _ _ _ hatEnd hbytes
    · obtain ⟨hreceived', htaken'⟩ := hother x.1 hid
      rw [hreceived', htaken', Function.update_of_ne hid, List.append_nil, List.append_nil]
      exact ⟨hatEnd, hbytes⟩

/-- The system gives bytes, which are appended to the read buffer. -/
theorem receive (hid : id < count) (bytes : List UInt8) :
    Inflow (log ++ [.received id bytes]) registered count
      (Function.update read id ((read id).write bytes)) := by
  refine h.note (fun id' hid' => ?_) (fun _ hle => ?_) ?_
  · exact ⟨by simp [receivedBy, hid'.symm], by simp [takenFrom]⟩
  · exact absurd hid hle.not_gt
  · intro initial received taken hend hbytes
    refine ⟨Buffer.write_atEnd hend bytes, ?_⟩
    rw [Buffer.write_val hend, ← List.append_assoc, hbytes]
    simp [receivedBy, takenFrom]

/-- A callback takes bytes off the front of the read buffer. -/
theorem take {r : Buffer} (hr : (read id).Takes r) :
    Inflow (log ++ [.taken id ((read id).taken r)]) registered count
      (Function.update read id r) := by
  refine h.note (fun id' hid' => ?_) (fun hval _ => ?_) ?_
  · exact ⟨by simp [receivedBy], by simp [takenFrom, hid'.symm]⟩
  · have hnil : (read id).taken r ++ r.val = [] := hr.append.trans hval
    obtain ⟨htaken, hleft⟩ := List.append_eq_nil_iff.mp hnil
    exact ⟨by simp [receivedBy], by simp [takenFrom, htaken], hleft⟩
  · intro initial received taken hend hbytes
    refine ⟨hr.1 hend, ?_⟩
    rw [← hr.append] at hbytes
    simpa [receivedBy, takenFrom] using hbytes

/-- What the ledger says of the registered events. -/
theorem kept {log' : List (SockEvent S)} (hlog : registered = registrations log') {id : ℕ}
    {buffer : EventBuffer S} (hmem : .registered id buffer ∈ log') (hend : buffer.read.AtEnd) :
    buffer.read.val ++ receivedBy log id = takenFrom log id ++ (read id).val :=
  (h.flow (id, buffer) (hlog ▸ mem_registrations.mpr hmem) hend).2

end Inflow

end TdRevent
