import TdRevent.EventBuffer

/-!
# The operations of a buffer

Every operation with its sums, its ranges and its copies. The positions are
public, so an operation may find them anywhere. The only one that relies on
them is `read`: it needs the read position inside the bytes. Nothing but
`setRpos` takes it outside.

## Implementation notes

A subtraction below zero and a range outside the bytes are faults. A build
that checks its arithmetic panics there, and any other goes on with a wrong
position. The bytes that an operation hands out are its result.
-/

namespace TdRevent

namespace Buffer

/-- What an operation must not reach. -/
inductive Fault
  | underflow
  | outOfBounds
  deriving DecidableEq

/-- The difference of two positions. -/
def sub (a b : ℕ) : Except Fault ℕ := if b ≤ a then .ok (a - b) else .error .underflow

/-- The bytes that are copied out of a range. -/
def copyFrom (val : List UInt8) (pos len : ℕ) : Except Fault (List UInt8) :=
  if pos + len ≤ val.length then .ok ((val.drop pos).take len) else .error .outOfBounds

/-- Copy the bytes over a range. -/
def copyTo (val : List UInt8) (pos : ℕ) (buf : List UInt8) : Except Fault (List UInt8) :=
  if pos + buf.length ≤ val.length then
    .ok (val.take pos ++ buf ++ val.drop (pos + buf.length))
  else .error .outOfBounds

/-- `Vec::drain(..pos)`: the removed bytes and the others. -/
def drainTo (val : List UInt8) (pos : ℕ) : Except Fault (List UInt8 × List UInt8) :=
  if pos ≤ val.length then .ok (val.take pos, val.drop pos) else .error .outOfBounds

/-- `Vec::resize` with zeros, to a greater length. -/
def resize (val : List UInt8) (len : ℕ) : List UInt8 :=
  val ++ List.replicate (len - val.length) 0

namespace Checked

def drain (self : Buffer) (pos : ℕ) : Except Fault Buffer := do
  let rpos ← sub self.rpos (min self.rpos pos)
  let wpos ← sub self.wpos (min self.wpos pos)
  let (_, val) ← drainTo self.val (min self.val.length pos)
  pure { val := val, rpos := rpos, wpos := wpos }

def drainCollect (self : Buffer) (pos : ℕ) : Except Fault (List UInt8 × Buffer) := do
  let rpos ← sub self.rpos (min self.rpos pos)
  let wpos ← sub self.wpos (min self.wpos pos)
  let (bytes, val) ← drainTo self.val (min self.val.length pos)
  pure (bytes, { val := val, rpos := rpos, wpos := wpos })

def drainAll (self : Buffer) : Except Fault Buffer := do
  let (_, val) ← drainTo self.val self.val.length
  pure { val := val, rpos := 0, wpos := 0 }

def drainAllCollect (self : Buffer) : Except Fault (List UInt8 × Buffer) := do
  let (bytes, val) ← drainTo self.val self.val.length
  pure (bytes, { val := val, rpos := 0, wpos := 0 })

/-- `Read::read` into a slice of `len` bytes. -/
def read (self : Buffer) (len : ℕ) : Except Fault (List UInt8 × Buffer) := do
  let left ← sub self.val.length self.rpos
  if left = 0 ∨ len = 0 then pure ([], self)
  else
    let read := if left > len then len else left
    let bytes ← copyFrom self.val self.rpos read
    pure (bytes, { self with rpos := self.rpos + read })

/-- `Write::write`. -/
def write (self : Buffer) (buf : List UInt8) : Except Fault Buffer := do
  let val :=
    if self.val.length < self.wpos + buf.length then resize self.val (self.wpos + buf.length)
    else self.val
  if buf.length = 0 then pure { self with val := val }
  else
    let val ← copyTo val self.wpos buf
    pure { self with val := val, wpos := self.wpos + buf.length }

end Checked

def setRpos (self : Buffer) (rpos : ℕ) : Buffer := { self with rpos := rpos }

def setWpos (self : Buffer) (wpos : ℕ) : Buffer := { self with wpos := wpos }

def clear (_ : Buffer) : Buffer := { val := [], rpos := 0, wpos := 0 }

/-! ## What each operation does -/

theorem sub_ok {a b : ℕ} (h : b ≤ a) : sub a b = .ok (a - b) := if_pos h

theorem drainTo_ok {val : List UInt8} {pos : ℕ} (h : pos ≤ val.length) :
    drainTo val pos = .ok (val.take pos, val.drop pos) := if_pos h

theorem le_length_resize (val : List UInt8) (len : ℕ) : len ≤ (resize val len).length := by
  rw [resize, List.length_append, List.length_replicate]
  omega

namespace Checked

variable (self : Buffer)

theorem drainCollect_eq (pos : ℕ) :
    drainCollect self pos =
      .ok (self.val.take (min self.val.length pos), self.drain pos) := by
  rw [drainCollect, sub_ok (Nat.min_le_left ..), sub_ok (Nat.min_le_left ..),
    drainTo_ok (Nat.min_le_left ..)]
  rfl

theorem drain_eq (pos : ℕ) : drain self pos = .ok (self.drain pos) := by
  rw [drain, sub_ok (Nat.min_le_left ..), sub_ok (Nat.min_le_left ..),
    drainTo_ok (Nat.min_le_left ..)]
  rfl

theorem drainAllCollect_eq : drainAllCollect self = .ok (self.val, self.clear) := by
  rw [drainAllCollect, drainTo_ok (Nat.le_refl _), List.take_length, List.drop_length]
  rfl

theorem drainAll_eq : drainAll self = .ok self.clear := by
  rw [drainAll, drainTo_ok (Nat.le_refl _), List.drop_length]
  rfl

/-- Writing stays inside the bytes, which grow first. -/
theorem write_eq (buf : List UInt8) : write self buf = .ok (self.write buf) := by
  have hgrow : (if self.val.length < self.wpos + buf.length then
      resize self.val (self.wpos + buf.length) else self.val) =
        resize self.val (self.wpos + buf.length) := by
    split
    · rfl
    · rw [resize, Nat.sub_eq_zero_of_le (by omega), List.replicate_zero, List.append_nil]
  simp only [write, hgrow]
  by_cases hnil : buf = []
  · subst hnil
    simp only [List.length_nil, if_true, Buffer.write, resize, List.append_nil, Nat.add_zero,
      List.take_append_drop]
    rfl
  · rw [if_neg (fun h => hnil (List.length_eq_zero_iff.mp h)), copyTo,
      if_pos (le_length_resize ..)]
    rfl

/-- With the read position inside the bytes, reading hands out the next ones. -/
theorem read_eq (h : self.rpos ≤ self.val.length) (len : ℕ) :
    read self len =
      .ok ((self.val.drop self.rpos).take (min len (self.val.length - self.rpos)),
        { self with rpos := self.rpos + min len (self.val.length - self.rpos) }) := by
  rw [read, sub_ok h]
  change (if self.val.length - self.rpos = 0 ∨ len = 0 then pure ([], self) else _) = _
  split
  · rename_i hnone
    have hmin : min len (self.val.length - self.rpos) = 0 := by omega
    simp only [hmin, List.take_zero, Nat.add_zero]
    rfl
  · have hread : (if self.val.length - self.rpos > len then len
        else self.val.length - self.rpos) = min len (self.val.length - self.rpos) := by
      split <;> omega
    rw [hread, copyFrom, if_pos (by omega)]
    rfl

/-- With the read position outside the bytes, reading fails. -/
theorem read_underflow (h : self.val.length < self.rpos) (len : ℕ) :
    read self len = .error .underflow := by
  rw [read, sub, if_neg (Nat.not_le.mpr h)]
  rfl

end Checked

end Buffer

/-- The public operations that change a buffer. -/
inductive BufferOp
  | write (buf : List UInt8)
  | read (len : ℕ)
  | drain (pos : ℕ)
  | drainCollect (pos : ℕ)
  | drainAll
  | drainAllCollect
  | clear
  | setRpos (rpos : ℕ)
  | setWpos (wpos : ℕ)
  deriving DecidableEq

namespace Buffer

/-- One operation, with the bytes that it hands out. -/
def step (self : Buffer) : BufferOp → Except Fault (List UInt8 × Buffer)
  | .write buf => (Checked.write self buf).map ([], ·)
  | .read len => Checked.read self len
  | .drain pos => (Checked.drain self pos).map ([], ·)
  | .drainCollect pos => Checked.drainCollect self pos
  | .drainAll => (Checked.drainAll self).map ([], ·)
  | .drainAllCollect => Checked.drainAllCollect self
  | .clear => .ok ([], self.clear)
  | .setRpos rpos => .ok ([], self.setRpos rpos)
  | .setWpos wpos => .ok ([], self.setWpos wpos)

/-- The operations one after the other, with all that they hand out. -/
def run (self : Buffer) : List BufferOp → Except Fault (List (List UInt8) × Buffer)
  | [] => .ok ([], self)
  | op :: ops => do
      let (bytes, self) ← self.step op
      let (rest, self) ← self.run ops
      pure (bytes :: rest, self)

variable {self : Buffer} {ops : List BufferOp}

/-- An operation fails only at a read with the read position outside the bytes. -/
theorem step_cases (self : Buffer) (op : BufferOp) :
    (∃ bytes b, self.step op = .ok (bytes, b)) ∨
      self.step op = .error .underflow ∧ self.val.length < self.rpos ∧ ∃ len, op = .read len := by
  cases op with
  | write buf => exact Or.inl ⟨_, _, congrArg (Except.map _) (Checked.write_eq self buf)⟩
  | read len =>
      rcases Nat.lt_or_ge self.val.length self.rpos with h | h
      · exact Or.inr ⟨Checked.read_underflow self h len, h, len, rfl⟩
      · exact Or.inl ⟨_, _, Checked.read_eq self h len⟩
  | drain pos => exact Or.inl ⟨_, _, congrArg (Except.map _) (Checked.drain_eq self pos)⟩
  | drainCollect pos => exact Or.inl ⟨_, _, Checked.drainCollect_eq self pos⟩
  | drainAll => exact Or.inl ⟨_, _, congrArg (Except.map _) (Checked.drainAll_eq self)⟩
  | drainAllCollect => exact Or.inl ⟨_, _, Checked.drainAllCollect_eq self⟩
  | clear => exact Or.inl ⟨_, _, rfl⟩
  | setRpos rpos => exact Or.inl ⟨_, _, rfl⟩
  | setWpos wpos => exact Or.inl ⟨_, _, rfl⟩

/-- A run goes on after its first operation. -/
theorem run_cons {op : BufferOp} {bytes : List UInt8} {b : Buffer}
    (h : self.step op = .ok (bytes, b)) :
    self.run (op :: ops) = (b.run ops).map fun r => (bytes :: r.1, r.2) := by
  rw [run, h]
  change (b.run ops >>= fun r => pure (bytes :: r.1, r.2)) = _
  cases b.run ops <;> rfl

/-- A run ends with the fault of its first operation. -/
theorem run_cons_error {op : BufferOp} {e : Fault} (h : self.step op = .error e) :
    self.run (op :: ops) = .error e := by
  rw [run, h]
  rfl

theorem run_cons_error_iff {op : BufferOp} {bytes : List UInt8} {b : Buffer} {e : Fault}
    (h : self.step op = .ok (bytes, b)) :
    self.run (op :: ops) = .error e ↔ b.run ops = .error e := by
  rw [run_cons h]
  cases b.run ops <;> simp [Except.map]

theorem run_cons_ok_iff {op : BufferOp} {bytes : List UInt8} {b : Buffer}
    (h : self.step op = .ok (bytes, b)) :
    (∃ outs b', self.run (op :: ops) = .ok (outs, b')) ↔ ∃ outs b', b.run ops = .ok (outs, b') := by
  rw [run_cons h]
  cases b.run ops with
  | error e => simp [Except.map]
  | ok r => exact iff_of_true ⟨_, _, rfl⟩ ⟨_, _, rfl⟩

/-- Every read of the run finds the read position inside the bytes. -/
def ReadsInside : Buffer → List BufferOp → Prop
  | _, [] => True
  | self, op :: ops =>
      (∀ len, op = .read len → self.rpos ≤ self.val.length) ∧
        ∀ bytes b, self.step op = .ok (bytes, b) → b.ReadsInside ops

theorem readsInside_cons {op : BufferOp} {bytes : List UInt8} {b : Buffer}
    (h : self.step op = .ok (bytes, b)) :
    self.ReadsInside (op :: ops) ↔ b.ReadsInside ops := by
  refine ⟨fun hinside => hinside.2 bytes b h, fun hinside => ⟨?_, ?_⟩⟩
  · rintro len rfl
    by_contra hout
    cases h.symm.trans (Checked.read_underflow self (Nat.not_le.mp hout) len)
  · intro bytes' b' h'
    cases h.symm.trans h'
    exact hinside

/-- A run meets no fault if and only if every read finds the read position inside the
bytes. There is no fault but that of a read. -/
theorem run_faults (self : Buffer) (ops : List BufferOp) :
    ((∃ outs b, self.run ops = .ok (outs, b)) ↔ self.ReadsInside ops) ∧
      ∀ e, self.run ops = .error e → e = .underflow := by
  induction ops generalizing self with
  | nil =>
      constructor
      · exact iff_of_true ⟨[], self, rfl⟩ trivial
      · intro e he
        cases he
  | cons op ops ih =>
      rcases step_cases self op with ⟨bytes, b, hstep⟩ | ⟨hstep, hout, len, rfl⟩
      · obtain ⟨hok, herror⟩ := ih b
        rw [run_cons_ok_iff hstep, readsInside_cons hstep]
        exact ⟨hok, fun e he => herror e ((run_cons_error_iff hstep).mp he)⟩
      · rw [run_cons_error hstep]
        constructor
        · exact iff_of_false nofun fun hinside => Nat.not_le.mpr hout (hinside.1 len rfl)
        · intro e he
          cases he
          rfl

theorem length_le_write (self : Buffer) (buf : List UInt8) :
    self.val.length ≤ (self.write buf).val.length := by
  simp only [write, List.length_append, List.length_take, List.length_drop,
    List.length_replicate]
  omega

theorem drain_inside (h : self.rpos ≤ self.val.length) (pos : ℕ) :
    (self.drain pos).rpos ≤ (self.drain pos).val.length := by
  simp only [drain, List.length_drop]
  omega

/-- No operation but `setRpos` takes the read position out of the bytes. -/
theorem step_inside {op : BufferOp} {bytes : List UInt8} {b : Buffer}
    (h : self.rpos ≤ self.val.length) (hop : ∀ rpos, op = .setRpos rpos → rpos ≤ self.val.length)
    (hstep : self.step op = .ok (bytes, b)) : b.rpos ≤ b.val.length := by
  cases op with
  | write buf =>
      rw [step, Checked.write_eq] at hstep
      cases hstep
      exact Nat.le_trans h (length_le_write self buf)
  | read len =>
      rw [step, Checked.read_eq self h] at hstep
      cases hstep
      change self.rpos + min len (self.val.length - self.rpos) ≤ self.val.length
      omega
  | drain pos =>
      rw [step, Checked.drain_eq] at hstep
      cases hstep
      exact drain_inside h pos
  | drainCollect pos =>
      rw [step, Checked.drainCollect_eq] at hstep
      cases hstep
      exact drain_inside h pos
  | drainAll =>
      rw [step, Checked.drainAll_eq] at hstep
      cases hstep
      exact Nat.le_refl 0
  | drainAllCollect =>
      rw [step, Checked.drainAllCollect_eq] at hstep
      cases hstep
      exact Nat.le_refl 0
  | clear =>
      cases hstep
      exact Nat.le_refl 0
  | setRpos rpos =>
      cases hstep
      exact hop rpos rfl
  | setWpos wpos =>
      cases hstep
      exact h

/-- Without `setRpos` every read finds the read position inside the bytes. -/
theorem readsInside_of_no_set (h : self.rpos ≤ self.val.length)
    (hset : ∀ rpos, .setRpos rpos ∉ ops) : self.ReadsInside ops := by
  induction ops generalizing self with
  | nil => trivial
  | cons op ops ih =>
      refine ⟨fun _ _ => h, fun bytes b hstep => ih (step_inside h ?_ hstep) ?_⟩
      · rintro rpos rfl
        exact absurd (List.mem_cons_self ..) (hset rpos)
      · exact fun rpos hmem => hset rpos (List.mem_cons_of_mem op hmem)

/-! ## The main result -/

/-- A run from any buffer meets no fault if and only if every read finds the read position
inside the bytes. There is no fault but that of a read. Only `setRpos` takes the read
position out of the bytes, so a run without it that starts inside meets no fault. -/
theorem run_ok_iff (self : Buffer) (ops : List BufferOp) :
    ((∃ outs b, self.run ops = .ok (outs, b)) ↔ self.ReadsInside ops) ∧
      (∀ e, self.run ops = .error e → e = .underflow) ∧
      (∀ op bytes b, self.rpos ≤ self.val.length →
        (∀ rpos, op = .setRpos rpos → rpos ≤ self.val.length) →
        self.step op = .ok (bytes, b) → b.rpos ≤ b.val.length) ∧
      (self.rpos ≤ self.val.length → (∀ rpos, .setRpos rpos ∉ ops) → self.ReadsInside ops) := by
  obtain ⟨hok, herror⟩ := run_faults self ops
  exact ⟨hok, herror, fun _ _ _ => step_inside, readsInside_of_no_set⟩

/-- Reading from beyond the end of an empty buffer. -/
theorem run_reads_beyond_end :
    Buffer.new.run [.setRpos 1, .read 1] = .error .underflow := by decide

end Buffer

end TdRevent
