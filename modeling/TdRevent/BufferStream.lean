import TdRevent.BufferOperations
import TdRevent.Interaction.Responses
import Mathlib.Order.MinMax

/-!
# A buffer is a byte stream

The bytes that are ever written form a stream with absolute positions. Some of
them, from the front, have been removed. A read hands out the bytes after the
previous read, or after the removed ones if these reach further. A buffer that
is used without the setters of its positions is this stream, seen from the
removed bytes on.

## Implementation notes

The stream carries the ranges of its reads with the proof that they do not
overlap and leave out only removed bytes.
-/

namespace TdRevent

open Interaction

/-- The operations that leave the positions to the buffer. -/
inductive StreamOp
  | write (buf : List UInt8)
  | read (len : ℕ)
  | drain (pos : ℕ)
  | drainCollect (pos : ℕ)
  | drainAll
  | drainAllCollect
  | clear
  deriving DecidableEq

def StreamOp.toOp : StreamOp → BufferOp
  | write buf => .write buf
  | read len => .read len
  | drain pos => .drain pos
  | drainCollect pos => .drainCollect pos
  | drainAll => .drainAll
  | drainAllCollect => .drainAllCollect
  | clear => .clear

/-- The bytes that an operation writes. -/
def StreamOp.bytes : StreamOp → List UInt8
  | write buf => buf
  | _ => []

/-- The stream of all bytes ever written. -/
structure ByteStream where
  written : List UInt8
  /-- How many bytes were removed from the front. -/
  removed : ℕ
  /-- Where the last read ended. -/
  readEnd : ℕ
  /-- The ranges of the reads, in order. -/
  spans : List (ℕ × ℕ)
  removed_le : removed ≤ written.length
  readEnd_le : readEnd ≤ written.length
  /-- No byte is read twice. -/
  ordered : spans.Pairwise fun a b => a.2 ≤ b.1
  ended : ∀ a ∈ spans, a.2 ≤ readEnd
  /-- No byte is left out that was not removed. -/
  seen : ∀ p < readEnd, p < removed ∨ ∃ a ∈ spans, a.1 ≤ p ∧ p < a.2

namespace ByteStream

def empty : ByteStream where
  written := []
  removed := 0
  readEnd := 0
  spans := []
  removed_le := Nat.le_refl 0
  readEnd_le := Nat.le_refl 0
  ordered := .nil
  ended := by simp
  seen := by simp

/-- Where the next read starts. -/
def start (s : ByteStream) : ℕ := max s.readEnd s.removed

theorem start_le (s : ByteStream) : s.start ≤ s.written.length :=
  Nat.max_le.mpr ⟨s.readEnd_le, s.removed_le⟩

/-- How many bytes a read of that many gets. -/
def available (s : ByteStream) (len : ℕ) : ℕ := min len (s.written.length - s.start)

def write (s : ByteStream) (buf : List UInt8) : ByteStream :=
  { s with
    written := s.written ++ buf
    removed_le := by
      rw [List.length_append]
      exact Nat.le_add_right_of_le s.removed_le
    readEnd_le := by
      rw [List.length_append]
      exact Nat.le_add_right_of_le s.readEnd_le }

def read (s : ByteStream) (len : ℕ) : ByteStream :=
  { s with
    readEnd := s.start + s.available len
    spans := s.spans ++ [(s.start, s.start + s.available len)]
    readEnd_le := by
      have hstart := s.start_le
      unfold available
      omega
    ordered := by
      refine List.pairwise_append.mpr ⟨s.ordered, List.pairwise_singleton .., ?_⟩
      intro a ha b hb
      rw [List.mem_singleton.mp hb]
      exact (s.ended a ha).trans (Nat.le_max_left ..)
    ended := by
      intro a ha
      rcases List.mem_append.mp ha with ha | ha
      · exact (s.ended a ha).trans ((Nat.le_max_left ..).trans (Nat.le_add_right ..))
      · obtain rfl := List.mem_singleton.mp ha
        exact Nat.le_refl _
    seen := by
      intro p hp
      by_cases hnew : s.start ≤ p
      · exact Or.inr ⟨_, List.mem_append_right _ (List.mem_singleton_self _), hnew, hp⟩
      · rcases lt_max_iff.mp (Nat.not_le.mp hnew) with hold | hremoved
        · rcases s.seen p hold with h | ⟨a, ha, hmem⟩
          · exact Or.inl h
          · exact Or.inr ⟨a, List.mem_append_left _ ha, hmem⟩
        · exact Or.inl hremoved }

/-- Remove that many bytes, or all that are left. -/
def remove (s : ByteStream) (n : ℕ) : ByteStream :=
  { s with
    removed := s.removed + min n (s.written.length - s.removed)
    removed_le := by
      have hle := s.removed_le
      omega
    seen := by
      intro p hp
      rcases s.seen p hp with h | h
      · exact Or.inl (Nat.lt_add_right _ h)
      · exact Or.inr h }

/-- The bytes that are not removed. -/
def rest (s : ByteStream) : List UInt8 := s.written.drop s.removed

theorem length_rest (s : ByteStream) : s.rest.length = s.written.length - s.removed :=
  List.length_drop

def next (s : ByteStream) : StreamOp → ByteStream
  | .write buf => s.write buf
  | .read len => s.read len
  | .drain pos => s.remove pos
  | .drainCollect pos => s.remove pos
  | .drainAll => s.remove s.rest.length
  | .drainAllCollect => s.remove s.rest.length
  | .clear => s.remove s.rest.length

/-- The bytes that an operation hands out. -/
def handed (s : ByteStream) : StreamOp → List UInt8
  | .read len => (s.written.drop s.start).take (s.available len)
  | .drainCollect pos => s.rest.take (min pos s.rest.length)
  | .drainAllCollect => s.rest
  | _ => []

/-- The stream as a machine that puts out what each operation hands out. -/
def machine : Machine ByteStream StreamOp (List UInt8) where
  next := next
  out s op := [s.handed op]

end ByteStream

namespace Buffer

/-- The buffer shows the stream from the removed bytes on. -/
structure Shows (b : Buffer) (s : ByteStream) : Prop where
  val : b.val = s.rest
  wpos : b.wpos = b.val.length
  rpos : b.rpos = s.start - s.removed

variable {b : Buffer} {s : ByteStream}

theorem new_shows : new.Shows .empty := ⟨rfl, rfl, rfl⟩

theorem Shows.inside (h : b.Shows s) : b.rpos ≤ b.val.length := by
  have hstart := s.start_le
  rw [h.rpos, h.val, s.length_rest]
  omega

/-- The bytes that a read can get. -/
theorem Shows.left (h : b.Shows s) (len : ℕ) :
    min len (b.val.length - b.rpos) = s.available len := by
  have hremoved : s.removed ≤ s.start := Nat.le_max_right ..
  have hstart := s.start_le
  rw [h.rpos, h.val, s.length_rest, ByteStream.available]
  omega

theorem Shows.write (h : b.Shows s) (buf : List UInt8) : (b.write buf).Shows (s.write buf) where
  val := by
    rw [write_val h.wpos, h.val]
    exact (List.drop_append_of_le_length s.removed_le).symm
  wpos := write_atEnd h.wpos buf
  rpos := h.rpos

theorem Shows.drain (h : b.Shows s) (pos : ℕ) : (b.drain pos).Shows (s.remove pos) where
  val := by
    change b.val.drop (min b.val.length pos) = _
    rw [h.val, s.length_rest, Nat.min_comm]
    exact List.drop_drop
  wpos := drain_atEnd h.wpos pos
  rpos := by
    have hend := s.readEnd_le
    have hrpos : b.rpos = max s.readEnd s.removed - s.removed := h.rpos
    change b.rpos - min b.rpos pos =
      max s.readEnd (s.removed + min pos (s.written.length - s.removed)) -
        (s.removed + min pos (s.written.length - s.removed))
    omega

theorem Shows.clear (h : b.Shows s) : b.clear.Shows (s.remove s.rest.length) := by
  have hdrain := h.drain s.rest.length
  have hval : (b.drain s.rest.length).val = [] := by
    rw [drain_val, h.val, List.drop_length]
  have hwpos : (b.drain s.rest.length).wpos = 0 := by rw [hdrain.wpos, hval, List.length_nil]
  have hrpos : (b.drain s.rest.length).rpos = 0 := by
    have hinside := hdrain.inside
    rw [hval] at hinside
    exact Nat.le_zero.mp hinside
  exact ⟨hval.symm.trans hdrain.val, rfl, hrpos.symm.trans hdrain.rpos⟩

theorem Shows.read (h : b.Shows s) (len : ℕ) :
    Checked.read b len = .ok ((s.written.drop s.start).take (s.available len),
      { b with rpos := b.rpos + s.available len }) ∧
    Shows { b with rpos := b.rpos + s.available len } (s.read len) := by
  have hremoved : s.removed ≤ s.start := Nat.le_max_right ..
  constructor
  · rw [Checked.read_eq b h.inside, h.left, h.val, ByteStream.rest, List.drop_drop, h.rpos,
      Nat.add_sub_cancel' hremoved]
  · refine ⟨h.val, h.wpos, ?_⟩
    have hrpos := h.rpos
    change b.rpos + s.available len = max (s.start + s.available len) s.removed - s.removed
    omega

/-- What `drainCollect` hands out is what it removes. -/
theorem Shows.drainCollect (h : b.Shows s) (pos : ℕ) :
    Checked.drainCollect b pos = .ok (s.rest.take (min pos s.rest.length), b.drain pos) := by
  rw [Checked.drainCollect_eq, h.val, Nat.min_comm]

theorem Shows.drainAllCollect (h : b.Shows s) :
    Checked.drainAllCollect b = .ok (s.rest, b.clear) := by
  rw [Checked.drainAllCollect_eq, h.val]

/-- One operation on the buffer and on the stream. -/
theorem Shows.step (h : b.Shows s) (op : StreamOp) :
    ∃ b', b.step op.toOp = .ok (s.handed op, b') ∧ b'.Shows (s.next op) := by
  cases op with
  | write buf =>
      exact ⟨b.write buf, congrArg (Except.map _) (Checked.write_eq b buf), h.write buf⟩
  | read len => exact ⟨_, (h.read len).1, (h.read len).2⟩
  | drain pos => exact ⟨b.drain pos, congrArg (Except.map _) (Checked.drain_eq b pos), h.drain pos⟩
  | drainCollect pos => exact ⟨b.drain pos, h.drainCollect pos, h.drain pos⟩
  | drainAll =>
      exact ⟨b.clear, congrArg (Except.map _) (Checked.drainAll_eq b), h.clear⟩
  | drainAllCollect => exact ⟨b.clear, h.drainAllCollect, h.clear⟩
  | clear => exact ⟨b.clear, rfl, h.clear⟩

/-- A run of the buffer hands out what the stream does. -/
theorem Shows.run (h : b.Shows s) (ops : List StreamOp) :
    ∃ b', b.run (ops.map StreamOp.toOp) = .ok (ByteStream.machine.outputs s ops, b') ∧
      b'.Shows (ByteStream.machine.final s ops) := by
  induction ops generalizing b s with
  | nil => exact ⟨b, rfl, h⟩
  | cons op ops ih =>
      obtain ⟨b', hstep, hshows⟩ := h.step op
      obtain ⟨b'', hrun, hfinal⟩ := ih hshows
      refine ⟨b'', ?_, hfinal⟩
      rw [List.map_cons, run_cons hstep, hrun]
      rfl

end Buffer

/-- The stream holds all bytes that the operations wrote. -/
theorem ByteStream.written_final (s : ByteStream) (ops : List StreamOp) :
    (machine.final s ops).written = s.written ++ (ops.map StreamOp.bytes).flatten := by
  induction ops generalizing s with
  | nil => simp [Machine.final]
  | cons op ops ih =>
      have hnext : (machine.next s op).written = s.written ++ op.bytes := by
        cases op <;> simp [machine, next, write, read, remove, StreamOp.bytes]
      rw [Machine.final, ih, hnext, List.map_cons, List.flatten_cons, List.append_assoc]

/-- From `Buffer::new` on, any sequence of operations keeps the positions inside
the bytes, and the bytes are those written less those removed. What is drained
is handed out by the collecting variants, which do the same otherwise. A read
gets the next bytes after the previous read and after the removed ones. Hence
the reads hand out no byte twice, and leave out only removed bytes. -/
theorem buffer_is_stream (ops : List StreamOp) :
    let s := ByteStream.machine.final .empty ops
    ∃ b, Buffer.new.run (ops.map StreamOp.toOp) = .ok (ByteStream.machine.outputs .empty ops, b) ∧
      b.wpos = b.val.length ∧ b.rpos ≤ b.val.length ∧
      s.written = (ops.map StreamOp.bytes).flatten ∧ b.val = s.written.drop s.removed ∧
      (∀ n, (s.remove n).removed = s.removed + min n b.val.length ∧
        ∃ b', Buffer.Checked.drain b n = .ok b' ∧
          Buffer.Checked.drainCollect b n = .ok (b.val.take (min n b.val.length), b') ∧
          b'.val = b.val.drop (min n b.val.length)) ∧
      (∃ b', Buffer.Checked.drainAll b = .ok b' ∧
        Buffer.Checked.drainAllCollect b = .ok (b.val, b') ∧ b.clear = b' ∧ b'.val = []) ∧
      (∀ len, (s.read len).readEnd = max s.readEnd s.removed + min len (b.val.length - b.rpos) ∧
        ∃ b', Buffer.Checked.read b len = .ok ((s.written.drop (max s.readEnd s.removed)).take
          (min len (b.val.length - b.rpos)), b')) ∧
      s.spans.Pairwise (fun x y => x.2 ≤ y.1) ∧
      ∀ p < s.readEnd, p < s.removed ∨ ∃ x ∈ s.spans, x.1 ≤ p ∧ p < x.2 := by
  intro s
  obtain ⟨b, hrun, h⟩ := Buffer.new_shows.run ops
  refine ⟨b, hrun, h.wpos, h.inside, ByteStream.written_final .empty ops, h.val, fun n => ?_,
    ?_, fun len => ?_, s.ordered, s.seen⟩
  · refine ⟨?_, b.drain n, Buffer.Checked.drain_eq b n, ?_, ?_⟩
    · rw [h.val, ByteStream.length_rest]
      rfl
    · rw [Nat.min_comm]
      exact Buffer.Checked.drainCollect_eq b n
    · rw [Nat.min_comm]
      rfl
  · exact ⟨b.clear, Buffer.Checked.drainAll_eq b, Buffer.Checked.drainAllCollect_eq b, rfl, rfl⟩
  · rw [h.left]
    exact ⟨rfl, _, (h.read len).1⟩

end TdRevent
