import TdRevent.Interaction.Ownership
import Mathlib.Algebra.Order.Group.Multiset

/-!
# The counted pointer of the events

A `FromRawArc` shares one allocation among threads. The operations of all threads are
interleaved at the accesses to the count. As long as every reference that `fetchSub`
gives up was made by `fetchAdd`, the allocation is released exactly once, after the last
reference, and nobody touches it then.

## Implementation notes

There is one allocation, so a pointer to it carries nothing. The accesses to the count are
atomic. Their memory orders and the fence of `drop` are left out. `fetchAdd` has no check
for an overflow, so the results are about runs in which the count does not overflow.
-/

namespace TdRevent

open Interaction

/-- The allocation. -/
structure Inner (T : Type) where
  data : T
  cnt : UInt64
  /-- How often it was released. -/
  freed : ℕ

/-- An access to the allocation. -/
inductive ArcAsk
  | deref
  | fetchAdd
  | load
  | fetchSub
  | free

@[reducible] def ArcReply (T : Type) : ArcAsk → Type
  | .deref => T
  | .fetchAdd => UInt64
  | .load => UInt64
  | .fetchSub => UInt64
  | .free => Unit

abbrev ArcCode (T α : Type) := Code Unit (ArcReply T) α

/-- A pointer to the allocation. -/
structure FromRawArc where

namespace FromRawArc

variable {T : Type}

def new (data : T) : Inner T × FromRawArc := (⟨data, 1, 0⟩, ⟨⟩)

def fetchAdd (_self : FromRawArc) : ArcCode T Unit := do
  let _ ← .query ArcAsk.fetchAdd

def fromRaw : ArcCode T FromRawArc := do
  let arc : FromRawArc := ⟨⟩
  fetchAdd arc
  pure arc

def drop (_self : FromRawArc) : ArcCode T Unit := do
  let cnt ← .query ArcAsk.fetchSub
  if cnt ≠ 1 then pure ()
  else .query ArcAsk.free

def fetchSub (self : FromRawArc) : ArcCode T (Option FromRawArc) := do
  let cnt ← .query ArcAsk.load
  if cnt = 1 then do
    drop self
    pure none
  else do
    let _ ← .query ArcAsk.fetchSub
    pure (some self)

def clone (self : FromRawArc) : ArcCode T FromRawArc := do
  fetchAdd self
  pure self

def deref (_self : FromRawArc) : ArcCode T T := .query ArcAsk.deref

end FromRawArc

variable {T : Type}

def ArcAsk.answer : (q : ArcAsk) → Inner T → ArcReply T q → Inner T → Prop
  | .deref, s, r, t => r = s.data ∧ t = s
  | .fetchAdd, s, r, t => r = s.cnt ∧ t = { s with cnt := s.cnt + 1 }
  | .load, s, r, t => r = s.cnt ∧ t = s
  | .fetchSub, s, r, t => r = s.cnt ∧ t = { s with cnt := s.cnt - 1 }
  | .free, s, _, t => t = { s with freed := s.freed + 1 }

/-! ## What is owned -/

/-- A reference to the allocation. The count does not tell a pointer from a reference that
`fetchAdd` made. Who gave up the last reference has to release the allocation. -/
inductive Reference
  | handle
  | raw
  | last
  deriving DecidableEq

/-- How many references are counted. -/
def refs (m : Multiset Reference) : ℕ := m.count .handle + m.count .raw

/-- The count is that of the references, and the allocation is released once, by the owner
of the last reference. -/
structure Counts (s : Inner T) (m : Multiset Reference) : Prop where
  cnt : s.cnt.toNat = refs m
  once : s.freed + m.count .last = if refs m = 0 then 1 else 0

/-- The allocation among its threads, in the runs in which the count does not overflow. -/
def allocation (T : Type) : Shared (Inner T) (ArcReply T) (Multiset Reference) where
  answer q s r t := q.answer s r t ∧ (q = .fetchAdd → s.cnt + 1 ≠ 0)
  guard _ s := s.freed = 0
  inv := Counts
  outside m := .last ∉ m
  outside_add m m' := by rw [Multiset.mem_add, not_or]

/-- What the threads call. `fromRaw` is called with the address that a raw reference or a
pointer keeps alive. -/
inductive ArcCall
  | deref
  | clone
  | fromRaw
  | fromRawOfHandle
  | fetchAdd
  | fetchSub
  | drop

/-- The code of a call, with the references that it takes over, borrows and gives back. -/
def ArcCall.op : ArcCall → Operation (ArcReply T) (Multiset Reference)
  | .deref => ⟨0, {.handle}, do let _ ← FromRawArc.deref ⟨⟩; pure 0⟩
  | .clone => ⟨0, {.handle}, do let _ ← FromRawArc.clone ⟨⟩; pure {.handle}⟩
  | .fromRaw => ⟨0, {.raw}, do let _ ← FromRawArc.fromRaw; pure {.handle}⟩
  | .fromRawOfHandle => ⟨0, {.handle}, do let _ ← FromRawArc.fromRaw; pure {.handle}⟩
  | .fetchAdd => ⟨0, {.handle}, do FromRawArc.fetchAdd ⟨⟩; pure {.raw}⟩
  | .fetchSub => ⟨({.handle} : Multiset Reference) + {.raw}, 0, do
      match ← FromRawArc.fetchSub ⟨⟩ with
      | some _ => pure {.handle}
      | none => pure {.raw}⟩
  | .drop => ⟨{.handle}, 0, do FromRawArc.drop ⟨⟩; pure 0⟩

/-! ## The accesses -/

section

variable {s : Inner T} {m : Multiset Reference}

@[simp] theorem refs_add (m m' : Multiset Reference) : refs (m + m') = refs m + refs m' := by
  simp only [refs, Multiset.count_add]
  omega

@[simp] theorem refs_handle : refs {.handle} = 1 := rfl

@[simp] theorem refs_raw : refs {.raw} = 1 := rfl

@[simp] theorem refs_last : refs {.last} = 0 := rfl

@[simp] theorem refs_zero : refs 0 = 0 := rfl

theorem Reference.counted {r : Reference} (hr : r ≠ .last) :
    refs {r} = 1 ∧ ({r} : Multiset Reference).count .last = 0 := by
  cases r with
  | last => exact absurd rfl hr
  | _ => exact ⟨rfl, rfl⟩

/-- A reference keeps the allocation. -/
theorem Counts.live (h : Counts s m) (hm : refs m ≠ 0) : s.freed = 0 ∧ m.count .last = 0 := by
  have honce := h.once
  rw [if_neg hm] at honce
  omega

/-- So does the duty to release it. -/
theorem Counts.due (h : Counts s m) (hm : .last ∈ m) : s.freed = 0 ∧ refs m = 0 := by
  have honce := h.once
  have hpos := Multiset.count_pos.mpr hm
  split at honce <;> omega

theorem Counts.add (h : Counts s m) {r : Reference} (hr : r ≠ .last) (hm : refs m ≠ 0)
    (hroom : s.cnt + 1 ≠ 0) : Counts { s with cnt := s.cnt + 1 } ({r} + m) := by
  have hone := Reference.counted hr
  have hfits : s.cnt.toNat + 1 < 2 ^ 64 := by
    by_contra hge
    have hlt := s.cnt.toNat_lt
    apply hroom
    apply UInt64.toNat_inj.mp
    rw [UInt64.toNat_add]
    simp only [UInt64.reduceToNat]
    omega
  refine ⟨?_, ?_⟩
  · rw [UInt64.toNat_add, refs_add, hone.1, ← h.cnt]
    simp only [UInt64.reduceToNat]
    omega
  · have hlive := h.live hm
    rw [refs_add, Multiset.count_add, hone.1, hone.2, if_neg (by omega)]
    exact (by omega : s.freed + (0 + m.count .last) = 0)

theorem Counts.sub {r : Reference} (hr : r ≠ .last) (h : Counts s ({r} + m)) :
    (s.cnt = 1 ↔ refs m = 0) ∧
      Counts { s with cnt := s.cnt - 1 } (if refs m = 0 then {Reference.last} + m else m) := by
  have hone := Reference.counted hr
  have hcnt := h.cnt
  rw [refs_add, hone.1] at hcnt
  have hlive := h.live (by rw [refs_add, hone.1]; omega)
  rw [Multiset.count_add, hone.2] at hlive
  have hsub : (s.cnt - 1).toNat = refs m := by
    rw [UInt64.toNat_sub_of_le _ _ (UInt64.le_iff_toNat_le.mpr (by
      simp only [UInt64.reduceToNat]
      omega))]
    simp only [UInt64.reduceToNat]
    omega
  refine ⟨?_, ?_⟩
  · rw [← UInt64.toNat_inj, hcnt]
    simp only [UInt64.reduceToNat]
    omega
  · by_cases hm : refs m = 0
    · have hlast : refs ({Reference.last} + m) = 0 := by rw [refs_add, refs_last, hm]
      rw [if_pos hm]
      refine ⟨by rw [hsub, hlast, hm], ?_⟩
      rw [if_pos hlast, Multiset.count_add, Multiset.count_singleton_self]
      change s.freed + _ = 1
      omega
    · rw [if_neg hm]
      refine ⟨hsub, ?_⟩
      rw [if_neg hm]
      change s.freed + _ = 0
      omega

theorem Counts.free (h : Counts s ({Reference.last} + m)) :
    Counts { s with freed := s.freed + 1 } m := by
  have hrefs : refs m = 0 := by
    have hdue := (h.due (Multiset.mem_add.mpr (Or.inl (Multiset.mem_singleton_self _)))).2
    rwa [refs_add, refs_last, Nat.zero_add] at hdue
  have honce := h.once
  rw [refs_add, refs_last, hrefs, Multiset.count_add, Multiset.count_singleton_self,
    if_pos rfl] at honce
  refine ⟨?_, ?_⟩
  · have hcnt := h.cnt
    rwa [refs_add, refs_last, Nat.zero_add] at hcnt
  · rw [hrefs, if_pos rfl]
    change s.freed + 1 + _ = 1
    omega

end

/-! ## The operations -/

section

variable {borrowed m : Multiset Reference}

/-- An access through what is borrowed. -/
theorem owns_fetchAdd {r : Reference} (hr : r ≠ .last) (hborrowed : refs borrowed ≠ 0) :
    (FromRawArc.fetchAdd ⟨⟩ : ArcCode T Unit).Owns (allocation T) borrowed
      (fun _ m => m = {r}) 0 := by
  refine .bind (.query fun s rest hs => ?_)
  have hpos : refs (borrowed + rest) ≠ 0 := by
    rw [refs_add]
    omega
  rw [zero_add] at hs
  refine ⟨(Counts.live hs hpos).1, ?_⟩
  rintro _ _ ⟨⟨rfl, rfl⟩, hroom⟩
  exact ⟨{r}, Counts.add hs hr hpos (hroom rfl), rfl⟩

/-- The decrement gives up one reference. Who gave up the last one has to release. -/
theorem owns_query_fetchSub {r : Reference} (hr : r ≠ .last) :
    (Code.query ArcAsk.fetchSub : ArcCode T UInt64).Owns (allocation T) borrowed
      (fun cnt m' => (cnt = 1 ∧ refs (m + borrowed) = 0 ∧ m' = {Reference.last} + m) ∨
        (cnt ≠ 1 ∧ m' = m)) ({r} + m) := by
  refine .query fun s rest hs => ?_
  have hs' : Counts s ({r} + (m + (borrowed + rest))) := by rwa [← add_assoc]
  have hpos : refs ({r} + m + (borrowed + rest)) ≠ 0 := by
    rw [refs_add, refs_add, (Reference.counted hr).1]
    omega
  refine ⟨(Counts.live hs hpos).1, ?_⟩
  rintro _ _ ⟨⟨rfl, rfl⟩, -⟩
  obtain ⟨hone, hcounts⟩ := Counts.sub hr hs'
  by_cases hrest : refs (m + (borrowed + rest)) = 0
  · rw [if_pos hrest, ← add_assoc] at hcounts
    refine ⟨({Reference.last} : Multiset Reference) + m, hcounts,
      Or.inl ⟨hone.mpr hrest, ?_, rfl⟩⟩
    rw [refs_add, refs_add] at hrest
    rw [refs_add]
    omega
  · rw [if_neg hrest] at hcounts
    exact ⟨m, hcounts, Or.inr ⟨fun h => hrest (hone.mp h), rfl⟩⟩

theorem owns_drop :
    (FromRawArc.drop ⟨⟩ : ArcCode T Unit).Owns (allocation T) borrowed
      (fun _ m => m = 0) {.handle} := by
  refine .bind ?_
  rw [← add_zero ({Reference.handle} : Multiset Reference)]
  refine (owns_query_fetchSub (r := .handle) (m := 0) (by decide)).mono fun cnt m h => ?_
  rcases h with ⟨rfl, -, rfl⟩ | ⟨hne, rfl⟩
  · rw [if_neg fun h => h rfl, add_zero]
    refine .query fun s rest hs => ?_
    refine ⟨(Counts.due hs (Multiset.mem_add.mpr (Or.inl (Multiset.mem_singleton_self _)))).1, ?_⟩
    rintro _ _ ⟨rfl, -⟩
    exact ⟨0, by rw [zero_add]; exact Counts.free hs, rfl⟩
  · rw [if_pos hne]
    exact rfl

/-- Who owns a pointer and another reference gives up the reference. -/
theorem owns_fetchSub :
    (FromRawArc.fetchSub ⟨⟩ : ArcCode T (Option FromRawArc)).Owns (allocation T) 0
      (fun ret m => ret = some ⟨⟩ ∧ m = {.handle}) ({.handle} + {.raw}) := by
  refine .bind (.mono (.query (Q := fun cnt m => cnt ≠ 1 ∧ m = {.handle} + {.raw})
    fun s rest hs => ?_) fun cnt m h => ?_)
  · have htwo : refs ({Reference.handle} + {Reference.raw} + (0 + rest)) = 2 + refs rest := by
      simp only [refs_add, refs_handle, refs_raw, refs_zero]
      omega
    refine ⟨(Counts.live hs (by rw [htwo]; omega)).1, ?_⟩
    rintro _ _ ⟨⟨rfl, rfl⟩, -⟩
    refine ⟨_, hs, fun hone => ?_, rfl⟩
    have hcnt := hs.cnt
    rw [htwo, hone] at hcnt
    simp only [UInt64.reduceToNat] at hcnt
    omega
  · obtain ⟨hne, rfl⟩ := h
    rw [if_neg hne, add_comm]
    refine .bind (.mono (owns_query_fetchSub (r := .raw) (m := {.handle}) (by decide)) ?_)
    intro cnt m h
    rcases h with ⟨-, hrefs, -⟩ | ⟨-, rfl⟩
    · simp at hrefs
    · exact ⟨rfl, rfl⟩

theorem owns_deref (hborrowed : refs borrowed ≠ 0) :
    (FromRawArc.deref ⟨⟩ : ArcCode T T).Owns (allocation T) borrowed (fun _ m => m = 0) 0 := by
  refine .query fun s rest hs => ?_
  have hpos : refs (0 + (borrowed + rest)) ≠ 0 := by
    rw [refs_add, refs_add]
    omega
  refine ⟨(Counts.live hs hpos).1, ?_⟩
  rintro _ _ ⟨⟨-, rfl⟩, -⟩
  exact ⟨0, hs, rfl⟩

/-- What a call gives back may be owned outside the calls. -/
theorem outside_of_ne {r : Reference} (hr : r ≠ .last) : (allocation T).outside {r} :=
  fun hmem => hr (Multiset.mem_singleton.mp hmem).symm

/-- A call that makes a pointer out of what it borrows. -/
theorem owns_pointer {α : Type} (a : α) (hborrowed : refs borrowed ≠ 0) :
    (do
      let _ ← (do FromRawArc.fetchAdd ⟨⟩; pure a : ArcCode T α)
      pure {.handle} : ArcCode T (Multiset Reference)).Owns (allocation T) borrowed
        (fun a m => m = a ∧ (allocation T).outside a) 0 := by
  refine .bind (.bind ((owns_fetchAdd (r := .handle) (by decide) hborrowed).mono ?_))
  rintro _ _ rfl
  exact ⟨rfl, outside_of_ne (by decide)⟩

/-- Every call is sound. -/
theorem ArcCall.sound (call : ArcCall) : call.op.Sound (allocation T) := by
  have hhandle : refs {.handle} ≠ 0 := one_ne_zero
  have hraw : refs {.raw} ≠ 0 := one_ne_zero
  cases call with
  | deref =>
      refine .bind ((owns_deref hhandle).mono ?_)
      rintro _ _ rfl
      exact ⟨rfl, Multiset.notMem_zero _⟩
  | clone => exact owns_pointer _ hhandle
  | fromRaw => exact owns_pointer _ hraw
  | fromRawOfHandle => exact owns_pointer _ hhandle
  | fetchAdd =>
      refine .bind ((owns_fetchAdd (r := .raw) (by decide) hhandle).mono ?_)
      rintro _ _ rfl
      exact ⟨rfl, outside_of_ne (by decide)⟩
  | fetchSub =>
      refine .bind (owns_fetchSub.mono ?_)
      rintro _ _ ⟨rfl, rfl⟩
      exact ⟨rfl, outside_of_ne (by decide)⟩
  | drop =>
      refine .bind (owns_drop.mono ?_)
      rintro _ _ rfl
      exact ⟨rfl, Multiset.notMem_zero _⟩

end

/-! ## The main result -/

/-- The threads that share an allocation, and the calls that they make. -/
abbrev Threads (T : Type) := Pool (Inner T) (ArcReply T) (Multiset Reference)

/-- What the threads reach from a new pointer. -/
abbrev Shares (data : T) : Threads T → Prop :=
  Pool.Reaches (allocation T) (fun op => ∃ call : ArcCall, op = call.op)
    ⟨(FromRawArc.new data).1, {.handle}, []⟩

theorem owned_new (data : T) :
    Pool.Owned (allocation T) ⟨(FromRawArc.new data).1, {.handle}, []⟩ [] :=
  ⟨.nil, (by decide : Reference.last ∉ ({.handle} : Multiset Reference)), nofun, rfl, rfl⟩

/-- However the calls of the threads are interleaved, no access comes after the release,
and the allocation is released once at most: exactly when no call is running and no
reference is left. Until then the count is that of the references. -/
theorem released_once (data : T) (pool : Threads T) (hreach : Shares data pool) :
    (∀ task ∈ pool.tasks, ∀ q next, task.code.head = .inr ⟨q, next⟩ → pool.state.freed = 0) ∧
      pool.state.freed ≤ 1 ∧
      (pool.idle ≠ 0 → pool.state.freed = 0) ∧
      (pool.tasks = [] → pool.state.cnt.toNat = refs pool.idle ∧
        (pool.state.freed = 1 ↔ pool.idle = 0)) := by
  obtain ⟨ms, howned⟩ := (owned_new data).reaches
    (fun op ⟨call, hcall⟩ => hcall ▸ call.sound) hreach
  have hcounts : Counts pool.state (ms.sum + pool.idle) := howned.inv
  have hlast : pool.idle.count .last = 0 := Multiset.count_eq_zero.mpr howned.outside
  have hidle : pool.idle ≠ 0 → refs pool.idle ≠ 0 := by
    intro hne hrefs
    obtain ⟨r, hr⟩ := Multiset.exists_mem_of_ne_zero hne
    have hpos := Multiset.count_pos.mpr hr
    unfold refs at hrefs
    cases r <;> omega
  refine ⟨fun task htask q next hcode => howned.guard htask hcode, ?_, fun hne => ?_,
    fun htasks => ?_⟩
  · have honce := hcounts.once
    split at honce <;> omega
  · refine (hcounts.live ?_).1
    rw [refs_add]
    have := hidle hne
    omega
  · have hms : ms = [] := by
      have hall := howned.tasks
      rwa [htasks, List.forall₂_nil_left_iff] at hall
    rw [hms, List.sum_nil, zero_add] at hcounts
    refine ⟨hcounts.cnt, ?_⟩
    have honce := hcounts.once
    rw [hlast] at honce
    by_cases hzero : pool.idle = 0
    · simp [hzero] at honce ⊢
      exact honce
    · rw [if_neg (hidle hzero)] at honce
      simp only [hzero, iff_false]
      omega

/-- Two threads drop a pointer each. One of them counts down first and does not release,
the other counts down before the first returns. -/
theorem released_once_drop :
    ∃ pool : Threads ℕ, Shares 5 pool ∧ pool.tasks = [] ∧ pool.state.freed = 1 := by
  have lent : ∀ (idle : Multiset Reference) (tasks : List (Task (ArcReply ℕ) _)),
      (∀ task ∈ tasks, task.borrowed = 0) → Pool.Lent idle tasks :=
    fun idle tasks h task htask => ⟨idle, by rw [h task htask, zero_add]⟩
  have cloning : Shares (5 : ℕ) ⟨⟨5, 1, 0⟩, {.handle}, [⟨{.handle}, ArcCall.clone.op.code⟩]⟩ :=
    .single (@Pool.Step.call _ _ _ _ _ (allocation ℕ) _ _ {.handle} [] ArcCall.clone.op
      ⟨.clone, rfl⟩ fun task htask => ⟨0, by
        obtain rfl := List.mem_singleton.mp htask
        rfl⟩)
  have cloned := (cloning.tail (.answer_only (q := ArcAsk.fetchAdd) (1 : UInt64) rfl
    ⟨⟨rfl, rfl⟩, fun _ => by decide⟩)).tail (.finish_only rfl)
  have first := cloned.tail (@Pool.Step.call _ _ _ _ _ (allocation ℕ) _ _ _ [] ArcCall.drop.op
    ⟨.drop, rfl⟩ (lent _ _ (by simp [ArcCall.op])))
  have second := first.tail (@Pool.Step.call _ _ _ _ _ (allocation ℕ) _ _ 0 _ ArcCall.drop.op
    ⟨.drop, rfl⟩ (lent _ _ (by simp [ArcCall.op])))
  -- the second thread counts down to one, then the first to zero
  have counted := (second.tail (@Pool.Step.answer _ _ _ _ _ (allocation ℕ) _ _ _ _ [] [_] _ _
    ArcAsk.fetchSub _ (2 : UInt64) rfl ⟨⟨rfl, rfl⟩, nofun⟩)).tail
    (@Pool.Step.answer _ _ _ _ _ (allocation ℕ) _ _ _ _ [_] [] _ _ ArcAsk.fetchSub _ (1 : UInt64)
      rfl ⟨⟨rfl, rfl⟩, nofun⟩)
  have returned := counted.tail (@Pool.Step.finish _ _ _ _ _ (allocation ℕ) _ _ _ [] [_] _ _ _ rfl)
  have over_ := (returned.tail (.answer_only (q := ArcAsk.free) () rfl ⟨rfl, nofun⟩)).tail
    (.finish_only rfl)
  exact ⟨_, over_, rfl, ((released_once 5 _ over_).2.2.2 rfl).2.mpr rfl⟩
end TdRevent
