import TdRevent.Interaction.Trace
import TdRevent.Unix.Epoll
import TdRevent.Unix.Kqueue
import TdRevent.Win.Selector

/-!
# What a poll hands to the handlers

`doSelect` waits once and takes up the events that the wait returned. Not every
event goes to a handler: epoll returns kinds that no handler asks for, and the
completion port returns packets without a callback.

## Implementation notes

`doSelectCounted` is `doSelect` with its result and the number of events that
went to a handler. The definitions are compared by `doSelect_eq`. A handler may
poll again and replace the events, so the count is known in advance only as far
as no event before went to a handler.
-/

namespace TdRevent

open Interaction

variable {σ δ κ : Type} {ρ : κ → Type}

/-- What `doSelect` returns and what it asks of its environment, for a wait that
failed or returned events. The flags tell which of the events go to a handler. -/
inductive Polled {α : Type} :
    Except IoError (List Bool) → Except IoError (ℕ × ℕ) → List α → Prop
  | failed (e : IoError) : Polled (.error e) (.error e) []
  | idle {flags : List Bool} (hflags : true ∉ flags) :
      Polled (.ok flags) (.ok (flags.length, 0)) []
  | busy {flags : List Bool} {dispatched : ℕ} {rest : List α} (hflags : true ∈ flags)
      (hpos : 0 < dispatched) : Polled (.ok flags) (.ok (flags.length, dispatched)) rest

/-- What is asked matters only as far as nothing is. -/
theorem Polled.of_forall₂ {α β : Type} {R : β → α → Prop} {flags : Except IoError (List Bool)}
    {ret : Except IoError (ℕ × ℕ)} {rest : List α} {rest' : List β}
    (h : Polled flags ret rest) (hrest : List.Forall₂ R rest' rest) : Polled flags ret rest' := by
  cases h with
  | failed e =>
      cases hrest
      exact .failed e
  | idle hflags =>
      cases hrest
      exact .idle hflags
  | busy hflags hpos => exact .busy hflags hpos

/-- The code waits once, and then hands the events of the wait to the handlers. -/
def Polls (doSelect : Code σ ρ (Except IoError (ℕ × ℕ))) (wait : κ)
    (seen : ρ wait → Except IoError (List Bool)) : Prop :=
  ∀ {ans s tr r t}, doSelect.Trace ans s tr r t →
    ∃ ret u rest, ans wait s ret u ∧ tr = ⟨wait, s, ret, u⟩ :: rest ∧ Polled (seen ret) r rest

namespace Unix

namespace Epoll

/-- The event goes to a handler. -/
def EpollEvent.handled (value : EpollEvent) : Prop :=
  .EPOLLIN ∈ value.events ∨ .EPOLLOUT ∈ value.events

instance (value : EpollEvent) : Decidable value.handled := inferInstanceAs (Decidable (_ ∨ _))

/-- The loop of `doSelect` with the number of events that went to a handler. -/
def dispatchCounted : ℕ → ℕ → ℕ → EpollCode δ ℕ
  | 0, _, dispatched => pure dispatched
  | left + 1, i, dispatched => do
      let sel ← .read
      match sel.evts[i]? with
      | none => .ask .panic nofun
      | some value => do
          .when (.EPOLLIN ∈ value.events) (readDone (.ofU64 value.data))
          .when (.EPOLLOUT ∈ value.events) (writeDone (.ofU64 value.data))
          dispatchCounted left (i + 1) (if value.handled then dispatched + 1 else dispatched)

def doSelectCounted : EpollCode δ (Except IoError (ℕ × ℕ)) := do
  let ret ← .query (SockAsk.sys EpollCall.epollWait)
  match ret with
  | .error e => pure (.error e)
  | .ok events => do
      .modify fun sel => { sel with evts := events }
      let dispatched ← dispatchCounted events.length 0 0
      pure (.ok (events.length, dispatched))

theorem dispatch_eq (left i dispatched : ℕ) :
    (dispatch left i : EpollCode δ Unit) =
      dispatchCounted left i dispatched >>= fun _ => pure () := by
  induction left generalizing i dispatched with
  | zero => rfl
  | succ left ih =>
      simp only [dispatch, dispatchCounted, bind_assoc]
      refine congrArg (Code.read >>= ·) (funext fun sel => ?_)
      rcases sel.evts[i]? with _ | value
      · exact congrArg (Code.ask SockAsk.panic) (funext nofun)
      · simp only [bind_assoc, ← ih (i + 1)]

theorem doSelect_eq :
    (doSelect : EpollCode δ Unit) = doSelectCounted >>= fun _ => pure () := by
  simp only [doSelect, doSelectCounted, bind_assoc]
  refine congrArg (Code.query _ >>= ·) (funext fun ret => ?_)
  rcases ret with e | events
  · rfl
  · simp only [dispatch_eq events.length 0 0, bind_assoc, pure_bind]

variable {ans : (q : SockAsk SOCKET EpollCall) → Selector SOCKET δ (List EpollEvent) Interest →
    SockReply EpollReply q → Selector SOCKET δ (List EpollEvent) Interest → Prop}
  {s t : Selector SOCKET δ (List EpollEvent) Interest}
  {tr : List (Exchange (Selector SOCKET δ (List EpollEvent) Interest)
    (SockReply (S := SOCKET) EpollReply))} {left i n dispatched : ℕ}

theorem le_dispatchCounted (h : (dispatchCounted left i n).Trace ans s tr dispatched t) :
    n ≤ dispatched := by
  induction left generalizing i n s tr with
  | zero => exact h.2.1.ge
  | succ left ih =>
      rw [dispatchCounted, Code.trace_read_then] at h
      cases hvalue : s.evts[i]? with
      | none =>
          rw [hvalue] at h
          obtain ⟨r, -⟩ := h
          exact nomatch r
      | some value =>
          simp only [hvalue] at h
          obtain ⟨_, _, _, h⟩ := h.rest
          obtain ⟨_, _, _, h⟩ := h.rest
          exact (by split <;> omega : n ≤ if value.handled then n + 1 else n).trans (ih h)

/-- Up to the first event that goes to a handler nothing happens. -/
theorem trace_dispatchCounted (h : (dispatchCounted left i n).Trace ans s tr dispatched t)
    (hleft : s.evts.length = i + left) :
    (∃ value ∈ s.evts.drop i, value.handled) ∧ n < dispatched ∨
      (∀ value ∈ s.evts.drop i, ¬ value.handled) ∧ dispatched = n ∧ tr = [] := by
  induction left generalizing i n with
  | zero =>
      obtain ⟨rfl, rfl, -⟩ := h
      have hnil : s.evts.drop i = [] := List.drop_eq_nil_of_le hleft.le
      exact Or.inr ⟨by simp [hnil], rfl, rfl⟩
  | succ left ih =>
      have hi : i < s.evts.length := by omega
      rw [dispatchCounted, Code.trace_read_then, List.getElem?_eq_getElem hi] at h
      rw [List.drop_eq_getElem_cons hi]
      by_cases hhandled : s.evts[i].handled
      · simp only [if_pos hhandled] at h
        obtain ⟨_, _, _, h⟩ := h.rest
        obtain ⟨_, _, _, h⟩ := h.rest
        exact Or.inl ⟨⟨_, List.mem_cons_self, hhandled⟩, le_dispatchCounted h⟩
      · have hin : ¬ .EPOLLIN ∈ s.evts[i].events := fun h' => hhandled (Or.inl h')
        have hout : ¬ .EPOLLOUT ∈ s.evts[i].events := fun h' => hhandled (Or.inr h')
        simp only [Code.when, if_neg hin, if_neg hout, if_neg hhandled, pure_bind] at h
        rcases ih h (by omega) with ⟨⟨value, hmem, hvalue⟩, hlt⟩ | ⟨hnone, hrest⟩
        · exact Or.inl ⟨⟨value, List.mem_cons_of_mem _ hmem, hvalue⟩, hlt⟩
        · exact Or.inr ⟨List.forall_mem_cons.mpr ⟨hhandled, hnone⟩, hrest⟩

/-- Which of the events that the wait returned go to a handler. -/
def seen (ret : Except IoError (List EpollEvent)) : Except IoError (List Bool) :=
  ret.map fun events => events.map fun value => decide value.handled

theorem polls : Polls (doSelectCounted (δ := δ)) (SockAsk.sys EpollCall.epollWait) seen := by
  intro ans s tr r t h
  obtain ⟨ret, u, rest, hans, rfl, hrest⟩ := (Code.trace_query_then _ _ _).mp h
  refine ⟨ret, u, rest, hans, rfl, ?_⟩
  cases ret with
  | error e =>
      obtain ⟨rfl, rfl, -⟩ := hrest
      exact .failed e
  | ok events =>
      obtain ⟨dispatched, v, tr₁, tr₂, rfl, htrace, rfl, rfl, rfl⟩ :=
        (Code.trace_bind _ _ _).mp ((Code.trace_modify_then _ _ _).mp hrest)
      have hlen : (events.map fun value => decide value.handled).length = events.length :=
        List.length_map _
      rw [List.append_nil, ← hlen]
      rcases trace_dispatchCounted htrace (Nat.zero_add _).symm with
        ⟨⟨value, hmem, hvalue⟩, hpos⟩ | ⟨hnone, rfl, rfl⟩
      · exact .busy (List.mem_map.mpr ⟨value, hmem, decide_eq_true hvalue⟩) hpos
      · refine .idle fun hmem => ?_
        obtain ⟨value, hmem, hvalue⟩ := List.mem_map.mp hmem
        exact hnone value hmem (of_decide_eq_true hvalue)

end Epoll

namespace Kqueue

/-- The loop of `doSelect` with the number of events that went to a handler:
every event has one of the two filters. -/
def dispatchCounted : ℕ → ℕ → ℕ → KqueueCode δ ℕ
  | 0, _, dispatched => pure dispatched
  | left + 1, i, dispatched => do
      let sel ← .read
      match sel.evts.sysEvents[i]? with
      | none => .ask .panic nofun
      | some e => do
          hand e
          .when (e.filter = .EVFILT_READ) (readDone (.ofU64 e.ident))
          .when (e.filter = .EVFILT_WRITE) (writeDone (.ofU64 e.ident))
          dispatchCounted left (i + 1) (dispatched + 1)

def doSelectCounted : KqueueCode δ (Except IoError (ℕ × ℕ)) := do
  let ret ← .query (SockAsk.sys KqueueCall.keventTs)
  match ret with
  | .error e => pure (.error e)
  | .ok events => do
      .modify fun sel =>
        { sel with
          evts :=
            { sysEvents := events, batch := events, handed := [], pending := events,
              running := true } }
      let dispatched ← dispatchCounted events.length 0 0
      .modify fun sel => { sel with evts := { sel.evts with running := false } }
      pure (.ok (events.length, dispatched))

theorem dispatch_eq (left i dispatched : ℕ) :
    (dispatch left i : KqueueCode δ Unit) =
      dispatchCounted left i dispatched >>= fun _ => pure () := by
  induction left generalizing i dispatched with
  | zero => rfl
  | succ left ih =>
      simp only [dispatch, dispatchCounted, bind_assoc]
      refine congrArg (Code.read >>= ·) (funext fun sel => ?_)
      rcases sel.evts.sysEvents[i]? with _ | e
      · exact congrArg (Code.ask SockAsk.panic) (funext nofun)
      · simp only [bind_assoc, ← ih (i + 1)]

theorem doSelect_eq :
    (doSelect : KqueueCode δ Unit) = doSelectCounted >>= fun _ => pure () := by
  simp only [doSelect, doSelectCounted, bind_assoc]
  refine congrArg (Code.query _ >>= ·) (funext fun ret => ?_)
  rcases ret with e | events
  · rfl
  · simp only [dispatch_eq events.length 0 0, bind_assoc, pure_bind]
    rfl

variable {ans : (q : SockAsk SOCKET KqueueCall) → Selector SOCKET δ Events Kernel →
    SockReply KqueueReply q → Selector SOCKET δ Events Kernel → Prop}
  {s t : Selector SOCKET δ Events Kernel}
  {tr : List (Exchange (Selector SOCKET δ Events Kernel) (SockReply (S := SOCKET) KqueueReply))}
  {left i n dispatched : ℕ}

theorem trace_dispatchCounted (h : (dispatchCounted left i n).Trace ans s tr dispatched t) :
    dispatched = n + left := by
  induction left generalizing i n s tr with
  | zero => exact h.2.1
  | succ left ih =>
      rw [dispatchCounted, Code.trace_read_then] at h
      cases he : s.evts.sysEvents[i]? with
      | none =>
          rw [he] at h
          obtain ⟨r, -⟩ := h
          exact nomatch r
      | some e =>
          simp only [he] at h
          obtain ⟨_, _, _, h⟩ := h.rest
          obtain ⟨_, _, _, h⟩ := h.rest
          obtain ⟨_, _, _, h⟩ := h.rest
          have hrest := ih h
          omega

/-- Every event that the call returned goes to a handler. -/
def seen (ret : Except IoError (List KEvent)) : Except IoError (List Bool) :=
  ret.map fun events => events.map fun _ => true

theorem polls : Polls (doSelectCounted (δ := δ)) (SockAsk.sys KqueueCall.keventTs) seen := by
  intro ans s tr r t h
  obtain ⟨ret, u, rest, hans, rfl, hrest⟩ := (Code.trace_query_then _ _ _).mp h
  refine ⟨ret, u, rest, hans, rfl, ?_⟩
  cases ret with
  | error e =>
      obtain ⟨rfl, rfl, -⟩ := hrest
      exact .failed e
  | ok events =>
      obtain ⟨dispatched, v, tr₁, tr₂, rfl, htrace, rfl, rfl, rfl⟩ :=
        (Code.trace_bind _ _ _).mp ((Code.trace_modify_then _ _ _).mp hrest)
      rw [List.append_nil]
      cases events with
      | nil =>
          obtain ⟨rfl, rfl, -⟩ := htrace
          exact .idle nofun
      | cons e events =>
          have hcount := trace_dispatchCounted htrace
          have hlen : ((e :: events).map fun _ => true).length = (e :: events).length :=
            List.length_map _
          rw [← hlen]
          exact .busy List.mem_cons_self (by simp [hcount])

end Kqueue

end Unix

namespace Win

variable {S : Type} [DecidableEq S]

/-- The loop of `doSelect` with the number of packets whose callback was run. -/
def dispatchAllCounted : List CompletionStatus → ℕ → WinCode S δ ℕ
  | [], dispatched => pure dispatched
  | status :: statuses, dispatched => do
      dispatch status
      dispatchAllCounted statuses
        (if status.overlapped.isSome then dispatched + 1 else dispatched)

def doSelectCounted : WinCode S δ (Except IoError (ℕ × ℕ)) := do
  let ret ← .query WinAsk.getMany
  match ret with
  | .ok statuses => do
      let dispatched ← dispatchAllCounted statuses 0
      pure (.ok (statuses.length, dispatched))
  | .error e => if e = WAIT_TIMEOUT then pure (.ok (0, 0)) else pure (.error e)

theorem dispatchAll_eq (statuses : List CompletionStatus) (dispatched : ℕ) :
    (dispatchAll statuses : WinCode S δ Unit) =
      dispatchAllCounted statuses dispatched >>= fun _ => pure () := by
  induction statuses generalizing dispatched with
  | nil => rfl
  | cons status statuses ih => simp only [dispatchAll, dispatchAllCounted, bind_assoc, ← ih]

theorem doSelect_eq :
    (doSelect : WinCode S δ (Except IoError ℕ)) =
      doSelectCounted >>= fun ret => pure (ret.map Prod.fst) := by
  simp only [doSelect, doSelectCounted, bind_assoc]
  refine congrArg (Code.query _ >>= ·) (funext fun ret => ?_)
  rcases ret with e | statuses
  · by_cases htimeout : e = WAIT_TIMEOUT
    · simp only [if_pos htimeout, pure_bind, Except.map]
    · simp only [if_neg htimeout, pure_bind, Except.map]
  · simp only [dispatchAll_eq statuses 0, bind_assoc, pure_bind]
    rfl

variable {ans : (q : WinAsk S) → Selector S δ → WinReply q → Selector S δ → Prop}
  {s t : Selector S δ} {tr : List (Exchange (Selector S δ) (WinReply (S := S)))}
  {statuses : List CompletionStatus} {n dispatched : ℕ}

theorem le_dispatchAllCounted
    (h : (dispatchAllCounted statuses n).Trace ans s tr dispatched t) : n ≤ dispatched := by
  induction statuses generalizing n s tr with
  | nil => exact h.2.1.ge
  | cons status statuses ih =>
      obtain ⟨_, _, _, h⟩ := h.rest
      have hrest := ih h
      split at hrest <;> omega

/-- Up to the first packet with a callback nothing happens. -/
theorem trace_dispatchAllCounted
    (h : (dispatchAllCounted statuses n).Trace ans s tr dispatched t) :
    (∃ status ∈ statuses, status.overlapped.isSome) ∧ n < dispatched ∨
      (∀ status ∈ statuses, ¬ status.overlapped.isSome) ∧ dispatched = n ∧ tr = [] := by
  induction statuses generalizing n with
  | nil =>
      obtain ⟨rfl, rfl, -⟩ := h
      exact Or.inr ⟨nofun, rfl, rfl⟩
  | cons status statuses ih =>
      rw [dispatchAllCounted] at h
      by_cases hcallback : status.overlapped.isSome
      · rw [if_pos hcallback] at h
        obtain ⟨_, _, _, h⟩ := h.rest
        exact Or.inl ⟨⟨status, List.mem_cons_self, hcallback⟩, le_dispatchAllCounted h⟩
      · have hnone : status.overlapped = none := Option.not_isSome_iff_eq_none.mp hcallback
        rw [if_neg hcallback, dispatch, hnone] at h
        rcases ih h with ⟨⟨status', hmem, hstatus⟩, hlt⟩ | ⟨hall, hrest⟩
        · exact Or.inl ⟨⟨status', List.mem_cons_of_mem _ hmem, hstatus⟩, hlt⟩
        · exact Or.inr ⟨List.forall_mem_cons.mpr ⟨hcallback, hall⟩, hrest⟩

/-- Which of the packets that the port returned have a callback. A timeout is a
wait without packets. -/
def seen : Except IoError (List CompletionStatus) → Except IoError (List Bool)
  | .ok statuses => .ok (statuses.map fun status => status.overlapped.isSome)
  | .error e => if e = WAIT_TIMEOUT then .ok [] else .error e

theorem polls : Polls (doSelectCounted (S := S) (δ := δ)) WinAsk.getMany seen := by
  intro ans s tr r t h
  obtain ⟨ret, u, rest, hans, rfl, hrest⟩ := (Code.trace_query_then _ _ _).mp h
  refine ⟨ret, u, rest, hans, rfl, ?_⟩
  cases ret with
  | error e =>
      by_cases htimeout : e = WAIT_TIMEOUT
      · simp only [if_pos htimeout] at hrest
        obtain ⟨rfl, rfl, -⟩ := hrest
        rw [seen, if_pos htimeout]
        exact .idle nofun
      · simp only [if_neg htimeout] at hrest
        obtain ⟨rfl, rfl, -⟩ := hrest
        rw [seen, if_neg htimeout]
        exact .failed e
  | ok statuses =>
      obtain ⟨dispatched, v, tr₁, tr₂, rfl, htrace, rfl, rfl, rfl⟩ :=
        (Code.trace_bind _ _ _).mp hrest
      have hlen : (statuses.map fun status => status.overlapped.isSome).length =
          statuses.length := List.length_map _
      rw [List.append_nil, ← hlen]
      rcases trace_dispatchAllCounted htrace with
        ⟨⟨status, hmem, hstatus⟩, hpos⟩ | ⟨hnone, rfl, rfl⟩
      · exact .busy (List.mem_map.mpr ⟨status, hmem, hstatus⟩) hpos
      · refine .idle fun hmem => ?_
        obtain ⟨status, hmem, hstatus⟩ := List.mem_map.mp hmem
        exact hnone status hmem hstatus

end Win

end TdRevent
