import TdRevent.FailedCalls
import TdRevent.Unix.Dispatch

/-!
# A send that fails

`sendSocket` appends the data, and on the Unix platforms it marks the socket
and asks for write events, before it makes the call that may fail. A failed
call is reported, and nothing is taken back.
-/

namespace TdRevent

open Interaction

variable {S δ E K Sys H ι : Type} {R : Sys → Type}

/-- The bytes stand in the buffer at its write position. -/
def Buffer.Stands (self : Buffer) (data : List UInt8) : Prop :=
  self.wpos ≤ self.val.length ∧ data <+: self.val.drop self.wpos

/-- Writing leaves the content exactly if it is there. -/
theorem Buffer.write_same (self : Buffer) (data : List UInt8) :
    (self.write data).val = self.val ↔ self.Stands data := by
  have hroom : self.wpos + data.length ≤ self.val.length →
      (self.write data).val =
        self.val.take self.wpos ++ data ++ self.val.drop (self.wpos + data.length) := by
    intro hlen
    have hgrow : self.wpos + data.length - self.val.length = 0 := Nat.sub_eq_zero_of_le hlen
    simp only [write, hgrow, List.replicate_zero, List.append_nil]
  constructor
  · intro hsame
    have hlength := congrArg List.length hsame
    simp only [write, List.length_append, List.length_take, List.length_drop,
      List.length_replicate] at hlength
    have hlen : self.wpos + data.length ≤ self.val.length := by omega
    refine ⟨by omega, self.val.drop (self.wpos + data.length), ?_⟩
    rw [hroom hlen, List.append_assoc] at hsame
    have hsplit := hsame.trans (List.take_append_drop self.wpos self.val).symm
    exact List.append_cancel_left hsplit
  · rintro ⟨hpos, rest, hrest⟩
    have hlength := congrArg List.length hrest
    simp only [List.length_append, List.length_drop] at hlength
    rw [hroom (by omega), ← List.drop_drop, ← hrest, List.drop_left, List.append_assoc, hrest,
      List.take_append_drop]

namespace Unix

variable {B : Backend S δ E K R} {os : Os S K R} {h : E → H} {sel t : Selector S δ E K}
  {socket : S} {data : List UInt8} {e : IoError}

/-- A failed send of a registered socket marks it. -/
theorem sendSocket_error (hB : B.IsLocal os h) (interest : K → ι)
    (hexec : (sendSocket B socket data).Exec (SockAsk.answer os) sel (.error e) t) :
    (sel.registry interest).OutputKept socket (t.registry interest) ↔
      sel.eventMaps socket = none := by
  unfold sendSocket at hexec
  rw [Code.exec_read_then] at hexec
  cases hmaps : sel.eventMaps socket with
  | none => exact iff_of_true (Registry.outputKept_of_none hmaps) rfl
  | some id =>
      refine iff_of_false (fun hkept => ?_) nofun
      rw [hmaps] at hexec
      simp only [edit, Code.exec_modify_then, Code.exec_read_then] at hexec
      split at hexec
      · cases hexec.1
      · rename_i hidle
        rw [Code.exec_modify_then, Code.exec_read_then] at hexec
        obtain ⟨r, u, hwant, hexec⟩ := (Code.exec_bind ..).mp hexec
        have htold := (hB.wantWrite _ _).anywhere.exec (fun _ _ _ _ _ ht => ht) hwant
        have ht : t = u := by
          cases r with
          | ok _ => cases hexec.1
          | error _ => exact hexec.2
        obtain ⟨owners, evts, kernel, -, rfl⟩ := htold
        subst ht
        -- the mark was set before the call, and it was not there at the start
        have hmarked := (hkept id hmaps).marked
        simp only [Selector.registry] at hmarked
        have hbefore : (sel.events id).buffer.isInWrite ≠ true := by
          intro hmark
          apply hidle
          left
          rw [Selector.note, sel.edit_self]
          exact hmark
        rw [Selector.edit_self] at hmarked
        exact hbefore hmarked.symm

end Unix

namespace Win

variable {sel t : Selector S δ} {socket : S} {data : List UInt8} {e : IoError}

/-- A failed send leaves the data in the buffer. -/
theorem writeOut_error {id : ℕ} (hexec : (writeOut id).Exec WinAsk.answer sel (.error e) t) :
    t = sel := by
  unfold writeOut at hexec
  rw [Code.exec_read_then] at hexec
  split at hexec
  · cases hexec.1
  · obtain ⟨res, u, hanswer, hexec⟩ := (Code.exec_query_then ..).mp hexec
    rcases res with _ | _ | n
    · obtain ⟨-, rfl⟩ := hexec
      exact hanswer
    · rw [Code.exec_modify_then] at hexec
      cases hexec.1
    · rw [Code.exec_modify_then, Code.exec_read_then] at hexec
      obtain ⟨_, _, _, hret⟩ := (Code.exec_bind ..).mp hexec
      cases hret.1

theorem sendSocket_error
    (hexec : (sendSocket socket data).Exec WinAsk.answer sel (.error e) t) :
    sel.registry.OutputKept socket t.registry ↔
      ∀ id, sel.eventMaps socket = some id → (sel.events id).buffer.write.Stands data := by
  unfold sendSocket postWriteEvent at hexec
  rw [Code.exec_read_then] at hexec
  cases hmaps : sel.eventMaps socket with
  | none => exact iff_of_true (Registry.outputKept_of_none hmaps) nofun
  | some id =>
      rw [hmaps] at hexec
      obtain rfl := writeOut_error hexec
      have hevent : ((sel.edit id (·.append data)).note (.sent id data)).events id =
          (sel.events id).append data := Function.update_self ..
      have hregistered : sel.registry.eventMaps socket = some id := hmaps
      rw [Registry.outputKept_iff hregistered]
      simp only [Selector.registry, hevent]
      constructor
      · rintro hsame _ ⟨⟩
        exact (Buffer.write_same _ _).mp hsame.content
      · exact fun hstands => ⟨(Buffer.write_same _ _).mpr (hstands id rfl), rfl, rfl⟩

end Win

/-! ## The main result -/

/-- A failed send leaves the output of the socket as it was exactly if the socket
is unknown or, on Windows, the data stands in the buffer before. -/
theorem sendSocket_atomic {δ : Type} :
    (∀ (os : Unix.Os Unix.SOCKET Unix.Epoll.Interest Unix.Epoll.EpollReply)
        (sel t : Unix.Selector Unix.SOCKET δ (List Unix.Epoll.EpollEvent) Unix.Epoll.Interest)
        (socket : Unix.SOCKET) (data : List UInt8) (e : IoError),
      (Unix.Epoll.sendSocket socket data).Exec (Unix.SockAsk.answer os) sel (.error e) t →
      ((sel.registry id).OutputKept socket (t.registry id) ↔ sel.eventMaps socket = none)) ∧
    (∀ (os : Unix.Os Unix.SOCKET Unix.Kqueue.Kernel Unix.Kqueue.KqueueReply)
        (sel t : Unix.Selector Unix.SOCKET δ Unix.Kqueue.Events Unix.Kqueue.Kernel)
        (socket : Unix.SOCKET) (data : List UInt8) (e : IoError),
      (Unix.Kqueue.sendSocket socket data).Exec (Unix.SockAsk.answer os) sel (.error e) t →
      ((sel.registry Unix.Kqueue.Kernel.filters).OutputKept socket
          (t.registry Unix.Kqueue.Kernel.filters) ↔ sel.eventMaps socket = none)) ∧
    ∀ (sel t : Win.Selector Win.SOCKET δ) (socket : Win.SOCKET) (data : List UInt8) (e : IoError),
      (Win.sendSocket socket data).Exec Win.WinAsk.answer sel (.error e) t →
      (sel.registry.OutputKept socket t.registry ↔
        ∀ id, sel.eventMaps socket = some id → (sel.events id).buffer.write.Stands data) := by
  refine ⟨fun os sel t socket data e hexec => ?_, fun os sel t socket data e hexec => ?_,
    fun sel t socket data e hexec => Win.sendSocket_error hexec⟩
  · exact Unix.sendSocket_error (Unix.Epoll.epoll_isLocal os fun _ => ()) id hexec
  · exact Unix.sendSocket_error
      (Unix.Kqueue.kqueue_isLocal (h := fun _ => ()) (fun _ _ => rfl) os) _ hexec

/-- On Unix an unknown socket, and on Windows one that has the byte 1 left, to
which nothing is sent. -/
theorem sendSocket_atomic_same :
    (∃ (sel t : Unix.Selector Unix.SOCKET Unit _ _),
      (Unix.Epoll.sendSocket 3 [1]).Exec (Unix.SockAsk.answer Unix.Epoll.epollOs) sel
        (.error (.Other "the socket already be remove")) t ∧
      (sel.registry id).OutputKept 3 (t.registry id)) ∧
    (∃ (sel t : Unix.Selector Unix.SOCKET Unit _ _),
      (Unix.Kqueue.sendSocket 3 [1]).Exec (Unix.SockAsk.answer Unix.Kqueue.kqueueOs) sel
        (.error (.Other "the socket already be remove")) t ∧
      (sel.registry Unix.Kqueue.Kernel.filters).OutputKept 3
        (t.registry Unix.Kqueue.Kernel.filters)) ∧
    ∃ (sel t : Win.Selector Win.SOCKET Unit),
      (Win.sendSocket 3 []).Exec Win.WinAsk.answer sel (.error (.os 10054)) t ∧
      (sel.events 0).buffer.write.val = [1] ∧ sel.registry.OutputKept 3 t.registry := by
  refine ⟨?_, ?_, ?_⟩
  · have hexec : (Unix.Epoll.sendSocket 3 [1]).Exec (Unix.SockAsk.answer Unix.Epoll.epollOs)
        (.new [] fun _ => none : Unix.Selector _ Unit _ _) _ _ := ⟨rfl, rfl⟩
    exact ⟨_, _, hexec, (sendSocket_atomic.1 _ _ _ _ _ _ hexec).mpr rfl⟩
  · have hexec : (Unix.Kqueue.sendSocket 3 [1]).Exec (Unix.SockAsk.answer Unix.Kqueue.kqueueOs)
        (.new .new ⟨fun _ => false, fun _ => ∅⟩ : Unix.Selector _ Unit _ _) _ _ := ⟨rfl, rfl⟩
    exact ⟨_, _, hexec, (sendSocket_atomic.2.1 _ _ _ _ _ _ hexec).mpr rfl⟩
  · let sel : Win.Selector Win.SOCKET Unit :=
      Win.Selector.new.insert { EventBuffer.new 3 0 with write := ⟨[1], 0, 1⟩ } .default
    have hexec : (Win.sendSocket 3 []).Exec Win.WinAsk.answer sel (.error (.os 10054)) _ :=
      ⟨.error (.os 10054), _, rfl, rfl, rfl⟩
    refine ⟨sel, _, hexec, rfl, (sendSocket_atomic.2.2 _ _ _ _ _ hexec).mpr ?_⟩
    rintro _ ⟨⟩
    exact ⟨by decide, by simp⟩

/-- Two sends that fail. On epoll the kernel does not know socket 3 any more after
`modifySocket`, and the socket is marked. On Windows the connection was reset,
and the byte stays in the buffer. -/
theorem sendSocket_not_atomic :
    (∃ c t e, (Unix.Epoll.epollSystem Unit).Reaches (.new [] fun _ => none) c ∧ c.stack = [] ∧
      (Unix.Epoll.sendSocket 3 [1]).Exec (Unix.SockAsk.answer Unix.Epoll.epollOs) c.state
        (.error e) t ∧
      ¬ (c.state.registry id).OutputKept 3 (t.registry id)) ∧
    ∃ c t e, (Win.winSystem Win.SOCKET Unit).Reaches .new c ∧ c.stack = [] ∧
      (Win.sendSocket 3 [1]).Exec Win.WinAsk.answer c.state (.error e) t ∧
      ¬ c.state.registry.OutputKept 3 t.registry := by
  constructor
  · have start := System.Reaches.refl (S := Unix.Epoll.epollSystem Unit) (.new [] fun _ => none)
    have registered := (start.call (.registerSocket (.new 3 0) .default) trivial trivial).answer
      (.ok ()) ⟨_, Unix.Epoll.epollOs_ok (by decide), rfl⟩
    have modified := (registered.call (.modifySocket false 3 .default) trivial trivial).answer
      (.ok ()) ⟨_, Unix.Epoll.epollOs_ok (by decide), rfl⟩
    refine ⟨_, _, .os 2, modified, rfl, ⟨.error (.os 2), _,
      ⟨_, Unix.Epoll.epollOs_error (by decide) _, rfl⟩, rfl, rfl⟩, fun hkept => ?_⟩
    exact absurd (hkept 0 rfl).marked nofun
  · have start := System.Reaches.refl (S := Win.winSystem Win.SOCKET Unit) .new
    have registered := (start.call (.registerSocket (.new 3 0) .default) trivial trivial).answer
      (.ok ()) rfl
    refine ⟨_, _, .os 10054, registered, rfl, ⟨.error (.os 10054), _, rfl, rfl, rfl⟩,
      fun hkept => ?_⟩
    exact absurd (hkept 0 rfl).content nofun

end TdRevent
