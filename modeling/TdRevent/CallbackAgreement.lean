import TdRevent.Unix.KqueueCallbacks
import TdRevent.Win.Callbacks

/-!
# The callbacks of both selectors

A stream is registered in the same way on kqueue and on Windows, and gets the same
chunks and completed writes. Each selector stays in step with its machine, so the
callbacks are the same exactly when the machines agree.
-/

namespace TdRevent

open Interaction

variable {S δ ε : Type} [DecidableEq S] [Zero S]

/-- Both selectors call the same callbacks exactly when the Windows selector misses no
chunk that has a read callback, and reports no write that has a write callback. -/
theorem callbacks_agree {kbuffer : EventBuffer Unix.SOCKET} {kentry : EventEntry Unix.SOCKET δ}
    {wbuffer : EventBuffer S} {wentry : EventEntry S ε} {reg : Registration} {is : List Input}
    {kcalls wcalls : List Callback} (hkentry : kentry.registration = reg)
    (hwentry : wentry.registration = reg) (hread : Flag.READ ∈ reg.flags)
    (hstream : Flag.ACCEPT ∉ reg.flags) (hkqueue : Unix.Kqueue.Serves kbuffer kentry is kcalls)
    (hwin : Win.Serves wbuffer wentry is wcalls) :
    kcalls = wcalls ↔ AgreesFrom reg (!wbuffer.isInRead) is := by
  have hkcalls := hkqueue.outputs (hkentry ▸ hread) (hkentry ▸ hstream)
  have hwcalls := hwin.outputs (hwentry ▸ hread) (hwentry ▸ hstream)
  rw [hkcalls, hwcalls, hkentry, hwentry]
  exact reg.outputs_eq_iff _ is

/-! ## A stream that does not persist -/

/-- A registration for one chunk. -/
def readOnce {S : Type} [Zero S] (socket : S) : EventEntry S Unit :=
  .newEvent socket EventFlags.FLAG_READ (some 1) none none none

/-- On kqueue every chunk that fits is read. -/
theorem kqueue_reads (chunks : List (List UInt8))
    (hfit : ∀ bytes ∈ chunks,
      bytes ≠ [] ∧ bytes.length ≤ (EventBuffer.new (3 : Unix.SOCKET) 0).readCache.length) :
    ∃ calls, Unix.Kqueue.Serves (.new 3 0) (readOnce 3) (chunks.map .chunk) calls := by
  have start := System.Reaches.refl
    (S := Unix.unixRuns Unix.Kqueue.kqueue Unix.Kqueue.kqueueOs
      (Unix.Kqueue.doSelect (δ := Unit)) fun _ _ => True)
    (.new .new ⟨fun _ => true, fun _ => ∅⟩)
  have hregister : (Unix.Kqueue.registerSocket (.new 3 0) (readOnce 3)).Exec
      (Unix.SockAsk.answer Unix.Kqueue.kqueueOs) (.new .new ⟨fun _ => true, fun _ => ∅⟩)
      (.ok ()) _ := ⟨.ok (), _, ⟨_, Unix.Kqueue.kqueueOs_ok (by decide), rfl⟩, rfl, rfl⟩
  have hwatched := Unix.Kqueue.registerSocket_watched
    (Unix.Kqueue.quiet_reached start trivial).vector (by decide) (by decide) hregister
  obtain ⟨calls, t, hrun⟩ := hwatched.reads_all hfit
  exact ⟨calls, start, trivial, hregister, hrun⟩

/-- On Windows the first chunk is received if it fits. -/
theorem win_reads (bytes : List UInt8) (chunks : List (List UInt8)) (hbytes : bytes ≠ [])
    (hroom : bytes.length ≤ (EventBuffer.new (3 : Win.SOCKET) 0).readCache.length) :
    ∃ calls, Win.Serves (.new (3 : Win.SOCKET) 0) (readOnce 3) ((bytes :: chunks).map .chunk)
      calls := by
  have start := System.Reaches.refl (S := Win.winRuns fun _ _ => True)
    (.new : Win.Selector Win.SOCKET Unit)
  have hregister : (Win.registerSocket (.new (3 : Win.SOCKET) 0) (readOnce 3)).Exec
      Win.WinAsk.answer .new (.ok ()) _ := ⟨.ok (), _, rfl, .ok none, _, rfl, rfl, rfl⟩
  have hconnected := Win.registerSocket_connected rfl (by decide) (by decide) hregister
  obtain ⟨t, hfirst⟩ := hconnected.receives (by decide) (by decide) (by decide) hbytes hroom
  have hidle := ((Win.completion_simulates (by decide) (by decide)).step hconnected hfirst).2
  exact ⟨_, start, hregister, .input hfirst (Win.responds_unread hidle.reading chunks)⟩

/-- One chunk is read by both selectors. -/
theorem callbacks_agree_chunk :
    ∃ kcalls wcalls, Unix.Kqueue.Serves (.new 3 0) (readOnce 3) [.chunk [7]] kcalls ∧
      Win.Serves (.new (3 : Win.SOCKET) 0) (readOnce 3) [.chunk [7]] wcalls ∧
      kcalls = wcalls := by
  obtain ⟨kcalls, hkqueue⟩ := kqueue_reads [[7]]
    (List.forall_mem_singleton.mpr ⟨nofun, EventBuffer.new_room ..⟩)
  obtain ⟨wcalls, hwin⟩ := win_reads [7] [] nofun (EventBuffer.new_room ..)
  refine ⟨kcalls, wcalls, hkqueue, hwin, (callbacks_agree ?_ rfl ?_ ?_ hkqueue hwin).mpr ?_⟩
  · rfl
  · decide
  · decide
  · decide

/-- The second chunk is read on kqueue only. -/
theorem second_chunk_missed :
    ∃ kcalls wcalls, Unix.Kqueue.Serves (.new 3 0) (readOnce 3) [.chunk [7], .chunk [8]] kcalls ∧
      Win.Serves (.new (3 : Win.SOCKET) 0) (readOnce 3) [.chunk [7], .chunk [8]] wcalls ∧
      kcalls = [.readCb, .readCb] ∧ wcalls = [.readCb] := by
  obtain ⟨kcalls, hkqueue⟩ := kqueue_reads [[7], [8]]
    (by simpa using Nat.succ_le_of_lt (EventBuffer.new_room (3 : Unix.SOCKET) 0))
  obtain ⟨wcalls, hwin⟩ := win_reads [7] [[8]] nofun (EventBuffer.new_room ..)
  exact ⟨kcalls, wcalls, hkqueue, hwin, hkqueue.outputs (by decide) (by decide),
    hwin.outputs (by decide) (by decide)⟩

end TdRevent
