import TdRevent.Unix.Endings
import TdRevent.Unix.Kqueue

/-!
# The end of an event on kqueue

The loop of kqueue loses events of a batch when a handler registers, and it may index out
of bounds. Still an event that left the map does not come back, so its callbacks end with
its end callback here too.
-/

namespace TdRevent.Unix.Kqueue

open Interaction Discipline

variable {δ : Type} {os : Os SOCKET Kernel KqueueReply}
  {sel : Selector SOCKET δ Events Kernel} {hist : SockHistory SOCKET δ Events Kernel KqueueCall}

theorem hand_endings (e : KEvent) (h : Endings sel hist) :
    KeepsEndings kqueue os doSelect (hand e) (fun _ => Endings) sel hist := by
  apply Records.bind
  refine Records.ask (fun hu => hu) rfl h.last ?_
  rintro _ _ ⟨k, -, rfl⟩
  exact Records.modify ((h.kernel k).evts _)

theorem dispatch_endings (left i : ℕ) (h : Endings sel hist) :
    KeepsEndings kqueue os doSelect (dispatch left i) (fun _ => Endings) sel hist := by
  have hB : (kqueue (δ := δ)).IsLocal os (fun _ : Events => ()) :=
    kqueue_isLocal (fun _ _ => rfl) os
  induction left generalizing sel i hist with
  | zero => exact Records.pure h
  | succ left ih =>
      unfold dispatch
      apply Records.read_then
      cases sel.evts.sysEvents[i]? with
      | none => exact Records.stop Empty.elim (fun hu => hu) h.last
      | some e =>
          apply Records.bind
          refine (hand_endings e h).mono fun _ t hist' ht => ?_
          apply Records.bind
          refine (Records.when (fun _ => readDone_endings hB ht) fun _ => ht).mono ?_
          intro _ u hist'' hu
          apply Records.bind
          refine (Records.when (fun _ => writeDone_endings hB hu) fun _ => hu).mono ?_
          exact fun _ v hist''' hv => ih (i + 1) hv

theorem doSelect_endings (h : Endings sel hist) :
    KeepsEndings kqueue os doSelect doSelect (fun _ => Endings) sel hist := by
  unfold doSelect
  apply Records.bind
  refine Records.ask (fun hu => hu) rfl h.last ?_
  rintro r _ ⟨k, -, rfl⟩
  cases r with
  | error e => exact Records.pure (h.kernel k)
  | ok events =>
      apply Records.bind
      apply Records.modify
      apply Records.bind
      refine (dispatch_endings _ 0 ((h.kernel k).evts _)).mono fun _ t hist' ht => ?_
      exact Records.modify (ht.evts _)

/-! ## The main result -/

/-- In every run of the kqueue selector, under every kernel, the end callback of an event
starts at most once, and no callback of the event starts after it. -/
theorem kqueue_ends_last (os : Os SOCKET Kernel KqueueReply) (evts : Events) (kernel : Kernel) :
    (∀ c, (unixSystem (δ := δ) kqueue os doSelect).Reaches (.new evts kernel) c →
      ∃ hist, (unixSystem kqueue os doSelect).Recorded SockAsk.callsBack (.new evts kernel)
        hist c) ∧
    ∀ hist c, (unixSystem (δ := δ) kqueue os doSelect).Recorded SockAsk.callsBack
      (.new evts kernel) hist c → EndsLast hist := by
  refine ⟨fun c hreach => hreach.recorded, fun hist c hrec => ?_⟩
  have hrecorder : Recorder Endings (fun _ _ => EndsLast)
      (unixSystem (δ := δ) kqueue os doSelect) SockAsk.callsBack :=
    endings_recorder (kqueue_isLocal (h := fun _ : Events => ()) (fun _ _ => rfl) os)
      fun _ _ h => doSelect_endings h
  exact hrecorder.always (fun _ _ h => h.last) (fun _ _ _ h => h) hrec (.new evts kernel)

/-- Socket 3 is opened, registered and unregistered, and its end callback has started. -/
theorem kqueue_ends_last_once :
    ∃ hist c, (kqueueSystem Unit).Recorded SockAsk.callsBack
        (.new .new ⟨fun _ => false, fun _ => ∅⟩) hist c ∧
      hist.filterMap ends = [0] ∧ EndsLast hist := by
  have start : (kqueueSystem Unit).Recorded SockAsk.callsBack
      (.new .new ⟨fun _ => false, fun _ => ∅⟩) [] _ := .refl _
  have opened := (start.call .openSocket trivial trivial).answer (3 : SOCKET)
    ⟨_, ⟨rfl, rfl⟩, rfl⟩
  have registered := (opened.call (.registerSocket (.new 3 0) (.newEvent 3
    EventFlags.FLAG_READ none none (some 1) none)) trivial trivial).answer (.ok ())
    ⟨_, kqueueOs_ok (by decide), rfl⟩
  have ended := (registered.call (.unregisterSocket 3) trivial trivial).answer () ⟨_, rfl, rfl⟩
  exact ⟨_, _, ended, rfl, (kqueue_ends_last kqueueOs .new _).2 _ _ ended⟩

end TdRevent.Unix.Kqueue
