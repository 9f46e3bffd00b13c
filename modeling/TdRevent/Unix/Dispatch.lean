import TdRevent.Unix.Local
import TdRevent.Unix.Epoll
import TdRevent.Unix.Kqueue

/-!
# Invariants of the dispatch loops

An invariant that every piece of a selector keeps, and that does not depend on
the events that were received, is kept by the loop over these events.
-/

namespace TdRevent.Unix

open Interaction Discipline

variable {δ H : Type}

namespace Epoll

theorem epoll_isLocal (os : Os SOCKET Interest EpollReply) (h : List EpollEvent → H) :
    (epoll (δ := δ)).IsLocal os h where
  add _ _ := Local.sys (EpollCall.epollCtl ..)
  change _ _ := Local.sys (EpollCall.epollCtl ..)
  wantWrite _ _ := Local.sys (EpollCall.epollCtl ..)
  dropWrite _ _ := Local.sys (EpollCall.epollCtl ..)
  deregister _ _ := Local.sys (EpollCall.epollCtl ..)

variable {os : Os SOCKET Interest EpollReply}
  {ok : Selector SOCKET δ (List EpollEvent) Interest →
    Move (SockReply (S := SOCKET) EpollReply) (SockCall SOCKET δ) → Prop}
  {D : Discipline (Selector SOCKET δ (List EpollEvent) Interest)
    (SockReply (S := SOCKET) EpollReply)}
  {sel : Selector SOCKET δ (List EpollEvent) Interest}

theorem dispatch_keeps (hD : D.Plain) (hm : Maintains epoll os doSelect ok D fun _ => True)
    (left i : ℕ) (h : D.inv sel) : Keeps epoll os doSelect ok D (dispatch left i) sel := by
  induction left generalizing sel i with
  | zero => exact Safe.pure h
  | succ left ih =>
      unfold dispatch
      apply Safe.read_then
      cases sel.evts[i]? with
      | none => exact Safe.stop Empty.elim (fun hu => hu) (hD.guard _ _ h)
      | some value =>
          apply Safe.bind
          apply (Safe.when (fun _ => hm.readDone h) fun _ => h).mono
          intro _ t ht
          refine Safe.bind ((Safe.when (fun _ => hm.writeDone ht ?_) fun _ => ht).mono ?_)
          · exact fun _ _ _ => trivial
          · exact fun _ u hu => ih (i + 1) hu

/-- What receiving events has to keep. -/
structure Receives (os : Os SOCKET Interest EpollReply)
    (inv : Selector SOCKET δ (List EpollEvent) Interest → Prop) : Prop where
  evts : ∀ sel events, inv sel → inv { sel with evts := events }
  wait : ∀ sel r k, inv sel → os.sys .epollWait sel.kernel r k → inv { sel with kernel := k }

theorem keeps (hD : D.Plain) (hm : Maintains epoll os doSelect ok D fun _ => True)
    (hr : Receives os D.inv) : D.Keeps (unixRuns epoll os doSelect ok) := by
  apply hm.keeps (fun _ _ _ => trivial)
  intro sel h _
  unfold doSelect
  apply Safe.bind
  apply Safe.ask (fun hu => hu) (hD.guard _ _ h)
  rintro r _ ⟨⟨k, hk, rfl⟩, -⟩
  have hwait := hr.wait sel r k h hk
  refine ⟨?_, hD.rel _ _⟩
  cases r with
  | error e => exact Safe.pure hwait
  | ok events =>
      apply Safe.bind
      exact Safe.modify (dispatch_keeps hD hm _ 0 (hr.evts _ events hwait)) (hD.rel _ _)

end Epoll

namespace Kqueue

section

variable {os : Os SOCKET Kernel KqueueReply} {h : Events → H}
  (hsys : ∀ evts sysEvents, h { evts with sysEvents := sysEvents } = h evts)

include hsys

theorem flushChanges_isLocal : Calls os h (flushChanges (δ := δ)) :=
  .read fun _ => .bind (.sys _) fun _ => .bind (.modify_evts fun _ => hsys _ _) fun _ => .pure _

theorem evPush_isLocal (socket : SOCKET) (filter : EventFilter) (flags : EventFlag) :
    Calls os h (evPush (δ := δ) socket filter flags) :=
  .modify_evts fun _ => hsys _ _

theorem register_isLocal (socket : SOCKET) (evEvents : EventFlags) :
    Calls os h (register (δ := δ) socket evEvents) :=
  .bind (.when (evPush_isLocal hsys ..)) fun _ =>
    .bind (.when (evPush_isLocal hsys ..)) fun _ => flushChanges_isLocal hsys

theorem deregister_isLocal (socket : SOCKET) (evEvents : EventFlags) :
    Calls os h (deregister (δ := δ) socket evEvents) :=
  .bind (.when (evPush_isLocal hsys ..)) fun _ =>
    .bind (.when (evPush_isLocal hsys ..)) fun _ => flushChanges_isLocal hsys

theorem kqueue_isLocal (os : Os SOCKET Kernel KqueueReply) :
    (kqueue (δ := δ)).IsLocal os h where
  add := register_isLocal hsys
  change := register_isLocal hsys
  wantWrite socket _ := register_isLocal hsys socket _
  dropWrite socket _ := deregister_isLocal hsys socket _
  deregister := deregister_isLocal hsys

end

variable {os : Os SOCKET Kernel KqueueReply}
  {ok : Selector SOCKET δ Events Kernel →
    Move (SockReply (S := SOCKET) KqueueReply) (SockCall SOCKET δ) → Prop}
  {D : Discipline (Selector SOCKET δ Events Kernel) (SockReply (S := SOCKET) KqueueReply)}
  {sel : Selector SOCKET δ Events Kernel}

/-- What receiving events has to keep. -/
structure Receives (os : Os SOCKET Kernel KqueueReply)
    (inv : Selector SOCKET δ Events Kernel → Prop) : Prop where
  history : ∀ sel evts, inv sel → evts.sysEvents = sel.evts.sysEvents →
    inv { sel with evts := evts }
  hand : ∀ sel e k, inv sel → os.sys (.hand e) sel.kernel () k → inv { sel with kernel := k }
  wait : ∀ sel r k, inv sel → os.sys .keventTs sel.kernel r k →
    inv { sel with kernel := k } ∧
      ∀ events, r = .ok events → ∀ evts : Events, evts.sysEvents = events →
        inv { sel with evts := evts, kernel := k }

theorem hand_keeps (hD : D.Plain) (hr : Receives os D.inv) (e : KEvent) (h : D.inv sel) :
    Keeps kqueue os doSelect ok D (hand e) sel := by
  unfold hand
  apply Safe.bind
  apply Safe.ask (fun hu => hu) (hD.guard _ _ h)
  rintro ⟨⟩ _ ⟨⟨k, hk, rfl⟩, -⟩
  exact ⟨Safe.modify (hr.history _ _ (hr.hand sel e k h hk) rfl) (hD.rel _ _), hD.rel _ _⟩

theorem dispatch_keeps (hD : D.Plain) (hm : Maintains kqueue os doSelect ok D fun _ => True)
    (hr : Receives os D.inv) (left i : ℕ) (h : D.inv sel) :
    Keeps kqueue os doSelect ok D (dispatch left i) sel := by
  induction left generalizing sel i with
  | zero => exact Safe.pure h
  | succ left ih =>
      unfold dispatch
      apply Safe.read_then
      cases sel.evts.sysEvents[i]? with
      | none => exact Safe.stop Empty.elim (fun hu => hu) (hD.guard _ _ h)
      | some e =>
          apply Safe.bind
          apply (hand_keeps hD hr e h).mono
          intro _ s hs
          apply Safe.bind
          apply (Safe.when (fun _ => hm.readDone hs) fun _ => hs).mono
          intro _ t ht
          refine Safe.bind ((Safe.when (fun _ => hm.writeDone ht ?_) fun _ => ht).mono ?_)
          · exact fun _ _ _ => trivial
          · exact fun _ u hu => ih (i + 1) hu

theorem keeps (hD : D.Plain) (hm : Maintains kqueue os doSelect ok D fun _ => True)
    (hr : Receives os D.inv) : D.Keeps (unixRuns kqueue os doSelect ok) := by
  apply hm.keeps (fun _ _ _ => trivial)
  intro sel h _
  unfold doSelect
  apply Safe.bind
  apply Safe.ask (fun hu => hu) (hD.guard _ _ h)
  rintro r _ ⟨⟨k, hk, rfl⟩, -⟩
  obtain ⟨hwait, hevents⟩ := hr.wait sel r k h hk
  refine ⟨?_, hD.rel _ _⟩
  cases r with
  | error e => exact Safe.pure hwait
  | ok events =>
      refine Safe.bind (Safe.modify (Safe.bind ?_) (hD.rel _ _))
      apply (dispatch_keeps hD hm hr _ 0 (hevents events rfl _ rfl)).mono
      intro _ t ht
      exact Safe.modify (hr.history t _ ht rfl) (hD.rel _ _)

end Kqueue

end TdRevent.Unix
