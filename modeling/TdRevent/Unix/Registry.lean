import TdRevent.Unix.KqueueSubmission

/-!
# The registry in every run

An event is registered under its own socket, whatever the callbacks do and
whatever the kernel answers.

The vector of the kqueue selector is empty or holds received events between the
operations, as every submission clears it. So it asks for no change.
-/

namespace TdRevent.Unix

open Interaction Discipline

variable {S δ E K Sys : Type} {R : Sys → Type} [DecidableEq S]

namespace Epoll

variable {δ : Type} {os : Os SOCKET Interest EpollReply}
  {ok : Selector SOCKET δ (List EpollEvent) Interest →
    Move (SockReply (S := SOCKET) EpollReply) (SockCall SOCKET δ) → Prop}

theorem keyed_invariant :
    RegistryInvariant (R := EpollReply) (Told fun _ : List EpollEvent => ()) ok
      (Selector.Keyed (δ := δ)) where
  edit id _ h hf := h.edit id hf
  note _ h := ⟨h.sockets, h.ids⟩
  kernel _ h := ⟨h.sockets, h.ids⟩
  owners _ h := ⟨h.sockets, h.ids⟩
  told := by
    rintro sel _ h ⟨owners, evts, kernel, -, rfl⟩
    exact ⟨h.sockets, h.ids⟩
  remove socket h := h.remove socket
  insert {_ buffer entry} h _ := h.insert buffer entry

theorem keyed_keeps :
    (ofInv Selector.Keyed).Keeps (unixRuns (δ := δ) epoll os doSelect ok) :=
  keeps (ofInv_plain _) (keyed_invariant.maintains (epoll_isLocal os _).does)
    ⟨fun _ _ h => ⟨h.sockets, h.ids⟩, fun _ _ _ h _ => ⟨h.sockets, h.ids⟩⟩

/-- Whenever user code runs, the events are registered under their sockets. -/
theorem keyed_reached {evts : List EpollEvent} {kernel : Interest}
    {c : Config (Selector SOCKET δ (List EpollEvent) Interest)
      (SockReply (S := SOCKET) EpollReply) Unit}
    (hreach : (unixRuns epoll os doSelect ok).Reaches (.new evts kernel) c)
    (hopen : (unixRuns (δ := δ) epoll os doSelect ok).Open c.stack) : c.state.Keyed :=
  reaches_inv keyed_keeps hreach ⟨nofun, nofun⟩ hopen

end Epoll

namespace Kqueue

variable {δ : Type} {os : Os SOCKET Kernel KqueueReply}

/-- The registry, and a vector that asks for no change. -/
structure Quiet (sel : Selector SOCKET δ Events Kernel) : Prop where
  keyed : sel.Keyed
  vector : ∀ e ∈ sel.evts.sysEvents, ¬ e.alters

variable {ok : Selector SOCKET δ Events Kernel →
    Move (SockReply (S := SOCKET) KqueueReply) (SockCall SOCKET δ) → Prop}

theorem quiet_invariant : RegistryInvariant (R := KqueueReply) Flushed ok (Quiet (δ := δ)) where
  edit id _ h hf := ⟨h.keyed.edit id hf, h.vector⟩
  note _ h := ⟨⟨h.keyed.sockets, h.keyed.ids⟩, h.vector⟩
  kernel _ h := ⟨⟨h.keyed.sockets, h.keyed.ids⟩, h.vector⟩
  owners _ h := ⟨⟨h.keyed.sockets, h.keyed.ids⟩, h.vector⟩
  told := by
    rintro sel _ h ⟨kernel, rfl⟩
    exact ⟨⟨h.keyed.sockets, h.keyed.ids⟩, nofun⟩
  remove socket h := ⟨h.keyed.remove socket, h.vector⟩
  insert {_ buffer entry} h _ := ⟨h.keyed.insert buffer entry, h.vector⟩

theorem quiet_keeps : (ofInv Quiet).Keeps (unixRuns (δ := δ) kqueue kqueueOs doSelect ok) :=
  keeps (ofInv_plain _) (quiet_invariant.maintains kqueue_flushes)
    ⟨fun _ _ h hevts => ⟨⟨h.keyed.sockets, h.keyed.ids⟩, hevts.symm ▸ h.vector⟩,
      fun _ _ _ h _ => ⟨⟨h.keyed.sockets, h.keyed.ids⟩, h.vector⟩,
      fun _ _ _ h hk => ⟨⟨⟨h.keyed.sockets, h.keyed.ids⟩, h.vector⟩, fun _ hr _ hevts =>
        ⟨⟨h.keyed.sockets, h.keyed.ids⟩, hevts.symm ▸ hk.2 _ hr⟩⟩⟩

/-- Whenever user code runs, the events are registered under their sockets and
the vector asks for no change. -/
theorem quiet_reached
    {c : Config (Selector SOCKET δ Events Kernel) (SockReply (S := SOCKET) KqueueReply) Unit}
    {kernel : Kernel}
    (hreach : (unixRuns kqueue kqueueOs doSelect ok).Reaches (.new .new kernel) c)
    (hopen : (unixRuns (δ := δ) kqueue kqueueOs doSelect ok).Open c.stack) : Quiet c.state :=
  reaches_inv quiet_keeps hreach ⟨⟨nofun, nofun⟩, nofun⟩ hopen

end Kqueue

end TdRevent.Unix
