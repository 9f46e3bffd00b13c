import TdRevent.Unix.KqueueSubmission

/-!
# What kqueue watches

The kernel should hold the read and the write filter of a registered socket
exactly if its entry has the flag. Filters are added with the flags and are
removed only by `EV_DELETE`, which `writeDone` and `unregisterSocket` send.
`modifySocket` sends additions only, so it must not take a flag away.

A last call of `unregisterSocket` removes every filter of the number, so the
socket must not have come back in its end callback.

A second `registerSocket` drops the old event, which closes the descriptor, and the
kernel forgets its filters. If the new entry asks for a filter the kernel refuses it, and
the socket leaves the map too. Inside a handler of the old event the descriptor is closed
only when the handler returns. The filters that were added are lost then, so this must
not happen.
-/

namespace TdRevent.Unix.Kqueue

open Interaction Discipline

variable {δ : Type} {sel : Selector SOCKET δ Events Kernel}

/-- The flag that asks for a filter. -/
def EventFilter.flag : EventFilter → Flag
  | .EVFILT_READ => .READ
  | .EVFILT_WRITE => .WRITE

/-- The filters of a registered socket are those that its flags ask for. -/
def FiltersAgree (sel : Selector SOCKET δ Events Kernel) : Prop :=
  ∀ socket id, sel.eventMaps socket = some id →
    ∀ filter, filter ∈ sel.kernel.filters socket ↔
      filter.flag ∈ (sel.events id).entry.evEvents

/-- The calls that keep the agreement. Only open sockets are registered. A socket that is
registered again is not held by a handler, and asks for a filter, as its descriptor is
closed then. `modifySocket` takes away no flag that has a filter, and a socket that comes
back in its end callback has no such flag. -/
def KeepsFilters : Selector SOCKET δ Events Kernel →
    Move (SockReply (S := SOCKET) KqueueReply) (SockCall SOCKET δ) → Prop
  | sel, .call (.registerSocket buffer entry) =>
      sel.kernel.live buffer.asRawSocket = true ∧
        ∀ id, sel.eventMaps buffer.asRawSocket = some id →
          sel.owners.holds id = 0 ∧ ∃ filter : EventFilter, filter.flag ∈ entry.evEvents
  | sel, .call (.modifySocket isDel socket entry) =>
      ∀ id, sel.eventMaps socket = some id → isDel = true →
        (Flag.READ ∈ (sel.events id).entry.evEvents →
          Flag.READ ∉ entry.evEvents ∧ Flag.ACCEPT ∉ entry.evEvents) ∧
        (Flag.WRITE ∈ (sel.events id).entry.evEvents → Flag.WRITE ∉ entry.evEvents)
  | sel, .answer (.endCb _ socket) _ =>
      ∀ id, sel.eventMaps socket = some id → ∀ filter : EventFilter,
        filter.flag ∉ (sel.events id).entry.evEvents
  | _, _ => True

/-- The agreement is kept by more runs: a socket that is closed may be registered
too, if its flags ask for a filter, since the kernel refuses it then. -/
def FilterSafe : Selector SOCKET δ Events Kernel →
    Move (SockReply (S := SOCKET) KqueueReply) (SockCall SOCKET δ) → Prop
  | sel, .call (.registerSocket buffer entry) =>
      (sel.kernel.live buffer.asRawSocket = true ∨
        ∃ filter : EventFilter, filter.flag ∈ entry.evEvents) ∧
        ∀ id, sel.eventMaps buffer.asRawSocket = some id →
          sel.owners.holds id = 0 ∧ ∃ filter : EventFilter, filter.flag ∈ entry.evEvents
  | sel, m => KeepsFilters sel m

theorem KeepsFilters.safe {m : Move (SockReply (S := SOCKET) KqueueReply) (SockCall SOCKET δ)}
    (h : KeepsFilters sel m) : FilterSafe sel m := by
  unfold FilterSafe
  split
  · exact ⟨Or.inl h.1, h.2⟩
  · exact h

/-! ## The kernel -/

@[simp] theorem Kernel.adjust_live (k : Kernel) (socket : SOCKET)
    (f : Finset EventFilter → Finset EventFilter) : (k.adjust socket f).live = k.live := by
  unfold Kernel.adjust
  split <;> rfl

theorem Kernel.adjust_id (k : Kernel) (socket : SOCKET) : k.adjust socket id = k := by
  simp [Kernel.adjust]

theorem Kernel.adjust_adjust (k : Kernel) (socket : SOCKET)
    (f g : Finset EventFilter → Finset EventFilter) :
    (k.adjust socket f).adjust socket g = k.adjust socket (g ∘ f) := by
  by_cases hlive : k.live socket = true
  · simp [Kernel.adjust, hlive]
  · simp [Kernel.adjust, hlive]

/-- Events that were received change nothing. -/
theorem Kernel.foldl_change {events : List KEvent} (h : ∀ e ∈ events, ¬ e.alters) (k : Kernel) :
    events.foldl Kernel.change k = k := by
  induction events generalizing k with
  | nil => rfl
  | cons e rest ih =>
      obtain ⟨hadd, hdelete⟩ := not_or.mp (h e List.mem_cons_self)
      have hsame : k.change e = k := by
        have heffect : KEvent.effect e.flags e.filter = id := by
          funext filters
          simp [KEvent.effect, hadd, hdelete]
        rw [Kernel.change, heffect, Kernel.adjust_id]
      rw [List.foldl_cons, hsame]
      exact ih (fun e' he' => h e' (List.mem_cons_of_mem e he')) k

/-- The change that is pushed under a condition. -/
theorem Kernel.foldl_pushed {p : Prop} [Decidable p] (k : Kernel) (socket : SOCKET)
    (filter : EventFilter) (flags : EventFlag) :
    (if p then [(⟨socket.asU64, filter, flags⟩ : KEvent)] else []).foldl Kernel.change k =
      k.adjust socket (if p then KEvent.effect flags filter else id) := by
  split
  · rw [List.foldl_cons, List.foldl_nil, Kernel.change, SOCKET.ofU64_asU64]
  · rw [List.foldl_nil, Kernel.adjust_id]

theorem mem_changelist {flags : EventFlag} {socket : SOCKET} {evEvents : EventFlags}
    {e : KEvent} : e ∈ changelist flags socket evEvents ↔
      ∃ filter : EventFilter, filter.flag ∈ evEvents ∧ e = ⟨socket.asU64, filter, flags⟩ := by
  have hfilters : (∃ filter : EventFilter, filter.flag ∈ evEvents ∧
      e = ⟨socket.asU64, filter, flags⟩) ↔
      (Flag.READ ∈ evEvents ∧ e = ⟨socket.asU64, .EVFILT_READ, flags⟩) ∨
        (Flag.WRITE ∈ evEvents ∧ e = ⟨socket.asU64, .EVFILT_WRITE, flags⟩) := by
    constructor
    · rintro ⟨filter, h⟩
      cases filter with
      | EVFILT_READ => exact Or.inl h
      | EVFILT_WRITE => exact Or.inr h
    · rintro (h | h)
      · exact ⟨.EVFILT_READ, h⟩
      · exact ⟨.EVFILT_WRITE, h⟩
  rw [hfilters]
  by_cases hr : Flag.READ ∈ evEvents <;>
  by_cases hw : Flag.WRITE ∈ evEvents <;>
  simp [changelist, hr, hw]

/-- What the changes of a submission do to the filters. -/
def asked (flags : EventFlag) (evEvents : EventFlags) :
    Finset EventFilter → Finset EventFilter :=
  (if evEvents.contains EventFlags.FLAG_WRITE then KEvent.effect flags .EVFILT_WRITE else id) ∘
    if evEvents.contains EventFlags.FLAG_READ then KEvent.effect flags .EVFILT_READ else id

theorem mem_asked_add (evEvents : EventFlags) (filters : Finset EventFilter)
    (filter : EventFilter) :
    filter ∈ asked ({.EV_ADD} ∪ {.EV_ENABLE}) evEvents filters ↔
      filter ∈ filters ∨ filter.flag ∈ evEvents := by
  by_cases hr : Flag.READ ∈ evEvents <;>
  by_cases hw : Flag.WRITE ∈ evEvents <;>
  cases filter <;>
  simp [asked, KEvent.effect, EventFilter.flag, hr, hw]

theorem mem_asked_delete (evEvents : EventFlags) (filters : Finset EventFilter)
    (filter : EventFilter) :
    filter ∈ asked {.EV_DELETE} evEvents filters ↔
      filter ∈ filters ∧ filter.flag ∉ evEvents := by
  by_cases hr : Flag.READ ∈ evEvents <;>
  by_cases hw : Flag.WRITE ∈ evEvents <;>
  cases filter <;>
  simp [asked, KEvent.effect, EventFilter.flag, hr, hw]

/-- A submission that deletes both filters. -/
theorem asked_delete_all (filters : Finset EventFilter) :
    asked {.EV_DELETE} EventFlags.all filters = ∅ := by
  refine Finset.eq_empty_of_forall_notMem fun filter hmem => ?_
  exact ((mem_asked_delete ..).mp hmem).2 (EventFlags.mem_all _)

/-! ## The invariant -/

/-- The agreement at one socket. A socket that is not registered has no
filters. -/
structure AgreesAt (sel : Selector SOCKET δ Events Kernel) (socket : SOCKET) : Prop where
  live : ∀ {id}, sel.eventMaps socket = some id → sel.kernel.live socket = true
  filters : ∀ {id}, sel.eventMaps socket = some id → ∀ filter,
    filter ∈ sel.kernel.filters socket ↔ filter.flag ∈ (sel.events id).entry.evEvents
  absent : sel.eventMaps socket = none → sel.kernel.filters socket = ∅

/-- The invariant of the filters. The vector holds no changes between the
operations. -/
structure Filtered (sel : Selector SOCKET δ Events Kernel) : Prop where
  agrees : ∀ socket, AgreesAt sel socket
  quiet : ∀ e ∈ sel.evts.sysEvents, ¬ e.alters
  owned : sel.Owned

/-- The state after a submission: the vector is empty and the filters of one
socket are adjusted. -/
def submitted (sel : Selector SOCKET δ Events Kernel) (socket : SOCKET)
    (f : Finset EventFilter → Finset EventFilter) : Selector SOCKET δ Events Kernel :=
  { sel with
    evts := { sel.evts with sysEvents := [] }
    kernel := sel.kernel.adjust socket f }

theorem submitted_owned (h : sel.Owned) (socket : SOCKET)
    (f : Finset EventFilter → Finset EventFilter) : (submitted sel socket f).Owned :=
  ⟨⟨h.sockets, h.ids⟩, h.isOpen⟩

/-- A submission for one socket leaves the others. -/
theorem AgreesAt.submitted {s socket : SOCKET} (h : AgreesAt sel s) (hs : s ≠ socket)
    (f : Finset EventFilter → Finset EventFilter) : AgreesAt (submitted sel socket f) s := by
  have hfilters : (sel.kernel.adjust socket f).filters s = sel.kernel.filters s := by
    unfold Kernel.adjust
    split
    · exact Function.update_of_ne hs ..
    · rfl
  refine ⟨fun hmaps => ?_, fun hmaps => ?_, fun hmaps => hfilters.trans (h.absent hmaps)⟩
  · exact (congrFun (sel.kernel.adjust_live socket f) s).trans (h.live hmaps)
  · exact fun filter => hfilters ▸ h.filters hmaps filter

/-- So does a new event. -/
theorem AgreesAt.insert {s : SOCKET} (h : AgreesAt sel s) (hkeyed : sel.Keyed)
    {buffer : EventBuffer SOCKET} (hs : s ≠ buffer.asRawSocket) (entry : EventEntry SOCKET δ) :
    AgreesAt (sel.insert buffer entry) s := by
  have hsame := sel.insert_maps_of_ne buffer entry hs
  refine ⟨fun hmaps => h.live (hsame.symm.trans hmaps), fun {id} hmaps filter => ?_,
    fun hmaps => h.absent (hsame.symm.trans hmaps)⟩
  rw [sel.insert_old buffer entry (hkeyed.ids (hsame.symm.trans hmaps))]
  exact h.filters (hsame.symm.trans hmaps) filter

/-- The state after the event in the map was closed and taken out. -/
def unlinked (sel : Selector SOCKET δ Events Kernel) (socket : SOCKET) (id : ℕ) :
    Selector SOCKET δ Events Kernel :=
  { (sel.remove socket).shut id with
    kernel := ⟨Function.update sel.kernel.live socket false,
      Function.update sel.kernel.filters socket ∅⟩ }

namespace Filtered

theorem keyed (h : Filtered sel) : sel.Keyed := h.owned.toKeyed

/-- The agreement at every other socket and the right filters for this one. -/
theorem told {socket : SOCKET} {id : ℕ} {f : Finset EventFilter → Finset EventFilter}
    (howned : sel.Owned) (hother : ∀ s, s ≠ socket → AgreesAt sel s)
    (hlive : sel.kernel.live socket = true) (hmaps : sel.eventMaps socket = some id)
    (hf : ∀ filter, filter ∈ f (sel.kernel.filters socket) ↔
      filter.flag ∈ (sel.events id).entry.evEvents) : Filtered (submitted sel socket f) := by
  have hkernel : sel.kernel.adjust socket f = ⟨sel.kernel.live,
      Function.update sel.kernel.filters socket (f (sel.kernel.filters socket))⟩ := if_pos hlive
  refine ⟨fun s => ?_, nofun, submitted_owned howned socket f⟩
  by_cases hs : s = socket
  · subst hs
    rw [submitted, hkernel]
    refine ⟨fun _ => hlive, fun {id'} hmaps' filter => ?_, fun hnone => ?_⟩
    · obtain rfl := Option.some.inj (hmaps.symm.trans hmaps')
      dsimp only
      rw [Function.update_self]
      exact hf filter
    · exact absurd (hmaps.symm.trans hnone) nofun
  · exact (hother s hs).submitted hs f

/-- A submission for a socket that is not registered. -/
theorem told_absent (h : Filtered sel) {socket : SOCKET}
    {f : Finset EventFilter → Finset EventFilter} (hmaps : sel.eventMaps socket = none)
    (hf : f ∅ = ∅) : Filtered (submitted sel socket f) := by
  have hkernel : sel.kernel.adjust socket f = sel.kernel := by
    unfold Kernel.adjust
    split
    · have hsame := (h.agrees socket).absent hmaps
      rw [hsame, hf, ← hsame, Function.update_eq_self]
    · rfl
  rw [submitted, hkernel]
  refine ⟨fun s => ?_, nofun, h.owned.evts _⟩
  exact ⟨(h.agrees s).live, (h.agrees s).filters, (h.agrees s).absent⟩

theorem with_evts (h : Filtered sel) {evts : Events}
    (hquiet : ∀ e ∈ evts.sysEvents, ¬ e.alters) : Filtered { sel with evts := evts } :=
  ⟨fun s => ⟨(h.agrees s).live, (h.agrees s).filters, (h.agrees s).absent⟩, hquiet,
    h.owned.evts evts⟩

theorem note (h : Filtered sel) (e : SockEvent SOCKET) : Filtered (sel.note e) :=
  ⟨fun s => ⟨(h.agrees s).live, (h.agrees s).filters, (h.agrees s).absent⟩, h.quiet,
    h.owned.note e⟩

theorem hold (h : Filtered sel) (id : ℕ) : Filtered (sel.hold id) :=
  ⟨fun s => ⟨(h.agrees s).live, (h.agrees s).filters, (h.agrees s).absent⟩, h.quiet,
    h.owned.hold id⟩

theorem release (h : Filtered sel) (id : ℕ) : Filtered (sel.release id) :=
  ⟨fun s => ⟨(h.agrees s).live, (h.agrees s).filters, (h.agrees s).absent⟩, h.quiet,
    h.owned.release id⟩

/-- A change of an event that leaves its flags and its socket. -/
theorem edit (h : Filtered sel) (id : ℕ) {f : Event SOCKET δ → Event SOCKET δ}
    (hflags : ∀ event, (f event).entry.evEvents = event.entry.evEvents)
    (hsocket : ∀ event, (f event).asRawSocket = event.asRawSocket) :
    Filtered (sel.edit id f) := by
  refine ⟨fun s => ⟨(h.agrees s).live, fun hmaps filter => ?_, (h.agrees s).absent⟩, h.quiet,
    h.owned.edit id hsocket⟩
  rw [sel.edit_keeps id f (·.entry.evEvents) hflags]
  exact (h.agrees s).filters hmaps filter

/-- A change of the flags that the kernel is told about. -/
theorem edit_told (h : Filtered sel) {socket : SOCKET} {id : ℕ}
    (hmaps : sel.eventMaps socket = some id) {f : Event SOCKET δ → Event SOCKET δ}
    (hsocket : ∀ event, (f event).asRawSocket = event.asRawSocket)
    {g : Finset EventFilter → Finset EventFilter}
    (hg : ∀ filter, filter ∈ g (sel.kernel.filters socket) ↔
      filter.flag ∈ (f (sel.events id)).entry.evEvents) :
    Filtered (submitted (sel.edit id f) socket g) := by
  refine told (h.owned.edit id hsocket) (fun s hs => ?_) ((h.agrees socket).live hmaps) hmaps ?_
  · refine ⟨(h.agrees s).live, fun {id'} hmaps' filter => ?_, (h.agrees s).absent⟩
    have hne : id' ≠ id := by
      rintro rfl
      exact hs (h.keyed.inj hmaps' hmaps)
    rw [sel.edit_of_ne id f hne]
    exact (h.agrees s).filters hmaps' filter
  · rw [sel.edit_self]
    exact hg

/-- A new event of an open socket. -/
theorem insert_told (h : Filtered sel) {buffer : EventBuffer SOCKET}
    {entry : EventEntry SOCKET δ} (hmaps : sel.eventMaps buffer.asRawSocket = none)
    (hlive : sel.kernel.live buffer.asRawSocket = true)
    {g : Finset EventFilter → Finset EventFilter}
    (hg : ∀ filter, filter ∈ g (sel.kernel.filters buffer.asRawSocket) ↔
      filter.flag ∈ entry.evEvents) :
    Filtered (submitted (sel.insert buffer entry) buffer.asRawSocket g) := by
  refine told (h.owned.insert hmaps entry) (fun s hs => (h.agrees s).insert h.keyed hs entry)
    hlive (sel.insert_maps buffer entry) ?_
  rw [sel.insert_new]
  exact hg

/-- The agreement at every other socket, and the event of this one is closed. -/
theorem unlink {socket : SOCKET} {id : ℕ} (hother : ∀ s, s ≠ socket → AgreesAt sel s)
    (hquiet : ∀ e ∈ sel.evts.sysEvents, ¬ e.alters) (howned : sel.Owned)
    (hmaps : sel.eventMaps socket = some id) : Filtered (unlinked sel socket id) := by
  refine ⟨fun s => ?_, hquiet, (howned.unlink hmaps).kernel _⟩
  by_cases hs : s = socket
  · subst hs
    have hnone := sel.remove_maps s
    exact ⟨fun hmaps => absurd (hnone.symm.trans hmaps) nofun,
      fun hmaps => absurd (hnone.symm.trans hmaps) nofun, fun _ => Function.update_self ..⟩
  · have hsame := sel.remove_maps_of_ne hs
    have h := hother s hs
    refine ⟨fun hmaps => ?_, fun hmaps filter => ?_, fun hmaps => ?_⟩
    · exact (Function.update_of_ne hs ..).trans (h.live (hsame.symm.trans hmaps))
    · dsimp only [unlinked]
      rw [Function.update_of_ne hs]
      exact h.filters (hsame.symm.trans hmaps) filter
    · exact (Function.update_of_ne hs ..).trans (h.absent (hsame.symm.trans hmaps))

/-- A descriptor that was opened. It was closed before, so it is not
registered. -/
theorem opened (h : Filtered sel) {socket : SOCKET} (hlive : sel.kernel.live socket = false) :
    Filtered { sel with
      kernel := ⟨Function.update sel.kernel.live socket true,
        Function.update sel.kernel.filters socket ∅⟩ } := by
  refine ⟨fun s => ?_, h.quiet, h.owned.kernel _⟩
  by_cases hs : s = socket
  · subst hs
    have hnone : ∀ {id}, sel.eventMaps s ≠ some id := by
      intro id hmaps
      exact absurd (hlive.symm.trans ((h.agrees s).live hmaps)) nofun
    exact ⟨fun hmaps => absurd hmaps hnone, fun hmaps => absurd hmaps hnone,
      fun _ => Function.update_self ..⟩
  · refine ⟨fun hmaps => ?_, fun hmaps filter => ?_, fun hmaps => ?_⟩
    · exact (Function.update_of_ne hs ..).trans ((h.agrees s).live hmaps)
    · dsimp only
      rw [Function.update_of_ne hs]
      exact (h.agrees s).filters hmaps filter
    · exact (Function.update_of_ne hs ..).trans ((h.agrees s).absent hmaps)

end Filtered

/-! ## The operations -/

/-- Code that ends with `Q`. Its callbacks keep the agreement. -/
abbrev EndsWith {α : Type} (c : KqueueCode δ α)
    (Q : α → Selector SOCKET δ Events Kernel → Prop)
    (sel : Selector SOCKET δ Events Kernel) : Prop :=
  (ofInv Filtered).Safe (unixRuns kqueue kqueueOs doSelect FilterSafe) c Q sel

/-- Code that keeps the agreement. -/
abbrev KeepsFiltered {α : Type} (c : KqueueCode δ α)
    (sel : Selector SOCKET δ Events Kernel) : Prop := EndsWith c (fun _ => Filtered) sel

/-- A submission for one socket succeeds if the socket is open or nothing is
submitted for it. -/
theorem submits {socket : SOCKET} {evEvents : EventFlags} {flags : EventFlag}
    (hflags : .EV_ADD ∈ flags ∨ .EV_DELETE ∈ flags) :
    Local kqueueOs (fun _ _ => True)
      (fun r (sel t : Selector SOCKET δ Events Kernel) =>
        (∀ e ∈ sel.evts.sysEvents, ¬ e.alters) →
          (r = .ok () ↔ sel.kernel.live socket = true ∨
            ∀ filter : EventFilter, filter.flag ∉ evEvents) ∧
          t = submitted sel socket (asked flags evEvents))
      (do
        .when (evEvents.contains EventFlags.FLAG_READ) (evPush socket .EVFILT_READ flags)
        .when (evEvents.contains EventFlags.FLAG_WRITE) (evPush socket .EVFILT_WRITE flags)
        flushChanges) := by
  refine ⟨fun C hanswers sel hasks => wp_submission.mpr ⟨hasks _ _ trivial trivial, ?_⟩⟩
  intro r t ht hquiet
  obtain ⟨k, ⟨rfl, hr⟩, rfl⟩ := hanswers _ _ r t trivial ht
  refine ⟨hr.trans ⟨fun hall => ?_, fun h e he halters => ?_⟩, ?_⟩
  · by_cases hlive : sel.kernel.live socket = true
    · exact Or.inl hlive
    · refine Or.inr fun filter hfilter => hlive ?_
      have hmem : ⟨socket.asU64, filter, flags⟩ ∈ changelist flags socket evEvents :=
        mem_changelist.mpr ⟨filter, hfilter, rfl⟩
      have hchange := hall _ (List.mem_append_right _ hmem) hflags
      rwa [SOCKET.ofU64_asU64] at hchange
  · rcases List.mem_append.mp he with he | he
    · exact absurd halters (hquiet e he)
    · obtain ⟨filter, hfilter, rfl⟩ := mem_changelist.mp he
      rw [SOCKET.ofU64_asU64]
      exact h.resolve_right fun hnone => hnone filter hfilter
  · have hkernel : (sel.evts.sysEvents ++ changelist flags socket evEvents).foldl Kernel.change
        sel.kernel = sel.kernel.adjust socket (asked flags evEvents) := by
      rw [changelist, List.foldl_append, List.foldl_append, Kernel.foldl_change hquiet,
        Kernel.foldl_pushed, Kernel.foldl_pushed, Kernel.adjust_adjust, asked]
    rw [submitted, ← hkernel]
    rfl

theorem submit {socket : SOCKET} {evEvents : EventFlags} {flags : EventFlag}
    {Q : Except IoError Unit → Selector SOCKET δ Events Kernel → Prop}
    (hquiet : ∀ e ∈ sel.evts.sysEvents, ¬ e.alters) (hflags : .EV_ADD ∈ flags ∨ .EV_DELETE ∈ flags)
    (hQ : ∀ r, (r = .ok () ↔ sel.kernel.live socket = true ∨
      ∀ filter : EventFilter, filter.flag ∉ evEvents) →
      Q r (submitted sel socket (asked flags evEvents))) :
    EndsWith (do
      .when (evEvents.contains EventFlags.FLAG_READ) (evPush socket .EVFILT_READ flags)
      .when (evEvents.contains EventFlags.FLAG_WRITE) (evPush socket .EVFILT_WRITE flags)
      flushChanges) Q sel := by
  apply (submits hflags).safe (fun _ _ _ _ => trivial)
  intro r t ht
  obtain ⟨hr, rfl⟩ := ht hquiet
  exact ⟨hQ r hr, trivial⟩

theorem register_ends {socket : SOCKET} {evEvents : EventFlags}
    {Q : Except IoError Unit → Selector SOCKET δ Events Kernel → Prop}
    (hquiet : ∀ e ∈ sel.evts.sysEvents, ¬ e.alters)
    (hQ : ∀ r, (r = .ok () ↔ sel.kernel.live socket = true ∨
      ∀ filter : EventFilter, filter.flag ∉ evEvents) →
      Q r (submitted sel socket (asked ({.EV_ADD} ∪ {.EV_ENABLE}) evEvents))) :
    EndsWith (register socket evEvents) Q sel := submit hquiet (Or.inl (by decide)) hQ

theorem deregister_ends {socket : SOCKET} {evEvents : EventFlags}
    {Q : Except IoError Unit → Selector SOCKET δ Events Kernel → Prop}
    (hquiet : ∀ e ∈ sel.evts.sysEvents, ¬ e.alters)
    (hQ : ∀ r, Q r (submitted sel socket (asked {.EV_DELETE} evEvents))) :
    EndsWith (deregister socket evEvents) Q sel :=
  submit hquiet (Or.inr (by decide)) fun r _ => hQ r

theorem writeOver_filtered (h : Filtered sel) {socket : SOCKET} {id : ℕ}
    (hmaps : sel.eventMaps socket = some id) : KeepsFiltered (writeOver kqueue id) sel := by
  unfold writeOver
  refine Safe.bind (Safe.modify (Safe.bind (Safe.read (Safe.bind ?_))) trivial)
  have hsocket : ((sel.edit id Event.disarm).events id).asRawSocket = socket := by
    rw [sel.edit_self]
    exact h.keyed.sockets hmaps
  rw [hsocket]
  refine deregister_ends h.quiet fun _ => Safe.pure ?_
  refine h.edit_told hmaps (f := Event.disarm) (fun _ => rfl) fun filter => ?_
  rw [mem_asked_delete, (h.agrees socket).filters hmaps]
  simp [Event.disarm]

theorem changeEvent_filtered (h : Filtered sel) {socket : SOCKET} {id : ℕ}
    (hmaps : sel.eventMaps socket = some id) {isDel : Bool} {entry : EventEntry SOCKET δ}
    (hok : KeepsFilters sel (.call (.modifySocket isDel socket entry))) :
    KeepsFiltered (changeEvent kqueue id isDel socket entry) sel := by
  unfold changeEvent
  refine Safe.bind (Safe.modify (Safe.bind (Safe.read ?_)) trivial)
  refine register_ends h.quiet fun _ _ => ?_
  refine h.edit_told hmaps (f := (·.merge isDel entry)) (fun _ => rfl) fun filter => ?_
  rw [mem_asked_add, (h.agrees socket).filters hmaps, sel.edit_self]
  -- no flag that has a filter is given up
  have hkept : filter.flag ∈ (sel.events id).entry.evEvents →
      filter.flag ∈ ((sel.events id).merge isDel entry).entry.evEvents := by
    intro hflag
    cases isDel with
    | true =>
        obtain ⟨hread, hwrite⟩ := hok id hmaps rfl
        cases filter with
        | EVFILT_READ => exact (EventEntry.merge_READ ..).mpr ⟨hflag, hread hflag⟩
        | EVFILT_WRITE => exact (EventEntry.merge_WRITE ..).mpr ⟨hflag, hwrite hflag⟩
    | false =>
        cases filter with
        | EVFILT_READ => exact (EventEntry.merge_READ ..).mpr (Or.inl hflag)
        | EVFILT_WRITE => exact (EventEntry.merge_WRITE ..).mpr (Or.inl hflag)
  exact or_iff_right_of_imp hkept

theorem sendSocket_filtered (h : Filtered sel) (socket : SOCKET) (data : List UInt8) :
    KeepsFiltered (Unix.sendSocket kqueue socket data) sel := by
  unfold Unix.sendSocket
  apply Safe.read_then
  cases hmaps : sel.eventMaps socket with
  | none => exact Safe.pure h
  | some id =>
      have hsent : Filtered ((sel.edit id (·.append data)).note (.sent id data)) :=
        (h.edit id (f := (·.append data)) (fun _ => rfl) fun _ => rfl).note _
      refine Safe.bind (Safe.modify (Safe.bind (Safe.modify (Safe.bind (Safe.read ?_)) trivial))
        trivial)
      split
      · exact Safe.pure hsent
      · refine Safe.bind (Safe.modify (Safe.bind (Safe.read (Safe.bind ?_))) trivial)
        have hsocket := (hsent.keyed.edit id (f := Event.arm) fun _ => rfl).sockets hmaps
        rw [hsocket]
        refine register_ends hsent.quiet fun r _ => ?_
        have htold : Filtered (submitted (((sel.edit id (·.append data)).note (.sent id data)).edit
            id Event.arm) socket (asked ({.EV_ADD} ∪ {.EV_ENABLE}) EventFlags.FLAG_WRITE)) := by
          refine hsent.edit_told hmaps (f := Event.arm) (fun _ => rfl) fun filter => ?_
          rw [mem_asked_add, (hsent.agrees socket).filters hmaps]
          simp [Event.arm]
        cases r with
        | ok _ => exact Safe.pure htold
        | error e => exact Safe.pure htold

/-- A new socket that the kernel refused. Its event is closed. -/
theorem Filtered.insert_refused (h : Filtered sel) {buffer : EventBuffer SOCKET}
    (entry : EventEntry SOCKET δ) (hmaps : sel.eventMaps buffer.asRawSocket = none)
    (f : Finset EventFilter → Finset EventFilter) :
    Filtered (unlinked (submitted (sel.insert buffer entry) buffer.asRawSocket f)
      buffer.asRawSocket sel.count) := by
  refine unlink (fun s hs => ?_) nofun (submitted_owned (h.owned.insert hmaps entry) _ f)
    (sel.insert_maps buffer entry)
  exact ((h.agrees s).insert h.keyed hs entry).submitted hs f

/-- A registration under a number that is free. -/
theorem addEvent_filtered (h : Filtered sel) {buffer : EventBuffer SOCKET}
    {entry : EventEntry SOCKET δ} (hmaps : sel.eventMaps buffer.asRawSocket = none)
    (hasks : sel.kernel.live buffer.asRawSocket = true ∨
      ∃ filter : EventFilter, filter.flag ∈ entry.evEvents) :
    KeepsFiltered (addEvent kqueue buffer entry) sel := by
  refine Safe.bind (Safe.modify (Safe.bind ?_) trivial)
  refine register_ends h.quiet fun r hr => ?_
  by_cases hlive : sel.kernel.live buffer.asRawSocket = true
  · obtain rfl := hr.mpr (Or.inl hlive)
    refine Safe.pure (h.insert_told hmaps hlive fun filter => ?_)
    rw [mem_asked_add, (h.agrees _).absent hmaps]
    exact or_iff_right (Finset.notMem_empty filter)
  · obtain ⟨filter, hfilter⟩ := hasks.resolve_left hlive
    cases r with
    | ok _ => exact absurd hfilter ((hr.mp rfl).resolve_left hlive filter)
    | error e =>
        have howned := submitted_owned (h.owned.insert hmaps entry) buffer.asRawSocket
          (asked ({.EV_ADD} ∪ {.EV_ENABLE}) entry.evEvents)
        refine Safe.bind (removeEvent_of_maps howned (sel.insert_maps buffer entry)
          (sel.owners.enroll_holds_self _) ?_)
        rintro k rfl
        exact Safe.pure (h.insert_refused entry hmaps _)

theorem registerSocket_filtered (h : Filtered sel) {buffer : EventBuffer SOCKET}
    {entry : EventEntry SOCKET δ}
    (hok : FilterSafe sel (.call (.registerSocket buffer entry))) :
    KeepsFiltered (Unix.registerSocket kqueue buffer entry) sel := by
  obtain ⟨hasks, hagain⟩ := hok
  refine Safe.bind (removeEvent_owned h.owned (fun id hmaps => (hagain id hmaps).1) ?_ ?_)
  · exact fun hmaps => addEvent_filtered h hmaps hasks
  · rintro id k hmaps rfl
    have hunlinked := Filtered.unlink (fun s _ => h.agrees s) h.quiet h.owned hmaps
    exact addEvent_filtered hunlinked (sel.remove_maps _) (Or.inr (hagain id hmaps).2)

/-- Every filter of a number is removed, if no event asks for one. -/
theorem deregister_all_filtered (h : Filtered sel) {socket : SOCKET}
    (hflags : ∀ id, sel.eventMaps socket = some id → ∀ filter : EventFilter,
      filter.flag ∉ (sel.events id).entry.evEvents) :
    KeepsFiltered (deregister socket EventFlags.all) sel := by
  refine deregister_ends h.quiet fun _ => ?_
  cases hmaps : sel.eventMaps socket with
  | none => exact h.told_absent hmaps (asked_delete_all ∅)
  | some id =>
      refine Filtered.told h.owned (fun s _ => h.agrees s) ((h.agrees socket).live hmaps) hmaps ?_
      intro filter
      rw [asked_delete_all]
      exact iff_of_false (Finset.notMem_empty filter) (hflags id hmaps filter)

/-- Every piece of the selector keeps the agreement. -/
theorem maintains_filtered :
    Maintains (kqueue (δ := δ)) kqueueOs doSelect FilterSafe (ofInv Filtered) fun _ => True where
  guard _ _ _ _ := trivial
  guardClose _ _ _ _ _ := trivial
  editBuffer _ id _ h _ hf := ⟨h.edit id (fun _ => rfl) fun event => hf event.buffer, trivial⟩
  fill _ id _ h := ⟨h.edit id (fun _ => rfl) fun _ => rfl, trivial⟩
  fail _ id _ h := ⟨h.edit id (fun _ => rfl) fun _ => rfl, trivial⟩
  takeData _ id h := ⟨h.edit id (fun _ => rfl) fun _ => rfl, trivial⟩
  drain sel socket id len h hmaps _ :=
    have hedit : Filtered (sel.edit id (·.drain len)) := h.edit id (fun _ => rfl) fun _ => rfl
    ⟨trivial, trivial, fun _ => hedit.note _, fun _ _ => writeOver_filtered (hedit.note _) hmaps⟩
  idle _ _ _ h _ hmaps _ := writeOver_filtered h hmaps
  opens _ _ _ h := by
    rintro ⟨hlive, rfl⟩
    exact ⟨h.opened hlive, trivial⟩
  unlink _ _ _ := trivial
  closes sel socket id k h hmaps := by
    rintro rfl
    rw [h.keyed.sockets hmaps]
    exact ⟨Filtered.unlink (fun s _ => h.agrees s) h.quiet h.owned hmaps, trivial⟩
  hold _ id h := ⟨h.hold id, trivial⟩
  release _ id h := letGo_owned h.owned trivial (h.release id)
  register _ _ _ h hok := registerSocket_filtered h hok
  change _ _ _ _ _ h hok hmaps :=
    (changeEvent_filtered h hmaps hok).mono fun _ _ ht => ⟨ht, fun _ _ => trivial⟩
  send _ socket data h _ := sendSocket_filtered h socket data
  deregister _ _ h _ hmaps := deregister_all_filtered h fun _ hsome =>
    absurd (hmaps.symm.trans hsome) nofun
  ended _ _ _ h _ hok := deregister_all_filtered h hok
  dropKeep _ _ _ _ := trivial
  dropCall _ _ _ := trivial
  dropAccept _ _ _ _ := trivial
  dropRead _ _ _ := trivial
  dropEof _ _ _ _ _ _ := trivial
  dropWrite _ _ _ _ _ _ := trivial

/-! ## The main result -/

theorem Filtered.new : Filtered (.new .new ⟨fun _ => false, fun _ => ∅⟩ : Selector SOCKET δ _ _) :=
  ⟨fun _ => ⟨nofun, nofun, fun _ => rfl⟩, nofun, ⟨nofun, nofun⟩, fun _ => iff_of_false nofun nofun⟩

theorem keeps_filtered :
    (ofInv Filtered).Keeps (unixRuns (δ := δ) kqueue kqueueOs doSelect FilterSafe) :=
  keeps (ofInv_plain _) maintains_filtered
    { history := fun _ _ h hsame => h.with_evts (hsame ▸ h.quiet)
      hand := fun _ _ _ h hk => hk ▸ h
      wait := by
        rintro sel r _ h ⟨rfl, hevents⟩
        refine ⟨h, ?_⟩
        rintro events rfl evts rfl
        exact h.with_evts (hevents _ rfl) }

/-- In every run whose calls keep it, the agreement holds whenever user code
runs. -/
theorem filters_agree
    {c : Config (Selector SOCKET δ Events Kernel) (SockReply (S := SOCKET) KqueueReply) Unit}
    (hreach : (unixRuns kqueue kqueueOs doSelect KeepsFilters).Reaches
      (.new .new ⟨fun _ => false, fun _ => ∅⟩) c)
    (hopen : (unixRuns (δ := δ) kqueue kqueueOs doSelect KeepsFilters).Open c.stack) :
    FiltersAgree c.state := by
  have h := reaches_inv keeps_filtered (hreach.weaken fun _ _ => KeepsFilters.safe)
    Filtered.new hopen
  exact fun socket _ hmaps => (h.agrees socket).filters hmaps

/-- Socket 3 is registered for reading, then for writing too. Socket 4 is registered twice,
and is lost. -/
theorem filters_agree_two :
    ∃ c, (unixRuns kqueue kqueueOs doSelect KeepsFilters).Reaches
        (.new .new ⟨fun _ => false, fun _ => ∅⟩ : Selector SOCKET Unit _ _) c ∧
      c.state.kernel.filters 3 = {.EVFILT_READ, .EVFILT_WRITE} ∧
      c.state.count = 3 ∧ c.state.eventMaps 4 = none ∧ FiltersAgree c.state := by
  have start := System.Reaches.refl (S := unixRuns kqueue kqueueOs doSelect KeepsFilters)
    (.new .new ⟨fun _ => false, fun _ => ∅⟩ : Selector SOCKET Unit _ _)
  have opened := (start.call .openSocket trivial
    ⟨trivial, trivial⟩).answer (3 : SOCKET) ⟨⟨_, ⟨rfl, rfl⟩, rfl⟩, trivial⟩
  have registered := (opened.call (.registerSocket (.new 3 0) (.newEvent 3
    EventFlags.FLAG_READ none none none none)) trivial ⟨trivial, rfl, nofun⟩).answer (.ok ())
    ⟨⟨_, kqueueOs_ok (by decide), rfl⟩, trivial⟩
  have modified := (registered.call (.modifySocket false 3 (.newEvent 3
    EventFlags.FLAG_WRITE none none none none)) trivial ⟨trivial, nofun⟩).answer (.ok ())
    ⟨⟨_, kqueueOs_ok (by decide), rfl⟩, trivial⟩
  have another := (modified.call .openSocket trivial
    ⟨trivial, trivial⟩).answer (4 : SOCKET) ⟨⟨_, ⟨rfl, rfl⟩, rfl⟩, trivial⟩
  have second := (another.call (.registerSocket (.new 4 0) (.newEvent 4
    EventFlags.FLAG_READ none none none none)) trivial ⟨trivial, rfl, nofun⟩).answer (.ok ())
    ⟨⟨_, kqueueOs_ok (by decide), rfl⟩, trivial⟩
  -- the descriptor is closed with the first event, and the kernel refuses the second
  have dropped := (second.call (.registerSocket (.new 4 0) (.newEvent 4
    EventFlags.FLAG_READ none none none none)) trivial ⟨trivial, rfl, by
      rintro _ ⟨⟩
      exact ⟨rfl, .EVFILT_READ, by decide⟩⟩).answer () ⟨⟨_, rfl, rfl⟩, trivial⟩
  have refused := (dropped.answer (.error (.os 9)) ⟨⟨_, ⟨rfl, by decide⟩, rfl⟩, trivial⟩).answer
    () ⟨⟨_, rfl, rfl⟩, trivial⟩
  exact ⟨_, refused, by decide, rfl, rfl, filters_agree refused trivial⟩

/-- Giving up reading leaves the read filter in the kernel. -/
theorem modifySocket_leaves_filter :
    ∃ c, (kqueueSystem Unit).Reaches (.new .new ⟨fun _ => false, fun _ => ∅⟩) c ∧
      (kqueueSystem Unit).Open c.stack ∧ ¬ FiltersAgree c.state := by
  have start := System.Reaches.refl (S := kqueueSystem Unit)
    (.new .new ⟨fun _ => false, fun _ => ∅⟩)
  have opened := (start.call .openSocket trivial
    trivial).answer (3 : SOCKET) ⟨_, ⟨rfl, rfl⟩, rfl⟩
  have registered := (opened.call (.registerSocket (.new 3 0) (.newEvent 3
    EventFlags.FLAG_READ none none none none)) trivial trivial).answer (.ok ())
    ⟨_, kqueueOs_ok (by decide), rfl⟩
  have modified := (registered.call (.modifySocket true 3 (.newEvent 3
    EventFlags.FLAG_READ none none none none)) trivial trivial).answer (.ok ())
    ⟨_, kqueueOs_ok (by decide), rfl⟩
  refine ⟨_, modified, trivial, fun h => ?_⟩
  exact absurd ((h 3 0 rfl .EVFILT_READ).mp (by decide)) (by decide)

end TdRevent.Unix.Kqueue
