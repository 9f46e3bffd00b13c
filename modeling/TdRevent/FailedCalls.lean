import TdRevent.Interaction.Trace
import TdRevent.Unix.Selector
import TdRevent.Win.Selector

/-!
# What a failed call should leave as it was

The selectors differ in their events and in what the system keeps for them. What a
call may lose is stated once, over the part that they share: the map, the buffers and
the entries of the events, and the interests of the system.
-/

namespace TdRevent

open Interaction

variable {S δ ι β : Type}

/-- What a call of a selector finds and may lose. -/
structure Registry (S δ ι : Type) where
  eventMaps : S → Option ℕ
  buffer : ℕ → EventBuffer S
  entry : ℕ → EventEntry S δ
  /-- The interests that the system keeps. -/
  interest : ι

/-- The registry of a Unix selector, with the interests that the kernel keeps. -/
def Unix.Selector.registry {E K : Type} (interest : K → ι) (sel : Unix.Selector S δ E K) :
    Registry S δ ι where
  eventMaps := sel.eventMaps
  buffer id := (sel.events id).buffer
  entry id := (sel.events id).entry
  interest := interest sel.kernel

/-- The registry of the Windows selector. The interest of the system is what is on the
way to the port. -/
def Win.Selector.registry (sel : Win.Selector S δ) : Registry S δ Win.Port where
  eventMaps := sel.eventMaps
  buffer id := (sel.events id).buffer
  entry id := (sel.events id).entry
  interest := sel.port

/-- The outgoing bytes, the mark and the flags of an event are the same. -/
structure SameOutput (buffer buffer' : EventBuffer S) (entry entry' : EventEntry S δ) : Prop where
  content : buffer'.write.val = buffer.write.val
  marked : buffer'.isInWrite = buffer.isInWrite
  flags : entry'.evEvents = entry.evEvents

namespace Registry

/-- The map and the interests are the same. -/
structure Kept (before after : Registry S δ ι) : Prop where
  maps : after.eventMaps = before.eventMaps
  interest : after.interest = before.interest

/-- The event of a socket has the output that it had. -/
def OutputKept (socket : S) (before after : Registry S δ ι) : Prop :=
  ∀ id, before.eventMaps socket = some id →
    SameOutput (before.buffer id) (after.buffer id) (before.entry id) (after.entry id)

/-- The event of a number has an end callback. -/
def Awaits (socket : S) (reg : Registry S δ ι) : Prop :=
  ∃ id, reg.eventMaps socket = some id ∧ (reg.entry id).end_ ≠ none

/-- Such a callback was run. The question `endCb id` starts the one of the event `id`. -/
def EndRun {σ κ : Type} {ρ : κ → Type} (endCb : ℕ → κ) (socket : S) (reg : Registry S δ ι)
    (tr : List (Exchange σ ρ)) : Prop :=
  ∀ id, reg.eventMaps socket = some id → (reg.entry id).end_ ≠ none →
    ∃ x ∈ tr, x.question = endCb id

variable {before after : Registry S δ ι} {socket : S} {id : ℕ}

theorem outputKept_of_none (h : before.eventMaps socket = none) :
    OutputKept socket before after :=
  fun _ hid => absurd (h.symm.trans hid) nofun

theorem outputKept_iff (h : before.eventMaps socket = some id) :
    OutputKept socket before after ↔
      SameOutput (before.buffer id) (after.buffer id) (before.entry id) (after.entry id) := by
  constructor
  · exact fun hkept => hkept id h
  · intro hsame id' hid'
    obtain rfl := Option.some.inj (h.symm.trans hid')
    exact hsame

/-- Where no end callback is run, none may be awaited. -/
theorem endRun_iff {σ κ : Type} {ρ : κ → Type} {endCb : ℕ → κ} {tr : List (Exchange σ ρ)}
    (hnever : ∀ x ∈ tr, ∀ id, x.question ≠ endCb id) :
    EndRun endCb socket before tr ↔ ¬ Awaits socket before := by
  constructor
  · rintro hrun ⟨id, hid, hend⟩
    obtain ⟨x, hx, hquestion⟩ := hrun id hid hend
    exact hnever x hx id hquestion
  · exact fun hawaits id hid hend => absurd ⟨id, hid, hend⟩ hawaits

variable [DecidableEq S]

/-- A call that takes a number out of the map keeps the map if it was not there. -/
theorem kept_iff (h : after.eventMaps = Function.update before.eventMaps socket none) :
    Kept before after ↔
      before.eventMaps socket = none ∧ after.interest = before.interest := by
  have hmaps : after.eventMaps = before.eventMaps ↔ before.eventMaps socket = none := by
    rw [h, Function.update_eq_self_iff]
    exact eq_comm
  exact ⟨fun hkept => ⟨hmaps.mp hkept.maps, hkept.interest⟩, fun ⟨hnone, hsame⟩ =>
    ⟨hmaps.mpr hnone, hsame⟩⟩

/-- If the system forgets the number with it, it has to be one that it does not know. -/
theorem kept_forgotten_iff {before after : Registry S δ (S → β)} {absent : β}
    (h : after.eventMaps = Function.update before.eventMaps socket none)
    (hinterest : before.eventMaps socket = none →
      after.interest = Function.update before.interest socket absent) :
    Kept before after ↔
      before.eventMaps socket = none ∧ before.interest socket = absent := by
  rw [kept_iff h]
  refine and_congr_right fun hnone => ?_
  rw [hinterest hnone, Function.update_eq_self_iff]
  exact eq_comm

end Registry

end TdRevent
