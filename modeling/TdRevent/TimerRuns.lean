import TdRevent.TimerCalls

/-!
# Invariants of the timers over all runs

A property of the event loop holds whenever code of the user runs, if the
calls, the expiry, and what follows a callback keep it. The entry that is
being fired and the result of its callback do not change while the callback
runs, whatever it calls.
-/

namespace TdRevent

open Interaction

variable {S δ : Type} [Zero S]

namespace EventLoop

/-- The callback that runs is over, and the next result is that of the next. -/
def finish (ev : EventLoop S δ) : EventLoop S δ :=
  { ev with firing := none, results := fun n => ev.results (n + 1) }

/-- What a property has to be kept by in order to hold in all runs whose calls
meet the condition. -/
structure Invariant (ok : EventLoop S δ → TimerCall S δ → Prop)
    (inv : EventLoop S δ → Prop) : Prop where
  call : ∀ {C ev ev' op}, inv ev → TimerCall.may ev op → ok ev op →
    TimerCall.Effect C ev op ev' → inv ev'
  began : ∀ ev now, inv ev → ev.firing = none →
    inv { ev with clock := now, pass := some now, log := ev.log ++ [.began now] }
  ended : ∀ {ev}, inv ev → inv { ev with pass := none }
  fire : ∀ {ev now entry timer} results, inv ev → ev.firing = none →
    ev.timer.tickTime now = (some entry, timer) →
    inv { ev.fire entry timer with results := results }
  finished : ∀ {ev f}, inv ev → ev.firing = some f → ¬ rearms f.2 (ev.results 0) → inv ev.finish
  again : ∀ ev f c id cursor, inv ev → ev.firing = some f → rearms f.2 (ev.results 0) →
    ev.timer.Assigned f.2.timeId id cursor →
    inv (arm { ev.finish with clock := c } (some f.1) cursor
      { (settle f.2 (ev.results 0)).2 with
        timeId := id, tickMs := c + (settle f.2 (ev.results 0)).2.tickStep })

/-- A call made by a callback leaves the callback running. -/
def keeping (inv : EventLoop S δ → Prop) :
    Discipline (EventLoop S δ) (TimerReply (S := S) (δ := δ)) where
  inv := inv
  guard _ _ := True
  rel ev ev' := ∀ f, ev.firing = some f → ev'.firing = some f ∧ ev'.results = ev.results
  refl _ _ hf := ⟨hf, rfl⟩
  trans h h' f hf := by
    obtain ⟨hf', hr⟩ := h f hf
    obtain ⟨hf'', hr'⟩ := h' f hf'
    exact ⟨hf'', hr'.trans hr⟩

variable {ok : EventLoop S δ → TimerCall S δ → Prop} {inv : EventLoop S δ → Prop}
  {ev : EventLoop S δ}

theorem contract_runs (inv : EventLoop S δ → Prop) :
    Runs ((keeping inv).contract (timerSystem.restrict (Move.onCalls ok))) where
  clock _ _ := ⟨trivial, fun h => h.elim⟩
  spin _ _ := ⟨trivial, fun h => h.elim⟩
  tells step ev c ev' h := by
    rcases h with ⟨-, h, -⟩ | ⟨h, -⟩
    · exact h
    · exact h.elim

theorem effect_keeps_callback
    {C : Contract (EventLoop S δ) (TimerReply (S := S) (δ := δ))} {ev' : EventLoop S δ}
    {op : TimerCall S δ} (h : op.Effect C ev ev') :
    ev'.firing = ev.firing ∧ ev'.results = ev.results := by
  cases h <;> exact ⟨rfl, rfl⟩

/-- What is known when the callback of an entry has returned: the state in
which it returned, with the result it was to give. -/
theorem Invariant.returned (h : Invariant ok inv) {now : UInt64}
    {entry : EventEntry S δ} {timer : Timer S δ} (hev : inv ev) (hidle : ev.firing = none)
    (hdue : ev.timer.tickTime now = (some entry, timer)) {r : RetValue × UInt64}
    {ev' : EventLoop S δ}
    (hr : Returned ((keeping inv).contract (timerSystem.restrict (Move.onCalls ok)))
      (ev.fire entry timer) entry r ev') :
    ∃ u, inv u ∧ u.firing = some (ev.owner entry.key, entry) ∧ r = u.results 0 ∧
      ev' = { u with results := fun n => u.results (n + 1) } := by
  cases hr with
  | skipped _ =>
      refine ⟨_, h.fire (fun n => n.casesOn (.OK, 0) ev.results) hev hidle hdue, rfl, rfl, rfl⟩
  | called hr =>
      rcases hr with ⟨huser, -⟩ | ⟨-, u, hinv, hrel, hanswer⟩
      · exact absurd trivial huser
      · obtain ⟨⟨rfl, rfl⟩, -⟩ := hanswer
        exact ⟨u, hinv, (hrel _ rfl).1, rfl, rfl⟩

/-- One timer of a pass. -/
theorem Invariant.wp_processEntry (h : Invariant ok inv) {now : UInt64}
    {entry : EventEntry S δ} {timer : Timer S δ} (hev : inv ev)
    (hidle : ev.firing = none) (hdue : ev.timer.tickTime now = (some entry, timer)) :
    (processEntry entry timer).wp
      ((keeping inv).contract (timerSystem.restrict (Move.onCalls ok)))
      (fun _ ev' => inv ev' ∧ ev'.firing = none) ev := by
  refine EventLoop.wp_processEntry (contract_runs _) ?_ ?_ ?_
  · exact ⟨trivial, fun _ => h.fire ev.results hev hidle hdue⟩
  · intro r ev' hr hover
    obtain ⟨u, hu, hfiring, rfl, rfl⟩ := h.returned hev hidle hdue hr
    exact ⟨h.finished hu hfiring hover, rfl⟩
  · intro r ev' hr hrearms c _ id cursor hid
    obtain ⟨u, hu, hfiring, rfl, rfl⟩ := h.returned hev hidle hdue hr
    exact ⟨h.again u (_, entry) c id cursor hu hfiring hrearms hid, rfl⟩

/-- A call keeps the property. -/
theorem Invariant.keeps (h : Invariant ok inv) :
    (keeping inv).Keeps (timerSystem.restrict (Move.onCalls ok)) := by
  intro op ev hmay hev
  by_cases hop : ∃ fuel, op = .timerProcess fuel
  · obtain ⟨fuel, rfl⟩ := hop
    have hidle : ev.firing = none := hmay.1.2
    have hrel : ∀ t, (keeping inv).rel ev t := by
      intro t f hf
      rw [hidle] at hf
      cases hf
    simp only [timerSystem, System.restrict, TimerCall.code, timerProcess, Code.wp_bind,
      Code.wp_modify, Code.wp_pure]
    apply wp_nowMicro (contract_runs _)
    intro now _
    refine wp_timerProcessLoop (fun _ ev' => inv ev' ∧ ev'.firing = none) ?_ ?_ ?_ ?_
    · exact fun _ _ => ⟨trivial, fun huser => huser.elim⟩
    · exact fun _ ev' entry timer h' hdue => h.wp_processEntry h'.1 h'.2 hdue
    · exact fun _ ev' _ h' _ => ⟨h.ended h'.1, hrel _⟩
    · exact ⟨h.began ev now hev hidle, hidle⟩
  · refine TimerCall.wp_code (contract_runs _) (fun fuel hfuel => hop ⟨fuel, hfuel⟩) ?_
    intro ev' heffect
    refine ⟨h.call hev hmay.1 hmay.2 heffect, fun f hf => ?_⟩
    obtain ⟨hfiring, hresults⟩ := effect_keeps_callback heffect
    exact ⟨hfiring.trans hf, hresults⟩

/-- The rule for the timers: the property holds whenever code of the user runs. -/
theorem Invariant.holds (h : Invariant ok inv) (hev : inv ev)
    {c : Config (EventLoop S δ) (TimerReply (S := S) (δ := δ)) Unit}
    (hreach : (timerSystem.restrict (Move.onCalls ok)).Reaches ev c)
    (hopen : timerSystem.Open c.stack) : inv c.state :=
  (keeping inv).reaches_inv h.keeps hreach hev hopen

end EventLoop

end TdRevent
