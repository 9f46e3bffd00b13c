import TdRevent.Win.Endings
import TdRevent.Interaction.Trace

/-!
# Sockets that are registered again

The end marker of an event carries its address, but the event is looked up by its
socket. If the number of a closed socket is registered again before the marker is
dispatched, the event is out of the map for good, and the marker takes the new
event out of the map and starts its end callback.
-/

namespace TdRevent.Win

open Interaction Discipline

variable {S δ : Type}

/-- The socket of the event was registered again after the event was unregistered
and before its end marker was dispatched. -/
def Replaced (id : ℕ) (hist : WinHistory S δ) : Prop :=
  ∃ buffer entry sel, Mark.called (.registerSocket buffer entry) sel ∈ hist ∧
    sel.eventMaps buffer.asRawSocket = some id ∧ (sel.events id).isEnd = true ∧
    sel.port.posted (.read id) ≠ 0

variable {sel t : Selector S δ} {hist : WinHistory S δ} {id : ℕ}

theorem not_replaced_nil : ¬ Replaced id ([] : WinHistory S δ) := by
  rintro ⟨_, _, _, hmem, _⟩
  exact absurd hmem List.not_mem_nil

/-- A replacement in a longer history is an old one, or the new entry is its call. -/
theorem replaced_snoc {m : Mark (Selector S δ) (WinAsk S) (WinCall S δ)} :
    Replaced id (hist ++ [m]) ↔ Replaced id hist ∨
      ∃ buffer entry sel, m = .called (.registerSocket buffer entry) sel ∧
        sel.eventMaps buffer.asRawSocket = some id ∧ (sel.events id).isEnd = true ∧
        sel.port.posted (.read id) ≠ 0 := by
  constructor
  · rintro ⟨buffer, entry, sel, hmem, h⟩
    rcases List.mem_append.mp hmem with hmem | hmem
    · exact Or.inl ⟨buffer, entry, sel, hmem, h⟩
    · exact Or.inr ⟨buffer, entry, sel, (List.mem_singleton.mp hmem).symm, h⟩
  · rintro (⟨buffer, entry, sel, hmem, h⟩ | ⟨buffer, entry, sel, rfl, h⟩)
    · exact ⟨buffer, entry, sel, List.mem_append_left _ hmem, h⟩
    · exact ⟨buffer, entry, sel, List.mem_append_right _ (List.mem_singleton_self _), h⟩

/-- The invariant: an event that was replaced or that ended has left the map, and
no event has both behind it. -/
structure Replacing (sel : Selector S δ) (hist : WinHistory S δ) : Prop where
  keyed : sel.Keyed
  known : ∀ {id}, Replaced id hist ∨ hist.Names ends id → id < sel.count
  unmapped : ∀ {id}, Replaced id hist ∨ hist.Names ends id →
    ∀ socket, sel.eventMaps socket ≠ some id
  apart : ∀ id, Replaced id hist → ¬ hist.Names ends id

namespace Replacing

theorem new [Zero S] : Replacing (.new : Selector S δ) [] where
  keyed := ⟨nofun, Numbered.empty⟩
  known h := h.elim (absurd · not_replaced_nil) (absurd · History.not_names_nil)
  unmapped _ _ := nofun
  apart _ h := absurd h not_replaced_nil

variable (h : Replacing sel hist)

include h

/-- A change after which no event is in the map that was not there, except for new ones. -/
theorem move (hkeyed : t.Keyed) (hcount : sel.count ≤ t.count)
    (hmaps : ∀ socket id, t.eventMaps socket = some id →
      sel.eventMaps socket = some id ∨ sel.count ≤ id) : Replacing t hist where
  keyed := hkeyed
  known hleft := (h.known hleft).trans_le hcount
  unmapped hleft socket hsocket := by
    rcases hmaps socket _ hsocket with hold | hnew
    · exact h.unmapped hleft socket hold
    · exact absurd (h.known hleft) hnew.not_gt
  apart := h.apart

theorem calm (ht : Calm sel t) : Replacing t hist :=
  h.move (h.keyed.calm ht) ht.count.ge fun _ _ hs => Or.inl (ht.maps ▸ hs)

theorem edit (id : ℕ) {f : Event S δ → Event S δ}
    (hf : ∀ event, (f event).asRawSocket = event.asRawSocket) :
    Replacing (sel.edit id f) hist :=
  h.move (h.keyed.edit id hf) le_rfl fun _ _ => Or.inl

theorem port (port : Port) : Replacing { sel with port := port } hist :=
  h.move ⟨h.keyed.sockets, h.keyed.numbered⟩ le_rfl fun _ _ => Or.inl

/-- The history grows by what concerns no event that is in the map or has left it. -/
theorem snoc {m : Mark (Selector S δ) (WinAsk S) (WinCall S δ)}
    (hreplaced : ∀ id, Replaced id (hist ++ [m]) → Replaced id hist ∨
      id < sel.count ∧ (∀ socket, sel.eventMaps socket ≠ some id) ∧ ¬ hist.Names ends id)
    (hends : ∀ id, ends m = some id → id < sel.count ∧
      (∀ socket, sel.eventMaps socket ≠ some id) ∧ ¬ Replaced id (hist ++ [m])) :
    Replacing sel (hist ++ [m]) := by
  have hcases : ∀ {id}, Replaced id (hist ++ [m]) ∨ (hist ++ [m]).Names ends id →
      id < sel.count ∧ ∀ socket, sel.eventMaps socket ≠ some id := by
    rintro id (hid | hid)
    · rcases hreplaced id hid with hid | ⟨hknown, hunmapped, -⟩
      · exact ⟨h.known (Or.inl hid), h.unmapped (Or.inl hid)⟩
      · exact ⟨hknown, hunmapped⟩
    · rcases History.names_snoc.mp hid with hid | hid
      · exact ⟨h.known (Or.inr hid), h.unmapped (Or.inr hid)⟩
      · exact ⟨(hends id hid).1, (hends id hid).2.1⟩
  refine ⟨h.keyed, fun hleft => (hcases hleft).1, fun hleft => (hcases hleft).2, ?_⟩
  intro id hid hended
  rcases History.names_snoc.mp hended with hended | hm
  · rcases hreplaced id hid with hold | ⟨-, -, hunended⟩
    · exact h.apart id hold hended
    · exact hunended hended
  · exact (hends id hm).2.2 hid

/-- A callback or a call of another function is added. -/
theorem silent {m : Mark (Selector S δ) (WinAsk S) (WinCall S δ)} (hends : ends m = none)
    (hm : ∀ buffer entry t, m ≠ .called (.registerSocket buffer entry) t) :
    Replacing sel (hist ++ [m]) := by
  refine h.snoc (fun id hid => ?_) (hends ▸ nofun)
  rcases replaced_snoc.mp hid with hold | ⟨buffer, entry, t, rfl, -⟩
  · exact Or.inl hold
  · exact absurd rfl (hm buffer entry t)

variable [DecidableEq S]

theorem remove (socket : S) : Replacing (sel.remove socket) hist :=
  h.move (h.keyed.remove socket) le_rfl fun _ _ hs => Or.inl (Selector.Keyed.remove_some hs).2

theorem insert (buffer : EventBuffer S) (entry : EventEntry S δ) :
    Replacing (sel.insert buffer entry) hist := by
  refine h.move (h.keyed.insert buffer entry) (Nat.le_succ _) fun socket id hs => ?_
  rcases Selector.Keyed.insert_some hs with ⟨-, hnew⟩ | hold
  · exact Or.inr hnew.ge
  · exact Or.inl hold

/-- An event that is taken out of the map is nowhere else in it. -/
theorem removed {socket : S} (hmaps : sel.eventMaps socket = some id) (socket' : S) :
    (sel.remove socket).eventMaps socket' ≠ some id := by
  intro hs
  obtain ⟨hne, hs⟩ := Selector.Keyed.remove_some hs
  exact hne (h.keyed.inj hs hmaps)

/-- A socket is registered, and its event is taken out of the map. -/
theorem register (buffer : EventBuffer S) (entry : EventEntry S δ) :
    Replacing (sel.remove buffer.asRawSocket)
      (hist ++ [.called (.registerSocket buffer entry) sel]) := by
  refine (h.remove _).snoc (fun id hid => ?_) nofun
  rcases replaced_snoc.mp hid with hold | ⟨buffer', entry', sel', heq, hmaps, -⟩
  · exact Or.inl hold
  · cases heq
    refine Or.inr ⟨h.keyed.numbered _ _ hmaps, h.removed hmaps, fun hended => ?_⟩
    exact h.unmapped (Or.inr hended) _ hmaps

/-- An event is taken out of the map, and its end callback starts. -/
theorem ending {socket : S} (hmaps : sel.eventMaps socket = some id) :
    Replacing (sel.ending socket id) (hist ++ [.asked (.endCb id) (sel.ending socket id)]) := by
  have hended : Replacing (sel.remove socket)
      (hist ++ [.asked (.endCb id) (sel.ending socket id)]) := by
    refine (h.remove socket).snoc (fun id' hid' => ?_) ?_
    · rcases replaced_snoc.mp hid' with hold | ⟨_, _, _, heq, -⟩
      · exact Or.inl hold
      · exact absurd heq nofun
    · rintro _ ⟨⟩
      refine ⟨h.keyed.numbered _ _ hmaps, h.removed hmaps, fun hreplaced => ?_⟩
      rcases replaced_snoc.mp hreplaced with hold | ⟨_, _, _, heq, -⟩
      · exact h.unmapped (Or.inl hold) _ hmaps
      · exact absurd heq nofun
  have hheld := hended.calm (.owners _ (sel.owners.hold id))
  exact hheld.calm (.edit _ id (f := Event.takeData) (fun _ => rfl) (fun _ => rfl) fun _ => rfl)

end Replacing

/-! ## The runs -/

variable [DecidableEq S]

theorem replacing_recordable
    (ok : Selector S δ → Move (WinReply (S := S)) (WinCall S δ) → Prop) :
    Recordable ok Replacing (fun _ _ => True)
      (fun hist => ∀ id, Replaced id hist → ¬ hist.Names ends id) True := by
  have hdelivers : ∀ {sel t : Selector S δ} {hist status o}, Replacing sel hist →
      Delivers sel status o t → Replacing t hist := by
    intro sel t hist status o h ht
    rcases ht.calm_or_posted with ⟨-, hcalm⟩ | ⟨-, -, rfl⟩
    · exact h.calm hcalm
    · exact h.port _
  exact
    { result h := h.apart
      calm h := h.calm
      called h hop := h.silent rfl fun buffer entry t heq => by
        cases heq
        exact hop buffer entry rfl
      callback h hruns _ := h.silent (WinAsk.runs_ends _ hruns).2 fun _ _ _ => nofun
      register h _ := h.register _ _
      insert buffer entry h _ := h.insert buffer entry
      forget h _ _ := h.remove _
      close {sel hist socket id r t} h _ _ ht _ := by
        have hshut : Replacing (sel.shut id) hist := h.calm (.owners sel _)
        have hclosed := hshut.edit id (f := Event.end_) fun _ => rfl
        rcases r with e | _
        · obtain rfl := ht
          exact hclosed
        · obtain rfl := ht
          exact hclosed.port _
      ends {_ _ _ id t} h ht _ _ _ := by
        have hheld : Replacing (t.hold id) _ := (hdelivers h ht).calm (.owners t _)
        exact ⟨fun _ => hdelivers h ht, fun id' hid' =>
          ⟨fun _ => (hdelivers h ht).remove _, fun _ => hheld.ending hid'⟩⟩
      accepts h ht _ _ := ⟨hdelivers h ht, trivial, fun _ => trivial⟩
      reads h ht _ _ _ := ⟨hdelivers h ht, trivial, fun _ => trivial⟩
      writes h ht _ := ⟨hdelivers h ht, trivial⟩ }

/-! ## The main result -/

/-- The packet for the event `id` takes the event `id'` out of the map and starts its
end callback. Then the event is dropped. -/
def EndsInstead (sel : Selector S δ) (status : CompletionStatus) (id id' : ℕ) : Prop :=
  ∀ ans tr t, (Win.readDone id status).Trace ans sel tr () t → ∃ u tr',
    ((sel.events id').entry.end_ = none →
      tr = tr' ∧ u = (sel.remove (sel.events id).asRawSocket).hold id') ∧
    ((sel.events id').entry.end_ ≠ none →
      tr = ⟨.endCb id', sel.ending (sel.events id).asRawSocket id', (), u⟩ :: tr') ∧
    (Win.letGo id').Trace ans u tr' () t

theorem ends_instead {status : CompletionStatus} {id' : ℕ}
    (haccept : ¬ (sel.events id).isAccept) (hended : Flag.ENDED ∈ status.flag)
    (hmaps : sel.eventMaps (sel.events id).asRawSocket = some id') :
    EndsInstead sel status id id' := by
  intro ans tr t htrace
  unfold Win.readDone Win._unregisterSocket at htrace
  rw [Code.trace_read_then, if_neg haccept,
    if_pos ((EventFlags.contains_ENDED _).mpr hended)] at htrace
  obtain ⟨_, _, tr, _, rfl, htrace, rfl, -, rfl⟩ := (Code.trace_bind ..).mp htrace
  rw [Code.trace_read_then, hmaps] at htrace
  dsimp only at htrace
  rw [Code.trace_modify_then] at htrace
  obtain ⟨_, _, tr, _, rfl, htrace, rfl, -, rfl⟩ := (Code.trace_bind ..).mp htrace
  unfold Win.holding at htrace
  rw [Code.trace_modify_then] at htrace
  obtain ⟨_, u, tr, tr', rfl, htrace, hlet⟩ := (Code.trace_bind ..).mp htrace
  rw [List.append_nil, List.append_nil]
  refine ⟨u, tr', ?_, ?_, hlet⟩
  all_goals
    intro hend
    unfold Win.endCb at htrace
    rw [Code.trace_read_then] at htrace
  · have hend' : (((sel.remove (sel.events id).asRawSocket).hold id').events id').entry.end_ =
        none := hend
    rw [hend'] at htrace
    obtain ⟨rfl, -, rfl⟩ := htrace
    exact ⟨rfl, rfl⟩
  · obtain ⟨cb, hcb⟩ := Option.ne_none_iff_exists'.mp hend
    have hcb' : (((sel.remove (sel.events id).asRawSocket).hold id').events id').entry.end_ =
        some cb := hcb
    rw [hcb'] at htrace
    obtain ⟨-, rfl⟩ := (Code.trace_query ..).mp htrace
    rfl

/-- In no run does the end callback of an event start whose socket was registered
again before its end marker was dispatched, and the event is not in the map again.
The marker ends the event that is in the map under the same number instead. -/
theorem replaced_never_ends [Zero S]
    (ok : Selector S δ → Move (WinReply (S := S)) (WinCall S δ) → Prop) :
    (∀ c, (winRuns ok).Reaches .new c →
      ∃ hist, (winRuns ok).Recorded WinAsk.callsBack .new hist c) ∧
    (∀ hist (c : Config (Selector S δ) (WinReply (S := S)) Unit),
      (winRuns ok).Recorded WinAsk.callsBack .new hist c → ∀ id, Replaced id hist →
        ¬ hist.Names ends id ∧
          ((winRuns ok).Open c.stack → ∀ socket, c.state.eventMaps socket ≠ some id)) ∧
    ∀ (sel : Selector S δ) status id id', ¬ (sel.events id).isAccept →
      Flag.ENDED ∈ status.flag → sel.eventMaps (sel.events id).asRawSocket = some id' →
      EndsInstead sel status id id' := by
  refine ⟨fun c hreach => hreach.recorded, fun hist c hrec id hid => ?_,
    fun _ _ _ _ => ends_instead⟩
  have hrecorder := (replacing_recordable ok).recorder
  refine ⟨?_, fun hopen => ?_⟩
  · exact hrecorder.always (fun _ _ h => h.apart) (fun _ _ _ h => h.2) hrec .new id hid
  · exact (hrecorder.inv_of_open hrec .new hopen).unmapped (Or.inl hid)

/-- Socket 3 is registered again while its first event waits for its end marker. -/
theorem replaced_never_ends_zero :
    ∃ hist c, (winRuns fun _ _ => True).Recorded WinAsk.callsBack
      (.new : Selector SOCKET Unit) hist c ∧ Replaced 0 hist ∧
      c.state.port.posted (.read 0) = 1 ∧ ¬ hist.Names ends 0 := by
  have start : (winRuns fun _ _ => True).Recorded WinAsk.callsBack
    (.new : Selector SOCKET Unit) [] _ := .refl _
  have registered := (start.call (.registerSocket (.new 3 0) (.newEvent 3 ∅ none none (some 1)
    none)) trivial ⟨trivial, trivial⟩).answer (.ok ()) ⟨rfl, trivial⟩
  have closed := ((registered.call (.unregisterSocket 3) trivial ⟨trivial, trivial⟩).answer ()
    ⟨rfl, trivial⟩).answer (.ok ()) ⟨rfl, trivial⟩
  have again := (closed.call (.registerSocket (.new 3 0) (.newEvent 3 ∅ none none (some 1)
    none)) trivial ⟨trivial, trivial⟩).answer (.ok ()) ⟨rfl, trivial⟩
  refine ⟨_, _, again, ?replaced, rfl, ((replaced_never_ends _).2.1 _ _ again 0 ?replaced).1⟩
  exact replaced_snoc.mpr (Or.inr ⟨_, _, _, rfl, rfl, rfl, Nat.one_ne_zero⟩)

/-- Socket 3 is registered, unregistered and registered again. The end marker of the
first event is dispatched: the second event leaves the map, its end callback starts, and
its socket is closed. -/
theorem reuse_ends_new :
    ∃ hist c, (winRuns fun _ _ => True).Recorded WinAsk.callsBack
      (.new : Selector SOCKET Unit) hist c ∧ c.stack = [] ∧ Replaced 0 hist ∧
      c.state.port.posted (.read 0) = 0 ∧ hist.filterMap ends = [1] ∧
      (c.state.events 1).isEnd = false ∧ c.state.eventMaps 3 = none ∧
      c.state.owners.isOpen 1 = false := by
  have start : (winRuns fun _ _ => True).Recorded WinAsk.callsBack
    (.new : Selector SOCKET Unit) [] _ := .refl _
  have registered := (start.call (.registerSocket (.new 3 0) (.newEvent 3 ∅ none none (some 1)
    none)) trivial ⟨trivial, trivial⟩).answer (.ok ()) ⟨rfl, trivial⟩
  have closed := ((registered.call (.unregisterSocket 3) trivial ⟨trivial, trivial⟩).answer ()
    ⟨rfl, trivial⟩).answer (.ok ()) ⟨rfl, trivial⟩
  have again := (closed.call (.registerSocket (.new 3 0) (.newEvent 3 ∅ none none (some 2)
    none)) trivial ⟨trivial, trivial⟩).answer (.ok ()) ⟨rfl, trivial⟩
  have ended := (((again.call .doSelect trivial ⟨trivial, trivial⟩).answer
    (.ok [⟨0, EventFlags.FLAG_ENDED, some (.read 0)⟩]) ⟨rfl, trivial⟩).answer ()
    ⟨.posted (by decide) rfl rfl, trivial⟩).answer () ⟨rfl, trivial⟩
  have dropped := ended.answer () ⟨rfl, trivial⟩
  refine ⟨_, _, dropped, rfl, ?_, rfl, rfl, rfl, rfl, rfl⟩
  exact replaced_snoc.mpr (Or.inl (replaced_snoc.mpr (Or.inl (replaced_snoc.mpr
    (Or.inr ⟨_, _, _, rfl, rfl, rfl, Nat.one_ne_zero⟩)))))

end TdRevent.Win
