import TdRevent.Win.Recording

/-!
# The end of an event of the Windows selector

`unregisterSocket` marks an event as ended, closes its socket and posts the end
marker. The event leaves the map and its end callback starts when the marker is
dispatched. A listener takes the marker for a completed accept. An event whose
socket is registered again before that has lost its place in the map.

## Implementation notes

An event is open, closing or gone. Every change of the state moves every event
along these stages or leaves its stage alone.
-/

namespace TdRevent.Win

open Interaction Discipline

variable {S δ : Type}

/-- The event whose end callback starts. -/
def ends : Mark (Selector S δ) (WinAsk S) (WinCall S δ) → Option ℕ
  | .asked (.endCb id) _ => some id
  | _ => none

/-- The event whose callback starts. -/
def starts : Mark (Selector S δ) (WinAsk S) (WinCall S δ) → Option ℕ
  | .asked (.endCb id) _ => some id
  | .asked q _ => q.runs
  | _ => none

/-- No callback of an event starts after its end callback, and the end callback
does not start again. -/
def EndsLast (hist : WinHistory S δ) : Prop := History.EndsLast starts ends hist

theorem WinAsk.runs_ends {q : WinAsk S} {id : ℕ} (sel : Selector S δ) (h : q.runs = some id) :
    starts (.asked q sel : Mark _ _ (WinCall S δ)) = some id ∧
      ends (.asked q sel : Mark _ _ (WinCall S δ)) = none := by
  cases q <;> first | exact ⟨h, rfl⟩ | exact absurd h nofun

/-- Both addresses of an event are idle. -/
theorem Port.idle_both {port : Port} {id : ℕ} (hread : port.outstanding (.read id) = 0)
    (hwrite : port.outstanding (.write id) = 0) (o : Overlapped) (ho : o.id = id) :
    port.outstanding o = 0 := by
  subst ho
  cases o with
  | read id => exact hread
  | write id => exact hwrite

/-- The end marker of the event is on its way. -/
structure Closing (sel : Selector S δ) (hist : WinHistory S δ) (id : ℕ) : Prop where
  posted : sel.port.posted (.read id) = 1
  maps : sel.eventMaps (sel.events id).asRawSocket = some id
  unended : ¬ hist.Names ends id

/-- The end marker of the event was dispatched. -/
structure Gone (sel : Selector S δ) (hist : WinHistory S δ) (id : ℕ) : Prop where
  taken : sel.port.posted (.read id) = 0
  unmapped : ∀ socket, sel.eventMaps socket ≠ some id
  idle : ∀ o : Overlapped, o.id = id → sel.port.outstanding o = 0
  ended : (sel.events id).entry.end_ ≠ none → hist.Names ends id

/-- The stages of an event. -/
inductive Stage (sel : Selector S δ) (hist : WinHistory S δ) (id : ℕ) : Prop
  | opened (hend : (sel.events id).isEnd = false) (hposted : sel.port.posted (.read id) = 0)
      (hunended : ¬ hist.Names ends id)
  | closing (hend : (sel.events id).isEnd = true) (h : Closing sel hist id)
  | gone (hend : (sel.events id).isEnd = true) (h : Gone sel hist id)

variable {sel t : Selector S δ} {hist : WinHistory S δ} {id : ℕ}

namespace Stage

/-- The event keeps its stage. -/
theorem move (h : Stage sel hist id) (hend : (t.events id).isEnd = (sel.events id).isEnd)
    (hposted : t.port.posted (.read id) = sel.port.posted (.read id))
    (hcb : (t.events id).entry.end_ = (sel.events id).entry.end_)
    (hmaps : (sel.events id).isEnd = true →
      sel.eventMaps (sel.events id).asRawSocket = some id →
      t.eventMaps (t.events id).asRawSocket = some id)
    (hunmapped : (∀ socket, sel.eventMaps socket ≠ some id) →
      (∀ socket, t.eventMaps socket ≠ some id) ∧
      ∀ o : Overlapped, o.id = id → t.port.outstanding o ≤ sel.port.outstanding o) :
    Stage t hist id := by
  cases h with
  | opened hopen hnone hunended => exact .opened (hend.trans hopen) (hposted.trans hnone) hunended
  | closing hclosed h =>
      exact .closing (hend.trans hclosed)
        ⟨hposted.trans h.posted, hmaps hclosed h.maps, h.unended⟩
  | gone hclosed h =>
      obtain ⟨hmaps', hless⟩ := hunmapped h.unmapped
      refine .gone (hend.trans hclosed) ⟨hposted.trans h.taken, hmaps', fun o ho => ?_, ?_⟩
      · exact Nat.le_zero.mp ((hless o ho).trans_eq (h.idle o ho))
      · rw [hcb]
        exact h.ended

theorem calm (h : Stage sel hist id) (ht : Calm sel t) : Stage t hist id := by
  refine h.move (ht.isEnd id) (congrFun ht.posted _) (ht.end_ id) (fun _ hmaps => ?_) ?_
  · rw [ht.maps, ht.socket]
    exact hmaps
  · intro hunmapped
    refine ⟨ht.maps ▸ hunmapped, fun o ho => ?_⟩
    rcases ht.outstanding o with hle | ⟨socket, hs⟩
    · exact hle
    · exact absurd (ho ▸ hs) (hunmapped socket)

/-- Only the end of the event matters in the history. -/
theorem history {hist' : WinHistory S δ} (h : Stage sel hist id)
    (hnames : hist'.Names ends id ↔ hist.Names ends id) : Stage sel hist' id := by
  cases h with
  | opened hopen hnone hunended => exact .opened hopen hnone (mt hnames.mp hunended)
  | closing hclosed h => exact .closing hclosed ⟨h.posted, h.maps, mt hnames.mp h.unended⟩
  | gone hclosed h =>
      exact .gone hclosed ⟨h.taken, h.unmapped, h.idle, fun hcb => hnames.mpr (h.ended hcb)⟩

/-- The history grows by what is not the end of the event. -/
theorem snoc (h : Stage sel hist id) {m : Mark (Selector S δ) (WinAsk S) (WinCall S δ)}
    (hm : ends m ≠ some id) : Stage sel (hist ++ [m]) id :=
  h.history (History.names_snoc.trans (or_iff_left hm))

/-- An event that has an operation did not end. -/
theorem unended {o : Overlapped} (h : Stage sel hist o.id) (hout : sel.port.outstanding o ≠ 0) :
    ¬ hist.Names ends o.id := by
  cases h with
  | opened _ _ hunended => exact hunended
  | closing _ h => exact h.unended
  | gone _ h => exact absurd (h.idle o rfl) hout

/-- An event whose end marker is on its way is closing. -/
theorem posted (h : Stage sel hist id) (hposted : sel.port.posted (.read id) ≠ 0) :
    (sel.events id).isEnd = true ∧ Closing sel hist id := by
  cases h with
  | opened _ hnone _ => exact absurd hnone hposted
  | closing hclosed h => exact ⟨hclosed, h⟩
  | gone _ h => exact absurd h.taken hposted

end Stage

/-- The invariant. -/
structure Endings (sel : Selector S δ) (hist : WinHistory S δ) : Prop where
  keyed : sel.Keyed
  stage : ∀ id, Stage sel hist id
  fresh : ∀ id, sel.count ≤ id → (sel.events id).isEnd = false
  writes : ∀ id, sel.port.posted (.write id) = 0
  last : EndsLast hist

namespace Endings

theorem new [Zero S] : Endings (.new : Selector S δ) [] where
  keyed := ⟨nofun, Numbered.empty⟩
  stage _ := .opened rfl rfl History.not_names_nil
  fresh _ _ := rfl
  writes _ := rfl
  last := History.endsLast_nil

variable (h : Endings sel hist)

include h

theorem calm (ht : Calm sel t) : Endings t hist where
  keyed := h.keyed.calm ht
  stage id := (h.stage id).calm ht
  fresh id hid := (ht.isEnd id).trans (h.fresh id (ht.count ▸ hid))
  writes id := (congrFun ht.posted _).trans (h.writes id)
  last := h.last

/-- The history grows by what is not an end. -/
theorem snoc {m : Mark (Selector S δ) (WinAsk S) (WinCall S δ)} (hm : ends m = none)
    (hstarts : ∀ id, starts m = some id → ¬ hist.Names ends id) : Endings sel (hist ++ [m]) where
  keyed := h.keyed
  stage id := (h.stage id).snoc (hm ▸ nofun)
  fresh := h.fresh
  writes := h.writes
  last := h.last.snoc hstarts

theorem called (op : WinCall S δ) (t : Selector S δ) : Endings sel (hist ++ [.called op t]) :=
  h.snoc rfl nofun

/-- A callback of an event that did not end is started. -/
theorem callback {q : WinAsk S} (hruns : q.runs = some id) (hlive : ¬ hist.Names ends id) :
    Endings sel (hist ++ [.asked q sel]) := by
  obtain ⟨hstarts, hends⟩ := WinAsk.runs_ends sel hruns
  refine h.snoc hends fun id' hid' => ?_
  obtain rfl := Option.some.inj (hstarts.symm.trans hid')
  exact hlive

variable [DecidableEq S]

/-- An event that is not closing is taken out of the map. -/
theorem remove {socket : S}
    (hopen : ∀ id, sel.eventMaps socket = some id → (sel.events id).isEnd = false) :
    Endings (sel.remove socket) hist where
  keyed := h.keyed.remove socket
  stage id := by
    refine (h.stage id).move rfl rfl rfl (fun hclosed hmaps => ?_) ?_
    · have hne : (sel.events id).asRawSocket ≠ socket := by
        intro hsocket
        rw [hsocket] at hmaps
        exact absurd hclosed (by simp [hopen id hmaps])
      exact (Function.update_of_ne hne ..).trans hmaps
    · exact fun hunmapped => ⟨fun s hs => hunmapped s (Selector.Keyed.remove_some hs).2,
        fun _ _ => le_rfl⟩
  fresh := h.fresh
  writes := h.writes
  last := h.last

theorem insert {buffer : EventBuffer S} (entry : EventEntry S δ)
    (hmaps : sel.eventMaps buffer.asRawSocket = none) :
    Endings (sel.insert buffer entry) hist where
  keyed := h.keyed.insert buffer entry
  stage id := by
    by_cases hid : id = sel.count
    · subst hid
      have hnew := sel.insert_new buffer entry
      cases h.stage sel.count with
      | opened _ hposted hunended => exact .opened (congrArg Event.isEnd hnew) hposted hunended
      | closing hclosed _ => exact absurd hclosed (by simp [h.fresh _ le_rfl])
      | gone hclosed _ => exact absurd hclosed (by simp [h.fresh _ le_rfl])
    · have hold := sel.insert_old buffer entry hid
      refine (h.stage id).move (congrArg Event.isEnd hold) rfl
        (congrArg (fun event : Event S δ => event.entry.end_) hold) (fun _ hs => ?_) ?_
      · have hne : (sel.events id).asRawSocket ≠ buffer.asRawSocket := by
          intro hsocket
          rw [hsocket, hmaps] at hs
          exact absurd hs nofun
        rw [hold]
        exact (Function.update_of_ne hne ..).trans hs
      · refine fun hunmapped => ⟨fun s hs => ?_, fun _ _ => le_rfl⟩
        rcases Selector.Keyed.insert_some hs with ⟨-, hnew⟩ | hs
        · exact hid hnew
        · exact hunmapped s hs
  fresh id hid := by
    rw [sel.insert_old buffer entry (Nat.lt_of_succ_le hid).ne']
    exact h.fresh id ((Nat.le_succ _).trans hid)
  writes := h.writes
  last := h.last

omit [DecidableEq S]

/-- The end marker of an open event is posted. -/
theorem close {socket : S} (hmaps : sel.eventMaps socket = some id)
    (hopen : (sel.events id).isEnd = false) :
    Endings { sel.edit id Event.end_ with port := sel.port.post (.read id) } hist where
  keyed := by
    have hkeyed := h.keyed.edit id (f := Event.end_) fun _ => rfl
    exact ⟨hkeyed.sockets, hkeyed.numbered⟩
  stage id' := by
    have hsocket := sel.edit_keeps id (f := Event.end_) Event.asRawSocket (fun _ => rfl) id'
    by_cases hid : id' = id
    · subst hid
      have hend : (Function.update sel.events id' (sel.events id').end_ id').isEnd = true := by
        rw [Function.update_self]
        rfl
      cases h.stage id' with
      | opened _ hposted hunended =>
          refine .closing hend ⟨?_, ?_, hunended⟩
          · exact (sel.port.post_self _).trans (congrArg (· + 1) hposted)
          · exact (congrArg sel.eventMaps (hsocket.trans (h.keyed.sockets hmaps))).trans hmaps
      | closing hclosed _ => exact absurd hclosed (by simp [hopen])
      | gone hclosed _ => exact absurd hclosed (by simp [hopen])
    · have hold : (sel.edit id Event.end_).events id' = sel.events id' :=
        Function.update_of_ne hid ..
      have hne : Overlapped.read id' ≠ .read id := fun heq => hid (Overlapped.read.inj heq)
      refine (h.stage id').move (congrArg Event.isEnd hold) (sel.port.post_of_ne _ hne)
        (congrArg (fun event : Event S δ => event.entry.end_) hold) (fun _ hs => ?_) ?_
      · exact (congrArg sel.eventMaps hsocket).trans hs
      · exact fun hunmapped => ⟨hunmapped, fun _ _ => le_rfl⟩
  fresh id' hid' := by
    have hne : id' ≠ id := ((h.keyed.numbered _ _ hmaps).trans_le hid').ne'
    exact (congrArg Event.isEnd (Function.update_of_ne hne ..)).trans (h.fresh id' hid')
  writes id' := by
    have hne : Overlapped.write id' ≠ .read id := nofun
    exact (sel.port.post_of_ne _ hne).trans (h.writes id')
  last := h.last

variable [DecidableEq S]

/-- The end marker of an event is dispatched. The event leaves the map, and only its
end may be added to the history. -/
theorem dispatch_end (hist' : WinHistory S δ) (hposted : sel.port.posted (.read id) ≠ 0)
    (hidle : ∀ o : Overlapped, o.id = id → sel.port.outstanding o = 0)
    (hended : (sel.events id).entry.end_ ≠ none → hist'.Names ends id)
    (hothers : ∀ id', id' ≠ id → (hist'.Names ends id' ↔ hist.Names ends id'))
    (hlast : EndsLast hist') :
    Endings { sel.remove (sel.events id).asRawSocket with port := sel.port.take (.read id) }
      hist' := by
  obtain ⟨hclosed, hclosing⟩ := (h.stage id).posted hposted
  have hkeyed := h.keyed.remove (sel.events id).asRawSocket
  refine ⟨⟨hkeyed.sockets, hkeyed.numbered⟩, fun id' => ?_, h.fresh, fun id' => ?_, hlast⟩
  · by_cases hid : id' = id
    · subst hid
      refine .gone hclosed ⟨?_, fun socket hs => ?_, hidle, hended⟩
      · exact (sel.port.take_self _).trans (congrArg (· - 1) hclosing.posted)
      · obtain ⟨hne, hs⟩ := Selector.Keyed.remove_some hs
        exact hne (h.keyed.sockets hs).symm
    · have hne : Overlapped.read id' ≠ .read id := fun heq => hid (Overlapped.read.inj heq)
      refine .history ((h.stage id').move rfl (sel.port.take_of_ne _ hne) rfl (fun _ hs => ?_) ?_)
        (hothers id' hid)
      · have hsocket : (sel.events id').asRawSocket ≠ (sel.events id).asRawSocket := by
          intro hsocket
          rw [hsocket, hclosing.maps] at hs
          exact hid (Option.some.inj hs).symm
        exact (Function.update_of_ne hsocket ..).trans hs
      · exact fun hunmapped => ⟨fun s hs => hunmapped s (Selector.Keyed.remove_some hs).2,
          fun _ _ => le_rfl⟩
  · have hne : Overlapped.write id' ≠ .read id := nofun
    exact (sel.port.take_of_ne _ hne).trans (h.writes id')

end Endings

/-! ## The runs -/

/-- Nothing of an event is outstanding any more when its end marker is dispatched. -/
def Drained : Selector S δ → Move (WinReply (S := S)) (WinCall S δ) → Prop
  | sel, .answer (.dispatch status (.read id)) _ => sel.Marker status id →
      ∀ o : Overlapped, o.id = id → sel.port.outstanding o = 0
  | _, _ => True

/-- End markers are posted, no socket is registered again before its event is gone, and
no packet of a listener is its end marker or finds no socket to accept. The key of a
packet of a stream has `FLAG_ENDED` only if the packet is its end marker. -/
def EndsProperly : Selector S δ → Move (WinReply (S := S)) (WinCall S δ) → Prop
  | sel, .call (.registerSocket buffer _) =>
      ∀ id, sel.eventMaps buffer.asRawSocket = some id → (sel.events id).isEnd = false
  | _, .answer (.postInfo _ _ _) r => r = .ok ()
  | sel, .answer (.dispatch status (.read id)) _ =>
      if (sel.events id).isAccept then
        (sel.events id).acceptSocket ≠ none ∧ Flag.ENDED ∉ status.flag
      else Flag.ENDED ∈ status.flag → sel.Marker status id
  | _, _ => True

/-- Both conditions. -/
def Proper (sel : Selector S δ) (m : Move (WinReply (S := S)) (WinCall S δ)) : Prop :=
  Drained sel m ∧ EndsProperly sel m

variable [DecidableEq S]

theorem endings_recordable :
    Recordable (Proper (S := S) (δ := δ)) Endings (fun id hist => ¬ hist.Names ends id) EndsLast
      False where
  result h := h.last
  calm h := h.calm
  called h _ := h.called _ _
  callback h := h.callback
  register h hok := (h.remove hok.2).called _ _
  insert _ entry h hmaps := h.insert entry hmaps
  forget h hmaps hend := h.remove fun id' hid' => by
    obtain rfl := Option.some.inj (hmaps.symm.trans hid')
    exact hend
  close {sel _ _ id r _} h hmaps hend ht hok := by
    obtain rfl : r = .ok () := hok.2
    obtain rfl := ht
    have hshut : Endings (sel.shut id) _ := h.calm (.owners sel _)
    exact hshut.close hmaps hend
  ends {sel hist status id t} h ht hok haccept hended := by
    obtain ⟨hdrained, hmarker⟩ := hok
    have hstream : ¬ (sel.events id).isAccept := by
      have hentry := (ht.listens id).1
      unfold Event.isAccept at haccept ⊢
      rwa [hentry] at haccept
    have hidle := hdrained ((if_neg hstream).mp hmarker hended)
    rcases ht.calm_or_posted with ⟨hout, -⟩ | ⟨hposted, -, rfl⟩
    · exact absurd (hidle _ rfl) hout
    have hmaps := ((h.stage id).posted hposted).2.maps
    refine ⟨fun hnone => ?_, fun id' hid' => ?_⟩
    · exact absurd (hmaps.symm.trans hnone) nofun
    obtain rfl := Option.some.inj (hmaps.symm.trans hid')
    refine ⟨fun hcb => ?_, fun hcb => ?_⟩
    · exact h.dispatch_end _ hposted hidle (fun hne => absurd hcb hne) (fun _ _ => Iff.rfl) h.last
    · have hunended := ((h.stage id).posted hposted).2.unended
      have hgone := h.dispatch_end (hist ++ [.asked (.endCb id) (Selector.ending
          (Selector.hold { sel with port := sel.port.take (.read id) } id)
          (sel.events id).asRawSocket id)]) hposted hidle
        (fun _ => History.names_snoc.mpr (Or.inr rfl)) (fun id' hid' => ?_) (h.last.snoc ?_)
      · have hheld := hgone.calm (.owners _ ((sel.owners.hold id).hold id))
        exact hheld.calm (.edit _ id (f := Event.takeData) (fun _ => rfl) (fun _ => rfl)
          fun _ => rfl)
      · exact History.names_snoc.trans (or_iff_left fun hid => hid' (Option.some.inj hid).symm)
      · rintro _ ⟨⟩
        exact hunended
  accepts {sel hist status id t} h ht hok haccept := by
    obtain ⟨hentry, hsocket⟩ := ht.listens id
    have hlistens : (sel.events id).isAccept := by
      unfold Event.isAccept at haccept ⊢
      rwa [hentry] at haccept
    obtain ⟨hsome, hended⟩ := (if_pos hlistens).mp hok.2
    rcases ht.calm_or_posted with ⟨hout, hcalm⟩ | ⟨-, hflag, -⟩
    · exact ⟨h.calm hcalm, (h.stage id).unended hout, fun hnone => hsome (hsocket ▸ hnone)⟩
    · exact absurd (hflag ▸ Finset.mem_singleton_self _) hended
  reads {sel hist status id t} h ht hok haccept hended := by
    rcases ht.calm_or_posted with ⟨hout, hcalm⟩ | ⟨-, hflag, -⟩
    · exact ⟨h.calm hcalm, (h.stage id).unended hout, ht.room.not_gt⟩
    · exact absurd (hflag ▸ Finset.mem_singleton_self _) hended
  writes {sel hist status id t} h ht hok := by
    rcases ht.calm_or_posted with ⟨hout, hcalm⟩ | ⟨hposted, -, -⟩
    · exact ⟨h.calm hcalm, (h.stage id).unended hout⟩
    · exact absurd (h.writes id) hposted

/-! ## The main result -/

/-- In every run that ends its events properly the selector does not panic, and no
callback of an event starts after its end callback, which starts once. An event
that was unregistered waits for its end marker in the map. When the marker is
dispatched, the event leaves the map and its end callback starts. -/
theorem unregistered_ends [Zero S] :
    (∀ c, (winRuns (Proper (S := S) (δ := δ))).Reaches .new c →
      ∃ hist, (winRuns Proper).Recorded WinAsk.callsBack .new hist c) ∧
    ∀ hist (c : Config (Selector S δ) (WinReply (S := S)) Unit),
      (winRuns Proper).Recorded WinAsk.callsBack .new hist c →
      EndsLast hist ∧ (∀ f ∈ c.stack.head?, f.question ≠ .panic) ∧
        ((winRuns Proper).Open c.stack → ∀ id, (c.state.events id).isEnd = true →
          Closing c.state hist id ∨ Gone c.state hist id) := by
  refine ⟨fun c hreach => hreach.recorded, fun hist c hrec => ?_⟩
  have hrecorder := (endings_recordable (S := S) (δ := δ)).recorder
  obtain ⟨t, stack⟩ := c
  refine ⟨hrecorder.always (fun _ _ h => h.last) (fun _ _ _ h => h.2) hrec .new, ?_, ?_⟩
  · intro f hf hpanic
    cases stack with
    | nil => exact absurd hf nofun
    | cons g stack =>
        obtain rfl : g = f := Option.some.inj hf
        have huser : ¬ WinAsk.user g.question := hpanic ▸ fun hu => hu
        exact (hrecorder.guard_of_asked hrec .new huser).1 hpanic
  · intro hopen id hclosed
    cases (hrecorder.inv_of_open hrec .new hopen).stage id with
    | opened hend _ _ => exact absurd hclosed (by simp [hend])
    | closing _ h => exact Or.inl h
    | gone _ h => exact Or.inr h

/-- A stream is unregistered while it reads. Its read is completed, and then its end
marker is dispatched. -/
theorem unregistered_ends_stream :
    ∃ hist c, (winRuns Proper).Recorded WinAsk.callsBack (.new : Selector SOCKET Unit) hist c ∧
      hist.filterMap ends = [0] ∧ EndsLast hist ∧ Gone c.state hist 0 := by
  have start : (winRuns Proper).Recorded WinAsk.callsBack (.new : Selector SOCKET Unit) [] _ :=
    .refl _
  have registered := ((start.call (.registerSocket (.new 3 0) (.newEvent 3
    EventFlags.FLAG_READ none none (some 1) none)) trivial ⟨trivial, trivial, nofun⟩).answer
    (.ok ()) ⟨rfl, trivial, trivial⟩).answer (.ok none) ⟨rfl, trivial, trivial⟩
  have closed := ((registered.call (.unregisterSocket 3) trivial
    ⟨trivial, trivial, trivial⟩).answer () ⟨rfl, trivial, trivial⟩).answer (.ok ())
    ⟨rfl, trivial, rfl⟩
  have selected := (closed.call .doSelect trivial ⟨trivial, trivial, trivial⟩).answer
    (.ok [⟨0, ∅, some (.read 0)⟩, ⟨0, EventFlags.FLAG_ENDED, some (.read 0)⟩])
    ⟨rfl, trivial, trivial⟩
  have completed := selected.answer () ⟨.read [] (by decide) rfl (Nat.zero_le _),
    fun hmarker => absurd hmarker.flag (by decide), fun hended => absurd hended (by decide)⟩
  have ended := completed.answer () ⟨.posted (by decide) rfl rfl, fun _ => Port.idle_both rfl rfl,
    fun _ => ⟨by decide, rfl, rfl⟩⟩
  have finished := ended.answer () ⟨rfl, trivial, trivial⟩
  obtain ⟨hlast, -, hstage⟩ := unregistered_ends.2 _ _ finished
  refine ⟨_, _, finished, rfl, hlast, ?_⟩
  rcases hstage trivial 0 rfl with h | h
  · exact absurd h.posted (by decide)
  · exact h

/-- A listener is unregistered while it accepts. Its accept is completed without a
connection and no new one can be posted, so its end marker finds no socket. -/
theorem listener_panics :
    ∃ c hist, (winRuns Drained).Recorded WinAsk.callsBack (.new : Selector SOCKET Unit) hist c ∧
      (c.state.events 0).isEnd = true ∧ hist.filterMap ends = [] ∧
      ∃ f ∈ c.stack.head?, f.question = .panic := by
  have start : (winRuns Drained).Recorded WinAsk.callsBack (.new : Selector SOCKET Unit) [] _ :=
    .refl _
  have registered := (((start.call (.registerSocket (.new 3 0) (.newAccept 3
    (EventFlags.FLAG_READ ∪ EventFlags.FLAG_PERSIST ∪ EventFlags.FLAG_ACCEPT) (some 1) (some 2)
    none)) trivial ⟨trivial, trivial⟩).answer (.ok ()) ⟨rfl, trivial⟩).answer (.ok 4)
    ⟨rfl, trivial⟩).answer (.ok false) ⟨rfl, trivial⟩
  have closed := ((registered.call (.unregisterSocket 3) trivial ⟨trivial, trivial⟩).answer ()
    ⟨rfl, trivial⟩).answer (.ok ()) ⟨rfl, trivial⟩
  have selected := (closed.call .doSelect trivial ⟨trivial, trivial⟩).answer
    (.ok [⟨0, ∅, some (.read 0)⟩, ⟨0, EventFlags.FLAG_ENDED, some (.read 0)⟩]) ⟨rfl, trivial⟩
  have completed := (selected.answer () ⟨.read [] (by decide) rfl (Nat.zero_le _),
    fun hmarker => absurd hmarker.flag (by decide)⟩).answer (.error (.os 10038)) ⟨rfl, trivial⟩
  have called := completed.answer .OK ⟨rfl, trivial⟩
  have failed := (called.answer () ⟨rfl, trivial⟩).answer (.error (.os 10038)) ⟨rfl, trivial⟩
  have ended := failed.answer () ⟨.posted (by decide) rfl rfl, fun _ => Port.idle_both rfl rfl⟩
  exact ⟨_, _, ended, rfl, rfl, _, rfl, rfl⟩

end TdRevent.Win
