import TdRevent.Win.Calm
import TdRevent.Interaction.History

/-!
# Invariants of the history of the Windows selector

An invariant of states and histories that the moves of an event keep holds in
every run: its registration, its end in two phases, and its callbacks. The
functions of the selector are followed here once, for any such invariant.

## Implementation notes

`live` says which events may have a callback run. `panics` holds if the invariant
allows the selector to panic.
-/

namespace TdRevent.Win

open Interaction Discipline

variable {S δ α : Type}

/-- The callbacks are recorded. -/
def WinAsk.callsBack : WinAsk S → Bool
  | .acceptCb _ _ => true
  | .readCb _ => true
  | .writeCb _ => true
  | .endCb _ => true
  | _ => false

/-- The event whose callback is run, unless it is the end callback. -/
def WinAsk.runs : WinAsk S → Option ℕ
  | .acceptCb id _ => some id
  | .readCb id => some id
  | .writeCb id => some id
  | _ => none

/-- What happens in a run. -/
abbrev WinHistory (S δ : Type) := History (Selector S δ) (WinAsk S) (WinCall S δ)

/-- The state in which the end callback of the event of a number is started. -/
def Selector.ending [DecidableEq S] (sel : Selector S δ) (socket : S) (id : ℕ) : Selector S δ :=
  ((sel.remove socket).hold id).edit id Event.takeData

/-- The question that posts the end marker. -/
abbrev postEnd (S : Type) (id : ℕ) : WinAsk S :=
  .postInfo 0 EventFlags.FLAG_ENDED (.read id)

/-- What an invariant of states and histories has to be kept by. -/
structure Recordable [DecidableEq S]
    (ok : Selector S δ → Move (WinReply (S := S)) (WinCall S δ) → Prop)
    (inv : Selector S δ → WinHistory S δ → Prop) (live : ℕ → WinHistory S δ → Prop)
    (P : WinHistory S δ → Prop) (panics : Prop) : Prop where
  result : ∀ {sel hist}, inv sel hist → P hist
  calm : ∀ {sel t hist}, inv sel hist → Calm sel t → inv t hist
  -- what is added to the history
  called : ∀ {sel hist op}, inv sel hist → (∀ buffer entry, op ≠ .registerSocket buffer entry) →
    inv sel (hist ++ [.called op sel])
  callback : ∀ {sel hist q id}, inv sel hist → q.runs = some id → live id hist →
    inv sel (hist ++ [.asked q sel])
  -- the registration
  register : ∀ {sel hist buffer entry}, inv sel hist →
    ok sel (.call (.registerSocket buffer entry)) →
    inv (sel.remove buffer.asRawSocket) (hist ++ [.called (.registerSocket buffer entry) sel])
  insert : ∀ {sel hist} buffer entry, inv sel hist →
    sel.eventMaps buffer.asRawSocket = none → inv (sel.insert buffer entry) hist
  forget : ∀ {sel hist socket id}, inv sel hist → sel.eventMaps socket = some id →
    (sel.events id).isEnd = false → inv (sel.remove socket) hist
  -- the two phases of the end
  close : ∀ {sel hist socket id r t}, inv sel hist → sel.eventMaps socket = some id →
    (sel.events id).isEnd = false →
    WinAsk.answer (postEnd S id) ((sel.shut id).edit id Event.end_) r t →
    ok ((sel.shut id).edit id Event.end_) (.answer (postEnd S id) r) → inv t hist
  ends : ∀ {sel hist status id t}, inv sel hist → Delivers sel status (.read id) t →
    ok sel (.answer (.dispatch status (.read id)) ()) → ¬ (t.events id).isAccept →
    Flag.ENDED ∈ status.flag →
    (t.eventMaps (t.events id).asRawSocket = none → inv t hist) ∧
    ∀ id', t.eventMaps (t.events id).asRawSocket = some id' →
      ((t.events id').entry.end_ = none →
        inv (t.remove (t.events id).asRawSocket) hist) ∧
      ((t.events id').entry.end_ ≠ none →
        inv ((t.hold id).ending (t.events id).asRawSocket id')
          (hist ++ [.asked (.endCb id') ((t.hold id).ending (t.events id).asRawSocket id')]))
  -- the other packets
  accepts : ∀ {sel hist status id t}, inv sel hist → Delivers sel status (.read id) t →
    ok sel (.answer (.dispatch status (.read id)) ()) → (t.events id).isAccept →
    inv t hist ∧ live id hist ∧ ((t.events id).acceptSocket = none → panics)
  reads : ∀ {sel hist status id t}, inv sel hist → Delivers sel status (.read id) t →
    ok sel (.answer (.dispatch status (.read id)) ()) → ¬ (t.events id).isAccept →
    Flag.ENDED ∉ status.flag → inv t hist ∧ live id hist ∧
      ((t.events id).buffer.readCache.length < status.bytesTransferred → panics)
  writes : ∀ {sel hist status id t}, inv sel hist → Delivers sel status (.write id) t →
    ok sel (.answer (.dispatch status (.write id)) ()) → inv t hist ∧ live id hist

variable [DecidableEq S] {ok : Selector S δ → Move (WinReply (S := S)) (WinCall S δ) → Prop}
  {inv : Selector S δ → WinHistory S δ → Prop} {live : ℕ → WinHistory S δ → Prop}
  {P : WinHistory S δ → Prop} {panics : Prop} {sel : Selector S δ} {hist : WinHistory S δ}

/-- The code keeps the invariant when the callbacks are recorded. -/
abbrev Recorded (ok : Selector S δ → Move (WinReply (S := S)) (WinCall S δ) → Prop)
    (inv : Selector S δ → WinHistory S δ → Prop) (P : WinHistory S δ → Prop) (panics : Prop)
    (c : WinCode S δ α) (Q : α → Selector S δ → WinHistory S δ → Prop) (sel : Selector S δ)
    (hist : WinHistory S δ) : Prop :=
  Records inv (fun q _ hist => (q = .panic → panics) ∧ P hist) (winRuns ok) WinAsk.callsBack
    c Q sel hist

namespace Recordable

variable (h : Recordable ok inv live P panics)

include h

theorem quiet {c : WinCode S δ α} (hc : Quiet c sel) (hsel : inv sel hist)
    {Q : α → Selector S δ → WinHistory S δ → Prop}
    (hQ : ∀ a t, Calm sel t → inv t hist → Q a t hist) : Recorded ok inv P panics c Q sel hist := by
  refine Records.mono (Records.silent (Q := fun _ => Calm sel) (hc.wp _ ?_ ?_)) ?_
  · exact fun _ _ _ _ ht => ht.1
  · intro q t huser hpanic
    refine ⟨huser, ?_, fun hq => absurd hq hpanic, h.result hsel⟩
    cases q <;> first | rfl | exact absurd trivial huser
  · rintro a t _ ⟨ht, rfl⟩
    exact hQ a t ht (h.calm hsel ht)

omit h in
/-- A question to the system. -/
theorem ask {q : WinAsk S} {Q : WinReply q → Selector S δ → WinHistory S δ → Prop}
    (huser : ¬ q.user) (hwatch : q.callsBack = false) (hpanic : q ≠ .panic) (hP : P hist)
    (hQ : ∀ r t, WinAsk.answer q sel r t → ok sel (.answer q r) → Q r t hist) :
    Recorded ok inv P panics (.query q) Q sel hist :=
  Records.ask huser hwatch ⟨fun hq => absurd hq hpanic, hP⟩ fun r t ht => hQ r t ht.1 ht.2

/-- A callback of an event that may have one. -/
theorem call {q : WinAsk S} {id : ℕ} (huser : q.user) (hwatch : q.callsBack = true)
    (hruns : q.runs = some id) (hsame : ∀ (u : Selector S δ) r t, WinAsk.answer q u r t → t = u)
    (hsel : inv sel hist) (hlive : live id hist) :
    Recorded ok inv P panics (.query q) (fun _ => inv) sel hist := by
  have hstarted := h.callback hsel hruns hlive
  refine Records.call huser hwatch ⟨?_, h.result hstarted⟩ hstarted fun u hist' r t hu ht => ?_
  · rintro rfl
    exact absurd hruns nofun
  · obtain rfl := hsame u r t ht.1
    exact hu

/-- The number is taken out of the map. -/
theorem removeEvent {socket : S} (hremoved : inv (sel.remove socket) hist) :
    Recorded ok inv P panics (Win.removeEvent socket)
      (fun _ t hist' => t.eventMaps socket = none ∧ inv t hist') sel hist := by
  unfold Win.removeEvent
  apply Records.read_then
  cases hmaps : sel.eventMaps socket with
  | none => exact Records.pure ⟨hmaps, Selector.remove_of_none hmaps ▸ hremoved⟩
  | some id =>
      apply Records.bind
      apply Records.modify
      refine h.quiet (Quiet.freeUnowned id) hremoved fun _ t hcalm ht => ⟨?_, ht⟩
      exact (congrFun hcalm.maps socket).trans (Function.update_self ..)

/-- A handler keeps the invariant with its reference to the event. -/
theorem holding {id : ℕ} {handler : WinCode S δ Unit}
    (hhandler : Recorded ok inv P panics handler (fun _ => inv) (sel.hold id) hist) :
    Recorded ok inv P panics (Win.holding id handler) (fun _ => inv) sel hist := by
  apply Records.bind
  apply Records.modify
  apply Records.bind
  refine hhandler.mono fun _ t hist' ht => ?_
  exact h.quiet (Quiet.letGo id) ht fun _ _ _ hu => hu

/-! ## The end of an event -/

theorem unregisterSocket {socket : S} (hsel : inv sel hist) :
    Recorded ok inv P panics (Win.unregisterSocket socket) (fun _ => inv) sel hist := by
  have hP := h.result hsel
  unfold Win.unregisterSocket
  apply Records.read_then
  cases hmaps : sel.eventMaps socket with
  | none => exact Records.pure hsel
  | some id =>
      dsimp only
      split
      · exact Records.pure hsel
      · rename_i hend
        have hend := Bool.eq_false_of_not_eq_true hend
        apply Records.bind
        apply Records.modify
        apply Records.bind
        refine ask (fun hu => hu) rfl nofun hP ?_
        rintro _ _ rfl -
        apply Records.bind
        apply Records.modify
        refine ask (fun hu => hu) rfl nofun hP fun r t ht hok => ?_
        exact h.close hsel hmaps hend ht hok

theorem dropEvent {id : ℕ} (hsel : inv sel hist) :
    Recorded ok inv P panics (Win.dropEvent id) (fun _ => inv) sel hist := by
  unfold Win.dropEvent
  apply Records.read_then
  apply Records.bind
  exact (h.unregisterSocket hsel).mono fun _ _ _ ht => Records.pure ht

/-- The end marker of an event was dispatched. -/
theorem _unregisterSocket {socket : S}
    (hnone : sel.eventMaps socket = none → inv sel hist)
    (hsome : ∀ id, sel.eventMaps socket = some id →
      ((sel.events id).entry.end_ = none → inv (sel.remove socket) hist) ∧
      ((sel.events id).entry.end_ ≠ none →
        inv (sel.ending socket id) (hist ++ [.asked (.endCb id) (sel.ending socket id)]))) :
    Recorded ok inv P panics (Win._unregisterSocket socket) (fun _ => inv) sel hist := by
  unfold Win._unregisterSocket
  apply Records.read_then
  cases hmaps : sel.eventMaps socket with
  | none => exact Records.pure (hnone hmaps)
  | some id =>
      obtain ⟨hquiet, hcallback⟩ := hsome id hmaps
      apply Records.bind
      apply Records.modify
      apply Records.bind
      refine (h.holding ?_).mono fun _ _ _ ht => Records.pure ht
      unfold Win.endCb
      apply Records.read_then
      cases hend : (sel.events id).entry.end_ with
      | none =>
          have hend' : (((sel.remove socket).hold id).events id).entry.end_ = none := hend
          rw [hend']
          exact Records.pure (h.calm (hquiet hend) (.owners _ _))
      | some cb =>
          have hend' : (((sel.remove socket).hold id).events id).entry.end_ = some cb := hend
          rw [hend']
          have hended := hcallback (hend ▸ nofun)
          apply Records.bind
          apply Records.modify
          refine Records.call trivial rfl ⟨nofun, h.result hended⟩ hended ?_
          rintro u hist' _ _ hu ⟨rfl, -⟩
          exact hu

/-! ## The handlers -/

theorem acceptCb {id : ℕ} {tcp : Except IoError S} (hsel : inv sel hist) (hlive : live id hist) :
    Recorded ok inv P panics (Win.acceptCb id tcp) (fun _ => inv) sel hist := by
  unfold Win.acceptCb
  apply Records.read_then
  cases (sel.events id).entry.accept with
  | none => exact Records.pure hsel
  | some cb => exact h.call trivial rfl rfl (fun _ _ _ ht => ht) hsel hlive

theorem readCb {id : ℕ} (hsel : inv sel hist) (hlive : live id hist) :
    Recorded ok inv P panics (Win.readCb id) (fun _ => inv) sel hist := by
  unfold Win.readCb
  apply Records.read_then
  cases (sel.events id).entry.read with
  | none => exact Records.pure hsel
  | some cb => exact h.call trivial rfl rfl (fun _ _ _ ht => ht) hsel hlive

theorem writeCb {id : ℕ} (hsel : inv sel hist) (hlive : live id hist) :
    Recorded ok inv P panics (Win.writeCb id) (fun _ => inv) sel hist := by
  unfold Win.writeCb
  apply Records.read_then
  cases (sel.events id).entry.write with
  | none => exact Records.pure hsel
  | some cb => exact h.call trivial rfl rfl (fun _ _ _ ht => ht) hsel hlive

omit [DecidableEq S] h in
theorem edit_calm (id : ℕ) {f : Event S δ → Event S δ}
    (hf : ∀ event, (f event).asRawSocket = event.asRawSocket ∧
      (f event).isEnd = event.isEnd ∧ (f event).entry.end_ = event.entry.end_) :
    Calm sel (sel.edit id f) :=
  .edit sel id (fun event => (hf event).1) (fun event => (hf event).2.1) fun event => (hf event).2.2

/-- The end of `readDone`, for both kinds of operations. -/
theorem postAgain (id : ℕ) (flags flag : EventFlags) {post : Post}
    {c : S → WinCode S δ (Except IoError Unit)} (hsel : inv sel hist)
    (hc : ∀ (t : Selector S δ) socket, Quiet (c socket) t) :
    Recorded ok inv P panics (Win.postAgain id flags flag post c) (fun _ => inv) sel hist := by
  unfold Win.postAgain
  have hgiven : inv (sel.edit id (·.unlessPersist flags)) hist := by
    refine h.calm hsel (edit_calm id fun event => ?_)
    unfold Event.unlessPersist
    split <;> exact ⟨rfl, rfl, rfl⟩
  apply Records.bind
  apply Records.modify
  apply Records.read_then
  refine Records.when (fun _ => ?_) fun _ => hgiven
  apply Records.bind
  refine ask (fun hu => hu) rfl nofun (h.result hgiven) ?_
  rintro _ t rfl -
  apply Records.bind
  refine h.quiet (hc _ _) hgiven ?_
  rintro (e | _) t - ht
  · apply Records.bind
    apply Records.modify
    exact h.dropEvent (h.calm ht (edit_calm id fun _ => ⟨rfl, rfl, rfl⟩))
  · exact Records.modify (h.calm ht (edit_calm id fun _ => ⟨rfl, rfl, rfl⟩))

/-- What follows a callback: the event ends, or the next operation is posted. -/
theorem after_cb {id : ℕ} {ret : RetValue} {c : WinCode S δ Unit} (hsel : inv sel hist)
    (hc : Recorded ok inv P panics c (fun _ => inv) sel hist) :
    Recorded ok inv P panics (match ret with
      | .OVER => Win.dropEvent id
      | _ => c) (fun _ => inv) sel hist := by
  cases ret with
  | OVER => exact h.dropEvent hsel
  | OK => exact hc
  | CONTINUE => exact hc

theorem acceptDone {id : ℕ} (hsel : inv sel hist) (hlive : live id hist)
    (hsocket : (sel.events id).acceptSocket = none → panics) :
    Recorded ok inv P panics (Win.acceptDone id) (fun _ => inv) sel hist := by
  unfold Win.acceptDone
  apply Records.read_then
  cases haccept : (sel.events id).acceptSocket with
  | none =>
      apply Records.bind
      exact Records.stop Empty.elim (fun hu => hu) ⟨fun _ => hsocket haccept, h.result hsel⟩
  | some socket =>
      have htaken := h.calm hsel
        (edit_calm id (f := (·.setAcceptSocket none)) fun _ => ⟨rfl, rfl, rfl⟩)
      apply Records.bind
      apply Records.modify
      apply Records.bind
      refine ask (fun hu => hu) rfl nofun (h.result htaken) ?_
      rintro result t rfl -
      have hdone := h.calm htaken
        (edit_calm id (f := (·.setInRead false)) fun _ => ⟨rfl, rfl, rfl⟩)
      apply Records.bind
      apply Records.modify
      apply Records.bind
      refine (h.acceptCb hdone hlive).mono fun ret t hist' ht => ?_
      exact h.after_cb ht (h.postAgain id _ _ ht fun _ => Quiet.postAcceptEvent)

theorem writeDone {id : ℕ} (hsel : inv sel hist) (hlive : live id hist) :
    Recorded ok inv P panics (Win.writeDone id) (fun _ => inv) sel hist := by
  unfold Win.writeDone
  have hdone := h.calm hsel
    (edit_calm id (f := (·.setInWrite false)) fun _ => ⟨rfl, rfl, rfl⟩)
  apply Records.bind
  apply Records.modify
  apply Records.bind
  refine (h.writeCb hdone hlive).mono fun ret t hist' ht => h.after_cb ht ?_
  apply Records.read_then
  refine Records.when (fun _ => ?_) fun _ => ht
  apply Records.bind
  refine ask (fun hu => hu) rfl nofun (h.result ht) ?_
  rintro _ u rfl -
  apply Records.bind
  exact h.quiet (Quiet.postWriteEvent _ none) ht fun _ _ _ hu => Records.pure hu

theorem readDone {id : ℕ} {status : CompletionStatus} {t : Selector S δ} (hsel : inv sel hist)
    (ht : Delivers sel status (.read id) t)
    (hok : ok sel (.answer (.dispatch status (.read id)) ())) :
    Recorded ok inv P panics (Win.readDone id status) (fun _ => inv) (t.hold id) hist := by
  have hheld : ∀ {u : Selector S δ}, inv u hist → inv (u.hold id) hist :=
    fun hu => h.calm hu (.owners _ _)
  unfold Win.readDone
  apply Records.read_then
  split
  · rename_i haccept
    obtain ⟨hinv, hlive, hsocket⟩ := h.accepts hsel ht hok haccept
    exact h.acceptDone (hheld hinv) hlive hsocket
  rename_i haccept
  split
  · rename_i hended
    obtain ⟨hnone, hsome⟩ :=
      h.ends hsel ht hok haccept ((EventFlags.contains_ENDED _).mp hended)
    apply Records.bind
    refine (h._unregisterSocket (fun hmaps => hheld (hnone hmaps)) ?_).mono
      fun _ _ _ hu => Records.pure hu
    exact fun id' hid' => ⟨fun hend => h.calm ((hsome id' hid').1 hend) (.owners _ _),
      (hsome id' hid').2⟩
  rename_i hended
  obtain ⟨hinv, hlive, hroom⟩ :=
    h.reads hsel ht hok haccept (mt (EventFlags.contains_ENDED _).mpr hended)
  have hinv := hheld hinv
  split
  · exact h.dropEvent hinv
  split
  · rename_i hlen
    apply Records.bind
    exact Records.stop Empty.elim (fun hu => hu) ⟨fun _ => hroom hlen, h.result hinv⟩
  have hfilled := h.calm hinv
    (edit_calm id (f := (·.fill status.bytesTransferred)) fun _ => ⟨rfl, rfl, rfl⟩)
  apply Records.bind
  apply Records.modify
  apply Records.read_then
  apply Records.bind
  have hcalled : Recorded ok inv P panics
      (if (((t.hold id).edit id (·.fill status.bytesTransferred)).events
          id).buffer.hasReadBuffer then
        Win.readCb id else pure .OK)
      (fun _ => inv) ((t.hold id).edit id (·.fill status.bytesTransferred)) hist := by
    split
    · exact h.readCb hfilled hlive
    · exact Records.pure hfilled
  refine hcalled.mono fun ret u hist' hu => ?_
  exact h.after_cb hu (h.postAgain id _ _ hu fun _ => Quiet.postReadEvent)

/-! ## The loop and the calls -/

theorem dispatch {status : CompletionStatus} (hsel : inv sel hist) :
    Recorded ok inv P panics (Win.dispatch status) (fun _ => inv) sel hist := by
  unfold Win.dispatch
  cases status.overlapped with
  | none => exact Records.pure hsel
  | some o =>
      cases o with
      | read id =>
          apply Records.bind
          refine ask (fun hu => hu) rfl nofun (h.result hsel) fun _ t ht hok => ?_
          exact h.holding (h.readDone hsel ht hok)
      | write id =>
          apply Records.bind
          refine ask (fun hu => hu) rfl nofun (h.result hsel) fun _ t ht hok => ?_
          obtain ⟨hinv, hlive⟩ := h.writes hsel ht hok
          exact h.holding (h.writeDone (h.calm hinv (.owners _ _)) hlive)

theorem dispatchAll (statuses : List CompletionStatus) (hsel : inv sel hist) :
    Recorded ok inv P panics (Win.dispatchAll statuses) (fun _ => inv) sel hist := by
  induction statuses generalizing sel hist with
  | nil => exact Records.pure hsel
  | cons status statuses ih =>
      apply Records.bind
      exact (h.dispatch hsel).mono fun _ _ _ ht => ih ht

theorem doSelect (hsel : inv sel hist) :
    Recorded ok inv P panics Win.doSelect (fun _ => inv) sel hist := by
  unfold Win.doSelect
  apply Records.bind
  refine ask (fun hu => hu) rfl nofun (h.result hsel) ?_
  rintro (e | statuses) t rfl -
  · dsimp only
    split <;> exact Records.pure hsel
  · apply Records.bind
    exact (h.dispatchAll statuses hsel).mono fun _ _ _ ht => Records.pure ht

/-- The state and the history after the number is taken out of the map. -/
theorem registerSocket {buffer : EventBuffer S} {entry : EventEntry S δ}
    (hremoved : inv (sel.remove buffer.asRawSocket) hist) :
    Recorded ok inv P panics (Win.registerSocket buffer entry) (fun _ => inv) sel hist := by
  apply Records.bind
  refine (h.removeEvent hremoved).mono ?_
  rintro _ sel hist ⟨hnone, hsel⟩
  apply Records.bind
  refine ask (fun hu => hu) rfl nofun (h.result hsel) ?_
  rintro (e | _) t rfl -
  · apply Records.bind
    refine ask (fun hu => hu) rfl nofun (h.result hsel) ?_
    rintro _ t rfl -
    exact Records.pure hsel
  · have hinserted := h.insert buffer entry hsel hnone
    apply Records.bind
    apply Records.modify
    apply Records.bind
    refine h.quiet (Quiet.checkSocketEvent _) hinserted ?_
    rintro (e | _) u hcalm hu
    · have hmaps : u.eventMaps buffer.asRawSocket = some t.count :=
        (congrFun hcalm.maps _).trans (Selector.insert_maps ..)
      have hend : (u.events t.count).isEnd = false :=
        (hcalm.isEnd _).trans (congrArg Event.isEnd (t.insert_new buffer entry))
      apply Records.bind
      exact (h.removeEvent (h.forget hu hmaps hend)).mono fun _ _ _ hv => Records.pure hv.2
    · exact Records.pure hu

theorem modifySocket {isDel : Bool} {socket : S} {entry : EventEntry S δ}
    (hsel : inv sel hist) :
    Recorded ok inv P panics (Win.modifySocket isDel socket entry) (fun _ => inv) sel hist := by
  unfold Win.modifySocket
  apply Records.read_then
  cases sel.eventMaps socket with
  | none => exact Records.pure hsel
  | some id =>
      have hmerged : inv (sel.edit id (·.merge isDel entry)) hist := by
        refine h.calm hsel (edit_calm id fun event => ⟨rfl, rfl, ?_⟩)
        exact event.entry.merge_end entry isDel
      apply Records.bind
      apply Records.modify
      apply Records.bind
      refine h.quiet (Quiet.checkSocketEvent _) hmerged ?_
      rintro (e | _) t - ht
      · apply Records.bind
        refine (h.unregisterSocket ht).mono ?_
        rintro (e' | _) u hist' hu
        · exact Records.pure hu
        · exact Records.pure hu
      · exact Records.pure ht

/-- Every call keeps the invariant. -/
theorem recorder :
    Recorder inv (fun q _ hist => (q = .panic → panics) ∧ P hist) (winRuns ok)
      WinAsk.callsBack := by
  rintro op sel hist ⟨hmay, hok⟩ hsel
  cases op with
  | registerSocket buffer entry =>
      apply Records.bind
      exact (h.registerSocket (h.register hsel hok)).mono fun _ _ _ ht => Records.pure ht
  | modifySocket isDel socket entry =>
      have hcalled : inv sel (hist ++ [.called (.modifySocket isDel socket entry) sel]) :=
        h.called hsel fun _ _ => nofun
      apply Records.bind
      exact (h.modifySocket hcalled).mono fun _ _ _ ht => Records.pure ht
  | unregisterSocket socket =>
      have hcalled : inv sel (hist ++ [.called (.unregisterSocket socket) sel]) :=
        h.called hsel fun _ _ => nofun
      apply Records.bind
      exact (h.unregisterSocket hcalled).mono fun _ _ _ ht => Records.pure ht
  | sendSocket socket data =>
      have hcalled : inv sel (hist ++ [.called (.sendSocket socket data) sel]) :=
        h.called hsel fun _ _ => nofun
      apply Records.bind
      exact h.quiet (Quiet.postWriteEvent socket (some data)) hcalled
        fun _ _ _ ht => Records.pure ht
  | doSelect =>
      have hcalled : inv sel (hist ++ [.called .doSelect sel]) :=
        h.called hsel fun _ _ => nofun
      apply Records.bind
      exact (h.doSelect hcalled).mono fun _ _ _ ht => Records.pure ht
  | editBuffer id f =>
      have hcalled : inv sel (hist ++ [.called (.editBuffer id f) sel]) :=
        h.called hsel fun _ _ => nofun
      exact Records.modify (h.calm hcalled
        (edit_calm id fun event => ⟨hmay event.buffer, rfl, rfl⟩))

end Recordable

end TdRevent.Win
