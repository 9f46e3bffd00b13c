import TdRevent.Unix.Dispatch
import TdRevent.Interaction.History

/-!
# The end of an event

The end callback of an event is started only by `unregisterSocket`, which takes
the event out of the map first. The callbacks of an event are started only by a
handler that finds it in the map. An event that left the map does not come back.

## Implementation notes

The history of a run holds the callbacks in the order in which they start.
-/

namespace TdRevent.Unix

open Interaction Discipline

variable {S δ E K Sys H α : Type} {R : Sys → Type}

/-- The callbacks are recorded. -/
def SockAsk.callsBack : SockAsk S Sys → Bool
  | .acceptCb _ _ => true
  | .readCb _ => true
  | .endCb _ _ => true
  | _ => false

theorem SockAsk.Silent.unrecorded {q : SockAsk S Sys} (hq : q.Silent) :
    q.callsBack = false := by
  cases q with
  | close => rfl
  | sys => rfl
  | _ => exact hq.elim

/-- What happens in a run. -/
abbrev SockHistory (S δ E K Sys : Type) :=
  History (Selector S δ E K) (SockAsk S Sys) (SockCall S δ)

/-- The event whose callback starts. -/
def starts : Mark (Selector S δ E K) (SockAsk S Sys) (SockCall S δ) → Option ℕ
  | .asked (.acceptCb id _) _ => some id
  | .asked (.readCb id) _ => some id
  | .asked (.endCb id _) _ => some id
  | _ => none

/-- The event whose end callback starts. -/
def ends : Mark (Selector S δ E K) (SockAsk S Sys) (SockCall S δ) → Option ℕ
  | .asked (.endCb id _) _ => some id
  | _ => none

/-- No callback of an event starts after its end callback, and the end callback
does not start again. -/
def EndsLast (hist : SockHistory S δ E K Sys) : Prop := History.EndsLast starts ends hist

/-- The invariant: an event that ended has left the map. -/
structure Endings (sel : Selector S δ E K) (hist : SockHistory S δ E K Sys) : Prop where
  keyed : sel.Keyed
  known : ∀ {id}, hist.Names ends id → id < sel.count
  gone : ∀ {id}, hist.Names ends id → ∀ socket, sel.eventMaps socket ≠ some id
  last : EndsLast hist

variable {sel t : Selector S δ E K} {hist : SockHistory S δ E K Sys} {id : ℕ}
  {f : Event S δ → Event S δ}

namespace Endings

theorem unended (h : Endings sel hist) {socket : S} (hmaps : sel.eventMaps socket = some id) :
    ¬ hist.Names ends id := fun hended => h.gone hended socket hmaps

/-- A change after which no event is in the map that was not there, except for new ones. -/
theorem move (h : Endings sel hist) (hkeyed : t.Keyed) (hcount : sel.count ≤ t.count)
    (hmaps : ∀ socket id, t.eventMaps socket = some id →
      sel.eventMaps socket = some id ∨ sel.count ≤ id) : Endings t hist where
  keyed := hkeyed
  known hended := (h.known hended).trans_le hcount
  gone hended socket hsocket := by
    rcases hmaps socket _ hsocket with hold | hnew
    · exact h.gone hended socket hold
    · exact absurd (h.known hended) hnew.not_gt
  last := h.last

theorem edit (h : Endings sel hist) (id : ℕ)
    (hf : ∀ event, (f event).asRawSocket = event.asRawSocket) :
    Endings (sel.edit id f) hist :=
  h.move (h.keyed.edit id hf) le_rfl fun _ _ => Or.inl

theorem note (h : Endings sel hist) (e : SockEvent S) : Endings (sel.note e) hist :=
  h.move ⟨h.keyed.sockets, h.keyed.ids⟩ le_rfl fun _ _ => Or.inl

theorem told {keep : E → H} (h : Endings sel hist) (ht : Told keep sel t) : Endings t hist := by
  obtain ⟨owners, evts, kernel, -, rfl⟩ := ht
  exact h.move ⟨h.keyed.sockets, h.keyed.ids⟩ le_rfl fun _ _ => Or.inl

theorem owners (h : Endings sel hist) (owners : Owners) :
    Endings { sel with owners := owners } hist :=
  h.move ⟨h.keyed.sockets, h.keyed.ids⟩ le_rfl fun _ _ => Or.inl

theorem kernel (h : Endings sel hist) (k : K) : Endings { sel with kernel := k } hist :=
  h.move ⟨h.keyed.sockets, h.keyed.ids⟩ le_rfl fun _ _ => Or.inl

theorem evts (h : Endings sel hist) (evts : E) : Endings { sel with evts := evts } hist :=
  h.move ⟨h.keyed.sockets, h.keyed.ids⟩ le_rfl fun _ _ => Or.inl

/-- The history grows by the callback of an event that did not end. If it is the
end callback, the event has left the map. -/
theorem snoc (h : Endings sel hist)
    {m : Mark (Selector S δ E K) (SockAsk S Sys) (SockCall S δ)}
    (hstarts : ∀ id, starts m = some id → ¬ hist.Names ends id)
    (hends : ∀ id, ends m = some id →
      id < sel.count ∧ ∀ socket, sel.eventMaps socket ≠ some id) :
    Endings sel (hist ++ [m]) where
  keyed := h.keyed
  known hended := (History.names_snoc.mp hended).elim h.known fun hm => (hends _ hm).1
  gone hended := (History.names_snoc.mp hended).elim h.gone fun hm => (hends _ hm).2
  last := h.last.snoc hstarts

theorem called (h : Endings sel hist) (op : SockCall S δ) :
    Endings sel (hist ++ [.called op sel]) := h.snoc nofun nofun

theorem new [Zero S] (evts : E) (kernel : K) :
    Endings (.new evts kernel : Selector S δ E K) ([] : SockHistory S δ E K Sys) where
  keyed := ⟨nofun, nofun⟩
  known h := absurd h History.not_names_nil
  gone h := absurd h History.not_names_nil
  last := History.endsLast_nil

variable [DecidableEq S]

theorem remove (h : Endings sel hist) (socket : S) : Endings (sel.remove socket) hist :=
  h.move (h.keyed.remove socket) le_rfl fun _ _ hs => Or.inl (Selector.Keyed.remove_some hs).2

theorem insert (h : Endings sel hist) (buffer : EventBuffer S) (entry : EventEntry S δ) :
    Endings (sel.insert buffer entry) hist := by
  refine h.move (h.keyed.insert buffer entry) (Nat.le_succ _) fun socket id hs => ?_
  by_cases hsocket : socket = buffer.asRawSocket
  · rw [hsocket, sel.insert_maps, Option.some.injEq] at hs
    exact Or.inr hs.le
  · rw [sel.insert_maps_of_ne buffer entry hsocket] at hs
    exact Or.inl hs

end Endings

/-! ## The functions of a selector -/

section

variable [DecidableEq S] {B : Backend S δ E K R} {os : Os S K R}
  {select : SockCode S δ E K R Unit} {keep : E → H}

/-- The code keeps the invariant when the callbacks are recorded. -/
abbrev KeepsEndings (B : Backend S δ E K R) (os : Os S K R) (select : SockCode S δ E K R Unit)
    (c : SockCode S δ E K R α) (Q : α → Selector S δ E K → SockHistory S δ E K Sys → Prop)
    (sel : Selector S δ E K) (hist : SockHistory S δ E K Sys) : Prop :=
  Records Endings (fun _ _ => EndsLast) (unixSystem B os select) SockAsk.callsBack c Q sel hist

theorem Local.endings {A : Selector S δ E K → Selector S δ E K → Prop}
    {Q : α → Selector S δ E K → Selector S δ E K → Prop} {c : SockCode S δ E K R α}
    (hc : Local os A Q c) (h : Endings sel hist) (hQ : ∀ a t, Q a sel t → Endings t hist) :
    KeepsEndings B os select c (fun _ => Endings) sel hist := by
  refine (Records.silent (hc.wp _ (fun _ _ _ _ _ ht => ht) sel fun q t hq _ => ?_)).mono ?_
  · exact ⟨hq.not_user, hq.unrecorded, h.last⟩
  · rintro a t _ ⟨ht, rfl⟩
    exact hQ a t ht

theorem endCb_endings {socket : S} (h : Endings sel hist) (hnew : ¬ hist.Names ends id)
    (hknown : id < sel.count) (hgone : ∀ socket, sel.eventMaps socket ≠ some id) :
    KeepsEndings B os select (endCb id socket) (fun _ => Endings) sel hist := by
  unfold endCb
  apply Records.read_then
  cases (sel.events id).entry.end_ with
  | none => exact Records.pure h
  | some cb =>
      have htaken := h.edit id (f := Event.takeData) fun _ => rfl
      have hended : Endings (sel.edit id Event.takeData)
          (hist ++ [.asked (.endCb id socket) (sel.edit id Event.takeData)]) := by
        apply htaken.snoc
        · rintro _ ⟨⟩
          exact hnew
        · rintro _ ⟨⟩
          exact ⟨hknown, hgone⟩
      apply Records.bind
      apply Records.modify
      apply Records.call trivial rfl hended.last hended
      rintro u hist' _ _ hu rfl
      exact hu

variable (hB : B.IsLocal os keep)

include hB

theorem unregisterSocket_endings {socket : S} (h : Endings sel hist) :
    KeepsEndings B os select (unregisterSocket B socket) (fun _ => Endings) sel hist := by
  have hderegister : ∀ {t : Selector S δ E K} {hist' : SockHistory S δ E K Sys},
      Endings t hist' → KeepsEndings B os select (B.deregister socket EventFlags.all)
        (fun _ => Endings) t hist' :=
    fun ht => (hB.deregister ..).endings ht fun _ _ => ht.told
  unfold unregisterSocket
  apply Records.read_then
  cases hmaps : sel.eventMaps socket with
  | none => exact hderegister h
  | some id =>
      have hremoved := (h.remove socket).owners (sel.owners.shut id)
      apply Records.bind
      apply Records.modify
      apply Records.bind
      refine Records.ask (fun hu => hu) rfl hremoved.last ?_
      rintro _ _ ⟨k, -, rfl⟩
      have hgone : ∀ s, (sel.remove socket).eventMaps s ≠ some id := by
        intro s hs
        obtain ⟨hne, hs⟩ := Selector.Keyed.remove_some hs
        exact hne (h.keyed.inj hs hmaps)
      apply Records.bind
      exact (endCb_endings (hremoved.kernel k) (h.unended hmaps) (h.keyed.ids hmaps) hgone).mono
        fun _ _ _ => hderegister

theorem dropEvent_endings (h : Endings sel hist) :
    KeepsEndings B os select (dropEvent B id) (fun _ => Endings) sel hist := by
  unfold dropEvent
  apply Records.read_then
  apply Records.bind
  exact (unregisterSocket_endings hB h).mono fun _ _ _ ht => Records.pure ht

theorem endIfOver_endings {ret : RetValue} (h : Endings sel hist) :
    KeepsEndings B os select (endIfOver B id ret) (fun _ => Endings) sel hist := by
  cases ret with
  | OVER => exact dropEvent_endings hB h
  | OK => exact Records.pure h
  | CONTINUE => exact Records.pure h

omit hB in
theorem acceptCb_endings {tcp : Except IoError S} (h : Endings sel hist)
    (hnew : ¬ hist.Names ends id) :
    KeepsEndings B os select (acceptCb id tcp) (fun _ => Endings) sel hist := by
  unfold acceptCb
  apply Records.read_then
  cases (sel.events id).entry.accept with
  | none => exact Records.pure h
  | some cb =>
      have hstarted : Endings sel (hist ++ [.asked (.acceptCb id tcp) sel]) := by
        refine h.snoc ?_ nofun
        rintro _ ⟨⟩
        exact hnew
      apply Records.call trivial rfl hstarted.last hstarted
      rintro u hist' _ _ hu rfl
      exact hu

omit hB in
theorem readCb_endings (h : Endings sel hist) (hnew : ¬ hist.Names ends id) :
    KeepsEndings B os select (readCb id) (fun _ => Endings) sel hist := by
  unfold readCb
  apply Records.read_then
  cases (sel.events id).entry.read with
  | none => exact Records.pure h
  | some cb =>
      have hstarted : Endings sel (hist ++ [.asked (.readCb id) sel]) := by
        refine h.snoc ?_ nofun
        rintro _ ⟨⟩
        exact hnew
      apply Records.call trivial rfl hstarted.last hstarted
      rintro u hist' _ _ hu rfl
      exact hu

theorem readEvent_endings (h : Endings sel hist) (hnew : ¬ hist.Names ends id) :
    KeepsEndings B os select (readEvent B id) (fun _ => Endings) sel hist := by
  unfold readEvent
  apply Records.read_then
  split
  · apply Records.bind
    refine Records.ask (fun hu => hu) rfl h.last fun tcp t hanswer => ?_
    have ht : Endings t hist := by
      cases tcp with
      | ok s =>
          obtain ⟨k, -, rfl⟩ := hanswer
          exact h.kernel k
      | error e =>
          obtain rfl := hanswer
          exact h
    apply Records.bind
    exact (acceptCb_endings ht hnew).mono fun _ _ _ hu => endIfOver_endings hB hu
  · apply Records.bind
    refine Records.ask (fun hu => hu) rfl h.last ?_
    rintro ret _ ⟨rfl, -⟩
    cases ret with
    | error e =>
        apply Records.bind
        apply Records.modify
        exact dropEvent_endings hB (h.edit _ fun _ => rfl)
    | ok bytes =>
        dsimp only
        split
        · exact dropEvent_endings hB h
        · have hfilled := h.edit id (f := (·.fill bytes)) fun _ => rfl
          apply Records.bind
          apply Records.modify
          apply Records.read_then
          split
          · apply Records.bind
            exact (readCb_endings hfilled hnew).mono
              fun _ _ _ hu => endIfOver_endings hB hu
          · exact Records.pure hfilled

theorem writeOver_endings (h : Endings sel hist) :
    KeepsEndings B os select (writeOver B id) (fun _ => Endings) sel hist :=
  (hB.writeOver id).endings h fun _ _ ht => (h.edit id (f := Event.disarm) fun _ => rfl).told ht

theorem writeEvent_endings (h : Endings sel hist) :
    KeepsEndings B os select (writeEvent B id) (fun _ => Endings) sel hist := by
  unfold writeEvent
  apply Records.read_then
  split
  · exact writeOver_endings hB h
  · apply Records.bind
    refine Records.ask (fun hu => hu) rfl h.last ?_
    rintro ret sel ⟨rfl, -⟩
    cases ret with
    | error e =>
        apply Records.bind
        apply Records.modify
        exact dropEvent_endings hB (h.edit _ fun _ => rfl)
    | ok len =>
        dsimp only
        split
        · exact dropEvent_endings hB h
        · have hdrained := (h.edit id (f := (·.drain len)) fun _ => rfl).note
            (.accepted id ((sel.events id).buffer.write.getData.take len))
          apply Records.bind
          apply Records.modify
          apply Records.bind
          apply Records.modify
          apply Records.read_then
          split
          · exact writeOver_endings hB hdrained
          · exact Records.pure hdrained

omit hB in
/-- A handler keeps the invariant while it holds its event, and its end does. -/
theorem holding_endings {handler : SockCode S δ E K R Unit} (h : Endings sel hist)
    (hhandler : Endings (sel.hold id) hist →
      KeepsEndings B os select handler (fun _ => Endings) (sel.hold id) hist) :
    KeepsEndings B os select (holding id handler) (fun _ => Endings) sel hist := by
  apply Records.bind
  apply Records.modify
  apply Records.bind
  refine (hhandler (h.owners _)).mono fun _ t hist' ht => ?_
  exact (Local.letGo (h := fun _ => ()) id).endings ht fun _ _ => ht.told

theorem readDone_endings {socket : S} (h : Endings sel hist) :
    KeepsEndings B os select (readDone B socket) (fun _ => Endings) sel hist := by
  unfold readDone
  apply Records.read_then
  cases hmaps : sel.eventMaps socket with
  | none => exact Records.pure h
  | some id => exact holding_endings h fun hheld => readEvent_endings hB hheld (h.unended hmaps)

theorem writeDone_endings {socket : S} (h : Endings sel hist) :
    KeepsEndings B os select (writeDone B socket) (fun _ => Endings) sel hist := by
  unfold writeDone
  apply Records.read_then
  cases sel.eventMaps socket with
  | none => exact Records.pure h
  | some id => exact holding_endings h fun hheld => writeEvent_endings hB hheld

theorem registerSocket_endings {buffer : EventBuffer S} {entry : EventEntry S δ}
    (h : Endings sel hist) :
    KeepsEndings B os select (registerSocket B buffer entry) (fun _ => Endings) sel hist := by
  refine (hB.registerSocket buffer entry).endings h ?_
  have hinserted := h.insert buffer entry
  rintro _ t ⟨u, hu, rfl | ht⟩
  · exact hinserted.told hu
  · exact ((hinserted.told hu).remove _).told ht

theorem modifySocket_endings {isDel : Bool} {socket : S} {entry : EventEntry S δ}
    (h : Endings sel hist) :
    KeepsEndings B os select (modifySocket B isDel socket entry) (fun _ => Endings) sel
      hist := by
  unfold modifySocket
  apply Records.read_then
  cases sel.eventMaps socket with
  | none => exact Records.pure h
  | some id =>
      apply Records.bind
      have hmerged := h.edit id (f := (·.merge isDel entry)) fun _ => rfl
      refine ((hB.changeEvent id isDel socket entry).endings h fun _ _ ht =>
        hmerged.told ht).mono ?_
      rintro (e | _) t hist' ht
      · apply Records.bind
        refine (unregisterSocket_endings hB ht).mono ?_
        rintro (e' | _) u hist'' hu
        · exact Records.pure hu
        · exact Records.pure hu
      · exact Records.pure ht

theorem sendSocket_endings {socket : S} {data : List UInt8} (h : Endings sel hist) :
    KeepsEndings B os select (sendSocket B socket data) (fun _ => Endings) sel hist := by
  refine (hB.sendSocket socket data).endings h ?_
  rintro _ t (⟨rfl, -⟩ | ⟨id, -, ⟨rfl, -⟩ | ⟨ht, -⟩⟩)
  · exact h
  · exact (h.edit id (f := (·.append data)) fun _ => rfl).note _
  · have hsent := (h.edit id (f := (·.append data)) fun _ => rfl).note (.sent id data)
    exact (hsent.edit id (f := Event.arm) fun _ => rfl).told ht

/-- Every call keeps the invariant if the loop of `doSelect` does. -/
theorem endings_recorder
    (hselect : ∀ (sel : Selector S δ E K) hist, Endings sel hist →
      KeepsEndings B os select select (fun _ => Endings) sel hist) :
    Recorder Endings (fun _ _ => EndsLast) (unixSystem B os select) SockAsk.callsBack := by
  intro op sel hist hmay hsel
  have h := hsel.called op
  cases op with
  | openSocket =>
      apply Records.bind
      refine Records.ask (fun hu => hu) rfl h.last ?_
      rintro s _ ⟨k, -, rfl⟩
      exact Records.pure (h.kernel k)
  | registerSocket buffer entry =>
      exact Records.bind ((registerSocket_endings hB h).mono fun _ _ _ ht => Records.pure ht)
  | modifySocket isDel socket entry =>
      exact Records.bind ((modifySocket_endings hB h).mono fun _ _ _ ht => Records.pure ht)
  | unregisterSocket socket =>
      exact Records.bind ((unregisterSocket_endings hB h).mono fun _ _ _ ht => Records.pure ht)
  | sendSocket socket data =>
      exact Records.bind ((sendSocket_endings hB h).mono fun _ _ _ ht => Records.pure ht)
  | readDone socket => exact readDone_endings hB h
  | writeDone socket => exact writeDone_endings hB h
  | doSelect => exact hselect _ _ h
  | editBuffer id f => exact Records.modify (h.edit id fun event => hmay event.buffer)

end

/-! ## The main result -/

namespace Epoll

variable {δ : Type} {os : Os SOCKET Interest EpollReply}
  {sel : Selector SOCKET δ (List EpollEvent) Interest}
  {hist : SockHistory SOCKET δ (List EpollEvent) Interest EpollCall}

theorem dispatch_endings (left i : ℕ) (h : Endings sel hist) :
    KeepsEndings epoll os doSelect (dispatch left i) (fun _ => Endings) sel hist := by
  have hB := epoll_isLocal (δ := δ) os fun _ => ()
  induction left generalizing sel i hist with
  | zero => exact Records.pure h
  | succ left ih =>
      unfold dispatch
      apply Records.read_then
      cases sel.evts[i]? with
      | none => exact Records.stop Empty.elim (fun hu => hu) h.last
      | some value =>
          apply Records.bind
          apply (Records.when (fun _ => readDone_endings hB h) fun _ => h).mono
          intro _ t hist' ht
          apply Records.bind
          apply (Records.when (fun _ => writeDone_endings hB ht) fun _ => ht).mono
          exact fun _ u hist'' hu => ih (i + 1) hu

theorem doSelect_endings (h : Endings sel hist) :
    KeepsEndings epoll os doSelect doSelect (fun _ => Endings) sel hist := by
  unfold doSelect
  apply Records.bind
  refine Records.ask (fun hu => hu) rfl h.last ?_
  rintro r _ ⟨k, -, rfl⟩
  cases r with
  | error e => exact Records.pure (h.kernel k)
  | ok events =>
      apply Records.bind
      apply Records.modify
      exact dispatch_endings _ 0 ((h.kernel k).evts events)

/-- In every run of the epoll selector the end callback of an event starts at most
once, and no callback of the event starts after it. -/
theorem ends_last (os : Os SOCKET Interest EpollReply) (evts : List EpollEvent)
    (kernel : Interest) :
    (∀ c, (unixSystem (δ := δ) epoll os doSelect).Reaches (.new evts kernel) c →
      ∃ hist, (unixSystem epoll os doSelect).Recorded SockAsk.callsBack (.new evts kernel)
        hist c) ∧
    ∀ hist c, (unixSystem (δ := δ) epoll os doSelect).Recorded SockAsk.callsBack
      (.new evts kernel) hist c → EndsLast hist := by
  refine ⟨fun c hreach => hreach.recorded, fun hist c hrec => ?_⟩
  have hrecorder : Recorder Endings (fun _ _ => EndsLast) (unixSystem (δ := δ) epoll os doSelect)
      SockAsk.callsBack :=
    endings_recorder (epoll_isLocal os fun _ => ()) fun _ _ h => doSelect_endings h
  exact hrecorder.always (fun _ _ h => h.last) (fun _ _ _ h => h) hrec
    (.new evts kernel)

/-- Socket 3 is registered and unregistered, and its end callback has started. -/
theorem ends_last_once :
    ∃ hist c, (epollSystem Unit).Recorded SockAsk.callsBack (.new [] fun _ => none) hist c ∧
      hist.filterMap ends = [0] ∧ EndsLast hist := by
  have start : (epollSystem Unit).Recorded SockAsk.callsBack (.new [] fun _ => none) [] _ :=
    .refl _
  have registered := (start.call (.registerSocket (.new 3 0) (.newEvent 3 EventFlags.FLAG_READ
    none none (some 1) none)) trivial trivial).answer (.ok ()) ⟨_, epollOs_ok (by decide), rfl⟩
  have ended := (registered.call (.unregisterSocket 3) trivial trivial).answer () ⟨_, rfl, rfl⟩
  exact ⟨_, _, ended, rfl, (ends_last epollOs [] fun _ => none).2 _ _ ended⟩

end Epoll

end TdRevent.Unix
