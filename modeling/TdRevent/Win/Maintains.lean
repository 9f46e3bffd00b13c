import TdRevent.Win.Selector

/-!
# Invariants of the Windows selector

An invariant that every change of the state keeps holds in every run, at every
question that the selector puts. The functions of the selector are followed
here once, for any such invariant.

## Implementation notes

`room` says which operations the invariant allows to enqueue. A post that its
guards stop needs no room. `Clear` is what is left of it for a socket.
-/

namespace TdRevent.Win

open Interaction Discipline

variable {S δ α : Type}

/-- The address that the operation is posted on. -/
def Post.overlapped : Post → ℕ → Overlapped
  | .accept, id => .read id
  | .read, id => .read id
  | .write, id => .write id

/-- The guards of the post let the operation through. -/
def Event.posts (self : Event S δ) : Post → Prop
  | .accept => self.buffer.isInRead = false
  | .read => self.isEnd = false ∧ self.buffer.isInRead = false
  | .write => self.buffer.isInWrite = false ∧ self.buffer.write.val ≠ [] ∧ self.isEnd = false

namespace Selector

/-- A post for the socket finds room, or its guards stop it. -/
def Clear (sel : Selector S δ) (room : Port → Overlapped → Prop) (post : Post) (socket : S) :
    Prop :=
  ∀ id, sel.eventMaps socket = some id → (sel.events id).posts post →
    room sel.port (post.overlapped id)

/-- The posts of `checkSocketEvent` find room. -/
def Checked (sel : Selector S δ) (room : Port → Overlapped → Prop) (socket : S) : Prop :=
  ∀ id, sel.eventMaps socket = some id →
    if (sel.events id).isAccept then sel.Clear room .accept socket
    else (Flag.READ ∈ (sel.events id).entry.evEvents → sel.Clear room .read socket) ∧
      (Flag.WRITE ∈ (sel.events id).entry.evEvents → sel.Clear room .write socket)

theorem checked_of_clear {sel : Selector S δ} {room : Port → Overlapped → Prop} {socket : S}
    (h : ∀ post, sel.Clear room post socket) : sel.Checked room socket := by
  intro id _
  split
  · exact h .accept
  · exact ⟨fun _ => h .read, fun _ => h .write⟩

end Selector

variable [DecidableEq S]

/-- The selector in the runs whose moves meet a condition. -/
abbrev winRuns (ok : Selector S δ → Move (WinReply (S := S)) (WinCall S δ) → Prop) :
    System (Selector S δ) (WinReply (S := S)) (WinCall S δ) Unit :=
  (winSystem S δ).restrict ok

/-- The code keeps the invariant at its questions and ends with `Q`. -/
abbrev Kept (ok : Selector S δ → Move (WinReply (S := S)) (WinCall S δ) → Prop)
    (inv : Selector S δ → Prop) (c : WinCode S δ α) (Q : α → Selector S δ → Prop)
    (sel : Selector S δ) : Prop :=
  (always inv).Safe (winRuns ok) c Q sel

/-- The changes of the state that have to keep the invariant. -/
structure Maintains (ok : Selector S δ → Move (WinReply (S := S)) (WinCall S δ) → Prop)
    (inv : Selector S δ → Prop) (room : Port → Overlapped → Prop) : Prop where
  -- what happens to the events
  edit : ∀ {sel} id {f : Event S δ → Event S δ}, inv sel →
    (∀ event, (f event).buffer.write = event.buffer.write) → inv (sel.edit id f)
  editBuffer : ∀ {sel id f}, inv sel → ok sel (.call (.editBuffer id f)) →
    inv (sel.edit id (·.editBuffer f))
  append : ∀ {sel socket id} data, inv sel → sel.eventMaps socket = some id →
    inv ((sel.edit id (·.append data)).note (.sent id data))
  insert : ∀ {sel} buffer entry, inv sel → inv (sel.insert buffer entry)
  remove : ∀ {sel} socket, inv sel → inv (sel.remove socket)
  owners : ∀ {sel} owners, inv sel → inv { sel with owners := owners }
  -- what happens at the port
  port : ∀ {sel port}, inv sel → (∀ o, port.outstanding o ≤ sel.port.outstanding o) →
    inv { sel with port := port }
  enqueue : ∀ {sel socket id}, inv sel → sel.eventMaps socket = some id →
    room sel.port (.read id) → inv { sel with port := sel.port.enqueue (.read id) }
  takeFront : ∀ {sel socket id s n}, inv sel → sel.eventMaps socket = some id →
    room sel.port (.write id) → n ≤ (sel.events id).buffer.write.val.length →
    ok sel (.answer (.writeOverlapped s (sel.events id).buffer.write.val (.write id))
      (.ok (some n))) →
    inv (Selector.takeFront { sel with port := sel.port.enqueue (.write id) } id n)
  takeAll : ∀ {sel socket id s}, inv sel → sel.eventMaps socket = some id →
    room sel.port (.write id) →
    ok sel (.answer (.writeOverlapped s (sel.events id).buffer.write.val (.write id))
      (.ok none)) →
    inv (Selector.takeAll { sel with port := sel.port.enqueue (.write id) } id)
  -- when there is room
  room_of_ne : ∀ {port o o'}, o' ≠ o → room port o' → room (port.enqueue o) o'
  room_new : ∀ {sel o}, inv sel → sel.count ≤ o.id → room sel.port o
  modify : ∀ {sel isDel socket entry id}, ok sel (.call (.modifySocket isDel socket entry)) →
    sel.eventMaps socket = some id → (sel.edit id (·.merge isDel entry)).Checked room socket
  send : ∀ {sel socket data id}, ok sel (.call (.sendSocket socket data)) →
    sel.eventMaps socket = some id → (sel.edit id (·.append data)).Clear room .write socket
  again : ∀ {sel post socket}, ok sel (.answer (.again post socket) ()) →
    sel.Clear room post socket

variable {ok : Selector S δ → Move (WinReply (S := S)) (WinCall S δ) → Prop}
  {inv : Selector S δ → Prop} {room : Port → Overlapped → Prop} {sel : Selector S δ}

namespace Kept

/-- A question to the system. -/
theorem ask {q : WinAsk S} {Q : WinReply q → Selector S δ → Prop} (huser : ¬ q.user)
    (hsel : inv sel)
    (h : ∀ r t, WinAsk.answer q sel r t → ok sel (.answer q r) → Q r t) :
    Kept ok inv (.query q) Q sel :=
  Safe.ask huser hsel fun r t ⟨ht, hok⟩ => ⟨h r t ht hok, trivial⟩

/-- A question after whose answer the state is as before. -/
theorem same {q : WinAsk S} {Q : WinReply q → Selector S δ → Prop} (huser : ¬ q.user)
    (hsel : inv sel) (hsame : ∀ r t, WinAsk.answer q sel r t → t = sel)
    (h : ∀ r, ok sel (.answer q r) → Q r sel) : Kept ok inv (.query q) Q sel :=
  ask huser hsel fun r t ht hok => by
    obtain rfl := hsame r t ht
    exact h r hok

/-- A callback. -/
theorem call {q : WinAsk S} (huser : q.user) (hsel : inv sel)
    (hsame : ∀ (u : Selector S δ) r t, WinAsk.answer q u r t → t = u) :
    Kept ok inv (.query q) (fun _ => inv) sel :=
  Safe.call huser hsel hsel fun u r t hu _ ht => by
    obtain rfl := hsame u r t ht.1
    exact ⟨hu, trivial⟩

theorem modify {f : Selector S δ → Selector S δ} {Q : Unit → Selector S δ → Prop}
    (h : Q () (f sel)) : Kept ok inv (.modify f) Q sel := Safe.modify h trivial

end Kept

namespace Maintains

variable (h : Maintains ok inv room)

include h

/-! ## The owners -/

theorem freeUnowned {id : ℕ} (hsel : inv sel) :
    Kept ok inv (Win.freeUnowned id) (fun _ => inv) sel := by
  apply Safe.read_then
  refine Safe.when (fun _ => ?_) fun _ => hsel
  have hshut := h.owners (sel.owners.shut id) hsel
  exact Safe.bind (Kept.modify (Kept.same (fun hu => hu) hshut (fun _ _ ht => ht) fun _ _ => hshut))

theorem removeEvent {socket : S} (hsel : inv sel) :
    Kept ok inv (Win.removeEvent socket) (fun _ => inv) sel := by
  unfold Win.removeEvent
  apply Safe.read_then
  cases sel.eventMaps socket with
  | none => exact Safe.pure hsel
  | some id => exact Safe.bind (Kept.modify (h.freeUnowned (h.remove socket hsel)))

/-- A handler that keeps the invariant keeps it with its reference to the event. -/
theorem holding {id : ℕ} {handler : WinCode S δ Unit} (hsel : inv sel)
    (hhandler : ∀ sel, inv sel → Kept ok inv handler (fun _ => inv) sel) :
    Kept ok inv (Win.holding id handler) (fun _ => inv) sel := by
  refine Safe.bind (Kept.modify (Safe.bind ?_))
  apply (hhandler _ (h.owners (sel.owners.hold id) hsel)).mono
  exact fun _ t ht => Safe.bind (Kept.modify (h.freeUnowned (h.owners (t.owners.release id) ht)))

/-! ## The posts -/

theorem postAcceptEvent {socket : S} (hsel : inv sel) (hclear : sel.Clear room .accept socket) :
    Kept ok inv (Win.postAcceptEvent socket) (fun _ => inv) sel := by
  unfold Win.postAcceptEvent
  apply Safe.read_then
  cases hmaps : sel.eventMaps socket with
  | none => exact Safe.pure hsel
  | some id =>
      dsimp only
      split
      · exact Safe.pure hsel
      · rename_i hflag
        have hroom := hclear id hmaps (Bool.eq_false_of_not_eq_true hflag)
        apply Safe.bind
        refine Kept.same (fun hu => hu) hsel (fun _ _ ht => ht) fun ret _ => ?_
        cases ret with
        | error e => exact Safe.pure hsel
        | ok s =>
            have hset := h.edit id (f := (·.setAcceptSocket (some s))) hsel fun _ => rfl
            apply Safe.bind
            apply Kept.modify
            apply Safe.bind
            refine Kept.ask (fun hu => hu) hset ?_
            rintro (e | b) t ht -
            · obtain rfl := ht
              exact Safe.pure hset
            · obtain rfl := ht
              have hmaps' : (sel.edit id (·.setAcceptSocket (some s))).eventMaps socket =
                  some id := hmaps
              exact Safe.pure (h.enqueue hset hmaps' hroom)

theorem postReadEvent {socket : S} (hsel : inv sel) (hclear : sel.Clear room .read socket) :
    Kept ok inv (Win.postReadEvent socket)
      (fun _ t => inv t ∧ (sel.Clear room .write socket → t.Clear room .write socket)) sel := by
  unfold Win.postReadEvent
  apply Safe.read_then
  cases hmaps : sel.eventMaps socket with
  | none => exact Safe.pure ⟨hsel, id⟩
  | some id =>
      dsimp only
      split
      · exact Safe.pure ⟨hsel, fun hw => hw⟩
      · split
        · exact Safe.pure ⟨hsel, fun hw => hw⟩
        · rename_i hend hflag
          have hroom := hclear id hmaps
            ⟨Bool.eq_false_of_not_eq_true hend, Bool.eq_false_of_not_eq_true hflag⟩
          apply Safe.bind
          refine Kept.ask (fun hu => hu) hsel ?_
          rintro (e | n) t ht -
          · obtain rfl := ht
            exact Safe.pure ⟨hsel, fun hw => hw⟩
          · obtain rfl := ht
            refine Safe.pure ⟨h.enqueue hsel hmaps hroom, fun hw id' hmaps' hposts => ?_⟩
            have hne : Overlapped.write id' ≠ .read id := Overlapped.noConfusion
            exact h.room_of_ne hne (hw id' hmaps' hposts)

theorem writeOut {socket : S} {id : ℕ} (hsel : inv sel) (hmaps : sel.eventMaps socket = some id)
    (hclear : sel.Clear room .write socket) :
    Kept ok inv (Win.writeOut id) (fun _ => inv) sel := by
  unfold Win.writeOut
  apply Safe.read_then
  split
  · exact Safe.pure hsel
  · rename_i hguard
    obtain ⟨hflag, hdata, hend⟩ := by simpa only [not_or] using hguard
    have hval : (sel.events id).buffer.write.val ≠ [] :=
      fun hval => hdata ((Buffer.empty_iff _).mpr hval)
    have hroom := hclear id hmaps
      ⟨Bool.eq_false_of_not_eq_true hflag, hval, Bool.eq_false_of_not_eq_true hend⟩
    apply Safe.bind
    refine Kept.ask (fun hu => hu) hsel ?_
    rintro (e | r) t ht hok
    · obtain rfl := ht
      exact Safe.pure hsel
    · obtain ⟨rfl, hle⟩ := ht
      cases r with
      | none => exact Safe.bind (Kept.modify (Safe.pure (h.takeAll hsel hmaps hroom hok)))
      | some n =>
          have htaken := h.takeFront hsel hmaps hroom (hle n rfl) hok
          refine Safe.bind (Kept.modify (Safe.bind (Safe.read (Safe.bind (Safe.when ?_ ?_)))))
          · exact fun _ => Kept.modify (Safe.pure (h.edit id htaken fun _ => rfl))
          · exact fun _ => Safe.pure htaken

theorem postWriteEvent {socket : S} (hsel : inv sel) (hclear : sel.Clear room .write socket) :
    Kept ok inv (Win.postWriteEvent socket none) (fun _ => inv) sel := by
  unfold Win.postWriteEvent
  apply Safe.read_then
  cases hmaps : sel.eventMaps socket with
  | none => exact Safe.pure hsel
  | some id => exact Safe.bind (Safe.pure (h.writeOut hsel hmaps hclear))

theorem sendSocket {socket : S} {data : List UInt8} (hsel : inv sel)
    (hok : ok sel (.call (.sendSocket socket data))) :
    Kept ok inv (Win.sendSocket socket data) (fun _ => inv) sel := by
  unfold Win.sendSocket Win.postWriteEvent
  apply Safe.read_then
  cases hmaps : sel.eventMaps socket with
  | none => exact Safe.pure hsel
  | some id =>
      apply Safe.bind
      apply Safe.bind
      apply Kept.modify
      apply Kept.modify
      exact h.writeOut (h.append data hsel hmaps) hmaps (h.send hok hmaps)

theorem checkSocketEvent {socket : S} (hsel : inv sel) (hclear : sel.Checked room socket) :
    Kept ok inv (Win.checkSocketEvent socket) (fun _ => inv) sel := by
  unfold Win.checkSocketEvent
  apply Safe.read_then
  cases hmaps : sel.eventMaps socket with
  | none => exact Safe.pure hsel
  | some id =>
      have hposts := hclear id hmaps
      dsimp only
      split
      · rename_i haccept
        have haccept : (sel.events id).isAccept := haccept
        rw [if_pos haccept] at hposts
        exact h.postAcceptEvent hsel hposts
      · rename_i haccept
        have haccept : ¬ (sel.events id).isAccept := haccept
        rw [if_neg haccept] at hposts
        obtain ⟨hread, hwrite⟩ := hposts
        -- the read that is posted first takes no room from the write
        have hfirst : Kept ok inv
            (if (sel.events id).entry.evEvents.contains EventFlags.FLAG_READ then
              Win.postReadEvent socket else pure (.ok ()))
            (fun _ t => inv t ∧ (sel.Clear room .write socket → t.Clear room .write socket))
            sel := by
          split
          · rename_i hflag
            exact h.postReadEvent hsel (hread ((EventFlags.contains_READ _).mp hflag))
          · exact Safe.pure ⟨hsel, fun hw => hw⟩
        apply Safe.bind
        apply hfirst.mono
        rintro (e | _) t ⟨ht, hkeep⟩
        · exact Safe.pure ht
        · dsimp only
          split
          · rename_i hflag
            have hwrite' := hkeep (hwrite ((EventFlags.contains_WRITE _).mp hflag))
            exact Safe.bind ((h.postWriteEvent ht hwrite').mono fun _ _ hu => Safe.pure hu)
          · exact Safe.pure ht

/-! ## The calls -/

theorem addEvent {buffer : EventBuffer S} {entry : EventEntry S δ} (hsel : inv sel) :
    Kept ok inv (Win.addEvent buffer entry) (fun _ => inv) sel := by
  apply Safe.bind
  refine Kept.same (fun hu => hu) hsel (fun _ _ ht => ht) fun ret _ => ?_
  cases ret with
  | error e =>
      exact Safe.bind (Kept.same (fun hu => hu) hsel (fun _ _ ht => ht) fun _ _ => Safe.pure hsel)
  | ok _ =>
      have hinserted := h.insert buffer entry hsel
      have hclear : ∀ post, (sel.insert buffer entry).Clear room post buffer.asRawSocket := by
        intro post id hmaps _
        rw [Selector.insert_maps, Option.some.injEq] at hmaps
        subst hmaps
        -- the event is new, so no operation was posted on its addresses
        have hroom : room sel.port (post.overlapped sel.count) :=
          h.room_new hsel (by cases post <;> exact Nat.le_refl _)
        exact hroom
      refine Safe.bind (Kept.modify (Safe.bind
        ((h.checkSocketEvent hinserted (Selector.checked_of_clear hclear)).mono ?_)))
      rintro (e | _) t ht
      · exact Safe.bind ((h.removeEvent ht).mono fun _ _ hu => Safe.pure hu)
      · exact Safe.pure ht

theorem registerSocket {buffer : EventBuffer S} {entry : EventEntry S δ} (hsel : inv sel) :
    Kept ok inv (Win.registerSocket buffer entry) (fun _ => inv) sel :=
  Safe.bind ((h.removeEvent hsel).mono fun _ _ ht => h.addEvent ht)

theorem unregisterSocket {socket : S} (hsel : inv sel) :
    Kept ok inv (Win.unregisterSocket socket) (fun _ => inv) sel := by
  unfold Win.unregisterSocket
  apply Safe.read_then
  cases hmaps : sel.eventMaps socket with
  | none => exact Safe.pure hsel
  | some id =>
      dsimp only
      split
      · exact Safe.pure hsel
      · have hshut := h.owners (sel.owners.shut id) hsel
        refine Safe.bind (Kept.modify (Safe.bind ?_))
        refine Kept.same (fun hu => hu) hshut (fun _ _ ht => ht) fun _ _ => ?_
        have hended := h.edit id (f := Event.end_) hshut fun _ => rfl
        apply Safe.bind
        apply Kept.modify
        refine Kept.ask (fun hu => hu) hended ?_
        rintro (e | _) t ht -
        · obtain rfl := ht
          exact hended
        · obtain rfl := ht
          exact h.port hended fun _ => le_rfl

theorem dropEvent {id : ℕ} (hsel : inv sel) :
    Kept ok inv (Win.dropEvent id) (fun _ => inv) sel := by
  unfold Win.dropEvent
  apply Safe.read_then
  exact Safe.bind ((h.unregisterSocket hsel).mono fun _ _ ht => Safe.pure ht)

theorem modifySocket {isDel : Bool} {socket : S} {entry : EventEntry S δ} (hsel : inv sel)
    (hok : ok sel (.call (.modifySocket isDel socket entry))) :
    Kept ok inv (Win.modifySocket isDel socket entry) (fun _ => inv) sel := by
  unfold Win.modifySocket
  apply Safe.read_then
  cases hmaps : sel.eventMaps socket with
  | none => exact Safe.pure hsel
  | some id =>
      have hmerged := h.edit id (f := (·.merge isDel entry)) hsel fun _ => rfl
      refine Safe.bind (Kept.modify (Safe.bind
        ((h.checkSocketEvent hmerged (h.modify hok hmaps)).mono ?_)))
      rintro (e | _) t ht
      · apply Safe.bind
        apply (h.unregisterSocket ht).mono
        rintro (e' | _) u hu <;> exact Safe.pure hu
      · exact Safe.pure ht

theorem endCb {id : ℕ} (hsel : inv sel) :
    Kept ok inv (Win.endCb id) (fun _ => inv) sel := by
  unfold Win.endCb
  apply Safe.read_then
  cases (sel.events id).entry.end_ with
  | none => exact Safe.pure hsel
  | some cb =>
      have htaken := h.edit id (f := Event.takeData) hsel fun _ => rfl
      exact Safe.bind (Kept.modify (Kept.call trivial htaken fun _ _ _ ht => ht))

theorem _unregisterSocket {socket : S} (hsel : inv sel) :
    Kept ok inv (Win._unregisterSocket socket) (fun _ => inv) sel := by
  unfold Win._unregisterSocket
  apply Safe.read_then
  cases sel.eventMaps socket with
  | none => exact Safe.pure hsel
  | some id =>
      apply Safe.bind
      apply Kept.modify
      apply Safe.bind
      exact (h.holding (h.remove socket hsel) fun _ ht => h.endCb ht).mono fun _ _ ht =>
        Safe.pure ht

/-! ## The handlers -/

omit h in
theorem acceptCb {id : ℕ} {tcp : Except IoError S} (hsel : inv sel) :
    Kept ok inv (Win.acceptCb id tcp) (fun _ => inv) sel := by
  unfold Win.acceptCb
  apply Safe.read_then
  cases (sel.events id).entry.accept with
  | none => exact Safe.pure hsel
  | some cb => exact Kept.call trivial hsel fun _ _ _ ht => ht

omit h in
theorem readCb {id : ℕ} (hsel : inv sel) :
    Kept ok inv (Win.readCb id) (fun _ => inv) sel := by
  unfold Win.readCb
  apply Safe.read_then
  cases (sel.events id).entry.read with
  | none => exact Safe.pure hsel
  | some cb => exact Kept.call trivial hsel fun _ _ _ ht => ht

omit h in
theorem writeCb {id : ℕ} (hsel : inv sel) :
    Kept ok inv (Win.writeCb id) (fun _ => inv) sel := by
  unfold Win.writeCb
  apply Safe.read_then
  cases (sel.events id).entry.write with
  | none => exact Safe.pure hsel
  | some cb => exact Kept.call trivial hsel fun _ _ _ ht => ht

/-- The end of `readDone`, for both kinds of operations. -/
theorem postAgain (id : ℕ) (flags flag : EventFlags) {post : Post}
    {c : S → WinCode S δ (Except IoError Unit)} (hsel : inv sel)
    (hc : ∀ t socket, inv t → t.Clear room post socket → Kept ok inv (c socket) (fun _ => inv) t) :
    Kept ok inv (Win.postAgain id flags flag post c) (fun _ => inv) sel := by
  unfold Win.postAgain
  have hflags : ∀ event : Event S δ,
      (event.unlessPersist flags).buffer.write = event.buffer.write := by
    intro event
    unfold Event.unlessPersist
    split <;> rfl
  have hgiven := h.edit id (f := (·.unlessPersist flags)) hsel hflags
  refine Safe.bind (Kept.modify (Safe.bind (Safe.read (Safe.when (fun _ => ?_) fun _ => hgiven))))
  apply Safe.bind
  refine Kept.same (fun hu => hu) hgiven (fun _ _ ht => ht) fun _ hok => ?_
  apply Safe.bind
  apply (hc _ _ hgiven (h.again hok)).mono
  rintro (e | _) t ht
  · exact Safe.bind (Kept.modify (h.dropEvent (h.edit id ht fun _ => rfl)))
  · exact Kept.modify (h.edit id ht fun _ => rfl)

theorem acceptDone {id : ℕ} (hsel : inv sel) :
    Kept ok inv (Win.acceptDone id) (fun _ => inv) sel := by
  unfold Win.acceptDone
  apply Safe.read_then
  cases (sel.events id).acceptSocket with
  | none => exact Safe.bind (Safe.stop Empty.elim (fun hu => hu) hsel)
  | some socket =>
      have htaken := h.edit id (f := (·.setAcceptSocket none)) hsel fun _ => rfl
      apply Safe.bind
      apply Kept.modify
      apply Safe.bind
      refine Kept.same (fun hu => hu) htaken (fun _ _ ht => ht) fun result _ => ?_
      have hdone := h.edit id (f := (·.setInRead false)) htaken fun _ => rfl
      apply Safe.bind
      apply Kept.modify
      apply Safe.bind
      apply (acceptCb hdone).mono
      intro ret t ht
      have hagain := h.postAgain id (EventFlags.FLAG_READ ∪ EventFlags.FLAG_ACCEPT)
        EventFlags.FLAG_ACCEPT ht fun _ _ hu hclear => h.postAcceptEvent hu hclear
      cases ret with
      | OVER => exact h.dropEvent ht
      | OK => exact hagain
      | CONTINUE => exact hagain

theorem readDone {id : ℕ} {status : CompletionStatus} (hsel : inv sel) :
    Kept ok inv (Win.readDone id status) (fun _ => inv) sel := by
  unfold Win.readDone
  apply Safe.read_then
  split
  · exact h.acceptDone hsel
  split
  · exact Safe.bind ((h._unregisterSocket hsel).mono fun _ _ ht => Safe.pure ht)
  split
  · exact h.dropEvent hsel
  split
  · exact Safe.bind (Safe.stop Empty.elim (fun hu => hu) hsel)
  have hfilled := h.edit id (f := (·.fill status.bytesTransferred)) hsel fun _ => rfl
  apply Safe.bind
  apply Kept.modify
  apply Safe.read_then
  apply Safe.bind
  have hcalled : Kept ok inv
      (if ((sel.edit id (·.fill status.bytesTransferred)).events id).buffer.hasReadBuffer then
        Win.readCb id else pure .OK)
      (fun _ => inv) (sel.edit id (·.fill status.bytesTransferred)) := by
    split
    · exact readCb hfilled
    · exact Safe.pure hfilled
  apply hcalled.mono
  intro ret t ht
  have hagain := h.postAgain id EventFlags.FLAG_READ EventFlags.FLAG_READ ht
    fun _ _ hu hclear => (h.postReadEvent hu hclear).mono fun _ _ hv => hv.1
  cases ret with
  | OVER => exact h.dropEvent ht
  | OK => exact hagain
  | CONTINUE => exact hagain

theorem writeDone {id : ℕ} (hsel : inv sel) :
    Kept ok inv (Win.writeDone id) (fun _ => inv) sel := by
  unfold Win.writeDone
  have hdone := h.edit id (f := (·.setInWrite false)) hsel fun _ => rfl
  apply Safe.bind
  apply Kept.modify
  apply Safe.bind
  apply (writeCb hdone).mono
  intro ret t ht
  have hagain : Kept ok inv (do
      let sel ← .read
      .when (¬ (sel.events id).buffer.write.empty) do
        .query (WinAsk.again .write (sel.events id).asRawSocket)
        let _ ← Win.postWriteEvent (sel.events id).asRawSocket none) (fun _ => inv) t := by
    refine Safe.bind (Safe.read (Safe.when (fun _ => ?_) fun _ => ht))
    apply Safe.bind
    refine Kept.same (fun hu => hu) ht (fun _ _ hu => hu) fun _ hok => ?_
    exact Safe.bind ((h.postWriteEvent ht (h.again hok)).mono fun _ _ hu => Safe.pure hu)
  cases ret with
  | OVER => exact h.dropEvent ht
  | OK => exact hagain
  | CONTINUE => exact hagain

/-! ## The loop -/

/-- A delivered packet takes an operation or a posted packet off the port. -/
theorem delivers {status : CompletionStatus} {o : Overlapped} {t : Selector S δ}
    (hsel : inv sel) (ht : Delivers sel status o t) : inv t := by
  cases ht with
  | read => exact h.port (h.edit _ hsel fun _ => rfl) (sel.port.complete_le _)
  | write => exact h.port hsel (sel.port.complete_le _)
  | posted => exact h.port hsel fun _ => Nat.le_refl _

theorem dispatch {status : CompletionStatus} (hsel : inv sel) :
    Kept ok inv (Win.dispatch status) (fun _ => inv) sel := by
  unfold Win.dispatch
  cases status.overlapped with
  | none => exact Safe.pure hsel
  | some o =>
      cases o with
      | read id =>
          exact Safe.bind (Kept.ask (fun hu => hu) hsel fun _ _ ht _ =>
            h.holding (h.delivers hsel ht) fun _ hu => h.readDone hu)
      | write id =>
          exact Safe.bind (Kept.ask (fun hu => hu) hsel fun _ _ ht _ =>
            h.holding (h.delivers hsel ht) fun _ hu => h.writeDone hu)

theorem dispatchAll (statuses : List CompletionStatus) (hsel : inv sel) :
    Kept ok inv (Win.dispatchAll statuses) (fun _ => inv) sel := by
  induction statuses generalizing sel with
  | nil => exact Safe.pure hsel
  | cons status statuses ih => exact Safe.bind ((h.dispatch hsel).mono fun _ _ ht => ih ht)

theorem doSelect (hsel : inv sel) : Kept ok inv Win.doSelect (fun _ => inv) sel := by
  unfold Win.doSelect
  apply Safe.bind
  refine Kept.same (fun hu => hu) hsel (fun _ _ ht => ht) fun ret _ => ?_
  cases ret with
  | ok statuses =>
      exact Safe.bind ((h.dispatchAll statuses hsel).mono fun _ _ ht => Safe.pure ht)
  | error e =>
      dsimp only
      split <;> exact Safe.pure hsel

/-- The invariant holds whenever the selector puts a question or has returned. -/
theorem keeps : (always inv).Keeps (winRuns ok) := by
  apply keeps_of_safe
  intro op sel hmay hsel
  obtain ⟨-, hok⟩ := hmay
  cases op with
  | registerSocket buffer entry =>
      exact Safe.bind ((h.registerSocket hsel).mono fun _ _ ht => Safe.pure ht)
  | modifySocket isDel socket entry =>
      exact Safe.bind ((h.modifySocket hsel hok).mono fun _ _ ht => Safe.pure ht)
  | unregisterSocket socket =>
      exact Safe.bind ((h.unregisterSocket hsel).mono fun _ _ ht => Safe.pure ht)
  | sendSocket socket data =>
      exact Safe.bind ((h.sendSocket hsel hok).mono fun _ _ ht => Safe.pure ht)
  | doSelect => exact Safe.bind ((h.doSelect hsel).mono fun _ _ ht => Safe.pure ht)
  | editBuffer id f => exact Kept.modify (h.editBuffer hsel hok)

end Maintains

end TdRevent.Win
