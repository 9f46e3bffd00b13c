import TdRevent.Win.Calm

/-!
# The lifetime of the events of the Windows selector

A completion carries the address of a field of its event, and its handler reads
the event there. The selector counts no reference for an operation that it posts,
so the event lives as long as the map holds it. An event leaves the map when its
socket is registered again, when its own registration fails, and when its end
marker is dispatched.
-/

namespace TdRevent.Win

open Interaction Discipline

variable {S δ α : Type}

/-- An operation or a posted packet carries the address. -/
def Port.Busy (port : Port) (o : Overlapped) : Prop :=
  port.outstanding o ≠ 0 ∨ port.posted o ≠ 0

/-- Neither address of the event is carried. -/
def Port.Unused (port : Port) (id : ℕ) : Prop := ∀ o : Overlapped, o.id = id → ¬ port.Busy o

/-- The map holds the event. -/
def Selector.Holds (sel : Selector S δ) (id : ℕ) : Prop :=
  sel.eventMaps (sel.events id).asRawSocket = some id

/-- The invariant. -/
structure Held (sel : Selector S δ) : Prop where
  keyed : sel.Keyed
  holds : ∀ o, sel.port.Busy o → sel.Holds o.id
  marked : ∀ id, sel.port.posted (.read id) ≤ 1
  open_ : ∀ id, (sel.events id).isEnd = false → sel.port.posted (.read id) = 0
  writes : ∀ id, sel.port.posted (.write id) = 0

namespace Held

variable {sel t : Selector S δ}

theorem new [Zero S] : Held (.new : Selector S δ) where
  keyed := ⟨nofun, Numbered.empty⟩
  holds _ hbusy := hbusy.elim (absurd rfl) (absurd rfl)
  marked _ := Nat.zero_le _
  open_ _ _ := rfl
  writes _ := rfl

variable (h : Held sel)

include h

/-- The events that are still to come are unused. -/
theorem fresh {id : ℕ} (hid : sel.count ≤ id) : sel.port.Unused id := by
  rintro o rfl hbusy
  exact absurd (h.keyed.numbered _ _ (h.holds o hbusy)) hid.not_gt

theorem calm (ht : Calm sel t) : Held t where
  keyed := h.keyed.calm ht
  holds o hbusy := by
    have hmaps : sel.eventMaps (sel.events o.id).asRawSocket = some o.id := by
      rcases hbusy with hout | hposted
      · rcases ht.outstanding o with hle | ⟨socket, hsocket⟩
        · exact h.holds o (Or.inl (Nat.pos_of_ne_zero hout |>.trans_le hle).ne')
        · exact h.keyed.sockets hsocket ▸ hsocket
      · exact h.holds o (Or.inr (congrFun ht.posted o ▸ hposted))
    unfold Selector.Holds
    rw [ht.maps, ht.socket]
    exact hmaps
  marked id := (congrFun ht.posted _).trans_le (h.marked id)
  open_ id hend := (congrFun ht.posted _).trans (h.open_ id ((ht.isEnd id).symm.trans hend))
  writes id := (congrFun ht.posted _).trans (h.writes id)

/-- An event is marked as ended. -/
theorem end_ (id : ℕ) : Held (sel.edit id Event.end_) := by
  have hkeyed := h.keyed.edit id (f := Event.end_) fun _ => rfl
  have hsocket := sel.edit_keeps id (f := Event.end_) Event.asRawSocket fun _ => rfl
  refine ⟨hkeyed, fun o hbusy => ?_, h.marked, fun id' hopen => ?_, h.writes⟩
  · exact (congrArg sel.eventMaps (hsocket o.id)).trans (h.holds o hbusy)
  · have hne : id' ≠ id := by
      rintro rfl
      exact absurd ((congrArg Event.isEnd (sel.edit_self id' _)).symm.trans hopen) nofun
    have hold : (sel.edit id Event.end_).events id' = sel.events id' :=
      Function.update_of_ne hne ..
    exact h.open_ id' (hold ▸ hopen)

/-- The end marker of an event of the map is posted. -/
theorem mark {id : ℕ} (hholds : sel.Holds id) (hend : (sel.events id).isEnd = true)
    (hnone : sel.port.posted (.read id) = 0) :
    Held { sel with port := sel.port.post (.read id) } := by
  have hother : ∀ {id'}, id' ≠ id → Overlapped.read id' ≠ .read id :=
    fun hid heq => hid (Overlapped.read.inj heq)
  refine ⟨⟨h.keyed.sockets, h.keyed.numbered⟩, fun o hbusy => ?_, fun id' => ?_,
    fun id' hopen => ?_, fun id' => ?_⟩
  · by_cases ho : o = .read id
    · subst ho
      exact hholds
    · exact h.holds o (hbusy.imp_right fun hposted => sel.port.post_of_ne _ ho ▸ hposted)
  · by_cases hid : id' = id
    · subst hid
      exact ((sel.port.post_self _).trans (congrArg (· + 1) hnone)).le
    · exact (sel.port.post_of_ne _ (hother hid)).trans_le (h.marked id')
  · have hid : id' ≠ id := by
      rintro rfl
      exact absurd (hend.symm.trans hopen) nofun
    exact (sel.port.post_of_ne _ (hother hid)).trans (h.open_ id' hopen)
  · have hne : Overlapped.write id' ≠ .read id := nofun
    exact (sel.port.post_of_ne _ hne).trans (h.writes id')

/-- A posted packet is dispatched. -/
theorem take (o : Overlapped) : Held { sel with port := sel.port.take o } := by
  have hle : ∀ o', (sel.port.take o).posted o' ≤ sel.port.posted o' := by
    intro o'
    by_cases ho : o' = o
    · subst ho
      exact (sel.port.take_self o').trans_le (Nat.sub_le ..)
    · exact (sel.port.take_of_ne o ho).le
  refine ⟨⟨h.keyed.sockets, h.keyed.numbered⟩, fun o' hbusy => ?_, fun id => ?_,
    fun id hopen => ?_, fun id => ?_⟩
  · exact h.holds o' (hbusy.imp_right fun hposted =>
      (Nat.pos_of_ne_zero hposted |>.trans_le (hle o')).ne')
  · exact (hle _).trans (h.marked id)
  · exact Nat.le_zero.mp ((hle _).trans_eq (h.open_ id hopen))
  · exact Nat.le_zero.mp ((hle _).trans_eq (h.writes id))

/-- The last packet of an event is its end marker. -/
theorem last {id : ℕ} (hidle : ∀ o : Overlapped, o.id = id → sel.port.outstanding o = 0) :
    (sel.port.take (.read id)).Unused id := by
  rintro o ho (hout | hposted)
  · exact hout (hidle o ho)
  · cases o with
    | read id' =>
        obtain rfl : id' = id := ho
        refine hposted ((sel.port.take_self _).trans ?_)
        exact Nat.sub_eq_zero_of_le (h.marked id')
    | write id' =>
        have hne : Overlapped.write id' ≠ .read id := nofun
        exact hposted ((sel.port.take_of_ne _ hne).trans (h.writes id'))

/-- The completion of an operation or the end marker is dispatched. -/
theorem delivers {status : CompletionStatus} {o : Overlapped} (ht : Delivers sel status o t) :
    Held t := by
  rcases ht.calm_or_posted with ⟨-, hcalm⟩ | ⟨-, -, rfl⟩
  · exact h.calm hcalm
  · exact h.take o

variable [DecidableEq S]

/-- An unused event leaves the map. -/
theorem remove {socket : S}
    (hunused : ∀ id, sel.eventMaps socket = some id → sel.port.Unused id) :
    Held (sel.remove socket) where
  keyed := h.keyed.remove socket
  holds o hbusy := by
    have hmaps := h.holds o hbusy
    have hne : (sel.events o.id).asRawSocket ≠ socket := by
      rintro rfl
      exact hunused _ hmaps o rfl hbusy
    exact (Function.update_of_ne hne ..).trans hmaps
  marked := h.marked
  open_ := h.open_
  writes := h.writes

theorem insert (buffer : EventBuffer S) (entry : EventEntry S δ)
    (hmaps : sel.eventMaps buffer.asRawSocket = none) : Held (sel.insert buffer entry) where
  keyed := h.keyed.insert buffer entry
  holds o hbusy := by
    have hold := h.holds o hbusy
    have hid := sel.insert_old buffer entry (h.keyed.numbered _ _ hold).ne
    have hne : (sel.events o.id).asRawSocket ≠ buffer.asRawSocket := by
      intro hsocket
      rw [Selector.Holds, hsocket, hmaps] at hold
      exact absurd hold nofun
    unfold Selector.Holds
    rw [hid]
    exact (Function.update_of_ne hne ..).trans hold
  marked := h.marked
  open_ id hopen := by
    by_cases hid : id = sel.count
    · subst hid
      by_contra hposted
      exact h.fresh le_rfl (.read sel.count) rfl (Or.inr hposted)
    · exact h.open_ id ((congrArg Event.isEnd (sel.insert_old buffer entry hid)).symm.trans hopen)
  writes := h.writes

end Held

/-- What a post does. A post that fails enqueues nothing. -/
structure Posting (sel : Selector S δ) (ret : Except IoError α) (t : Selector S δ) : Prop where
  calm : Calm sel t
  failed : ∀ e, ret = .error e → t.port = sel.port

theorem Posting.ok {sel t : Selector S δ} (h : Calm sel t) (a : α) : Posting sel (.ok a) t where
  calm := h
  failed e he := by cases he

variable [DecidableEq S] {ok : Selector S δ → Move (WinReply (S := S)) (WinCall S δ) → Prop}
  {sel : Selector S δ}

namespace Held

/-! ## The owners -/

theorem freeUnowned (id : ℕ) (hsel : Held sel) : Kept ok Held (Win.freeUnowned id)
    (fun _ t => ∃ owners, t = { sel with owners := owners }) sel := by
  apply Safe.read_then
  refine Safe.when (fun _ => ?_) fun _ => ⟨sel.owners, rfl⟩
  have hshut := hsel.calm (.owners sel (sel.owners.shut id))
  exact Safe.bind (Kept.modify (Kept.same (fun hu => hu) hshut (fun _ _ ht => ht) fun _ _ =>
    ⟨_, rfl⟩))

/-- An unused event leaves the map and may be freed. -/
theorem removeEvent {socket : S} (hsel : Held sel)
    (hunused : ∀ id, sel.eventMaps socket = some id → sel.port.Unused id) :
    Kept ok Held (Win.removeEvent socket)
      (fun _ t => ∃ owners, t = { sel.remove socket with owners := owners }) sel := by
  unfold Win.removeEvent
  apply Safe.read_then
  cases hmaps : sel.eventMaps socket with
  | none => exact Safe.pure ⟨sel.owners, (Selector.remove_of_none hmaps).symm⟩
  | some id => exact Safe.bind (Kept.modify (freeUnowned id (hsel.remove hunused)))

theorem holding {id : ℕ} {handler : WinCode S δ Unit} (hsel : Held sel)
    (hhandler : Held (sel.hold id) → Kept ok Held handler (fun _ => Held) (sel.hold id)) :
    Kept ok Held (Win.holding id handler) (fun _ => Held) sel := by
  refine Safe.bind (Kept.modify (Safe.bind ?_))
  refine (hhandler (hsel.calm (.owners sel _))).mono fun _ t ht => Safe.bind (Kept.modify ?_)
  have hreleased : Held (t.release id) := ht.calm (.owners t _)
  refine (freeUnowned id hreleased).mono ?_
  rintro _ u ⟨owners, rfl⟩
  exact hreleased.calm (.owners _ owners)

/-! ## The posts -/

theorem postAcceptEvent (socket : S) (hsel : Held sel) :
    Kept ok Held (Win.postAcceptEvent socket) (Posting sel) sel := by
  unfold Win.postAcceptEvent
  apply Safe.read_then
  cases hmaps : sel.eventMaps socket with
  | none => exact Safe.pure ⟨.refl sel, fun _ _ => rfl⟩
  | some id =>
      dsimp only
      split
      · exact Safe.pure ⟨.refl sel, fun _ _ => rfl⟩
      · apply Safe.bind
        refine Kept.same (fun hu => hu) hsel (fun _ _ ht => ht) ?_
        rintro (e | s) -
        · exact Safe.pure ⟨.refl sel, fun _ _ => rfl⟩
        · have hset := Calm.edit sel id (f := (·.setAcceptSocket (some s))) (fun _ => rfl)
            (fun _ => rfl) fun _ => rfl
          have hmaps' : (sel.edit id (·.setAcceptSocket (some s))).eventMaps socket = some id :=
            hmaps
          apply Safe.bind
          apply Kept.modify
          apply Safe.bind
          refine Kept.ask (fun hu => hu) (hsel.calm hset) ?_
          rintro (e | b) t ht -
          · obtain rfl := ht
            exact Safe.pure ⟨hset, fun _ _ => rfl⟩
          · obtain rfl := ht
            exact Safe.pure (.ok (hset.trans (.enqueue (o := .read id) hmaps')) ())

theorem postReadEvent (socket : S) (hsel : Held sel) :
    Kept ok Held (Win.postReadEvent socket)
      (fun ret t => t.events = sel.events ∧ Posting sel ret t) sel := by
  unfold Win.postReadEvent
  apply Safe.read_then
  cases hmaps : sel.eventMaps socket with
  | none => exact Safe.pure ⟨rfl, .refl sel, fun _ _ => rfl⟩
  | some id =>
      dsimp only
      split
      · exact Safe.pure ⟨rfl, .refl sel, fun _ _ => rfl⟩
      · split
        · exact Safe.pure ⟨rfl, .refl sel, fun _ _ => rfl⟩
        · apply Safe.bind
          refine Kept.ask (fun hu => hu) hsel ?_
          rintro (e | n) t ht -
          · obtain rfl := ht
            exact Safe.pure ⟨rfl, .refl t, fun _ _ => rfl⟩
          · obtain rfl := ht
            exact Safe.pure ⟨rfl, .ok (.enqueue (o := .read id) hmaps) ()⟩

theorem writeOut {socket : S} {id : ℕ} (hsel : Held sel)
    (hmaps : sel.eventMaps socket = some id) :
    Kept ok Held (Win.writeOut id) (fun ret t => Posting sel ret t ∧
      ∀ e, ret = .error e → (sel.events id).buffer.write.val ≠ []) sel := by
  unfold Win.writeOut
  apply Safe.read_then
  split
  · exact Safe.pure ⟨.ok (.refl sel) 0, fun _ he => by cases he⟩
  · rename_i hguard
    have hval : (sel.events id).buffer.write.val ≠ [] := fun hval =>
      hguard (Or.inr (Or.inl ((Buffer.empty_iff _).mpr hval)))
    apply Safe.bind
    refine Kept.ask (fun hu => hu) hsel ?_
    rintro (e | r) t ht -
    · obtain rfl := ht
      exact Safe.pure ⟨⟨.refl t, fun _ _ => rfl⟩, fun _ _ => hval⟩
    · obtain ⟨rfl, -⟩ := ht
      have hposted : Calm sel { sel with port := sel.port.enqueue (.write id) } := .enqueue hmaps
      cases r with
      | none =>
          have htaken := hposted.trans (.takeAll _ id)
          exact Safe.bind (Kept.modify (Safe.pure ⟨.ok htaken 0, fun _ he => by cases he⟩))
      | some n =>
          have htaken := hposted.trans (.takeFront _ id n)
          refine Safe.bind (Kept.modify (Safe.bind (Safe.read (Safe.bind (Safe.when ?_ ?_)))))
          · intro _
            have hset := htaken.trans (.edit _ id (f := (·.setInWrite true)) (fun _ => rfl)
              (fun _ => rfl) fun _ => rfl)
            exact Kept.modify (Safe.pure ⟨.ok hset n, fun _ he => by cases he⟩)
          · exact fun _ => Safe.pure ⟨.ok htaken n, fun _ he => by cases he⟩

theorem postWriteEvent (socket : S) (hsel : Held sel) :
    Kept ok Held (Win.postWriteEvent socket none) (fun ret t => Posting sel ret t ∧
      ∀ e, ret = .error e → ∀ id, sel.eventMaps socket = some id →
        (sel.events id).buffer.write.val ≠ []) sel := by
  unfold Win.postWriteEvent
  apply Safe.read_then
  cases hmaps : sel.eventMaps socket with
  | none => exact Safe.pure ⟨⟨.refl sel, fun _ _ => rfl⟩, fun _ _ _ hid => by cases hid⟩
  | some id =>
      apply Safe.bind
      refine Safe.pure ((writeOut hsel hmaps).mono fun ret t ht => ⟨ht.1, fun e he id' hid' => ?_⟩)
      obtain rfl := Option.some.inj hid'
      exact ht.2 e he

theorem sendSocket (socket : S) (data : List UInt8) (hsel : Held sel) :
    Kept ok Held (Win.sendSocket socket data) (fun _ => Held) sel := by
  unfold Win.sendSocket Win.postWriteEvent
  apply Safe.read_then
  cases hmaps : sel.eventMaps socket with
  | none => exact Safe.pure hsel
  | some id =>
      have hadded := Calm.edit sel id (f := (·.append data)) (fun _ => rfl) (fun _ => rfl)
        fun _ => rfl
      have hnoted := hsel.calm (hadded.trans (.note _ (.sent id data)))
      have hmaps' : ((sel.edit id (·.append data)).note (.sent id data)).eventMaps socket =
          some id := hmaps
      apply Safe.bind
      apply Safe.bind
      apply Kept.modify
      apply Kept.modify
      exact (writeOut hnoted hmaps').mono fun _ _ ht => hnoted.calm ht.1.calm

/-- The checks that follow a registration or a modification. If one of two posts fails,
the other may have been accepted before. -/
theorem checkSocketEvent (socket : S) (hsel : Held sel) :
    Kept ok Held (Win.checkSocketEvent socket) (fun ret t => Calm sel t ∧
      ∀ id, sel.eventMaps socket = some id →
        (Flag.READ ∈ (sel.events id).entry.evEvents →
          Flag.WRITE ∈ (sel.events id).entry.evEvents →
          (sel.events id).buffer.write.val = []) →
        ∀ e, ret = .error e → t.port = sel.port) sel := by
  unfold Win.checkSocketEvent
  apply Safe.read_then
  cases hmaps : sel.eventMaps socket with
  | none => exact Safe.pure ⟨.refl sel, fun _ hid => by cases hid⟩
  | some id =>
      dsimp only
      split
      · exact (postAcceptEvent socket hsel).mono fun _ _ ht => ⟨ht.calm, fun _ _ _ => ht.failed⟩
      have hfirst : Kept ok Held
          (if (sel.events id).entry.evEvents.contains EventFlags.FLAG_READ then
            Win.postReadEvent socket else pure (.ok ()))
          (fun ret t => t.events = sel.events ∧ Posting sel ret t ∧
            (Flag.READ ∉ (sel.events id).entry.evEvents → t.port = sel.port)) sel := by
        split
        · rename_i hflag
          exact (postReadEvent socket hsel).mono fun _ _ ht =>
            ⟨ht.1, ht.2, absurd ((EventFlags.contains_READ _).mp hflag)⟩
        · exact Safe.pure ⟨rfl, ⟨.refl sel, fun _ _ => rfl⟩, fun _ => rfl⟩
      apply Safe.bind
      apply hfirst.mono
      rintro (e | _) t ⟨hevents, ht, hnone⟩
      · exact Safe.pure ⟨ht.calm, fun _ _ _ => ht.failed⟩
      · dsimp only
        split
        · rename_i hflag
          have hmaps' : t.eventMaps socket = some id := ht.calm.maps ▸ hmaps
          apply Safe.bind
          refine (postWriteEvent socket (hsel.calm ht.calm)).mono ?_
          rintro (e | n) u ⟨hu, hval⟩
          · refine Safe.pure ⟨ht.calm.trans hu.calm, fun id' hid' hempty _ _ => ?_⟩
            obtain rfl := Option.some.inj hid'
            -- a write that fails had something to write, so no read came before it
            refine (hu.failed e rfl).trans (hnone fun hread => hval e rfl id hmaps' ?_)
            rw [hevents]
            exact hempty hread ((EventFlags.contains_WRITE _).mp hflag)
          · exact Safe.pure ⟨ht.calm.trans hu.calm, fun _ _ _ _ he => by cases he⟩
        · exact Safe.pure ⟨ht.calm, fun _ _ _ _ he => by cases he⟩

/-! ## The end of an event -/

theorem unregisterSocket (socket : S) (hsel : Held sel) :
    Kept ok Held (Win.unregisterSocket socket) (fun _ => Held) sel := by
  unfold Win.unregisterSocket
  apply Safe.read_then
  cases hmaps : sel.eventMaps socket with
  | none => exact Safe.pure hsel
  | some id =>
      dsimp only
      split
      · exact Safe.pure hsel
      · rename_i hend
        have hend := Bool.eq_false_of_not_eq_true hend
        have hshut : Held (sel.shut id) := hsel.calm (.owners sel _)
        apply Safe.bind
        apply Kept.modify
        apply Safe.bind
        refine Kept.same (fun hu => hu) hshut (fun _ _ ht => ht) fun _ _ => ?_
        apply Safe.bind
        apply Kept.modify
        have hended := hshut.end_ id
        refine Kept.ask (fun hu => hu) hended ?_
        rintro (e | _) t ht -
        · obtain rfl := ht
          exact hended
        · obtain rfl := ht
          have hself := (sel.shut id).edit_self id Event.end_
          have hholds : ((sel.shut id).edit id Event.end_).Holds id := by
            unfold Selector.Holds
            rw [hself]
            exact hsel.keyed.sockets hmaps ▸ hmaps
          exact hended.mark hholds (congrArg Event.isEnd hself) (hsel.open_ id hend)

theorem dropEvent {id : ℕ} (hsel : Held sel) :
    Kept ok Held (Win.dropEvent id) (fun _ => Held) sel := by
  unfold Win.dropEvent
  apply Safe.read_then
  exact Safe.bind ((unregisterSocket _ hsel).mono fun _ _ ht => Safe.pure ht)

theorem endCb {id : ℕ} (hsel : Held sel) :
    Kept ok Held (Win.endCb id) (fun _ => Held) sel := by
  unfold Win.endCb
  apply Safe.read_then
  cases (sel.events id).entry.end_ with
  | none => exact Safe.pure hsel
  | some cb =>
      have htaken := hsel.calm (.edit _ id (f := Event.takeData) (fun _ => rfl)
        (fun _ => rfl) fun _ => rfl)
      exact Safe.bind (Kept.modify (Kept.call trivial htaken fun _ _ _ ht => ht))

theorem _unregisterSocket {socket : S} (hsel : Held sel)
    (hunused : ∀ id, sel.eventMaps socket = some id → sel.port.Unused id) :
    Kept ok Held (Win._unregisterSocket socket) (fun _ => Held) sel := by
  unfold Win._unregisterSocket
  apply Safe.read_then
  have hremoved := hsel.remove hunused
  cases hmaps : sel.eventMaps socket with
  | none => exact Safe.pure hsel
  | some id =>
      apply Safe.bind
      apply Kept.modify
      apply Safe.bind
      exact (hremoved.holding endCb).mono fun _ _ ht => Safe.pure ht

/-! ## The handlers -/

theorem postAgain (id : ℕ) (flags flag : EventFlags) {post : Post}
    {c : S → WinCode S δ (Except IoError Unit)} (hsel : Held sel)
    (hc : ∀ t socket, Held t → Kept ok Held (c socket) (fun _ => Held) t) :
    Kept ok Held (Win.postAgain id flags flag post c) (fun _ => Held) sel := by
  unfold Win.postAgain
  have hgiven : Held (sel.edit id (·.unlessPersist flags)) := by
    refine hsel.calm (.edit sel id (fun event => ?_) (fun event => ?_) fun event => ?_) <;>
      unfold Event.unlessPersist <;> split <;> rfl
  refine Safe.bind (Kept.modify (Safe.bind (Safe.read (Safe.when (fun _ => ?_) fun _ => hgiven))))
  apply Safe.bind
  refine Kept.same (fun hu => hu) hgiven (fun _ _ ht => ht) fun _ _ => ?_
  apply Safe.bind
  apply (hc _ _ hgiven).mono
  rintro (e | _) t ht
  · apply Safe.bind
    apply Kept.modify
    exact dropEvent (ht.calm (.edit t id (fun _ => rfl) (fun _ => rfl) fun _ => rfl))
  · exact Kept.modify (ht.calm (.edit t id (fun _ => rfl) (fun _ => rfl) fun _ => rfl))

/-- What follows a callback: the event ends, or the code goes on. -/
theorem after_cb {id : ℕ} {ret : RetValue} {c : WinCode S δ Unit} (hsel : Held sel)
    (hc : Kept ok Held c (fun _ => Held) sel) :
    Kept ok Held (match ret with
      | .OVER => Win.dropEvent id
      | _ => c) (fun _ => Held) sel := by
  cases ret with
  | OVER => exact dropEvent hsel
  | OK => exact hc
  | CONTINUE => exact hc

theorem acceptDone {id : ℕ} (hsel : Held sel) :
    Kept ok Held (Win.acceptDone id) (fun _ => Held) sel := by
  unfold Win.acceptDone
  apply Safe.read_then
  cases (sel.events id).acceptSocket with
  | none => exact Safe.bind (Safe.stop Empty.elim (fun hu => hu) hsel)
  | some socket =>
      have htaken := hsel.calm (.edit sel id (f := (·.setAcceptSocket none)) (fun _ => rfl)
        (fun _ => rfl) fun _ => rfl)
      apply Safe.bind
      apply Kept.modify
      apply Safe.bind
      refine Kept.same (fun hu => hu) htaken (fun _ _ ht => ht) fun result _ => ?_
      have hdone := htaken.calm (.edit _ id (f := (·.setInRead false)) (fun _ => rfl)
        (fun _ => rfl) fun _ => rfl)
      apply Safe.bind
      apply Kept.modify
      apply Safe.bind
      refine (Maintains.acceptCb hdone).mono fun ret t ht => ?_
      exact after_cb ht (postAgain id _ _ ht fun u socket hu =>
        (postAcceptEvent socket hu).mono fun _ _ hv => hu.calm hv.calm)

theorem readDone {id : ℕ} {status : CompletionStatus} (hsel : Held sel)
    (hended : ¬ (sel.events id).isAccept → Flag.ENDED ∈ status.flag →
      ∀ id', sel.eventMaps (sel.events id).asRawSocket = some id' → sel.port.Unused id') :
    Kept ok Held (Win.readDone id status) (fun _ => Held) sel := by
  unfold Win.readDone
  apply Safe.read_then
  split
  · exact acceptDone hsel
  rename_i haccept
  split
  · rename_i hflag
    have hunused := hended haccept ((EventFlags.contains_ENDED _).mp hflag)
    exact Safe.bind ((_unregisterSocket hsel hunused).mono fun _ _ ht => Safe.pure ht)
  split
  · exact dropEvent hsel
  split
  · exact Safe.bind (Safe.stop Empty.elim (fun hu => hu) hsel)
  have hfilled := hsel.calm (.edit sel id (f := (·.fill status.bytesTransferred)) (fun _ => rfl)
    (fun _ => rfl) fun _ => rfl)
  apply Safe.bind
  apply Kept.modify
  apply Safe.read_then
  apply Safe.bind
  have hcalled : Kept ok Held
      (if ((sel.edit id (·.fill status.bytesTransferred)).events id).buffer.hasReadBuffer then
        Win.readCb id else pure .OK)
      (fun _ => Held) (sel.edit id (·.fill status.bytesTransferred)) := by
    split
    · exact Maintains.readCb hfilled
    · exact Safe.pure hfilled
  refine hcalled.mono fun ret t ht => ?_
  exact after_cb ht (postAgain id _ _ ht fun u socket hu =>
    (postReadEvent socket hu).mono fun _ _ hv => hu.calm hv.2.calm)

theorem writeDone {id : ℕ} (hsel : Held sel) :
    Kept ok Held (Win.writeDone id) (fun _ => Held) sel := by
  unfold Win.writeDone
  have hdone := hsel.calm (.edit sel id (f := (·.setInWrite false)) (fun _ => rfl)
    (fun _ => rfl) fun _ => rfl)
  apply Safe.bind
  apply Kept.modify
  apply Safe.bind
  refine (Maintains.writeCb hdone).mono fun ret t ht => after_cb ht ?_
  refine Safe.bind (Safe.read (Safe.when (fun _ => ?_) fun _ => ht))
  apply Safe.bind
  refine Kept.same (fun hu => hu) ht (fun _ _ hu => hu) fun _ _ => ?_
  exact Safe.bind ((postWriteEvent _ ht).mono fun _ _ hu => Safe.pure (ht.calm hu.1.calm))

end Held

/-! ## The runs -/

/-- A socket is registered again only if its event is unused, and a socket that is to be
read and written has nothing to write yet. The key of a packet of a stream has `FLAG_ENDED`
only if the packet is its end marker, which is dispatched after the completions of its
operations. -/
def Releases : Selector S δ → Move (WinReply (S := S)) (WinCall S δ) → Prop
  | sel, .call (.registerSocket buffer entry) =>
      (∀ id, sel.eventMaps buffer.asRawSocket = some id → sel.port.Unused id) ∧
        (Flag.READ ∈ entry.evEvents → Flag.WRITE ∈ entry.evEvents → buffer.write.val = [])
  | sel, .answer (.dispatch status (.read id)) _ => ¬ (sel.events id).isAccept →
      Flag.ENDED ∈ status.flag → sel.Marker status id ∧
        ∀ o : Overlapped, o.id = id → sel.port.outstanding o = 0
  | _, _ => True

namespace Held

theorem dispatch {status : CompletionStatus} (hsel : Held sel) :
    Kept Releases Held (Win.dispatch status) (fun _ => Held) sel := by
  unfold Win.dispatch
  cases status.overlapped with
  | none => exact Safe.pure hsel
  | some o =>
      cases o with
      | write id =>
          exact Safe.bind (Kept.ask (fun hu => hu) hsel fun _ _ ht _ =>
            (hsel.delivers ht).holding writeDone)
      | read id =>
          apply Safe.bind
          refine Kept.ask (fun hu => hu) hsel fun _ t ht hok => ?_
          refine (hsel.delivers ht).holding fun hheld => ?_
          refine readDone hheld fun haccept hflag id' hid' => ?_
          have hentry : ((t.hold id).events id).entry = (sel.events id).entry := (ht.listens id).1
          obtain ⟨-, hidle⟩ := hok (fun hlistens => haccept (by rwa [Event.isAccept, hentry])) hflag
          rcases ht.calm_or_posted with ⟨hout, -⟩ | ⟨hposted, -, rfl⟩
          · exact absurd (hidle (.read id) rfl) hout
          · obtain rfl := Option.some.inj ((hsel.holds (.read id) (Or.inr hposted)).symm.trans hid')
            exact hsel.last hidle

theorem dispatchAll (statuses : List CompletionStatus) (hsel : Held sel) :
    Kept Releases Held (Win.dispatchAll statuses) (fun _ => Held) sel := by
  induction statuses generalizing sel with
  | nil => exact Safe.pure hsel
  | cons status statuses ih => exact Safe.bind (hsel.dispatch.mono fun _ _ ht => ih ht)

theorem doSelect (hsel : Held sel) :
    Kept Releases Held Win.doSelect (fun _ => Held) sel := by
  unfold Win.doSelect
  apply Safe.bind
  refine Kept.same (fun hu => hu) hsel (fun _ _ ht => ht) ?_
  rintro (e | statuses) -
  · dsimp only
    split <;> exact Safe.pure hsel
  · exact Safe.bind ((dispatchAll statuses hsel).mono fun _ _ ht => Safe.pure ht)

/-- An event whose registration fails leaves the map, and nothing carries its addresses. -/
theorem registerSocket {buffer : EventBuffer S} {entry : EventEntry S δ} (hsel : Held sel)
    (hok : Releases sel (.call (.registerSocket buffer entry))) :
    Kept Releases Held (Win.registerSocket buffer entry) (fun _ => Held) sel := by
  obtain ⟨hunused, hempty⟩ := hok
  apply Safe.bind
  refine (removeEvent hsel hunused).mono ?_
  rintro _ _ ⟨owners, rfl⟩
  have hremoved := (hsel.remove hunused).calm (.owners _ owners)
  generalize hgone : { sel.remove buffer.asRawSocket with owners := owners } = sel' at hremoved ⊢
  have hnone : sel'.eventMaps buffer.asRawSocket = none := by
    subst hgone
    exact Function.update_self ..
  apply Safe.bind
  refine Kept.same (fun hu => hu) hremoved (fun _ _ ht => ht) ?_
  rintro (e | _) -
  · apply Safe.bind
    exact Kept.same (fun hu => hu) hremoved (fun _ _ ht => ht) fun _ _ => Safe.pure hremoved
  · have hinserted := hremoved.insert buffer entry hnone
    have hmaps := sel'.insert_maps buffer entry
    have hnew := sel'.insert_new buffer entry
    apply Safe.bind
    apply Kept.modify
    apply Safe.bind
    refine (checkSocketEvent buffer.asRawSocket hinserted).mono ?_
    rintro (e | _) t ⟨hcalm, hfailed⟩
    · have hport := hfailed _ hmaps (by rw [hnew]; exact hempty) e rfl
      have hfree : ∀ id, t.eventMaps buffer.asRawSocket = some id → t.port.Unused id := by
        intro id hid
        rw [hcalm.maps, hmaps, Option.some.injEq] at hid
        rw [hport, ← hid]
        exact hremoved.fresh le_rfl
      have ht := hinserted.calm hcalm
      apply Safe.bind
      refine (removeEvent ht hfree).mono ?_
      rintro _ _ ⟨owners', rfl⟩
      exact Safe.pure ((ht.remove hfree).calm (.owners _ owners'))
    · exact Safe.pure (hinserted.calm hcalm)

theorem modifySocket {isDel : Bool} {socket : S} {entry : EventEntry S δ} (hsel : Held sel) :
    Kept Releases Held (Win.modifySocket isDel socket entry) (fun _ => Held) sel := by
  unfold Win.modifySocket
  apply Safe.read_then
  cases sel.eventMaps socket with
  | none => exact Safe.pure hsel
  | some id =>
      have hmerged := hsel.calm (.edit sel id (f := (·.merge isDel entry)) (fun _ => rfl)
        (fun _ => rfl) fun event => event.entry.merge_end entry isDel)
      apply Safe.bind
      apply Kept.modify
      apply Safe.bind
      refine (checkSocketEvent socket hmerged).mono ?_
      rintro (e | _) t ⟨hcalm, -⟩
      · apply Safe.bind
        refine (unregisterSocket socket (hmerged.calm hcalm)).mono ?_
        rintro (e' | _) u hu <;> exact Safe.pure hu
      · exact Safe.pure (hmerged.calm hcalm)

/-- Every call keeps the invariant. -/
theorem keeps : (always Held).Keeps (winRuns (Releases (S := S) (δ := δ))) := by
  apply keeps_of_safe
  rintro op sel ⟨hmay, hok⟩ hsel
  cases op with
  | registerSocket buffer entry =>
      exact Safe.bind ((hsel.registerSocket hok).mono fun _ _ ht => Safe.pure ht)
  | modifySocket isDel socket entry =>
      exact Safe.bind (hsel.modifySocket.mono fun _ _ ht => Safe.pure ht)
  | unregisterSocket socket =>
      exact Safe.bind ((unregisterSocket socket hsel).mono fun _ _ ht => Safe.pure ht)
  | sendSocket socket data =>
      exact Safe.bind ((sendSocket socket data hsel).mono fun _ _ ht => Safe.pure ht)
  | doSelect => exact Safe.bind (hsel.doSelect.mono fun _ _ ht => Safe.pure ht)
  | editBuffer id f =>
      exact Kept.modify (hsel.calm
        (.edit sel id (fun event => hmay event.buffer) (fun _ => rfl) fun _ => rfl))

end Held

/-- A registration leaves an event behind if something carries an address of the event that
the map held for the socket. -/
theorem Held.register_iff {sel : Selector S δ} (h : Held sel) (buffer : EventBuffer S)
    (entry : EventEntry S δ) (stack : List (Frame (Selector S δ) (WinReply (S := S)) Unit)) :
    (∀ o, ((WinCall.registerSocket buffer entry).code.start sel stack).state.port.Busy o →
      ((WinCall.registerSocket buffer entry).code.start sel stack).state.Holds o.id) ↔
    ∀ id, sel.eventMaps buffer.asRawSocket = some id → sel.port.Unused id := by
  have hstate : ∃ owners, ((WinCall.registerSocket buffer entry).code.start sel stack).state =
      { sel.remove buffer.asRawSocket with owners := owners } := by
    refine Code.start_state (P := fun t => ∃ owners,
      t = { sel.remove buffer.asRawSocket with owners := owners }) _ stack ?_
    simp only [WinCall.code, Win.registerSocket, Win.removeEvent, Code.wp_bind, Code.wp_read]
    cases hmaps : sel.eventMaps buffer.asRawSocket with
    | none => exact ⟨⟨sel.owners, (Selector.remove_of_none hmaps).symm⟩, fun _ _ => False.elim⟩
    | some id =>
        simp only [Win.freeUnowned, Code.when, Code.wp_bind, Code.wp_read, Code.wp_modify]
        split
        · exact ⟨⟨_, rfl⟩, fun _ _ => False.elim⟩
        · exact ⟨⟨sel.owners, rfl⟩, fun _ _ => False.elim⟩
  obtain ⟨owners, hstate⟩ := hstate
  rw [hstate]
  constructor
  · rintro hholds id hmaps o rfl hbusy
    have hlost : (sel.remove buffer.asRawSocket).eventMaps (sel.events o.id).asRawSocket =
        none := by
      rw [h.keyed.sockets hmaps]
      exact Function.update_self ..
    exact Option.some_ne_none _ ((hholds o hbusy).symm.trans hlost)
  · exact fun hunused => ((h.remove hunused).calm (.owners _ owners)).holds

/-! ## The main result -/

/-- In every run that releases its events in time, at every question and in every callback,
the map holds each event whose addresses an operation or a posted packet carries, and so
each event that a packet is dispatched to. It still does after a registration if and only
if nothing carries an address of the event that is replaced. -/
theorem carried_held [Zero S] {c : Config (Selector S δ) (WinReply (S := S)) Unit}
    (hreach : (winRuns Releases).Reaches .new c) :
    (∀ o, c.state.port.Busy o → c.state.Holds o.id) ∧
    (∀ {status o t}, Delivers c.state status o t → c.state.Holds o.id ∧ t.Holds o.id) ∧
    ∀ buffer entry,
      (∀ o, ((WinCall.registerSocket buffer entry).code.start c.state c.stack).state.port.Busy o →
        ((WinCall.registerSocket buffer entry).code.start c.state c.stack).state.Holds o.id) ↔
      ∀ id, c.state.eventMaps buffer.asRawSocket = some id → c.state.port.Unused id := by
  have hheld := reaches_always Held.keeps hreach Held.new
  refine ⟨hheld.holds, fun {status o t} ht => ?_,
    fun buffer entry => hheld.register_iff buffer entry c.stack⟩
  rcases ht.calm_or_posted with ⟨hout, hcalm⟩ | ⟨hposted, -, rfl⟩
  · have hholds := hheld.holds o (Or.inl hout)
    refine ⟨hholds, ?_⟩
    unfold Selector.Holds
    rw [hcalm.maps, hcalm.socket]
    exact hholds
  · exact ⟨hheld.holds o (Or.inr hposted), hheld.holds o (Or.inr hposted)⟩

/-- A stream is unregistered while it reads. Its read is completed, and its end marker is
the next packet. -/
theorem carried_held_marker :
    ∃ c, (winRuns Releases).Reaches (.new : Selector SOCKET Unit) c ∧
      c.state.port.Busy (.read 0) ∧ (c.state.events 0).isEnd = true ∧ c.state.Holds 0 := by
  have start := System.Reaches.refl (S := winRuns Releases) (.new : Selector SOCKET Unit)
  have registered := ((start.call (.registerSocket (.new 3 0) (.newEvent 3
    EventFlags.FLAG_READ none none (some 1) none)) trivial ⟨trivial, nofun, fun _ _ => rfl⟩).answer
    (.ok ()) ⟨rfl, trivial⟩).answer (.ok none) ⟨rfl, trivial⟩
  have closed := ((registered.call (.unregisterSocket 3) trivial ⟨trivial, trivial⟩).answer ()
    ⟨rfl, trivial⟩).answer (.ok ()) ⟨rfl, trivial⟩
  have selected := (closed.call .doSelect trivial ⟨trivial, trivial⟩).answer
    (.ok [⟨0, ∅, some (.read 0)⟩, ⟨0, EventFlags.FLAG_ENDED, some (.read 0)⟩]) ⟨rfl, trivial⟩
  have completed := selected.answer () ⟨.read [] (by decide) rfl (Nat.zero_le _),
    fun _ hended => absurd hended (by decide)⟩
  refine ⟨_, completed, Or.inr (by decide), rfl, (carried_held completed).1 (.read 0) ?_⟩
  exact Or.inr (by decide)

end TdRevent.Win
