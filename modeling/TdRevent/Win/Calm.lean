import TdRevent.Win.Maintains
import TdRevent.Collections.Numbering

/-!
# Code that runs no callback

The map holds every event under its socket. The posts of the selector run no
callback. They change what is outstanding only for events that are in the map, and
leave the map, the posted packets and the end of every event alone.
-/

namespace TdRevent.Win

open Interaction

variable {S δ α β : Type} {sel t u : Selector S δ}

theorem Selector.edit_self (sel : Selector S δ) (id : ℕ) (f : Event S δ → Event S δ) :
    (sel.edit id f).events id = f (sel.events id) := Function.update_self ..

/-- What a change of an event keeps of every event. -/
theorem Selector.edit_keeps (sel : Selector S δ) (id : ℕ) {f : Event S δ → Event S δ}
    (p : Event S δ → α) (hp : ∀ event, p (f event) = p event) (id' : ℕ) :
    p ((sel.edit id f).events id') = p (sel.events id') := by
  by_cases h : id' = id
  · rw [h, sel.edit_self, hp]
  · have hother : (sel.edit id f).events id' = sel.events id' := Function.update_of_ne h ..
    rw [hother]

section

variable [DecidableEq S]

theorem Selector.insert_new (sel : Selector S δ) (buffer : EventBuffer S)
    (entry : EventEntry S δ) :
    (sel.insert buffer entry).events sel.count = .new buffer entry := Function.update_self ..

theorem Selector.insert_old (sel : Selector S δ) (buffer : EventBuffer S)
    (entry : EventEntry S δ) {id : ℕ} (h : id ≠ sel.count) :
    (sel.insert buffer entry).events id = sel.events id := Function.update_of_ne h ..

end

/-- A change of state in which no event comes, goes or ends. -/
structure Calm (sel t : Selector S δ) : Prop where
  maps : t.eventMaps = sel.eventMaps
  count : t.count = sel.count
  posted : t.port.posted = sel.port.posted
  outstanding : ∀ o, t.port.outstanding o ≤ sel.port.outstanding o ∨
    ∃ socket, sel.eventMaps socket = some o.id
  socket : ∀ id, (t.events id).asRawSocket = (sel.events id).asRawSocket
  isEnd : ∀ id, (t.events id).isEnd = (sel.events id).isEnd
  end_ : ∀ id, (t.events id).entry.end_ = (sel.events id).entry.end_

namespace Calm

theorem refl (sel : Selector S δ) : Calm sel sel :=
  ⟨rfl, rfl, rfl, fun _ => Or.inl le_rfl, fun _ => rfl, fun _ => rfl, fun _ => rfl⟩

theorem trans (h : Calm sel t) (h' : Calm t u) : Calm sel u where
  maps := h'.maps.trans h.maps
  count := h'.count.trans h.count
  posted := h'.posted.trans h.posted
  outstanding o := by
    rcases h'.outstanding o with hle | hmaps
    · exact (h.outstanding o).imp_left hle.trans
    · exact Or.inr (h.maps ▸ hmaps)
  socket id := (h'.socket id).trans (h.socket id)
  isEnd id := (h'.isEnd id).trans (h.isEnd id)
  end_ id := (h'.end_ id).trans (h.end_ id)

/-- Only the events change. -/
theorem edit (sel : Selector S δ) (id : ℕ) {f : Event S δ → Event S δ}
    (hsocket : ∀ event, (f event).asRawSocket = event.asRawSocket)
    (hend : ∀ event, (f event).isEnd = event.isEnd)
    (hcb : ∀ event, (f event).entry.end_ = event.entry.end_) : Calm sel (sel.edit id f) where
  maps := rfl
  count := rfl
  posted := rfl
  outstanding _ := Or.inl le_rfl
  socket := sel.edit_keeps id Event.asRawSocket hsocket
  isEnd := sel.edit_keeps id Event.isEnd hend
  end_ := sel.edit_keeps id (fun event => event.entry.end_) hcb

/-- An operation on an event of the map is accepted. -/
theorem enqueue {socket : S} {o : Overlapped} (hmaps : sel.eventMaps socket = some o.id) :
    Calm sel { sel with port := sel.port.enqueue o } where
  maps := rfl
  count := rfl
  posted := rfl
  outstanding o' := by
    by_cases h : o' = o
    · exact Or.inr ⟨socket, h ▸ hmaps⟩
    · exact Or.inl (Function.update_of_ne h ..).le
  socket _ := rfl
  isEnd _ := rfl
  end_ _ := rfl

theorem takeFront (sel : Selector S δ) (id n : ℕ) : Calm sel (sel.takeFront id n) := by
  have h := edit sel id (f := (·.drain n)) (fun _ => rfl) (fun _ => rfl) fun _ => rfl
  exact ⟨h.maps, h.count, h.posted, h.outstanding, h.socket, h.isEnd, h.end_⟩

theorem takeAll (sel : Selector S δ) (id : ℕ) : Calm sel (sel.takeAll id) :=
  ⟨rfl, rfl, rfl, fun _ => Or.inl le_rfl, fun _ => rfl, fun _ => rfl, fun _ => rfl⟩

theorem owners (sel : Selector S δ) (owners : Owners) : Calm sel { sel with owners := owners } :=
  ⟨rfl, rfl, rfl, fun _ => Or.inl le_rfl, fun _ => rfl, fun _ => rfl, fun _ => rfl⟩

theorem note (sel : Selector S δ) (e : SockEvent S) : Calm sel (sel.note e) :=
  ⟨rfl, rfl, rfl, fun _ => Or.inl le_rfl, fun _ => rfl, fun _ => rfl, fun _ => rfl⟩

/-- The completion of an operation. -/
theorem complete (sel : Selector S δ) (o : Overlapped) :
    Calm sel { sel with port := sel.port.complete o } :=
  ⟨rfl, rfl, rfl, fun o' => Or.inl (sel.port.complete_le o o'), fun _ => rfl, fun _ => rfl,
    fun _ => rfl⟩

end Calm

/-! ## The packets -/

namespace Delivers

variable {status : CompletionStatus} {o : Overlapped} {id : ℕ}

/-- A packet is the completion of an operation or the end marker. -/
theorem calm_or_posted (h : Delivers sel status o t) :
    (sel.port.outstanding o ≠ 0 ∧ Calm sel t) ∨
      (sel.port.posted o ≠ 0 ∧ status.flag = EventFlags.FLAG_ENDED ∧
        t = { sel with port := sel.port.take o }) := by
  cases h with
  | @read id bytes hout _ _ =>
      have hreceived := Calm.edit sel id (f := (·.receive bytes)) (fun _ => rfl) (fun _ => rfl)
        fun _ => rfl
      exact Or.inl ⟨hout, hreceived.trans (.complete _ _)⟩
  | write hout => exact Or.inl ⟨hout, .complete _ _⟩
  | posted hposted _ hflag => exact Or.inr ⟨hposted, hflag, rfl⟩

/-- The bytes of the packet are in the buffer of the event. -/
theorem room (h : Delivers sel status (.read id) t) :
    status.bytesTransferred ≤ (t.events id).buffer.readCache.length := by
  cases h with
  | read bytes _ hbytes _ =>
      have hevent : (sel.edit id (·.receive bytes)).events id = (sel.events id).receive bytes :=
        Function.update_self ..
      rw [hevent]
      simp only [Event.receive, List.length_append]
      exact hbytes ▸ Nat.le_add_right _ _
  | posted _ hbytes _ => exact hbytes ▸ Nat.zero_le _

/-- A packet leaves the kind of the event and its accept socket alone. -/
theorem listens (h : Delivers sel status o t) (id : ℕ) :
    (t.events id).entry = (sel.events id).entry ∧
      (t.events id).acceptSocket = (sel.events id).acceptSocket := by
  cases h with
  | @read id' bytes _ _ _ =>
      exact ⟨sel.edit_keeps id' (f := (·.receive bytes)) Event.entry (fun _ => rfl) id,
        sel.edit_keeps id' (f := (·.receive bytes)) Event.acceptSocket (fun _ => rfl) id⟩
  | write => exact ⟨rfl, rfl⟩
  | posted => exact ⟨rfl, rfl⟩

end Delivers

/-! ## The map of the selector -/

namespace Selector

/-- The packet is the end marker of the event, as far as the system tells. -/
structure Marker (sel : Selector S δ) (status : CompletionStatus) (id : ℕ) : Prop where
  posted : sel.port.posted (.read id) ≠ 0
  bytes : status.bytesTransferred = 0
  flag : status.flag = EventFlags.FLAG_ENDED

/-- Every entry of the map holds an event of its socket. -/
structure Keyed (sel : Selector S δ) : Prop where
  sockets : ∀ {socket id}, sel.eventMaps socket = some id →
    (sel.events id).asRawSocket = socket
  numbered : Numbered sel.eventMaps sel.count

namespace Keyed

section

variable (h : sel.Keyed)

include h

/-- Two sockets do not share an event. -/
theorem inj {socket socket' : S} {id : ℕ} (hs : sel.eventMaps socket = some id)
    (hs' : sel.eventMaps socket' = some id) : socket = socket' :=
  (h.sockets hs).symm.trans (h.sockets hs')

theorem edit (id : ℕ) {f : Event S δ → Event S δ}
    (hf : ∀ event, (f event).asRawSocket = event.asRawSocket) : (sel.edit id f).Keyed where
  sockets hs := (sel.edit_keeps id Event.asRawSocket hf _).trans (h.sockets hs)
  numbered := h.numbered

theorem calm (ht : Calm sel t) : t.Keyed where
  sockets hs := (ht.socket _).trans (h.sockets (ht.maps ▸ hs))
  numbered := by
    rw [ht.maps, ht.count]
    exact h.numbered

end

variable [DecidableEq S]

theorem remove_some {socket socket' : S} {id : ℕ}
    (hs : (sel.remove socket).eventMaps socket' = some id) :
    socket' ≠ socket ∧ sel.eventMaps socket' = some id := by
  have hne : socket' ≠ socket := by
    rintro rfl
    exact absurd ((Function.update_self ..).symm.trans hs) nofun
  exact ⟨hne, (Function.update_of_ne hne ..).symm.trans hs⟩

theorem insert_some {buffer : EventBuffer S} {entry : EventEntry S δ} {socket : S} {id : ℕ}
    (hs : (sel.insert buffer entry).eventMaps socket = some id) :
    (socket = buffer.asRawSocket ∧ id = sel.count) ∨ sel.eventMaps socket = some id := by
  by_cases hsocket : socket = buffer.asRawSocket
  · subst hsocket
    rw [sel.insert_maps, Option.some.injEq] at hs
    exact Or.inl ⟨rfl, hs.symm⟩
  · exact Or.inr ((Function.update_of_ne hsocket ..).symm.trans hs)

variable (h : sel.Keyed)

include h

theorem remove (socket : S) : (sel.remove socket).Keyed where
  sockets hs := h.sockets (remove_some hs).2
  numbered := h.numbered.remove socket

theorem insert (buffer : EventBuffer S) (entry : EventEntry S δ) :
    (sel.insert buffer entry).Keyed where
  sockets {socket id} hs := by
    rcases insert_some hs with ⟨rfl, rfl⟩ | hs
    · rw [sel.insert_new]
      rfl
    · rw [sel.insert_old buffer entry (h.numbered _ _ hs).ne]
      exact h.sockets hs
  numbered := h.numbered.insert buffer.asRawSocket

end Keyed

end Selector

/-- From the state on the code runs no callback, and its changes are calm. -/
structure Quiet (c : WinCode S δ α) (sel : Selector S δ) : Prop where
  wp : ∀ C : Contract (Selector S δ) (WinReply (S := S)),
    (∀ q sel r t, C.answers q sel r t → WinAsk.answer q sel r t) →
    (∀ q t, ¬ q.user → q ≠ .panic → C.asks q t) → c.wp C (fun _ => Calm sel) sel

namespace Quiet

theorem pure (a : α) : Quiet (Pure.pure a : WinCode S δ α) sel := ⟨fun _ _ _ => .refl sel⟩

theorem read {f : Selector S δ → WinCode S δ β} (h : Quiet (f sel) sel) :
    Quiet (Code.read >>= f) sel := ⟨h.wp⟩

theorem modify {f : Selector S δ → Selector S δ} (h : Calm sel (f sel)) :
    Quiet (.modify f) sel := ⟨fun _ _ _ => h⟩

theorem bind {c : WinCode S δ α} {f : α → WinCode S δ β} (hc : Quiet c sel)
    (hf : ∀ a t, Calm sel t → Quiet (f a) t) : Quiet (c >>= f) sel := by
  refine ⟨fun C hanswers hasks => (Code.wp_bind c f _ sel).mpr ?_⟩
  refine Code.wp_mono c (fun a t ht => ?_) (hc.wp C hanswers hasks)
  exact Code.wp_mono (f a) (fun _ _ hu => ht.trans hu) ((hf a t ht).wp C hanswers hasks)

theorem when {p : Prop} [Decidable p] {c : WinCode S δ Unit} (hc : p → Quiet c sel) :
    Quiet (.when p c) sel := by
  unfold Code.when
  split
  · exact hc ‹p›
  · exact pure ()

/-- A question to the system, and what follows its answer. -/
theorem ask {q : WinAsk S} {f : WinReply q → WinCode S δ β} (huser : ¬ q.user) (hpanic : q ≠ .panic)
    (hf : ∀ r t, WinAsk.answer q sel r t → Calm sel t ∧ Quiet (f r) t) :
    Quiet (Code.query q >>= f) sel := by
  refine ⟨fun C hanswers hasks => ⟨hasks q sel huser hpanic, fun r t ht => ?_⟩⟩
  obtain ⟨hcalm, hquiet⟩ := hf r t (hanswers q sel r t ht)
  exact Code.wp_mono (f r) (fun _ _ hu => hcalm.trans hu) (hquiet.wp C hanswers hasks)

theorem edit (id : ℕ) {f : Event S δ → Event S δ}
    (hsocket : ∀ event, (f event).asRawSocket = event.asRawSocket)
    (hend : ∀ event, (f event).isEnd = event.isEnd)
    (hcb : ∀ event, (f event).entry.end_ = event.entry.end_) : Quiet (Win.edit id f) sel :=
  modify (Calm.edit sel id hsocket hend hcb)

theorem freeUnowned (id : ℕ) : Quiet (Win.freeUnowned id) sel := by
  refine read (when fun _ => (modify (.owners sel _)).bind fun _ t _ => ?_)
  refine ⟨fun C hanswers hasks => ⟨hasks _ t (fun hu => hu) nofun, fun r u hu => ?_⟩⟩
  obtain rfl := hanswers _ t r u hu
  exact .refl u

theorem letGo (id : ℕ) : Quiet (Win.letGo id) sel :=
  (modify (.owners sel _)).bind fun _ _ _ => freeUnowned id

theorem writeOut {socket : S} {id : ℕ} (hmaps : sel.eventMaps socket = some id) :
    Quiet (Win.writeOut id) sel := by
  unfold Win.writeOut
  apply read
  split
  · exact pure _
  · refine ask (fun hu => hu) (by simp) ?_
    rintro (e | r) t ht
    · obtain rfl := ht
      exact ⟨.refl t, pure _⟩
    · obtain ⟨rfl, -⟩ := ht
      refine ⟨.enqueue (o := .write id) hmaps, ?_⟩
      cases r with
      | none => exact (modify (.takeAll ..)).bind fun _ _ _ => pure _
      | some n =>
          refine (modify (.takeFront ..)).bind fun _ _ _ => read ?_
          refine (when fun _ => edit id ?_ ?_ ?_).bind fun _ _ _ => pure _
          all_goals exact fun _ => rfl

theorem postAcceptEvent (socket : S) : Quiet (Win.postAcceptEvent socket) sel := by
  unfold Win.postAcceptEvent
  apply read
  cases hmaps : sel.eventMaps socket with
  | none => exact pure _
  | some id =>
      dsimp only
      split
      · exact pure _
      · refine ask (fun hu => hu) nofun ?_
        rintro (e | s) sel rfl
        · exact ⟨.refl sel, pure _⟩
        · have hset : Quiet (Win.edit id (·.setAcceptSocket (some s)) : WinCode S δ Unit) sel :=
            edit id (fun _ => rfl) (fun _ => rfl) fun _ => rfl
          refine ⟨.refl sel, hset.bind fun _ t ht => ?_⟩
          have hmaps' : t.eventMaps socket = some id := ht.maps ▸ hmaps
          refine ask (fun hu => hu) nofun ?_
          rintro (e | b) u hu
          · obtain rfl := hu
            exact ⟨.refl u, pure _⟩
          · obtain rfl := hu
            exact ⟨.enqueue (o := .read id) hmaps', pure _⟩

theorem postReadEvent (socket : S) : Quiet (Win.postReadEvent socket) sel := by
  unfold Win.postReadEvent
  apply read
  cases hmaps : sel.eventMaps socket with
  | none => exact pure _
  | some id =>
      dsimp only
      split
      · exact pure _
      · split
        · exact pure _
        · refine ask (fun hu => hu) nofun ?_
          rintro (e | n) t ht
          · obtain rfl := ht
            exact ⟨.refl t, pure _⟩
          · obtain rfl := ht
            exact ⟨.enqueue (o := .read id) hmaps, pure _⟩

theorem postWriteEvent (socket : S) (data : Option (List UInt8)) :
    Quiet (Win.postWriteEvent socket data) sel := by
  unfold Win.postWriteEvent
  apply read
  cases hmaps : sel.eventMaps socket with
  | none => exact pure _
  | some id =>
      have happend : Quiet (Win.appendData id data : WinCode S δ Unit) sel := by
        cases data with
        | none => exact pure _
        | some data =>
            refine (edit id ?_ ?_ ?_).bind fun _ t _ => modify (.note t _)
            all_goals exact fun _ => rfl
      refine happend.bind fun _ t ht => ?_
      have hmaps' : t.eventMaps socket = some id := ht.maps ▸ hmaps
      exact writeOut hmaps'

theorem checkSocketEvent (socket : S) : Quiet (Win.checkSocketEvent socket) sel := by
  unfold Win.checkSocketEvent
  apply read
  cases hmaps : sel.eventMaps socket with
  | none => exact pure _
  | some id =>
      dsimp only
      split
      · exact postAcceptEvent socket
      · have hread : Quiet (if (sel.events id).entry.evEvents.contains EventFlags.FLAG_READ then
            Win.postReadEvent socket else Pure.pure (.ok ())) sel := by
          split
          · exact postReadEvent socket
          · exact pure _
        refine hread.bind ?_
        rintro (e | _) t ht
        · exact pure _
        · dsimp only
          split
          · exact (postWriteEvent socket none).bind fun _ _ _ => pure _
          · exact pure _

end Quiet

end TdRevent.Win
