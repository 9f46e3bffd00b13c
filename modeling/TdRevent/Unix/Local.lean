import TdRevent.Unix.Maintains
import TdRevent.Interaction.Trace

/-!
# Code in which no callback runs

A backend puts only questions to the kernel, and changes only what the kernel
keeps and the buffer of received events. Where an event is dropped its owners
change too, and its socket may be closed. What the selector functions do around
such a call is then known up to these three.

## Implementation notes

`h` is what is kept of the buffer of received events.
-/

namespace TdRevent.Unix

open Interaction Discipline

variable {S δ E K Sys H : Type} {R : Sys → Type} {α β : Type}

/-- The states that differ in what a backend and a dropped event may change. -/
def Told (h : E → H) (sel t : Selector S δ E K) : Prop :=
  ∃ owners evts kernel, h evts = h sel.evts ∧
    t = { sel with owners := owners, evts := evts, kernel := kernel }

theorem Told.refl {h : E → H} (sel : Selector S δ E K) : Told h sel sel :=
  ⟨sel.owners, sel.evts, sel.kernel, rfl, rfl⟩

theorem Told.trans {h : E → H} {sel t u : Selector S δ E K} (hst : Told h sel t)
    (htu : Told h t u) : Told h sel u := by
  obtain ⟨owners, evts, kernel, hevts, rfl⟩ := hst
  obtain ⟨owners', evts', kernel', hevts', rfl⟩ := htu
  exact ⟨owners', evts', kernel', hevts'.trans hevts, rfl⟩

/-- The questions of the backend and those of a drop. -/
def SockAsk.Silent : SockAsk S Sys → Prop
  | .close _ => True
  | .sys _ => True
  | _ => False

theorem SockAsk.Silent.not_user {q : SockAsk S Sys} (hq : q.Silent) : ¬ q.user := by
  cases q with
  | close => exact fun hu => hu
  | sys => exact fun hu => hu
  | _ => exact hq.elim

/-- The code puts only silent questions. The states in which it puts
them are in the relation `A` to its start, its result and its end in `Q`. -/
structure Local (os : Os S K R) (A : Selector S δ E K → Selector S δ E K → Prop)
    (Q : α → Selector S δ E K → Selector S δ E K → Prop) (c : SockCode S δ E K R α) : Prop where
  wp : ∀ C : Contract (Selector S δ E K) (SockReply (S := S) R),
    (∀ q sel r t, q.Silent → C.answers q sel r t → SockAsk.answer os q sel r t) →
    ∀ sel, (∀ q t, q.Silent → A sel t → C.asks q t) → c.wp C (fun a t => Q a sel t) sel

/-- The code changes only what a backend and a dropped event may change. -/
abbrev Calls (os : Os S K R) (h : E → H) (c : SockCode S δ E K R α) : Prop :=
  Local os (Told h) (fun _ => Told h) c

namespace Local

variable {os : Os S K R} {h : E → H}

theorem pure (a : α) : Calls os h (Pure.pure a : SockCode S δ E K R α) :=
  ⟨fun _ _ sel _ => Told.refl sel⟩

theorem sys (q : Sys) :
    Calls os h (.query (SockAsk.sys q) : SockCode S δ E K R (R q)) := by
  refine ⟨fun C hanswers sel hasks => ⟨hasks _ sel trivial (Told.refl sel), fun r t ht => ?_⟩⟩
  obtain ⟨k, -, rfl⟩ := hanswers (.sys q) sel r t trivial ht
  exact ⟨sel.owners, sel.evts, k, rfl, rfl⟩

theorem close (socket : S) :
    Calls os h (.query (SockAsk.close socket) : SockCode S δ E K R Unit) := by
  refine ⟨fun C hanswers sel hasks => ⟨hasks _ sel trivial (Told.refl sel), fun r t ht => ?_⟩⟩
  obtain ⟨k, -, rfl⟩ := hanswers (.close socket) sel r t trivial ht
  exact ⟨sel.owners, sel.evts, k, rfl, rfl⟩

/-- Reading is local, if what follows is. -/
theorem read {A : Selector S δ E K → Selector S δ E K → Prop}
    {Q : β → Selector S δ E K → Selector S δ E K → Prop}
    {f : Selector S δ E K → SockCode S δ E K R β} (hf : ∀ sel, Local os A Q (f sel)) :
    Local os A Q (Code.read >>= f) :=
  ⟨fun C hanswers sel => (hf sel).wp C hanswers sel⟩

theorem modify_evts {f : Selector S δ E K → E} (hf : ∀ sel, h (f sel) = h sel.evts) :
    Calls os h (.modify fun sel => { sel with evts := f sel } : SockCode S δ E K R Unit) :=
  ⟨fun _ _ sel _ => ⟨sel.owners, f sel, sel.kernel, hf sel, rfl⟩⟩

theorem modify_owners (f : Selector S δ E K → Owners) :
    Calls os h (.modify fun sel => { sel with owners := f sel } : SockCode S δ E K R Unit) :=
  ⟨fun _ _ sel _ => ⟨f sel, sel.evts, sel.kernel, rfl, rfl⟩⟩

theorem when {p : Prop} [Decidable p] {c : SockCode S δ E K R Unit} (hc : Calls os h c) :
    Calls os h (.when p c) := by
  unfold Code.when
  split
  · exact hc
  · exact pure ()

theorem bind {c : SockCode S δ E K R α} {f : α → SockCode S δ E K R β}
    (hc : Calls os h c) (hf : ∀ a, Calls os h (f a)) : Calls os h (c >>= f) := by
  refine ⟨fun C hanswers sel hasks => (Code.wp_bind c f _ sel).mpr ?_⟩
  refine Code.wp_mono c (fun a t ht => ?_) (hc.wp C hanswers sel hasks)
  have hrest := (hf a).wp C hanswers t fun q u hq hu => hasks q u hq (ht.trans hu)
  exact Code.wp_mono (f a) (fun _ _ hu => ht.trans hu) hrest

/-- A change, then a call of the backend that is told the result. -/
theorem edit_then {g : Selector S δ E K → Selector S δ E K}
    {f : Selector S δ E K → SockCode S δ E K R α} (hf : ∀ sel, Calls os h (f sel)) :
    Local os (fun sel t => Told h (g sel) t) (fun _ sel t => Told h (g sel) t) (do
      .modify g
      let sel ← .read
      f sel) :=
  ⟨fun C hanswers sel => (hf (g sel)).wp C hanswers (g sel)⟩

variable [DecidableEq S]

theorem freeUnowned (id : ℕ) :
    Calls os h (Unix.freeUnowned id : SockCode S δ E K R Unit) :=
  .read fun _ => .when (.bind (.modify_owners _) fun _ => .close _)

theorem letGo (id : ℕ) : Calls os h (Unix.letGo id : SockCode S δ E K R Unit) :=
  .bind (.modify_owners _) fun _ => .freeUnowned id

/-- A number is taken out of the map. -/
theorem removeEvent (socket : S) :
    Local os (fun sel t => Told h (sel.remove socket) t)
      (fun _ sel t => Told h (sel.remove socket) t)
      (Unix.removeEvent socket : SockCode S δ E K R Unit) := by
  refine ⟨fun C hanswers sel hasks => (Code.wp_bind _ _ _ _).mpr ?_⟩
  rw [Code.wp_read]
  cases hmaps : sel.eventMaps socket with
  | none =>
      rw [Selector.remove_of_none hmaps]
      exact Told.refl sel
  | some id => exact (freeUnowned id).wp C hanswers (sel.remove socket) hasks

end Local

/-- The calls of the backend leave the events alone. -/
structure Backend.IsLocal (B : Backend S δ E K R) (os : Os S K R) (h : E → H) : Prop where
  add : ∀ socket evEvents, Calls os h (B.add socket evEvents)
  change : ∀ socket evEvents, Calls os h (B.change socket evEvents)
  wantWrite : ∀ socket evEvents, Calls os h (B.wantWrite socket evEvents)
  dropWrite : ∀ socket evEvents, Calls os h (B.dropWrite socket evEvents)
  deregister : ∀ socket evEvents, Calls os h (B.deregister socket evEvents)

namespace Backend.IsLocal

variable {B : Backend S δ E K R} {os : Os S K R} {h : E → H}

/-- `writeOver` takes the wish for write events back. -/
theorem writeOver (hB : B.IsLocal os h) (id : ℕ) :
    Local os (fun sel t => Told h (sel.edit id Event.disarm) t)
      (fun _ sel t => Told h (sel.edit id Event.disarm) t) (Unix.writeOver B id) :=
  .edit_then fun _ => (hB.dropWrite ..).bind fun _ => .pure ()

/-- `changeEvent` merges the entry. -/
theorem changeEvent (hB : B.IsLocal os h) (id : ℕ) (isDel : Bool) (socket : S)
    (entry : EventEntry S δ) :
    Local os (fun sel t => Told h (sel.edit id (·.merge isDel entry)) t)
      (fun _ sel t => Told h (sel.edit id (·.merge isDel entry)) t)
      (Unix.changeEvent B id isDel socket entry) :=
  .edit_then fun _ => hB.change ..

/-- `sendSocket` appends the data, and asks for write events unless it did so
before or there is nothing to write. -/
theorem sendSocket (hB : B.IsLocal os h) (socket : S) (data : List UInt8) :
    Local os
      (fun sel t => ∃ id, sel.eventMaps socket = some id ∧
        Told h (((sel.edit id (·.append data)).note (.sent id data)).edit id Event.arm) t)
      (fun _ sel t =>
        t = sel ∧ sel.eventMaps socket = none ∨
        ∃ id, sel.eventMaps socket = some id ∧
          let u := (sel.edit id (·.append data)).note (.sent id data)
          t = u ∧ ((u.events id).buffer.isInWrite = true ∨
            (u.events id).buffer.write.val = []) ∨
          Told h (u.edit id Event.arm) t ∧ (u.events id).buffer.isInWrite = false ∧
            (u.events id).buffer.write.val ≠ [])
      (Unix.sendSocket B socket data) := by
  refine ⟨fun C hanswers sel hasks => ?_⟩
  unfold Unix.sendSocket
  simp only [Code.wp_bind, Code.wp_read]
  cases hmaps : sel.eventMaps socket with
  | none => exact Or.inl ⟨rfl, rfl⟩
  | some id =>
      refine Code.wp_mono _ (fun r t ht => Or.inr ⟨id, rfl, ht⟩) ?_
      simp only [Code.wp_bind, Unix.edit, Code.wp_modify, Code.wp_read]
      split
      · rename_i hidle
        exact Or.inl ⟨rfl, hidle.imp_right (Buffer.empty_iff _).mp⟩
      · rename_i hidle
        obtain ⟨hflag, hval⟩ := not_or.mp hidle
        simp only [Code.wp_bind, Code.wp_modify, Code.wp_read]
        refine Code.wp_mono _ (fun r t ht => ?_) ((hB.wantWrite ..).wp C hanswers _
          fun q t hq ht => hasks q t hq ⟨id, hmaps, ht⟩)
        have hval' := mt (Buffer.empty_iff _).mpr hval
        cases r with
        | ok _ => exact Or.inr ⟨ht, by simpa using hflag, hval'⟩
        | error e => exact Or.inr ⟨ht, by simpa using hflag, hval'⟩

variable [DecidableEq S]

/-- `registerSocket` takes the old event out of the map, puts the new one in, and takes
it out again if the kernel refuses it. -/
theorem registerSocket (hB : B.IsLocal os h) (buffer : EventBuffer S) (entry : EventEntry S δ) :
    Local os
      (fun sel t => Told h (sel.remove buffer.asRawSocket) t ∨
        ∃ u, Told h (sel.insert buffer entry) u ∧
          (t = u ∨ Told h (u.remove buffer.asRawSocket) t))
      (fun _ sel t => ∃ u, Told h (sel.insert buffer entry) u ∧
        (t = u ∨ Told h (u.remove buffer.asRawSocket) t))
      (Unix.registerSocket B buffer entry) := by
  refine ⟨fun C hanswers sel hasks => ?_⟩
  unfold Unix.registerSocket addEvent
  simp only [Code.wp_bind, Code.wp_modify]
  refine Code.wp_mono _ (fun _ v hv => ?_) ((Local.removeEvent _).wp C hanswers sel
    fun q t hq ht => hasks q t hq (Or.inl ht))
  have hinserted : ∀ {u}, Told h (v.insert buffer entry) u →
      Told h (sel.insert buffer entry) u := by
    obtain ⟨owners, evts, kernel, hevts, rfl⟩ := hv
    rintro _ ⟨owners', evts', kernel', hevts', rfl⟩
    refine ⟨owners', evts', kernel', hevts'.trans hevts, ?_⟩
    rw [← sel.remove_insert]
    rfl
  refine Code.wp_mono _ (fun r u hu => ?_) ((hB.add ..).wp C hanswers _ fun q t hq ht =>
    hasks q t hq (Or.inr ⟨t, hinserted ht, Or.inl rfl⟩))
  cases r with
  | ok _ => exact ⟨u, hinserted hu, Or.inl rfl⟩
  | error e =>
      simp only [Code.wp_bind]
      refine Code.wp_mono _ (fun _ t ht => ⟨u, hinserted hu, Or.inr ht⟩) ((Local.removeEvent _).wp
        C hanswers u fun q t hq ht => hasks q t hq (Or.inr ⟨u, hinserted hu, Or.inr ht⟩))

end Backend.IsLocal

/-- Local code keeps a discipline if its relation does. -/
theorem Local.safe [DecidableEq S] {B : Backend S δ E K R} {os : Os S K R}
    {doSelect : SockCode S δ E K R Unit}
    {ok : Selector S δ E K → Move (SockReply (S := S) R) (SockCall S δ) → Prop}
    {D : Discipline (Selector S δ E K) (SockReply (S := S) R)} {sel : Selector S δ E K}
    {A : Selector S δ E K → Selector S δ E K → Prop}
    {P : α → Selector S δ E K → Selector S δ E K → Prop} {c : SockCode S δ E K R α}
    (hc : Local os A P c) (hguard : ∀ q t, q.Silent → A sel t → D.guard q t)
    {Q : α → Selector S δ E K → Prop} (hQ : ∀ r t, P r sel t → Q r t ∧ D.rel sel t) :
    D.Safe (unixRuns B os doSelect ok) c Q sel := by
  refine Code.wp_mono c hQ (hc.wp (D.contract (unixRuns B os doSelect ok)) ?_ sel ?_)
  · rintro q t r u hq (⟨-, hu, -⟩ | ⟨hu, -⟩)
    · exact hu
    · exact absurd hu hq.not_user
  · exact fun q t hq ht => ⟨hguard q t hq ht, fun hu => absurd hu hq.not_user⟩

/-! ## Invariants of the registry -/

/-- Every call of the backend is in the relation `T` to its start. -/
structure Backend.Does (B : Backend S δ E K R) (os : Os S K R)
    (T : Selector S δ E K → Selector S δ E K → Prop) : Prop where
  add : ∀ socket evEvents, Local os (fun _ _ => True) (fun _ => T) (B.add socket evEvents)
  change : ∀ socket evEvents, Local os (fun _ _ => True) (fun _ => T) (B.change socket evEvents)
  wantWrite : ∀ socket evEvents,
    Local os (fun _ _ => True) (fun _ => T) (B.wantWrite socket evEvents)
  dropWrite : ∀ socket evEvents,
    Local os (fun _ _ => True) (fun _ => T) (B.dropWrite socket evEvents)
  deregister : ∀ socket evEvents,
    Local os (fun _ _ => True) (fun _ => T) (B.deregister socket evEvents)

/-- Local code wherever the environment allows every question. -/
theorem Local.anywhere {os : Os S K R} {A : Selector S δ E K → Selector S δ E K → Prop}
    {Q : α → Selector S δ E K → Selector S δ E K → Prop} {c : SockCode S δ E K R α}
    (hc : Local os A Q c) : Local os (fun _ _ => True) Q c :=
  ⟨fun C hanswers sel hasks => hc.wp C hanswers sel fun q t hq _ => hasks q t hq trivial⟩

theorem Local.exec {os : Os S K R}
    {Q : α → Selector S δ E K → Selector S δ E K → Prop} {c : SockCode S δ E K R α}
    (hc : Local os (fun _ _ => True) Q c)
    {ans : (q : SockAsk S Sys) → Selector S δ E K → SockReply R q → Selector S δ E K → Prop}
    (hans : ∀ q sel r t, q.Silent → ans q sel r t → SockAsk.answer os q sel r t)
    {sel t : Selector S δ E K} {a : α} (hexec : c.Exec ans sel a t) : Q a sel t :=
  Code.wp_exec c (hc.wp ⟨fun _ _ => True, ans⟩ hans sel fun _ _ _ _ => trivial) hexec

/-- In an execution, local code puts only silent questions. -/
theorem Local.trace {os : Os S K R}
    {Q : α → Selector S δ E K → Selector S δ E K → Prop} {c : SockCode S δ E K R α}
    (hc : Local os (fun _ _ => True) Q c)
    {ans : (q : SockAsk S Sys) → Selector S δ E K → SockReply R q → Selector S δ E K → Prop}
    (hans : ∀ q sel r t, q.Silent → ans q sel r t → SockAsk.answer os q sel r t)
    {sel t : Selector S δ E K} {tr : List (Exchange (Selector S δ E K) (SockReply (S := S) R))}
    {a : α} (htrace : c.Trace ans sel tr a t) :
    (∀ x ∈ tr, x.question.Silent) ∧ Q a sel t :=
  Code.wp_trace c (hc.wp ⟨fun q _ => q.Silent, ans⟩ hans sel fun _ _ hq _ => hq) htrace

theorem Backend.IsLocal.does {B : Backend S δ E K R} {os : Os S K R} {h : E → H}
    (hB : B.IsLocal os h) : B.Does os (Told h) where
  add socket evEvents := (hB.add socket evEvents).anywhere
  change socket evEvents := (hB.change socket evEvents).anywhere
  wantWrite socket evEvents := (hB.wantWrite socket evEvents).anywhere
  dropWrite socket evEvents := (hB.dropWrite socket evEvents).anywhere
  deregister socket evEvents := (hB.deregister socket evEvents).anywhere

/-- An invariant that depends neither on the contents of the events nor on the
kernel. Registrations may happen, under a condition, and removals always. -/
structure RegistryInvariant [DecidableEq S] (T : Selector S δ E K → Selector S δ E K → Prop)
    (ok : Selector S δ E K → Move (SockReply (S := S) R) (SockCall S δ) → Prop)
    (inv : Selector S δ E K → Prop) : Prop where
  edit : ∀ {sel} id {f : Event S δ → Event S δ}, inv sel →
    (∀ event, (f event).asRawSocket = event.asRawSocket) → inv (sel.edit id f)
  note : ∀ {sel} e, inv sel → inv (sel.note e)
  kernel : ∀ {sel} k, inv sel → inv { sel with kernel := k }
  owners : ∀ {sel} o, inv sel → inv { sel with owners := o }
  told : ∀ {sel t}, inv sel → T sel t → inv t
  remove : ∀ {sel} socket, inv sel → inv (sel.remove socket)
  insert : ∀ {sel buffer entry}, inv sel → ok sel (.call (.registerSocket buffer entry)) →
    inv (sel.insert buffer entry)

namespace RegistryInvariant

variable [DecidableEq S] {B : Backend S δ E K R} {os : Os S K R} {select : SockCode S δ E K R Unit}
  {T : Selector S δ E K → Selector S δ E K → Prop}
  {ok : Selector S δ E K → Move (SockReply (S := S) R) (SockCall S δ) → Prop}
  {inv : Selector S δ E K → Prop} {sel : Selector S δ E K}
  {A : Selector S δ E K → Selector S δ E K → Prop} {f : Selector S δ E K → Selector S δ E K}

theorem calls (hi : RegistryInvariant T ok inv) {c : SockCode S δ E K R α}
    (hc : Local os (fun _ _ => True) (fun _ => T) c) (hsel : inv sel) :
    Keeps B os select ok (ofInv inv) c sel :=
  hc.safe (fun _ _ _ _ => trivial) fun _ _ ht => ⟨hi.told hsel ht, trivial⟩

/-- Code in which an event is dropped. -/
theorem drops (hi : RegistryInvariant T ok inv) {c : SockCode S δ E K R α}
    (hc : Local os A (fun _ sel t => Told id (f sel) t) c) (hsel : inv (f sel)) :
    Keeps B os select ok (ofInv inv) c sel := by
  refine hc.safe (fun _ _ _ _ => trivial) ?_
  rintro _ _ ⟨owners, evts, kernel, rfl, rfl⟩
  exact ⟨hi.owners owners (hi.kernel kernel hsel), trivial⟩

theorem writeOver (hi : RegistryInvariant T ok inv) (hB : B.Does os T) (id : ℕ)
    (hsel : inv sel) : Keeps B os select ok (ofInv inv) (Unix.writeOver B id) sel := by
  have hdisarmed := hi.edit id (f := Event.disarm) hsel fun _ => rfl
  refine Safe.bind (Safe.modify (Safe.read_then (Safe.bind ?_)) trivial)
  exact (hi.calls (hB.dropWrite ..) hdisarmed).mono fun _ _ ht => Safe.pure ht

theorem registerSocket (hi : RegistryInvariant T ok inv) (hB : B.Does os T)
    (buffer : EventBuffer S) (entry : EventEntry S δ)
    (hok : ok sel (.call (.registerSocket buffer entry))) (hsel : inv sel) :
    Keeps B os select ok (ofInv inv) (Unix.registerSocket B buffer entry) sel := by
  have hinserted := hi.insert hsel hok
  rw [← Selector.remove_insert] at hinserted
  have hremoved : (ofInv inv).Safe (unixRuns B os select ok)
      (removeEvent buffer.asRawSocket) (fun _ t => inv (t.insert buffer entry)) sel := by
    refine (Local.removeEvent (h := id) _).safe (fun _ _ _ _ => trivial) ?_
    rintro _ _ ⟨owners, evts, kernel, rfl, rfl⟩
    exact ⟨hi.owners (owners.enroll sel.count) (hi.kernel kernel hinserted), trivial⟩
  refine Safe.bind (hremoved.mono fun _ u hu => Safe.bind (Safe.modify (Safe.bind ?_) trivial))
  refine (hi.calls (hB.add ..) hu).mono fun r t ht => ?_
  cases r with
  | ok _ => exact Safe.pure ht
  | error e =>
      exact Safe.bind ((hi.drops (Local.removeEvent _) (hi.remove _ ht)).mono
        fun _ _ hv => Safe.pure hv)

theorem sendSocket (hi : RegistryInvariant T ok inv) (hB : B.Does os T) (socket : S)
    (data : List UInt8) (hsel : inv sel) :
    Keeps B os select ok (ofInv inv) (Unix.sendSocket B socket data) sel := by
  unfold Unix.sendSocket
  apply Safe.read_then
  cases sel.eventMaps socket with
  | none => exact Safe.pure hsel
  | some id =>
      have hsent := hi.note (.sent id data)
        (hi.edit id (f := (·.append data)) hsel fun _ => rfl)
      refine Safe.bind (Safe.modify (Safe.bind (Safe.modify (Safe.read_then ?_) trivial)) trivial)
      split
      · exact Safe.pure hsent
      · have harmed := hi.edit id (f := Event.arm) hsent fun _ => rfl
        refine Safe.bind (Safe.modify (Safe.read_then (Safe.bind ?_)) trivial)
        refine (hi.calls (hB.wantWrite ..) harmed).mono fun r t ht => ?_
        cases r with
        | ok _ => exact Safe.pure ht
        | error e => exact Safe.pure ht

/-- Every piece of a selector keeps the invariant. -/
theorem maintains (hi : RegistryInvariant T ok inv) (hB : B.Does os T) :
    Maintains B os select ok (ofInv inv) fun _ => True where
  guard _ _ _ _ := trivial
  guardClose _ _ _ _ _ := trivial
  editBuffer _ _ _ hsel _ hf := ⟨hi.edit _ hsel fun event => hf event.buffer, trivial⟩
  fill _ _ _ hsel := ⟨hi.edit _ hsel fun _ => rfl, trivial⟩
  fail _ _ _ hsel := ⟨hi.edit _ hsel fun _ => rfl, trivial⟩
  takeData _ _ hsel := ⟨hi.edit _ hsel fun _ => rfl, trivial⟩
  drain _ _ id len hsel _ _ :=
    have hdrained := hi.note _ (hi.edit id (f := (·.drain len)) hsel fun _ => rfl)
    ⟨trivial, trivial, fun _ => hdrained, fun _ _ => hi.writeOver hB id hdrained⟩
  idle _ _ id hsel _ _ _ := hi.writeOver hB id hsel
  opens _ _ k hsel _ := ⟨hi.kernel k hsel, trivial⟩
  unlink _ _ _ := trivial
  closes _ socket _ k hsel _ _ := ⟨hi.kernel k (hi.owners _ (hi.remove socket hsel)), trivial⟩
  hold _ _ hsel := ⟨hi.owners _ hsel, trivial⟩
  release _ id hsel := hi.drops (f := fun sel => sel) (Local.letGo id) hsel
  register _ buffer entry hsel hok := hi.registerSocket hB buffer entry hok hsel
  change _ isDel _ entry _ hsel _ _ :=
    have hmerged := hi.edit _ (f := (·.merge isDel entry)) hsel fun _ => rfl
    Safe.bind (Safe.modify (Safe.read_then ((hi.calls (hB.change ..) hmerged).mono
      fun _ _ ht => ⟨ht, fun _ _ => trivial⟩)) trivial)
  send _ socket data hsel _ := hi.sendSocket hB socket data hsel
  deregister _ _ hsel _ _ := hi.calls (hB.deregister ..) hsel
  ended _ _ _ hsel _ _ := hi.calls (hB.deregister ..) hsel
  dropKeep _ _ _ _ := trivial
  dropCall _ _ _ := trivial
  dropAccept _ _ _ _ := trivial
  dropRead _ _ _ := trivial
  dropEof _ _ _ _ _ _ := trivial
  dropWrite _ _ _ _ _ _ := trivial

end RegistryInvariant

end TdRevent.Unix
