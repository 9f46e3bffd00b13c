import TdRevent.Win.Duties

/-!
# Nothing stalls on Windows

Every function of the selector has an operation outstanding at its end for everything
that the events want. A handler that was started by a completion owes the next operation
while it waits for its callback, and it alone. So whenever user code runs, only events
whose handlers wait can lack an operation.
-/

namespace TdRevent.Win

open Interaction

variable {S δ α : Type}

/-! ## The posts -/

variable [DecidableEq S] {ok : Selector S δ → Move (WinReply (S := S)) (WinCall S δ) → Prop}
  {writing : Prop} {i sel : Selector S δ}

/-- Code that was called in `i` and owes the operations. -/
abbrev Owes (ok : Selector S δ → Move (WinReply (S := S)) (WinCall S δ) → Prop) (writing : Prop)
    (i : Selector S δ) (c : WinCode S δ α) (Q : α → Selector S δ → Prop)
    (sel : Selector S δ) : Prop := (duties writing).Safe (winRuns ok) i c Q sel

/-- The system refuses no write, if writing counts. -/
def Accepting (ok : Selector S δ → Move (WinReply (S := S)) (WinCall S δ) → Prop)
    (writing : Prop) : Prop :=
  writing → ∀ sel socket data o e, ¬ ok sel (.answer (.writeOverlapped socket data o) (.error e))

namespace Owes

open Promises

theorem postAcceptEvent (socket : S) (hsel : Marks sel) :
    Owes ok writing i (Win.postAcceptEvent socket) (fun ret t => sel.Tame t ∧
      (ret = .ok () → ∀ id, sel.eventMaps socket = some id → t.Serves id →
        t.Carries .accept id)) sel := by
  unfold Win.postAcceptEvent
  apply Safe.read_then
  cases hmaps : sel.eventMaps socket with
  | none => exact Safe.pure ⟨.refl sel, fun _ _ h => by cases h⟩
  | some id =>
      dsimp only
      split
      · rename_i hin
        refine Safe.pure ⟨.refl sel, fun _ id' h hserves => ?_⟩
        obtain rfl := Option.some.inj h
        exact hsel.marked .accept id hserves hin
      · refine Safe.bind (Safe.ask (fun hu => hu) ?_)
        rintro (e | s) t ⟨ht, -⟩
        · obtain rfl := ht
          exact Safe.pure ⟨.refl t, fun h => by cases h⟩
        · obtain rfl := ht
          have hset : t.Tame (t.edit id (·.setAcceptSocket (some s))) :=
            .edit t id (.of_same rfl rfl rfl rfl rfl rfl)
          refine Safe.bind (Safe.modify (Safe.bind (Safe.ask (fun hu => hu) ?_)))
          rintro (e | b) u ⟨hu, -⟩
          · obtain rfl := hu
            exact Safe.pure ⟨hset, fun h => by cases h⟩
          · obtain rfl := hu
            refine Safe.pure ⟨hset.trans (.enqueue _ _), fun _ id' h _ => ?_⟩
            obtain rfl := Option.some.inj h
            exact Port.carries_enqueue _ _

theorem postReadEvent (socket : S) (hsel : Marks sel) :
    Owes ok writing i (Win.postReadEvent socket) (fun ret t => sel.Tame t ∧
      (ret = .ok () → ∀ id, sel.eventMaps socket = some id → t.Serves id →
        t.Carries .read id)) sel := by
  unfold Win.postReadEvent
  apply Safe.read_then
  cases hmaps : sel.eventMaps socket with
  | none => exact Safe.pure ⟨.refl sel, fun _ _ h => by cases h⟩
  | some id =>
      dsimp only
      split
      · rename_i hend
        refine Safe.pure ⟨.refl sel, fun _ id' h hserves => ?_⟩
        obtain rfl := Option.some.inj h
        exact absurd (hserves.2.symm.trans hend) Bool.false_ne_true
      · split
        · rename_i hin
          refine Safe.pure ⟨.refl sel, fun _ id' h hserves => ?_⟩
          obtain rfl := Option.some.inj h
          exact hsel.marked .read id hserves hin
        · refine Safe.bind (Safe.ask (fun hu => hu) ?_)
          rintro (e | n) t ⟨ht, -⟩
          · obtain rfl := ht
            exact Safe.pure ⟨.refl t, fun h => by cases h⟩
          · obtain rfl := ht
            refine Safe.pure ⟨.enqueue sel _, fun _ id' h _ => ?_⟩
            obtain rfl := Option.some.inj h
            exact Port.carries_enqueue _ _

theorem writeOut (haccepting : Accepting ok writing) (id : ℕ) (hsel : Marks sel) :
    Owes ok writing i (Win.writeOut id) (fun _ t => sel.Tame t ∧
      (writing → t.Armed .write id)) sel := by
  unfold Win.writeOut
  apply Safe.read_then
  split
  · rename_i hstopped
    refine Safe.pure ⟨.refl sel, fun _ hserves hwants => ?_⟩
    rcases hstopped with hin | hempty | hend
    · exact hsel.marked .write id hserves hin
    · exact absurd ((Buffer.empty_iff _).mp hempty) hwants
    · exact absurd (hserves.2.symm.trans hend) Bool.false_ne_true
  · refine Safe.bind (Safe.ask (fun hu => hu) ?_)
    rintro (e | r) t ⟨ht, hok⟩
    · obtain rfl := ht
      exact Safe.pure ⟨.refl t, fun hw => (haccepting hw _ _ _ _ _ hok).elim⟩
    · obtain ⟨rfl, -⟩ := ht
      have hposted : sel.Tame { sel with port := sel.port.enqueue (.write id) } := .enqueue sel _
      have hcarries : ∀ {t : Selector S δ}, t.port = sel.port.enqueue (.write id) →
          t.Carries .write id := by
        rintro t ht
        rw [Selector.Carries, ht]
        exact Port.carries_enqueue _ _
      cases r with
      | none =>
          refine Safe.bind (Safe.modify (Safe.pure ⟨hposted.trans (.port _ fun _ ho => ho), ?_⟩))
          exact fun _ _ _ => hcarries rfl
      | some n =>
          have htaken := hposted.trans (.takeFront _ id n)
          refine Safe.bind (Safe.modify (Safe.read_then (Safe.bind (Safe.when ?_ ?_))))
          · intro _
            refine Safe.modify (Safe.pure ⟨htaken.trans (.mark _ id rfl (fun h => h) ?_ ?_), ?_⟩)
            · exact fun post h => by cases post <;> exact h
            · intro post h
              cases post with
              | write => exact Or.inr fun _ => hcarries rfl
              | accept => exact Or.inl h
              | read => exact Or.inl h
            · exact fun _ _ _ => hcarries rfl
          · exact fun _ => Safe.pure ⟨htaken, fun _ _ _ => hcarries rfl⟩

theorem postWriteEvent (haccepting : Accepting ok writing) (socket : S) (hsel : Marks sel) :
    Owes ok writing i (Win.postWriteEvent socket none) (fun _ t => sel.Tame t ∧
      (writing → ∀ id, sel.eventMaps socket = some id → t.Armed .write id)) sel := by
  unfold Win.postWriteEvent
  apply Safe.read_then
  cases hmaps : sel.eventMaps socket with
  | none => exact Safe.pure ⟨.refl sel, fun _ _ h => by cases h⟩
  | some id =>
      refine Safe.bind (Safe.pure ((writeOut haccepting id hsel).mono fun _ t ht => ?_))
      refine ⟨ht.1, fun hw id' h => ?_⟩
      obtain rfl := Option.some.inj h
      exact ht.2 hw

/-- The checks post what the event wants to accept or to read. -/
theorem checkSocketEvent (haccepting : Accepting ok writing) (socket : S) (hsel : Marks sel) :
    Owes ok writing i (Win.checkSocketEvent socket) (fun ret t => sel.Tame t ∧
      (ret = .ok () → ∀ id, sel.eventMaps socket = some id →
        t.Armed .accept id ∧ t.Armed .read id)) sel := by
  unfold Win.checkSocketEvent
  apply Safe.read_then
  cases hmaps : sel.eventMaps socket with
  | none => exact Safe.pure ⟨.refl sel, fun _ _ h => by cases h⟩
  | some id =>
      dsimp only
      split
      · rename_i hflag
        refine (postAcceptEvent socket hsel).mono fun ret t ht => ⟨ht.1, fun hret id' h => ?_⟩
        obtain rfl := Option.some.inj h
        exact ⟨fun hserves _ => ht.2 hret id hmaps hserves,
          fun _ hwants => absurd hflag (ht.1.wants .read id hwants).1⟩
      · rename_i hflag
        have haccept : ∀ {t}, sel.Tame t → t.Armed .accept id :=
          fun ht _ hwants => absurd (ht.wants .accept id hwants) hflag
        have hfirst : Owes ok writing i
            (if (sel.events id).entry.evEvents.contains EventFlags.FLAG_READ then
              Win.postReadEvent socket else pure (.ok ()))
            (fun ret t => sel.Tame t ∧ (ret = .ok () → t.Armed .read id)) sel := by
          split
          · refine (postReadEvent socket hsel).mono fun ret t ht => ⟨ht.1, fun hret => ?_⟩
            exact fun hserves _ => ht.2 hret id hmaps hserves
          · rename_i hread
            exact Safe.pure ⟨.refl sel, fun _ _ hwants => absurd hwants.2 hread⟩
        refine Safe.bind (hfirst.mono ?_)
        rintro (e | _) t ⟨ht, hread⟩
        · exact Safe.pure ⟨ht, fun h => by cases h⟩
        · dsimp only
          split
          · refine Safe.bind ((postWriteEvent haccepting socket (hsel.tame ht)).mono ?_)
            rintro ret u ⟨hu, -⟩
            refine Safe.pure ⟨ht.trans hu, fun _ id' h => ?_⟩
            obtain rfl := Option.some.inj h
            exact ⟨haccept (ht.trans hu), hu.armed (hread rfl)⟩
          · refine Safe.pure ⟨ht, fun _ id' h => ?_⟩
            obtain rfl := Option.some.inj h
            exact ⟨haccept ht, hread rfl⟩

/-! ## The owners -/

theorem freeUnowned (id : ℕ) (sel : Selector S δ) :
    Owes ok writing i (Win.freeUnowned id) (fun _ => sel.Tame) sel := by
  refine Safe.read_then (Safe.when (fun _ => ?_) fun _ => .refl sel)
  exact Safe.bind (Safe.modify (Safe.ask (fun hu => hu) fun _ _ ht => ht.1 ▸ .owners sel _))

theorem removeEvent (socket : S) (sel : Selector S δ) :
    Owes ok writing i (Win.removeEvent socket) (fun _ => (sel.remove socket).Tame) sel := by
  refine Safe.read_then ?_
  cases hmaps : sel.eventMaps socket with
  | none =>
      refine Safe.pure ?_
      rw [Selector.remove_of_none hmaps]
      exact .refl sel
  | some id => exact Safe.bind (Safe.modify (freeUnowned id _))

/-- A handler is owed what it was owed without its reference to the event. -/
theorem holding {id : ℕ} {handler : WinCode S δ Unit} {Q : Selector S δ → Prop}
    (hQ : ∀ {t u : Selector S δ}, t.Tame u → Q t → Q u)
    (h : Owes ok writing i handler (fun _ => Q) (sel.hold id)) :
    Owes ok writing i (Win.holding id handler) (fun _ => Q) sel := by
  refine Safe.bind (Safe.modify (Safe.bind (h.mono fun _ t ht => Safe.bind (Safe.modify ?_))))
  exact (freeUnowned id _).mono fun _ u hu => hQ hu (hQ (.owners t _) ht)

/-! ## The end of an event -/

theorem unregisterSocket (socket : S) (sel : Selector S δ) :
    Owes ok writing i (Win.unregisterSocket socket) (fun _ t => sel.Tame t ∧
      ∀ id, sel.eventMaps socket = some id → ¬ t.Serves id) sel := by
  unfold Win.unregisterSocket
  apply Safe.read_then
  cases hmaps : sel.eventMaps socket with
  | none => exact Safe.pure ⟨.refl sel, fun _ h => by cases h⟩
  | some id =>
      dsimp only
      split
      · rename_i hend
        refine Safe.pure ⟨.refl sel, fun id' h hserves => ?_⟩
        obtain rfl := Option.some.inj h
        exact absurd (hserves.2.symm.trans hend) Bool.false_ne_true
      · have hshut : sel.Tame (sel.shut id) := .owners sel _
        refine Safe.bind (Safe.modify (Safe.bind (Safe.ask (fun hu => hu) ?_)))
        rintro ⟨⟩ t ⟨ht, -⟩
        obtain rfl := ht
        have hended : (sel.shut id).Tame ((sel.shut id).edit id Event.end_) :=
          .edit _ id ⟨rfl, fun h => absurd h.symm Bool.false_ne_true, fun _ h => h, fun _ h => h⟩
        have hgone : ∀ {u : Selector S δ}, u.events = ((sel.shut id).edit id Event.end_).events →
            ∀ id', some id = some id' → ¬ u.Serves id' := by
          intro u hu id' h hserves
          obtain rfl := Option.some.inj h
          have hend := hserves.2
          rw [hu, (sel.shut id).edit_self] at hend
          exact absurd hend.symm Bool.false_ne_true
        refine Safe.bind (Safe.modify (Safe.ask (fun hu => hu) ?_))
        rintro (e | _) u ⟨hu, -⟩
        · obtain rfl := hu
          exact ⟨hshut.trans hended, hgone rfl⟩
        · obtain rfl := hu
          exact ⟨hshut.trans (hended.trans (.port _ fun _ ho => ho)), hgone rfl⟩

/-- An event that is in the map is there under its socket. -/
theorem dropEvent (id : ℕ) (hsel : sel.Keyed) :
    Owes ok writing i (Win.dropEvent id) (fun _ t => sel.Tame t ∧ ¬ t.Serves id) sel := by
  refine Safe.read_then (Safe.bind ((unregisterSocket _ sel).mono fun _ t ht => ?_))
  refine Safe.pure ⟨ht.1, fun hserves => ?_⟩
  obtain ⟨socket, hsocket⟩ := (ht.1.serves hserves).1
  exact ht.2 id (hsel.sockets hsocket ▸ hsocket) hserves

theorem endCb (id : ℕ) (h : (duties writing).HoldsAll i sel) :
    Owes ok writing i (Win.endCb id) (fun _ => (duties writing).HoldsAll i) sel := by
  refine Safe.read_then ?_
  cases (sel.events id).entry.end_ with
  | none => exact Safe.pure h
  | some cb =>
      have htaken := (Selector.Tame.edit _ id (f := Event.takeData)
        ⟨rfl, fun h => h, fun post h => by cases post <;> exact h, fun _ h => h⟩).holds h
      refine Safe.bind (Safe.modify (Safe.call trivial ?_ ?_))
      · exact htaken.mono fun _ hfalse => hfalse.elim
      · rintro u r t hu ⟨ht, -⟩
        obtain rfl := ht
        exact htaken.trans hu

/-- The end marker takes the event out of the map, and then its callback runs. -/
theorem _unregisterSocket {o : Overlapped} (h : Lapsed writing i o sel) :
    Owes ok writing i (Win._unregisterSocket (sel.events o.id).asRawSocket)
      (fun _ => (duties writing).HoldsAll i) sel := by
  have hserved : sel.Serves o.id →
      sel.eventMaps (sel.events o.id).asRawSocket = some o.id := by
    rintro ⟨⟨socket, hsocket⟩, -⟩
    exact h.keyed.sockets hsocket ▸ hsocket
  unfold Win._unregisterSocket
  apply Safe.read_then
  cases hmaps : sel.eventMaps (sel.events o.id).asRawSocket with
  | none => exact Safe.pure (h.gone fun hserves => by cases (hserved hserves).symm.trans hmaps)
  | some id =>
      have hremoved : sel.Tame (sel.remove (sel.events o.id).asRawSocket) := .remove sel _
      have hgone : ¬ (sel.remove (sel.events o.id).asRawSocket).Serves o.id := by
        rintro ⟨⟨socket, hsocket⟩, -⟩
        obtain ⟨hne, hsocket⟩ := Selector.Keyed.remove_some hsocket
        exact hne (h.keyed.sockets hsocket).symm
      have hholds := (h.tame hremoved).gone hgone
      refine Safe.bind (Safe.modify (Safe.bind ((holding (fun ht hu => ht.holds hu)
        (endCb id ((Selector.Tame.owners _ _).holds hholds))).mono fun _ _ hu => Safe.pure hu)))

/-! ## The handlers -/

variable {post : Post} {id : ℕ}

theorem acceptCb (tcp : Except IoError S)
    (h : (duties writing).Holds i (· = (Post.accept, id)) sel) :
    Owes ok writing i (Win.acceptCb id tcp)
      (fun _ => (duties writing).Holds i (· = (Post.accept, id))) sel := by
  refine Safe.read_then ?_
  cases (sel.events id).entry.accept with
  | none => exact Safe.pure h
  | some cb => exact Safe.call trivial h fun u r t hu ht => ht.1 ▸ h.trans hu

theorem readCb (h : (duties writing).Holds i (· = (Post.read, id)) sel) :
    Owes ok writing i (Win.readCb id)
      (fun _ => (duties writing).Holds i (· = (Post.read, id))) sel := by
  refine Safe.read_then ?_
  cases (sel.events id).entry.read with
  | none => exact Safe.pure h
  | some cb => exact Safe.call trivial h fun u r t hu ht => ht.1 ▸ h.trans hu

theorem writeCb (h : (duties writing).Holds i (· = (Post.write, id)) sel) :
    Owes ok writing i (Win.writeCb id)
      (fun _ => (duties writing).Holds i (· = (Post.write, id))) sel := by
  refine Safe.read_then ?_
  cases (sel.events id).entry.write with
  | none => exact Safe.pure h
  | some cb => exact Safe.call trivial h fun u r t hu ht => ht.1 ▸ h.trans hu

/-- An event that ends is owed nothing. -/
theorem ends (h : (duties writing).Holds i (· = (post, id)) sel) :
    Owes ok writing i (Win.dropEvent id) (fun _ => (duties writing).HoldsAll i) sel := by
  refine (dropEvent id h.inv.keyed).mono fun _ t ht => (ht.1.holds h).mono ?_
  rintro _ rfl
  exact Or.inr fun _ hserves => absurd hserves ht.2

/-- The end of a handler of reads: the event gives up the flags, or the next operation is
posted. -/
theorem postAgain {flags flag : EventFlags} {c : S → WinCode S δ (Except IoError Unit)}
    (hread : post.overlapped id = .read id) (hflags : Flag.READ ∈ flags)
    (hwants : ∀ event : Event S δ, event.wants post → event.entry.hasFlag flag)
    (hc : ∀ {t} socket, Marks t → Owes ok writing i (c socket) (fun ret u => t.Tame u ∧
      (ret = .ok () → ∀ id, t.eventMaps socket = some id → u.Serves id →
        u.Carries .read id)) t)
    (h : (duties writing).Holds i (· = (post, id)) sel) :
    Owes ok writing i (Win.postAgain id flags flag post c)
      (fun _ => (duties writing).HoldsAll i) sel := by
  have hunless : (sel.events id).Tame ((sel.events id).unlessPersist flags) := by
    unfold Event.unlessPersist
    split
    · exact .refl _
    · refine ⟨rfl, fun h => h, fun post hwants => ?_, fun _ h => h⟩
      cases post with
      | accept =>
          have hmem := (EventFlags.contains_ACCEPT _).mp hwants
          exact (EventFlags.contains_ACCEPT _).mpr ((EventFlags.mem_remove ..).mp hmem).1
      | read =>
          have hmem := (EventFlags.contains_READ _).mp hwants.2
          exact absurd hflags ((EventFlags.mem_remove ..).mp hmem).2
      | write => exact hwants
  have hpersist := (Selector.Tame.edit sel id (f := (·.unlessPersist flags)) hunless).holds h
  refine Safe.bind (Safe.modify (Safe.read_then (Safe.when ?_ ?_)))
  · intro _
    refine Safe.bind (Safe.ask (fun hu => hu) ?_)
    rintro ⟨⟩ t ⟨ht, -⟩
    obtain rfl := ht
    refine Safe.bind ((hc _ hpersist.inv).mono ?_)
    rintro (e | _) u ⟨hu, hposted⟩
    · have hfail : u.Tame (u.edit id (·.fail e)) := .edit u id (.of_same rfl rfl rfl rfl rfl rfl)
      exact Safe.bind (Safe.modify (ends ((hu.trans hfail).holds hpersist)))
    · have hcarries : u.Serves id → u.Carries .read id := by
        intro hserves
        obtain ⟨⟨socket, hsocket⟩, -⟩ := hu.serves hserves
        exact hposted rfl id (hpersist.inv.keyed.sockets hsocket ▸ hsocket) hserves
      have hmark : u.Tame (u.edit id (·.setInRead true)) := by
        refine .mark u id rfl (fun h => h) (fun post h => by cases post <;> exact h) ?_
        intro post' hmark
        cases post' with
        | write => exact Or.inl hmark
        | accept => exact Or.inr hcarries
        | read => exact Or.inr hcarries
      refine Safe.modify ((hmark.holds (hu.holds hpersist)).mono ?_)
      rintro _ rfl
      refine Or.inr fun _ => hmark.armed fun hserves _ => ?_
      rw [Selector.Carries, hread]
      exact hcarries hserves
  · intro hnot
    refine hpersist.mono ?_
    rintro _ rfl
    exact Or.inr fun _ _ hw => absurd (hwants _ hw) hnot

/-- What follows a callback. -/
theorem after_cb {ret : RetValue} {c : WinCode S δ Unit}
    (h : (duties writing).Holds i (· = (post, id)) sel)
    (hc : Owes ok writing i c (fun _ => (duties writing).HoldsAll i) sel) :
    Owes ok writing i (match ret with
      | .OVER => Win.dropEvent id
      | _ => c) (fun _ => (duties writing).HoldsAll i) sel := by
  cases ret with
  | OVER => exact ends h
  | OK => exact hc
  | CONTINUE => exact hc

theorem acceptDone (hlistener : (sel.events id).isAccept)
    (h : Lapsed writing i (.read id) sel) :
    Owes ok writing i (Win.acceptDone id) (fun _ => (duties writing).HoldsAll i) sel := by
  refine Safe.read_then ?_
  cases (sel.events id).acceptSocket with
  | none => exact Safe.bind (Safe.stop Empty.elim fun hu => hu)
  | some socket =>
      have htaken : sel.Tame (sel.edit id (·.setAcceptSocket none)) :=
        .edit sel id (.of_same rfl rfl rfl rfl rfl rfl)
      refine Safe.bind (Safe.modify (Safe.bind (Safe.ask (fun hu => hu) ?_)))
      rintro result t ⟨ht, -⟩
      obtain rfl := ht
      have hevent := sel.edit_self id (·.setAcceptSocket none)
      have hset := Selector.Tame.edit (sel.edit id (·.setAcceptSocket none)) id
        (f := (·.setInRead false)) (.of_marks rfl rfl rfl rfl (fun h => by cases h) fun h => h)
      have hholds := (h.tame htaken).unmark .accept hset (fun h => by cases h)
        fun _ => iff_of_true (hevent ▸ hlistener) rfl
      refine Safe.bind (Safe.modify (Safe.bind ((acceptCb _ hholds).mono fun ret t ht => ?_)))
      refine after_cb ht (postAgain rfl (by simp) (fun _ hwants => hwants) ?_ ht)
      exact fun socket hmarks => postAcceptEvent socket hmarks

theorem readDone {status : CompletionStatus} (hlapsed : Lapsed writing i (.read id) sel)
    (hroom : status.bytesTransferred ≤ (sel.events id).buffer.readCache.length) :
    Owes ok writing i (Win.readDone id status) (fun _ => (duties writing).HoldsAll i) sel := by
  refine Safe.read_then ?_
  split
  · rename_i hlistener
    exact acceptDone hlistener hlapsed
  · rename_i hstream
    split
    · exact Safe.bind ((_unregisterSocket hlapsed).mono fun _ _ hu => Safe.pure hu)
    · split
      · refine (dropEvent id hlapsed.keyed).mono fun _ u hu => ?_
        exact (hlapsed.tame hu.1).gone hu.2
      · refine if_neg (Nat.not_lt.mpr hroom) ▸ Safe.bind (Safe.modify (Safe.read_then ?_))
        have hfill := Selector.Tame.edit sel id (f := (·.fill status.bytesTransferred))
          (.of_marks rfl rfl rfl rfl (fun h => by cases h) fun h => h)
        have hholds := hlapsed.unmark .read hfill (fun h => by cases h)
          fun _ => iff_of_false hstream nofun
        refine Safe.bind (Promises.Safe.mono (Q := fun _ =>
          (duties writing).Holds i (· = (Post.read, id))) ?_ fun ret u hu => ?_)
        · split
          · exact readCb hholds
          · exact Safe.pure hholds
        · refine after_cb hu (postAgain rfl (by simp) (fun _ hwants => hwants.2) ?_ hu)
          exact fun socket hmarks => postReadEvent socket hmarks

theorem writeDone (haccepting : Accepting ok writing)
    (hlapsed : Lapsed writing i (.write id) sel) :
    Owes ok writing i (Win.writeDone id) (fun _ => (duties writing).HoldsAll i) sel := by
  have hset := Selector.Tame.edit sel id (f := (·.setInWrite false))
    (.of_marks rfl rfl rfl rfl (fun h => h) fun h => by cases h)
  have hholds := hlapsed.unmark .write hset (fun h => by cases h) (absurd rfl)
  refine Safe.bind (Safe.modify (Safe.bind ((writeCb hholds).mono fun ret u hu => ?_)))
  refine after_cb hu (Safe.read_then (Safe.when ?_ ?_))
  · intro _
    refine Safe.bind (Safe.ask (fun hu => hu) ?_)
    rintro ⟨⟩ v ⟨hv, -⟩
    obtain rfl := hv
    refine Safe.bind ((postWriteEvent haccepting _ hu.inv).mono fun _ w hw => ?_)
    refine Safe.pure ((hw.1.holds hu).mono ?_)
    rintro _ rfl
    refine Or.inr fun hwriting hserves => ?_
    obtain ⟨⟨socket, hsocket⟩, -⟩ := hw.1.serves hserves
    exact hw.2 (hwriting rfl) id (hu.inv.keyed.sockets hsocket ▸ hsocket) hserves
  · intro hempty
    refine hu.mono ?_
    rintro _ rfl
    exact Or.inr fun _ _ hwants =>
      absurd ((Buffer.empty_iff _).mp (not_not.mp hempty)) hwants

theorem dispatch (haccepting : Accepting ok writing) (status : CompletionStatus)
    (h : (duties writing).HoldsAll i sel) :
    Owes ok writing i (Win.dispatch status) (fun _ => (duties writing).HoldsAll i) sel := by
  unfold Win.dispatch
  split
  · exact Safe.pure h
  · refine Safe.bind (Safe.ask (fun hu => hu) fun _ t ht => ?_)
    have hlapsed := Lapsed.delivers h ht.1
    exact holding (fun hu hv => hu.holds hv) (readDone (hlapsed.tame (.owners t _)) ht.1.room)
  · refine Safe.bind (Safe.ask (fun hu => hu) fun _ t ht => ?_)
    have hlapsed := Lapsed.delivers h ht.1
    exact holding (fun hu hv => hu.holds hv) (writeDone haccepting (hlapsed.tame (.owners t _)))

theorem dispatchAll (haccepting : Accepting ok writing) (statuses : List CompletionStatus)
    (h : (duties writing).HoldsAll i sel) :
    Owes ok writing i (Win.dispatchAll statuses) (fun _ => (duties writing).HoldsAll i) sel := by
  induction statuses generalizing sel with
  | nil => exact Safe.pure h
  | cons status statuses ih =>
      exact Safe.bind ((dispatch haccepting status h).mono fun _ t ht => ih ht)

theorem doSelect (haccepting : Accepting ok writing) (h : (duties writing).HoldsAll i sel) :
    Owes ok writing i Win.doSelect (fun _ => (duties writing).HoldsAll i) sel := by
  refine Safe.bind (Safe.ask (fun hu => hu) ?_)
  rintro (e | statuses) t ⟨ht, -⟩
  · obtain rfl := ht
    dsimp only
    split <;> exact Safe.pure h
  · obtain rfl := ht
    exact Safe.bind ((dispatchAll haccepting statuses h).mono fun _ _ hu => Safe.pure hu)

end Owes

/-! ## The calls -/

/-- Callbacks leave the marks and the outgoing bytes alone, and buffers come without any. -/
def Unmarked : Selector S δ → Move (WinReply (S := S)) (WinCall S δ) → Prop
  | _, .call (.registerSocket buffer _) =>
      buffer.isInRead = false ∧ buffer.isInWrite = false ∧ buffer.write.val = []
  | _, .call (.editBuffer _ f) => ∀ buffer : EventBuffer S, (f buffer).write = buffer.write ∧
      (f buffer).isInRead = buffer.isInRead ∧ (f buffer).isInWrite = buffer.isInWrite
  | _, _ => True

theorem holds_insert (h : (duties writing).HoldsAll i sel) {buffer : EventBuffer S}
    (entry : EventEntry S δ) (hin_read : buffer.isInRead = false)
    (hin_write : buffer.isInWrite = false) (hwrite : buffer.write.val = []) :
    (duties writing).Holds i (NewFlags sel.count) (sel.insert buffer entry) := by
  have hold : ∀ {id}, id ≠ sel.count → (sel.insert buffer entry).Serves id → sel.Serves id := by
    rintro id hne ⟨⟨socket, hsocket⟩, hend⟩
    refine ⟨⟨socket, ?_⟩, sel.insert_old buffer entry hne ▸ hend⟩
    exact (Selector.Keyed.insert_some hsocket).resolve_left fun hnew => hne hnew.2
  refine ⟨⟨h.inv.keyed.insert buffer entry, fun post id hserves hmark => ?_⟩,
    fun x hx hnot hwriting hserves hwants => ?_⟩
  · by_cases hid : id = sel.count
    · subst hid
      rw [sel.insert_new] at hmark
      cases post with
      | accept => cases hin_read.symm.trans hmark
      | read => cases hin_read.symm.trans hmark
      | write => cases hin_write.symm.trans hmark
    · rw [sel.insert_old buffer entry hid] at hmark
      exact h.inv.marked post id (hold hid hserves) hmark
  · obtain ⟨post, id⟩ := x
    by_cases hid : id = sel.count
    · subst hid
      cases post with
      | accept => exact absurd ⟨rfl, nofun⟩ hnot
      | read => exact absurd ⟨rfl, nofun⟩ hnot
      | write =>
          rw [sel.insert_new] at hwants
          exact absurd hwrite hwants
    · rw [sel.insert_old buffer entry hid] at hwants
      exact h.kept (post, id) hx (fun hfalse => hfalse) hwriting (hold hid hserves) hwants

namespace Owes

open Promises

theorem registerSocket (haccepting : Accepting ok writing) (buffer : EventBuffer S)
    (entry : EventEntry S δ) (h : (duties writing).HoldsAll i sel)
    (hclean : buffer.isInRead = false ∧ buffer.isInWrite = false ∧ buffer.write.val = []) :
    Owes ok writing i (Win.registerSocket buffer entry)
      (fun _ => (duties writing).HoldsAll i) sel := by
  refine Safe.bind ((removeEvent _ sel).mono fun _ v hv => ?_)
  have hremoved := ((Selector.Tame.remove sel buffer.asRawSocket).trans hv).holds h
  refine Safe.bind (Safe.ask (fun hu => hu) ?_)
  rintro (e | _) t ⟨ht, -⟩
  · obtain rfl := ht
    exact Safe.bind (Safe.ask (fun hu => hu) fun _ _ hu => Safe.pure (hu.1 ▸ hremoved))
  · obtain rfl := ht
    have hinserted := holds_insert hremoved entry hclean.1 hclean.2.1 hclean.2.2
    have hmaps := t.insert_maps buffer entry
    refine Safe.bind (Safe.modify (Safe.bind ((checkSocketEvent haccepting _
      hinserted.inv).mono ?_)))
    rintro (e | _) u ⟨hu, harmed⟩
    · refine Safe.bind ((removeEvent _ u).mono fun _ w hw => Safe.pure ?_)
      have hgone : u.Tame w := .trans (.remove u _) hw
      refine NewFlags.gone hinserted (hu.trans hgone) ?_
      rintro ⟨⟨socket, hsocket⟩, -⟩
      obtain ⟨hne, hsocket⟩ := Selector.Keyed.remove_some (hw.maps hsocket)
      exact hne (hinserted.inv.keyed.inj (hu.maps hsocket) hmaps)
    · exact Safe.pure (NewFlags.checked hinserted hu (harmed rfl _ hmaps))

theorem modifySocket (haccepting : Accepting ok writing) (isDel : Bool) (socket : S)
    (entry : EventEntry S δ) (h : (duties writing).HoldsAll i sel) :
    Owes ok writing i (Win.modifySocket isDel socket entry)
      (fun _ => (duties writing).HoldsAll i) sel := by
  unfold Win.modifySocket
  apply Safe.read_then
  cases hmaps : sel.eventMaps socket with
  | none => exact Safe.pure h
  | some id =>
      have hmerged : (duties writing).Holds i (NewFlags id)
          (sel.edit id (·.merge isDel entry)) := by
        refine holds_edit h id (fun _ => rfl) (fun _ => rfl) (fun post hmark => ?_) ?_
        · cases post <;> exact hmark
        · intro post hnot hwants
          have hpost : post = .write := by_contra fun hne => hnot ⟨rfl, hne⟩
          subst hpost
          exact hwants
      refine Safe.bind (Safe.modify (Safe.bind ((checkSocketEvent haccepting socket
        hmerged.inv).mono ?_)))
      rintro (e | _) t ⟨ht, harmed⟩
      · refine Safe.bind ((unregisterSocket socket t).mono fun ret u hu => ?_)
        have hended : (duties writing).HoldsAll i u := by
          refine NewFlags.gone hmerged (ht.trans hu.1) fun hserves => ?_
          obtain ⟨⟨socket', hsocket'⟩, -⟩ := hu.1.serves hserves
          obtain rfl := hmerged.inv.keyed.inj (ht.maps hsocket') hmaps
          exact hu.2 id hsocket' hserves
        cases ret with
        | error e' => exact Safe.pure hended
        | ok _ => exact Safe.pure hended
      · exact Safe.pure (NewFlags.checked hmerged ht (harmed rfl id hmaps))

theorem sendSocket (haccepting : Accepting ok writing) (socket : S) (data : List UInt8)
    (h : (duties writing).HoldsAll i sel) :
    Owes ok writing i (Win.sendSocket socket data) (fun _ => (duties writing).HoldsAll i) sel := by
  unfold Win.sendSocket Win.postWriteEvent
  apply Safe.read_then
  cases hmaps : sel.eventMaps socket with
  | none => exact Safe.pure h
  | some id =>
      have hadded : (duties writing).Holds i (· = (Post.write, id))
          (sel.edit id (·.append data)) := by
        refine holds_edit h id (fun _ => rfl) (fun _ => rfl) (fun post hmark => ?_) ?_
        · cases post <;> exact hmark
        · intro post hnot hwants
          cases post with
          | write => exact absurd rfl hnot
          | accept => exact hwants
          | read => exact hwants
      have hnoted : (sel.edit id (·.append data)).Tame
          ((sel.edit id (·.append data)).note (.sent id data)) := .port _ fun _ ho => ho
      refine Safe.bind (Safe.bind (Safe.modify (Safe.modify ?_)))
      refine (writeOut haccepting id (hnoted.holds hadded).inv).mono fun _ t ht => ?_
      refine (ht.1.holds (hnoted.holds hadded)).mono ?_
      rintro _ rfl
      exact Or.inr fun hwriting => ht.2 (hwriting rfl)

/-- Every call keeps what it found in order. -/
theorem keeps (haccepting : Accepting ok writing) (hok : ∀ sel m, ok sel m → Unmarked sel m) :
    (duties writing).Keeps (winRuns ok) := by
  rintro op sel ⟨hmay, hop⟩ hsel
  have h := Promises.HoldsAll.refl (P := duties writing) hsel
  have hclean := hok _ _ hop
  cases op with
  | registerSocket buffer entry =>
      exact Safe.bind ((registerSocket haccepting buffer entry h hclean).mono fun _ _ => id)
  | modifySocket isDel socket entry =>
      exact Safe.bind ((modifySocket haccepting isDel socket entry h).mono fun _ _ => id)
  | unregisterSocket socket =>
      exact Safe.bind ((unregisterSocket socket sel).mono fun _ _ ht => ht.1.holds h)
  | sendSocket socket data =>
      exact Safe.bind ((sendSocket haccepting socket data h).mono fun _ _ => id)
  | doSelect => exact Safe.bind ((doSelect haccepting h).mono fun _ _ => id)
  | editBuffer id f =>
      obtain ⟨hwrite, hin_read, hin_write⟩ := hclean (sel.events id).buffer
      refine Safe.modify (Selector.Tame.holds (.edit sel id ?_) h)
      exact .of_same rfl (hmay (sel.events id).buffer) rfl hwrite hin_read hin_write

end Owes

/-! ## The main result -/

/-- Besides, the system refuses no write. -/
def Unrefused (sel : Selector S δ) (m : Move (WinReply (S := S)) (WinCall S δ)) : Prop :=
  Unmarked sel m ∧ ∀ socket data o e, m ≠ .answer (.writeOverlapped socket data o) (.error e)

/-- If the event wants the operation, it is outstanding, unless a handler of the event waits
for its callback. -/
def Attended (c : Config (Selector S δ) (WinReply (S := S)) Unit) (post : Post) (id : ℕ) : Prop :=
  (∀ f ∈ c.stack, ¬ f.question.suspends (post, id)) → c.state.Armed post id

/-- Whenever user code runs, in callbacks of any depth or outside of all, every event has the
accept or the read outstanding that it wants. If the system refuses no write, it has the
write outstanding too as long as there are bytes to write. -/
theorem win_armed [Zero S] :
    (∀ c, (winRuns (Unmarked (S := S) (δ := δ))).Reaches .new c →
      (winSystem S δ).Open c.stack → ∀ id, Attended c .accept id ∧ Attended c .read id) ∧
    ∀ c, (winRuns (Unrefused (S := S) (δ := δ))).Reaches .new c →
      (winSystem S δ).Open c.stack → ∀ post id, Attended c post id := by
  have hmarks : Marks (.new : Selector S δ) :=
    ⟨⟨nofun, Numbered.empty⟩, fun _ _ hserves => by cases hserves.1.choose_spec⟩
  have hkept : ∀ {writing : Prop} x, (duties writing).kept x (.new : Selector S δ) :=
    fun x _ hserves => by cases hserves.1.choose_spec
  refine ⟨fun c hreach hopen id => ?_, fun c hreach hopen post id hidle => ?_⟩
  · have keeps : (duties False).Keeps (winRuns (Unmarked (S := S) (δ := δ))) :=
      Owes.keeps (fun hfalse => hfalse.elim) fun _ _ h => h
    exact ⟨fun hidle => Promises.reaches_kept keeps hreach hmarks hkept hopen hidle nofun,
      fun hidle => Promises.reaches_kept keeps hreach hmarks hkept hopen hidle nofun⟩
  · have keeps : (duties True).Keeps (winRuns (Unrefused (S := S) (δ := δ))) :=
      Owes.keeps (fun _ _ _ _ _ _ h => h.2 _ _ _ _ rfl) fun _ _ h => h.1
    exact Promises.reaches_kept keeps hreach hmarks hkept hopen hidle fun _ => trivial

/-- A packet comes and is followed by the next read, and of two bytes one has to wait. -/
theorem win_armed_again :
    ∃ c, (winRuns Unrefused).Reaches (.new : Selector SOCKET Unit) c ∧ c.stack = [] ∧
      c.state.Carries .read 0 ∧ c.state.Carries .write 0 := by
  have start := System.Reaches.refl (S := winRuns Unrefused) (.new : Selector SOCKET Unit)
  have registered := ((start.call (.registerSocket { EventBuffer.new 3 0 with readCache := [0] }
    (.newEvent 3 (EventFlags.FLAG_READ ∪ EventFlags.FLAG_PERSIST) none none none none)) trivial
    ⟨trivial, ⟨rfl, rfl, rfl⟩, nofun⟩).answer (.ok ()) ⟨rfl, trivial, nofun⟩).answer (.ok none)
    ⟨rfl, trivial, nofun⟩
  have received := ((registered.call .doSelect trivial ⟨trivial, trivial, nofun⟩).answer
    (.ok [⟨1, ∅, some (.read 0)⟩]) ⟨rfl, trivial, nofun⟩).answer ()
    ⟨.read [7] (by decide) rfl (by decide), trivial, nofun⟩
  have again := (received.answer () ⟨rfl, trivial, nofun⟩).answer (.ok none)
    ⟨rfl, trivial, nofun⟩
  have sent := (again.call (.sendSocket 3 [1, 2]) trivial ⟨trivial, trivial, nofun⟩).answer
    (.ok (some 1)) ⟨⟨rfl, by rintro _ ⟨⟩; decide⟩, trivial, nofun⟩
  have hread := (win_armed.1 _ (sent.weaken fun _ _ h => h.1) trivial 0).2 nofun
  have hwrite := win_armed.2 _ sent trivial .write 0 nofun
  exact ⟨_, sent, rfl, hread ⟨⟨3, rfl⟩, rfl⟩ ⟨by decide, by decide⟩, hwrite ⟨⟨3, rfl⟩, rfl⟩ nofun⟩

end TdRevent.Win
