import TdRevent.Unix.Selector

/-!
# Invariants of a Unix selector over all runs

What a property has to be kept by, piece by piece, in order to be kept by
every operation of a selector. A piece is a part of the code in which no
callback runs.

## Implementation notes

`mayDrop` says in which states an event may be unregistered. It is what a
condition on the environment leaves of the many ways to unregister an event:
the end of the input, an error, and the result of a callback.
-/

namespace TdRevent.Unix

open Interaction Discipline

variable {S δ E K Sys : Type} {R : Sys → Type} [DecidableEq S]

/-- The selector in the runs whose moves meet a condition. -/
abbrev unixRuns (B : Backend S δ E K R) (os : Os S K R) (doSelect : SockCode S δ E K R Unit)
    (ok : Selector S δ E K → Move (SockReply (S := S) R) (SockCall S δ) → Prop) :
    System (Selector S δ E K) (SockReply (S := S) R) (SockCall S δ) Unit :=
  (unixSystem B os doSelect).restrict ok

/-- The code keeps the discipline and ends in a state of its invariant. -/
abbrev Keeps (B : Backend S δ E K R) (os : Os S K R) (doSelect : SockCode S δ E K R Unit)
    (ok : Selector S δ E K → Move (SockReply (S := S) R) (SockCall S δ) → Prop)
    (D : Discipline (Selector S δ E K) (SockReply (S := S) R)) {α : Type}
    (c : SockCode S δ E K R α) (sel : Selector S δ E K) : Prop :=
  D.Safe (unixRuns B os doSelect ok) c (fun _ => D.inv) sel

section

variable {S' : System (Selector S δ E K) (SockReply (S := S) R) (SockCall S δ) Unit}
  {D : Discipline (Selector S δ E K) (SockReply (S := S) R)} {sel : Selector S δ E K}

/-- An event that is open exactly while it is in the map is not freed by a handler. -/
theorem letGo_owned {id : ℕ} (h : sel.Owned) {Q : Unit → Selector S δ E K → Prop}
    (hrel : D.rel sel (sel.release id)) (hQ : Q () (sel.release id)) :
    D.Safe S' (letGo id) Q sel := by
  refine Safe.bind (Safe.modify (Safe.read_then ?_) hrel)
  rw [Code.when, if_neg fun hfreed => (h.release id).refs_ne_zero hfreed.2 hfreed.1]
  exact Safe.pure hQ

variable {B : Backend S δ E K R} {os : Os S K R} {doSelect : SockCode S δ E K R Unit}
  {ok : Selector S δ E K → Move (SockReply (S := S) R) (SockCall S δ) → Prop}
  {inv : Selector S δ E K → Prop} {socket : S} {Q : Unit → Selector S δ E K → Prop}

/-- An event that no handler holds is closed when it is taken out of the map. -/
theorem removeEvent_of_maps {id : ℕ} (h : sel.Owned) (hmaps : sel.eventMaps socket = some id)
    (hholds : sel.owners.holds id = 0)
    (hQ : ∀ k, os.closes socket sel.kernel k →
      Q () { (sel.remove socket).shut id with kernel := k }) :
    (ofInv inv).Safe (unixRuns B os doSelect ok) (removeEvent socket) Q sel := by
  have hsocket : ((sel.remove socket).events id).asRawSocket = socket := h.sockets hmaps
  have hrefs : (sel.remove socket).refs id = 0 := by
    rw [Selector.refs, hsocket, sel.remove_maps, if_neg (Option.some_ne_none id).symm]
    exact hholds
  unfold removeEvent
  apply Safe.read_then
  rw [hmaps]
  refine Safe.bind (Safe.modify (Safe.read_then ?_) trivial)
  rw [Code.when, if_pos ⟨hrefs, h.opened hmaps⟩]
  refine Safe.bind (Safe.modify (Safe.ask (fun hu => hu) trivial ?_) trivial)
  rintro _ _ ⟨⟨k, hk, rfl⟩, -⟩
  exact ⟨hQ k (hsocket ▸ hk), trivial⟩

theorem removeEvent_owned (h : sel.Owned)
    (hholds : ∀ id, sel.eventMaps socket = some id → sel.owners.holds id = 0)
    (hnone : sel.eventMaps socket = none → Q () sel)
    (hsome : ∀ id k, sel.eventMaps socket = some id → os.closes socket sel.kernel k →
      Q () { (sel.remove socket).shut id with kernel := k }) :
    (ofInv inv).Safe (unixRuns B os doSelect ok) (removeEvent socket) Q sel := by
  cases hmaps : sel.eventMaps socket with
  | none =>
      unfold removeEvent
      apply Safe.read_then
      rw [hmaps]
      exact Safe.pure (hnone hmaps)
  | some id => exact removeEvent_of_maps h hmaps (hholds id hmaps) fun k => hsome id k hmaps

end

/-- The pieces that have to keep the discipline `D`. -/
structure Maintains (B : Backend S δ E K R) (os : Os S K R)
    (doSelect : SockCode S δ E K R Unit)
    (ok : Selector S δ E K → Move (SockReply (S := S) R) (SockCall S δ) → Prop)
    (D : Discipline (Selector S δ E K) (SockReply (S := S) R))
    (mayDrop : Selector S δ E K → Prop) : Prop where
  -- when a question is put
  guard : ∀ q sel, q ≠ .panic → D.inv sel → D.guard q sel
  guardClose : ∀ sel socket id s, D.inv sel → D.guard (.close s) ((sel.remove socket).shut id)
  -- what happens to an event
  editBuffer : ∀ sel id f, D.inv sel → ok sel (.call (.editBuffer id f)) →
    (∀ buffer, (f buffer).socket = buffer.socket) →
    D.inv (sel.edit id (·.editBuffer f)) ∧ D.rel sel (sel.edit id (·.editBuffer f))
  fill : ∀ sel id bytes, D.inv sel →
    D.inv (sel.edit id (·.fill bytes)) ∧ D.rel sel (sel.edit id (·.fill bytes))
  fail : ∀ sel id err, D.inv sel →
    D.inv (sel.edit id (·.fail err)) ∧ D.rel sel (sel.edit id (·.fail err))
  takeData : ∀ sel id, D.inv sel →
    D.inv (sel.edit id Event.takeData) ∧ D.rel sel (sel.edit id Event.takeData)
  drain : ∀ sel socket id len, D.inv sel → sel.eventMaps socket = some id →
    len ≤ (sel.events id).buffer.write.val.length →
    let t := (sel.edit id (·.drain len)).note
      (.accepted id ((sel.events id).buffer.write.val.take len))
    D.rel sel (sel.edit id (·.drain len)) ∧ D.rel (sel.edit id (·.drain len)) t ∧
      ((t.events id).buffer.write.val ≠ [] → D.inv t) ∧
      ((t.events id).buffer.write.val = [] → mayDrop sel →
        Keeps B os doSelect ok D (writeOver B id) t)
  idle : ∀ sel socket id, D.inv sel → mayDrop sel → sel.eventMaps socket = some id →
    (sel.events id).buffer.write.val = [] → Keeps B os doSelect ok D (writeOver B id) sel
  -- what happens to the kernel
  opens : ∀ sel s k, D.inv sel → os.opens s sel.kernel k →
    D.inv { sel with kernel := k } ∧ D.rel sel { sel with kernel := k }
  unlink : ∀ sel socket id, D.rel sel ((sel.remove socket).shut id)
  closes : ∀ sel socket id k, D.inv sel → sel.eventMaps socket = some id →
    os.closes (sel.events id).asRawSocket sel.kernel k →
    D.inv { (sel.remove socket).shut id with kernel := k } ∧
      D.rel ((sel.remove socket).shut id) { (sel.remove socket).shut id with kernel := k }
  -- what happens to the owners
  hold : ∀ sel id, D.inv sel → D.inv (sel.hold id) ∧ D.rel sel (sel.hold id)
  release : ∀ sel id, D.inv sel → Keeps B os doSelect ok D (letGo id) sel
  -- the calls without callbacks
  register : ∀ sel buffer entry, D.inv sel →
    ok sel (.call (.registerSocket buffer entry)) →
    Keeps B os doSelect ok D (registerSocket B buffer entry) sel
  change : ∀ sel isDel socket entry id, D.inv sel →
    ok sel (.call (.modifySocket isDel socket entry)) → sel.eventMaps socket = some id →
    D.Safe (unixRuns B os doSelect ok) (changeEvent B id isDel socket entry)
      (fun r t => D.inv t ∧ ∀ e, r = .error e → mayDrop t) sel
  send : ∀ sel socket data, D.inv sel → ok sel (.call (.sendSocket socket data)) →
    Keeps B os doSelect ok D (sendSocket B socket data) sel
  deregister : ∀ sel socket, D.inv sel → mayDrop sel → sel.eventMaps socket = none →
    Keeps B os doSelect ok D (B.deregister socket EventFlags.all) sel
  ended : ∀ sel id socket, D.inv sel → mayDrop sel → ok sel (.answer (.endCb id socket) ()) →
    Keeps B os doSelect ok D (B.deregister socket EventFlags.all) sel
  -- when an event is unregistered
  dropKeep : ∀ s t, mayDrop s → D.rel s t → mayDrop t
  dropCall : ∀ sel socket, ok sel (.call (.unregisterSocket socket)) → mayDrop sel
  dropAccept : ∀ sel id tcp, ok sel (.answer (.acceptCb id tcp) .OVER) → mayDrop sel
  dropRead : ∀ sel id, ok sel (.answer (.readCb id) .OVER) → mayDrop sel
  dropEof : ∀ sel s capacity r, ok sel (.answer (.read s capacity) r) →
    (∀ bytes, r = .ok bytes → bytes = []) → mayDrop sel
  dropWrite : ∀ sel s data r, ok sel (.answer (.write s data) r) →
    (∀ len, r = .ok len → len = 0 ∨ len = data.length) → mayDrop sel

variable {B : Backend S δ E K R} {os : Os S K R} {doSelect : SockCode S δ E K R Unit}
  {ok : Selector S δ E K → Move (SockReply (S := S) R) (SockCall S δ) → Prop}
  {D : Discipline (Selector S δ E K) (SockReply (S := S) R)}
  {mayDrop : Selector S δ E K → Prop} {sel : Selector S δ E K}

namespace Maintains

/-- The end callback of an event that was unregistered, and the last call to
the kernel. -/
theorem end_event (h : Maintains B os doSelect ok D mayDrop) {id : ℕ} {socket : S}
    (hsel : D.inv sel) (hdrop : mayDrop sel) (hmaps : sel.eventMaps socket = none) :
    Keeps B os doSelect ok D
      (do endCb id socket; B.deregister socket EventFlags.all) sel := by
  apply Safe.bind
  unfold endCb
  apply Safe.read_then
  cases hend : (sel.events id).entry.end_ with
  | none => exact Safe.pure (h.deregister sel socket hsel hdrop hmaps)
  | some cb =>
      obtain ⟨hinv, hrel⟩ := h.takeData sel id hsel
      refine Safe.bind (Safe.modify ?_ hrel)
      apply Safe.call trivial (h.guard _ _ (by simp) hinv) hinv
      rintro _ ⟨⟩ u hu hsu ⟨rfl, hok⟩
      exact ⟨h.ended u id socket hu (h.dropKeep _ _ hdrop (D.trans hrel hsu)) hok, D.refl u⟩

theorem unregisterSocket (h : Maintains B os doSelect ok D mayDrop) {socket : S}
    (hsel : D.inv sel) (hdrop : mayDrop sel) :
    Keeps B os doSelect ok D (Unix.unregisterSocket B socket) sel := by
  unfold Unix.unregisterSocket
  apply Safe.read_then
  cases hmaps : sel.eventMaps socket with
  | none => exact h.deregister sel socket hsel hdrop hmaps
  | some id =>
      refine Safe.bind (Safe.modify ?_ ?_)
      · apply Safe.bind
        apply Safe.ask (fun hu => hu) (h.guardClose sel socket id _ hsel)
        rintro _ t ⟨⟨k, hk, rfl⟩, -⟩
        obtain ⟨hinv, hrel⟩ := h.closes sel socket id k hsel hmaps hk
        have hdrop' := h.dropKeep _ _ hdrop (D.trans (h.unlink sel socket id) hrel)
        exact ⟨h.end_event hinv hdrop' (Function.update_self ..), hrel⟩
      · exact h.unlink sel socket id

theorem dropEvent (h : Maintains B os doSelect ok D mayDrop) {id : ℕ}
    (hsel : D.inv sel) (hdrop : mayDrop sel) :
    Keeps B os doSelect ok D (Unix.dropEvent B id) sel := by
  unfold Unix.dropEvent
  apply Safe.read_then
  apply Safe.bind
  exact (h.unregisterSocket hsel hdrop).mono fun _ _ ht => Safe.pure ht

theorem acceptCb (h : Maintains B os doSelect ok D mayDrop) {id : ℕ}
    {tcp : Except IoError S} (hsel : D.inv sel) :
    D.Safe (unixRuns B os doSelect ok) (Unix.acceptCb id tcp)
      (fun ret t => D.inv t ∧ (ret = .OVER → mayDrop t)) sel := by
  unfold Unix.acceptCb
  apply Safe.read_then
  cases hcb : (sel.events id).entry.accept with
  | none => exact Safe.pure ⟨hsel, nofun⟩
  | some cb =>
      apply Safe.call trivial (h.guard _ _ (by simp) hsel) hsel
      rintro _ ret u hu _ ⟨rfl, hok⟩
      exact ⟨⟨hu, fun hover => h.dropAccept u id tcp (hover ▸ hok)⟩, D.refl u⟩

theorem readCb (h : Maintains B os doSelect ok D mayDrop) {id : ℕ} (hsel : D.inv sel) :
    D.Safe (unixRuns B os doSelect ok) (Unix.readCb id)
      (fun ret t => D.inv t ∧ (ret = .OVER → mayDrop t)) sel := by
  unfold Unix.readCb
  apply Safe.read_then
  cases hcb : (sel.events id).entry.read with
  | none => exact Safe.pure ⟨hsel, nofun⟩
  | some cb =>
      apply Safe.call trivial (h.guard _ _ (by simp) hsel) hsel
      rintro _ ret u hu _ ⟨rfl, hok⟩
      exact ⟨⟨hu, fun hover => h.dropRead u id (hover ▸ hok)⟩, D.refl u⟩

theorem endIfOver (h : Maintains B os doSelect ok D mayDrop) {id : ℕ} {ret : RetValue}
    (hsel : D.inv sel) (hover : ret = .OVER → mayDrop sel) :
    Keeps B os doSelect ok D (Unix.endIfOver B id ret) sel := by
  cases ret with
  | OVER => exact h.dropEvent hsel (hover rfl)
  | OK => exact Safe.pure hsel
  | CONTINUE => exact Safe.pure hsel

theorem readEvent (h : Maintains B os doSelect ok D mayDrop) {id : ℕ} (hsel : D.inv sel) :
    Keeps B os doSelect ok D (Unix.readEvent B id) sel := by
  unfold Unix.readEvent
  apply Safe.read_then
  split
  · apply Safe.bind
    apply Safe.ask (fun hu => hu) (h.guard _ _ (by simp) hsel)
    rintro tcp t ⟨hanswer, -⟩
    have ht : D.inv t ∧ D.rel sel t := by
      cases tcp with
      | ok s =>
          obtain ⟨k, hk, rfl⟩ := hanswer
          exact h.opens sel s k hsel hk
      | error e =>
          obtain rfl := hanswer
          exact ⟨hsel, D.refl _⟩
    exact ⟨Safe.bind ((h.acceptCb ht.1).mono fun _ _ hu => h.endIfOver hu.1 hu.2), ht.2⟩
  · apply Safe.bind
    apply Safe.ask (fun hu => hu) (h.guard _ _ (by simp) hsel)
    rintro ret sel ⟨⟨rfl, -⟩, hok⟩
    refine ⟨?_, D.refl _⟩
    cases ret with
    | error e =>
        obtain ⟨hinv, hrel⟩ := h.fail sel id e hsel
        have hdrop := h.dropEof sel _ _ _ hok (by rintro _ ⟨⟩)
        exact Safe.bind (Safe.modify (h.dropEvent hinv (h.dropKeep _ _ hdrop hrel)) hrel)
    | ok bytes =>
        dsimp only
        split
        · rename_i hbytes
          have hdrop := h.dropEof sel _ _ _ hok (by rintro _ ⟨⟩; exact hbytes)
          exact h.dropEvent hsel hdrop
        · obtain ⟨hinv, hrel⟩ := h.fill sel id bytes hsel
          refine Safe.bind (Safe.modify (Safe.bind (Safe.read ?_)) hrel)
          split
          · exact Safe.bind ((h.readCb hinv).mono fun _ _ hu => h.endIfOver hu.1 hu.2)
          · exact Safe.pure hinv

theorem writeEvent (h : Maintains B os doSelect ok D mayDrop) {socket : S} {id : ℕ}
    (hsel : D.inv sel) (hmaps : sel.eventMaps socket = some id)
    (hidle : (sel.events id).buffer.write.val = [] → mayDrop sel) :
    Keeps B os doSelect ok D (Unix.writeEvent B id) sel := by
  unfold Unix.writeEvent
  apply Safe.read_then
  split
  · rename_i hlen
    have hempty := List.length_eq_zero_iff.mp hlen
    exact h.idle sel socket id hsel (hidle hempty) hmaps hempty
  · apply Safe.bind
    apply Safe.ask (fun hu => hu) (h.guard _ _ (by simp) hsel)
    rintro ret sel ⟨⟨rfl, hle⟩, hok⟩
    refine ⟨?_, D.refl _⟩
    cases ret with
    | error e =>
        obtain ⟨hinv, hrel⟩ := h.fail sel id e hsel
        have hdrop := h.dropWrite sel _ _ _ hok (by rintro _ ⟨⟩)
        exact Safe.bind (Safe.modify (h.dropEvent hinv (h.dropKeep _ _ hdrop hrel)) hrel)
    | ok len =>
        dsimp only
        split
        · rename_i hzero
          have hdrop := h.dropWrite sel _ _ _ hok (by rintro _ ⟨⟩; exact Or.inl hzero)
          exact h.dropEvent hsel hdrop
        · obtain ⟨hdrain, hnote, hinv, hempty⟩ :=
            h.drain sel socket id len hsel hmaps (hle len rfl)
          refine Safe.bind (Safe.modify (Safe.bind (Safe.modify (Safe.bind
            (Safe.read ?_)) hnote)) hdrain)
          split
          · rename_i hall
            -- the drained bytes were all there were
            have hval := (Buffer.empty_iff _).mp hall
            refine hempty hval (h.dropWrite sel _ _ _ hok ?_)
            rintro _ ⟨⟩
            have hrest : (sel.events id).buffer.write.val.drop len = [] := by
              simpa [Selector.note, Selector.edit, Event.drain] using hval
            exact Or.inr (Nat.le_antisymm (hle len rfl) (List.drop_eq_nil_iff.mp hrest))
          · rename_i hall
            exact Safe.pure (hinv fun hval => hall ((Buffer.empty_iff _).mpr hval))

/-- A handler that keeps the discipline while it holds its event. -/
theorem holding (h : Maintains B os doSelect ok D mayDrop) {id : ℕ}
    {handler : SockCode S δ E K R Unit} (hsel : D.inv sel)
    (hhandler : D.inv (sel.hold id) → Keeps B os doSelect ok D handler (sel.hold id)) :
    Keeps B os doSelect ok D (Unix.holding id handler) sel := by
  obtain ⟨hheld, hrel⟩ := h.hold sel id hsel
  exact Safe.bind (Safe.modify (Safe.bind
    ((hhandler hheld).mono fun _ t ht => h.release t id ht)) hrel)

theorem readDone (h : Maintains B os doSelect ok D mayDrop) {socket : S}
    (hsel : D.inv sel) : Keeps B os doSelect ok D (Unix.readDone B socket) sel := by
  unfold Unix.readDone
  apply Safe.read_then
  cases hmaps : sel.eventMaps socket with
  | none => exact Safe.pure hsel
  | some id => exact h.holding hsel fun hheld => h.readEvent hheld

theorem writeDone (h : Maintains B os doSelect ok D mayDrop) {socket : S}
    (hsel : D.inv sel)
    (hidle : ∀ id, sel.eventMaps socket = some id → (sel.events id).buffer.write.val = [] →
      mayDrop sel) : Keeps B os doSelect ok D (Unix.writeDone B socket) sel := by
  unfold Unix.writeDone
  apply Safe.read_then
  cases hmaps : sel.eventMaps socket with
  | none => exact Safe.pure hsel
  | some id =>
      have hmapped : (sel.hold id).eventMaps socket = some id := hmaps
      refine h.holding hsel fun hheld => h.writeEvent hheld hmapped ?_
      exact fun hval => h.dropKeep _ _ (hidle id hmaps hval) (h.hold sel id hsel).2

theorem modifySocket (h : Maintains B os doSelect ok D mayDrop) {isDel : Bool} {socket : S}
    {entry : EventEntry S δ} (hsel : D.inv sel)
    (hok : ok sel (.call (.modifySocket isDel socket entry))) :
    Keeps B os doSelect ok D (Unix.modifySocket B isDel socket entry) sel := by
  unfold Unix.modifySocket
  apply Safe.read_then
  cases hmaps : sel.eventMaps socket with
  | none => exact Safe.pure hsel
  | some id =>
      apply Safe.bind
      apply (h.change sel isDel socket entry id hsel hok hmaps).mono
      rintro ret t ⟨ht, hdrop⟩
      cases ret with
      | ok _ => exact Safe.pure ht
      | error e =>
          apply Safe.bind
          apply (h.unregisterSocket ht (hdrop e rfl)).mono
          intro ret u hu
          cases ret <;> exact Safe.pure hu

/-- Every operation keeps the discipline if every piece does. -/
theorem keeps (h : Maintains B os doSelect ok D mayDrop)
    (hwrite : ∀ sel socket, ok sel (.call (.writeDone socket)) → mayDrop sel)
    (hselect : ∀ sel, D.inv sel → ok sel (.call .doSelect) →
      Keeps B os doSelect ok D doSelect sel) :
    D.Keeps (unixRuns B os doSelect ok) := by
  apply keeps_of_safe
  intro op sel hmay hsel
  obtain ⟨hmay, hok⟩ := hmay
  cases op with
  | openSocket =>
      apply Safe.bind
      apply Safe.ask (fun hu => hu) (h.guard _ _ (by simp) hsel)
      rintro s t ⟨⟨k, hk, rfl⟩, -⟩
      obtain ⟨hinv, hrel⟩ := h.opens sel s k hsel hk
      exact ⟨Safe.pure hinv, hrel⟩
  | registerSocket buffer entry =>
      exact Safe.bind ((h.register sel buffer entry hsel hok).mono fun _ _ ht => Safe.pure ht)
  | modifySocket isDel socket entry =>
      exact Safe.bind ((h.modifySocket hsel hok).mono fun _ _ ht => Safe.pure ht)
  | unregisterSocket socket =>
      exact Safe.bind ((h.unregisterSocket hsel (h.dropCall sel socket hok)).mono
        fun _ _ ht => Safe.pure ht)
  | sendSocket socket data =>
      exact Safe.bind ((h.send sel socket data hsel hok).mono fun _ _ ht => Safe.pure ht)
  | readDone socket => exact h.readDone hsel
  | writeDone socket => exact h.writeDone hsel fun _ _ _ => hwrite sel socket hok
  | doSelect => exact hselect sel hsel hok
  | editBuffer id f =>
      obtain ⟨hinv, hrel⟩ := h.editBuffer sel id f hsel hok hmay
      exact Safe.modify hinv hrel

end Maintains

end TdRevent.Unix
