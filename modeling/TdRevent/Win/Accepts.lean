import TdRevent.Win.Recording
import TdRevent.Win.Traversal

/-!
# Connections of the Windows selector

A listener makes a new socket for each connection and offers it to the system with
`AcceptEx`. The handler of the packet takes the socket out of the event and hands it to
the accept callback, or hands over an error. Whatever packets come and whatever is
registered, modified and unregistered, the accept callback of an event is called only
after a socket was offered for the event since its last call, and the only socket that it
can be given is the last one that was offered.

## Implementation notes

A listener that is modified before its first packet offers a second socket and drops the
first, so between two calls there may be several offers.
-/

namespace TdRevent.Win

open Interaction Discipline

variable {S δ α β : Type}

/-- The callbacks are recorded, and the sockets that are offered. -/
def WinAsk.accepts : WinAsk S → Bool
  | .acceptOverlapped _ _ _ => true
  | q => q.callsBack

/-- What is seen of the connections of an event. -/
inductive AcceptMark (S : Type)
  | offered (acceptSocket : S)
  | called (tcp : Except IoError S)

/-- What an entry shows of the connections of the event. -/
def acceptMark (id : ℕ) : Mark (Selector S δ) (WinAsk S) (WinCall S δ) → Option (AcceptMark S)
  | .asked (.acceptOverlapped _ acceptSocket (.read id')) _ =>
      if id' = id then some (.offered acceptSocket) else none
  | .asked (.acceptCb id' tcp) _ => if id' = id then some (.called tcp) else none
  | _ => none

/-- The callback may be called with the result after what was seen last. -/
def CallsFor (last : Option (AcceptMark S)) (tcp : Except IoError S) : Prop :=
  ∃ acceptSocket, last = some (.offered acceptSocket) ∧
    ∀ socket, tcp = .ok socket → socket = acceptSocket

/-- Each call comes right after the offer of a socket, and hands over no other. -/
def CallsPaired (seen : List (AcceptMark S)) : Prop :=
  ∀ before tcp after, seen = before ++ .called tcp :: after → CallsFor before.getLast? tcp

theorem CallsPaired.snoc {seen : List (AcceptMark S)} (h : CallsPaired seen) {e : AcceptMark S}
    (he : ∀ tcp, e = .called tcp → CallsFor seen.getLast? tcp) : CallsPaired (seen ++ [e]) := by
  intro before tcp after heq
  rcases List.eq_nil_or_concat after with rfl | ⟨rest, x, rfl⟩
  · obtain ⟨rfl, hlast⟩ := List.append_inj' heq rfl
    exact he tcp (List.cons.inj hlast).1
  · have hsplit : seen ++ [e] = (before ++ .called tcp :: rest) ++ [x] := by
      rw [heq, List.concat_eq_append, List.append_assoc, List.cons_append]
    exact h before tcp rest (List.append_inj' hsplit rfl).1

/-- The calls of every event are paired with its offers. -/
def AcceptsPaired (hist : WinHistory S δ) : Prop :=
  ∀ id, CallsPaired (hist.filterMap (acceptMark id))

theorem marks_unseen {hist : WinHistory S δ} {m : Mark (Selector S δ) (WinAsk S) (WinCall S δ)}
    {id : ℕ} (hm : acceptMark id m = none) :
    (hist ++ [m]).filterMap (acceptMark id) = hist.filterMap (acceptMark id) := by
  rw [List.filterMap_append, List.filterMap_cons_none hm, List.filterMap_nil, List.append_nil]

/-- The calls are paired so far, and the socket that an event holds is the last that was
offered for it, with no call since. -/
structure Offering (sel : Selector S δ) (hist : WinHistory S δ) : Prop where
  paired : AcceptsPaired hist
  last : ∀ id acceptSocket, (sel.events id).acceptSocket = some acceptSocket →
    (hist.filterMap (acceptMark id)).getLast? = some (.offered acceptSocket)

namespace Offering

variable {sel t : Selector S δ} {hist : WinHistory S δ}

theorem new [Zero S] : Offering (.new : Selector S δ) [] where
  paired := by
    rintro id (_ | ⟨e, before⟩) tcp after heq
    · exact absurd heq nofun
    · exact absurd heq nofun
  last _ _ hsocket := absurd hsocket nofun

/-- No event holds a socket that it did not hold before. -/
theorem keep (h : Offering sel hist) (hsockets : ∀ id acceptSocket,
    (t.events id).acceptSocket = some acceptSocket →
      (sel.events id).acceptSocket = some acceptSocket) : Offering t hist :=
  ⟨h.paired, fun id acceptSocket ht => h.last id acceptSocket (hsockets id acceptSocket ht)⟩

theorem edit (h : Offering sel hist) (id : ℕ) {f : Event S δ → Event S δ}
    (hf : ∀ event, (f event).acceptSocket = event.acceptSocket) : Offering (sel.edit id f) hist :=
  h.keep fun id' _ ht => (sel.edit_keeps id Event.acceptSocket hf id').symm.trans ht

/-- The entry shows nothing of connections. -/
theorem unseen (h : Offering sel hist) {m : Mark (Selector S δ) (WinAsk S) (WinCall S δ)}
    (hm : ∀ id, acceptMark id m = none) : Offering sel (hist ++ [m]) := by
  constructor
  · intro id
    rw [marks_unseen (hm id)]
    exact h.paired id
  · intro id
    rw [marks_unseen (hm id)]
    exact h.last id

/-- The entry shows something of the connections of one event. -/
theorem seen (h : Offering sel hist) {m : Mark (Selector S δ) (WinAsk S) (WinCall S δ)} {id : ℕ}
    {e : AcceptMark S} (hm : acceptMark id m = some e)
    (hother : ∀ id', id' ≠ id → acceptMark id' m = none)
    (he : ∀ tcp, e = .called tcp → CallsFor (hist.filterMap (acceptMark id)).getLast? tcp)
    (hlast : ∀ acceptSocket, (t.events id).acceptSocket = some acceptSocket →
      e = .offered acceptSocket)
    (hsockets : ∀ id', id' ≠ id → (t.events id').acceptSocket = (sel.events id').acceptSocket) :
    Offering t (hist ++ [m]) := by
  have hadded :
      (hist ++ [m]).filterMap (acceptMark id) = hist.filterMap (acceptMark id) ++ [e] := by
    rw [List.filterMap_append, List.filterMap_cons_some hm, List.filterMap_nil]
  constructor
  · intro id'
    by_cases hid : id' = id
    · rw [hid, hadded]
      exact (h.paired id).snoc he
    · rw [marks_unseen (hother id' hid)]
      exact h.paired id'
  · intro id' acceptSocket ht
    by_cases hid : id' = id
    · subst hid
      rw [hadded, List.getLast?_concat, hlast acceptSocket ht]
    · rw [marks_unseen (hother id' hid)]
      exact h.last id' acceptSocket ((hsockets id' hid).symm.trans ht)

/-- A socket is offered, and the event holds it. -/
theorem offered (h : Offering sel hist) {id : ℕ} {acceptSocket : S}
    (ht : t.events = (sel.edit id (·.setAcceptSocket (some acceptSocket))).events)
    (socket : S) (u : Selector S δ) :
    Offering t (hist ++ [.asked (.acceptOverlapped socket acceptSocket (.read id)) u]) := by
  refine h.seen (e := .offered acceptSocket) (if_pos rfl) (fun id' hne => if_neg (Ne.symm hne))
    nofun (fun s hs => ?_) fun id' hne => ?_
  · rw [ht, sel.edit_self] at hs
    rw [Option.some.inj hs]
  · rw [ht]
    exact congrArg Event.acceptSocket (Function.update_of_ne hne ..)

/-- The handler takes the socket out of the event. -/
theorem taken (h : Offering sel hist) (id : ℕ) :
    Offering (sel.edit id (·.setAcceptSocket none)) hist := by
  refine h.keep fun id' acceptSocket ht => ?_
  by_cases hid : id' = id
  · subst hid
    rw [sel.edit_self] at ht
    exact absurd ht nofun
  · have hother : (sel.edit id (·.setAcceptSocket none)).events id' = sel.events id' :=
      Function.update_of_ne hid ..
    rwa [hother] at ht

/-- The callback is called, and the event holds no socket. -/
theorem called (h : Offering sel hist) {id : ℕ} {tcp : Except IoError S}
    (hnone : (sel.events id).acceptSocket = none)
    (hcalls : CallsFor (hist.filterMap (acceptMark id)).getLast? tcp) :
    Offering sel (hist ++ [.asked (.acceptCb id tcp) sel]) := by
  refine h.seen (e := .called tcp) (if_pos rfl) (fun id' hne => if_neg (Ne.symm hne)) ?_
    (fun _ hs => absurd (hnone.symm.trans hs) nofun) fun _ _ => rfl
  rintro _ ⟨⟩
  exact hcalls

end Offering

/-! ## The functions of the selector -/

variable [DecidableEq S] {sel t : Selector S δ} {hist : WinHistory S δ}

/-- The calls stay paired when the code is recorded. -/
abbrev Hands (c : WinCode S δ α) (Q : α → Selector S δ → WinHistory S δ → Prop)
    (sel : Selector S δ) (hist : WinHistory S δ) : Prop :=
  Records Offering (fun _ _ hist => AcceptsPaired hist) (winSystem S δ) WinAsk.accepts c Q sel hist

/-- From every state on the code keeps the sockets that are offered. -/
structure Pairing (c : WinCode S δ α) : Prop where
  hands : ∀ {sel hist}, Offering sel hist → Hands c (fun _ => Offering) sel hist

namespace Pairing

theorem pure (a : α) : Pairing (Pure.pure a : WinCode S δ α) := ⟨fun h => Records.pure h⟩

theorem bind {c : WinCode S δ α} {f : α → WinCode S δ β} (hc : Pairing c)
    (hf : ∀ a, Pairing (f a)) : Pairing (c >>= f) :=
  ⟨fun h => Records.bind ((hc.hands h).mono fun a _ _ ht => (hf a).hands ht)⟩

theorem read_then {f : Selector S δ → WinCode S δ β} (hf : ∀ sel, Pairing (f sel)) :
    Pairing (.read >>= f) := ⟨fun h => Records.read_then ((hf _).hands h)⟩

/-- The code changes no socket of an event. -/
theorem modify {f : Selector S δ → Selector S δ} (hf : ∀ t id acceptSocket,
    ((f t).events id).acceptSocket = some acceptSocket →
      (t.events id).acceptSocket = some acceptSocket) : Pairing (.modify f) :=
  ⟨fun {t _} h => Records.modify (h.keep (hf t))⟩

/-- A question to the system that offers no socket. -/
theorem ask {q : WinAsk S} (huser : ¬ q.user) (hwatch : q.accepts = false)
    (hanswer : ∀ (u : Selector S δ) r t, WinAsk.answer q u r t → ∀ id,
      (t.events id).acceptSocket = (u.events id).acceptSocket) :
    Pairing (.query q : WinCode S δ _) :=
  ⟨fun h => Records.ask huser hwatch h.paired fun r t ht =>
    h.keep fun id _ hid => (hanswer _ r t ht id).symm.trans hid⟩

/-- A callback that is given no socket. -/
theorem call {q : WinAsk S} (huser : q.user) (hwatch : q.accepts = true)
    (hseen : ∀ id (u : Selector S δ), acceptMark (δ := δ) id (.asked q u) = none)
    (hanswer : ∀ (u : Selector S δ) r t, WinAsk.answer q u r t → t = u) :
    Pairing (.query q : WinCode S δ _) := by
  refine ⟨fun {sel hist} h => ?_⟩
  have hcalled := h.unseen fun id => hseen id sel
  refine Records.call huser hwatch hcalled.paired hcalled fun u hist' r t hu ht => ?_
  obtain rfl := hanswer u r t ht
  exact hu

theorem plain {q : WinAsk S} (hq : q.plain) : Pairing (.query q : WinCode S δ _) := by
  have hanswer : ∀ (u : Selector S δ) r t, WinAsk.answer q u r t → ∀ id,
      (t.events id).acceptSocket = (u.events id).acceptSocket :=
    fun _ _ _ ht => (hq.leaves ht).acceptSocket
  cases q with
  | readCb => exact call trivial rfl (fun _ _ => rfl) fun _ _ _ ht => ht
  | writeCb => exact call trivial rfl (fun _ _ => rfl) fun _ _ _ ht => ht
  | endCb => exact call trivial rfl (fun _ _ => rfl) fun _ _ _ ht => ht
  | readOverlapped => exact ask (fun hu => hu) rfl hanswer
  | writeOverlapped => exact ask (fun hu => hu) rfl hanswer
  | close => exact ask (fun hu => hu) rfl hanswer
  | postInfo => exact ask (fun hu => hu) rfl hanswer
  | getMany => exact ask (fun hu => hu) rfl hanswer
  | again => exact ask (fun hu => hu) rfl hanswer
  | _ => exact absurd hq id

/-- A panic ends the run. -/
theorem panic {f : Empty → WinCode S δ β} : Pairing (.query WinAsk.panic >>= f) :=
  ⟨fun h => Records.bind (Records.stop Empty.elim (fun hu => hu) h.paired)⟩

/-- The socket that is offered is the one that the event holds from then on. -/
theorem postAcceptEvent (socket : S) : Pairing (δ := δ) (Win.postAcceptEvent socket) := by
  refine read_then fun sel => ?_
  cases sel.eventMaps socket with
  | none => exact pure _
  | some id =>
      dsimp only
      split
      · exact pure _
      have hanswer : ∀ (u : Selector S δ) r t,
          WinAsk.answer (.newSocket (sel.events id).asRawSocket) u r t → ∀ id',
            (t.events id').acceptSocket = (u.events id').acceptSocket := by
        rintro u r _ rfl id'
        rfl
      refine bind (ask (fun hu => hu) rfl hanswer) ?_
      rintro (e | s)
      · exact pure _
      refine ⟨fun {t hist} h => Records.bind (Records.modify (Records.bind ?_))⟩
      refine Records.watched (fun hu => hu) rfl (h.offered rfl _ _).paired ?_
      intro r u hu
      have hevents : u.events = (t.edit id (·.setAcceptSocket (some s))).events := by
        cases r with
        | error e => exact congrArg Selector.events hu
        | ok b =>
            obtain rfl := hu
            rfl
      exact Records.pure (h.offered hevents _ _)

theorem traversal : Traversal (S := S) (δ := δ) Pairing where
  pure := pure
  bind := bind
  read_then := read_then
  modify hf := modify fun t id _ ht => ((hf t).acceptSocket id).symm.trans ht
  ask := plain
  postAcceptEvent := postAcceptEvent

/-! ## The handlers -/

/-- The callback is called with the socket that the event held, or with an error. -/
theorem acceptCb {id : ℕ} {tcp : Except IoError S} (h : Offering sel hist)
    (hnone : (sel.events id).acceptSocket = none)
    (hcalls : CallsFor (hist.filterMap (acceptMark id)).getLast? tcp) :
    Hands (Win.acceptCb id tcp) (fun _ => Offering) sel hist := by
  unfold Win.acceptCb
  apply Records.read_then
  cases (sel.events id).entry.accept with
  | none => exact Records.pure h
  | some cb =>
      have hcalled := h.called hnone hcalls
      refine Records.call trivial rfl hcalled.paired hcalled ?_
      rintro u hist' r _ hu rfl
      exact hu

theorem acceptDone (id : ℕ) : Pairing (S := S) (δ := δ) (Win.acceptDone id) := by
  refine ⟨fun {sel hist} h => Records.read_then ?_⟩
  cases hsocket : (sel.events id).acceptSocket with
  | none => exact panic.hands h
  | some socket =>
      have hlast := h.last id socket hsocket
      have htaken := h.taken id
      refine Records.bind (Records.modify (Records.bind ?_))
      refine Records.ask (fun hu => hu) rfl htaken.paired ?_
      rintro result _ rfl
      refine Records.bind (Records.modify (Records.bind ?_))
      have hdone : Offering ((sel.edit id (·.setAcceptSocket none)).edit id (·.setInRead false))
          hist := htaken.edit id fun _ => rfl
      refine (acceptCb hdone ?_ ⟨socket, hlast, ?_⟩).mono fun ret t hist' ht => ?_
      · have hsame := (sel.edit id (·.setAcceptSocket none)).edit_keeps id
          (f := (·.setInRead false)) Event.acceptSocket (fun _ => rfl) id
        rw [hsame, sel.edit_self]
        rfl
      · rintro s hs
        cases result with
        | error e => exact absurd hs nofun
        | ok _ => exact (Except.ok.inj hs).symm
      · exact (traversal.accept_again id ret).hands ht

theorem readDone (id : ℕ) (status : CompletionStatus) :
    Pairing (S := S) (δ := δ) (Win.readDone id status) := by
  refine read_then fun sel => ?_
  split
  · exact acceptDone id
  split
  · exact bind (traversal._unregisterSocket _) fun _ => pure ()
  split
  · exact traversal.dropEvent id
  split
  · exact panic
  · refine bind (modify fun t id' _ ht => ?_) fun _ => traversal.read_again id
    have hsame := t.edit_keeps id (f := (·.fill status.bytesTransferred)) Event.acceptSocket
      (fun _ => rfl) id'
    exact hsame.symm.trans ht

/-! ## The loop and the calls -/

theorem dispatch (status : CompletionStatus) :
    Pairing (S := S) (δ := δ) (Win.dispatch status) := by
  have hdelivered : ∀ o, Pairing (S := S) (δ := δ) (.query (WinAsk.dispatch status o)) := by
    refine fun o => ⟨fun h => Records.ask (fun hu => hu) rfl h.paired fun _ t ht => ?_⟩
    exact h.keep fun id _ hid => (ht.listens id).2.symm.trans hid
  unfold Win.dispatch
  cases status.overlapped with
  | none => exact pure ()
  | some o =>
      cases o with
      | read id =>
          exact bind (hdelivered _) fun _ => bind (modify fun _ _ _ ht => ht) fun _ =>
            bind (readDone id status) fun _ => traversal.letGo id
      | write id => exact bind (hdelivered _) fun _ => traversal.holding id (traversal.writeDone id)

theorem registerSocket (buffer : EventBuffer S) (entry : EventEntry S δ) :
    Pairing (Win.registerSocket buffer entry) := by
  have hanswer : ∀ (u : Selector S δ) r t,
      WinAsk.answer (.addSocket entry.evEvents buffer.asRawSocket) u r t → ∀ id,
        (t.events id).acceptSocket = (u.events id).acceptSocket := by
    rintro u r _ rfl id
    rfl
  refine bind (traversal.removeEvent _) fun _ => bind (ask (fun hu => hu) rfl hanswer) ?_
  rintro (e | _)
  · exact bind (traversal.ask trivial) fun _ => pure _
  refine bind (modify fun t id acceptSocket ht => ?_) fun _ =>
    bind (traversal.checkSocketEvent _) ?_
  · by_cases hid : id = t.count
    · subst hid
      rw [t.insert_new] at ht
      exact absurd ht nofun
    · rwa [t.insert_old _ _ hid] at ht
  · rintro (e | _)
    · exact bind (traversal.removeEvent _) fun _ => pure _
    · exact pure _

/-- Every call keeps the sockets that are offered. -/
theorem code (op : WinCall S δ) : Pairing op.code := by
  by_cases hop : ∃ id f, op = .editBuffer id f
  · obtain ⟨id, f, rfl⟩ := hop
    refine modify fun t id' _ ht => ?_
    have hsame := t.edit_keeps id (f := (·.editBuffer f)) Event.acceptSocket (fun _ => rfl) id'
    exact hsame.symm.trans ht
  · exact traversal.code registerSocket dispatch fun id f heq => hop ⟨id, f, heq⟩

end Pairing

theorem offering_recorder :
    Recorder Offering (fun _ _ hist => AcceptsPaired hist) (winSystem S δ) WinAsk.accepts := by
  intro op sel hist _ h
  exact (Pairing.code op).hands (h.unseen fun _ => rfl)

/-! ## The main result -/

/-- In every run, each call of the accept callback of an event comes right after an offer
among the offers and calls of the event, and hands over no other socket. -/
theorem accepts_paired [Zero S] :
    (∀ c, (winSystem S δ).Reaches .new c →
      ∃ hist, (winSystem S δ).Recorded WinAsk.accepts .new hist c) ∧
    ∀ hist c, (winSystem S δ).Recorded WinAsk.accepts .new hist c → AcceptsPaired hist := by
  refine ⟨fun c hreach => hreach.recorded, fun hist c hrec => ?_⟩
  exact offering_recorder.always (fun _ _ h => h.paired) (fun _ _ _ h => h) hrec .new

/-- Listener 3 offers socket 4, and its callback is given the connection. -/
theorem accepts_paired_connection :
    ∃ hist c, (winSystem SOCKET Unit).Recorded WinAsk.accepts .new hist c ∧
      hist.filterMap (acceptMark 0) = [.offered 4, .called (.ok 4)] ∧ AcceptsPaired hist := by
  have start : (winSystem SOCKET Unit).Recorded WinAsk.accepts .new [] _ := .refl _
  have registered := (((start.call (.registerSocket (.new 3 0) (.newAccept 3
    (EventFlags.FLAG_READ ∪ EventFlags.FLAG_PERSIST ∪ EventFlags.FLAG_ACCEPT) (some 1) none
    none)) trivial trivial).answer (.ok ()) rfl).answer (.ok 4) rfl).answer (.ok false) rfl
  have selected := (registered.call .doSelect trivial trivial).answer
    (.ok [⟨0, ∅, some (.read 0)⟩]) rfl
  have completed := (selected.answer () (.read [] (by decide) rfl (Nat.zero_le _))).answer
    (.ok ()) rfl
  exact ⟨_, _, completed, rfl, accepts_paired.2 _ _ completed⟩

end TdRevent.Win
