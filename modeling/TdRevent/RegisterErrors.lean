import TdRevent.FailedCalls
import TdRevent.Unix.KqueueFilters
import TdRevent.Unix.Unregister
import TdRevent.Win.Callbacks

/-!
# A registration that replaces another

`registerSocket` takes the event that was registered under the number out of the map
before it makes the calls that may fail, and does not put it back. The event is dropped:
its socket is closed, at once or when a handler that holds it returns, and its end
callback is not run. A registration that fails drops its own event as well, so the
number is closed in either case and the kernel does not watch it any more. What the port
of Windows accepted before the failure stays.
-/

namespace TdRevent

open Interaction

variable {S δ E K Sys ι β : Type} {R : Sys → Type}

namespace Unix

/-- The call that adds a socket changes only what the kernel keeps and what it returned.
If it is refused the interests stay. -/
structure Added (interest : K → ι) (sel t : Selector S δ E K) (r : Except IoError Unit)
    (tr : List (Exchange (Selector S δ E K) (SockReply (S := S) R))) : Prop where
  told : ∃ evts kernel, t = { sel with evts := evts, kernel := kernel }
  silent : ∀ x ∈ tr, x.question.Silent
  refused : ∀ e, r = .error e → interest t.kernel = interest sel.kernel

/-- On epoll a call that is refused has no effect. -/
theorem Epoll.add_added {δ : Type} {os : Os SOCKET Epoll.Interest Epoll.EpollReply}
    (hos : Epoll.Obeys os) {socket : SOCKET} {evEvents : EventFlags}
    {sel t : Selector SOCKET δ (List Epoll.EpollEvent) Epoll.Interest} {r : Except IoError Unit}
    {tr : List (Exchange (Selector SOCKET δ (List Epoll.EpollEvent) Epoll.Interest)
      (SockReply (S := SOCKET) Epoll.EpollReply))}
    (htrace : (Epoll.epoll.add socket evEvents).Trace (SockAsk.answer os) sel tr r t) :
    Added id sel t r tr := by
  obtain ⟨⟨k, hk, rfl⟩, rfl⟩ := (Code.trace_query ..).mp htrace
  refine ⟨⟨sel.evts, k, rfl⟩, List.forall_mem_singleton.mpr trivial, ?_⟩
  rintro e rfl
  exact hos.refused hk

/-- On kqueue a call is refused because the socket is closed, and then it has no
effect. -/
theorem Kqueue.add_added {δ : Type} {socket : SOCKET} {evEvents : EventFlags}
    {sel t : Selector SOCKET δ Kqueue.Events Kqueue.Kernel} {r : Except IoError Unit}
    {tr : List (Exchange (Selector SOCKET δ Kqueue.Events Kqueue.Kernel)
      (SockReply (S := SOCKET) Kqueue.KqueueReply))}
    (hvector : ∀ e ∈ sel.evts.sysEvents, ¬ e.alters)
    (htrace : (Kqueue.kqueue.add socket evEvents).Trace (SockAsk.answer Kqueue.kqueueOs)
      sel tr r t) :
    Added Kqueue.Kernel.filters sel t r tr := by
  obtain ⟨hsilent, hsubmitted⟩ :=
    (Kqueue.submits (Or.inl (by decide))).trace (fun _ _ _ _ _ ht => ht) htrace
  obtain ⟨hr, rfl⟩ := hsubmitted hvector
  refine ⟨⟨_, _, rfl⟩, hsilent, ?_⟩
  rintro e rfl
  have hclosed : ¬ sel.kernel.live socket = true := fun hlive =>
    absurd (hr.mpr (Or.inl hlive)) nofun
  simp only [Kqueue.submitted, Kqueue.Kernel.adjust, if_neg hclosed]

variable [DecidableEq S] {B : Backend S δ E K R} {os : Os S K R} {sel t : Selector S δ E K}
  {buffer : EventBuffer S} {entry : EventEntry S δ} {socket : S} {r : Except IoError Unit}
  {tr : List (Exchange (Selector S δ E K) (SockReply (S := S) R))}

/-- An event that only the map holds is closed as it is taken out. -/
theorem removeEvent_sole {id : ℕ}
    (htrace : (removeEvent socket).Trace (SockAsk.answer os) sel tr () t)
    (hmaps : sel.eventMaps socket = some id) (hsocket : (sel.events id).asRawSocket = socket)
    (hholds : sel.owners.holds id = 0) (hopen : sel.owners.isOpen id = true) :
    ∃ k, os.closes socket sel.kernel k ∧
      t = { (sel.remove socket).shut id with kernel := k } := by
  have hrefs : (sel.remove socket).refs id = 0 := by
    change sel.owners.holds id +
      (if (sel.remove socket).eventMaps (sel.events id).asRawSocket = some id then 1 else 0) = 0
    rw [hsocket, sel.remove_maps, hholds, if_neg nofun]
  unfold removeEvent freeUnowned Code.when at htrace
  rw [Code.trace_read_then, hmaps] at htrace
  dsimp only at htrace
  rw [Code.trace_modify_then, Code.trace_read_then, if_pos ⟨hrefs, hopen⟩,
    Code.trace_modify_then] at htrace
  obtain ⟨⟨k, hk, rfl⟩, -⟩ := (Code.trace_query ..).mp htrace
  exact ⟨k, hsocket ▸ hk, rfl⟩

/-- What a registration keeps, by its result. -/
theorem registerSocket_trace {interest : K → S → β} {absent : β}
    (hcloses : ∀ {s k k'}, os.closes s k k' →
      interest k' = Function.update (interest k) s absent)
    (hadded : ∀ {u t r tr}, u.evts = sel.evts →
      (B.add buffer.asRawSocket entry.evEvents).Trace (SockAsk.answer os) u tr r t →
      Added interest u t r tr)
    (htrace : (registerSocket B buffer entry).Trace (SockAsk.answer os) sel tr r t) :
    (∀ e, r = .error e → ((sel.registry interest).Kept (t.registry interest) ↔
      sel.eventMaps buffer.asRawSocket = none ∧
        interest sel.kernel buffer.asRawSocket = absent)) ∧
    (r = .ok () →
      ((sel.registry interest).EndRun (.endCb · buffer.asRawSocket) buffer.asRawSocket tr ↔
        ¬ (sel.registry interest).Awaits buffer.asRawSocket)) := by
  obtain ⟨⟨⟩, u, tr₁, _, rfl, hremove, hrest⟩ := (Code.trace_bind ..).mp htrace
  -- the old event is dropped
  obtain ⟨hsilent₁, owners, evts, kernel, hevts, hu⟩ :=
    (Local.removeEvent (h := id) _).anywhere.trace (fun _ _ _ _ _ ht => ht) hremove
  have hfresh : sel.eventMaps buffer.asRawSocket = none → u = sel := by
    intro hnone
    unfold removeEvent at hremove
    rw [Code.trace_read_then, hnone] at hremove
    exact hremove.2.2
  -- the new event takes its place
  unfold addEvent at hrest
  rw [Code.trace_modify_then] at hrest
  obtain ⟨ret, v, tr₂, tr₃, rfl, hadd, hrest⟩ := (Code.trace_bind ..).mp hrest
  obtain ⟨⟨evts', kernel', rfl⟩, hsilent₂, hrefused⟩ := hadded (by rw [hu]; exact hevts) hadd
  cases ret with
  | ok _ =>
      obtain ⟨rfl, rfl, rfl⟩ := hrest
      refine ⟨nofun, fun _ => Registry.endRun_iff fun x hx id hquestion => ?_⟩
      have hx' : x.question.Silent := by
        rcases List.mem_append.mp hx with hx | hx
        · exact hsilent₁ x hx
        · exact hsilent₂ x (List.append_nil tr₂ ▸ hx)
      rw [hquestion] at hx'
      exact hx'
  | error e =>
      refine ⟨fun _ _ => ?_, ?_⟩
      · obtain ⟨⟨⟩, w, _, _, rfl, hdrop, -, -, rfl⟩ := (Code.trace_bind ..).mp hrest
        obtain ⟨k, hk, rfl⟩ := removeEvent_sole hdrop (u.insert_maps buffer entry)
          (congrArg Event.asRawSocket (u.insert_new buffer entry))
          (u.owners.enroll_holds_self _) (u.owners.enroll_isOpen_self _)
        refine Registry.kept_forgotten_iff ?_ fun hnone => ?_
        · change Function.update (Function.update u.eventMaps _ _) _ none = _
          rw [hu, Function.update_idem]
          exact Function.update_idem ..
        · obtain rfl := hfresh hnone
          exact (hcloses hk).trans (congrArg (Function.update · _ absent) (hrefused e rfl))
      · rintro rfl
        obtain ⟨_, _, _, _, _, _, -, hret, -⟩ := (Code.trace_bind ..).mp hrest
        exact absurd hret nofun

end Unix

namespace Win

variable {S δ β : Type} {u t : Selector S δ} {socket : S}
  {tr : List (Exchange (Selector S δ) (WinReply (S := S)))}

/-- The system accepts an operation. -/
def Accepted : Exchange (Selector S δ) (WinReply (S := S)) → Prop
  | ⟨.acceptOverlapped _ _ _, _, .ok _, _⟩ => True
  | ⟨.readOverlapped _ _ _, _, .ok _, _⟩ => True
  | ⟨.writeOverlapped _ _ _, _, .ok _, _⟩ => True
  | _ => False

/-- Code that posts operations runs no callback and leaves the map alone. It only
adds to what is outstanding, and the port stays exactly if nothing is accepted. -/
structure Posts (u t : Selector S δ) (tr : List (Exchange (Selector S δ) (WinReply (S := S)))) :
    Prop where
  maps : t.eventMaps = u.eventMaps
  silent : ∀ x ∈ tr, ¬ x.question.user
  posted : t.port.posted = u.port.posted
  outstanding : u.port.outstanding ≤ t.port.outstanding
  port : t.port = u.port ↔ ∀ x ∈ tr, ¬ Accepted x

theorem Posts.local_change (hmaps : t.eventMaps = u.eventMaps) (hport : t.port = u.port) :
    Posts u t [] where
  maps := hmaps
  silent := nofun
  posted := congrArg Port.posted hport
  outstanding := (congrArg Port.outstanding hport).ge
  port := iff_of_true hport nofun

theorem Posts.refl (u : Selector S δ) : Posts u u [] := .local_change rfl rfl

theorem Posts.append {v : Selector S δ} {tr' : List (Exchange (Selector S δ) (WinReply (S := S)))}
    (h : Posts u v tr) (h' : Posts v t tr') : Posts u t (tr ++ tr') where
  maps := h'.maps.trans h.maps
  silent x hx := (List.mem_append.mp hx).elim (h.silent x) (h'.silent x)
  posted := h'.posted.trans h.posted
  outstanding := h.outstanding.trans h'.outstanding
  port := by
    rw [List.forall_mem_append, ← h.port, ← h'.port]
    refine ⟨fun hsame => ?_, fun hsame => hsame.2.trans hsame.1⟩
    -- what is outstanding in between is squeezed
    have hv : v.port = u.port := by
      have houtstanding := congrArg Port.outstanding hsame
      exact congrArg₂ Port.mk (le_antisymm (h'.outstanding.trans houtstanding.le) h.outstanding)
        h.posted
    exact ⟨hv, hsame.trans hv.symm⟩

/-- A question whose answer changes nothing. -/
theorem Posts.ask {q : WinAsk S} {r : WinReply q} (huser : ¬ q.user)
    (hrefused : ¬ Accepted (⟨q, u, r, u⟩ : Exchange (Selector S δ) (WinReply (S := S)))) :
    Posts u u [⟨q, u, r, u⟩] where
  maps := rfl
  silent := List.forall_mem_singleton.mpr huser
  posted := rfl
  outstanding := le_rfl
  port := iff_of_true rfl (List.forall_mem_singleton.mpr hrefused)

/-- An operation that is accepted. -/
theorem Posts.accept {q : WinAsk S} {r : WinReply q} {o : Overlapped} (huser : ¬ q.user)
    (haccepted : Accepted (⟨q, u, r, { u with port := u.port.enqueue o }⟩ :
      Exchange (Selector S δ) (WinReply (S := S)))) :
    Posts u { u with port := u.port.enqueue o }
      [⟨q, u, r, { u with port := u.port.enqueue o }⟩] where
  maps := rfl
  silent := List.forall_mem_singleton.mpr huser
  posted := rfl
  outstanding := le_update_self_iff.mpr (Nat.le_succ _)
  port := by
    refine iff_of_false (fun hsame => ?_) fun h => h _ List.mem_cons_self haccepted
    have ho : Function.update u.port.outstanding o (u.port.outstanding o + 1) =
        u.port.outstanding := congrArg Port.outstanding hsame
    rw [Function.update_eq_self_iff] at ho
    exact Nat.succ_ne_self _ ho

/-- What the code posts, whatever the answers are. -/
structure OnlyPosts (c : WinCode S δ β) : Prop where
  trace : ∀ {u tr r t}, c.Trace WinAsk.answer u tr r t → Posts u t tr

namespace OnlyPosts

variable {γ : Type} {c : WinCode S δ β} {f : β → WinCode S δ γ}

theorem pure (b : β) : OnlyPosts (Pure.pure b : WinCode S δ β) := by
  constructor
  rintro u _ _ _ ⟨rfl, rfl, rfl⟩
  exact .refl _

theorem read {f : Selector S δ → WinCode S δ γ} (h : ∀ sel, OnlyPosts (f sel)) :
    OnlyPosts (Code.read >>= f) := ⟨fun {u} _ _ _ htrace => (h u).trace htrace⟩

theorem modify {g : Selector S δ → Selector S δ}
    (hmaps : ∀ sel, (g sel).eventMaps = sel.eventMaps)
    (hport : ∀ sel, (g sel).port = sel.port) : OnlyPosts (.modify g : WinCode S δ Unit) := by
  constructor
  rintro u _ _ _ ⟨rfl, rfl, rfl⟩
  exact .local_change (hmaps u) (hport u)

theorem bind (hc : OnlyPosts c) (hf : ∀ b, OnlyPosts (f b)) : OnlyPosts (c >>= f) := by
  refine ⟨fun htrace => ?_⟩
  obtain ⟨b, v, tr, tr', rfl, hfirst, hrest⟩ := (Code.trace_bind ..).mp htrace
  exact (hc.trace hfirst).append ((hf b).trace hrest)

theorem map {g : β → γ} (hc : OnlyPosts c) : OnlyPosts (do
    let b ← c
    Pure.pure (g b)) := hc.bind fun _ => .pure _

theorem edit (id : ℕ) (g : Event S δ → Event S δ) : OnlyPosts (Win.edit id g) :=
  .modify (fun _ => rfl) fun _ => rfl

/-- A question that changes nothing, or is an operation that is accepted. -/
theorem query {q : WinAsk S} (huser : ¬ q.user)
    (h : ∀ (u : Selector S δ) r t, WinAsk.answer q u r t →
      t = u ∧ ¬ Accepted (⟨q, u, r, t⟩ : Exchange (Selector S δ) (WinReply (S := S))) ∨
      ∃ o, t = { u with port := u.port.enqueue o } ∧
        Accepted (⟨q, u, r, t⟩ : Exchange (Selector S δ) (WinReply (S := S)))) :
    OnlyPosts (δ := δ) (.query q) := by
  refine ⟨fun {u _ r t} htrace => ?_⟩
  obtain ⟨hanswer, rfl⟩ := (Code.trace_query ..).mp htrace
  rcases h u r t hanswer with ⟨rfl, hrefused⟩ | ⟨o, rfl, haccepted⟩
  · exact .ask huser hrefused
  · exact .accept huser haccepted

theorem newSocket (socket : S) : OnlyPosts (δ := δ) (.query (.newSocket socket)) :=
  query (fun hu => hu) fun _ _ _ ht => Or.inl ⟨ht, fun h => h⟩

theorem acceptOverlapped (socket s : S) (o : Overlapped) :
    OnlyPosts (δ := δ) (.query (.acceptOverlapped socket s o)) := by
  refine query (fun hu => hu) fun u r t ht => ?_
  cases r with
  | error e => exact Or.inl ⟨ht, fun h => h⟩
  | ok _ => exact Or.inr ⟨o, ht, trivial⟩

theorem readOverlapped (socket : S) (capacity : ℕ) (o : Overlapped) :
    OnlyPosts (δ := δ) (.query (.readOverlapped socket capacity o)) := by
  refine query (fun hu => hu) fun u r t ht => ?_
  cases r with
  | error e => exact Or.inl ⟨ht, fun h => h⟩
  | ok _ => exact Or.inr ⟨o, ht, trivial⟩

theorem writeOverlapped (socket : S) (data : List UInt8) (o : Overlapped) :
    OnlyPosts (δ := δ) (.query (.writeOverlapped socket data o)) := by
  refine query (fun hu => hu) fun u r t ht => ?_
  cases r with
  | error e => exact Or.inl ⟨ht, fun h => h⟩
  | ok _ => exact Or.inr ⟨o, ht.1, trivial⟩

theorem postAcceptEvent (socket : S) : OnlyPosts (δ := δ) (Win.postAcceptEvent socket) := by
  refine .read fun sel => ?_
  split
  · exact .pure _
  · split
    · exact .pure _
    · refine (newSocket _).bind fun ret => ?_
      cases ret with
      | error e => exact .pure _
      | ok s => exact (edit _ _).bind fun _ => (acceptOverlapped ..).map

theorem postReadEvent (socket : S) : OnlyPosts (δ := δ) (Win.postReadEvent socket) := by
  refine .read fun sel => ?_
  split
  · exact .pure _
  · split
    · exact .pure _
    · split
      · exact .pure _
      · exact (readOverlapped ..).map

theorem writeOut (id : ℕ) : OnlyPosts (S := S) (δ := δ) (Win.writeOut id) := by
  refine .read fun sel => ?_
  split
  · exact .pure _
  · refine (writeOverlapped ..).bind fun res => ?_
    rcases res with _ | _ | n
    · exact .pure _
    · have htaken : OnlyPosts (.modify (·.takeAll id) : WinCode S δ Unit) :=
        modify (fun _ => rfl) fun _ => rfl
      exact htaken.bind fun _ => .pure _
    · have htaken : OnlyPosts (.modify (·.takeFront id n) : WinCode S δ Unit) :=
        modify (fun _ => rfl) fun _ => rfl
      refine htaken.bind fun _ => .read fun sel => bind ?_ fun _ => .pure _
      unfold Code.when
      split
      · exact edit ..
      · exact .pure _

theorem postWriteEvent (socket : S) (data : Option (List UInt8)) :
    OnlyPosts (δ := δ) (Win.postWriteEvent socket data) := by
  refine .read fun sel => ?_
  split
  · exact .pure _
  · refine bind ?_ fun _ => writeOut _
    cases data with
    | none => exact .pure _
    | some data => exact (edit ..).bind fun _ => modify (fun _ => rfl) fun _ => rfl

theorem checkSocketEvent (socket : S) : OnlyPosts (δ := δ) (Win.checkSocketEvent socket) := by
  refine .read fun sel => ?_
  split
  · exact .pure _
  · dsimp only
    split
    · exact postAcceptEvent socket
    · refine bind ?_ fun ret => ?_
      · split
        · exact postReadEvent socket
        · exact .pure _
      · cases ret with
        | error e => exact .pure _
        | ok _ =>
            dsimp only
            split
            · exact (postWriteEvent ..).map
            · exact .pure _

end OnlyPosts

/-- A number is taken out of the map. At most its socket is closed. -/
theorem removeEvent_trace [DecidableEq S]
    (htrace : (Win.removeEvent socket).Trace WinAsk.answer u tr () t) :
    (∀ x ∈ tr, ¬ x.question.user ∧ ¬ Accepted x) ∧
      ∃ owners, t = { u.remove socket with owners := owners } := by
  obtain ⟨hcloses, ht⟩ := Code.wp_trace _ (removeEvent_wp
    (C := ⟨fun q _ => ∃ s, q = .close s, WinAsk.answer⟩) (fun s _ => ⟨s, rfl⟩)
    (fun _ _ _ _ ht => ht) socket) htrace
  refine ⟨?_, ht⟩
  rintro ⟨q, before, reply, after⟩ hx
  obtain ⟨s, rfl⟩ := hcloses _ hx
  exact ⟨fun hu => hu, fun haccepted => haccepted⟩

/-- What a registration keeps, by its result. -/
theorem registerSocket_trace [DecidableEq S] {sel : Selector S δ} {buffer : EventBuffer S}
    {entry : EventEntry S δ} {r : Except IoError Unit}
    (htrace : (registerSocket buffer entry).Trace WinAsk.answer sel tr r t) :
    (∀ e, r = .error e → (sel.registry.Kept t.registry ↔
      sel.eventMaps buffer.asRawSocket = none ∧ ∀ x ∈ tr, ¬ Accepted x)) ∧
    (r = .ok () → (sel.registry.EndRun .endCb buffer.asRawSocket tr ↔
      ¬ sel.registry.Awaits buffer.asRawSocket)) := by
  obtain ⟨⟨⟩, u, tr₁, _, rfl, hremove, hrest⟩ := (Code.trace_bind ..).mp htrace
  obtain ⟨hquiet, owners, rfl⟩ := removeEvent_trace hremove
  obtain ⟨ret, u, tr₂, hadd, rfl, hadded⟩ := (Code.trace_query_then ..).mp hrest
  cases ret with
  | error e =>
      obtain rfl := hadd
      obtain ⟨-, _, _, rfl, rfl, rfl, rfl, rfl⟩ := (Code.trace_query_then ..).mp hadded
      refine ⟨fun _ _ => ?_, fun hok => by cases hok⟩
      rw [Registry.kept_iff rfl]
      refine and_congr_right fun _ => iff_of_true rfl (List.forall_mem_append.mpr ⟨?_, ?_⟩)
      · exact fun x hx => (hquiet x hx).2
      · exact List.forall_mem_cons.mpr ⟨fun h => h, List.forall_mem_singleton.mpr fun h => h⟩
  | ok _ =>
      obtain rfl := hadd
      rw [Code.trace_modify_then] at hadded
      obtain ⟨ret, v, tr₃, tr₄, rfl, hcheck, hends⟩ := (Code.trace_bind ..).mp hadded
      have hchecked := (OnlyPosts.checkSocketEvent _).trace hcheck
      cases ret with
      | error e =>
          obtain ⟨⟨⟩, _, _, _, rfl, hdrop, rfl, rfl, rfl⟩ := (Code.trace_bind ..).mp hends
          obtain ⟨hdropped, owners', rfl⟩ := removeEvent_trace hdrop
          refine ⟨fun _ _ => ?_, fun hok => by cases hok⟩
          have hmaps : (v.remove buffer.asRawSocket).eventMaps =
              Function.update sel.eventMaps buffer.asRawSocket none := by
            rw [Selector.remove, hchecked.maps, Selector.insert, Selector.remove,
              Function.update_idem, Function.update_idem]
          rw [Registry.kept_iff hmaps]
          refine and_congr_right fun _ => hchecked.port.trans ?_
          simp only [List.forall_mem_append, List.forall_mem_cons, List.append_nil]
          refine ⟨fun hrefused => ⟨fun x hx => (hquiet x hx).2, fun h => h, hrefused,
            fun x hx => (hdropped x hx).2⟩, fun h => h.2.2.1⟩
      | ok _ =>
          obtain ⟨rfl, rfl, rfl⟩ := hends
          refine ⟨fun e herr => (by cases herr),
            fun _ => Registry.endRun_iff fun x hx id hquestion => ?_⟩
          have hsilent : ¬ x.question.user := by
            simp only [List.mem_append, List.mem_cons, List.append_nil] at hx
            rcases hx with hx | rfl | hx
            · exact (hquiet x hx).1
            · exact fun hu => hu
            · exact hchecked.silent x hx
          exact hsilent (hquestion ▸ trivial)

end Win

/-! ## The main result -/

/-- A registration that fails keeps the map and the interests exactly if the number was
neither registered nor watched and, on Windows, no operation was accepted before. One that
succeeds has run the end callback of the replaced event exactly if there is none to
run. -/
theorem registerSocket_keeps {δ : Type} :
    (∀ (os : Unix.Os Unix.SOCKET Unix.Epoll.Interest Unix.Epoll.EpollReply)
        (sel t : Unix.Selector Unix.SOCKET δ (List Unix.Epoll.EpollEvent) Unix.Epoll.Interest)
        (buffer : EventBuffer Unix.SOCKET) (entry : EventEntry Unix.SOCKET δ)
        (tr : List (Exchange _ _)) (r : Except IoError Unit),
      Unix.Epoll.Obeys os →
      (Unix.Epoll.registerSocket buffer entry).Trace (Unix.SockAsk.answer os) sel tr r t →
      (∀ e, r = .error e → ((sel.registry id).Kept (t.registry id) ↔
        sel.eventMaps buffer.asRawSocket = none ∧ sel.kernel buffer.asRawSocket = none)) ∧
      (r = .ok () →
        ((sel.registry id).EndRun (.endCb · buffer.asRawSocket) buffer.asRawSocket tr ↔
          ¬ (sel.registry id).Awaits buffer.asRawSocket))) ∧
    (∀ (sel t : Unix.Selector Unix.SOCKET δ Unix.Kqueue.Events Unix.Kqueue.Kernel)
        (buffer : EventBuffer Unix.SOCKET) (entry : EventEntry Unix.SOCKET δ)
        (tr : List (Exchange _ _)) (r : Except IoError Unit),
      (∀ e ∈ sel.evts.sysEvents, ¬ e.alters) →
      (Unix.Kqueue.registerSocket buffer entry).Trace
        (Unix.SockAsk.answer Unix.Kqueue.kqueueOs) sel tr r t →
      (∀ e, r = .error e →
        ((sel.registry Unix.Kqueue.Kernel.filters).Kept (t.registry Unix.Kqueue.Kernel.filters) ↔
          sel.eventMaps buffer.asRawSocket = none ∧
            sel.kernel.filters buffer.asRawSocket = ∅)) ∧
      (r = .ok () →
        ((sel.registry Unix.Kqueue.Kernel.filters).EndRun (.endCb · buffer.asRawSocket)
            buffer.asRawSocket tr ↔
          ¬ (sel.registry Unix.Kqueue.Kernel.filters).Awaits buffer.asRawSocket))) ∧
    ∀ (sel t : Win.Selector Win.SOCKET δ) (buffer : EventBuffer Win.SOCKET)
        (entry : EventEntry Win.SOCKET δ) (tr : List (Exchange _ _)) (r : Except IoError Unit),
      (Win.registerSocket buffer entry).Trace Win.WinAsk.answer sel tr r t →
      (∀ e, r = .error e → (sel.registry.Kept t.registry ↔
        sel.eventMaps buffer.asRawSocket = none ∧ ∀ x ∈ tr, ¬ Win.Accepted x)) ∧
      (r = .ok () → (sel.registry.EndRun .endCb buffer.asRawSocket tr ↔
        ¬ sel.registry.Awaits buffer.asRawSocket)) := by
  refine ⟨fun os sel t buffer entry tr r hos htrace => ?_,
    fun sel t buffer entry tr r hvector htrace => ?_,
    fun sel t buffer entry tr r htrace => Win.registerSocket_trace htrace⟩
  · refine Unix.registerSocket_trace ?_ (fun _ hadd => Unix.Epoll.add_added hos hadd) htrace
    exact hos.closes
  · refine Unix.registerSocket_trace ?_ (fun hevts hadd =>
      Unix.Kqueue.add_added (hevts ▸ hvector) hadd) htrace
    rintro s k k' rfl
    rfl

/-- A new number is registered while other sockets are. The kernel of epoll refuses it,
that of kqueue takes it, and on Windows the first read fails. -/
theorem registerSocket_keeps_new :
    (∃ tr t, (Unix.Epoll.registerSocket (.new 5 0) .default).Trace
        (Unix.SockAsk.answer Unix.Epoll.epollOs) Unix.Epoll.twoSockets tr (.error (.os 28)) t ∧
      (Unix.Epoll.twoSockets.registry id).Kept (t.registry id)) ∧
    (∃ tr t, (Unix.Kqueue.registerSocket (.new 5 0) .default).Trace
        (Unix.SockAsk.answer Unix.Kqueue.kqueueOs) Unix.Kqueue.twoSockets tr (.ok ()) t ∧
      (Unix.Kqueue.twoSockets.registry Unix.Kqueue.Kernel.filters).EndRun (.endCb · 5) 5 tr) ∧
    ∃ (sel t : Win.Selector Win.SOCKET Unit) (tr : List (Exchange _ _)),
      (Win.registerSocket (.new 5 0) (.newEvfd 5 EventFlags.FLAG_READ)).Trace
        Win.WinAsk.answer sel tr (.error (.os 10054)) t ∧
      sel.eventMaps 3 = some 0 ∧ sel.port.outstanding (.read 0) = 1 ∧
      sel.registry.Kept t.registry := by
  refine ⟨?_, ?_, ?_⟩
  · have htrace : ∃ tr t, (Unix.Epoll.registerSocket (.new 5 0) .default).Trace
        (Unix.SockAsk.answer Unix.Epoll.epollOs) Unix.Epoll.twoSockets tr (.error (.os 28)) t :=
      ⟨_, _, .error (.os 28), _, _, ⟨_, Unix.Epoll.epollOs_error (by decide) _, rfl⟩, rfl,
        (), _, _, ⟨_, rfl, rfl⟩, rfl, rfl, rfl, rfl⟩
    obtain ⟨tr, t, htrace⟩ := htrace
    exact ⟨tr, t, htrace, ((registerSocket_keeps.1 _ _ _ _ _ _ _ Unix.Epoll.epollOs_obeys
      htrace).1 _ rfl).mpr ⟨rfl, rfl⟩⟩
  · have htrace : ∃ tr t, (Unix.Kqueue.registerSocket (.new 5 0) .default).Trace
        (Unix.SockAsk.answer Unix.Kqueue.kqueueOs) Unix.Kqueue.twoSockets tr (.ok ()) t :=
      ⟨_, _, .ok (), _, _, ⟨_, Unix.Kqueue.kqueueOs_ok (by decide), rfl⟩, rfl, rfl, rfl, rfl⟩
    obtain ⟨tr, t, htrace⟩ := htrace
    refine ⟨tr, t, htrace, ((registerSocket_keeps.2.1 _ _ _ _ _ _ (List.forall_mem_nil _)
      htrace).2 rfl).mpr ?_⟩
    rintro ⟨id, hid, -⟩
    exact absurd hid nofun
  · let sel : Win.Selector Win.SOCKET Unit :=
      { Win.Selector.new.insert (.new 3 0) (.newEvfd 3 EventFlags.FLAG_READ) with
        port := Win.Port.new.enqueue (.read 0) }
    have htrace : ∃ tr t, (Win.registerSocket (.new 5 0)
          (.newEvfd 5 EventFlags.FLAG_READ)).Trace Win.WinAsk.answer sel tr
          (.error (.os 10054)) t ∧ ∀ x ∈ tr, ¬ Win.Accepted x := by
      refine ⟨_, _, ⟨.ok (), _, _, rfl, rfl, .error (.os 10054), _, _, rfl, rfl,
        (), _, _, rfl, rfl, rfl, rfl, rfl⟩, ?_⟩
      exact List.forall_mem_cons.mpr ⟨fun h => h, List.forall_mem_cons.mpr
        ⟨fun h => h, List.forall_mem_singleton.mpr fun h => h⟩⟩
    obtain ⟨tr, t, htrace, hrefused⟩ := htrace
    exact ⟨sel, t, tr, htrace, rfl, rfl,
      ((registerSocket_keeps.2.2 _ _ _ _ _ _ htrace).1 _ rfl).mpr ⟨rfl, hrefused⟩⟩

/-- Socket 3 is registered twice. On epoll its descriptor is closed with the first event,
so the kernel refuses the second one, and neither the map nor the kernel knows the number
any more. On kqueue the read callback of the first event makes the call, so the descriptor
is still open, the call succeeds, and the end callback of the first event is not run. -/
theorem registerSocket_loses :
    (∃ c tr t, (Unix.Epoll.epollSystem Unit).Reaches (.new [] fun _ => none) c ∧ c.stack = [] ∧
      (Unix.Epoll.registerSocket (.new 3 0) .default).Trace
        (Unix.SockAsk.answer Unix.Epoll.epollOs) c.state tr (.error (.os 9)) t ∧
      t.eventMaps 3 = none ∧ t.kernel 3 = none ∧
      ¬ (c.state.registry id).Kept (t.registry id)) ∧
    ∃ c tr t, (Unix.Kqueue.kqueueSystem Unit).Reaches
        (.new .new ⟨fun _ => false, fun _ => ∅⟩) c ∧
      c.stack.map (·.question) = [.readCb 0] ∧
      (Unix.Kqueue.registerSocket (.new 3 0) (.newEvfd 3 EventFlags.FLAG_READ)).Trace
        (Unix.SockAsk.answer Unix.Kqueue.kqueueOs) c.state tr (.ok ()) t ∧
      ¬ (c.state.registry Unix.Kqueue.Kernel.filters).EndRun (.endCb · 3) 3 tr := by
  constructor
  · have start := System.Reaches.refl (S := Unix.Epoll.epollSystem Unit) (.new [] fun _ => none)
    have registered := (start.call (.registerSocket (.new 3 0) .default) trivial trivial).answer
      (.ok ()) ⟨_, Unix.Epoll.epollOs_ok (by decide), rfl⟩
    refine ⟨_, _, _, registered, rfl, ⟨(), _, _, ⟨_, rfl, rfl⟩, rfl, .error (.os 9), _, _,
      ⟨_, Unix.Epoll.epollOs_error (by decide) _, rfl⟩, rfl, (), _, _, ⟨_, rfl, rfl⟩, rfl,
      rfl, rfl, rfl⟩, rfl, rfl, fun hkept => ?_⟩
    exact absurd (congrFun hkept.maps 3) nofun
  · have start := System.Reaches.refl (S := Unix.Kqueue.kqueueSystem Unit)
      (.new .new ⟨fun _ => false, fun _ => ∅⟩)
    have opened := (start.call .openSocket trivial trivial).answer (3 : Unix.SOCKET)
      ⟨_, ⟨rfl, rfl⟩, rfl⟩
    have registered := (opened.call (.registerSocket (.new 3 0) (.newEvent 3
      EventFlags.FLAG_READ (some 1) none (some 1) none)) trivial trivial).answer (.ok ())
      ⟨_, Unix.Kqueue.kqueueOs_ok (by decide), rfl⟩
    have reading := (registered.call (.readDone 3) trivial trivial).answer (.ok [7])
      ⟨rfl, by rintro _ ⟨⟩; exact EventBuffer.new_room (3 : Unix.SOCKET) 0⟩
    refine ⟨_, _, _, reading, rfl, ⟨.ok (), _, _,
      ⟨_, Unix.Kqueue.kqueueOs_ok (by decide), rfl⟩, rfl, rfl, rfl, rfl⟩, fun hrun => ?_⟩
    obtain ⟨x, hx, hquestion⟩ := hrun 0 rfl nofun
    rw [List.mem_singleton.mp hx] at hquestion
    exact absurd hquestion nofun

end TdRevent
