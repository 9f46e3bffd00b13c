import TdRevent.Win.Maintains
import TdRevent.Collections.Numbering

/-!
# Outstanding operations of the Windows selector

No address may be used by two operations at once. The flags `isInRead` and
`isInWrite` are to guard the posts, but the first posts of an event set
neither, and a write that drains the buffer does not set its flag. An address
is used once as long as every post that meets an outstanding operation is
stopped by the guards it has.
-/

namespace TdRevent.Win

open Interaction Discipline

variable {S δ : Type}

/-- Nothing is outstanding on the address. -/
def Idle (port : Port) (o : Overlapped) : Prop := port.outstanding o = 0

/-- Every address is used by at most one operation. -/
def Port.Single (port : Port) : Prop := ∀ o, port.outstanding o ≤ 1

/-- One more operation is possible on an idle address only. -/
theorem Port.enqueue_single_iff {port : Port} (h : port.Single) (o : Overlapped) :
    (port.enqueue o).Single ↔ Idle port o := by
  constructor
  · intro hsingle
    have hself := hsingle o
    rw [port.enqueue_self] at hself
    exact Nat.le_zero.mp (Nat.le_of_succ_le_succ hself)
  · intro hidle o'
    by_cases ho : o' = o
    · subst ho
      rw [port.enqueue_self]
      exact Nat.succ_le_succ (Nat.le_of_eq hidle)
    · rw [port.enqueue_of_ne _ ho]
      exact h o'

/-- Nothing is outstanding for the events that are still to come. -/
structure Fresh (sel : Selector S δ) : Prop where
  fresh : ∀ o, sel.count ≤ o.id → Idle sel.port o
  maps : Numbered sel.eventMaps sel.count

namespace Fresh

variable {sel : Selector S δ} (h : Fresh sel)

theorem new [Zero S] : Fresh (.new : Selector S δ) := ⟨fun _ _ => rfl, Numbered.empty⟩

include h

/-- Only the port, the map and the number of events matter. -/
theorem of_same {t : Selector S δ} (hport : t.port = sel.port) (hcount : t.count = sel.count)
    (hmaps : t.eventMaps = sel.eventMaps) : Fresh t := by
  refine ⟨fun o ho => ?_, ?_⟩
  · rw [hport]
    exact h.fresh o (hcount ▸ ho)
  · rw [hmaps, hcount]
    exact h.maps

/-- Operations are completed. -/
theorem fewer {port : Port} (hless : ∀ o, port.outstanding o ≤ sel.port.outstanding o) :
    Fresh { sel with port := port } where
  fresh o ho := Nat.le_zero.mp ((hless o).trans_eq (h.fresh o ho))
  maps := h.maps

/-- An operation is posted for an event in the map. -/
theorem enqueue {socket : S} {o : Overlapped} (hmaps : sel.eventMaps socket = some o.id) :
    Fresh { sel with port := sel.port.enqueue o } := by
  refine ⟨fun o' ho' => ?_, h.maps⟩
  have hne : o' ≠ o := by
    rintro rfl
    exact absurd (h.maps socket o'.id hmaps) (Nat.not_lt.mpr ho')
  exact (sel.port.enqueue_of_ne _ hne).trans (h.fresh o' ho')

theorem insert [DecidableEq S] (buffer : EventBuffer S) (entry : EventEntry S δ) :
    Fresh (sel.insert buffer entry) :=
  ⟨fun o ho => h.fresh o ((Nat.le_succ _).trans ho), h.maps.insert buffer.asRawSocket⟩

theorem remove [DecidableEq S] (socket : S) : Fresh (sel.remove socket) :=
  ⟨h.fresh, h.maps.remove socket⟩

end Fresh

/-- The invariant of the port. -/
structure Outstanding (sel : Selector S δ) : Prop where
  single : sel.port.Single
  fresh : ∀ o, sel.count ≤ o.id → Idle sel.port o
  maps : Numbered sel.eventMaps sel.count

namespace Outstanding

variable {sel : Selector S δ} (h : Outstanding sel)

theorem of_fresh (hsingle : sel.port.Single) (hfresh : Fresh sel) : Outstanding sel :=
  ⟨hsingle, hfresh.fresh, hfresh.maps⟩

theorem new [Zero S] : Outstanding (.new : Selector S δ) := .of_fresh (fun _ => Nat.zero_le _) .new

include h

theorem to_fresh : Fresh sel := ⟨h.fresh, h.maps⟩

/-- Only the port, the map and the number of events matter. -/
theorem of_same {t : Selector S δ} (hport : t.port = sel.port) (hcount : t.count = sel.count)
    (hmaps : t.eventMaps = sel.eventMaps) : Outstanding t :=
  .of_fresh (hport ▸ h.single) (h.to_fresh.of_same hport hcount hmaps)

/-- Operations are completed. -/
theorem fewer {port : Port} (hless : ∀ o, port.outstanding o ≤ sel.port.outstanding o) :
    Outstanding { sel with port := port } :=
  .of_fresh (fun o => (hless o).trans (h.single o)) (h.to_fresh.fewer hless)

/-- An operation is posted on an idle address of an event in the map. -/
theorem enqueue {socket : S} {o : Overlapped} (hmaps : sel.eventMaps socket = some o.id)
    (hidle : Idle sel.port o) : Outstanding { sel with port := sel.port.enqueue o } :=
  .of_fresh ((Port.enqueue_single_iff h.single o).mpr hidle) (h.to_fresh.enqueue hmaps)

end Outstanding

/-! ## The runs -/

/-- A post that finds an outstanding operation is stopped by its guards. -/
def Guarded [DecidableEq S] : Selector S δ → Move (WinReply (S := S)) (WinCall S δ) → Prop
  | sel, .call (.modifySocket isDel socket entry) =>
      ∀ id, sel.eventMaps socket = some id →
        (sel.edit id (·.merge isDel entry)).Checked Idle socket
  | sel, .call (.sendSocket socket data) =>
      ∀ id, sel.eventMaps socket = some id →
        (sel.edit id (·.append data)).Clear Idle .write socket
  | sel, .answer (.again post socket) _ => sel.Clear Idle post socket
  | _, _ => True

variable [DecidableEq S]

/-- Whatever the program does, events are numbered in order. -/
theorem fresh_maintains {ok : Selector S δ → Move (WinReply (S := S)) (WinCall S δ) → Prop} :
    Maintains ok Fresh (fun _ _ => True) where
  edit _ _ h _ := h.of_same rfl rfl rfl
  editBuffer h _ := h.of_same rfl rfl rfl
  append _ h _ := h.of_same rfl rfl rfl
  insert buffer entry h := h.insert buffer entry
  remove socket h := h.remove socket
  owners _ h := h.of_same rfl rfl rfl
  port h hless := h.fewer hless
  enqueue {_ _ id} h hmaps _ := h.enqueue (o := .read id) hmaps
  takeFront {_ _ id _ _} h hmaps _ _ _ := (h.enqueue (o := .write id) hmaps).of_same rfl rfl rfl
  takeAll {_ _ id _} h hmaps _ _ := (h.enqueue (o := .write id) hmaps).of_same rfl rfl rfl
  room_of_ne _ _ := trivial
  room_new _ _ := trivial
  modify _ _ := Selector.checked_of_clear fun _ _ _ _ => trivial
  send _ _ _ _ _ := trivial
  again _ _ _ _ := trivial

theorem outstanding_maintains : Maintains (Guarded (S := S) (δ := δ)) Outstanding Idle where
  edit _ _ h _ := h.of_same rfl rfl rfl
  editBuffer h _ := h.of_same rfl rfl rfl
  append _ h _ := h.of_same rfl rfl rfl
  insert buffer entry h := .of_fresh h.single (h.to_fresh.insert buffer entry)
  remove socket h := .of_fresh h.single (h.to_fresh.remove socket)
  owners _ h := h.of_same rfl rfl rfl
  port h hless := h.fewer hless
  enqueue {_ _ id} h hmaps hidle := h.enqueue (o := .read id) hmaps hidle
  takeFront {_ _ id _ _} h hmaps hidle _ _ :=
    (h.enqueue (o := .write id) hmaps hidle).of_same rfl rfl rfl
  takeAll {_ _ id _} h hmaps hidle _ :=
    (h.enqueue (o := .write id) hmaps hidle).of_same rfl rfl rfl
  room_of_ne hne hidle := (Port.enqueue_of_ne _ _ hne).trans hidle
  room_new h ho := h.fresh _ ho
  modify hok hmaps := hok _ hmaps
  send hok hmaps := hok _ hmaps
  again hok := hok

/-! ## The main result -/

/-- In every run whose posts are guarded, each address is used by at most one
operation at any moment. -/
theorem win_single [Zero S] {c : Config (Selector S δ) (WinReply (S := S)) Unit}
    (hreach : (winRuns Guarded).Reaches .new c) : c.state.port.Single :=
  (reaches_always outstanding_maintains.keeps hreach Outstanding.new).single

/-- A read is completed and the next one is posted. -/
theorem win_single_again :
    ∃ c, (winRuns Guarded).Reaches (.new : Selector SOCKET Unit) c ∧
      (c.state.events 0).buffer.read.val = [7] ∧ c.state.port.outstanding (.read 0) = 1 ∧
      c.state.port.Single := by
  have start := System.Reaches.refl (S := winRuns Guarded) (.new : Selector SOCKET Unit)
  have registered := ((start.call (.registerSocket { EventBuffer.new 3 0 with readCache := [0] }
    (.newEvent 3 (EventFlags.FLAG_READ ∪ EventFlags.FLAG_PERSIST) none none none none)) trivial
    ⟨trivial, trivial⟩).answer (.ok ()) ⟨rfl, trivial⟩).answer (.ok none) ⟨rfl, trivial⟩
  have received := ((registered.call .doSelect trivial ⟨trivial, trivial⟩).answer
    (.ok [⟨1, ∅, some (.read 0)⟩]) ⟨rfl, trivial⟩).answer ()
    ⟨.read [7] (by decide) rfl (by decide), trivial⟩
  have again := (received.answer () ⟨rfl, fun id hmaps _ => by
    obtain rfl : 0 = id := Option.some.inj hmaps
    rfl⟩).answer (.ok none) ⟨rfl, trivial⟩
  exact ⟨_, again, rfl, rfl, win_single again⟩

/-- A socket is registered for reading and told to read once more, and two
bytes are sent one by one. Each call posts an operation. -/
theorem posts_twice :
    ∃ c, (winSystem SOCKET Unit).Reaches .new c ∧ c.stack = [] ∧
      c.state.port.outstanding (.read 0) = 2 ∧ c.state.port.outstanding (.write 0) = 2 := by
  have start := System.Reaches.refl (S := winSystem SOCKET Unit) .new
  have registered := ((start.call (.registerSocket (.new 3 0) (.newEvent 3
    EventFlags.FLAG_READ none none none none)) trivial trivial).answer (.ok ()) rfl).answer
    (.ok none) rfl
  have modified := (registered.call (.modifySocket false 3 (.newEvfd 3 EventFlags.FLAG_READ))
    trivial trivial).answer (.ok none) rfl
  have first := (modified.call (.sendSocket 3 [1]) trivial trivial).answer
    (.ok (some 1)) ⟨rfl, by rintro _ ⟨⟩; decide⟩
  have second := (first.call (.sendSocket 3 [2]) trivial trivial).answer
    (.ok (some 1)) ⟨rfl, by rintro _ ⟨⟩; decide⟩
  exact ⟨_, second, rfl, rfl, rfl⟩

end TdRevent.Win
