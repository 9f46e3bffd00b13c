import TdRevent.Win.Maintains
import TdRevent.Collections.Numbering

/-!
# Outgoing bytes of the Windows selector

What the system accepted of a socket, followed by the bytes of its write buffer
that it did not accept yet, is what `sendSocket` was given. A write that takes
effect at once drains the buffer. A write that is pending leaves its bytes
there without a mark, so the next write offers them again. The bytes are kept
as long as the system accepts nothing more of such a socket.
-/

namespace TdRevent.Win

open Interaction Discipline

variable {S δ : Type}

/-- The write buffers. -/
def Selector.writes (sel : Selector S δ) (id : ℕ) : Buffer := (sel.events id).buffer.write

/-- The invariant of the outgoing bytes. -/
structure Outgoing (sel : Selector S δ) : Prop where
  ledger : Ledger sel.log sel.count sel.writes sel.stale
  maps : Numbered sel.eventMaps sel.count

/-- The bytes of every registered socket are where they belong. -/
def Selector.BytesKept (sel : Selector S δ) : Prop :=
  ∀ socket id buffer, sel.eventMaps socket = some id → .registered id buffer ∈ sel.log →
    buffer.write = .new →
    acceptedFrom sel.log id ++ (sel.events id).buffer.write.val.drop (sel.stale id) =
      sentTo sel.log id

namespace Outgoing

variable {sel : Selector S δ} (h : Outgoing sel)

theorem new [Zero S] : Outgoing (.new : Selector S δ) := ⟨Ledger.nil _, Numbered.empty⟩

include h

theorem bytes_kept : sel.BytesKept :=
  fun _ _ _ _ hmem hnew => (h.ledger.inPlace hmem hnew).bytes

theorem with_owners (owners : Owners) : Outgoing { sel with owners := owners } :=
  ⟨h.ledger, h.maps⟩

theorem with_port (port : Port) : Outgoing { sel with port := port } := ⟨h.ledger, h.maps⟩

omit h in
theorem edit_writes (sel : Selector S δ) (id : ℕ) (f : Event S δ → Event S δ) :
    (sel.edit id f).writes = Function.update sel.writes id (f (sel.events id)).buffer.write :=
  funext fun id' => Function.apply_update (fun _ event => event.buffer.write) sel.events id _ id'

/-- A change of an event that leaves its write buffer. -/
theorem edit (id : ℕ) {f : Event S δ → Event S δ}
    (hf : ∀ event, (f event).buffer.write = event.buffer.write) : Outgoing (sel.edit id f) := by
  have hwrites : (sel.edit id f).writes = sel.writes := by
    rw [edit_writes, hf]
    exact Function.update_eq_self id sel.writes
  exact ⟨hwrites ▸ h.ledger, h.maps⟩

/-- `sendSocket` appends to the buffer what it was given. -/
theorem append {id : ℕ} (hid : id < sel.count) (data : List UInt8) :
    Outgoing ((sel.edit id (·.append data)).note (.sent id data)) :=
  ⟨edit_writes sel id (·.append data) ▸ h.ledger.append hid data, h.maps⟩

/-- A write that takes effect at once drains what the system accepted. -/
theorem takeFront {id n : ℕ} (hid : id < sel.count) (hn : sel.stale id = 0 ∨ n = 0) :
    Outgoing (sel.takeFront id n) :=
  ⟨edit_writes sel id (·.drain n) ▸ h.ledger.accept hid n hn, h.maps⟩

/-- A write that is pending leaves what the system accepted. -/
theorem takeAll {id : ℕ} (hid : id < sel.count) (hstale : sel.stale id = 0) :
    Outgoing (sel.takeAll id) := ⟨h.ledger.queue hid hstale, h.maps⟩

variable [DecidableEq S]

/-- A new event has accepted and sent nothing. -/
theorem insert (buffer : EventBuffer S) (entry : EventEntry S δ) :
    Outgoing (sel.insert buffer entry) := by
  have hwrites : (sel.insert buffer entry).writes =
      Function.update sel.writes sel.count buffer.write :=
    funext fun id => Function.apply_update (fun _ event => event.buffer.write) sel.events _ _ id
  exact ⟨hwrites ▸ h.ledger.insert buffer, h.maps.insert buffer.asRawSocket⟩

theorem remove (socket : S) : Outgoing (sel.remove socket) :=
  ⟨h.ledger, h.maps.remove socket⟩

end Outgoing

/-! ## The runs -/

/-- The callbacks leave the write buffers, and the system accepts no byte of a
socket that has accepted bytes in its buffer. -/
def AcceptsOnce : Selector S δ → Move (WinReply (S := S)) (WinCall S δ) → Prop
  | _, .call (.editBuffer _ f) => ∀ buffer, (f buffer).write = buffer.write
  | sel, .answer (.writeOverlapped _ _ o) r =>
      sel.stale o.id = 0 ∨ r = .ok (some 0) ∨ ∃ e, r = .error e
  | _, _ => True

variable [DecidableEq S]

theorem outgoing_maintains :
    Maintains (AcceptsOnce (S := S) (δ := δ)) Outgoing fun _ _ => True where
  edit id _ h hf := h.edit id hf
  editBuffer h hok := h.edit _ fun event => hok event.buffer
  append data h hmaps := h.append (h.maps _ _ hmaps) data
  insert buffer entry h := h.insert buffer entry
  remove socket h := h.remove socket
  owners owners h := h.with_owners owners
  port h _ := h.with_port _
  enqueue h _ _ := h.with_port _
  takeFront {sel _ id _ n} h hmaps _ _ hok := by
    have hn : sel.stale id = 0 ∨ n = 0 := by
      rcases hok with hstale | hzero | ⟨e, he⟩
      · exact Or.inl hstale
      · exact Or.inr (by simpa using hzero)
      · exact absurd he nofun
    exact (h.with_port _).takeFront (h.maps _ _ hmaps) hn
  takeAll {sel _ id _} h hmaps _ hok := by
    have hstale : sel.stale id = 0 := by
      rcases hok with hstale | hzero | ⟨e, he⟩
      · exact hstale
      · exact absurd hzero nofun
      · exact absurd he nofun
    exact (h.with_port _).takeAll (h.maps _ _ hmaps) hstale
  room_of_ne _ _ := trivial
  room_new _ _ := trivial
  modify _ _ := Selector.checked_of_clear fun _ _ _ _ => trivial
  send _ _ _ _ _ := trivial
  again _ _ _ _ := trivial

/-! ## The main result -/

/-- In every run in which the system accepts nothing of a socket after a
pending write, no outgoing byte is lost, sent twice or out of place. -/
theorem win_bytes_kept [Zero S]
    {c : Config (Selector S δ) (WinReply (S := S)) Unit}
    (hreach : (winRuns AcceptsOnce).Reaches .new c) : c.state.BytesKept :=
  (reaches_always outgoing_maintains.keeps hreach Outgoing.new).bytes_kept

/-- Two bytes are sent. The first write takes one of them, and the write that
follows its completion is pending. -/
theorem win_bytes_kept_pending :
    ∃ c, (winRuns AcceptsOnce).Reaches (.new : Selector SOCKET Unit) c ∧
      acceptedFrom c.state.log 0 = [1, 2] ∧ (c.state.events 0).buffer.write.val = [2] ∧
      c.state.BytesKept := by
  have start := System.Reaches.refl (S := winRuns AcceptsOnce) (.new : Selector SOCKET Unit)
  have registered := (start.call (.registerSocket (.new 3 0) .default) trivial
    ⟨trivial, trivial⟩).answer (.ok ()) ⟨rfl, trivial⟩
  have sent := (registered.call (.sendSocket 3 [1, 2]) trivial ⟨trivial, trivial⟩).answer
    (.ok (some 1)) ⟨⟨rfl, by rintro _ ⟨⟩; decide⟩, Or.inl rfl⟩
  have woken := ((sent.call .doSelect trivial ⟨trivial, trivial⟩).answer
    (.ok [⟨1, ∅, some (.write 0)⟩]) ⟨rfl, trivial⟩).answer () ⟨.write (by decide), trivial⟩
  have pending := (woken.answer () ⟨rfl, trivial⟩).answer (.ok none)
    ⟨⟨rfl, nofun⟩, Or.inl rfl⟩
  exact ⟨_, pending, rfl, rfl, win_bytes_kept pending⟩

/-- A write of one byte is pending when the next byte is sent. The byte is
offered and accepted again. -/
theorem pending_write_repeats :
    ∃ c, (winSystem SOCKET Unit).Reaches .new c ∧ c.stack = [] ∧
      (c.state.events 0).isEnd = false ∧ acceptedFrom c.state.log 0 = [1, 1, 2] ∧
      sentTo c.state.log 0 = [1, 2] ∧ ¬ c.state.BytesKept := by
  have start := System.Reaches.refl (S := winSystem SOCKET Unit) .new
  have registered := (start.call (.registerSocket (.new 3 0) .default) trivial
    trivial).answer (.ok ()) rfl
  have pending := (registered.call (.sendSocket 3 [1]) trivial trivial).answer
    (.ok none) ⟨rfl, nofun⟩
  have sent := (pending.call (.sendSocket 3 [2]) trivial trivial).answer
    (.ok (some 2)) ⟨rfl, by rintro _ ⟨⟩; decide⟩
  refine ⟨_, sent, rfl, rfl, rfl, rfl, fun h => ?_⟩
  have hbytes := h 3 0 (.new 3 0) rfl (List.mem_cons_self ..) rfl
  have hlength : [1, 1, 2] = ([1, 2] : List UInt8) := hbytes
  exact absurd hlength (by decide)

end TdRevent.Win
