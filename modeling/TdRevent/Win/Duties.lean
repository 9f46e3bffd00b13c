import TdRevent.Win.Calm
import TdRevent.Interaction.Promises

/-!
# What the selector of Windows owes its events

A socket whose event wants to read or to accept is told of nothing unless such an
operation is outstanding, and bytes that wait to be written leave only when a write
completes. So the selector owes an event the operations that it wants.

## Implementation notes

The mark `isInRead` stops a post, and so does `isInWrite`. A mark that is set
without an operation would stall the event, so it is part of the invariant that a marked
event has one. Events that were replaced or unregistered are owed nothing.
-/

namespace TdRevent.Win

open Interaction

variable {S δ : Type}

theorem Port.carries_enqueue (port : Port) (o : Overlapped) : (port.enqueue o).outstanding o ≠ 0 :=
  port.enqueue_self o ▸ Nat.succ_ne_zero _

namespace Event

/-- The event wants the operation. -/
def wants (self : Event S δ) : Post → Prop
  | .accept => self.isAccept
  | .read => ¬ self.isAccept ∧ self.entry.evEvents.contains EventFlags.FLAG_READ
  | .write => self.buffer.write.val ≠ []

/-- The event is marked as one for which the operation is outstanding. -/
def marked (self : Event S δ) : Post → Prop
  | .accept => self.buffer.isInRead = true
  | .read => self.buffer.isInRead = true
  | .write => self.buffer.isInWrite = true

/-- Nothing that stops a post or asks for one is new. -/
structure Tame (event event' : Event S δ) : Prop where
  socket : event'.asRawSocket = event.asRawSocket
  isEnd : event'.isEnd = false → event.isEnd = false
  wants : ∀ post, event'.wants post → event.wants post
  marked : ∀ post, event'.marked post → event.marked post

theorem Tame.refl (event : Event S δ) : Tame event event := ⟨rfl, id, fun _ => id, fun _ => id⟩

/-- The entry, the end, the outgoing bytes and the marks are all that matters. -/
theorem Tame.of_marks {event event' : Event S δ} (hentry : event'.entry = event.entry)
    (hsocket : event'.asRawSocket = event.asRawSocket) (hend : event'.isEnd = event.isEnd)
    (hwrite : event'.buffer.write = event.buffer.write)
    (hin_read : event'.buffer.isInRead = true → event.buffer.isInRead = true)
    (hin_write : event'.buffer.isInWrite = true → event.buffer.isInWrite = true) :
    Tame event event' where
  socket := hsocket
  isEnd h := hend ▸ h
  wants post := by
    cases post <;> simp only [Event.wants, isAccept, hentry, hwrite] <;> exact id
  marked post := by
    cases post
    · exact hin_read
    · exact hin_read
    · exact hin_write

theorem Tame.of_same {event event' : Event S δ} (hentry : event'.entry = event.entry)
    (hsocket : event'.asRawSocket = event.asRawSocket) (hend : event'.isEnd = event.isEnd)
    (hwrite : event'.buffer.write = event.buffer.write)
    (hin_read : event'.buffer.isInRead = event.buffer.isInRead)
    (hin_write : event'.buffer.isInWrite = event.buffer.isInWrite) : Tame event event' :=
  .of_marks hentry hsocket hend hwrite hin_read.symm.trans hin_write.symm.trans

/-- One mark stands for the operations of an address. -/
theorem marked_iff (self : Event S δ) {post post' : Post} {id : ℕ}
    (h : post'.overlapped id = post.overlapped id) : self.marked post' ↔ self.marked post := by
  cases post <;> cases post' <;> simp_all [Post.overlapped, marked]

/-- An event wants to read or to accept, but not both. -/
theorem not_wants (self : Event S δ) {post post' : Post} {id : ℕ}
    (hkind : post ≠ .write → (self.isAccept ↔ post = .accept))
    (h : post'.overlapped id = post.overlapped id) (hne : post' ≠ post) : ¬ self.wants post' := by
  cases post <;> cases post' <;> simp_all [Post.overlapped, wants]

end Event

namespace Selector

/-- The event is in the map and was not unregistered. -/
def Serves (sel : Selector S δ) (id : ℕ) : Prop :=
  (∃ socket, sel.eventMaps socket = some id) ∧ (sel.events id).isEnd = false

/-- The operation is outstanding. -/
def Carries (sel : Selector S δ) (post : Post) (id : ℕ) : Prop :=
  sel.port.outstanding (post.overlapped id) ≠ 0

/-- If the event wants the operation, it is outstanding. -/
def Armed (sel : Selector S δ) (post : Post) (id : ℕ) : Prop :=
  sel.Serves id → (sel.events id).wants post → sel.Carries post id

/-- If the event is marked with the operation, it is outstanding. -/
def Marked (sel : Selector S δ) (post : Post) (id : ℕ) : Prop :=
  sel.Serves id → (sel.events id).marked post → sel.Carries post id

/-- No event is in want of an operation that it had or did not want before. -/
structure Tame (sel t : Selector S δ) : Prop where
  maps : ∀ {socket id}, t.eventMaps socket = some id → sel.eventMaps socket = some id
  count : t.count = sel.count
  socket : ∀ id, (t.events id).asRawSocket = (sel.events id).asRawSocket
  isEnd : ∀ id, (t.events id).isEnd = false → (sel.events id).isEnd = false
  wants : ∀ post id, (t.events id).wants post → (sel.events id).wants post
  marked : ∀ post id, t.Serves id → (t.events id).marked post →
    (sel.events id).marked post ∨ t.Carries post id
  carries : ∀ post id, sel.Carries post id → t.Carries post id

namespace Tame

variable {sel t u : Selector S δ}

theorem refl (sel : Selector S δ) : Tame sel sel :=
  ⟨id, rfl, fun _ => rfl, fun _ => id, fun _ _ => id, fun _ _ _ => Or.inl, fun _ _ => id⟩

theorem serves (h : Tame sel t) {id : ℕ} (ht : t.Serves id) : sel.Serves id :=
  ⟨ht.1.imp fun _ => h.maps, h.isEnd id ht.2⟩

theorem trans (h : Tame sel t) (h' : Tame t u) : Tame sel u where
  maps hu := h.maps (h'.maps hu)
  count := h'.count.trans h.count
  socket id := (h'.socket id).trans (h.socket id)
  isEnd id hu := h.isEnd id (h'.isEnd id hu)
  wants post id hu := h.wants post id (h'.wants post id hu)
  marked post id hserves hu := by
    rcases h'.marked post id hserves hu with ht | hcarries
    · exact (h.marked post id (h'.serves hserves) ht).imp_right (h'.carries post id)
    · exact Or.inr hcarries
  carries post id hsel := h'.carries post id (h.carries post id hsel)

theorem armed (h : Tame sel t) {post : Post} {id : ℕ} (harmed : sel.Armed post id) :
    t.Armed post id :=
  fun hserves hwants => h.carries post id (harmed (h.serves hserves) (h.wants post id hwants))

theorem marks (h : Tame sel t) {post : Post} {id : ℕ} (hmarked : sel.Marked post id) :
    t.Marked post id := by
  intro hserves hmark
  rcases h.marked post id hserves hmark with hsel | hcarries
  · exact h.carries post id (hmarked (h.serves hserves) hsel)
  · exact hcarries

theorem keyed (h : Tame sel t) (hkeyed : sel.Keyed) : t.Keyed where
  sockets hs := (h.socket _).trans (hkeyed.sockets (h.maps hs))
  numbered socket id hs := h.count ▸ hkeyed.numbered socket id (h.maps hs)

/-! ## Steps that are tame -/

/-- A mark is set only where the operation is outstanding. -/
theorem mark (sel : Selector S δ) (id : ℕ) {f : Event S δ → Event S δ}
    (hsocket : (f (sel.events id)).asRawSocket = (sel.events id).asRawSocket)
    (hend : (f (sel.events id)).isEnd = false → (sel.events id).isEnd = false)
    (hwants : ∀ post, (f (sel.events id)).wants post → (sel.events id).wants post)
    (hmark : ∀ post, (f (sel.events id)).marked post → (sel.events id).marked post ∨
      (sel.Serves id → sel.Carries post id)) : Tame sel (sel.edit id f) := by
  have hself := sel.edit_self id f
  have hother : ∀ {id'}, id' ≠ id → (sel.edit id f).events id' = sel.events id' :=
    fun h => Function.update_of_ne h ..
  refine ⟨fun h => h, rfl, fun id' => ?_, fun id' => ?_, fun post id' => ?_,
    fun post id' hserves => ?_, fun _ _ h => h⟩
  all_goals by_cases h : id' = id
  · rw [h, hself, hsocket]
  · rw [hother h]
  · rw [h, hself]
    exact hend
  · exact fun hother' => hother h ▸ hother'
  · rw [h, hself]
    exact hwants post
  · exact fun hother' => hother h ▸ hother'
  · subst h
    rw [hself]
    exact fun hnew => (hmark post hnew).imp_right fun hcarries =>
      hcarries ⟨hserves.1, hend (hself ▸ hserves.2)⟩
  · exact fun hother' => Or.inl (hother h ▸ hother')

theorem edit (sel : Selector S δ) (id : ℕ) {f : Event S δ → Event S δ}
    (hf : (sel.events id).Tame (f (sel.events id))) : Tame sel (sel.edit id f) :=
  mark sel id hf.socket hf.isEnd hf.wants fun post h => Or.inl (hf.marked post h)

/-- The events are left alone, and nothing that is outstanding is completed. -/
theorem port (sel : Selector S δ) {owners : Owners} {port : Port} {stale : ℕ → ℕ}
    {log : List (SockEvent S)}
    (hport : ∀ o, sel.port.outstanding o ≠ 0 → port.outstanding o ≠ 0) :
    Tame sel { sel with owners := owners, port := port, stale := stale, log := log } where
  maps h := h
  count := rfl
  socket _ := rfl
  isEnd _ h := h
  wants _ _ h := h
  marked _ _ _ h := Or.inl h
  carries _ _ := hport _

theorem owners (sel : Selector S δ) (owners : Owners) : Tame sel { sel with owners := owners } :=
  .port sel fun _ ho => ho

theorem enqueue (sel : Selector S δ) (o : Overlapped) :
    Tame sel { sel with port := sel.port.enqueue o } := by
  refine .port sel fun o' ho' => ?_
  by_cases h : o' = o
  · rw [h]
    exact sel.port.carries_enqueue o
  · rwa [sel.port.enqueue_of_ne _ h]

theorem takeFront (sel : Selector S δ) (id n : ℕ) : Tame sel (sel.takeFront id n) := by
  have hdrain : (sel.events id).Tame ((sel.events id).drain n) := by
    refine ⟨rfl, fun h => h, fun post => ?_, fun post h => h⟩
    cases post with
    | write =>
        intro hwants hnil
        refine hwants ?_
        rw [Event.drain, Buffer.drain_val, hnil, List.drop_nil]
    | accept => exact fun h => h
    | read => exact fun h => h
  have h := edit sel id (f := (·.drain n)) hdrain
  exact ⟨h.maps, h.count, h.socket, h.isEnd, h.wants, h.marked, h.carries⟩

theorem remove [DecidableEq S] (sel : Selector S δ) (socket : S) :
    Tame sel (sel.remove socket) where
  maps hs := (Keyed.remove_some hs).2
  count := rfl
  socket _ := rfl
  isEnd _ h := h
  wants _ _ h := h
  marked _ _ _ h := Or.inl h
  carries _ _ h := h

end Tame

end Selector

/-! ## What the selector owes -/

/-- The map is in order, and where a mark is set the operation is outstanding. -/
structure Marks (sel : Selector S δ) : Prop where
  keyed : sel.Keyed
  marked : ∀ post id, sel.Marked post id

theorem Marks.tame {sel t : Selector S δ} (h : Marks sel) (ht : sel.Tame t) : Marks t :=
  ⟨ht.keyed h.keyed, fun post id => ht.marks (h.marked post id)⟩

/-- A handler waits for its callback before it posts the next operation. -/
def WinAsk.suspends : WinAsk S → Post × ℕ → Prop
  | .acceptCb id _, x => x = (.accept, id)
  | .readCb id, x => x = (.read, id)
  | .writeCb id, x => x = (.write, id)
  | _, _ => False

/-- Every event has the operations that it wants. Writing may be left out. -/
def duties (writing : Prop) : Promises (Selector S δ) (WinAsk S) (Post × ℕ) where
  inv := Marks
  kept x sel := (x.1 = .write → writing) → sel.Armed x.1 x.2
  busy := WinAsk.suspends

theorem Selector.Tame.holds {writing : Prop} {i sel t : Selector S δ} {except : Post × ℕ → Prop}
    (ht : sel.Tame t) (h : (duties writing).Holds i except sel) :
    (duties writing).Holds i except t :=
  ⟨h.inv.tame ht, fun x hx hnot hwriting => ht.armed (h.kept x hx hnot hwriting)⟩

/-- An event changes, and what it now wants is excepted. -/
theorem holds_edit {writing : Prop} {i sel : Selector S δ} {except : Post × ℕ → Prop}
    (h : (duties writing).HoldsAll i sel) (id : ℕ) {f : Event S δ → Event S δ}
    (hsocket : ∀ event, (f event).asRawSocket = event.asRawSocket)
    (hend : ∀ event, (f event).isEnd = event.isEnd)
    (hmarked : ∀ post, (f (sel.events id)).marked post → (sel.events id).marked post)
    (hwants : ∀ post, ¬ except (post, id) → (f (sel.events id)).wants post →
      (sel.events id).wants post) : (duties writing).Holds i except (sel.edit id f) := by
  have hserved : ∀ {id'}, (sel.edit id f).Serves id' → sel.Serves id' := fun hserves =>
    ⟨hserves.1, (sel.edit_keeps id Event.isEnd hend _).symm.trans hserves.2⟩
  have hother : ∀ {id'}, id' ≠ id → (sel.edit id f).events id' = sel.events id' :=
    fun hne => Function.update_of_ne hne ..
  refine ⟨⟨h.inv.keyed.edit id hsocket, fun post id' hserves hmark => ?_⟩,
    fun x hx hnot hwriting hserves hnew => ?_⟩
  · refine h.inv.marked post id' (hserved hserves) ?_
    by_cases hid : id' = id
    · subst hid
      exact hmarked post (sel.edit_self id' f ▸ hmark)
    · exact hother hid ▸ hmark
  · obtain ⟨post, id'⟩ := x
    refine h.kept (post, id') hx (fun hfalse => hfalse) hwriting (hserved hserves) ?_
    by_cases hid : id' = id
    · subst hid
      exact hwants post hnot (sel.edit_self id' f ▸ hnew)
    · exact hother hid ▸ hnew

/-- An operation of the address was completed, and its handler has not started. -/
structure Lapsed (writing : Prop) (i : Selector S δ) (o : Overlapped) (sel : Selector S δ) :
    Prop where
  keyed : sel.Keyed
  marked : ∀ post id, post.overlapped id ≠ o → sel.Marked post id
  kept : ∀ x, (duties writing).kept x i → x.1.overlapped x.2 ≠ o → (duties writing).kept x sel

@[simp] theorem Post.overlapped_id (post : Post) (id : ℕ) : (post.overlapped id).id = id := by
  cases post <;> rfl

namespace Lapsed

variable {writing : Prop} {i sel t : Selector S δ} {o : Overlapped}

theorem of_holds (h : (duties writing).HoldsAll i sel) : Lapsed writing i o sel :=
  ⟨h.inv.keyed, fun post id _ => h.inv.marked post id, fun x hx _ => h.kept x hx id⟩

theorem complete (h : (duties writing).HoldsAll i sel) :
    Lapsed writing i o { sel with port := sel.port.complete o } := by
  have hcarries : ∀ {post id}, post.overlapped id ≠ o → sel.Carries post id →
      Selector.Carries { sel with port := sel.port.complete o } post id := fun hne hcarries => by
    rwa [Selector.Carries, sel.port.complete_of_ne _ hne]
  exact
    { keyed := ⟨h.inv.keyed.sockets, h.inv.keyed.numbered⟩
      marked := fun post id hne hserves hmark =>
        hcarries hne (h.inv.marked post id hserves hmark)
      kept := fun x hx hne hwriting hserves hwants =>
        hcarries hne (h.kept x hx (fun hfalse => hfalse) hwriting hserves hwants) }

/-- A packet is delivered. -/
theorem delivers {status : CompletionStatus} (h : (duties writing).HoldsAll i sel)
    (ht : Delivers sel status o t) : Lapsed writing i o t := by
  cases ht with
  | @read id bytes =>
      have hreceived : sel.Tame (sel.edit id (·.receive bytes)) :=
        .edit sel id (.of_same rfl rfl rfl rfl rfl rfl)
      exact complete (hreceived.holds h)
  | write => exact complete h
  | posted =>
      have htaken : sel.Tame { sel with port := sel.port.take o } := .port sel fun _ ho => ho
      exact of_holds (htaken.holds h)

theorem tame (h : Lapsed writing i o sel) (ht : sel.Tame t) : Lapsed writing i o t :=
  ⟨ht.keyed h.keyed, fun post id hne => ht.marks (h.marked post id hne),
    fun x hx hne hwriting => ht.armed (h.kept x hx hne hwriting)⟩

/-- Nothing is owed to an event that is gone. -/
theorem gone (h : Lapsed writing i o sel) (hgone : ¬ sel.Serves o.id) :
    (duties writing).HoldsAll i sel := by
  have hid : ∀ {post : Post} {id}, post.overlapped id = o → ¬ sel.Serves id := by
    rintro post id rfl
    rwa [Post.overlapped_id] at hgone
  refine ⟨⟨h.keyed, fun post id hserves => ?_⟩, fun x hx _ hwriting hserves => ?_⟩
  · by_cases ho : post.overlapped id = o
    · exact absurd hserves (hid ho)
    · exact h.marked post id ho hserves
  · by_cases ho : x.1.overlapped x.2 = o
    · exact absurd hserves (hid ho)
    · exact h.kept x hx ho hwriting hserves

/-- The handler takes the mark off the event, and knows what the event wants. -/
theorem unmark (post : Post) {id : ℕ} {f : Event S δ → Event S δ}
    (h : Lapsed writing i (post.overlapped id) sel) (hf : sel.Tame (sel.edit id f))
    (hmark : ¬ (f (sel.events id)).marked post)
    (hkind : post ≠ .write → ((f (sel.events id)).isAccept ↔ post = .accept)) :
    (duties writing).Holds i (· = (post, id)) (sel.edit id f) := by
  have ht := h.tame hf
  have hself := sel.edit_self id f
  have hid : ∀ {post' : Post} {id'}, post'.overlapped id' = post.overlapped id → id' = id :=
    fun heq => by simpa using congrArg Overlapped.id heq
  refine ⟨⟨ht.keyed, fun post' id' hserves hmarked => ?_⟩, fun x hx hnot => ?_⟩
  · by_cases ho : post'.overlapped id' = post.overlapped id
    · obtain rfl := hid ho
      exact absurd ((Event.marked_iff _ ho).mp (hself ▸ hmarked)) hmark
    · exact ht.marked post' id' ho hserves hmarked
  · by_cases ho : x.1.overlapped x.2 = post.overlapped id
    · obtain ⟨post', id'⟩ := x
      obtain rfl := hid ho
      have hne : post' ≠ post := fun heq => hnot (heq ▸ rfl)
      exact fun _ _ hnew => absurd (hself ▸ hnew) (Event.not_wants _ hkind ho hne)
    · exact ht.kept x hx ho

end Lapsed

/-- What an event may want after its flags have changed. -/
def NewFlags (id : ℕ) (x : Post × ℕ) : Prop := x.2 = id ∧ x.1 ≠ .write

namespace NewFlags

variable {writing : Prop} {i sel t : Selector S δ} {id : ℕ}

/-- The checks have posted what the event wants. -/
theorem checked (h : (duties writing).Holds i (NewFlags id) sel) (ht : sel.Tame t)
    (harmed : t.Armed .accept id ∧ t.Armed .read id) : (duties writing).HoldsAll i t := by
  refine (ht.holds h).mono ?_
  rintro ⟨post, _⟩ ⟨rfl, hpost⟩
  cases post with
  | accept => exact Or.inr fun _ => harmed.1
  | read => exact Or.inr fun _ => harmed.2
  | write => exact absurd rfl hpost

theorem gone (h : (duties writing).Holds i (NewFlags id) sel) (ht : sel.Tame t)
    (hgone : ¬ t.Serves id) : (duties writing).HoldsAll i t := by
  refine (ht.holds h).mono ?_
  rintro ⟨post, _⟩ ⟨rfl, -⟩
  exact Or.inr fun _ hserves => absurd hserves hgone

end NewFlags

end TdRevent.Win
