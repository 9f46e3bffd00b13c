import TdRevent.MainProjection
import TdRevent.Polls
import TdRevent.TimerTurns
import TdRevent.TimerWaiting
import TdRevent.Unix.Outgoing
import TdRevent.Win.Outgoing

/-!
# The whole event loop

The timers and the selector of each platform run together: callbacks of timers send
on sockets, callbacks of sockets add timers, and both may run the loop again. In every
such run each part does what it can do alone. What holds of the outgoing bytes and of
the deadlines therefore holds in the whole loop.
-/

namespace TdRevent

open Interaction

variable {S δ Sel κ Op : Type} {ρ : κ → Type}

/-- What the loop reaches, the timers reach alone and the selector reaches alone, each
with its own open questions. User code of the loop is user code of both. -/
def Composes (S δ : Type) [Zero S] (Y : System Sel ρ Op Unit)
    (doSelect : Code Sel ρ (Except IoError (ℕ × ℕ))) : Prop :=
  ∀ (s : MainLoop S δ Sel) c, (mainRuns Y doSelect).Reaches s c →
    (∃ c', anyCalls.Reaches s.timers c' ∧
      MainLoop.timersPart.Shows (mainRuns Y doSelect) anyCalls c c' ∧
      ((mainRuns Y doSelect).Open c.stack → anyCalls.Open c'.stack)) ∧
    ∃ c', Y.Reaches s.selector c' ∧
      MainLoop.selectorPart.Shows (mainRuns Y doSelect) Y c c' ∧
      ((mainRuns Y doSelect).Open c.stack → Y.Open c'.stack)

theorem composes [Zero S] {Y : System Sel ρ Op Unit}
    {doSelect : Code Sel ρ (Except IoError (ℕ × ℕ))} {select : Op}
    (hselect : Y.api select = doSelect >>= fun _ => pure ()) (hmay : ∀ sel, Y.may sel select) :
    Composes S δ Y doSelect := by
  intro s c hreach
  have htimers : MainLoop.timersPart.Projects (mainRuns (S := S) (δ := δ) Y doSelect) anyCalls :=
    MainLoop.timers_projects
  have hselector := MainLoop.selector_projects (S := S) (δ := δ) hselect hmay
  obtain ⟨c', hc', hshows'⟩ := htimers.reaches hreach
  obtain ⟨c'', hc'', hshows''⟩ := hselector.reaches hreach
  exact ⟨⟨c', hc', hshows', htimers.isOpen hshows'⟩, c'', hc'', hshows'',
    hselector.isOpen hshows''⟩

/-! ## The selectors of the platforms -/

theorem Unix.composes [Zero S] {K E Sys : Type} {R : Sys → Type}
    {B : Unix.Backend Unix.SOCKET δ E K R}
    {os : Unix.Os Unix.SOCKET K R} {select : Unix.SockCode Unix.SOCKET δ E K R Unit}
    {doSelect : Unix.SockCode Unix.SOCKET δ E K R (Except IoError (ℕ × ℕ))}
    (hselect : select = doSelect >>= fun _ => pure ())
    {ok : Unix.Selector Unix.SOCKET δ E K →
      Move (Unix.SockReply (S := Unix.SOCKET) R) (Unix.SockCall Unix.SOCKET δ) → Prop}
    (hok : ∀ sel, ok sel (.call .doSelect)) :
    Composes S δ (Unix.unixRuns B os select ok) doSelect := by
  have hapi : (Unix.unixRuns B os select ok).api .doSelect = doSelect >>= fun _ => pure () :=
    hselect
  exact TdRevent.composes hapi fun sel => ⟨trivial, hok sel⟩

theorem Win.composes [Zero S] {T : Type} [DecidableEq T]
    {ok : Win.Selector T δ → Move (Win.WinReply (S := T)) (Win.WinCall T δ) → Prop}
    (hok : ∀ sel, ok sel (.call .doSelect)) :
    Composes S δ (Win.winRuns ok) Win.doSelectCounted := by
  have hselect : (Win.winRuns ok).api .doSelect = Win.doSelectCounted >>= fun _ => pure () := by
    change (Win.doSelect >>= fun _ => pure ()) = _
    rw [Win.doSelect_eq, bind_assoc]
    rfl
  exact TdRevent.composes hselect fun sel => ⟨trivial, hok sel⟩

/-- The loop of epoll, in the runs whose moves at the selector meet a condition. -/
abbrev Unix.Epoll.loopRuns (os : Unix.Os Unix.SOCKET Unix.Epoll.Interest Unix.Epoll.EpollReply)
    (ok : Unix.Selector Unix.SOCKET δ (List Unix.Epoll.EpollEvent) Unix.Epoll.Interest →
      Move (Unix.SockReply (S := Unix.SOCKET) Unix.Epoll.EpollReply)
        (Unix.SockCall Unix.SOCKET δ) → Prop) :=
  mainRuns (S := Unix.SOCKET) (δ := δ)
    (Unix.unixRuns Unix.Epoll.epoll os Unix.Epoll.doSelect ok) Unix.Epoll.doSelectCounted

/-- The loop of kqueue. -/
abbrev Unix.Kqueue.loopRuns (os : Unix.Os Unix.SOCKET Unix.Kqueue.Kernel Unix.Kqueue.KqueueReply)
    (ok : Unix.Selector Unix.SOCKET δ Unix.Kqueue.Events Unix.Kqueue.Kernel →
      Move (Unix.SockReply (S := Unix.SOCKET) Unix.Kqueue.KqueueReply)
        (Unix.SockCall Unix.SOCKET δ) → Prop) :=
  mainRuns (S := Unix.SOCKET) (δ := δ)
    (Unix.unixRuns Unix.Kqueue.kqueue os Unix.Kqueue.doSelect ok) Unix.Kqueue.doSelectCounted

/-- The loop of Windows. -/
abbrev Win.loopRuns
    (ok : Win.Selector Win.SOCKET δ → Move (Win.WinReply (S := Win.SOCKET))
      (Win.WinCall Win.SOCKET δ) → Prop) :=
  mainRuns (S := Win.SOCKET) (δ := δ) (Win.winRuns ok) Win.doSelectCounted

/-- A timer fires within `runOnce`, and its callback sends on a socket. -/
theorem timer_sends :
    ∃ c, (Unix.Epoll.loopRuns (δ := Unit) Unix.Epoll.epollOs Unix.KeepsWrite).Reaches
        ⟨false, .new 9 0 fun _ => (.OK, 0), .new [] fun _ => none⟩ c ∧
      (Unix.Epoll.loopRuns (δ := Unit) Unix.Epoll.epollOs Unix.KeepsWrite).Open c.stack ∧
      c.stack.length = 1 ∧ (c.state.selector.events 0).buffer.write.val = [1, 2] := by
  have start := System.Reaches.refl
    (S := Unix.Epoll.loopRuns (δ := Unit) Unix.Epoll.epollOs Unix.KeepsWrite)
    ⟨false, .new 9 0 fun _ => (.OK, 0), .new [] fun _ => none⟩
  have registered := (start.call (.selector (.registerSocket (.new 3 0) .default)) trivial
    ⟨trivial, trivial, trivial⟩).answer (.ok ())
      ⟨⟨_, ⟨⟨_, Unix.Epoll.epollOs_ok (by decide), rfl⟩, trivial⟩, rfl⟩, trivial⟩
  have added := (registered.call (.timers (.addNewTimer 5 false (some 7) none)) trivial
    ⟨trivial, trivial⟩).answer (0 : UInt64) ⟨⟨_, rfl, rfl⟩, trivial⟩
  have waited := (added.call (.runOnce 2) trivial ⟨trivial, trivial⟩).answer (.ok [])
    ⟨⟨_, ⟨⟨_, rfl, rfl⟩, trivial⟩, rfl⟩, trivial⟩
  have fired := waited.answer (10 : UInt64) ⟨⟨_, rfl, rfl⟩, trivial⟩
  have sent := (fired.call (.selector (.sendSocket 3 [1, 2])) trivial
    ⟨trivial, trivial, trivial⟩).answer (.ok ())
      ⟨⟨_, ⟨⟨_, Unix.Epoll.epollOs_ok (by decide), rfl⟩, trivial⟩, rfl⟩, trivial⟩
  exact ⟨_, sent, trivial, rfl, rfl⟩

/-! ## The main results -/

/-- On every platform, and under every condition on the environment that lets the loop
call `doSelect`, each part of the loop does what it can do alone. -/
theorem main_loop_composed :
    (∀ os (ok : Unix.Selector Unix.SOCKET δ _ _ → Move _ _ → Prop),
      (∀ sel, ok sel (.call .doSelect)) →
      Composes Unix.SOCKET δ (Unix.unixRuns Unix.Epoll.epoll os Unix.Epoll.doSelect ok)
        Unix.Epoll.doSelectCounted) ∧
    (∀ os (ok : Unix.Selector Unix.SOCKET δ _ _ → Move _ _ → Prop),
      (∀ sel, ok sel (.call .doSelect)) →
      Composes Unix.SOCKET δ (Unix.unixRuns Unix.Kqueue.kqueue os Unix.Kqueue.doSelect ok)
        Unix.Kqueue.doSelectCounted) ∧
    ∀ ok : Win.Selector Win.SOCKET δ → Move _ _ → Prop, (∀ sel, ok sel (.call .doSelect)) →
      Composes Win.SOCKET δ (Win.winRuns ok) Win.doSelectCounted :=
  ⟨fun _ _ => Unix.composes Unix.Epoll.doSelect_eq,
    fun _ _ => Unix.composes Unix.Kqueue.doSelect_eq, fun _ => Win.composes⟩

/-- The sending timer, as the timers and the selector see it. -/
theorem main_loop_composed_sends :
    ∃ c, c.stack.length = 1 ∧
      (∃ c', anyCalls.Reaches (.new 9 0 fun _ => (.OK, 0)) c' ∧
        MainLoop.timersPart.Shows
          (Unix.Epoll.loopRuns (δ := Unit) Unix.Epoll.epollOs Unix.KeepsWrite) anyCalls c c') ∧
      ∃ c', (Unix.unixRuns Unix.Epoll.epoll Unix.Epoll.epollOs Unix.Epoll.doSelect
          Unix.KeepsWrite).Reaches (.new [] fun _ => none) c' ∧
        MainLoop.selectorPart.Shows
          (Unix.Epoll.loopRuns (δ := Unit) Unix.Epoll.epollOs Unix.KeepsWrite)
          (Unix.unixRuns Unix.Epoll.epoll Unix.Epoll.epollOs Unix.Epoll.doSelect
            Unix.KeepsWrite) c c' := by
  obtain ⟨c, hreach, -, hstack, -⟩ := timer_sends
  obtain ⟨⟨c', htimers, hshows, -⟩, c'', hselector, hshows', -⟩ :=
    main_loop_composed.1 Unix.Epoll.epollOs Unix.KeepsWrite (fun _ => trivial) _ c hreach
  exact ⟨c, hstack, ⟨c', htimers, hshows⟩, c'', hselector, hshows'⟩

/-- As long as the callbacks leave the write buffers, no outgoing byte of a registered
event that came with a fresh write buffer is lost, sent twice or out of place: on both Unix
platforms, and on Windows as long as the system accepts nothing of a socket after a pending
write. On Windows the front of a write buffer may have been accepted before. These stale
bytes are not counted again. -/
theorem main_loop_keeps_bytes :
    (∀ os (s : MainLoop Unix.SOCKET δ _) c evts kernel, s.selector = .new evts kernel →
      (Unix.Epoll.loopRuns os Unix.KeepsWrite).Reaches s c → c.state.selector.BytesKept) ∧
    (∀ os (s : MainLoop Unix.SOCKET δ _) c evts kernel, s.selector = .new evts kernel →
      (Unix.Kqueue.loopRuns os Unix.KeepsWrite).Reaches s c → c.state.selector.BytesKept) ∧
    ∀ (s : MainLoop Win.SOCKET δ _) c, s.selector = .new →
      (Win.loopRuns Win.AcceptsOnce).Reaches s c → c.state.selector.BytesKept := by
  refine ⟨fun os s c evts kernel hs hreach => ?_, fun os s c evts kernel hs hreach => ?_,
    fun s c hs hreach => ?_⟩
  · obtain ⟨-, c', hc', hshows, -⟩ :=
      Unix.composes Unix.Epoll.doSelect_eq (fun _ => trivial) s c hreach
    rw [hs] at hc'
    have hstate : c'.state = c.state.selector := hshows.state
    rw [← hstate]
    exact (Unix.Epoll.reaches_outgoing hc').bytes_kept
  · obtain ⟨-, c', hc', hshows, -⟩ :=
      Unix.composes Unix.Kqueue.doSelect_eq (fun _ => trivial) s c hreach
    rw [hs] at hc'
    have hstate : c'.state = c.state.selector := hshows.state
    rw [← hstate]
    exact (Unix.Kqueue.reaches_outgoing hc').bytes_kept
  · obtain ⟨-, c', hc', hshows, -⟩ := Win.composes (fun _ => trivial) s c hreach
    rw [hs] at hc'
    have hstate : c'.state = c.state.selector := hshows.state
    rw [← hstate]
    exact (Discipline.reaches_always Win.outgoing_maintains.keeps hc' Win.Outgoing.new).bytes_kept

/-- The bytes that the timer handed over wait for the socket. -/
theorem main_loop_keeps_bytes_sends :
    ∃ c, (Unix.Epoll.loopRuns (δ := Unit) Unix.Epoll.epollOs Unix.KeepsWrite).Reaches
        ⟨false, .new 9 0 fun _ => (.OK, 0), .new [] fun _ => none⟩ c ∧
      (c.state.selector.events 0).buffer.write.val = [1, 2] ∧ c.state.selector.BytesKept := by
  obtain ⟨c, hreach, -, -, hwrite⟩ := timer_sends
  exact ⟨c, hreach, hwrite, main_loop_keeps_bytes.1 _ _ c _ _ rfl hreach⟩

/-- What the sockets do to the timers: whatever selector runs beside them, and whatever
its callbacks do, a firing takes the last arming of its timer, at its deadline or later,
and a timer that fires twice was armed in between. -/
theorem main_loop_fires_armings [Zero S] (Y : System Sel ρ Op Unit)
    (doSelect : Code Sel ρ (Except IoError (ℕ × ℕ))) (s : MainLoop S δ Sel) c
    (timeMaxId : UInt32) (clock : UInt64) (results : ℕ → RetValue × UInt64)
    (hs : s.timers = .new timeMaxId clock results)
    (hreach : (mainRuns Y doSelect).Reaches s c) (hopen : (mainRuns Y doSelect).Open c.stack) :
    ∃ ls fs, EventLoop.TimerPath (.new timeMaxId clock results) ls c.state.timers fs ∧
      Noted ls c.state.timers.log ∧
      (∀ pre post now number entry, ls = pre ++ .fired now number entry :: post →
        ∃ reading, lastArming number pre = some (reading, entry) ∧ entry.tickMs ≤ now ∧
          ∀ t, reading = some t → entry.tickMs = t + entry.tickStep) ∧
      ∀ pre mid post now now' number entry entry',
        ls = pre ++ .fired now number entry :: (mid ++ .fired now' number entry' :: post) →
        ∃ l ∈ mid, l.arming number ≠ none := by
  have hprojects : MainLoop.timersPart.Projects (mainRuns (S := S) (δ := δ) Y doSelect) anyCalls :=
    MainLoop.timers_projects
  obtain ⟨c', hc', hshows⟩ := hprojects.reaches hreach
  have hstate : c'.state = c.state.timers := hshows.state
  have hstart : anyCalls.Reaches (.new timeMaxId clock results) c' := hs ▸ hc'
  obtain ⟨ls, fs, hpath, hnoted⟩ := EventLoop.reaches_noted hstart (hprojects.isOpen hshows hopen)
  rw [← hstate]
  refine ⟨ls, fs, hpath, hnoted, fun _ _ _ _ _ hls => EventLoop.path_fired hpath hls, ?_⟩
  intro pre mid post now now' number entry entry' hls
  exact EventLoop.path_rearmed (EventLoop.places_new _ _ _) (hls ▸ hpath)

/-- The timer that sends has fired once. -/
theorem main_loop_fires_armings_sends :
    ∃ c, (Unix.Epoll.loopRuns (δ := Unit) Unix.Epoll.epollOs Unix.KeepsWrite).Reaches
        ⟨false, .new 9 0 fun _ => (.OK, 0), .new [] fun _ => none⟩ c ∧
      ∃ ls fs, EventLoop.TimerPath (.new 9 0 fun _ => (.OK, 0)) ls c.state.timers fs ∧
        Noted ls c.state.timers.log ∧
        ∀ pre post now number entry, ls = pre ++ .fired now number entry :: post →
          ∃ reading, lastArming number pre = some (reading, entry) ∧ entry.tickMs ≤ now := by
  obtain ⟨c, hreach, hopen, -⟩ := timer_sends
  obtain ⟨ls, fs, hpath, hnoted, hfired, -⟩ :=
    main_loop_fires_armings _ _ _ c 9 0 (fun _ => (.OK, 0)) rfl hreach hopen
  refine ⟨c, hreach, ls, fs, hpath, hnoted, fun pre post now number entry hls => ?_⟩
  obtain ⟨reading, hlast, hdue, -⟩ := hfired pre post now number entry hls
  exact ⟨reading, hlast, hdue⟩

/-- Beside any selector and any callbacks no timer is forgotten: when a pass ends, every
arming whose deadline its time has come to has fired, or its id was deleted, or another
arming took its key. -/
theorem main_loop_serves_armings [Zero S] (Y : System Sel ρ Op Unit)
    (doSelect : Code Sel ρ (Except IoError (ℕ × ℕ))) (s : MainLoop S δ Sel) c
    (timeMaxId : UInt32) (clock : UInt64) (results : ℕ → RetValue × UInt64)
    (hs : s.timers = .new timeMaxId clock results)
    (hreach : (mainRuns Y doSelect).Reaches s c) (hopen : (mainRuns Y doSelect).Open c.stack) :
    ∃ ls fs, EventLoop.TimerPath (.new timeMaxId clock results) ls c.state.timers fs ∧
      Noted ls c.state.timers.log ∧ Served ls := by
  have hprojects : MainLoop.timersPart.Projects (mainRuns (S := S) (δ := δ) Y doSelect) anyCalls :=
    MainLoop.timers_projects
  obtain ⟨c', hc', hshows⟩ := hprojects.reaches hreach
  have hstate : c'.state = c.state.timers := hshows.state
  have hstart : anyCalls.Reaches (.new timeMaxId clock results) c' := hs ▸ hc'
  obtain ⟨ls, fs, hpath, hnoted⟩ := EventLoop.reaches_noted hstart (hprojects.isOpen hshows hopen)
  rw [← hstate]
  exact ⟨ls, fs, hpath, hnoted, EventLoop.path_served (EventLoop.places_new _ _ _) hpath⟩

/-- The callback of the sending timer returns, and its pass ends. -/
theorem main_loop_serves_armings_sends :
    ∃ c, (Unix.Epoll.loopRuns (δ := Unit) Unix.Epoll.epollOs Unix.KeepsWrite).Reaches
        ⟨false, .new 9 0 fun _ => (.OK, 0), .new [] fun _ => none⟩ c ∧ c.stack = [] ∧
      c.state.timers.log.length = 3 ∧
      ∃ ls fs, EventLoop.TimerPath (.new 9 0 fun _ => (.OK, 0)) ls c.state.timers fs ∧
        Noted ls c.state.timers.log ∧ Served ls := by
  have start := System.Reaches.refl
    (S := Unix.Epoll.loopRuns (δ := Unit) Unix.Epoll.epollOs Unix.KeepsWrite)
    ⟨false, .new 9 0 fun _ => (.OK, 0), .new [] fun _ => none⟩
  have added := (start.call (.timers (.addNewTimer 5 false (some 7) none)) trivial
    ⟨trivial, trivial⟩).answer (0 : UInt64) ⟨⟨_, rfl, rfl⟩, trivial⟩
  have fired := ((added.call (.runOnce 2) trivial ⟨trivial, trivial⟩).answer (.ok [])
    ⟨⟨_, ⟨⟨_, rfl, rfl⟩, trivial⟩, rfl⟩, trivial⟩).answer (10 : UInt64) ⟨⟨_, rfl, rfl⟩, trivial⟩
  have ended := fired.answer (.OK, 0) ⟨⟨_, ⟨rfl, rfl⟩, rfl⟩, trivial⟩
  exact ⟨_, ended, rfl, rfl,
    main_loop_serves_armings _ _ _ _ 9 0 (fun _ => (.OK, 0)) rfl ended trivial⟩

end TdRevent
