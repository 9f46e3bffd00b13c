import TdRevent.FlagBits
import TdRevent.Interaction.Lowering
import TdRevent.Win.Maintains
import TdRevent.Win.SocketAddr

/-!
# The Windows selector over the system calls

The operations of the selector are functions over the calls of the operating system. They
look at the results of the calls and at the error of the thread, cut what is longer than
a length of 32 bits, and turn flags into keys and packets into statuses. Over every
behaviour of the system that its documentation allows, the selector has then exactly the
runs that it has over its own operations.

## Implementation notes

The conversions of flags into keys are those of a crate, so they are a parameter. Both
ways to ask for the error of a thread read the same number. An extension function is
looked up once and its address is kept, as without debug assertions. `up` are the
questions that are no calls of the operating system, and those of the socket library.
-/

namespace TdRevent.Win

open Interaction

variable {S δ α : Type}

/-- The extension functions that are looked up. -/
inductive WsaExtension
  | AcceptEx | GetAcceptExSockaddrs
  deriving DecidableEq

/-- A packet as the port gives it. -/
structure OVERLAPPED_ENTRY where
  dwNumberOfBytesTransferred : UInt32
  lpCompletionKey : UInt64
  lpOverlapped : Option Overlapped

section

variable (keys : FlagKeys)

namespace OVERLAPPED_ENTRY

/-- `CompletionStatus::new`. -/
def new (bytes : UInt32) (flag : EventFlags) (overlapped : Option Overlapped) : OVERLAPPED_ENTRY :=
  ⟨bytes, keys.bits flag, overlapped⟩

/-- What `bytesTransferred`, `flag` and `overlapped` give of it. -/
def status (entry : OVERLAPPED_ENTRY) : CompletionStatus :=
  ⟨entry.dwNumberOfBytesTransferred.toNat, keys.fromBitsTruncate entry.lpCompletionKey,
    entry.lpOverlapped⟩

/-- The flags of a status come back from the port. -/
@[simp] theorem status_new (bytes : UInt32) (flag : EventFlags) (overlapped : Option Overlapped) :
    (new keys bytes flag overlapped).status keys = ⟨bytes.toNat, flag, overlapped⟩ := by
  rw [status, new, keys.fromBitsTruncate_bits]

end OVERLAPPED_ENTRY

end

/-- The calls of the operating system. -/
inductive OsAsk (S : Type)
  | WSARecv (socket : S) (len : ℕ) (overlapped : Overlapped)
  | WSASend (socket : S) (buf : List UInt8) (overlapped : Overlapped)
  | WSAGetLastError
  | GetLastError
  | WSAIoctl (socket : S) (extension : WsaExtension)
  | AcceptEx (ptr : UInt64) (socket acceptSocket : S) (overlapped : Overlapped)
  | GetAcceptExSockaddrs (ptr : UInt64) (socket : S)
  | setsockopt (socket me : S)
  | CreateIoCompletionPort (socket : S) (key : UInt64)
  | PostQueuedCompletionStatus (bytes : UInt32) (key : UInt64) (overlapped : Overlapped)
  | GetQueuedCompletionStatusEx (len : ℕ)
  | up (q : WinAsk S)

@[reducible] def OsReply : OsAsk S → Type
  | .WSARecv _ _ _ => Int32 × UInt32
  | .WSASend _ _ _ => Int32 × UInt32
  | .WSAGetLastError => Int32
  | .GetLastError => Int32
  | .WSAIoctl _ _ => Int32 × UInt64
  | .AcceptEx _ _ _ _ => Int32
  | .GetAcceptExSockaddrs _ _ => SOCKADDR_STORAGE × Int32
  | .setsockopt _ _ => Int32
  | .CreateIoCompletionPort _ _ => UInt64
  | .PostQueuedCompletionStatus _ _ _ => Int32
  | .GetQueuedCompletionStatusEx _ => Int32 × List OVERLAPPED_ENTRY
  | .up q => WinReply q

/-- The selector, the error of the thread, the addresses of the extension functions, and
the room for packets. -/
structure Winsock (S δ : Type) where
  sel : Selector S δ
  lastError : Int32
  val : WsaExtension → UInt64
  statuses : ℕ

abbrev OsCode (S δ α : Type) := Code (Winsock S δ) (OsReply (S := S)) α

namespace Winsock

def store (x : Winsock S δ) (extension : WsaExtension) (ptr : UInt64) : Winsock S δ :=
  { x with val := Function.update x.val extension ptr }

def enqueue (x : Winsock S δ) (o : Overlapped) : Winsock S δ :=
  { x with sel := { x.sel with port := x.sel.port.enqueue o } }

def fail (x : Winsock S δ) (err : Int32) : Winsock S δ := { x with lastError := err }

theorem enqueue_sel {x y : Winsock S δ} (h : y.sel = x.sel) (o : Overlapped) :
    (y.enqueue o).sel = (x.enqueue o).sel := by
  rw [enqueue, enqueue, h]

end Winsock

/-! ## The functions over the calls -/

def SOCKET_ERROR : Int32 := -1

def TRUE : Int32 := 1

def WSA_IO_PENDING : Int32 := 997

/-- The largest length of 32 bits. -/
def MAX_LEN : ℕ := 2 ^ 32 - 1

def lastOsError : OsCode S δ IoError := do
  let err ← .query OsAsk.GetLastError
  pure (.os err.toInt)

/-- `cvt` of the module, for a `BOOL`. -/
def cvt (i : Int32) : OsCode S δ (Except IoError Int32) := do
  if i = 0 then do
    let err ← lastOsError
    pure (.error err)
  else pure (.ok i)

namespace Net

def lastErr : OsCode S δ (Except IoError (Option ℕ)) := do
  let err ← .query OsAsk.WSAGetLastError
  if err = WSA_IO_PENDING then pure (.ok none) else pure (.error (.os err.toInt))

/-- `cvt` of the sockets. -/
def cvt (i : Int32) (size : UInt32) : OsCode S δ (Except IoError (Option ℕ)) :=
  if i = SOCKET_ERROR then lastErr else pure (.ok (some size.toNat))

def readOverlapped (socket : S) (len : ℕ) (overlapped : Overlapped) :
    OsCode S δ (Except IoError (Option ℕ)) := do
  let (r, bytesRead) ← .query (OsAsk.WSARecv socket (min len MAX_LEN) overlapped)
  cvt r bytesRead

def writeOverlapped (socket : S) (buf : List UInt8) (overlapped : Overlapped) :
    OsCode S δ (Except IoError (Option ℕ)) := do
  let (r, bytesWritten) ← .query (OsAsk.WSASend socket (buf.take MAX_LEN) overlapped)
  cvt r bytesWritten

/-- `WsaExtension::get`. -/
def get (extension : WsaExtension) (socket : S) : OsCode S δ (Except IoError UInt64) := do
  let x ← .read
  if x.val extension ≠ 0 then pure (.ok (x.val extension))
  else do
    let (r, ret) ← .query (OsAsk.WSAIoctl socket extension)
    let res ← cvt r 0
    match res with
    | .error e => pure (.error e)
    | .ok _ => do
        .modify (·.store extension ret)
        pure (.ok ret)

def acceptOverlapped (socket acceptSocket : S) (overlapped : Overlapped) :
    OsCode S δ (Except IoError Bool) := do
  let ptr ← get .AcceptEx socket
  match ptr with
  | .error e => pure (.error e)
  | .ok ptr =>
      if ptr = 0 then do
        let r ← .query (OsAsk.up WinAsk.panic)
        nomatch r
      else do
        let r ← .query (OsAsk.AcceptEx ptr socket acceptSocket overlapped)
        if r = TRUE then pure (.ok true)
        else do
          let err ← lastErr
          pure (err.map fun _ => false)

def acceptComplete (me socket : S) : OsCode S δ (Except IoError Unit) := do
  let result ← .query (OsAsk.setsockopt socket me)
  if result = 0 then pure (.ok ())
  else do
    let err ← lastOsError
    pure (.error err)

/-- `AcceptAddrsBuf::parse`, as far as the remote address goes. -/
def parse (socket : S) : OsCode S δ (Except IoError (SOCKADDR_STORAGE × Int32)) := do
  let ptr ← get .GetAcceptExSockaddrs socket
  match ptr with
  | .error e => pure (.error e)
  | .ok ptr =>
      if ptr = 0 then do
        let r ← .query (OsAsk.up WinAsk.panic)
        nomatch r
      else do
        let remote ← .query (OsAsk.GetAcceptExSockaddrs ptr socket)
        pure (.ok remote)

/-- The result in `readDone` of a listener. -/
def accepted (socket acceptSocket : S) : OsCode S δ (Except IoError Unit) := do
  let ret ← acceptComplete socket acceptSocket
  match ret with
  | .error e => pure (.error e)
  | .ok () => do
      let buf ← parse socket
      match buf with
      | .error e => pure (.error e)
      | .ok (remote, remoteLen) =>
          match ptrsToSocketAddr remote remoteLen with
          | none => pure (.error (.Other "could not obtain remote address"))
          | some _ => pure (.ok ())

end Net

section

variable (keys : FlagKeys)

namespace CompletionPort

def addSocket (flag : EventFlags) (socket : S) : OsCode S δ (Except IoError Unit) := do
  let ret ← .query (OsAsk.CreateIoCompletionPort socket (keys.bits flag))
  if ret = 0 then do
    let err ← lastOsError
    pure (.error err)
  else pure (.ok ())

def getMany : OsCode S δ (Except IoError (List CompletionStatus)) := do
  let x ← .read
  let (ret, entries) ← .query (OsAsk.GetQueuedCompletionStatusEx (min x.statuses MAX_LEN))
  let ret ← cvt ret
  pure (ret.map fun _ => entries.map (OVERLAPPED_ENTRY.status keys))

def postInfo (bytes : ℕ) (flag : EventFlags) (overlapped : Overlapped) :
    OsCode S δ (Except IoError Unit) := do
  let ret ← .query (OsAsk.PostQueuedCompletionStatus (.ofNat bytes) (keys.bits flag) overlapped)
  let ret ← cvt ret
  pure (ret.map fun _ => ())

end CompletionPort

/-- The questions that are answered by functions over the calls. -/
def WinAsk.wrapped : WinAsk S → Bool
  | .acceptOverlapped _ _ _ => true
  | .readOverlapped _ _ _ => true
  | .writeOverlapped _ _ _ => true
  | .acceptComplete _ _ => true
  | .addSocket _ _ => true
  | .postInfo _ _ _ => true
  | .getMany => true
  | _ => false

/-- The code of the questions of the selector. -/
def WinAsk.code : (q : WinAsk S) → OsCode S δ (WinReply q)
  | .acceptOverlapped socket acceptSocket o => Net.acceptOverlapped socket acceptSocket o
  | .readOverlapped socket capacity o => Net.readOverlapped socket capacity o
  | .writeOverlapped socket data o => Net.writeOverlapped socket data o
  | .acceptComplete socket acceptSocket => Net.accepted socket acceptSocket
  | .addSocket flag socket => CompletionPort.addSocket keys flag socket
  | .postInfo bytes flag o => CompletionPort.postInfo keys bytes flag o
  | .getMany => CompletionPort.getMany keys
  | .newSocket socket => .query (OsAsk.up (.newSocket socket))
  | .close socket => .query (OsAsk.up (.close socket))
  | .dispatch status o => .query (OsAsk.up (.dispatch status o))
  | .again post socket => .query (OsAsk.up (.again post socket))
  | .acceptCb id tcp => .query (OsAsk.up (.acceptCb id tcp))
  | .readCb id => .query (OsAsk.up (.readCb id))
  | .writeCb id => .query (OsAsk.up (.writeCb id))
  | .endCb id => .query (OsAsk.up (.endCb id))
  | .panic => .query (OsAsk.up .panic)

/-- The selector over the calls. -/
def winsock (S δ : Type) : Lowering (Selector S δ) (Winsock S δ) (WinReply (S := S))
    (OsReply (S := S)) where
  get := Winsock.sel
  set sel x := { x with sel := sel }
  code := WinAsk.code keys
  get_set _ _ := rfl

/-! ## The operating system -/

/-- An overlapped operation succeeds at once, goes on, or fails. -/
inductive Overlaps (x : Winsock S δ) (o : Overlapped) : Bool → Winsock S δ → Prop
  | done : Overlaps x o true (x.enqueue o)
  | pending : Overlaps x o false ((x.enqueue o).fail WSA_IO_PENDING)
  | failed {err} (h : err ≠ WSA_IO_PENDING) : Overlaps x o false (x.fail err)

/-- A call succeeds with the state `t`, or fails with an error. -/
def Calls (x : Winsock S δ) (succeeds : Prop) (t y : Winsock S δ) : Prop :=
  (succeeds ∧ y = t) ∨ (¬ succeeds ∧ ∃ err, y = x.fail err)

/-- A call that changes nothing but the error of the thread. -/
theorem Calls.same {x y : Winsock S δ} {succeeds : Prop} (h : Calls x succeeds x y) :
    y.sel = x.sel := by
  rcases h with ⟨-, rfl⟩ | ⟨-, err, rfl⟩ <;> rfl

/-- The system has a packet to deliver. A posted packet is delivered as it was posted. -/
inductive Winsock.Delivers (x : Winsock S δ) (entry : OVERLAPPED_ENTRY) :
    Overlapped → Winsock S δ → Prop
  | read {id} (bytes : List UInt8) (hout : x.sel.port.outstanding (.read id) ≠ 0)
      (hbytes : bytes.length = entry.dwNumberOfBytesTransferred.toNat)
      (hroom : bytes.length ≤ (x.sel.events id).buffer.readCache.length) :
      Winsock.Delivers x entry (.read id)
        { x with
          sel := { x.sel.edit id (·.receive bytes) with
            port := x.sel.port.complete (.read id) } }
  | write {id} (hout : x.sel.port.outstanding (.write id) ≠ 0) :
      Winsock.Delivers x entry (.write id)
        { x with sel := { x.sel with port := x.sel.port.complete (.write id) } }
  | posted {o} (hposted : x.sel.port.posted o ≠ 0)
      (hentry : entry = .new keys 0 EventFlags.FLAG_ENDED (some o)) :
      Winsock.Delivers x entry o { x with sel := { x.sel with port := x.sel.port.take o } }

/-- The answers of the operating system. -/
def OsAsk.answer : (q : OsAsk S) → Winsock S δ → OsReply q → Winsock S δ → Prop
  | .WSARecv _ _ o, x, r, y => ∃ done, Overlaps x o done y ∧ r.1 = if done then 0 else SOCKET_ERROR
  | .WSASend _ buf o, x, r, y =>
      ∃ done, Overlaps x o done y ∧ r.1 = (if done then 0 else SOCKET_ERROR) ∧
        r.2.toNat ≤ buf.length
  | .WSAGetLastError, x, r, y => r = x.lastError ∧ y = x
  | .GetLastError, x, r, y => r = x.lastError ∧ y = x
  | .WSAIoctl _ _, x, r, y => Calls x (r.1 = 0) x y
  | .AcceptEx _ _ _ o, x, r, y => ∃ done, Overlaps x o done y ∧ r = if done then TRUE else 0
  | .GetAcceptExSockaddrs _ _, x, _, y => y = x
  | .setsockopt _ _, x, r, y => Calls x (r = 0) x y
  | .CreateIoCompletionPort _ _, x, r, y => Calls x (r ≠ 0) x y
  | .PostQueuedCompletionStatus _ _ o, x, r, y =>
      Calls x (r ≠ 0) { x with sel := { x.sel with port := x.sel.port.post o } } y
  | .GetQueuedCompletionStatusEx len, x, r, y => Calls x (r.1 ≠ 0) x y ∧ r.2.length ≤ len
  | .up (.dispatch status o), x, _, y =>
      ∃ entry : OVERLAPPED_ENTRY, entry.status keys = status ∧ x.Delivers keys entry o y
  | .up q, x, r, y => WinAsk.answer q x.sel r y.sel ∧ y = { x with sel := y.sel }

def OsAsk.user : OsAsk S → Prop
  | .up q => q.user
  | _ => False

variable [DecidableEq S]

/-- The selector over the operating system, in the runs whose moves meet a condition. -/
def osRuns (ok : Selector S δ → Move (WinReply (S := S)) (WinCall S δ) → Prop) :
    System (Winsock S δ) (OsReply (S := S)) (WinCall S δ) Unit where
  api op := op.code.lower (winsock keys S δ)
  user := OsAsk.user
  answer
    | .up q, x, r, y => OsAsk.answer keys (.up q) x r y ∧ ok x.sel (.answer q r)
    | q, x, r, y => q.answer keys x r y
  may x op := op.may ∧ ok x.sel (.call op)

end

variable [DecidableEq S] {keys : FlagKeys}
  {ok : Selector S δ → Move (WinReply (S := S)) (WinCall S δ) → Prop} {x : Winsock S δ}

/-- The code ends with `Q`, and puts no question to the user. -/
abbrev Gives (keys : FlagKeys)
    (ok : Selector S δ → Move (WinReply (S := S)) (WinCall S δ) → Prop) (c : OsCode S δ α)
    (Q : α → Winsock S δ → Prop) (x : Winsock S δ) : Prop :=
  c.wp (Lowering.contract (osRuns keys ok)) Q x

namespace Gives

variable {β : Type} {Q : α → Winsock S δ → Prop}

theorem bind {c : OsCode S δ β} {f : β → OsCode S δ α}
    (h : Gives keys ok c (fun a y => Gives keys ok (f a) Q y) x) : Gives keys ok (c >>= f) Q x :=
  (Code.wp_bind c f Q x).mpr h

theorem ask {q : OsAsk S} {Q : OsReply q → Winsock S δ → Prop} (huser : ¬ q.user)
    (h : ∀ r y, (osRuns keys ok).answer q x r y → Q r y) : Gives keys ok (.query q) Q x :=
  ⟨huser, h⟩

/-! ## The results of the functions -/

theorem lastOsError {Q : IoError → Winsock S δ → Prop} (h : ∀ e, Q e x) :
    Gives keys ok Win.lastOsError Q x := by
  refine .bind (.ask (fun hu => hu) ?_)
  rintro err y ⟨-, rfl⟩
  exact h _

theorem cvt {Q : Except IoError Int32 → Winsock S δ → Prop} {i : Int32}
    (hok : i ≠ 0 → Q (.ok i) x) (herror : i = 0 → ∀ e, Q (.error e) x) :
    Gives keys ok (Win.cvt i) Q x := by
  unfold Win.cvt
  split
  · rename_i h
    exact .bind (lastOsError (herror h))
  · rename_i h
    exact hok h

theorem lastErr {Q : Except IoError (Option ℕ) → Winsock S δ → Prop}
    (hpending : x.lastError = WSA_IO_PENDING → Q (.ok none) x)
    (herror : x.lastError ≠ WSA_IO_PENDING → ∀ e, Q (.error e) x) :
    Gives keys ok Net.lastErr Q x := by
  refine .bind (.ask (fun hu => hu) ?_)
  rintro err y ⟨rfl, rfl⟩
  by_cases h : y.lastError = WSA_IO_PENDING
  · rw [if_pos h]
    exact hpending h
  · rw [if_neg h]
    exact herror h _

theorem net_cvt {Q : Except IoError (Option ℕ) → Winsock S δ → Prop} {i : Int32} {size : UInt32}
    (hok : i ≠ SOCKET_ERROR → Q (.ok (some size.toNat)) x)
    (hpending : i = SOCKET_ERROR → x.lastError = WSA_IO_PENDING → Q (.ok none) x)
    (herror : i = SOCKET_ERROR → x.lastError ≠ WSA_IO_PENDING → ∀ e, Q (.error e) x) :
    Gives keys ok (Net.cvt i size) Q x := by
  unfold Net.cvt
  split
  · rename_i h
    exact lastErr (hpending h) (herror h)
  · rename_i h
    exact hok h

/-- An operation on an address is under way, or nothing happened. -/
theorem overlaps {Q : Except IoError (Option ℕ) → Winsock S δ → Prop} {i : Int32} {size : UInt32}
    {o : Overlapped} {done : Bool} {y : Winsock S δ} (h : Overlaps x o done y)
    (hi : i = if done then 0 else SOCKET_ERROR)
    (hok : ∀ r z, (∀ n, r = some n → n = size.toNat) → z.sel = (x.enqueue o).sel → Q (.ok r) z)
    (herror : ∀ e z, z.sel = x.sel → Q (.error e) z) : Gives keys ok (Net.cvt i size) Q y := by
  cases h with
  | done =>
      have hne : i ≠ SOCKET_ERROR := hi ▸ by decide
      refine net_cvt (fun _ => ?_) (fun h => absurd h hne) fun h => absurd h hne
      exact hok _ _ (fun n hn => (Option.some.inj hn).symm) rfl
  | pending =>
      refine net_cvt (fun h => absurd hi h) (fun _ _ => ?_) fun _ h => absurd rfl h
      exact hok none _ (fun n hn => by cases hn) rfl
  | failed hfail =>
      exact net_cvt (fun h => absurd hi h) (fun _ h => absurd h hfail) fun _ _ e => herror e _ rfl

/-- What is looked up changes nothing of the selector. -/
theorem get {Q : Except IoError UInt64 → Winsock S δ → Prop} {extension : WsaExtension}
    {socket : S} (h : ∀ ret y, y.sel = x.sel → Q ret y) :
    Gives keys ok (Net.get extension socket) Q x := by
  by_cases hval : x.val extension ≠ 0
  · change Gives keys ok (if x.val extension ≠ 0 then _ else _) Q x
    rw [if_pos hval]
    exact h _ x rfl
  · change Gives keys ok (if x.val extension ≠ 0 then _ else _) Q x
    rw [if_neg hval]
    refine .bind (.ask (fun hu => hu) ?_)
    rintro ⟨r, ret⟩ y hy
    have hsame := Calls.same hy
    refine .bind (net_cvt (fun _ => ?_) (fun _ _ => ?_) fun _ _ e => ?_)
    · exact h (.ok ret) _ hsame
    · exact h (.ok ret) _ hsame
    · exact h (.error e) _ hsame

/-- A panic has no answer. -/
theorem panic {c : WinReply (S := S) .panic → OsCode S δ α} {Q : α → Winsock S δ → Prop} :
    Gives keys ok (.query (OsAsk.up WinAsk.panic) >>= c) Q x :=
  .bind (.ask (fun hu => hu) fun r => Empty.elim r)

/-! ## The answers to the selector -/

/-- The code answers as the selector assumes. -/
abbrev Right (keys : FlagKeys)
    (ok : Selector S δ → Move (WinReply (S := S)) (WinCall S δ) → Prop) (q : WinAsk S)
    (x : Winsock S δ) : Prop :=
  Gives keys ok (q.code keys) (fun r y => WinAsk.answer q x.sel r y.sel) x

theorem readOverlapped (socket : S) (capacity : ℕ) (o : Overlapped) :
    Right keys ok (.readOverlapped socket capacity o) x := by
  refine .bind (.ask (fun hu => hu) ?_)
  rintro ⟨r, bytesRead⟩ y ⟨done, hy, hr⟩
  exact overlaps hy hr (fun r z _ hz => hz) fun e z hz => hz

theorem writeOverlapped (socket : S) (data : List UInt8) (o : Overlapped) :
    Right keys ok (.writeOverlapped socket data o) x := by
  refine .bind (.ask (fun hu => hu) ?_)
  rintro ⟨r, bytesWritten⟩ y ⟨done, hy, hr, hlength⟩
  refine overlaps hy hr (fun r z hn hz => ⟨hz, fun n hr => ?_⟩) fun e z hz => hz
  have htake : (data.take MAX_LEN).length ≤ data.length := List.length_take_le' ..
  exact hn n hr ▸ hlength.trans htake

theorem acceptOverlapped (socket acceptSocket : S) (o : Overlapped) :
    Right keys ok (.acceptOverlapped socket acceptSocket o) x := by
  refine .bind (get fun ret y hy => ?_)
  cases ret with
  | error e => exact hy
  | ok ptr =>
      by_cases hptr : ptr = 0
      · dsimp only
        rw [if_pos hptr]
        exact panic
      · dsimp only
        rw [if_neg hptr]
        refine .bind (.ask (fun hu => hu) ?_)
        rintro r z ⟨done, hz, rfl⟩
        have hstarted : ∀ b, WinAsk.answer (.acceptOverlapped socket acceptSocket o) x.sel
            (.ok b) (y.enqueue o).sel := fun _ => Winsock.enqueue_sel hy o
        cases hz with
        | done => exact hstarted true
        | pending => exact .bind (lastErr (fun _ => hstarted false) fun h => absurd rfl h)
        | failed hfail => exact .bind (lastErr (fun h => absurd h hfail) fun _ _ => hy)

theorem acceptComplete {Q : Except IoError Unit → Winsock S δ → Prop} {me socket : S}
    (h : ∀ ret y, y.sel = x.sel → Q ret y) : Gives keys ok (Net.acceptComplete me socket) Q x := by
  refine .bind (.ask (fun hu => hu) ?_)
  rintro r y hy
  have hsame := Calls.same hy
  by_cases hr : r = 0
  · rw [if_pos hr]
    exact h _ y hsame
  · rw [if_neg hr]
    exact .bind (lastOsError fun e => h (.error e) y hsame)

theorem parse {Q : Except IoError (SOCKADDR_STORAGE × Int32) → Winsock S δ → Prop} {socket : S}
    (h : ∀ ret y, y.sel = x.sel → Q ret y) : Gives keys ok (Net.parse socket) Q x := by
  refine .bind (get fun ret y hy => ?_)
  cases ret with
  | error e => exact h _ y hy
  | ok ptr =>
      dsimp only
      split
      · exact panic
      · refine .bind (.ask (fun hu => hu) ?_)
        rintro remote z rfl
        exact h _ z hy

theorem accepted (socket acceptSocket : S) :
    Right keys ok (.acceptComplete socket acceptSocket) x := by
  refine .bind (acceptComplete fun ret y hy => ?_)
  cases ret with
  | error e => exact hy
  | ok _ =>
      refine .bind (parse fun buf z hz => ?_)
      cases buf with
      | error e => exact hz.trans hy
      | ok remote =>
          dsimp only
          split <;> exact hz.trans hy

theorem addSocket (flag : EventFlags) (socket : S) : Right keys ok (.addSocket flag socket) x := by
  refine .bind (.ask (fun hu => hu) ?_)
  rintro r y hy
  have hsame := Calls.same hy
  by_cases hr : r = 0
  · rw [if_pos hr]
    exact .bind (lastOsError fun e => hsame)
  · rw [if_neg hr]
    exact hsame

theorem postInfo (bytes : ℕ) (flag : EventFlags) (o : Overlapped) :
    Right keys ok (.postInfo bytes flag o) x := by
  refine .bind (.ask (fun hu => hu) ?_)
  rintro r y (⟨hr, rfl⟩ | ⟨hr, err, rfl⟩)
  · exact .bind (cvt (fun _ => rfl) fun h => absurd h hr)
  · exact .bind (cvt (fun h => absurd h hr) fun _ _ => rfl)

theorem getMany : Right keys ok .getMany x := by
  refine .bind (.ask (fun hu => hu) ?_)
  rintro ⟨r, entries⟩ y ⟨hy, -⟩
  change Gives keys ok (Win.cvt r >>= fun ret =>
    pure (ret.map fun _ => entries.map (OVERLAPPED_ENTRY.status keys))) _ y
  exact .bind (cvt (fun _ => hy.same) fun _ _ => hy.same)

end Gives

omit [DecidableEq S] in
/-- A packet that the system delivers is one that the selector expects. -/
theorem Winsock.Delivers.delivers {entry : OVERLAPPED_ENTRY} {o : Overlapped} {y : Winsock S δ}
    (h : x.Delivers keys entry o y) : Win.Delivers x.sel (entry.status keys) o y.sel := by
  cases h with
  | read bytes hout hbytes hroom => exact .read bytes hout hbytes hroom
  | write hout => exact .write hout
  | posted hposted hentry =>
      rw [hentry, OVERLAPPED_ENTRY.status_new]
      exact .posted hposted rfl rfl

/-- Every question is answered as the selector assumes. -/
theorem winsock_refines
    (hok : ∀ sel (q : WinAsk S) r, q.wrapped = true → ok sel (.answer q r)) :
    (winsock keys S δ).Refines (winRuns ok) (osRuns keys ok) := by
  have hright : ∀ (q : WinAsk S) (x : Winsock S δ), q.wrapped = true → Gives.Right keys ok q x →
      (winsock keys S δ).Answers (winRuns ok) (osRuns keys ok) q (q.code keys) x.sel x :=
    fun q x hq h => Code.wp_mono _ (fun r y hr => ⟨hr, hok x.sel q r hq⟩) h
  have hup : ∀ (q : WinAsk S) (x : Winsock S δ) r y, (osRuns keys ok).answer (.up q) x r y →
      (winRuns ok).answer q x.sel r y.sel := by
    rintro q x r y ⟨hanswer, hok⟩
    refine ⟨?_, hok⟩
    cases q with
    | dispatch status o =>
        obtain ⟨entry, rfl, h⟩ := hanswer
        exact h.delivers
    | _ => exact hanswer.1
  refine ⟨fun op => rfl, fun x op h => h, fun q x hq => ?_, fun q hq => ?_⟩
  · cases q with
    | acceptOverlapped socket acceptSocket o =>
        exact hright _ x rfl (.acceptOverlapped socket acceptSocket o)
    | readOverlapped socket capacity o => exact hright _ x rfl (.readOverlapped socket capacity o)
    | writeOverlapped socket data o => exact hright _ x rfl (.writeOverlapped socket data o)
    | acceptComplete socket acceptSocket => exact hright _ x rfl (.accepted socket acceptSocket)
    | addSocket flag socket => exact hright _ x rfl (.addSocket flag socket)
    | postInfo bytes flag o => exact hright _ x rfl (.postInfo bytes flag o)
    | getMany => exact hright _ x rfl .getMany
    | _ => exact ⟨hq, fun r y h => hup _ x r y h⟩
  · cases q with
    | acceptCb id tcp => exact ⟨_, _, rfl, trivial, fun x r y h => hup _ x r y h⟩
    | readCb id => exact ⟨_, _, rfl, trivial, fun x r y h => hup _ x r y h⟩
    | writeCb id => exact ⟨_, _, rfl, trivial, fun x r y h => hup _ x r y h⟩
    | endCb id => exact ⟨_, _, rfl, trivial, fun x r y h => hup _ x r y h⟩
    | _ => exact hq.elim

/-- The open callbacks are the same. -/
theorem stacks_up {fs' : List (Frame (Winsock S δ) (OsReply (S := S)) Unit)}
    {fs : List (Frame (Selector S δ) (WinReply (S := S)) Unit)}
    (h : (winsock keys S δ).Stacks (winRuns ok) (osRuns keys ok) fs' fs) :
    fs'.map (·.question) = fs.map fun f => .up f.question := by
  induction h with
  | nil => rfl
  | @cons q q' _ _ _ _ huser hcode _ _ _ ih =>
      have hup : q' = .up q := by
        cases q with
        | acceptCb id tcp => cases hcode; rfl
        | readCb id => cases hcode; rfl
        | writeCb id => cases hcode; rfl
        | endCb id => cases hcode; rfl
        | _ => exact huser.elim
      exact List.cons_eq_cons.mpr ⟨hup, ih⟩

/-! ## The main result -/

/-- The selector over the operating system has the runs of the selector: whenever user code
runs, some run of the selector alone has come to the same state, with the same callbacks
open. This holds under every condition on the calls, the callbacks and the packets. -/
theorem win_over_winsock
    (hok : ∀ sel (q : WinAsk S) r, q.wrapped = true → ok sel (.answer q r))
    {c' : Config (Winsock S δ) (OsReply (S := S)) Unit} (hreach : (osRuns keys ok).Reaches x c')
    (hopen : (osRuns keys ok).Open c'.stack) :
    ∃ c, (winRuns ok).Reaches x.sel c ∧ (winRuns ok).Open c.stack ∧ c.state = c'.state.sel ∧
      c'.stack.map (·.question) = c.stack.map fun f => .up f.question := by
  obtain ⟨c, hreach', hshows⟩ := (winsock_refines hok).reaches hreach
  obtain ⟨hstate, hstacks⟩ := hshows.of_open hopen
  exact ⟨c, hreach', hstacks.isOpen, hstate, stacks_up hstacks⟩

/-- A read goes on, its packet comes, and the callback is run. -/
theorem win_over_winsock_read :
    ∃ c', (osRuns .documented fun (_ : Selector SOCKET Unit) _ => True).Reaches
        ⟨.new, 0, fun _ => 0, 8⟩ c' ∧
      c'.stack.map (·.question) = [.up (.readCb 0)] ∧
      ∃ c, (winRuns fun (_ : Selector SOCKET Unit) _ => True).Reaches .new c ∧
        (winRuns fun (_ : Selector SOCKET Unit) _ => True).Open c.stack ∧
        c.state = c'.state.sel ∧
        c'.stack.map (·.question) = c.stack.map fun f => .up f.question := by
  have start := System.Reaches.refl
    (S := osRuns .documented fun (_ : Selector SOCKET Unit) _ => True) ⟨.new, 0, fun _ => 0, 8⟩
  have added := (start.call (.registerSocket { EventBuffer.new 3 0 with readCache := [0] }
    (.newEvent 3 EventFlags.FLAG_READ (some 1) none none none)) trivial
    ⟨trivial, trivial⟩).answer (1 : UInt64) (.inl ⟨by decide, rfl⟩)
  have registered := (added.answer (SOCKET_ERROR, (0 : UInt32)) ⟨false, .pending, rfl⟩).answer
    WSA_IO_PENDING ⟨rfl, rfl⟩
  have received := ((registered.call .doSelect trivial ⟨trivial, trivial⟩).answer
    ((1 : Int32), [⟨1, 0, some (.read 0)⟩]) ⟨.inl ⟨by decide, rfl⟩, by decide⟩).answer ()
    ⟨⟨⟨1, 0, some (.read 0)⟩, rfl, .read [7] (by decide) rfl (by decide)⟩, trivial⟩
  exact ⟨_, received, rfl, win_over_winsock (fun _ _ _ _ => trivial) received trivial⟩

end TdRevent.Win
