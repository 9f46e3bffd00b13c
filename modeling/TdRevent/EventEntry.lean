import TdRevent.EventFlags

/-!
# Event entries

An entry is what the user registers: the events of a socket with its
callbacks, or a timer. `S` is the descriptor type of the platform and `δ` the
type of the user's data cell. A callback is known by its address only.
-/

namespace TdRevent

/-- The result of a callback. -/
inductive RetValue
  | OK | CONTINUE | OVER
  deriving DecidableEq, Repr

/-- The address of a callback. -/
abbrev FnPtr := UInt64

/-- An event entry. `end` is a keyword of Lean, so its callback is `end_`. -/
structure EventEntry (S δ : Type) where
  evFd : S
  timeId : UInt32
  tickMs : UInt64
  tickStep : UInt64
  evEvents : EventFlags
  accept : Option FnPtr
  read : Option FnPtr
  write : Option FnPtr
  end_ : Option FnPtr
  timer : Option FnPtr
  data : Option δ
  deriving DecidableEq

namespace EventEntry

variable {S δ : Type} [Zero S]

/-- `Default::default`. -/
def default : EventEntry S δ where
  evFd := 0
  timeId := 0
  tickMs := 0
  tickStep := 0
  evEvents := ∅
  accept := none
  read := none
  write := none
  end_ := none
  timer := none
  data := none

/-- A timer `tickStep` after the clock value `now`. -/
def newTimer (now tickStep : UInt64) (tickRepeat : Bool) (timer : Option FnPtr)
    (data : Option δ) : EventEntry S δ :=
  { (default : EventEntry S δ) with
    tickMs := now + tickStep
    tickStep := tickStep
    evEvents :=
      if tickRepeat then EventFlags.FLAG_TIMEOUT ∪ EventFlags.FLAG_PERSIST
      else EventFlags.FLAG_TIMEOUT
    timer := timer
    data := data }

/-- A timer at the clock value `tickTime`. -/
def newTimerAt (tickTime : UInt64) (timer : Option FnPtr) (data : Option δ) :
    EventEntry S δ :=
  { (default : EventEntry S δ) with
    tickMs := tickTime
    evEvents := EventFlags.FLAG_TIMEOUT
    timer := timer
    data := data }

/-- The events of a connected socket. -/
def newEvent (evFd : S) (evEvents : EventFlags) (read write end_ : Option FnPtr)
    (data : Option δ) : EventEntry S δ :=
  { (default : EventEntry S δ) with
    evEvents := evEvents
    read := read
    write := write
    end_ := end_
    data := data
    evFd := evFd }

/-- The events of a listening socket. -/
def newAccept (evFd : S) (evEvents : EventFlags) (accept end_ : Option FnPtr)
    (data : Option δ) : EventEntry S δ :=
  { (default : EventEntry S δ) with
    evEvents := evEvents
    accept := accept
    end_ := end_
    data := data
    evFd := evFd }

/-- The flags of a socket, without callbacks. -/
def newEvfd (evFd : S) (evEvents : EventFlags) : EventEntry S δ :=
  { (default : EventEntry S δ) with
    evEvents := evEvents
    evFd := evFd }

end EventEntry

namespace EventEntry

variable {S δ : Type}

def hasFlag (self : EventEntry S δ) (flag : EventFlags) : Prop := self.evEvents.contains flag

instance (self : EventEntry S δ) (flag : EventFlags) : Decidable (self.hasFlag flag) :=
  inferInstanceAs (Decidable (self.evEvents.contains flag))

/-- Take over the events of another entry, or give them up. A request to give
up accepting gives up reading too. -/
def merge (self : EventEntry S δ) (isDel : Bool) (event : EventEntry S δ) : EventEntry S δ :=
  if isDel then
    let self :=
      if event.hasFlag EventFlags.FLAG_READ ∨ event.hasFlag EventFlags.FLAG_ACCEPT then
        { self with evEvents := self.evEvents.remove EventFlags.FLAG_READ, read := none }
      else self
    let self :=
      if event.hasFlag EventFlags.FLAG_ACCEPT then
        { self with evEvents := self.evEvents.remove EventFlags.FLAG_ACCEPT, accept := none }
      else self
    if event.hasFlag EventFlags.FLAG_WRITE then
      { self with evEvents := self.evEvents.remove EventFlags.FLAG_WRITE, write := none }
    else self
  else
    let self :=
      if event.hasFlag EventFlags.FLAG_READ then
        { self with
          evEvents := self.evEvents.insert EventFlags.FLAG_READ
          read := if event.read.isSome then event.read else self.read }
      else self
    let self :=
      if event.hasFlag EventFlags.FLAG_ACCEPT then
        { self with
          evEvents := self.evEvents.insert EventFlags.FLAG_ACCEPT
          accept := if event.accept.isSome then event.accept else self.accept }
      else self
    if event.hasFlag EventFlags.FLAG_WRITE then
      { self with
        evEvents := self.evEvents.insert EventFlags.FLAG_WRITE
        write := if event.write.isSome then event.write else self.write }
    else self

/-- `merge` and the read interest. -/
theorem merge_READ (self event : EventEntry S δ) (isDel : Bool) :
    Flag.READ ∈ (self.merge isDel event).evEvents ↔
      if isDel then
        Flag.READ ∈ self.evEvents ∧ Flag.READ ∉ event.evEvents ∧
          Flag.ACCEPT ∉ event.evEvents
      else Flag.READ ∈ self.evEvents ∨ Flag.READ ∈ event.evEvents := by
  cases isDel <;>
  by_cases hr : Flag.READ ∈ event.evEvents <;>
  by_cases ha : Flag.ACCEPT ∈ event.evEvents <;>
  by_cases hw : Flag.WRITE ∈ event.evEvents <;>
  simp [merge, hasFlag, hr, ha, hw]

/-- `merge` and the write interest. -/
theorem merge_WRITE (self event : EventEntry S δ) (isDel : Bool) :
    Flag.WRITE ∈ (self.merge isDel event).evEvents ↔
      if isDel then Flag.WRITE ∈ self.evEvents ∧ Flag.WRITE ∉ event.evEvents
      else Flag.WRITE ∈ self.evEvents ∨ Flag.WRITE ∈ event.evEvents := by
  cases isDel <;>
  by_cases hr : Flag.READ ∈ event.evEvents <;>
  by_cases ha : Flag.ACCEPT ∈ event.evEvents <;>
  by_cases hw : Flag.WRITE ∈ event.evEvents <;>
  simp [merge, hasFlag, hr, ha, hw]

/-- `merge` leaves the end callback alone. -/
theorem merge_end (self event : EventEntry S δ) (isDel : Bool) :
    (self.merge isDel event).end_ = self.end_ := by
  unfold merge
  split_ifs <;> rfl

end EventEntry

end TdRevent
