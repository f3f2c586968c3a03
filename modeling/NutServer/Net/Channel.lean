import NutServer.Base.Outcome

/-!
# Channels

`nut::Channel`: the events a descriptor is watched for. `update()` hands the
channel to the poller; callers record it.
-/

set_option autoImplicit false

namespace NutServer.Net

structure Channel where
  fd : Nat
  events : BitVec 32
  revents : BitVec 32
  index : Int
  deriving DecidableEq, Repr

namespace Channel

/-- `POLLIN | POLLPRI`. -/
def readEvent : BitVec 32 := 0x001 ||| 0x002

/-- `POLLOUT`. -/
def writeEvent : BitVec 32 := 0x004

def noneEvent : BitVec 32 := 0

def new (fd : Nat) : Channel where
  fd := fd
  events := noneEvent
  revents := 0
  index := -1

def enableReading (channel : Channel) : Channel :=
  { channel with events := channel.events ||| readEvent }

def enableWriting (channel : Channel) : Channel :=
  { channel with events := channel.events ||| writeEvent }

def disableWriting (channel : Channel) : Channel :=
  { channel with events := channel.events &&& ~~~writeEvent }

def disableAll (channel : Channel) : Channel :=
  { channel with events := noneEvent }

def isWriting (channel : Channel) : Bool := channel.events &&& writeEvent ≠ 0

/-- The four changes of the watched events; `update()` follows each of them. -/
inductive Change where
  | enableReading
  | enableWriting
  | disableWriting
  | disableAll
  deriving DecidableEq, Repr

def change (channel : Channel) : Change → Channel
  | .enableReading => channel.enableReading
  | .enableWriting => channel.enableWriting
  | .disableWriting => channel.disableWriting
  | .disableAll => channel.disableAll

inductive Callback where
  | close
  | error
  | read
  | write
  deriving DecidableEq, Repr

def pollIn : BitVec 32 := 0x001

def pollPri : BitVec 32 := 0x002

def pollOut : BitVec 32 := 0x004

def pollErr : BitVec 32 := 0x008

def pollHup : BitVec 32 := 0x010

def pollNval : BitVec 32 := 0x020

def pollRdHup : BitVec 32 := 0x2000

/-- The callbacks that `handler` calls, in this order. -/
def handler (revents : BitVec 32) : List Callback :=
  (if revents &&& pollHup ≠ 0 ∧ revents &&& pollIn = 0 then [.close] else []) ++
    (if revents &&& (pollErr ||| pollNval) ≠ 0 then [.error] else []) ++
    (if revents &&& (pollIn ||| pollPri ||| pollRdHup) ≠ 0 then [.read] else []) ++
    (if revents &&& pollOut ≠ 0 then [.write] else [])

def isNothingFocus (channel : Channel) : Bool := channel.events = noneEvent

variable (channel : Channel)

@[simp] theorem fd_change (change : Change) : (channel.change change).fd = channel.fd := by
  cases change <;> rfl

@[simp] theorem index_change (change : Change) : (channel.change change).index = channel.index := by
  cases change <;> rfl

theorem events_change {channel other : Channel} (same : channel.events = other.events) (change : Change) :
    (channel.change change).events = (other.change change).events := by
  cases change <;>
    simp [Channel.change, enableReading, enableWriting, disableWriting, disableAll, same]

@[simp] theorem isWriting_new (fd : Nat) : (new fd).isWriting = false := by
  simp [isWriting, new, noneEvent]

@[simp] theorem isWriting_enableWriting : channel.enableWriting.isWriting = true := by
  have kept : (channel.events ||| writeEvent) &&& writeEvent = writeEvent := by
    ext bit inside
    simp only [BitVec.getElem_and, BitVec.getElem_or]
    cases writeEvent[bit] <;> simp
  have nonzero : writeEvent ≠ 0 := by decide
  simp only [isWriting, enableWriting, kept, nonzero, ne_eq, not_false_iff, decide_true]

@[simp] theorem isWriting_disableWriting : channel.disableWriting.isWriting = false := by
  have cleared : (channel.events &&& ~~~writeEvent) &&& writeEvent = 0 := by
    ext bit inside
    simp only [BitVec.getElem_and, BitVec.getElem_not]
    cases writeEvent[bit] <;> simp
  simp [isWriting, disableWriting, cleared]

@[simp] theorem isWriting_disableAll : channel.disableAll.isWriting = false := by
  simp [isWriting, disableAll, noneEvent]

end Channel

end NutServer.Net
