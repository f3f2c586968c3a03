import NutServer.Base.FixedBuffer

/-!
# The logging thread

`nut::AsyncLogging`. A step is what runs without another thread seeing the
state in between: a critical section under `mutex_`, or work on the locals of
`threadFunc`.
-/

set_option autoImplicit false

namespace NutServer.Base

namespace AsyncLogging

abbrev Buffer := FixedBuffer SmallBuffer

/-- `std::unique_ptr<Buffer>`; `none` is the null pointer. -/
abbrev UBufferPtr := Option Buffer

inductive Backend where
  | unstarted
  | entered
  | loopHead
  /-- Before the test of `buffers_.empty()` under the lock. -/
  | locking
  | waiting
  /-- So many of `buffersToWrite` are written. -/
  | writing (index : Nat)
  | finished
  deriving DecidableEq, Repr

inductive Stopper where
  | uncalled
  | stored
  | joining
  | returned
  deriving DecidableEq, Repr

end AsyncLogging

open AsyncLogging in

structure AsyncLogging where
  running : Bool
  buffers : List UBufferPtr
  currentBuffer : UBufferPtr
  nextBuffer : UBufferPtr
  newBuffer1 : UBufferPtr
  newBuffer2 : UBufferPtr
  buffersToWrite : List UBufferPtr
  backend : Backend
  stopper : Stopper
  written : Bytes
  deriving DecidableEq, Repr

namespace AsyncLogging

def deref : UBufferPtr → Outcome Buffer
  | some buffer => .ok buffer
  | none => .error .dangling

def new : AsyncLogging where
  running := false
  buffers := []
  currentBuffer := some .new
  nextBuffer := some .new
  newBuffer1 := none
  newBuffer2 := none
  buffersToWrite := []
  backend := .unstarted
  stopper := .uncalled
  written := []

/-- `cond_.notify()` wakes the one thread that can wait. -/
def notify (log : AsyncLogging) : AsyncLogging :=
  if log.backend = .waiting then { log with backend := .locking } else log

/-- `append` when the current buffer has no room: it is queued, and the spare
buffer or a new one takes its place. -/
def appendToNext (log : AsyncLogging) (message : Bytes) : Outcome AsyncLogging := do
  let current ← (log.nextBuffer.getD .new).append message
  let log := { log with
    buffers := log.buffers ++ [log.currentBuffer]
    nextBuffer := none
    currentBuffer := some current }
  return log.notify

def append (log : AsyncLogging) (message : Bytes) : Outcome AsyncLogging := do
  let current ← deref log.currentBuffer
  if (message.length : Int) < current.avail then
    return { log with currentBuffer := some (← current.append message) }
  else log.appendToNext message

/-- `newBuffer && newBuffer->length() == 0`. -/
def isFresh : UBufferPtr → Bool
  | some buffer => buffer.length = 0
  | none => false

def loopHead (log : AsyncLogging) : Outcome AsyncLogging :=
  if log.running then do
    assert (isFresh log.newBuffer1)
    assert (isFresh log.newBuffer2)
    assert (log.buffersToWrite = [])
    return { log with backend := .locking }
  else return { log with backend := .finished }

def takeBuffers (log : AsyncLogging) : AsyncLogging :=
  { log with
    buffersToWrite := log.buffers ++ [log.currentBuffer]
    buffers := log.buffersToWrite
    currentBuffer := log.newBuffer1
    newBuffer1 := none
    backend := .writing 0 }

def replaceSpare (log : AsyncLogging) : AsyncLogging :=
  if log.nextBuffer = none then { log with nextBuffer := log.newBuffer2, newBuffer2 := none } else log

/-- The critical section of `threadFunc`, which waits while nothing is queued. -/
def swapBuffers (log : AsyncLogging) : Outcome AsyncLogging :=
  if log.buffers = [] then return { log with backend := .waiting }
  else do
    let log := log.takeBuffers.replaceSpare
    assert (log.buffersToWrite ≠ [])
    return log

/-- `if (!newBuffer)`: take the last written buffer and reset it. -/
def refill (newBuffer : UBufferPtr) (written : List UBufferPtr) :
    Outcome (UBufferPtr × List UBufferPtr) :=
  match newBuffer with
  | some _ => return (newBuffer, written)
  | none => do
      assert (written ≠ [])
      let buffer ← deref (written.getLast?.getD none)
      return (some buffer.reset, written.dropLast)

/-- Everything between the last write and the end of the loop body. -/
def recycle (log : AsyncLogging) : Outcome AsyncLogging := do
  let kept := if 2 < log.buffersToWrite.length then log.buffersToWrite.take 2 else log.buffersToWrite
  let (newBuffer1, kept) ← refill log.newBuffer1 kept
  let (newBuffer2, _) ← refill log.newBuffer2 kept
  return { log with newBuffer1, newBuffer2, buffersToWrite := [], backend := .loopHead }

/-- One turn of the loop over `buffersToWrite`, or the code behind it. -/
def write (log : AsyncLogging) (index : Nat) : Outcome AsyncLogging :=
  match log.buffersToWrite[index]? with
  | some pointer => do
      let buffer ← deref pointer
      return { log with written := log.written ++ buffer.data, backend := .writing (index + 1) }
  | none => log.recycle

def enter (log : AsyncLogging) : Outcome AsyncLogging := do
  assert log.running
  return { log with
    newBuffer1 := some .new
    newBuffer2 := some .new
    buffersToWrite := []
    backend := .loopHead }

def threadFunc (log : AsyncLogging) : Outcome AsyncLogging :=
  match log.backend with
  | .entered => log.enter
  | .loopHead => log.loopHead
  | .locking => log.swapBuffers
  | .writing index => log.write index
  | .unstarted | .waiting | .finished => return log

inductive Event where
  | append (message : Bytes)
  /-- `start()` up to the start of the thread. -/
  | start
  | backend
  /-- `cond_.wait()` returns without a notification. -/
  | spuriousWakeup
  /-- `stop()` stores `running_`. -/
  | stopStore
  | stopNotify
  | stopJoin
  deriving DecidableEq, Repr

/-- Whether the step is the next one of some thread that is not blocked. -/
def Event.Enabled (log : AsyncLogging) : Event → Prop
  | .append _ => True
  | .start => log.backend = .unstarted
  | .backend => log.backend ≠ .unstarted ∧ log.backend ≠ .waiting ∧ log.backend ≠ .finished
  | .spuriousWakeup => log.backend = .waiting
  | .stopStore => log.stopper = .uncalled ∧ log.backend ≠ .unstarted ∧ log.backend ≠ .entered
  | .stopNotify => log.stopper = .stored
  | .stopJoin => log.stopper = .joining ∧ log.backend = .finished

instance decidableEnabled (log : AsyncLogging) : ∀ event : Event, Decidable (event.Enabled log)
  | .append _ => isTrue trivial
  | .start => inferInstanceAs (Decidable (log.backend = .unstarted))
  | .backend => inferInstanceAs
      (Decidable (log.backend ≠ .unstarted ∧ log.backend ≠ .waiting ∧ log.backend ≠ .finished))
  | .spuriousWakeup => inferInstanceAs (Decidable (log.backend = .waiting))
  | .stopStore => inferInstanceAs
      (Decidable (log.stopper = .uncalled ∧ log.backend ≠ .unstarted ∧ log.backend ≠ .entered))
  | .stopNotify => inferInstanceAs (Decidable (log.stopper = .stored))
  | .stopJoin => inferInstanceAs (Decidable (log.stopper = .joining ∧ log.backend = .finished))

def perform (log : AsyncLogging) : Event → Outcome AsyncLogging
  | .append message => log.append message
  | .start => return { log with running := true, backend := .entered }
  | .backend => log.threadFunc
  | .spuriousWakeup => return { log with backend := .locking }
  | .stopStore => return { log with running := false, stopper := .stored }
  | .stopNotify => return { log.notify with stopper := .joining }
  | .stopJoin => return { log with stopper := .returned }

def step (log : AsyncLogging) (event : Event) : Option AsyncLogging :=
  if event.Enabled log then (log.perform event).toOption else none

end AsyncLogging

end NutServer.Base
