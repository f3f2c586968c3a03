import NutServer.Base.AsyncLoggingStop
import NutServer.Base.Thread

/-!
# The start of the logging thread

`nut::output` in any number of threads: the first of them runs `once_init` behind
`pthread_once`, which makes the `AsyncLogging` and starts its thread, and the
others wait until it has returned.
-/

set_option autoImplicit false

namespace NutServer.Base

open Library

namespace LoggingStart

/-- How far `once_init` is. -/
inductive Point where
  | untouched
  | constructing
  /-- Before the store of `running_`. -/
  | storing
  /-- Before `pthread_create`. -/
  | creating
  /-- In the wait of `Thread::start()`. -/
  | awaitingTid
  /-- In the wait of `AsyncLogging::start()`. -/
  | awaitingLatch
  | returned
  deriving DecidableEq, Repr

inductive Caller where
  | outside
  | atOnce (message : Bytes)
  /-- Between `pthread_once` and `append`. -/
  | past (message : Bytes)
  deriving DecidableEq, Repr

def Caller.isAtOnce : Caller → Bool
  | .atOnce _ => true
  | .outside | .past _ => false

end LoggingStart

open LoggingStart in

structure LoggingStart (ι : Type) where
  point : Point
  /-- `asyncLogging_`, apart from its latch and its thread. -/
  asyncLogging : Option AsyncLogging
  thread : Thread
  latch : CountDownLatch
  callers : ι → Caller

namespace LoggingStart

variable {ι : Type} [DecidableEq ι]

def new : LoggingStart ι where
  point := .untouched
  asyncLogging := none
  thread := .new
  latch := ⟨1⟩
  callers _ := .outside

/-- The next step of `once_init`; `created` is what `pthread_create` comes to. -/
def initialise (start : LoggingStart ι) (created : Bool) : Outcome (LoggingStart ι) :=
  match start.point with
  | .untouched | .returned => return start
  | .constructing => return { start with
      asyncLogging := some .new
      thread := .new
      latch := ⟨1⟩
      point := .storing }
  | .storing => do
      let log ← demand start.asyncLogging .dangling
      return { start with asyncLogging := some { log with running := true }, point := .creating }
  | .creating => do
      assert (start.thread.started = false)
      let result ← demand (start.thread.perform (if created then .create else .createFails)) .assertion
      if created then do
        let log ← demand start.asyncLogging .dangling
        return { start with
          thread := result.1
          asyncLogging := some { log with backend := .entered }
          point := .awaitingTid }
      else return { start with thread := result.1, point := .awaitingLatch }
  | .awaitingTid => do
      start.thread.checkTid
      return { start with point := .awaitingLatch }
  | .awaitingLatch => return { start with point := .returned }

/-- The next step of the logging thread. Behind its assertion `threadFunc` counts
the latch of `AsyncLogging` down. A countdown without meaning fails. -/
def runThread (start : LoggingStart ι) (tid : Int) : Outcome (LoggingStart ι) :=
  match start.thread.runner with
  | .absent => return start
  | .created => do
      let result ← demand (start.thread.perform (.setTid tid)) .assertion
      return { start with thread := result.1 }
  | .announced => do
      let result ← demand (start.thread.perform .countDown) .assertion
      return { start with thread := result.1 }
  | .running => do
      let log ← demand start.asyncLogging .dangling
      let next ← log.threadFunc
      if log.backend = .entered then do
        let counted ← demand start.latch.countDown .assertion
        return { start with asyncLogging := some next, latch := counted.1 }
      else return { start with asyncLogging := some next }

inductive Event (ι : Type) where
  | call (thread : ι) (message : Bytes)
  /-- `pthread_once` takes the thread for the first one, or lets it pass. -/
  | once (thread : ι)
  | initialise (created : Bool)
  | runThread (tid : Int)
  | spuriousWakeup
  | append (thread : ι) (message : Bytes)
  deriving DecidableEq, Repr

def append (start : LoggingStart ι) (thread : ι) (message : Bytes) : Outcome (LoggingStart ι) := do
  let log ← demand start.asyncLogging .dangling
  let next ← log.append message
  return { start with
    asyncLogging := some next
    callers := Function.update start.callers thread .outside }

/-- The message with which a thread is at `pthread_once`. -/
def pass : Caller → Caller
  | .atOnce message => .past message
  | .outside => .outside
  | .past message => .past message

def perform (start : LoggingStart ι) : Event ι → Outcome (LoggingStart ι)
  | .call thread message =>
      return { start with callers := Function.update start.callers thread (.atOnce message) }
  | .once thread =>
      if start.point = .untouched then return { start with point := .constructing }
      else return { start with callers := Function.update start.callers thread (pass (start.callers thread)) }
  | .initialise created => start.initialise created
  | .runThread tid => start.runThread tid
  | .spuriousWakeup => do
      let log ← demand start.asyncLogging .dangling
      let next ← log.perform .spuriousWakeup
      return { start with asyncLogging := some next }
  | .append thread message => start.append thread message

/-- A wait returns once its latch is open. -/
def canInitialise (start : LoggingStart ι) : Bool :=
  match start.point with
  | .untouched | .returned => false
  | .constructing | .storing | .creating => true
  | .awaitingTid => decide start.thread.latch.IsOpen
  | .awaitingLatch => decide start.latch.IsOpen

/-- The new thread is not there yet, or sleeps, or has ended. -/
def threadRests (start : LoggingStart ι) : Bool :=
  match start.thread.runner with
  | .absent => true
  | .created | .announced => false
  | .running => start.asyncLogging.all fun log => ¬ AsyncLogging.Event.backend.Enabled log

def Event.Enabled (start : LoggingStart ι) : Event ι → Prop
  | .call thread message => start.callers thread = .outside ∧ message.length < SmallBuffer
  | .once thread => (start.callers thread).isAtOnce = true ∧ (start.point = .untouched ∨ start.point = .returned)
  | .initialise _ => start.canInitialise = true
  | .runThread tid => 0 < tid ∧ start.threadRests = false
  | .spuriousWakeup => (start.asyncLogging.any fun log => log.backend = .waiting) = true
  | .append thread message => start.callers thread = .past message

instance decidableEnabled (start : LoggingStart ι) : ∀ event : Event ι, Decidable (event.Enabled start)
  | .call thread message => inferInstanceAs
      (Decidable (start.callers thread = .outside ∧ message.length < SmallBuffer))
  | .once thread => inferInstanceAs (Decidable
      ((start.callers thread).isAtOnce = true ∧ (start.point = .untouched ∨ start.point = .returned)))
  | .initialise _ => inferInstanceAs (Decidable (start.canInitialise = true))
  | .runThread tid => inferInstanceAs (Decidable (0 < tid ∧ start.threadRests = false))
  | .spuriousWakeup => inferInstanceAs
      (Decidable ((start.asyncLogging.any fun log => log.backend = .waiting) = true))
  | .append thread message => inferInstanceAs (Decidable (start.callers thread = .past message))

def step (start : LoggingStart ι) (event : Event ι) : Option (LoggingStart ι) :=
  if event.Enabled start then (start.perform event).toOption else none

def Event.message : Event ι → Bytes
  | .append _ message => message
  | .call _ _ | .once _ | .initialise _ | .runThread _ | .spuriousWakeup => []

def stream (start : LoggingStart ι) : Bytes := start.asyncLogging.elim [] AsyncLogging.stream

end LoggingStart

end NutServer.Base
