import NutServer.Net.EventLoopProperties

/-!
# A loop in a thread of its own

`nut::EventLoopThread`: one thread calls `startLoop()`, waits until the new
thread has published its loop, and later calls `quit()` on it. The loop lives on
the stack of `threadFunc`.
-/

set_option autoImplicit false

namespace NutServer.Net

open Library

inductive LoopThread where
  | unstarted
  /-- `threadFunc` before its critical section. -/
  | constructing
  /-- Before `loop.loop()`, or in it. -/
  | looping
  | ended
  deriving DecidableEq, Repr

/-- The thread that calls `startLoop()` and `quit()`. -/
inductive Client where
  | uncalled
  /-- In `startLoop()`, before the test of `loop_` under the lock. -/
  | locking
  | waiting
  | started
  /-- In `quit()`, behind the store to `quit_`. -/
  | stored
  | returned
  deriving DecidableEq, Repr

structure EventLoopThread (Function : Type) where
  loop : EventLoop Function
  /-- `loop_` is not null. -/
  published : Bool
  thread : LoopThread
  client : Client
  deriving DecidableEq, Repr

namespace EventLoopThread

variable {Function : Type}

def new (runingPendingFunctors : Bool) : EventLoopThread Function where
  loop := .new runingPendingFunctors
  published := false
  thread := .unstarted
  client := .uncalled

inductive Event (Function : Type) where
  | startLoop
  /-- The critical section of `threadFunc`. -/
  | publish
  /-- The critical section of `startLoop()`, up to its wait or its end. -/
  | testLoop
  | spuriousWakeup
  /-- A step of `loop.loop()`. -/
  | iterate (event : EventLoop.Event Function)
  /-- A functor or a handler calls `quit()`. -/
  | ownQuit
  /-- A step of `queueInLoop` in some other thread. -/
  | queue (event : EventLoop.Event Function)
  | quitStore
  | quitWakeUp
  deriving DecidableEq, Repr

/-- The events of the loop that its own thread performs. -/
def isOwn : EventLoop.Event Function → Bool
  | .push _ _ | .wakeUp _ | .quit | .quitWakeUp => false
  | _ => true

def isQueueing : EventLoop.Event Function → Bool
  | .push _ _ | .wakeUp _ => true
  | _ => false

def Event.Enabled (host : EventLoopThread Function) : Event Function → Prop
  | .startLoop => host.client = .uncalled
  | .publish => host.thread = .constructing
  | .testLoop => host.client = .locking
  | .spuriousWakeup => host.client = .waiting
  | .iterate event => host.thread = .looping ∧ isOwn event = true ∧ event.Enabled host.loop
  | .ownQuit => host.thread = .looping ∧ host.loop.ownWakeup = false ∧ host.loop.phase.queues = true
  | .queue event => host.published = true ∧ isQueueing event = true ∧ event.Enabled host.loop
  | .quitStore => host.client = .started
  | .quitWakeUp => host.client = .stored

instance decidableEnabled (host : EventLoopThread Function) :
    ∀ event : Event Function, Decidable (event.Enabled host)
  | .startLoop => inferInstanceAs (Decidable (host.client = .uncalled))
  | .publish => inferInstanceAs (Decidable (host.thread = .constructing))
  | .testLoop => inferInstanceAs (Decidable (host.client = .locking))
  | .spuriousWakeup => inferInstanceAs (Decidable (host.client = .waiting))
  | .iterate event => inferInstanceAs
      (Decidable (host.thread = .looping ∧ isOwn event = true ∧ event.Enabled host.loop))
  | .ownQuit => inferInstanceAs (Decidable
      (host.thread = .looping ∧ host.loop.ownWakeup = false ∧ host.loop.phase.queues = true))
  | .queue event => inferInstanceAs
      (Decidable (host.published = true ∧ isQueueing event = true ∧ event.Enabled host.loop))
  | .quitStore => inferInstanceAs (Decidable (host.client = .started))
  | .quitWakeUp => inferInstanceAs (Decidable (host.client = .stored))

/-- A member function called through the loop pointer, which dangles once
`threadFunc` has returned. -/
def useLoop (host : EventLoopThread Function) (event : EventLoop.Event Function) :
    Outcome (EventLoopThread Function) := do
  if host.thread = .ended then throw .dangling
  let loop ← host.loop.perform event
  return { host with loop }

def startLoop (host : EventLoopThread Function) : Outcome (EventLoopThread Function) := do
  assert (host.thread = .unstarted)
  return { host with thread := .constructing, client := .locking }

/-- `cond_.notify()` wakes the one thread that can wait. -/
def publish (host : EventLoopThread Function) : EventLoopThread Function :=
  { host with
    published := true
    thread := .looping
    client := if host.client = .waiting then .locking else host.client }

/-- `loop()` returns at the end of its loop, and `threadFunc` with it. -/
def iterate (host : EventLoopThread Function) (event : EventLoop.Event Function) :
    Outcome (EventLoopThread Function) := do
  let loop ← host.loop.perform event
  return { host with loop, thread := if loop.phase = .outside then .ended else host.thread }

def perform (host : EventLoopThread Function) : Event Function → Outcome (EventLoopThread Function)
  | .startLoop => host.startLoop
  | .publish => return host.publish
  | .testLoop => return { host with client := if host.published then .started else .waiting }
  | .spuriousWakeup => return { host with client := .locking }
  | .iterate event => host.iterate event
  | .ownQuit => host.useLoop .quit
  | .queue event => host.useLoop event
  | .quitStore => return { ← host.useLoop .quit with client := .stored }
  | .quitWakeUp => return { ← host.useLoop .quitWakeUp with client := .returned }

def step (host : EventLoopThread Function) (event : Event Function) : Option (EventLoopThread Function) :=
  if event.Enabled host then (host.perform event).toOption else none

/-- The loop thread is about to evaluate `!quit_` and finds no request, although
`quit()` has returned. -/
def Missed (host : EventLoopThread Function) : Prop :=
  host.client = .returned ∧ host.thread = .looping ∧ host.loop.phase = .test ∧ host.loop.quit = false

/-- The loop is published, and `loop()` has yet to clear `quit_`. -/
def BeforeLoop (host : EventLoopThread Function) : Prop :=
  host.thread = .looping ∧ host.loop.phase = .outside

instance decidableMissed (host : EventLoopThread Function) : Decidable host.Missed :=
  inferInstanceAs (Decidable (host.client = .returned ∧ host.thread = .looping ∧
    host.loop.phase = .test ∧ host.loop.quit = false))

instance decidableBeforeLoop (host : EventLoopThread Function) : Decidable host.BeforeLoop :=
  inferInstanceAs (Decidable (host.thread = .looping ∧ host.loop.phase = .outside))

end EventLoopThread

end NutServer.Net
