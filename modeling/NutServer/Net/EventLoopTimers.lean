import NutServer.Net.EventLoopWaiting
import NutServer.Net.TimerQueueArming

/-!
# The timers of a loop

`nut::EventLoop` with its `timerQueue_`. Any thread asks for timers; they enter
the set in the loop thread, through a functor unless they were asked for there.
-/

set_option autoImplicit false

namespace NutServer.Net

open Library Base

/-- The three calls that make a timer, with the reading of the clock in them. -/
inductive TimerRequest where
  | runOnTime (time : Timestamp)
  | runAfterTime (delay : Seconds) (now : Timestamp)
  | runEachInterval (interval : Seconds) (now : Timestamp)
  deriving DecidableEq, Repr

def TimerRequest.when : TimerRequest → Timestamp
  | .runOnTime time => time
  | .runAfterTime delay now => addTime now delay
  | .runEachInterval interval now => addTime now interval

def TimerRequest.interval : TimerRequest → Seconds
  | .runOnTime _ | .runAfterTime _ _ => .ofMicroseconds 0
  | .runEachInterval interval _ => interval

inductive Task (Function : Type) where
  | addTimerInLoop (address : Nat)
  | other (func : Function)
  deriving DecidableEq, Repr

def Task.timer? {Function : Type} : Task Function → Option Nat
  | .addTimerInLoop address => some address
  | .other _ => none

structure TimedLoop (Function : Type) where
  loop : EventLoop (Task Function)
  timerQueue : TimerQueue
  /-- Other threads between `new Timer` and their push, with the address of the timer. -/
  callers : List (Nat × Nat)

namespace TimedLoop

variable {Function : Type}

def new (runingPendingFunctors : Bool) : TimedLoop Function where
  loop := .new runingPendingFunctors
  timerQueue := .new
  callers := []

inductive Event (Function : Type) where
  /-- A request in another thread, up to `new Timer`. -/
  | addTimer (thread : Nat) (request : TimerRequest) (address : Nat)
  /-- Its `queueInLoop`, up to the end of the critical section. -/
  | pushTimer (thread : Nat) (address : Nat)
  /-- A request in the loop thread. -/
  | ownTimer (request : TimerRequest) (address : Nat) (clock : Timestamp)
  /-- A step of the loop that touches no timer. -/
  | loop (event : EventLoop.Event (Task Function))
  /-- The call of the next functor. -/
  | call (clock : Timestamp)
  | handler (now : Timestamp)
  | runCallback
  | handlerReturns (clock : Timestamp)
  deriving DecidableEq, Repr

/-- The steps of the loop that are left to it. -/
def isTimerless : EventLoop.Event (Task Function) → Bool
  | .push _ func | .ownPush func => func.timer?.isNone
  | .call => false
  | _ => true

/-- The steps that the loop thread cannot take inside a callback of a timer. -/
def endsHandler : EventLoop.Event (Task Function) → Bool
  | .handleRead | .handlersDone => true
  | _ => false

/-- The thread that pushes, when it is not the loop thread. -/
def pusher? : EventLoop.Event (Task Function) → Option Nat
  | .push thread _ => some thread
  | _ => none

/-- Whether the loop thread is in code of the application. -/
def inApplication (loop : EventLoop (Task Function)) : Bool :=
  !loop.ownWakeup && (loop.phase.queues || loop.phase = .outside)

def busy (system : TimedLoop Function) (thread : Nat) : Prop :=
  thread ∈ system.loop.wakers ∨ thread ∈ system.callers.map Prod.fst

instance (system : TimedLoop Function) (thread : Nat) : Decidable (system.busy thread) :=
  inferInstanceAs (Decidable (_ ∨ _))

/-- Whether the step is the next one of some thread. -/
def Event.Enabled (system : TimedLoop Function) : Event Function → Prop
  | .addTimer thread request address =>
      ¬ system.busy thread ∧
        (TimerQueue.Event.addTimer address request.when request.interval).Enabled system.timerQueue
  | .pushTimer thread address => (thread, address) ∈ system.callers ∧ thread ∉ system.loop.wakers
  | .ownTimer request address _ =>
      inApplication system.loop = true ∧
        (TimerQueue.Event.addTimer address request.when request.interval).Enabled system.timerQueue
  | .loop event =>
      event.Enabled system.loop ∧ isTimerless event = true ∧
        (endsHandler event = true → system.timerQueue.phase = .idle) ∧
        ∀ thread ∈ pusher? event, thread ∉ system.callers.map Prod.fst
  | .call _ => (EventLoop.Event.call : EventLoop.Event (Task Function)).Enabled system.loop
  | .handler now =>
      (system.loop.phase = .handlers ∧ system.loop.ownWakeup = false) ∧
        (TimerQueue.Event.handler now).Enabled system.timerQueue
  | .runCallback => system.loop.ownWakeup = false ∧ TimerQueue.Event.runCallback.Enabled system.timerQueue
  | .handlerReturns clock =>
      system.loop.ownWakeup = false ∧ (TimerQueue.Event.handlerReturns clock).Enabled system.timerQueue

instance decidableEnabled (system : TimedLoop Function) :
    ∀ event : Event Function, Decidable (event.Enabled system)
  | .addTimer _ _ _ => inferInstanceAs (Decidable (¬ _ ∧ _))
  | .pushTimer _ _ => inferInstanceAs (Decidable (_ ∧ _))
  | .ownTimer _ _ _ => inferInstanceAs (Decidable (_ = true ∧ _))
  | .loop event => inferInstanceAs (Decidable (event.Enabled system.loop ∧ isTimerless event = true ∧
      (endsHandler event = true → system.timerQueue.phase = .idle) ∧
      ∀ thread ∈ pusher? event, thread ∉ system.callers.map Prod.fst))
  | .call _ => inferInstanceAs (Decidable ((EventLoop.Event.call : EventLoop.Event (Task Function)).Enabled system.loop))
  | .handler _ => inferInstanceAs (Decidable ((_ ∧ _) ∧ _))
  | .runCallback => inferInstanceAs (Decidable (_ ∧ _))
  | .handlerReturns _ => inferInstanceAs (Decidable (_ ∧ _))

/-- What the loop's functor does to the queue of timers. -/
def runTask (timerQueue : TimerQueue) (clock : Timestamp) : Option (Task Function) → Outcome TimerQueue
  | some (.addTimerInLoop address) => timerQueue.addTimerInLoop address clock
  | _ => return timerQueue

def next? (loop : EventLoop (Task Function)) : Option (Task Function) :=
  match loop.phase with
  | .running index => loop.tempFunctors[index]?
  | _ => none

/-- `runInLoop` in the loop thread calls the functor at once. -/
def ownTimer (timerQueue : TimerQueue) (request : TimerRequest) (address : Nat) (clock : Timestamp) :
    Outcome TimerQueue :=
  (timerQueue.addTimer address request.when request.interval).addTimerInLoop address clock

def perform (system : TimedLoop Function) : Event Function → Outcome (TimedLoop Function)
  | .addTimer thread request address =>
      return { system with
        timerQueue := system.timerQueue.addTimer address request.when request.interval
        callers := (thread, address) :: system.callers }
  | .pushTimer thread address => do
      let loop ← system.loop.perform (.push thread (.addTimerInLoop address))
      return { system with loop, callers := system.callers.erase (thread, address) }
  | .ownTimer request address clock => do
      let timerQueue ← ownTimer system.timerQueue request address clock
      return { system with timerQueue }
  | .loop event => do
      let loop ← system.loop.perform event
      return { system with loop }
  | .call clock => do
      let timerQueue ← runTask system.timerQueue clock (next? system.loop)
      let loop ← system.loop.perform .call
      return { system with loop, timerQueue }
  | .handler now => do
      let timerQueue ← system.timerQueue.handler now
      return { system with timerQueue }
  | .runCallback => do
      let timerQueue ← system.timerQueue.runCallback
      return { system with timerQueue }
  | .handlerReturns clock => do
      let timerQueue ← system.timerQueue.handlerReturns clock
      return { system with timerQueue }

def step (system : TimedLoop Function) (event : Event Function) : Option (TimedLoop Function) :=
  if event.Enabled system then (system.perform event).toOption else none

end TimedLoop

end NutServer.Net
