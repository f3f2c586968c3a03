import NutServer.Base.Outcome
import NutServer.Library.Machine

/-!
# The event loop

The task queue of `nut::EventLoop` and the phases of `loop()`. Other threads
are numbered; a thread that has pushed a functor and not yet called `wakeUp()`
is in `wakers`.
-/

set_option autoImplicit false

namespace NutServer.Net

inductive Phase where
  | outside
  | test
  /-- About to enter `epoller_->poll`, or in it. -/
  | polling
  /-- Between two channel handlers or in one. -/
  | handlers
  /-- In `doPendingFunctors`, before the swap. -/
  | swapping
  /-- Before the call of `tempFunctors[index]`. -/
  | running (index : Nat)
  /-- In the call of the functor before `tempFunctors[index]`. -/
  | calling (index : Nat)
  deriving DecidableEq, Repr

def Phase.queues : Phase → Bool
  | .handlers | .calling _ => true
  | _ => false

def Phase.isRunning : Phase → Bool
  | .running _ => true
  | _ => false

def Phase.isCalling : Phase → Bool
  | .calling _ => true
  | _ => false

structure EventLoop (Function : Type) where
  looping : Bool
  quit : Bool
  runingPendingFunctors : Bool
  pendingFunctors : List Function
  phase : Phase
  tempFunctors : List Function
  /-- The counter behind `wakeupFd_`. -/
  wakeupCounter : Nat
  wakers : List Nat
  /-- The loop thread itself is between its push and its `wakeUp()`. -/
  ownWakeup : Bool
  executed : List Function
  deriving DecidableEq, Repr

namespace EventLoop

variable {Function : Type}

/-- The largest value of an eventfd counter. -/
def maxCounter : Nat := 2 ^ 64 - 2

/-- No constructor sets `runingPendingFunctors_`. -/
def new (runingPendingFunctors : Bool) : EventLoop Function where
  looping := false
  quit := false
  runingPendingFunctors := runingPendingFunctors
  pendingFunctors := []
  phase := .outside
  tempFunctors := []
  wakeupCounter := 0
  wakers := []
  ownWakeup := false
  executed := []

/-- Writing 1 to a nonblocking eventfd; at the largest value the write fails. -/
def wakeUp (loop : EventLoop Function) : EventLoop Function :=
  if loop.wakeupCounter < maxCounter then { loop with wakeupCounter := loop.wakeupCounter + 1 }
  else loop

def handleRead (loop : EventLoop Function) : EventLoop Function := { loop with wakeupCounter := 0 }

/-- The critical section of `queueInLoop`. -/
def push (loop : EventLoop Function) (func : Function) : EventLoop Function :=
  { loop with pendingFunctors := loop.pendingFunctors ++ [func] }

inductive Event (Function : Type) where
  /-- `queueInLoop` in another thread, up to the end of its critical section. -/
  | push (thread : Nat) (func : Function)
  /-- The `wakeUp()` that belongs to it. -/
  | wakeUp (thread : Nat)
  /-- `quit()` in any thread stores `quit_`. -/
  | quit
  /-- The `wakeUp()` of a `quit()` in another thread. -/
  | quitWakeUp
  | enterLoop
  | testQuit
  /-- `epoller_->poll` returns, woken or timed out. -/
  | pollReturns
  /-- The handler of the wakeup channel. -/
  | handleRead
  /-- `queueInLoop` in the loop thread, up to the end of its critical section. -/
  | ownPush (func : Function)
  | ownWakeUp
  /-- The last handler has returned, and `doPendingFunctors` sets its flag. -/
  | handlersDone
  | swap
  | call
  | callReturns
  deriving DecidableEq, Repr

/-- Whether the step is the next one of some thread. The loop thread queues
functors from channel handlers and from functors. -/
def Event.Enabled (loop : EventLoop Function) : Event Function → Prop
  | .push thread _ => thread ∉ loop.wakers
  | .wakeUp thread => thread ∈ loop.wakers
  | .quit | .quitWakeUp => True
  | .enterLoop => loop.phase = .outside
  | .testQuit => loop.phase = .test
  | .pollReturns => loop.phase = .polling
  | .handleRead => loop.phase = .handlers ∧ loop.ownWakeup = false
  | .ownPush _ => loop.ownWakeup = false ∧ loop.phase.queues = true
  | .ownWakeUp => loop.ownWakeup = true
  | .handlersDone => loop.phase = .handlers ∧ loop.ownWakeup = false
  | .swap => loop.phase = .swapping
  | .call => loop.phase.isRunning = true
  | .callReturns => loop.ownWakeup = false ∧ loop.phase.isCalling = true

instance decidableEnabled (loop : EventLoop Function) :
    ∀ event : Event Function, Decidable (event.Enabled loop)
  | .push thread _ => inferInstanceAs (Decidable (thread ∉ loop.wakers))
  | .wakeUp thread => inferInstanceAs (Decidable (thread ∈ loop.wakers))
  | .quit | .quitWakeUp => isTrue trivial
  | .enterLoop => inferInstanceAs (Decidable (loop.phase = .outside))
  | .testQuit => inferInstanceAs (Decidable (loop.phase = .test))
  | .pollReturns => inferInstanceAs (Decidable (loop.phase = .polling))
  | .handleRead => inferInstanceAs (Decidable (loop.phase = .handlers ∧ loop.ownWakeup = false))
  | .ownPush _ => inferInstanceAs (Decidable (loop.ownWakeup = false ∧ loop.phase.queues = true))
  | .ownWakeUp => inferInstanceAs (Decidable (loop.ownWakeup = true))
  | .handlersDone => inferInstanceAs (Decidable (loop.phase = .handlers ∧ loop.ownWakeup = false))
  | .swap => inferInstanceAs (Decidable (loop.phase = .swapping))
  | .call => inferInstanceAs (Decidable (loop.phase.isRunning = true))
  | .callReturns => inferInstanceAs
      (Decidable (loop.ownWakeup = false ∧ loop.phase.isCalling = true))

/-- `queueInLoop` in the loop thread wakes the loop while functors are running. -/
def queueInOwnLoop (loop : EventLoop Function) (func : Function) : EventLoop Function :=
  { loop.push func with ownWakeup := loop.runingPendingFunctors }

/-- `queueInLoop` in the loop thread as a whole. -/
def queueInLoop (loop : EventLoop Function) (func : Function) : EventLoop Function :=
  let queued := loop.queueInOwnLoop func
  if queued.ownWakeup then { queued.wakeUp with ownWakeup := false } else queued

/-- The call of the next functor, or the end of `doPendingFunctors`. -/
def callNext (loop : EventLoop Function) (index : Nat) : EventLoop Function :=
  match loop.tempFunctors[index]? with
  | some func => { loop with executed := loop.executed ++ [func], phase := .calling (index + 1) }
  | none => { loop with runingPendingFunctors := false, tempFunctors := [], phase := .test }

def enterLoop (loop : EventLoop Function) : Outcome (EventLoop Function) := do
  assert (loop.looping = false)
  return { loop with looping := true, quit := false, phase := .test }

def testQuit (loop : EventLoop Function) : EventLoop Function :=
  if loop.quit then { loop with looping := false, phase := .outside }
  else { loop with phase := .polling }

def perform (loop : EventLoop Function) : Event Function → Outcome (EventLoop Function)
  | .push thread func => return { loop.push func with wakers := thread :: loop.wakers }
  | .wakeUp thread => return { loop.wakeUp with wakers := loop.wakers.erase thread }
  | .quit => return { loop with quit := true }
  | .quitWakeUp => return loop.wakeUp
  | .enterLoop => loop.enterLoop
  | .testQuit => return loop.testQuit
  | .pollReturns => return { loop with phase := .handlers }
  | .handleRead => return loop.handleRead
  | .ownPush func => return loop.queueInOwnLoop func
  | .ownWakeUp => return { loop.wakeUp with ownWakeup := false }
  | .handlersDone => return { loop with runingPendingFunctors := true, phase := .swapping }
  | .swap => return { loop with
      tempFunctors := loop.pendingFunctors
      pendingFunctors := []
      phase := .running 0 }
  | .call =>
      match loop.phase with
      | .running index => return loop.callNext index
      | _ => return loop
  | .callReturns =>
      match loop.phase with
      | .calling index => return { loop with phase := .running index }
      | _ => return loop

def step (loop : EventLoop Function) (event : Event Function) : Option (EventLoop Function) :=
  if event.Enabled loop then (loop.perform event).toOption else none

def remaining (loop : EventLoop Function) : List Function :=
  match loop.phase with
  | .running index | .calling index => loop.tempFunctors.drop index
  | _ => []

/-- The functors that are still to be called. -/
def waiting (loop : EventLoop Function) : List Function := loop.remaining ++ loop.pendingFunctors

/-- The steps that are the same in every use of the loop. -/
def Event.isPlain : Event Function → Bool
  | .wakeUp _ | .quit | .quitWakeUp | .enterLoop | .testQuit | .handlersDone | .swap | .callReturns => true
  | .push _ _ | .pollReturns | .handleRead | .ownPush _ | .ownWakeUp | .call => false

end EventLoop

end NutServer.Net
