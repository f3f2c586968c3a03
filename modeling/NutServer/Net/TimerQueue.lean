import NutServer.Base.Outcome
import NutServer.Base.Timestamp
import NutServer.Library.Machine
import NutServer.Library.SortedSet

/-!
# The timer queue

`nut::TimerQueue` with the timers it points to. A call of `handler` is cut into
steps at its callbacks, so that a callback, or another functor of the loop, may
add timers between them.
-/

set_option autoImplicit false

namespace NutServer.Net

open Library Base

structure Timer where
  expirationDate : Timestamp
  interval : Seconds
  /-- Timers are numbered in the order of their construction; the number stands
  for the callback. -/
  serial : Nat
  deriving DecidableEq, Repr

namespace Timer

/-- `repeat_`, which the constructor sets to `interval_ > 0.0`. -/
def isRepeat (timer : Timer) : Bool := timer.interval.positive

def restart (timer : Timer) (now : Timestamp) : Timer :=
  if timer.isRepeat then { timer with expirationDate := addTime now timer.interval }
  else { timer with expirationDate := .invalid }

@[simp] theorem restart_serial {timer : Timer} {now : Timestamp} :
    (timer.restart now).serial = timer.serial := by
  unfold restart
  split_ifs <;> rfl

@[simp] theorem restart_interval {timer : Timer} {now : Timestamp} :
    (timer.restart now).interval = timer.interval := by
  unfold restart
  split_ifs <;> rfl

theorem restart_expirationDate {timer : Timer} {now : Timestamp} (repeats : timer.isRepeat = true) :
    (timer.restart now).expirationDate = addTime now timer.interval := by
  rw [restart, if_pos repeats]

end Timer

structure TimerIndex where
  expiration : Timestamp
  timer : Nat
  deriving DecidableEq, Repr

namespace TimerIndex

/-- The order of `std::pair`. -/
instance : LinearOrder TimerIndex :=
  LinearOrder.lift' (fun entry => toLex (entry.expiration, entry.timer)) fun left right same => by
    obtain ⟨expiration, timer⟩ := left
    cases same
    rfl

theorem lt_iff {left right : TimerIndex} :
    left < right ↔
      left.expiration < right.expiration ∨
        left.expiration = right.expiration ∧ left.timer < right.timer :=
  Prod.Lex.lt_iff

theorem expiration_le_of_le {left right : TimerIndex} (ordered : left ≤ right) :
    left.expiration ≤ right.expiration := by
  rcases lt_or_eq_of_le ordered with before | rfl
  · rcases lt_iff.mp before with earlier | same
    · exact earlier.le
    · exact same.1.le
  · exact le_rfl

end TimerIndex

structure Timespec where
  tv_sec : Int
  tv_nsec : Int
  deriving DecidableEq, Repr

structure Itimerspec where
  it_interval : Timespec
  it_value : Timespec
  deriving DecidableEq, Repr

/-- A call of `timerfd_settime`, the expiration it is made for and the reading of
the clock in it. -/
structure Setting where
  expiration : Timestamp
  clock : Timestamp
  newValue : Itimerspec
  deriving DecidableEq, Repr

/-- `clock` is what `Timestamp::now()` returns. -/
def howMuchTimeFromNow (when clock : Timestamp) : Timespec :=
  let microseconds := if when - clock < 100 then 100 else when - clock
  { tv_sec := microseconds.tdiv Timestamp.kMicroSecondsPerSeconds
    tv_nsec := microseconds.tmod Timestamp.kMicroSecondsPerSeconds * 1000 }

def resetTimerfd (expiration clock : Timestamp) : Setting where
  expiration := expiration
  clock := clock
  newValue := { it_interval := ⟨0, 0⟩, it_value := howMuchTimeFromNow expiration clock }

/-- A call of `handler` up to the callback that runs. -/
structure HandlerCall where
  now : Timestamp
  /-- The expirations and timers in the set on entry. -/
  entry : List (Timestamp × Nat)
  ran : List Nat
  deriving DecidableEq, Repr

structure HandlerReturn where
  call : HandlerCall
  /-- The expirations and timers in the set on return. -/
  left : List (Timestamp × Nat)
  deriving DecidableEq, Repr

inductive TimerQueue.Phase where
  | idle
  /-- In `handler`, before the callback of `expired[index]`. -/
  | running (call : HandlerCall) (expired : List TimerIndex) (index : Nat)
  deriving DecidableEq, Repr

structure TimerQueue where
  timerLists : SortedSet TimerIndex
  /-- The timers that have not been deleted, by address. -/
  timers : Nat → Option Timer
  /-- The timers whose `addTimerInLoop` is still to be called. -/
  pending : List Nat
  phase : TimerQueue.Phase
  settings : List Setting
  constructed : List Timer
  deleted : List Nat
  returned : List HandlerReturn

namespace TimerQueue

def UINTPTR_MAX : Nat := 2 ^ 64 - 1

def new : TimerQueue where
  timerLists := .empty
  timers := fun _ => none
  pending := []
  phase := .idle
  settings := []
  constructed := []
  deleted := []
  returned := []

def deref (queue : TimerQueue) (address : Nat) : Outcome Timer :=
  match queue.timers address with
  | some timer => return timer
  | none => throw .dangling

/-- Expirations and numbers of the timers that entries point to. -/
def contents (timers : Nat → Option Timer) (entries : List TimerIndex) : List (Timestamp × Nat) :=
  entries.filterMap fun entry => (timers entry.timer).map fun timer => (entry.expiration, timer.serial)

/-- `addTimer` up to the call of `runInLoop`. -/
def addTimer (queue : TimerQueue) (address : Nat) (when : Timestamp) (interval : Seconds) :
    TimerQueue :=
  let timer := { expirationDate := when, interval, serial := queue.constructed.length }
  { queue with
    timers := Function.update queue.timers address (some timer)
    pending := queue.pending ++ [address]
    constructed := queue.constructed ++ [timer] }

def isEarliest (timerLists : SortedSet TimerIndex) (when : Timestamp) : Bool :=
  match timerLists.first? with
  | none => true
  | some first => decide (when < first.expiration)

def insert (queue : TimerQueue) (address : Nat) : Outcome (TimerQueue × Bool) := do
  let timer ← queue.deref address
  let result := queue.timerLists.insert ⟨timer.expirationDate, address⟩
  assert (result.2 = true)
  return ({ queue with timerLists := result.1 }, isEarliest queue.timerLists timer.expirationDate)

def settime (queue : TimerQueue) (expiration clock : Timestamp) : TimerQueue :=
  { queue with settings := queue.settings ++ [resetTimerfd expiration clock] }

def addTimerInLoop (queue : TimerQueue) (address : Nat) (clock : Timestamp) : Outcome TimerQueue := do
  let (inserted, isEarliestTimer) ← { queue with pending := queue.pending.erase address }.insert address
  if isEarliestTimer then
    let timer ← inserted.deref address
    return inserted.settime timer.expirationDate clock
  else
    return inserted

/-- The assertion of `getExpired`, for the iterator to the rest of the set. -/
def isAfter (now : Timestamp) (rest : SortedSet TimerIndex) : Bool :=
  match rest.first? with
  | none => true
  | some first => decide (now < first.expiration)

def getExpired (timerLists : SortedSet TimerIndex) (now : Timestamp) :
    Outcome (List TimerIndex × SortedSet TimerIndex) := do
  let sentry : TimerIndex := ⟨now, UINTPTR_MAX⟩
  let rest := timerLists.lowerBound sentry
  assert (isAfter now rest = true)
  return (timerLists.below sentry, rest)

/-- `handler` up to its first callback. -/
def handler (queue : TimerQueue) (now : Timestamp) : Outcome TimerQueue := do
  let (expired, rest) ← getExpired queue.timerLists now
  let call := { now, entry := contents queue.timers queue.timerLists.toList, ran := [] }
  return { queue with timerLists := rest, phase := .running call expired 0 }

def runCallback (queue : TimerQueue) : Outcome TimerQueue :=
  match queue.phase with
  | .idle => return queue
  | .running call expired index =>
      match expired[index]? with
      | none => return queue
      | some entry => do
          let timer ← queue.deref entry.timer
          let ran := call.ran ++ [timer.serial]
          return { queue with phase := .running { call with ran } expired (index + 1) }

/-- The body of the loop in `reset`. -/
def resetOne (now : Timestamp) (queue : TimerQueue) (entry : TimerIndex) : Outcome TimerQueue := do
  let timer ← queue.deref entry.timer
  if timer.isRepeat then
    let restarted := Function.update queue.timers entry.timer (some (timer.restart now))
    let (inserted, _) ← { queue with timers := restarted }.insert entry.timer
    return inserted
  else
    return { queue with
      timers := Function.update queue.timers entry.timer none
      deleted := queue.deleted ++ [timer.serial] }

def nextExpire (queue : TimerQueue) : Outcome Timestamp :=
  match queue.timerLists.first? with
  | none => return .invalid
  | some first => do
      let timer ← queue.deref first.timer
      return timer.expirationDate

def reset (queue : TimerQueue) (expired : List TimerIndex) (now clock : Timestamp) :
    Outcome TimerQueue := do
  let queue ← expired.foldlM (resetOne now) queue
  let next ← queue.nextExpire
  return if next.valid then queue.settime next clock else queue

/-- `handler` behind its last callback. -/
def handlerReturns (queue : TimerQueue) (clock : Timestamp) : Outcome TimerQueue :=
  match queue.phase with
  | .idle => return queue
  | .running call expired _ => do
      let queue ← queue.reset expired call.now clock
      let left := contents queue.timers queue.timerLists.toList
      return { queue with phase := .idle, returned := queue.returned ++ [⟨call, left⟩] }

inductive Event where
  | addTimer (address : Nat) (when : Timestamp) (interval : Seconds)
  | addTimerInLoop (address : Nat) (clock : Timestamp)
  | handler (now : Timestamp)
  | runCallback
  | handlerReturns (clock : Timestamp)
  deriving DecidableEq, Repr

def Phase.callbacks : Phase → Nat
  | .idle => 0
  | .running _ expired index => expired.length - index

/-- Whether the step is the next one of some thread. `operator new` returns the
address of no live object, and the clock has passed the Epoch. -/
def Event.Enabled (queue : TimerQueue) : Event → Prop
  | .addTimer address _ _ => queue.timers address = none ∧ address < UINTPTR_MAX
  | .addTimerInLoop address _ => address ∈ queue.pending
  | .handler now => queue.phase = .idle ∧ 0 < now
  | .runCallback => 0 < queue.phase.callbacks
  | .handlerReturns _ => queue.phase ≠ .idle ∧ queue.phase.callbacks = 0

instance decidableEnabled (queue : TimerQueue) : ∀ event : Event, Decidable (event.Enabled queue)
  | .addTimer address _ _ => inferInstanceAs (Decidable (queue.timers address = none ∧ address < UINTPTR_MAX))
  | .addTimerInLoop address _ => inferInstanceAs (Decidable (address ∈ queue.pending))
  | .handler now => inferInstanceAs (Decidable (queue.phase = .idle ∧ 0 < now))
  | .runCallback => inferInstanceAs (Decidable (0 < queue.phase.callbacks))
  | .handlerReturns _ => inferInstanceAs (Decidable (queue.phase ≠ .idle ∧ queue.phase.callbacks = 0))

def perform (queue : TimerQueue) : Event → Outcome TimerQueue
  | .addTimer address when interval => return queue.addTimer address when interval
  | .addTimerInLoop address clock => queue.addTimerInLoop address clock
  | .handler now => queue.handler now
  | .runCallback => queue.runCallback
  | .handlerReturns clock => queue.handlerReturns clock

def step (queue : TimerQueue) (event : Event) : Option TimerQueue :=
  if event.Enabled queue then (queue.perform event).toOption else none

end TimerQueue

end NutServer.Net
