import NutServer.Library.Monitor

/-!
# The latch

`nut::CountDownLatch`. Any number of threads wait until `count_` is no longer
positive; it goes on falling when there are more countdowns than it started with.
-/

set_option autoImplicit false

namespace NutServer.Base

open Library

structure CountDownLatch where
  count : Int
  deriving DecidableEq, Repr

namespace CountDownLatch

/-- The test of the loop in `wait()`. -/
def IsOpen (latch : CountDownLatch) : Prop := ¬ 0 < latch.count

instance : DecidablePred IsOpen := fun latch => inferInstanceAs (Decidable (¬ 0 < latch.count))

/-- `--count_`, and whether `notifyAll()` follows. Below `INT_MIN` the `int`
overflows, which has no meaning. -/
def countDown (latch : CountDownLatch) : Option (CountDownLatch × Bool) :=
  let count := latch.count - 1
  if -2 ^ 31 ≤ count then some ({ count }, count = 0) else none

def getCount (latch : CountDownLatch) : Int := latch.count

inductive Call where
  | countDown
  | getCount
  deriving DecidableEq, Repr

/-- The critical sections, apart from that of `wait()`. -/
def perform (latch : CountDownLatch) : Call → Option (CountDownLatch × Bool)
  | .countDown => latch.countDown
  | .getCount => some (latch, false)

variable {latch : CountDownLatch} {call : Call} {result : CountDownLatch × Bool}

theorem countDown_eq_some_iff :
    latch.countDown = some result ↔
      -2 ^ 31 ≤ latch.count - 1 ∧ result = (⟨latch.count - 1⟩, decide (latch.count - 1 = 0)) := by
  unfold countDown
  simp only [Option.ite_none_right_eq_some, Option.some.injEq, eq_comm (a := result)]

/-- The latch does not close again. -/
theorem isOpen_of_perform (performed : latch.perform call = some result) (isOpen : latch.IsOpen) :
    result.1.IsOpen := by
  unfold IsOpen at isOpen ⊢
  cases call with
  | countDown =>
      obtain ⟨-, same⟩ := countDown_eq_some_iff.mp performed
      rw [same]
      simp only
      omega
  | getCount =>
      cases performed
      exact isOpen

/-- Only the step to zero opens the latch. -/
theorem notified_of_perform (performed : latch.perform call = some result) (closed : ¬ latch.IsOpen)
    (isOpen : result.1.IsOpen) : result.2 = true := by
  unfold IsOpen at closed isOpen
  cases call with
  | countDown =>
      obtain ⟨-, same⟩ := countDown_eq_some_iff.mp performed
      rw [same] at isOpen ⊢
      simp only at isOpen
      exact decide_eq_true (by omega)
  | getCount =>
      cases performed
      exact absurd isOpen closed

private theorem count_run {calls : List Call} {final : CountDownLatch}
    (ran : run (fun latch call => (perform latch call).map Prod.fst) latch calls = some final) :
    final.count = latch.count - calls.count .countDown := by
  refine run_history (fun past final => final.count = latch.count - past.count .countDown) (by simp) ?_ ran
  intro past middle call next counted stepped
  obtain ⟨result, performed, same⟩ := Option.map_eq_some_iff.mp stepped
  subst same
  rw [List.count_append]
  cases call with
  | countDown =>
      obtain ⟨-, same⟩ := countDown_eq_some_iff.mp performed
      rw [same, List.count_singleton_self]
      simp only
      omega
  | getCount =>
      cases performed
      simpa using counted

section Threads

variable {ι : Type} [DecidableEq ι] {events : List (Monitor.Event ι Call)} {final : Monitor CountDownLatch ι}

/-- The threads that call `wait()`, and the calls of the others. -/
def step (threads : Monitor CountDownLatch ι) (event : Monitor.Event ι Call) : Option (Monitor CountDownLatch ι) :=
  Monitor.step IsOpen perform threads event

private theorem count_of_run (start : CountDownLatch) (ran : run step (.new start) events = some final) :
    final.shared.count = start.count - events.count (.act .countDown) := by
  rw [← Monitor.count_actions]
  exact count_run (Monitor.run_shared ran)

/-- With any threads waiting, woken for no reason and counting down, also more
often than `n` times: a wait returns behind `n` countdowns, and from then on
nobody is asleep. Countdowns are possible until `count_` has reached `INT_MIN`. -/
theorem opens_at_zero (n : Nat) (ran : run step (.new ⟨n⟩) events = some final) :
    (∀ thread, final.phase thread = .returned → n ≤ events.count (.act .countDown)) ∧
      (n ≤ events.count (.act .countDown) → ∀ thread, final.phase thread ≠ .blocked) ∧
      ((step final (.act .countDown)).isSome ↔ events.count (.act .countDown) < n + 2 ^ 31) := by
  have counted := count_of_run ⟨n⟩ ran
  simp only at counted
  refine ⟨?_, ?_, ?_⟩
  · intro thread returned
    have isOpen := Monitor.ready_of_returned (fun _ _ _ => isOpen_of_perform)
      (fun thread isReturned => by cases isReturned) ran returned
    unfold IsOpen at isOpen
    omega
  · intro enough thread blocked
    refine Monitor.not_ready_of_blocked (fun _ _ _ => notified_of_perform)
      (fun thread isBlocked => by cases isBlocked) ran blocked ?_
    unfold IsOpen
    omega
  · simp only [step, Monitor.step, perform, Option.isSome_map, countDown, Option.isSome_ite]
    omega

/-- Two waits, one of them woken for no reason, and a countdown too many. -/
theorem opens_at_zero_surplus :
    ∃ final, run step (.new ⟨2⟩) [.call 0, .act .countDown, .spurious 0, .resume 0, .call 1, .act .countDown,
        .resume 1, .act .countDown, .call (2 : Nat)] = some final ∧
      ∀ thread, final.phase thread ≠ .blocked := by
  have finished : (run step (.new ⟨2⟩) [.call 0, .act .countDown, .spurious 0, .resume 0, .call 1, .act .countDown,
      .resume 1, .act .countDown, .call (2 : Nat)]).isSome = true := by decide +kernel
  obtain ⟨final, ran⟩ := Option.isSome_iff_exists.mp finished
  exact ⟨final, ran, (opens_at_zero 2 ran).2.1 (by decide)⟩

end Threads

end CountDownLatch

end NutServer.Base
