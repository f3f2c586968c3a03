import NutServer.Base.CountDownLatch
import NutServer.Base.Outcome

/-! `nut::Thread` up to the end of `start()`, which waits until the new thread
has stored its id. -/

set_option autoImplicit false

namespace NutServer.Base

open Library

/-- How far `runInThread` is. -/
inductive Runner where
  | absent
  | created
  /-- Behind the store to `*tid_`. -/
  | announced
  /-- Behind `latch_->countDown()`. -/
  | running
  deriving DecidableEq, Repr

structure Thread where
  started : Bool
  tid : Int
  latch : CountDownLatch
  runner : Runner
  deriving DecidableEq, Repr

namespace Thread

def new : Thread where
  started := false
  tid := 0
  latch := ⟨1⟩
  runner := .absent

/-- The steps of the new thread, and those of `start()` in front of the wait. -/
inductive Step where
  | create
  | createFails
  | setTid (tid : Int)
  | countDown
  deriving DecidableEq, Repr

/-- `currentThread::tid()` is positive. -/
def perform (thread : Thread) : Step → Option (Thread × Bool)
  | .create =>
      if thread.started = false then some ({ thread with started := true, runner := .created }, false) else none
  | .createFails => if thread.started = false then some (thread, false) else none
  | .setTid tid =>
      if thread.runner = .created ∧ 0 < tid then some ({ thread with tid, runner := .announced }, false) else none
  | .countDown =>
      if thread.runner = .announced then
        thread.latch.countDown.map fun result => ({ thread with latch := result.1, runner := .running }, result.2)
      else none

/-- The end of `start()`, behind the wait. -/
def checkTid (thread : Thread) : Outcome Unit := assert (0 < thread.tid)

def LatchIsOpen (thread : Thread) : Prop := thread.latch.IsOpen

instance : DecidablePred LatchIsOpen := fun thread => inferInstanceAs (Decidable thread.latch.IsOpen)

/-- The latch is opened by the new thread alone. -/
inductive Sound : Thread → Prop where
  | absent {tid} : Sound ⟨false, tid, ⟨1⟩, .absent⟩
  | created {tid} : Sound ⟨true, tid, ⟨1⟩, .created⟩
  | announced {tid} (positive : 0 < tid) : Sound ⟨true, tid, ⟨1⟩, .announced⟩
  | running {tid} (positive : 0 < tid) : Sound ⟨true, tid, ⟨0⟩, .running⟩

variable {thread : Thread} {action : Step} {result : Thread × Bool}

private theorem latch_of_perform (performed : thread.perform action = some result) :
    result.1.latch = thread.latch ∨ thread.latch.perform .countDown = some (result.1.latch, result.2) := by
  cases action with
  | create | createFails | setTid tid =>
      simp only [perform, Option.ite_none_right_eq_some, Option.some.injEq] at performed
      obtain ⟨-, same⟩ := performed
      subst same
      exact .inl rfl
  | countDown =>
      simp only [perform, Option.ite_none_right_eq_some, Option.map_eq_some_iff] at performed
      obtain ⟨-, counted, countedDown, same⟩ := performed
      subst same
      exact .inr countedDown

private theorem latchIsOpen_of_perform (performed : thread.perform action = some result) (isOpen : thread.LatchIsOpen) :
    result.1.LatchIsOpen := by
  unfold LatchIsOpen at isOpen ⊢
  cases latch_of_perform performed with
  | inl same => rwa [same]
  | inr counted => exact CountDownLatch.isOpen_of_perform counted isOpen

theorem notified_of_perform (performed : thread.perform action = some result) (closed : ¬ thread.LatchIsOpen)
    (isOpen : result.1.LatchIsOpen) : result.2 = true := by
  unfold LatchIsOpen at closed isOpen
  cases latch_of_perform performed with
  | inl same =>
      rw [same] at isOpen
      exact absurd isOpen closed
  | inr counted => exact CountDownLatch.notified_of_perform counted closed isOpen

theorem Sound.perform (sound : thread.Sound) (performed : thread.perform action = some result) :
    result.1.Sound := by
  cases action with
  | create =>
      simp only [Thread.perform, Option.ite_none_right_eq_some, Option.some.injEq] at performed
      obtain ⟨idle, same⟩ := performed
      subst same
      cases sound with
      | absent => exact .created
      | created | announced | running => cases idle
  | createFails =>
      simp only [Thread.perform, Option.ite_none_right_eq_some, Option.some.injEq] at performed
      obtain ⟨-, same⟩ := performed
      subst same
      exact sound
  | setTid tid =>
      simp only [Thread.perform, Option.ite_none_right_eq_some, Option.some.injEq] at performed
      obtain ⟨allowed, same⟩ := performed
      obtain ⟨isCreated, positive⟩ := allowed
      subst same
      cases sound with
      | created => exact .announced positive
      | absent | announced | running => cases isCreated
  | countDown =>
      simp only [Thread.perform, Option.ite_none_right_eq_some, Option.map_eq_some_iff] at performed
      obtain ⟨isAnnounced, counted, countedDown, same⟩ := performed
      subst same
      cases sound with
      | announced positive =>
          obtain ⟨-, isZero⟩ := CountDownLatch.countDown_eq_some_iff.mp countedDown
          subst isZero
          exact .running positive
      | absent | created | running => cases isAnnounced

section Starter

variable {ι : Type} [DecidableEq ι] {events : List (Monitor.Event ι Step)} {final : Monitor Thread ι} {starter : ι}

theorem sound_of_run (ran : run (Monitor.step LatchIsOpen perform) (.new new) events = some final) :
    final.shared.Sound := by
  refine run_preserves Sound .absent ?_ (Monitor.run_shared ran)
  intro thread action next sound stepped
  obtain ⟨result, performed, same⟩ := Option.map_eq_some_iff.mp stepped
  subst same
  exact sound.perform performed

/-- Whenever the wait in `start()` returns, the new thread has stored its id,
and the assertion behind it holds. -/
theorem checkTid_of_returned (ran : run (Monitor.step LatchIsOpen perform) (.new new) events = some final)
    (returned : final.phase starter = .returned) :
    final.shared.runner = .running ∧ final.shared.checkTid = .ok () := by
  have isOpen := Monitor.ready_of_returned (fun _ _ _ => latchIsOpen_of_perform)
    (fun thread isReturned => by cases isReturned) ran returned
  have sound := sound_of_run ran
  unfold LatchIsOpen CountDownLatch.IsOpen at isOpen
  cases thread : final.shared with
  | mk started tid latch runner =>
      rw [thread] at sound isOpen
      cases sound with
      | absent | created | announced positive => exact absurd one_pos isOpen
      | running positive => exact ⟨rfl, assert_of positive⟩

/-- Once the new thread has counted down, `start()` is not asleep. -/
theorem awake_of_running (ran : run (Monitor.step LatchIsOpen perform) (.new new) events = some final)
    (running : final.shared.runner = .running) : final.phase starter ≠ .blocked := by
  intro blocked
  refine Monitor.not_ready_of_blocked (fun _ _ _ => notified_of_perform)
    (fun thread isBlocked => by cases isBlocked) ran blocked ?_
  have sound := sound_of_run ran
  unfold LatchIsOpen CountDownLatch.IsOpen
  cases thread : final.shared with
  | mk started tid latch runner =>
      rw [thread] at sound running
      cases sound with
      | absent | created | announced positive => cases running
      | running positive => exact lt_irrefl 0

end Starter

end Thread

end NutServer.Base
