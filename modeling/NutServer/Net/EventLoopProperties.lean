import NutServer.Net.EventLoop

/-! Queued functors run once, in the order of their pushes, and the loop never
enters `poll` over a functor that nobody is about to wake it for. -/

set_option autoImplicit false

namespace NutServer.Net

open Library

namespace EventLoop

variable {Function : Type} {loop next : EventLoop Function} {event : Event Function}

/-- All functors from the first executed one to the last one pushed. -/
def queued (loop : EventLoop Function) : List Function :=
  loop.executed ++ loop.remaining ++ loop.pendingFunctors

def Event.pushed : Event Function → List Function
  | .push _ func | .ownPush func => [func]
  | _ => []

def Noticed (loop : EventLoop Function) : Prop :=
  loop.pendingFunctors ≠ [] →
    0 < loop.wakeupCounter ∨ loop.wakers ≠ [] ∨ loop.ownWakeup = true

/-- What each phase promises. Before the swap nothing needs to be noticed: the
swap takes every functor that waits. -/
def Promise (loop : EventLoop Function) : Prop :=
  match loop.phase with
  | .outside => loop.looping = false ∧ loop.ownWakeup = false ∧ loop.Noticed
  | .test | .polling => loop.ownWakeup = false ∧ loop.Noticed
  | .handlers => True
  | .swapping => loop.runingPendingFunctors = true ∧ loop.ownWakeup = false
  | .running _ => loop.runingPendingFunctors = true ∧ loop.ownWakeup = false ∧ loop.Noticed
  | .calling _ => loop.runingPendingFunctors = true ∧ loop.Noticed

theorem new_promise (runing : Bool) : (new runing : EventLoop Function).Promise :=
  ⟨rfl, rfl, fun pending => absurd rfl pending⟩

private theorem wakeUp_positive (loop : EventLoop Function) : 0 < loop.wakeUp.wakeupCounter := by
  unfold wakeUp
  split_ifs with room
  · exact Nat.succ_pos _
  · exact Nat.lt_of_lt_of_le (by decide) (Nat.le_of_not_lt room)

theorem wakeUp_frame (loop : EventLoop Function) : loop.wakeUp = { loop with wakeupCounter := loop.wakeUp.wakeupCounter } := by
  unfold wakeUp
  split_ifs <;> rfl

/-- Another thread's part in a step: the loop thread stays where it is. -/
theorem Promise.elsewhere (promise : loop.Promise) (phase : next.phase = loop.phase)
    (looping : next.looping = loop.looping)
    (running : next.runingPendingFunctors = loop.runingPendingFunctors)
    (own : next.ownWakeup = loop.ownWakeup) (noticed : loop.Noticed → next.Noticed) : next.Promise := by
  unfold Promise at promise ⊢
  rw [phase]
  split at promise
  · exact ⟨looping.trans promise.1, own.trans promise.2.1, noticed promise.2.2⟩
  · exact ⟨own.trans promise.1, noticed promise.2⟩
  · exact ⟨own.trans promise.1, noticed promise.2⟩
  · trivial
  · exact ⟨running.trans promise.1, own.trans promise.2⟩
  · exact ⟨running.trans promise.1, own.trans promise.2.1, noticed promise.2.2⟩
  · exact ⟨running.trans promise.1, noticed promise.2⟩

private theorem noticed_of_wakers (some : loop.wakers ≠ []) : loop.Noticed := fun _ => .inr (.inl some)

private theorem noticed_of_counter (positive : 0 < loop.wakeupCounter) : loop.Noticed := fun _ => .inl positive

/-- A functor queued by the loop thread is either taken by the coming swap or
followed by a `wakeUp`. -/
theorem Promise.queueInOwnLoop (promise : loop.Promise) (func : Function)
    (queues : loop.phase.queues = true) : (loop.queueInOwnLoop func).Promise := by
  have same : (loop.queueInOwnLoop func).phase = loop.phase := rfl
  cases phase : loop.phase with
  | handlers =>
      rw [Promise, same, phase]
      trivial
  | calling index =>
      simp only [Promise, phase] at promise
      rw [Promise, same, phase]
      exact ⟨promise.1, fun _ => .inr (.inr promise.1)⟩
  | outside | test | polling | swapping | running index =>
      rw [phase] at queues
      cases queues

theorem Promise.callNext (promise : loop.Promise) {index : Nat} (phase : loop.phase = .running index) :
    (loop.callNext index).Promise := by
  simp only [Promise, phase] at promise
  unfold EventLoop.callNext
  split
  · exact ⟨promise.1, promise.2.2⟩
  · exact promise.2

theorem exists_of_isRunning (running : loop.phase.isRunning = true) :
    ∃ index, loop.phase = .running index := by
  cases phase : loop.phase <;> simp [phase, Phase.isRunning] at running ⊢

theorem exists_of_isCalling (calling : loop.phase.isCalling = true) :
    ∃ index, loop.phase = .calling index := by
  cases phase : loop.phase <;> simp [phase, Phase.isCalling] at calling ⊢

theorem perform_promise (promise : loop.Promise) (enabled : event.Enabled loop) :
    ∃ next, loop.perform event = .ok next ∧ next.Promise := by
  cases event with
  | push thread func =>
      exact ⟨_, rfl, promise.elsewhere rfl rfl rfl rfl fun _ => noticed_of_wakers (by simp)⟩
  | wakeUp thread =>
      have frame := wakeUp_frame loop
      exact ⟨_, rfl, promise.elsewhere (by rw [frame]) (by rw [frame]) (by rw [frame]) (by rw [frame])
        fun _ => noticed_of_counter (wakeUp_positive loop)⟩
  | quit => exact ⟨_, rfl, promise.elsewhere rfl rfl rfl rfl id⟩
  | quitWakeUp =>
      have frame := wakeUp_frame loop
      exact ⟨_, rfl, promise.elsewhere (by rw [frame]) (by rw [frame]) (by rw [frame]) (by rw [frame])
        fun _ => noticed_of_counter (wakeUp_positive loop)⟩
  | enterLoop =>
      have outside : loop.phase = .outside := enabled
      simp only [Promise, outside] at promise
      refine ⟨{ loop with looping := true, quit := false, phase := .test }, ?_, promise.2⟩
      simp only [perform, enterLoop, assert_of promise.1]
      rfl
  | testQuit =>
      have test : loop.phase = .test := enabled
      simp only [Promise, test] at promise
      refine ⟨loop.testQuit, rfl, ?_⟩
      unfold testQuit
      split_ifs
      · exact ⟨rfl, promise⟩
      · exact promise
  | pollReturns => exact ⟨{ loop with phase := .handlers }, rfl, trivial⟩
  | handleRead =>
      refine ⟨loop.handleRead, rfl, ?_⟩
      have handlers : loop.handleRead.phase = .handlers := enabled.1
      simp only [Promise, handlers]
  | ownPush func => exact ⟨_, rfl, promise.queueInOwnLoop func enabled.2⟩
  | ownWakeUp =>
      refine ⟨_, rfl, ?_⟩
      have pending : loop.ownWakeup = true := enabled
      have positive := wakeUp_positive loop
      have frame := wakeUp_frame loop
      cases phase : loop.phase with
      | handlers =>
          unfold Promise
          rw [frame]
          simp [phase]
      | calling index =>
          simp only [Promise, phase] at promise
          unfold Promise
          rw [frame]
          simp only [phase]
          exact ⟨promise.1, noticed_of_counter positive⟩
      | outside | test | polling | swapping | running index => simp [Promise, phase, pending] at promise
  | handlersDone =>
      exact ⟨{ loop with runingPendingFunctors := true, phase := .swapping }, rfl, rfl, enabled.2⟩
  | swap =>
      have swapping : loop.phase = .swapping := enabled
      simp only [Promise, swapping] at promise
      exact ⟨{ loop with
        tempFunctors := loop.pendingFunctors
        pendingFunctors := []
        phase := .running 0 }, rfl, promise.1, promise.2, fun pending => absurd rfl pending⟩
  | call =>
      obtain ⟨index, phase⟩ := exists_of_isRunning enabled
      exact ⟨loop.callNext index, by simp [perform, phase, pure, Except.pure], promise.callNext phase⟩
  | callReturns =>
      obtain ⟨index, phase⟩ := exists_of_isCalling enabled.2
      simp only [Promise, phase] at promise
      exact ⟨{ loop with phase := .running index }, by simp [perform, phase, pure, Except.pure],
        promise.1, enabled.1, promise.2⟩

private theorem queued_frame (executed : next.executed = loop.executed) (remaining : next.remaining = loop.remaining)
    (pending : next.pendingFunctors = loop.pendingFunctors) : next.queued = loop.queued ++ [] := by
  rw [List.append_nil, queued, executed, remaining, pending, queued]

private theorem queued_callNext {index : Nat} (phase : loop.phase = .running index) :
    (loop.callNext index).queued = loop.queued := by
  unfold callNext
  cases selected : loop.tempFunctors[index]? with
  | none =>
      have done := List.drop_eq_nil_of_le (List.getElem?_eq_none_iff.mp selected)
      simp [queued, remaining, phase, done]
  | some func =>
      obtain ⟨inside, isFunc⟩ := List.getElem?_eq_some_iff.mp selected
      have rest := List.drop_eq_getElem_cons inside
      rw [isFunc] at rest
      simp [queued, remaining, phase, rest]

theorem perform_queued (enabled : event.Enabled loop) (performed : loop.perform event = .ok next) :
    next.queued = loop.queued ++ event.pushed := by
  cases event with
  | push thread func | ownPush func =>
      cases performed
      simp [queued, remaining, push, queueInOwnLoop, Event.pushed]
  | wakeUp thread | quitWakeUp | ownWakeUp =>
      cases performed
      rw [wakeUp_frame]
      exact queued_frame rfl rfl rfl
  | quit | handleRead =>
      cases performed
      exact queued_frame rfl rfl rfl
  | enterLoop =>
      have outside : loop.phase = .outside := enabled
      obtain ⟨_, _, performed⟩ := Outcome.bind_eq_ok_iff.mp performed
      cases performed
      exact queued_frame rfl (by simp [remaining, outside]) rfl
  | testQuit =>
      have test : loop.phase = .test := enabled
      cases performed
      unfold testQuit
      split_ifs <;> exact queued_frame rfl (by simp [remaining, test]) rfl
  | pollReturns =>
      have polling : loop.phase = .polling := enabled
      cases performed
      exact queued_frame rfl (by simp [remaining, polling]) rfl
  | handlersDone =>
      cases performed
      exact queued_frame rfl (by simp [remaining, enabled.1]) rfl
  | swap =>
      have swapping : loop.phase = .swapping := enabled
      cases performed
      simp [queued, remaining, swapping, Event.pushed]
  | call =>
      obtain ⟨index, phase⟩ := exists_of_isRunning enabled
      simp only [perform, phase] at performed
      cases performed
      exact (queued_callNext phase).trans (List.append_nil _).symm
  | callReturns =>
      obtain ⟨index, phase⟩ := exists_of_isCalling enabled.2
      simp only [perform, phase] at performed
      cases performed
      exact queued_frame rfl (by simp [remaining, phase]) rfl

/-- However pushes, wake-ups and the phases of the loop interleave, the functors
executed, those still to be called and those that wait are the functors pushed,
in order; and the loop is never about to poll over a waiting functor unless the
eventfd is readable or another thread has its `wakeUp` still to do. -/
theorem functors_in_order (runing : Bool) (events : List (Event Function))
    (enabled : Along step (fun loop event => event.Enabled loop) (new runing) events) :
    ∃ final, run step (new runing) events = some final ∧
      final.executed ++ final.remaining ++ final.pendingFunctors = events.flatMap Event.pushed ∧
      (final.phase = .polling → final.pendingFunctors ≠ [] →
        0 < final.wakeupCounter ∨ final.wakers ≠ []) := by
  have commutes : ∀ (loop : EventLoop Function) (event : Event Function), loop.Promise → event.Enabled loop →
      ∃ next, step loop event = some next ∧ Promise next ∧
        next.queued = loop.queued ++ event.pushed := by
    intro loop event promise isEnabled
    obtain ⟨next, performed, nextPromise⟩ := perform_promise promise isEnabled
    exact ⟨next, Outcome.ite_toOption_eq_some_iff.mpr ⟨isEnabled, performed⟩, nextPromise,
      perform_queued isEnabled performed⟩
  obtain ⟨final, ran, promise, shown⟩ := run_refines Promise queued
    (fun pushed event => pushed ++ event.pushed) (new_promise runing) commutes enabled
  have start : (new runing : EventLoop Function).queued = [] := rfl
  rw [start, ← List.flatMap_eq_foldl] at shown
  refine ⟨final, ran, shown, fun polling pending => ?_⟩
  simp only [Promise, polling] at promise
  rcases promise.2 pending with positive | waking | own
  · exact .inl positive
  · exact .inr waking
  · rw [promise.1] at own
    cases own

/-- A push before the first poll, one while the eventfd is drained, and one from
inside a functor. -/
theorem functors_in_order_mixed :
    let events : List (Event Nat) := [.enterLoop, .testQuit, .push 1 10, .wakeUp 1, .pollReturns,
      .push 2 20, .handleRead, .handlersDone, .swap, .call, .ownPush 30, .ownWakeUp, .callReturns,
      .wakeUp 2, .call, .callReturns, .call, .testQuit]
    ∃ final, run step (new false) events = some final ∧
      final.executed ++ final.remaining ++ final.pendingFunctors = [10, 20, 30] := by
  obtain ⟨final, ran, shown, _⟩ := functors_in_order false
    [.enterLoop, .testQuit, .push 1 10, .wakeUp 1, .pollReturns, .push 2 20, .handleRead, .handlersDone,
      .swap, .call, .ownPush 30, .ownWakeUp, .callReturns, .wakeUp 2, .call, .callReturns, .call, .testQuit]
    (by decide +kernel)
  exact ⟨final, ran, shown⟩

end EventLoop

end NutServer.Net
