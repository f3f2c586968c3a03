import NutServer.Net.EventLoopThread

/-! When a call of `quit()` from the thread that started the loop ends the loop. -/

set_option autoImplicit false

namespace NutServer.Net

open Library

namespace EventLoop

variable {Function : Type} {loop next : EventLoop Function} {event : Event Function}

/-- Only the entry into `loop()` clears `quit_`. -/
theorem perform_quit (later : event ≠ .enterLoop) (performed : loop.perform event = .ok next)
    (quit : loop.quit = true) : next.quit = true := by
  cases event with
  | enterLoop => exact absurd rfl later
  | quit =>
      cases performed
      rfl
  | push | pollReturns | handleRead | ownPush | handlersDone | swap =>
      cases performed
      exact quit
  | wakeUp | quitWakeUp | ownWakeUp =>
      cases performed
      rw [wakeUp_frame]
      exact quit
  | testQuit =>
      cases performed
      simp [testQuit, quit]
  | call =>
      simp only [perform] at performed
      split at performed
      · cases performed
        unfold callNext
        split <;> exact quit
      · cases performed
        exact quit
  | callReturns =>
      simp only [perform] at performed
      split at performed <;> (cases performed; exact quit)

end EventLoop

namespace EventLoopThread

variable {Function : Type} {host next : EventLoopThread Function} {event : Event Function}

theorem step_eq_some_iff : step host event = some next ↔ event.Enabled host ∧ host.perform event = .ok next :=
  Outcome.ite_toOption_eq_some_iff

private theorem useLoop_eq_ok_iff {loopEvent : EventLoop.Event Function} :
    host.useLoop loopEvent = .ok next ↔ host.thread ≠ .ended ∧
      ∃ loop, host.loop.perform loopEvent = .ok loop ∧ { host with loop } = next := by
  unfold useLoop
  split_ifs with ended
  · simp [ended, throw, throwThe, MonadExceptOf.throw, bind, Except.bind]
  · exact Outcome.bind_pure_eq_ok_iff.trans (and_iff_right ended).symm

private theorem iterate_eq_ok_iff {loopEvent : EventLoop.Event Function} :
    host.iterate loopEvent = .ok next ↔ ∃ loop, host.loop.perform loopEvent = .ok loop ∧
      { host with loop, thread := if loop.phase = .outside then .ended else host.thread } = next :=
  Outcome.bind_pure_eq_ok_iff

private theorem elsewhere_phase {loop : EventLoop Function} {loopEvent : EventLoop.Event Function}
    (elsewhere : isOwn loopEvent = false) (performed : host.loop.perform loopEvent = .ok loop) :
    loop.phase = host.loop.phase := by
  cases loopEvent with
  | push | quit =>
      cases performed
      rfl
  | wakeUp | quitWakeUp =>
      cases performed
      rw [EventLoop.wakeUp_frame]
  | enterLoop | testQuit | pollReturns | handleRead | ownPush | ownWakeUp | handlersDone | swap | call
  | callReturns => cases elsewhere

/-- The client has the loop only after it was published. -/
structure Started (host : EventLoopThread Function) : Prop where
  promise : host.loop.Promise
  published : host.published = true → host.thread = .looping ∨ host.thread = .ended
  client : host.client = .started → host.published = true

theorem Promise.perform {loop next : EventLoop Function} {loopEvent : EventLoop.Event Function}
    (promise : loop.Promise) (performed : loop.perform loopEvent = .ok next) (enabled : loopEvent.Enabled loop) :
    next.Promise := by
  obtain ⟨other, same, kept⟩ := EventLoop.perform_promise promise enabled
  cases performed.symm.trans same
  exact kept

theorem Started.perform (started : host.Started) (enabled : event.Enabled host)
    (performed : host.perform event = .ok next) : next.Started := by
  cases event with
  | startLoop =>
      obtain ⟨_, unstarted, performed⟩ := Outcome.bind_eq_ok_iff.mp performed
      cases performed
      have isUnstarted := assert_ok_iff.mp unstarted
      refine ⟨started.promise, fun published => ?_, nofun⟩
      rcases started.published published with other | other <;> simp [isUnstarted] at other
  | publish =>
      cases performed
      exact ⟨started.promise, fun _ => .inl rfl, fun _ => rfl⟩
  | testLoop =>
      cases performed
      refine ⟨started.promise, started.published, fun gotLoop => ?_⟩
      by_contra unpublished
      simp [unpublished] at gotLoop
  | spuriousWakeup =>
      cases performed
      exact ⟨started.promise, started.published, nofun⟩
  | iterate loopEvent =>
      obtain ⟨loop, stepped, rfl⟩ := iterate_eq_ok_iff.mp performed
      refine ⟨Promise.perform started.promise stepped enabled.2.2, fun _ => ?_, started.client⟩
      split_ifs
      · exact .inr rfl
      · exact .inl enabled.1
  | ownQuit =>
      obtain ⟨_, loop, stepped, rfl⟩ := useLoop_eq_ok_iff.mp performed
      exact ⟨Promise.perform started.promise stepped trivial, started.published, started.client⟩
  | queue loopEvent =>
      obtain ⟨_, loop, stepped, rfl⟩ := useLoop_eq_ok_iff.mp performed
      exact ⟨Promise.perform started.promise stepped enabled.2.2, started.published, started.client⟩
  | quitStore | quitWakeUp =>
      obtain ⟨used, useful, rfl⟩ := Outcome.bind_pure_eq_ok_iff.mp performed
      obtain ⟨_, loop, stepped, rfl⟩ := useLoop_eq_ok_iff.mp useful
      exact ⟨Promise.perform started.promise stepped trivial, started.published, nofun⟩

/-- A request that the loop has yet to see, and will. -/
structure Heeds (host : EventLoopThread Function) : Prop where
  quit : host.loop.quit = true
  inside : (host.thread = .looping ∧ host.loop.phase ≠ .outside) ∨ host.thread = .ended

theorem Heeds.elsewhere (heeds : host.Heeds) {loopEvent : EventLoop.Event Function} {loop : EventLoop Function}
    (elsewhere : isOwn loopEvent = false) (performed : host.loop.perform loopEvent = .ok loop) :
    ({ host with loop } : EventLoopThread Function).Heeds where
  quit := EventLoop.perform_quit (by rintro rfl; cases elsewhere) performed heeds.quit
  inside := by
    rw [elsewhere_phase elsewhere performed]
    exact heeds.inside

theorem Heeds.perform (heeds : host.Heeds) (enabled : event.Enabled host)
    (performed : host.perform event = .ok next) : next.Heeds := by
  cases event with
  | startLoop =>
      obtain ⟨_, unstarted, _⟩ := Outcome.bind_eq_ok_iff.mp performed
      have inside := heeds.inside
      simp [assert_ok_iff.mp unstarted] at inside
  | publish =>
      have constructing : host.thread = .constructing := enabled
      have inside := heeds.inside
      simp [constructing] at inside
  | testLoop | spuriousWakeup =>
      cases performed
      exact ⟨heeds.quit, heeds.inside⟩
  | iterate loopEvent =>
      obtain ⟨loop, stepped, rfl⟩ := iterate_eq_ok_iff.mp performed
      obtain ⟨looping, -, isEnabled⟩ := enabled
      have inside := heeds.inside.resolve_right (by simp [looping])
      refine ⟨EventLoop.perform_quit ?_ stepped heeds.quit, ?_⟩
      · rintro rfl
        exact inside.2 isEnabled
      · split_ifs with left
        · exact .inr rfl
        · exact .inl ⟨looping, left⟩
  | ownQuit =>
      obtain ⟨_, loop, stepped, rfl⟩ := useLoop_eq_ok_iff.mp performed
      exact heeds.elsewhere rfl stepped
  | queue loopEvent =>
      obtain ⟨_, loop, stepped, rfl⟩ := useLoop_eq_ok_iff.mp performed
      refine heeds.elsewhere ?_ stepped
      cases loopEvent <;> first | rfl | cases enabled.2.1
  | quitStore | quitWakeUp =>
      obtain ⟨used, useful, rfl⟩ := Outcome.bind_pure_eq_ok_iff.mp performed
      obtain ⟨_, loop, stepped, rfl⟩ := useLoop_eq_ok_iff.mp useful
      have kept := heeds.elsewhere rfl stepped
      exact ⟨kept.quit, kept.inside⟩

private theorem new_started (runing : Bool) : (new runing : EventLoopThread Function).Started :=
  ⟨EventLoop.new_promise runing, nofun, nofun⟩

private theorem step_quitStore (host : EventLoopThread Function) (started : host.client = .started) (alive : host.thread ≠ .ended) :
    step host .quitStore = some { host with loop := { host.loop with quit := true }, client := .stored } := by
  have useful : host.useLoop .quit = .ok { host with loop := { host.loop with quit := true } } :=
    useLoop_eq_ok_iff.mpr ⟨alive, _, rfl, rfl⟩
  refine step_eq_some_iff.mpr ⟨started, ?_⟩
  simp only [perform, useful]
  rfl

private theorem step_quitWakeUp (host : EventLoopThread Function) (stored : host.client = .stored) (alive : host.thread ≠ .ended) :
    step host .quitWakeUp = some { host with loop := host.loop.wakeUp, client := .returned } := by
  have useful : host.useLoop .quitWakeUp = .ok { host with loop := host.loop.wakeUp } :=
    useLoop_eq_ok_iff.mpr ⟨alive, _, rfl, rfl⟩
  refine step_eq_some_iff.mpr ⟨stored, ?_⟩
  simp only [perform, useful]
  rfl

private theorem step_enterLoop (host : EventLoopThread Function) (looping : host.thread = .looping) (outside : host.loop.phase = .outside)
    (idle : host.loop.looping = false) : step host (.iterate .enterLoop) =
      some { host with loop := { host.loop with looping := true, quit := false, phase := .test } } := by
  refine step_eq_some_iff.mpr ⟨⟨looping, rfl, outside⟩, iterate_eq_ok_iff.mpr ⟨_, ?_, rfl⟩⟩
  simp only [EventLoop.perform, EventLoop.enterLoop, assert_of idle]
  rfl

/-- `loop()` clears a request that came before it. -/
theorem run_missed (host : EventLoopThread Function) (stored : host.client = .stored)
    (looping : host.thread = .looping) (outside : host.loop.phase = .outside) (idle : host.loop.looping = false) :
    ∃ final, run step host [.quitWakeUp, .iterate .enterLoop] = some final ∧ final.Missed := by
  have frame := EventLoop.wakeUp_frame host.loop
  have entered := step_enterLoop { host with loop := host.loop.wakeUp, client := .returned } looping
    (by rw [frame]; exact outside) (by rw [frame]; exact idle)
  refine ⟨{ host with
    loop := { host.loop.wakeUp with looping := true, quit := false, phase := .test }
    client := .returned }, ?_, rfl, looping, rfl, rfl⟩
  rw [run_cons, step_quitWakeUp host stored (by simp [looping]), Option.bind_some, run_cons, entered]
  rfl

/-- However the run before it went, a call of `quit()` can be missed exactly when
it stores `quit_` before `loop()` clears it. -/
theorem never_missed_iff {runing : Bool} {before : List (Event Function)} {called : EventLoopThread Function}
    (reached : run step (new runing) before = some called) (enabled : called.client = .started) :
    (∀ after final, run step called (.quitStore :: after) = some final → ¬ final.Missed) ↔
      ¬ called.BeforeLoop := by
  have started := run_preserves Started (new_started runing) (fun host event next holds stepped => by
    obtain ⟨isEnabled, performed⟩ := step_eq_some_iff.mp stepped
    exact holds.perform isEnabled performed) reached
  constructor
  · rintro safe ⟨looping, outside⟩
    have promise := started.promise
    simp only [EventLoop.Promise, outside] at promise
    obtain ⟨final, ran, missed⟩ := run_missed
      { called with loop := { called.loop with quit := true }, client := .stored } rfl looping outside promise.1
    refine safe [.quitWakeUp, .iterate .enterLoop] final ?_ missed
    rw [run_cons, step_quitStore called enabled (by simp [looping])]
    exact ran
  · intro late after final ran missed
    obtain ⟨stored, stepped, ranAfter⟩ := Option.bind_eq_some_iff.mp ran
    obtain ⟨-, performed⟩ := step_eq_some_iff.mp stepped
    obtain ⟨used, useful, rfl⟩ := Outcome.bind_pure_eq_ok_iff.mp performed
    obtain ⟨alive, loop, stores, rfl⟩ := useLoop_eq_ok_iff.mp useful
    cases stores
    have looping := (started.published (started.client enabled)).resolve_right alive
    have start : Heeds { called with loop := { called.loop with quit := true }, client := .stored } :=
      ⟨rfl, .inl ⟨looping, fun outside => late ⟨looping, outside⟩⟩⟩
    have heeds := run_preserves Heeds start (fun host event next holds stepped => by
      obtain ⟨isEnabled, performed⟩ := step_eq_some_iff.mp stepped
      exact holds.perform isEnabled performed) ranAfter
    exact absurd (heeds.quit.symm.trans missed.2.2.2) (by simp)

/-- A call of `quit()` while the loop polls. -/
theorem never_missed_iff_polling :
    let before : List (Event Nat) := [.startLoop, .testLoop, .publish, .testLoop, .iterate .enterLoop,
      .iterate .testQuit]
    ∃ called, run step (new false) before = some called ∧
      ∀ after final, run step called (.quitStore :: after) = some final → ¬ final.Missed := by
  intro before
  have polls : (run step (new false) before).any (fun called =>
      called.client = .started ∧ ¬ called.BeforeLoop) = true := by decide +kernel
  obtain ⟨called, reached, holds⟩ := (Option.any_eq_true _ _).mp polls
  obtain ⟨started, late⟩ := of_decide_eq_true holds
  exact ⟨called, reached, (never_missed_iff reached started).mpr late⟩

/-- `quit()` right after `startLoop()`: the loop evaluates its condition as if
nobody had called it. -/
theorem quit_missed :
    ∃ final, run step (new false : EventLoopThread Nat) [.startLoop, .publish, .testLoop, .quitStore, .quitWakeUp,
      .iterate .enterLoop] = some final ∧ final.Missed := by
  have misses : (run step (new false : EventLoopThread Nat) [.startLoop, .publish, .testLoop, .quitStore,
      .quitWakeUp, .iterate .enterLoop]).any (fun final => final.Missed) = true := by decide +kernel
  obtain ⟨final, ran, missed⟩ := (Option.any_eq_true _ _).mp misses
  exact ⟨final, ran, of_decide_eq_true missed⟩

end EventLoopThread

end NutServer.Net
