import NutServer.Net.EventLoopTimers

/-! A timer that was asked for in any thread is never forgotten: it is at one
place, and the loop does not sleep over it. -/

set_option autoImplicit false

namespace NutServer.Net

open Library Base

namespace EventLoop

variable {Function : Type} {loop next : EventLoop Function} {event : Event Function}

private theorem perform_executed (other : event ≠ .call) (performed : loop.perform event = .ok next) :
    next.executed = loop.executed := by
  cases event with
  | wakeUp thread | quitWakeUp | ownWakeUp =>
      cases performed
      rw [wakeUp_frame]
  | enterLoop =>
      obtain ⟨_, _, performed⟩ := Outcome.bind_eq_ok_iff.mp performed
      cases performed
      rfl
  | testQuit =>
      cases performed
      unfold testQuit
      split_ifs <;> rfl
  | call => exact absurd rfl other
  | callReturns =>
      cases phase : loop.phase <;> simp only [perform, phase] at performed <;> cases performed <;> rfl
  | push | quit | pollReturns | handleRead | ownPush | handlersDone | swap =>
      cases performed
      rfl

/-- A step that is no call leaves the functors that wait, and appends what it pushes. -/
theorem perform_waiting (other : event ≠ .call) (enabled : event.Enabled loop)
    (performed : loop.perform event = .ok next) : next.waiting = loop.waiting ++ event.pushed := by
  have queued := perform_queued enabled performed
  simp only [EventLoop.queued, perform_executed other performed, List.append_assoc] at queued
  simpa [EventLoop.waiting, List.append_assoc] using List.append_cancel_left queued

/-- From the handlers the loop goes on when they are done. -/
theorem perform_handlers (handlers : loop.phase = .handlers) (enabled : event.Enabled loop)
    (performed : loop.perform event = .ok next) : event = .handlersDone ∨ next.phase = .handlers := by
  by_cases plain : event.isPlain = true
  · by_cases done : event = .handlersDone
    · exact .inl done
    · exact .inr ((plain_spec plain enabled performed).2.2 handlers done)
  · cases event with
    | push | handleRead | ownPush =>
        cases performed
        exact .inr handlers
    | pollReturns =>
        cases performed
        exact .inr rfl
    | ownWakeUp =>
        cases performed
        exact .inr ((wakeUp_same loop).phase.trans handlers)
    | call =>
        obtain ⟨index, running⟩ := exists_of_isRunning enabled
        cases handlers.symm.trans running
    | wakeUp | quit | quitWakeUp | enterLoop | testQuit | handlersDone | swap | callReturns =>
        exact absurd rfl plain

end EventLoop

namespace TimerQueue

variable {queue next : TimerQueue}

/-! No call of `handler` takes a timer from those that are still to be inserted. -/

private theorem handler_pending {now : Timestamp} (called : queue.handler now = .ok next) : next.pending = queue.pending := by
  obtain ⟨_, _, called⟩ := Outcome.bind_eq_ok_iff.mp called
  cases called
  rfl

private theorem runCallback_pending (sound : Sound queue) (remain : 0 < queue.phase.callbacks)
    (called : queue.runCallback = .ok next) : next.pending = queue.pending := by
  obtain ⟨call, expired, index, entry, phase, isEntry⟩ := exists_of_callbacks remain
  have inHand := List.mem_of_getElem? isEntry
  obtain ⟨timer, found, _⟩ := sound.held.keyed entry (by simp [phase, Phase.expired, inHand])
  simp only [runCallback, phase, isEntry, deref_of _ found, Outcome.ok_bind] at called
  cases called
  rfl

private theorem handlerReturns_pending (sound : Sound queue) (running : queue.phase ≠ .idle) {clock : Timestamp}
    (returns : queue.handlerReturns clock = .ok next) : next.pending = queue.pending := by
  cases phase : queue.phase with
  | idle => exact absurd phase running
  | running call expired index =>
      have held := sound.held
      have calling := sound.calling
      simp only [phase, Phase.expired, Calling] at held calling
      obtain ⟨looped, loops, nextHeld, resetting⟩ := reset_loop call.now held calling.2.1
      have pending : looped.pending = queue.pending := by rw [resetting.frame]
      simp only [handlerReturns, phase, reset, loops, Outcome.ok_bind, nextHeld.nextExpire] at returns
      cases returns
      rw [← pending]
      split_ifs <;> rfl

end TimerQueue

namespace TimedLoop

variable {Function : Type} {system next : TimedLoop Function} {event : Event Function}

/-- The addresses that functors of the loop will add. -/
def behind (loop : EventLoop (Task Function)) : List Nat := loop.waiting.filterMap Task.timer?

/-- A timer that is not yet in the set is with the thread that asked for it or
behind a functor, and a call of `handler` is a handler of the loop. -/
structure Sound (system : TimedLoop Function) : Prop where
  promise : system.loop.Promise
  timers : system.timerQueue.Sound
  armed : system.timerQueue.Armed
  pending : system.timerQueue.pending.Perm (system.callers.map Prod.snd ++ behind system.loop)
  inside : system.timerQueue.phase ≠ .idle → system.loop.phase = .handlers

theorem new_sound (runing : Bool) : (new runing : TimedLoop Function).Sound where
  promise := EventLoop.new_promise runing
  timers := TimerQueue.new_sound
  armed := TimerQueue.new_armed
  pending := .refl _
  inside := fun busy => absurd rfl busy

private theorem behind_other {loop next : EventLoop (Task Function)} {event : EventLoop.Event (Task Function)}
    (timerless : isTimerless event = true) (enabled : event.Enabled loop)
    (performed : loop.perform event = .ok next) : behind next = behind loop := by
  have other : event ≠ .call := by
    intro same
    rw [same] at timerless
    cases timerless
  rw [behind, EventLoop.perform_waiting other enabled performed, List.filterMap_append]
  cases event with
  | push thread func | ownPush func =>
      have none := Option.isNone_iff_eq_none.mp timerless
      simp [EventLoop.Event.pushed, behind, none]
  | wakeUp | quit | quitWakeUp | enterLoop | testQuit | pollReturns | handleRead | ownWakeUp | handlersDone
    | swap | call | callReturns => exact List.append_nil _

/-- The call of the next functor takes it from those that wait. -/
theorem behind_call {loop next : EventLoop (Task Function)} (running : loop.phase.isRunning = true)
    (performed : loop.perform .call = .ok next) :
    behind loop = ((next? loop).bind Task.timer?).toList ++ behind next := by
  obtain ⟨index, phase⟩ := EventLoop.exists_of_isRunning running
  simp only [EventLoop.perform, phase] at performed
  cases performed
  obtain ⟨_, _, waiting⟩ := EventLoop.callNext_spec phase
  have selected : next? loop = loop.tempFunctors[index]? := by rw [next?, phase]
  rw [behind, behind, selected]
  cases found : loop.tempFunctors[index]? with
  | none =>
      rw [found] at waiting
      simp [waiting]
  | some task =>
      rw [found] at waiting
      simp only at waiting
      rw [waiting]
      cases task <;> rfl

theorem Sound.loop (sound : system.Sound) {event : EventLoop.Event (Task Function)}
    (enabled : (Event.loop event).Enabled system) :
    ∃ next, system.perform (.loop event) = .ok next ∧ next.Sound := by
  obtain ⟨able, timerless, resting, _⟩ := enabled
  obtain ⟨loop, performed, promise⟩ := EventLoop.perform_promise sound.promise able
  refine ⟨{ system with loop }, by rw [perform, performed]; rfl, promise, sound.timers, sound.armed, ?_, ?_⟩
  · rw [behind_other timerless able performed]
    exact sound.pending
  · intro busy
    cases EventLoop.perform_handlers (sound.inside busy) able performed with
    | inl done => exact absurd (resting (by rw [done]; rfl)) busy
    | inr handlers => exact handlers

theorem Sound.pushTimer (sound : system.Sound) {thread address : Nat} (asked : (thread, address) ∈ system.callers)
    (free : thread ∉ system.loop.wakers) :
    ∃ next, system.perform (.pushTimer thread address) = .ok next ∧ next.Sound := by
  have able : (EventLoop.Event.push thread (Task.addTimerInLoop address)).Enabled system.loop := free
  have other : EventLoop.Event.push thread (Task.addTimerInLoop address : Task Function) ≠ .call := by
    intro same
    cases same
  obtain ⟨loop, performed, promise⟩ := EventLoop.perform_promise sound.promise able
  have waiting := EventLoop.perform_waiting other able performed
  refine ⟨{ system with loop, callers := system.callers.erase (thread, address) },
    by rw [perform, performed]; rfl, promise, sound.timers, sound.armed, ?_, ?_⟩
  · have shape : behind loop = behind system.loop ++ [address] := by
      rw [behind, waiting, List.filterMap_append]
      rfl
    rw [shape]
    calc List.Perm system.timerQueue.pending (system.callers.map Prod.snd ++ behind system.loop) := sound.pending
      List.Perm _ ((address :: (system.callers.erase (thread, address)).map Prod.snd) ++ behind system.loop) :=
        ((List.perm_cons_erase asked).map Prod.snd).append_right _
      List.Perm _ ((system.callers.erase (thread, address)).map Prod.snd ++ (behind system.loop ++ [address])) := by
        rw [← List.append_assoc]
        exact (List.perm_append_singleton _ _).symm
  · intro busy
    cases EventLoop.perform_handlers (sound.inside busy) able performed with
    | inl done => cases done
    | inr handlers => exact handlers

theorem Sound.addTimer (sound : system.Sound) {thread address : Nat} {request : TimerRequest}
    (fresh : (TimerQueue.Event.addTimer address request.when request.interval).Enabled system.timerQueue) :
    ∃ next, system.perform (.addTimer thread request address) = .ok next ∧ next.Sound := by
  obtain ⟨timerQueue, performed, timers⟩ := TimerQueue.perform_sound sound.timers fresh
  have armed := TimerQueue.perform_armed sound.timers sound.armed fresh performed
  cases performed
  refine ⟨_, rfl, sound.promise, timers, armed, ?_, sound.inside⟩
  exact (List.perm_append_singleton _ _).trans (sound.pending.cons address)

/-- A step of the queue in the loop thread that leaves the timers that are still
to be inserted. -/
theorem Sound.timerQueue (sound : system.Sound) {timerQueue : TimerQueue} (timers : timerQueue.Sound)
    (armed : timerQueue.Armed) (pending : timerQueue.pending.Perm system.timerQueue.pending)
    (inside : timerQueue.phase ≠ .idle → system.loop.phase = .handlers) : { system with timerQueue }.Sound where
  promise := sound.promise
  timers := timers
  armed := armed
  pending := pending.trans sound.pending
  inside := inside

/-- The insertion of a timer takes it from those that are still to be inserted. -/
theorem addTimerInLoop_spec {timerQueue : TimerQueue} (timers : timerQueue.Sound) (armed : timerQueue.Armed)
    {address : Nat} (clock : Timestamp) (waits : address ∈ timerQueue.pending) :
    ∃ next, timerQueue.addTimerInLoop address clock = .ok next ∧ next.Sound ∧ next.Armed ∧
      next.pending = timerQueue.pending.erase address ∧ next.phase = timerQueue.phase := by
  have able : (TimerQueue.Event.addTimerInLoop address clock).Enabled timerQueue := waits
  obtain ⟨next, performed, nextTimers⟩ := TimerQueue.perform_sound timers able
  obtain ⟨timer, other, _, added, _, shape, _⟩ := timers.held.addTimerInLoop clock waits
  have same : other = next := Except.ok.inj (added.symm.trans performed)
  subst same
  exact ⟨other, performed, nextTimers, armed.addTimerInLoop timers waits performed, by rw [shape], by rw [shape]⟩

theorem Sound.ownTimer (sound : system.Sound) {address : Nat} {request : TimerRequest} (clock : Timestamp)
    (fresh : (TimerQueue.Event.addTimer address request.when request.interval).Enabled system.timerQueue) :
    ∃ next, system.perform (.ownTimer request address clock) = .ok next ∧ next.Sound := by
  obtain ⟨made, performed, timers⟩ := TimerQueue.perform_sound sound.timers fresh
  have armed := TimerQueue.perform_armed sound.timers sound.armed fresh performed
  cases performed
  have last : address ∈ (system.timerQueue.addTimer address request.when request.interval).pending :=
    List.mem_append_right _ (List.mem_singleton_self _)
  obtain ⟨next, added, nextTimers, nextArmed, pending, phase⟩ := addTimerInLoop_spec timers armed clock last
  refine ⟨{ system with timerQueue := next }, ?_, sound.timerQueue nextTimers nextArmed ?_ ?_⟩
  · rw [perform, TimedLoop.ownTimer, added]
    rfl
  · have erased := ((List.perm_append_singleton address system.timerQueue.pending).erase address)
    rw [List.erase_cons_head] at erased
    rw [pending]
    exact erased
  · rw [phase]
    exact sound.inside

private theorem runTask_none {timerQueue : TimerQueue} {clock : Timestamp} {task : Option (Task Function)}
    (none : task.bind Task.timer? = none) : runTask timerQueue clock task = .ok timerQueue := by
  cases task with
  | none => rfl
  | some task =>
      cases task with
      | addTimerInLoop address => cases none
      | other func => rfl

private theorem runTask_some {timerQueue : TimerQueue} {clock : Timestamp} {task : Option (Task Function)} {address : Nat}
    (isTimer : task.bind Task.timer? = some address) :
    runTask timerQueue clock task = timerQueue.addTimerInLoop address clock := by
  cases task with
  | none => cases isTimer
  | some task =>
      cases task with
      | addTimerInLoop other =>
          cases isTimer
          rfl
      | other func => cases isTimer

theorem Sound.call (sound : system.Sound) (clock : Timestamp)
    (running : (EventLoop.Event.call : EventLoop.Event (Task Function)).Enabled system.loop) :
    ∃ next, system.perform (.call clock) = .ok next ∧ next.Sound := by
  obtain ⟨loop, performed, promise⟩ := EventLoop.perform_promise sound.promise running
  have taken := behind_call running performed
  obtain ⟨index, phase⟩ := EventLoop.exists_of_isRunning running
  have idle : system.timerQueue.phase = .idle := by
    by_contra busy
    cases phase.symm.trans (sound.inside busy)
  cases selected : (next? system.loop).bind Task.timer? with
  | none =>
      rw [selected] at taken
      refine ⟨{ system with loop }, ?_, promise, sound.timers, sound.armed, ?_, fun busy => absurd idle busy⟩
      · rw [perform, runTask_none selected, Outcome.ok_bind, performed]
        rfl
      · exact sound.pending.trans (.of_eq (congrArg _ taken))
  | some address =>
      rw [selected] at taken
      have split : system.timerQueue.pending.Perm (address :: (system.callers.map Prod.snd ++ behind loop)) := by
        refine sound.pending.trans ?_
        rw [taken]
        exact List.perm_middle
      have waits : address ∈ system.timerQueue.pending := split.mem_iff.mpr List.mem_cons_self
      obtain ⟨timerQueue, added, timers, armed, pending, same⟩ :=
        addTimerInLoop_spec sound.timers sound.armed clock waits
      refine ⟨{ system with loop, timerQueue }, ?_, promise, timers, armed, ?_, fun busy => absurd (same.trans idle) busy⟩
      · rw [perform, runTask_some selected, added, Outcome.ok_bind, performed]
        rfl
      · have erased := split.erase address
        rw [List.erase_cons_head] at erased
        rw [pending]
        exact erased

private theorem Sound.inHandler (sound : system.Sound) {event : TimerQueue.Event} (able : event.Enabled system.timerQueue)
    (handlers : system.loop.phase = .handlers)
    (pending : ∀ next, system.timerQueue.perform event = .ok next → next.pending = system.timerQueue.pending) :
    ∃ timerQueue, system.timerQueue.perform event = .ok timerQueue ∧ { system with timerQueue }.Sound := by
  obtain ⟨timerQueue, performed, timers⟩ := TimerQueue.perform_sound sound.timers able
  have armed := TimerQueue.perform_armed sound.timers sound.armed able performed
  exact ⟨timerQueue, performed, sound.timerQueue timers armed (.of_eq (pending _ performed)) fun _ => handlers⟩

theorem perform_sound (sound : system.Sound) (enabled : event.Enabled system) :
    ∃ next, system.perform event = .ok next ∧ next.Sound := by
  cases event with
  | addTimer thread request address => exact sound.addTimer enabled.2
  | pushTimer thread address => exact sound.pushTimer enabled.1 enabled.2
  | ownTimer request address clock => exact sound.ownTimer clock enabled.2
  | loop event => exact sound.loop enabled
  | call clock => exact sound.call clock enabled
  | handler now =>
      obtain ⟨timerQueue, performed, kept⟩ := sound.inHandler enabled.2 enabled.1.1
        (fun _ performed => TimerQueue.handler_pending performed)
      exact ⟨_, Outcome.bind_eq_ok_iff.mpr ⟨timerQueue, performed, rfl⟩, kept⟩
  | runCallback =>
      have remain : 0 < system.timerQueue.phase.callbacks := enabled.2
      have busy : system.timerQueue.phase ≠ .idle := by
        intro idle
        rw [idle] at remain
        exact absurd remain (lt_irrefl _)
      obtain ⟨timerQueue, performed, kept⟩ := sound.inHandler enabled.2 (sound.inside busy)
        (fun _ performed => TimerQueue.runCallback_pending sound.timers remain performed)
      exact ⟨_, Outcome.bind_eq_ok_iff.mpr ⟨timerQueue, performed, rfl⟩, kept⟩
  | handlerReturns clock =>
      obtain ⟨timerQueue, performed, kept⟩ := sound.inHandler enabled.2 (sound.inside enabled.2.1)
        (fun _ performed => TimerQueue.handlerReturns_pending sound.timers enabled.2.1 performed)
      exact ⟨_, Outcome.bind_eq_ok_iff.mpr ⟨timerQueue, performed, rfl⟩, kept⟩

/-- The timers whose caller has not yet pushed its functor. -/
def asked (system : TimedLoop Function) : List Nat :=
  TimerQueue.serials system.timerQueue.timers (system.callers.map Prod.snd)

/-- The timers behind functors of the loop. -/
def queued (system : TimedLoop Function) : List Nat :=
  TimerQueue.serials system.timerQueue.timers (behind system.loop)

theorem Sound.one_place (sound : system.Sound) {serial : Nat}
    (known : serial < system.timerQueue.constructed.length) :
    system.asked.count serial + system.queued.count serial + system.timerQueue.inSet.count serial +
      system.timerQueue.inHand.count serial + system.timerQueue.deleted.count serial = 1 := by
  have places := sound.timers.one_place known
  have waiting : system.timerQueue.waiting.Perm (system.asked ++ system.queued) := by
    rw [asked, queued, ← TimerQueue.serials_append]
    exact sound.pending.filterMap _
  rwa [waiting.count_eq, List.count_append] at places

/-- A loop that may sleep has no functor that waits. -/
theorem Sound.behind_polling (sound : system.Sound) (polling : system.loop.phase = .polling)
    (unreadable : system.loop.wakeupCounter = 0) (silent : system.loop.wakers = []) : behind system.loop = [] := by
  have promise := sound.promise
  simp only [EventLoop.Promise, polling] at promise
  have none : system.loop.pendingFunctors = [] := by
    by_contra some
    cases promise.2 some with
    | inl readable => exact absurd unreadable readable.ne'
    | inr woken =>
        cases woken with
        | inl waking => exact waking silent
        | inr own => cases promise.1.symm.trans own
  simp [behind, EventLoop.waiting, EventLoop.remaining, polling, none]

/-- However requests of any thread, the phases of the loop and the calls of
`handler` interleave, and whatever the clock reads, no step fails and every timer
that was made is at one place. When the loop sleeps, with the eventfd unreadable
and nobody about to wake it, a timer whose caller has returned and that has not
been deleted is in the set, and the timerfd is armed for the first of them. -/
theorem timers_never_forgotten (runing : Bool) (events : List (Event Function))
    (enabled : Along step (fun system event => event.Enabled system) (new runing) events) :
    ∃ final, run step (new runing) events = some final ∧
      (∀ serial < final.timerQueue.constructed.length,
        final.asked.count serial + final.queued.count serial + final.timerQueue.inSet.count serial +
          final.timerQueue.inHand.count serial + final.timerQueue.deleted.count serial = 1) ∧
      (final.loop.phase = .polling → final.loop.wakeupCounter = 0 → final.loop.wakers = [] →
        (∀ serial < final.timerQueue.constructed.length,
          serial ∈ final.asked ∨ serial ∈ final.timerQueue.inSet ∨ serial ∈ final.timerQueue.deleted) ∧
        (final.timerQueue.timerLists.toList ≠ [] →
          ∃ setting, final.timerQueue.settings.getLast? = some setting ∧ setting.newValue.it_value ≠ ⟨0, 0⟩ ∧
            (∃ entry ∈ final.timerQueue.timerLists.toList, entry.expiration = setting.expiration) ∧
            ∀ entry ∈ final.timerQueue.timerLists.toList, setting.expiration ≤ entry.expiration)) := by
  have progress : ∀ (past : List (Event Function)) (system : TimedLoop Function) (event : Event Function),
      system.Sound → event.Enabled system → ∃ next, step system event = some next ∧ next.Sound := by
    intro past system event sound isEnabled
    obtain ⟨next, performed, nextSound⟩ := perform_sound sound isEnabled
    exact ⟨next, Outcome.ite_toOption_eq_some_iff.mpr ⟨isEnabled, performed⟩, nextSound⟩
  obtain ⟨final, ran, sound⟩ := run_total (fun _ system => Sound system) (new_sound runing) progress enabled
  refine ⟨final, ran, fun serial known => sound.one_place known, fun polling unreadable silent => ?_⟩
  have idle : final.timerQueue.phase = .idle := by
    by_contra busy
    cases polling.symm.trans (sound.inside busy)
  constructor
  · intro serial known
    have place := sound.one_place known
    have noneQueued : final.queued = [] := by
      rw [queued, sound.behind_polling polling unreadable silent]
      rfl
    have noneInHand : final.timerQueue.inHand = [] := by
      rw [TimerQueue.inHand, idle]
      rfl
    rw [noneQueued, noneInHand, List.count_nil] at place
    have some : 0 < final.asked.count serial ∨ 0 < final.timerQueue.inSet.count serial ∨
        0 < final.timerQueue.deleted.count serial := by omega
    simpa only [List.count_pos_iff] using some
  · exact sound.armed.setting idle

/-- A timer from another thread that is pushed while functors run, and one that
a functor of the loop asks for. -/
def mixedRequests : List (Event Nat) := [.loop .enterLoop, .loop .testQuit, .addTimer 1 (.runOnTime 200) 8,
  .loop (.push 2 (.other 7)), .loop (.wakeUp 2), .loop .pollReturns, .loop .handleRead, .loop .handlersDone,
  .loop .swap, .call 90, .pushTimer 1 8, .ownTimer (.runEachInterval (.ofMicroseconds 25) 90) 16 91,
  .loop .callReturns, .call 92, .loop .testQuit, .loop (.wakeUp 1), .loop .pollReturns, .loop .handleRead,
  .loop .handlersDone, .loop .swap, .call 95, .loop .callReturns, .call 96, .loop .testQuit]

theorem timers_never_forgotten_mixed : ∃ final, run step (new false) mixedRequests = some final ∧
    final.loop.phase = .polling ∧ final.timerQueue.inSet = [1, 0] ∧
      ∃ setting, final.timerQueue.settings.getLast? = some setting ∧
        ∀ entry ∈ final.timerQueue.timerLists.toList, setting.expiration ≤ entry.expiration := by
  obtain ⟨final, ran, _, asleep⟩ := timers_never_forgotten false mixedRequests (by decide +kernel)
  have reached : (run step (new false) mixedRequests).map (fun final =>
      ((final.loop.phase, final.loop.wakeupCounter, final.loop.wakers), final.timerQueue.inSet,
        final.timerQueue.timerLists.toList.map TimerIndex.timer)) =
      some ((.polling, 0, []), [1, 0], [16, 8]) := by decide +kernel
  rw [ran, Option.map_some] at reached
  obtain ⟨⟨polling, unreadable, silent⟩, inSet, filled⟩ := by simpa only [Option.some.injEq, Prod.mk.injEq] using reached
  have nonempty : final.timerQueue.timerLists.toList ≠ [] := by
    intro empty
    rw [empty] at filled
    cases filled
  obtain ⟨setting, isLast, _, _, least⟩ := (asleep polling unreadable silent).2 nonempty
  exact ⟨final, ran, polling, inSet, setting, isLast, least⟩

end TimedLoop

end NutServer.Net
