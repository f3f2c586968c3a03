import NutServer.Net.EventLoopProperties

/-! The functors that wait: which steps add one, which one is called next, and
when those that were queued in handlers have all been called. -/

set_option autoImplicit false

namespace NutServer.Net

/-- The phases after which the functors that were queued are called at once. -/
def Phase.isHandling : Phase → Bool
  | .handlers | .swapping => true
  | _ => false

namespace EventLoop

variable {Function : Type} {loop next : EventLoop Function} {event : Event Function} {func : Function}

/-- A functor of this kind never waits over a `poll`, and a loop that is not
entered can be. -/
structure Orderly (kind : Function → Bool) (loop : EventLoop Function) : Prop where
  early : loop.phase.isHandling = false → ∀ func ∈ loop.pendingFunctors, kind func = false
  rested : loop.phase = .outside → loop.looping = false

variable {kind : Function → Bool}

theorem new_orderly (runing : Bool) : (new runing : EventLoop Function).Orderly kind where
  early _ func member := by cases member
  rested _ := rfl

/-- What a step leaves as it was. -/
structure SameQueue (loop next : EventLoop Function) : Prop where
  phase : next.phase = loop.phase
  temp : next.tempFunctors = loop.tempFunctors
  pending : next.pendingFunctors = loop.pendingFunctors
  looping : next.looping = loop.looping

theorem SameQueue.waiting (same : SameQueue loop next) : next.waiting = loop.waiting := by
  rw [EventLoop.waiting, EventLoop.waiting, remaining, remaining, same.phase, same.temp, same.pending]

theorem SameQueue.orderly (same : SameQueue loop next) (orderly : loop.Orderly kind) : next.Orderly kind where
  early handling := by
    rw [same.pending]
    rw [same.phase] at handling
    exact orderly.early handling
  rested outside := by
    rw [same.looping]
    rw [same.phase] at outside
    exact orderly.rested outside

theorem wakeUp_same (loop : EventLoop Function) : SameQueue loop loop.wakeUp := by
  unfold wakeUp
  split_ifs <;> exact ⟨rfl, rfl, rfl, rfl⟩

theorem handleRead_same (loop : EventLoop Function) : SameQueue loop loop.handleRead := ⟨rfl, rfl, rfl, rfl⟩

/-- `loop` with one functor more at the end of its queue. -/
structure Queued (loop : EventLoop Function) (func : Function) (next : EventLoop Function) : Prop where
  phase : next.phase = loop.phase
  waiting : next.waiting = loop.waiting ++ [func]
  pending : next.pendingFunctors = loop.pendingFunctors ++ [func]
  looping : next.looping = loop.looping

theorem Queued.orderly (queued : loop.Queued func next) (orderly : loop.Orderly kind)
    (inTime : loop.phase.isHandling = true ∨ kind func = false) : next.Orderly kind where
  early handling other member := by
    rw [queued.phase] at handling
    rw [queued.pending] at member
    cases List.mem_append.mp member with
    | inl earlier => exact orderly.early handling other earlier
    | inr last =>
        cases List.mem_singleton.mp last
        exact inTime.resolve_left (by simp [handling])
  rested outside := by
    rw [queued.looping]
    rw [queued.phase] at outside
    exact orderly.rested outside

theorem Queued.mem (queued : loop.Queued func next) {others : List Function} {found : Function}
    (member : found ∈ next.waiting ++ others) : found ∈ loop.waiting ++ others ∨ found = func := by
  rw [queued.waiting] at member
  simp only [List.mem_append, List.mem_singleton] at member ⊢
  tauto

theorem push_queued (loop : EventLoop Function) (func : Function) (wakers : List Nat) :
    loop.Queued func { loop.push func with wakers } where
  phase := rfl
  waiting := (List.append_assoc ..).symm
  pending := rfl
  looping := rfl

theorem queueInLoop_queued (loop : EventLoop Function) (func : Function) : loop.Queued func (loop.queueInLoop func) := by
  have pushed : loop.Queued func (loop.queueInOwnLoop func) := ⟨rfl, (List.append_assoc ..).symm, rfl, rfl⟩
  unfold queueInLoop
  simp only
  split_ifs
  · have woken := wakeUp_same (loop.queueInOwnLoop func)
    exact ⟨woken.phase.trans pushed.phase, woken.waiting.trans pushed.waiting,
      woken.pending.trans pushed.pending, woken.looping.trans pushed.looping⟩
  · exact pushed

theorem pollReturns_waiting (polling : loop.phase = .polling) :
    ({ loop with phase := .handlers } : EventLoop Function).waiting = loop.waiting := by
  simp [waiting, remaining, polling]

theorem pollReturns_orderly :
    ({ loop with phase := .handlers } : EventLoop Function).Orderly kind where
  early handling := by cases handling
  rested outside := by cases outside

/-- A step of the loop alone neither queues nor calls a functor. The functors of
its handlers are swapped out before it polls again. -/
theorem plain_spec (plain : event.isPlain = true) (enabled : event.Enabled loop)
    (performed : loop.perform event = .ok next) :
    next.waiting = loop.waiting ∧ (∀ kind, loop.Orderly kind → next.Orderly kind) ∧
      (loop.phase = .handlers → event ≠ .handlersDone → next.phase = .handlers) := by
  have unchanged : SameQueue loop next → next.waiting = loop.waiting ∧ (∀ kind, loop.Orderly kind → next.Orderly kind) ∧
      (loop.phase = .handlers → event ≠ .handlersDone → next.phase = .handlers) :=
    fun same => ⟨same.waiting, fun _ => same.orderly, fun handlers _ => same.phase.trans handlers⟩
  cases event with
  | wakeUp thread =>
      cases performed
      have woken := wakeUp_same loop
      exact unchanged ⟨woken.phase, woken.temp, woken.pending, woken.looping⟩
  | quit =>
      cases performed
      exact unchanged ⟨rfl, rfl, rfl, rfl⟩
  | quitWakeUp =>
      cases performed
      exact unchanged (wakeUp_same loop)
  | enterLoop =>
      have outside : loop.phase = .outside := enabled
      obtain ⟨_, _, performed⟩ := Outcome.bind_eq_ok_iff.mp performed
      cases performed
      refine ⟨by simp [waiting, remaining, outside], fun _ orderly => ⟨?_, ?_⟩, ?_⟩
      · exact fun _ => orderly.early (by rw [outside]; rfl)
      · intro again
        cases again
      · intro handlers
        cases outside.symm.trans handlers
  | testQuit =>
      have test : loop.phase = .test := enabled
      cases performed
      unfold testQuit
      refine ⟨?_, fun _ orderly => ⟨?_, ?_⟩, ?_⟩
      · split_ifs <;> simp [waiting, remaining, test]
      · split_ifs <;> exact fun _ => orderly.early (by rw [test]; rfl)
      · split_ifs
        · exact fun _ => rfl
        · intro outside
          cases outside
      · intro handlers
        cases test.symm.trans handlers
  | handlersDone =>
      have handlers : loop.phase = .handlers := enabled.1
      cases performed
      refine ⟨by simp [waiting, remaining, handlers], fun _ _ => ⟨?_, ?_⟩, fun _ done => absurd rfl done⟩
      · intro handling
        cases handling
      · intro outside
        cases outside
  | swap =>
      have swapping : loop.phase = .swapping := enabled
      cases performed
      refine ⟨by simp [waiting, remaining, swapping], fun _ _ => ⟨?_, ?_⟩, ?_⟩
      · intro _ func member
        cases member
      · intro outside
        cases outside
      · intro handlers
        cases swapping.symm.trans handlers
  | callReturns =>
      obtain ⟨index, phase⟩ := exists_of_isCalling enabled.2
      simp only [perform, phase] at performed
      cases performed
      refine ⟨by simp [waiting, remaining, phase], fun _ orderly => ⟨?_, ?_⟩, ?_⟩
      · exact fun _ => orderly.early (by rw [phase]; rfl)
      · intro outside
        cases outside
      · intro handlers
        cases phase.symm.trans handlers
  | push | pollReturns | handleRead | ownPush | ownWakeUp | call => cases plain

theorem plain_total (plain : event.isPlain = true) (enabled : event.Enabled loop)
    (rested : loop.phase = .outside → loop.looping = false) : ∃ next, loop.perform event = .ok next := by
  cases event with
  | enterLoop =>
      refine ⟨{ loop with looping := true, quit := false, phase := .test }, ?_⟩
      rw [perform, enterLoop, assert_of (rested enabled)]
      rfl
  | callReturns =>
      obtain ⟨index, phase⟩ := exists_of_isCalling enabled.2
      exact ⟨{ loop with phase := .running index }, by simp only [perform, phase]; rfl⟩
  | wakeUp | quit | quitWakeUp | testQuit | handlersDone | swap => exact ⟨_, rfl⟩
  | push | pollReturns | handleRead | ownPush | ownWakeUp | call => cases plain

/-- The call of the next functor takes it from the front of those that wait. -/
theorem callNext_spec {index : Nat} (phase : loop.phase = .running index) :
    (∀ kind, loop.Orderly kind → (loop.callNext index).Orderly kind) ∧ (loop.callNext index).phase ≠ .handlers ∧
      match loop.tempFunctors[index]? with
      | some func => loop.waiting = func :: (loop.callNext index).waiting
      | none => (loop.callNext index).waiting = loop.waiting := by
  have early : ∀ kind : Function → Bool, loop.Orderly kind → ∀ func ∈ loop.pendingFunctors, kind func = false :=
    fun _ orderly => orderly.early (by rw [phase]; rfl)
  unfold callNext
  cases selected : loop.tempFunctors[index]? with
  | none =>
      have done := List.drop_eq_nil_of_le (List.getElem?_eq_none_iff.mp selected)
      refine ⟨fun kind orderly => ⟨fun _ => early kind orderly, ?_⟩, ?_, ?_⟩
      · intro outside
        cases outside
      · intro handlers
        cases handlers
      · simp [waiting, remaining, phase, done]
  | some func =>
      obtain ⟨inside, isFunc⟩ := List.getElem?_eq_some_iff.mp selected
      have rest := List.drop_eq_getElem_cons inside
      rw [isFunc] at rest
      refine ⟨fun kind orderly => ⟨fun _ => early kind orderly, ?_⟩, ?_, ?_⟩
      · intro outside
        cases outside
      · intro handlers
        cases handlers
      · simp [waiting, remaining, phase, rest]

end EventLoop

end NutServer.Net
