import NutServer.Library.Machine

/-!
# Monitors

Threads that wait on a condition variable until the shared state is ready, and
actions on that state, some of which broadcast. The critical sections are the steps.
-/

set_option autoImplicit false

namespace NutServer.Library

universe u v w

namespace Monitor

inductive Phase where
  | outside
  /-- Asleep on the condition variable, and not woken. -/
  | blocked
  /-- About to take the mutex and to test again. -/
  | woken
  | returned
  deriving DecidableEq, Repr

inductive Event (ι : Type v) (α : Type w) where
  | call (thread : ι)
  | resume (thread : ι)
  /-- A wake-up without a broadcast. -/
  | spurious (thread : ι)
  | act (action : α)
  deriving DecidableEq

def Event.action {ι : Type v} {α : Type w} : Event ι α → Option α
  | .act action => some action
  | _ => none

end Monitor

structure Monitor (σ : Type u) (ι : Type v) where
  shared : σ
  phase : ι → Monitor.Phase

namespace Monitor

variable {σ : Type u} {ι : Type v} {α : Type w}

def new (shared : σ) : Monitor σ ι where
  shared := shared
  phase _ := .outside

def wake : Phase → Phase
  | .blocked => .woken
  | phase => phase

theorem wake_of_ne {phase : Phase} (awake : phase ≠ .blocked) : wake phase = phase := by
  cases phase with
  | blocked => exact absurd rfl awake
  | outside | woken | returned => rfl

/-- The end of an action's critical section. -/
def settle (monitor : Monitor σ ι) (result : σ × Bool) : Monitor σ ι where
  shared := result.1
  phase thread := if result.2 then wake (monitor.phase thread) else monitor.phase thread

variable (ready : σ → Prop) [DecidablePred ready] [DecidableEq ι]

/-- One test of the loop around the wait. -/
def test (monitor : Monitor σ ι) (thread : ι) : Monitor σ ι :=
  { monitor with
    phase := Function.update monitor.phase thread (if ready monitor.shared then .returned else .blocked) }

/-- `act` is an action's critical section, and whether it broadcasts. -/
def step (act : σ → α → Option (σ × Bool)) (monitor : Monitor σ ι) : Event ι α → Option (Monitor σ ι)
  | .call thread =>
      if monitor.phase thread = .outside ∨ monitor.phase thread = .returned then some (monitor.test ready thread)
      else none
  | .resume thread => if monitor.phase thread = .woken then some (monitor.test ready thread) else none
  | .spurious thread =>
      if monitor.phase thread = .blocked then
        some { monitor with phase := Function.update monitor.phase thread .woken }
      else none
  | .act action => (act monitor.shared action).map monitor.settle

variable {ready} {act : σ → α → Option (σ × Bool)} {monitor next start final : Monitor σ ι} {event : Event ι α}
  {events : List (Event ι α)} {thread : ι}

/-- A step tests for one thread, wakes one, or is an action. -/
theorem step_cases (stepped : step ready act monitor event = some next) :
    (event.action = none ∧ ∃ thread, next = monitor.test ready thread) ∨
      (event.action = none ∧
        ∃ thread, next = { monitor with phase := Function.update monitor.phase thread .woken }) ∨
      ∃ action result, event.action = some action ∧ act monitor.shared action = some result ∧
        next = monitor.settle result := by
  cases event with
  | call thread | resume thread =>
      simp only [step, Option.ite_none_right_eq_some, Option.some.injEq] at stepped
      exact .inl ⟨rfl, thread, stepped.2.symm⟩
  | spurious thread =>
      simp only [step, Option.ite_none_right_eq_some, Option.some.injEq] at stepped
      exact .inr (.inl ⟨rfl, thread, stepped.2.symm⟩)
  | act action =>
      simp only [step, Option.map_eq_some_iff] at stepped
      obtain ⟨result, acted, same⟩ := stepped
      exact .inr (.inr ⟨action, result, rfl, acted, same.symm⟩)

/-- The shared state has gone through the actions only. -/
theorem run_shared (ran : run (step ready act) start events = some final) :
    run (fun shared action => (act shared action).map Prod.fst) start.shared (events.filterMap Event.action) =
      some final.shared := by
  refine run_history (fun past monitor =>
    run (fun shared action => (act shared action).map Prod.fst) start.shared (past.filterMap Event.action) =
      some monitor.shared) rfl ?_ ran
  intro past monitor event next before stepped
  rw [List.filterMap_append, run_append, before, Option.bind_some]
  rcases step_cases stepped with tested | woken | acted
  · obtain ⟨silent, thread, same⟩ := tested
    subst same
    rw [List.filterMap_cons_none silent]
    rfl
  · obtain ⟨silent, thread, same⟩ := woken
    subst same
    rw [List.filterMap_cons_none silent]
    rfl
  · obtain ⟨action, result, isAction, acts, same⟩ := acted
    subst same
    rw [List.filterMap_cons_some isAction, List.filterMap_nil, run_cons, acts]
    rfl

theorem count_actions [DecidableEq α] (events : List (Event ι α)) (action : α) :
    (events.filterMap Event.action).count action = events.count (.act action) := by
  induction events with
  | nil => rfl
  | cons event rest ih =>
      cases event with
      | call thread | resume thread | spurious thread =>
          rw [List.filterMap_cons_none rfl, ih, List.count_cons_of_ne (by simp)]
      | act other =>
          have isAction : (Event.act other : Event ι α).action = some other := rfl
          rw [List.filterMap_cons_some isAction, List.count_cons, List.count_cons, ih]
          simp

/-- What a step can mean to one thread: it is woken, it tests, or it stays where
it is; an action that finds it blocked and leaves it so does not broadcast. -/
theorem thread_cases (stepped : step ready act monitor event = some next) (thread : ι) :
    next.phase thread = .woken ∨
      (next.shared = monitor.shared ∧
        next.phase thread = if ready monitor.shared then .returned else .blocked) ∨
      (next.shared = monitor.shared ∧ next.phase thread = monitor.phase thread) ∨
      next.phase thread = monitor.phase thread ∧ ∃ action result, act monitor.shared action = some result ∧
        next.shared = result.1 ∧ (monitor.phase thread = .blocked → result.2 = false) := by
  rcases step_cases stepped with tested | woken | acted
  · obtain ⟨-, tester, same⟩ := tested
    subst same
    by_cases isTester : thread = tester
    · subst isTester
      exact .inr (.inl ⟨rfl, Function.update_self ..⟩)
    · exact .inr (.inr (.inl ⟨rfl, Function.update_of_ne isTester ..⟩))
  · obtain ⟨-, sleeper, same⟩ := woken
    subst same
    by_cases isSleeper : thread = sleeper
    · subst isSleeper
      exact .inl (Function.update_self ..)
    · exact .inr (.inr (.inl ⟨rfl, Function.update_of_ne isSleeper ..⟩))
  · obtain ⟨action, result, -, acts, same⟩ := acted
    subst same
    by_cases roused : result.2 = true ∧ monitor.phase thread = .blocked
    · exact .inl (by simp [settle, roused.1, roused.2, wake])
    · refine .inr (.inr (.inr ⟨?_, action, result, acts, rfl, ?_⟩))
      · unfold settle
        cases broadcast : result.2 with
        | false => rfl
        | true =>
            exact wake_of_ne fun blocked => roused ⟨broadcast, blocked⟩
      · intro asleep
        exact Bool.eq_false_iff.mpr fun broadcast => roused ⟨broadcast, asleep⟩

/-- Where the state does not stop being ready, no wait returns early. -/
theorem ready_of_returned
    (stable : ∀ shared action result, act shared action = some result → ready shared → ready result.1)
    (initial : ∀ thread, start.phase thread = .returned → ready start.shared)
    (ran : run (step ready act) start events = some final) (returned : final.phase thread = .returned) :
    ready final.shared := by
  refine run_preserves (fun monitor => ∀ thread, monitor.phase thread = .returned → ready monitor.shared)
    initial ?_ ran thread returned
  intro monitor event next holds stepped thread nextReturned
  rcases thread_cases stepped thread with woken | tested | stayed | acted
  · rw [woken] at nextReturned
    cases nextReturned
  · rw [tested.2] at nextReturned
    split_ifs at nextReturned with isReady
    rw [tested.1]
    exact isReady
  · rw [stayed.1]
    exact holds thread (stayed.2.symm.trans nextReturned)
  · obtain ⟨samePhase, action, result, acts, shared, -⟩ := acted
    rw [shared]
    exact stable _ action result acts (holds thread (samePhase.symm.trans nextReturned))

/-- Where an action that makes the state ready broadcasts, nobody sleeps on in a
ready state: a thread goes to sleep under the mutex, after a test. -/
theorem not_ready_of_blocked
    (broadcasts : ∀ shared action result, act shared action = some result → ¬ ready shared → ready result.1 →
      result.2 = true)
    (initial : ∀ thread, start.phase thread = .blocked → ¬ ready start.shared)
    (ran : run (step ready act) start events = some final) (blocked : final.phase thread = .blocked) :
    ¬ ready final.shared := by
  refine run_preserves (fun monitor => ∀ thread, monitor.phase thread = .blocked → ¬ ready monitor.shared)
    initial ?_ ran thread blocked
  intro monitor event next holds stepped thread nextBlocked isReady
  rcases thread_cases stepped thread with woken | tested | stayed | acted
  · rw [woken] at nextBlocked
    cases nextBlocked
  · rw [tested.1] at isReady
    rw [tested.2, if_pos isReady] at nextBlocked
    cases nextBlocked
  · rw [stayed.1] at isReady
    exact holds thread (stayed.2.symm.trans nextBlocked) isReady
  · obtain ⟨samePhase, action, result, acts, shared, silent⟩ := acted
    have asleep := samePhase.symm.trans nextBlocked
    rw [shared] at isReady
    have roused := broadcasts _ action result acts (holds thread asleep) isReady
    rw [silent asleep] at roused
    cases roused

end Monitor

end NutServer.Library
