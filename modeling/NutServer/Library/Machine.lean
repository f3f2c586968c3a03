import Mathlib

/-!
# Partial deterministic machines

An action takes a state to at most one next state. Runs, invariants over the
actions performed so far, and refinement of a total abstract machine.
-/

set_option autoImplicit false

namespace NutServer.Library

universe u v w

variable {σ : Type u} {α : Type v} {τ : Type w}

/-- Perform the actions in order. An impossible action ends the run with `none`. -/
def run (step : σ → α → Option σ) : σ → List α → Option σ
  | state, [] => some state
  | state, action :: rest => (step state action).bind fun next => run step next rest

/-- Every action is performed in a state that meets the guard. -/
def Along (step : σ → α → Option σ) (guard : σ → α → Prop) : σ → List α → Prop
  | _, [] => True
  | state, action :: rest =>
      guard state action ∧ ∀ next, step state action = some next → Along step guard next rest

instance decidableAlong (step : σ → α → Option σ) (guard : σ → α → Prop)
    [∀ state action, Decidable (guard state action)] :
    ∀ state actions, Decidable (Along step guard state actions)
  | _, [] => isTrue trivial
  | state, action :: rest =>
      match stepped : step state action with
      | none => decidable_of_iff (guard state action) (by simp [Along, stepped])
      | some next =>
          have := decidableAlong step guard next rest
          decidable_of_iff (guard state action ∧ Along step guard next rest) (by simp [Along, stepped])

/-- Every state of the run is good, the last one included. -/
def Throughout (step : σ → α → Option σ) (good : σ → Prop) : σ → List α → Prop
  | state, [] => good state
  | state, action :: rest =>
      good state ∧ ∀ next, step state action = some next → Throughout step good next rest

variable {step : σ → α → Option σ} {guard : σ → α → Prop} {start final : σ} {actions : List α}

@[simp] theorem run_nil : run step start [] = some start := rfl

@[simp] theorem run_cons {action : α} {rest : List α} :
    run step start (action :: rest) = (step start action).bind fun next => run step next rest :=
  rfl

theorem along_of_forall (always : ∀ state action, guard state action) : Along step guard start actions := by
  induction actions generalizing start with
  | nil => trivial
  | cons action rest ih => exact ⟨always start action, fun _ _ => ih⟩

theorem run_append {first second : List α} :
    run step start (first ++ second) =
      (run step start first).bind fun middle => run step middle second := by
  induction first generalizing start with
  | nil => rfl
  | cons action rest ih =>
      cases stepped : step start action with
      | none => simp [stepped]
      | some next => simp [stepped, ih]

theorem run_concat_iff {action : α} :
    run step start (actions ++ [action]) = some final ↔
      ∃ middle, run step start actions = some middle ∧ step middle action = some final := by
  simp [run_append, Option.bind_eq_some_iff]

theorem along_append_iff {first second : List α} :
    Along step guard start (first ++ second) ↔
      Along step guard start first ∧ ∀ middle, run step start first = some middle → Along step guard middle second := by
  induction first generalizing start with
  | nil => simp [Along]
  | cons action rest ih =>
      cases stepped : step start action with
      | none => simp [Along, stepped]
      | some next => simp [Along, stepped, ih, and_assoc]

/-- The first action that is performed against the guard. -/
theorem exists_of_not_along (unguarded : ¬ Along step guard start actions) :
    ∃ before action after middle, actions = before ++ action :: after ∧
      run step start before = some middle ∧ ¬ guard middle action := by
  induction actions generalizing start with
  | nil => exact absurd trivial unguarded
  | cons action rest ih =>
      by_cases guarded : guard start action
      · have later : ∃ next, step start action = some next ∧ ¬ Along step guard next rest := by
          by_contra none
          exact unguarded ⟨guarded, fun next stepped => by_contra fun not => none ⟨next, stepped, not⟩⟩
        obtain ⟨next, stepped, notLater⟩ := later
        obtain ⟨before, other, after, middle, rfl, ran, isOther⟩ := ih notLater
        exact ⟨action :: before, other, after, middle, rfl, by rw [run_cons, stepped, Option.bind_some, ran], isOther⟩
      · exact ⟨[], action, rest, start, rfl, rfl, guarded⟩

/-- An invariant that may mention the actions performed so far holds after
every run, once it holds at the start and each step carries it on. -/
theorem run_history (invariant : List α → σ → Prop)
    (initial : invariant [] start)
    (preserved : ∀ past state action next, invariant past state →
      step state action = some next → invariant (past ++ [action]) next)
    (ran : run step start actions = some final) : invariant actions final := by
  induction actions using List.reverseRecOn generalizing final with
  | nil =>
      cases ran
      exact initial
  | append_singleton past action ih =>
      obtain ⟨middle, before, last⟩ := run_concat_iff.mp ran
      exact preserved past middle action final (ih before) last

theorem run_preserves (invariant : σ → Prop) (initial : invariant start)
    (preserved : ∀ state action next, invariant state →
      step state action = some next → invariant next)
    (ran : run step start actions = some final) : invariant final :=
  run_history (fun _ state => invariant state) initial
    (fun _ state action next => preserved state action next) ran

/-- As `run_preserves`, where the steps are known to be those of the run. -/
theorem run_preserves_of_mem (invariant : σ → Prop) (initial : invariant start)
    (preserved : ∀ state, ∀ action ∈ actions, ∀ next, invariant state →
      step state action = some next → invariant next)
    (ran : run step start actions = some final) : invariant final := by
  induction actions generalizing start with
  | nil =>
      cases ran
      exact initial
  | cons action rest ih =>
      obtain ⟨next, stepped, ranRest⟩ := Option.bind_eq_some_iff.mp ran
      exact ih (preserved start action List.mem_cons_self next initial stepped)
        (fun state other member => preserved state other (List.mem_cons_of_mem _ member)) ranRest

/-- As `run_preserves`, where every step of the run keeps to a guard. -/
theorem run_preserves_along (invariant : σ → Prop) (initial : invariant start)
    (preserved : ∀ state action next, invariant state → guard state action →
      step state action = some next → invariant next)
    (along : Along step guard start actions) (ran : run step start actions = some final) : invariant final := by
  induction actions generalizing start with
  | nil =>
      cases ran
      exact initial
  | cons action rest ih =>
      obtain ⟨next, stepped, ranRest⟩ := Option.bind_eq_some_iff.mp ran
      exact ih (preserved start action next initial along.1 stepped) (along.2 next stepped) ranRest

/-- Where every guarded step is possible and keeps the invariant, a guarded
run reaches its end. -/
theorem run_total (invariant : List α → σ → Prop)
    (initial : invariant [] start)
    (progress : ∀ past state action, invariant past state → guard state action →
      ∃ next, step state action = some next ∧ invariant (past ++ [action]) next)
    (along : Along step guard start actions) :
    ∃ final, run step start actions = some final ∧ invariant actions final := by
  have continued : ∀ rest past state, invariant past state → Along step guard state rest →
      ∃ final, run step state rest = some final ∧ invariant (past ++ rest) final := by
    intro rest
    induction rest with
    | nil => exact fun past state holds _ => ⟨state, rfl, by simpa using holds⟩
    | cons action rest ih =>
        intro past state holds alongRest
        obtain ⟨next, stepped, kept⟩ := progress past state action holds alongRest.1
        obtain ⟨final, ran, finished⟩ := ih (past ++ [action]) next kept (alongRest.2 next stepped)
        exact ⟨final, by simp [stepped, ran], by simpa using finished⟩
  simpa using continued actions [] start initial along

/-- Guarded runs refine the abstract machine `abstractStep` through the view
`view`: they reach their end, keep `valid`, and show the abstract result. -/
theorem run_refines (valid : σ → Prop) (view : σ → τ) (abstractStep : τ → α → τ)
    (initial : valid start)
    (commutes : ∀ state action, valid state → guard state action →
      ∃ next, step state action = some next ∧ valid next ∧
        view next = abstractStep (view state) action)
    (along : Along step guard start actions) :
    ∃ final, run step start actions = some final ∧ valid final ∧
      view final = actions.foldl abstractStep (view start) := by
  refine run_total (fun past state =>
    valid state ∧ view state = past.foldl abstractStep (view start)) ⟨initial, rfl⟩ ?_ along
  rintro past state action ⟨holds, shown⟩ allowed
  obtain ⟨next, stepped, kept, shows⟩ := commutes state action holds allowed
  exact ⟨next, stepped, kept, by simp [shows, shown]⟩

/-- Where guarded steps keep an invariant that implies `good`, and an unguarded
step leads to states that are not good and never become so again, a run ends
well exactly when it was guarded. -/
theorem run_good_iff (invariant good lost : σ → Prop) (initial : invariant start)
    (implies : ∀ state, invariant state → good state)
    (excludes : ∀ state, lost state → ¬ good state)
    (keeps : ∀ state action next, invariant state → guard state action →
      step state action = some next → invariant next)
    (breaks : ∀ state action next, invariant state → ¬ guard state action →
      step state action = some next → lost next)
    (stays : ∀ state action next, lost state → step state action = some next → lost next)
    (ran : run step start actions = some final) :
    good final ↔ Along step guard start actions := by
  induction actions generalizing start with
  | nil =>
      cases ran
      exact iff_of_true (implies _ initial) trivial
  | cons action rest ih =>
      obtain ⟨next, stepped, ranRest⟩ := Option.bind_eq_some_iff.mp ran
      by_cases guarded : guard start action
      · rw [ih (keeps _ _ _ initial guarded stepped) ranRest]
        constructor
        · intro along
          refine ⟨guarded, fun other reached => ?_⟩
          cases stepped.symm.trans reached
          exact along
        · exact fun along => along.2 next stepped
      · have lostForEver := run_preserves lost (breaks _ _ _ initial guarded stepped) stays ranRest
        exact iff_of_false (excludes _ lostForEver) fun along => guarded along.1

theorem Throughout.first {good : σ → Prop} (throughout : Throughout step good start actions) : good start := by
  cases actions with
  | nil => exact throughout
  | cons => exact throughout.1

theorem throughout_of_along (invariant good : σ → Prop) (initial : invariant start)
    (implies : ∀ state, invariant state → good state)
    (keeps : ∀ state action next, invariant state → guard state action →
      step state action = some next → invariant next)
    (along : Along step guard start actions) : Throughout step good start actions := by
  induction actions generalizing start with
  | nil => exact implies start initial
  | cons action rest ih =>
      obtain ⟨guarded, later⟩ := along
      exact ⟨implies start initial, fun next stepped =>
        ih (keeps start action next initial guarded stepped) (later next stepped)⟩

/-- Where every guarded step is possible and keeps an invariant that implies
`good`, a guarded run reaches its end through good states. -/
theorem run_throughout (invariant good : σ → Prop) (initial : invariant start)
    (implies : ∀ state, invariant state → good state)
    (progress : ∀ state action, invariant state → guard state action →
      ∃ next, step state action = some next ∧ invariant next)
    (along : Along step guard start actions) :
    (∃ final, run step start actions = some final) ∧ Throughout step good start actions := by
  constructor
  · obtain ⟨final, ran, -⟩ := run_total (fun _ => invariant) initial (fun _ => progress) along
    exact ⟨final, ran⟩
  · refine throughout_of_along invariant good initial implies ?_ along
    intro state action next holds guarded stepped
    obtain ⟨other, same, kept⟩ := progress state action holds guarded
    cases stepped.symm.trans same
    exact kept

/-- Where guarded steps keep an invariant that implies `good`, and an unguarded
step leads to a state that is not good, the states of a run are all good exactly
when it was guarded. -/
theorem throughout_iff_along (invariant good : σ → Prop) (initial : invariant start)
    (implies : ∀ state, invariant state → good state)
    (keeps : ∀ state action next, invariant state → guard state action →
      step state action = some next → invariant next)
    (breaks : ∀ state action next, invariant state → ¬ guard state action →
      step state action = some next → ¬ good next)
    (ran : run step start actions = some final) :
    Throughout step good start actions ↔ Along step guard start actions := by
  refine ⟨fun throughout => ?_, throughout_of_along invariant good initial implies keeps⟩
  induction actions generalizing start with
  | nil => trivial
  | cons action rest ih =>
      obtain ⟨next, stepped, ranRest⟩ := Option.bind_eq_some_iff.mp ran
      have later := throughout.2 next stepped
      have guarded : guard start action := by
        by_contra unguarded
        exact breaks start action next initial unguarded stepped later.first
      refine ⟨guarded, fun other reached => ?_⟩
      cases stepped.symm.trans reached
      exact ih (keeps start action next initial guarded stepped) ranRest later

end NutServer.Library
