import NutServer.Library.Machine

/-!
# Progress

Where every state short of a goal has an action that brings it nearer, the goal
is reached in as many actions as the distance says.
-/

set_option autoImplicit false

namespace NutServer.Library

universe u v

variable {σ : Type u} {α : Type v} {step : σ → α → Option σ}

theorem exists_run_of_progress (invariant goal : σ → Prop) (helpful : α → Prop) (distance : σ → Nat)
    (progress : ∀ state, invariant state → ¬ goal state → ∃ action next, helpful action ∧
      step state action = some next ∧ invariant next ∧ distance next < distance state)
    (start : σ) (initial : invariant start) :
    ∃ actions final, (∀ action ∈ actions, helpful action) ∧ actions.length ≤ distance start ∧
      run step start actions = some final ∧ invariant final ∧ goal final := by
  induction far : distance start using Nat.strong_induction_on generalizing start with
  | _ far' ih =>
      subst far
      by_cases reached : goal start
      · exact ⟨[], start, fun action member => absurd member List.not_mem_nil, Nat.zero_le _, rfl, initial, reached⟩
      · obtain ⟨action, next, helps, stepped, kept, nearer⟩ := progress start initial reached
        obtain ⟨actions, final, help, short, ran, finalKept, isGoal⟩ := ih (distance next) nearer next kept rfl
        refine ⟨action :: actions, final, ?_, ?_, ?_, finalKept, isGoal⟩
        · intro other member
          cases List.mem_cons.mp member with
          | inl same => exact same ▸ helps
          | inr later => exact help other later
        · rw [List.length_cons]
          omega
        · rw [run_cons, stepped]
          exact ran

/-- Where the possible actions are known, a guarded run gets to its end exactly
when each of its actions is one of them. -/
theorem run_isSome_iff_along (invariant : σ → Prop) (guard possible : σ → α → Prop)
    (iff : ∀ state action, invariant state → guard state action →
      ((∃ next, step state action = some next) ↔ possible state action))
    (preserved : ∀ state action next, invariant state → guard state action →
      step state action = some next → invariant next)
    {start : σ} {actions : List α} (initial : invariant start) (along : Along step guard start actions) :
    (∃ final, run step start actions = some final) ↔ Along step possible start actions := by
  induction actions generalizing start with
  | nil => exact ⟨fun _ => trivial, fun _ => ⟨start, rfl⟩⟩
  | cons action rest ih =>
      obtain ⟨guarded, alongRest⟩ := along
      constructor
      · rintro ⟨final, ran⟩
        obtain ⟨next, stepped, ranRest⟩ := Option.bind_eq_some_iff.mp ran
        refine ⟨(iff start action initial guarded).mp ⟨next, stepped⟩, fun other same => ?_⟩
        cases stepped.symm.trans same
        exact (ih (preserved start action next initial guarded stepped) (alongRest next stepped)).mp ⟨final, ranRest⟩
      · rintro ⟨able, later⟩
        obtain ⟨next, stepped⟩ := (iff start action initial guarded).mpr able
        obtain ⟨final, ran⟩ :=
          (ih (preserved start action next initial guarded stepped) (alongRest next stepped)).mpr (later next stepped)
        exact ⟨final, by rw [run_cons, stepped]; exact ran⟩

end NutServer.Library
