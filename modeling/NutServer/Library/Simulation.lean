import NutServer.Library.Machine

/-!
# Two machines side by side

A machine and a plainer one that takes the same actions, in states that are
related: where one of them has no next state, the other has none.
-/

set_option autoImplicit false

namespace NutServer.Library

universe u v w

variable {σ : Type u} {α : Type v} {τ : Type w}

/-- Both have an end and these are related, or neither has one. -/
inductive Alike (related : σ → τ → Prop) : Option σ → Option τ → Prop where
  | none : Alike related none none
  | some {left : σ} {right : τ} : related left right → Alike related (some left) (some right)

section Alike

variable {related : σ → τ → Prop} {left : Option σ} {right : Option τ}

theorem Alike.of_left {value : σ} (alike : Alike related (.some value) right) :
    ∃ other, right = Option.some other ∧ related value other := by
  cases alike with
  | some same => exact ⟨_, rfl, same⟩

theorem Alike.of_right {value : τ} (alike : Alike related left (.some value)) :
    ∃ other, left = Option.some other ∧ related other value := by
  cases alike with
  | some same => exact ⟨_, rfl, same⟩

theorem Alike.eq_none (alike : Alike related .none right) : right = Option.none := by
  cases alike with
  | none => rfl

end Alike

variable {step : σ → α → Option σ} {plainStep : τ → α → Option τ} {guard : σ → α → Prop} {related : σ → τ → Prop}

/-- Guarded runs stay side by side. -/
theorem run_alike (follows : ∀ state plain action, related state plain → guard state action →
      Alike related (step state action) (plainStep plain action))
    {start : σ} {plainStart : τ} (initial : related start plainStart) {actions : List α}
    (along : Along step guard start actions) :
    Alike related (run step start actions) (run plainStep plainStart actions) := by
  induction actions generalizing start plainStart with
  | nil => exact .some initial
  | cons action rest ih =>
      have stepped := follows start plainStart action initial along.1
      have later := along.2
      rw [run_cons, run_cons]
      cases ends : step start action with
      | none =>
          rw [ends] at stepped
          rw [stepped.eq_none]
          exact .none
      | some next =>
          rw [ends] at stepped
          obtain ⟨plainNext, plainEnds, same⟩ := stepped.of_left
          rw [plainEnds]
          exact ih same (later next ends)

end NutServer.Library
