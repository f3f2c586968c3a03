import NutServer.Library.Machine

/-!
# High-water marks

A machine is run beside the largest value that a measure of its states has had.
A size that a step either keeps or covers by a bound on the new measure is
covered by the bound on the largest measure, after runs of any length.
-/

set_option autoImplicit false

namespace NutServer.Library

universe u v

variable {σ : Type u} {α : Type v}

structure Peaked (σ : Type u) where
  state : σ
  peak : Nat
  deriving DecidableEq, Repr

/-- A step, and the measure of the state it leads to. -/
def peakStep (step : σ → α → Option σ) (measure : σ → Nat) (peaked : Peaked σ) (action : α) :
    Option (Peaked σ) :=
  (step peaked.state action).map fun next => ⟨next, max peaked.peak (measure next)⟩

variable {step : σ → α → Option σ} {guard : σ → α → Prop} {measure : σ → Nat}
  {start final : Peaked σ} {actions : List α}

theorem peakStep_eq_some_iff {action : α} {next : Peaked σ} :
    peakStep step measure start action = some next ↔
      step start.state action = some next.state ∧ next.peak = max start.peak (measure next.state) := by
  rw [peakStep, Option.map_eq_some_iff]
  constructor
  · intro marked
    obtain ⟨state, stepped, rfl⟩ := marked
    exact ⟨stepped, rfl⟩
  · intro both
    obtain ⟨stepped, highest⟩ := both
    exact ⟨next.state, stepped, by rw [← highest]⟩

/-- Where guarded steps keep an invariant, and each of them leaves a size that
it found or that the new measure covers, the size never exceeds what the
largest measure covers. -/
theorem run_peak_bound (start : Peaked σ) (invariant : σ → Prop) (size : σ → Nat) (base : Nat)
    (cover : Nat → Nat) (monotone : Monotone cover)
    (initial : invariant start.state) (covered : size start.state ≤ max base (cover start.peak))
    (progress : ∀ state action, invariant state → guard state action →
      ∃ next, step state action = some next ∧ invariant next ∧
        size next ≤ max (size state) (cover (measure next)))
    (along : Along step guard start.state actions) :
    ∃ final, run (peakStep step measure) start actions = some final ∧ invariant final.state ∧
      size final.state ≤ max base (cover final.peak) := by
  induction actions generalizing start with
  | nil => exact ⟨start, rfl, initial, covered⟩
  | cons action rest ih =>
      obtain ⟨guarded, later⟩ := along
      obtain ⟨state, stepped, kept, grown⟩ := progress start.state action initial guarded
      let next : Peaked σ := ⟨state, max start.peak (measure state)⟩
      have marked : peakStep step measure start action = some next :=
        peakStep_eq_some_iff.mpr ⟨stepped, rfl⟩
      have before : cover start.peak ≤ cover next.peak := monotone (Nat.le_max_left _ _)
      have here : cover (measure state) ≤ cover next.peak := monotone (Nat.le_max_right _ _)
      have nextCovered : size state ≤ max base (cover next.peak) := by omega
      obtain ⟨final, ran, finalKept, bounded⟩ := ih next kept nextCovered (later state stepped)
      exact ⟨final, by rw [run_cons, marked]; exact ran, finalKept, bounded⟩

end NutServer.Library
