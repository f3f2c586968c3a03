import Mathlib

/-!
# While loops

A loop body either goes round again with new locals or leaves with a result.
Whether a loop ends is a statement about all turn counts; the bounded runner
below is what definitions compute with.
-/

set_option autoImplicit false

namespace NutServer.Library

universe u v

inductive Turn (σ : Type u) (β : Type v) where
  | again (locals : σ)
  | leave (result : β)
  deriving DecidableEq, Repr

variable {σ : Type u} {β : Type v}

/-- Go round at most `turns` times; `none` when the loop is still running then. -/
def loop (body : σ → Turn σ β) : Nat → σ → Option β
  | 0, _ => none
  | turns + 1, locals =>
      match body locals with
      | .again next => loop body turns next
      | .leave result => some result

def Terminates (body : σ → Turn σ β) (locals : σ) : Prop :=
  ∃ turns result, loop body turns locals = some result

/-- The locals at the start of some turn. -/
inductive Reaches (body : σ → Turn σ β) (start : σ) : σ → Prop where
  | here : Reaches body start start
  | again {locals next : σ} (before : Reaches body start locals) (turn : body locals = .again next) :
      Reaches body start next

variable {body : σ → Turn σ β} {locals next : σ} {result : β} {turns : Nat}

theorem loop_again (again : body locals = .again next) :
    loop body (turns + 1) locals = loop body turns next := by
  simp only [loop, again]

theorem loop_leave (left : body locals = .leave result) :
    loop body (turns + 1) locals = some result := by
  simp only [loop, left]

theorem not_terminates_of_stuck (stuck : body locals = .again locals) :
    ¬ Terminates body locals := by
  rintro ⟨turns, result, ended⟩
  induction turns with
  | zero => cases ended
  | succ turns ih =>
      rw [loop_again stuck] at ended
      exact ih ended

theorem Reaches.preserves {start : σ} (invariant : σ → Prop) (initial : invariant start)
    (preserved : ∀ locals next, invariant locals → body locals = .again next → invariant next)
    (reached : Reaches body start locals) : invariant locals := by
  induction reached with
  | here => exact initial
  | again before turn ih => exact preserved _ _ ih turn

end NutServer.Library
