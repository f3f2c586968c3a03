import NutServer.Library.Loop

/-!
# Outcomes of the modelled functions

A function of the source that can fail an assertion, leave the memory it was
given, follow a pointer to a deleted object or run for ever returns an `Outcome`.
-/

set_option autoImplicit false

namespace NutServer

open Library

inductive Fault where
  | assertion
  /-- A pair of pointers was no range of the object it pointed into. -/
  | range
  | dangling
  /-- A loop was still running after its last useful turn. -/
  | hang
  deriving DecidableEq, Repr

abbrev Outcome (α : Type) := Except Fault α

def assert (condition : Prop) [Decidable condition] : Outcome Unit :=
  if condition then .ok () else .error .assertion

@[simp] theorem assert_ok_iff {condition : Prop} [Decidable condition] {result : Unit} :
    assert condition = .ok result ↔ condition := by
  unfold assert
  split_ifs with holds <;> simp [holds]

theorem assert_of {condition : Prop} [Decidable condition] (holds : condition) :
    assert condition = .ok () := if_pos holds

/-- What a lookup has to find. -/
def demand {α : Type} (found : Option α) (fault : Fault) : Outcome α := found.elim (.error fault) .ok

@[simp] theorem demand_some {α : Type} {value : α} {fault : Fault} : demand (some value) fault = .ok value := rfl

theorem Outcome.bind_eq_ok_iff {α β : Type} {first : Outcome α} {next : α → Outcome β} {result : β} :
    first >>= next = .ok result ↔ ∃ value, first = .ok value ∧ next value = .ok result := by
  cases first with
  | error fault => simp [bind, Except.bind]
  | ok value => simp [bind, Except.bind]

@[simp] theorem Outcome.ok_bind {α β : Type} {value : α} {next : α → Outcome β} :
    (Except.ok value : Outcome α) >>= next = next value := rfl

theorem Outcome.toOption_eq_some_iff {α : Type} {outcome : Outcome α} {value : α} :
    outcome.toOption = some value ↔ outcome = .ok value := by
  cases outcome <;> simp [Except.toOption]

theorem Outcome.map_eq_ok_iff {α β : Type} {outcome : Outcome α} {change : α → β} {result : β} :
    outcome.map change = .ok result ↔ ∃ value, outcome = .ok value ∧ change value = result := by
  cases outcome <;> simp [Except.map]

theorem Outcome.map_bind {α β γ : Type} {first : Outcome α} {next : α → Outcome β} {change : β → γ} :
    (first >>= next).map change = first >>= fun value => (next value).map change := by
  cases first <;> rfl

def Outcome.fault {α : Type} : Outcome α → Option Fault
  | .ok _ => none
  | .error fault => some fault

theorem Outcome.fault_eq_some_iff {α : Type} {outcome : Outcome α} {fault : Fault} :
    outcome.fault = some fault ↔ outcome = .error fault := by
  cases outcome <;> simp [Outcome.fault]

theorem Outcome.bind_pure_eq_ok_iff {α β : Type} {first : Outcome α} {next : α → β} {result : β} :
    (first >>= fun value => pure (next value)) = .ok result ↔
      ∃ value, first = .ok value ∧ next value = result := by
  simp only [Outcome.bind_eq_ok_iff, pure, Except.pure, Except.ok.injEq]

/-- The steps of the machines: an action that is not enabled, or fails, has no next state. -/
theorem Outcome.ite_toOption_eq_some_iff {α : Type} {enabled : Prop} [Decidable enabled]
    {outcome : Outcome α} {value : α} :
    (if enabled then outcome.toOption else none) = some value ↔ enabled ∧ outcome = .ok value := by
  split_ifs with holds
  · simp [holds, Outcome.toOption_eq_some_iff]
  · simp [holds]

/-- A fault ends the loop it happens in. -/
def turnOf {σ β : Type} : Outcome (Turn σ β) → Turn σ (Outcome β)
  | .error fault => .leave (.error fault)
  | .ok (.again locals) => .again locals
  | .ok (.leave result) => .leave (.ok result)

/-- A loop whose turns may fail, watched for a number of turns. -/
def watch {σ β : Type} (body : σ → Outcome (Turn σ β)) (turns : Nat) (locals : σ) : Outcome β :=
  (loop (fun locals => turnOf (body locals)) turns locals).getD (.error .hang)

def Finishes {σ β : Type} (body : σ → Outcome (Turn σ β)) (locals : σ) : Prop :=
  Terminates (fun locals => turnOf (body locals)) locals

section Watch

variable {σ β : Type} {body : σ → Outcome (Turn σ β)} {locals next : σ} {result : β} {turns : Nat}

theorem watch_again (again : body locals = .ok (.again next)) :
    watch body (turns + 1) locals = watch body turns next := by
  rw [watch, loop_again (by rw [again]; rfl), watch]

theorem watch_leave (left : body locals = .ok (.leave result)) :
    watch body (turns + 1) locals = .ok result := by
  rw [watch, loop_leave (by rw [left]; rfl)]
  rfl

theorem watch_stuck (stuck : body locals = .ok (.again locals)) : watch body turns locals = .error .hang := by
  have running : loop (fun locals => turnOf (body locals)) turns locals = none := by
    induction turns with
    | zero => rfl
    | succ turns ih => rw [loop_again (by rw [stuck]; rfl), ih]
  rw [watch, running]
  rfl

theorem turnOf_eq_again_iff {outcome : Outcome (Turn σ β)} :
    turnOf outcome = .again next ↔ outcome = .ok (.again next) := by
  cases outcome with
  | error fault => simp [turnOf]
  | ok turn => cases turn <;> simp [turnOf]

theorem finishes_of_watch (returned : watch body turns locals = .ok result) :
    Finishes body locals := by
  cases ended : loop (fun locals => turnOf (body locals)) turns locals with
  | none => simp [watch, ended] at returned
  | some outcome => exact ⟨turns, outcome, ended⟩

theorem not_finishes_of_stuck (stuck : body locals = .ok (.again locals)) :
    ¬ Finishes body locals :=
  not_terminates_of_stuck (by rw [stuck]; rfl)

end Watch

/-- `size_t` subtraction: below zero it wraps round 2^64. -/
def sizeSub (left right : Nat) : Nat :=
  if right ≤ left then left - right else 2 ^ 64 - (right - left)

theorem sizeSub_of_le {left right : Nat} (ordered : right ≤ left) :
    sizeSub left right = left - right := if_pos ordered

/-- `size_t` addition, modulo 2^64. -/
def sizeAdd (left right : Nat) : Nat := (left + right) % 2 ^ 64

theorem sizeAdd_of_lt {left right : Nat} (fits : left + right < 2 ^ 64) :
    sizeAdd left right = left + right := Nat.mod_eq_of_lt fits

/-- A `std::string` or a byte array. -/
abbrev Bytes := List UInt8

def ascii (text : String) : Bytes := text.toList.map fun char => char.toNat.toUInt8

end NutServer
