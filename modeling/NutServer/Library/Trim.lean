import Mathlib

/-!
# Trimming

Dropping blanks at both ends removes nothing but blanks, so a trimmed value is
what trimming leaves of a longer text exactly when only blanks follow it.
-/

set_option autoImplicit false

namespace NutServer.Library

universe u

variable {α : Type u} (blank : α → Bool)

def trim (values : List α) : List α := (values.dropWhile blank).rdropWhile blank

/-- No blank at either end. -/
structure Trimmed (values : List α) : Prop where
  front : values.dropWhile blank = values
  back : values.rdropWhile blank = values

instance decidableTrimmed [DecidableEq α] (values : List α) : Decidable (Trimmed blank values) :=
  decidable_of_iff (values.dropWhile blank = values ∧ values.rdropWhile blank = values)
    ⟨fun both => ⟨both.1, both.2⟩, fun trimmed => ⟨trimmed.front, trimmed.back⟩⟩

variable {blank} {values rest : List α} {value : α}

theorem trim_cons (isBlank : blank value = true) : trim blank (value :: values) = trim blank values := by
  rw [trim, List.dropWhile_cons_of_pos isBlank, trim]

theorem countP_dropWhile : (values.dropWhile blank).countP (fun value => !blank value) =
    values.countP (fun value => !blank value) := by
  induction values with
  | nil => rfl
  | cons value values ih =>
      cases isBlank : blank value with
      | true => simp [isBlank, ih]
      | false => simp [isBlank]

theorem countP_trim (blank : α → Bool) (values : List α) : (trim blank values).countP (fun value => !blank value) =
    values.countP (fun value => !blank value) := by
  rw [trim, List.rdropWhile, List.countP_reverse, countP_dropWhile, List.countP_reverse, countP_dropWhile]

theorem dropWhile_append_trimmed (trimmed : Trimmed blank values) (some : values ≠ []) :
    (values ++ rest).dropWhile blank = values ++ rest := by
  cases values with
  | nil => exact absurd rfl some
  | cons value values =>
      have first : ¬ blank value = true := by
        intro isBlank
        have shorter := congrArg List.length trimmed.front
        rw [List.dropWhile_cons_of_pos isBlank] at shorter
        have least := (List.dropWhile_suffix (l := values) blank).length_le
        rw [List.length_cons] at shorter
        omega
      rw [List.cons_append, List.dropWhile_cons_of_neg first]

theorem rdropWhile_append_blanks (trimmed : Trimmed blank values) (blanks : ∀ value ∈ rest, blank value = true) :
    (values ++ rest).rdropWhile blank = values := by
  have skipped : ∀ value ∈ rest.reverse, blank value = true :=
    fun value member => blanks value (List.mem_reverse.mp member)
  rw [List.rdropWhile, List.reverse_append, List.dropWhile_append_of_pos skipped]
  exact trimmed.back

theorem trim_append_eq_iff (trimmed : Trimmed blank values) :
    trim blank (values ++ rest) = values ↔ ∀ value ∈ rest, blank value = true := by
  constructor
  · intro same
    have count := countP_trim blank (values ++ rest)
    rw [same, List.countP_append] at count
    have none : rest.countP (fun value => !blank value) = 0 := by omega
    intro value member
    have kept := List.countP_eq_zero.mp none value member
    simpa using kept
  · intro blanks
    cases values with
    | nil =>
        have nothing : rest.dropWhile blank = [] := List.dropWhile_eq_nil_iff.mpr blanks
        rw [trim, List.nil_append, nothing, List.rdropWhile_nil]
    | cons value values =>
        rw [trim, dropWhile_append_trimmed trimmed (List.cons_ne_nil _ _), rdropWhile_append_blanks trimmed blanks]

end NutServer.Library
