import Mathlib

/-!
# First occurrence of a pattern

The search returns the first position at which a nonempty pattern begins. The
lemmas say what it finds in a text that is cut into lines by a mark.
-/

set_option autoImplicit false

namespace NutServer.Library

universe u

variable {α : Type u} [DecidableEq α]

/-- The first position at which the nonempty `pattern` begins. -/
def searchFor (pattern : List α) : List α → Option Nat
  | [] => none
  | value :: rest =>
      if pattern.isPrefixOf (value :: rest) then some 0
      else (searchFor pattern rest).map (· + 1)

variable {pattern text line rest more : List α} {mark value : α} {position : Nat}

theorem searchFor_some (found : searchFor pattern text = some position) :
    pattern <+: text.drop position ∧ ∀ earlier < position, ¬ pattern <+: text.drop earlier := by
  induction text generalizing position with
  | nil => cases found
  | cons value rest ih =>
      rw [searchFor] at found
      split_ifs at found with here
      · cases found
        exact ⟨List.isPrefixOf_iff_prefix.mp here, fun earlier before => absurd before (Nat.not_lt_zero earlier)⟩
      · obtain ⟨later, foundLater, rfl⟩ := Option.map_eq_some_iff.mp found
        obtain ⟨begins, first⟩ := ih foundLater
        refine ⟨begins, fun earlier before => ?_⟩
        cases earlier with
        | zero => exact fun begins => here (List.isPrefixOf_iff_prefix.mpr begins)
        | succ earlier => exact first earlier (by omega)

theorem searchFor_split (found : searchFor pattern text = some position) :
    text = text.take position ++ pattern ++ text.drop (position + pattern.length) := by
  obtain ⟨tail, begins⟩ := (searchFor_some found).1
  have dropped : text.drop (position + pattern.length) = tail := by
    rw [← List.drop_drop, ← begins, List.drop_left]
  rw [dropped, List.append_assoc, begins, List.take_append_drop]

theorem searchFor_bound (nonempty : pattern ≠ []) (found : searchFor pattern text = some position) :
    position + pattern.length ≤ text.length := by
  have lengths := (searchFor_some found).1.length_le
  have positive := List.length_pos_iff.mpr nonempty
  simp only [List.length_drop] at lengths
  omega

theorem searchFor_eq_none (needed : value ∈ pattern) (absent : value ∉ text) :
    searchFor pattern text = none := by
  cases found : searchFor pattern text with
  | none => rfl
  | some position =>
      obtain ⟨begins, _⟩ := searchFor_some found
      exact absurd (List.mem_of_mem_drop (begins.subset needed)) absent

theorem not_infix_of_searchFor (nonempty : pattern ≠ []) (missing : searchFor pattern text = none) :
    ¬ pattern <:+: text := by
  induction text with
  | nil => exact fun within => nonempty (List.infix_nil.mp within)
  | cons value rest ih =>
      rw [searchFor] at missing
      split_ifs at missing with here
      have later := ih (Option.map_eq_none_iff.mp missing)
      intro within
      rcases List.infix_cons_iff.mp within with begins | behind
      · exact here (List.isPrefixOf_iff_prefix.mpr begins)
      · exact later behind

theorem searchFor_skip (absent : mark ∉ line) :
    searchFor (mark :: more) (line ++ rest) =
      (searchFor (mark :: more) rest).map (· + line.length) := by
  induction line with
  | nil => simp
  | cons value line ih =>
      simp only [List.mem_cons, not_or] at absent
      rw [List.cons_append, searchFor, ih absent.2, if_neg, Option.map_map]
      · rfl
      · simp [List.isPrefixOf, absent.1]

theorem searchFor_here : searchFor (mark :: more) (mark :: more ++ rest) = some 0 := by
  rw [List.cons_append, searchFor, if_pos]
  exact List.isPrefixOf_iff_prefix.mpr (List.prefix_append (mark :: more) rest)

theorem searchFor_line (absent : mark ∉ line) :
    searchFor (mark :: more) (line ++ (mark :: more) ++ rest) = some line.length := by
  rw [List.append_assoc, searchFor_skip absent, searchFor_here]
  simp

theorem idxOf?_append_cons (absent : mark ∉ line) :
    (line ++ mark :: rest).idxOf? mark = some line.length := by
  induction line with
  | nil => simp [List.idxOf?_cons]
  | cons value line ih =>
      simp only [List.mem_cons, not_or] at absent
      simp [List.idxOf?_cons, ih absent.2, Ne.symm absent.1]

/-- The first mark cuts the text in two. -/
theorem split_of_idxOf? (found : text.idxOf? mark = some position) :
    text = text.take position ++ mark :: text.drop (position + 1) ∧ mark ∉ text.take position := by
  obtain ⟨inside, here, first⟩ := List.idxOf?_eq_some_iff.mp found
  constructor
  · conv_lhs => rw [← List.take_append_drop position text, List.drop_eq_getElem_cons inside, here]
  · intro member
    obtain ⟨earlier, before, same⟩ := List.mem_take_iff_getElem.mp member
    exact first earlier (by omega) same

end NutServer.Library
