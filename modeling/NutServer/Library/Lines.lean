import NutServer.Library.Search

/-!
# Texts of lines

A text is cut at the first occurrence of a separator, and a paragraph is read
line by line up to the first empty line. Both give back what was written, as
long as the parts do not contain the first byte of the separator.
-/

set_option autoImplicit false

namespace NutServer.Library

universe u

variable {α : Type u} [DecidableEq α]

/-- The parts before and behind the first occurrence. -/
def splitFirst (separator text : List α) : Option (List α × List α) :=
  (searchFor separator text).map fun position =>
    (text.take position, text.drop (position + separator.length))

/-- The lines up to the first empty one, and what follows that one. At most
`count` lines are read. -/
def paragraph (separator : List α) : Nat → List α → Option (List (List α) × List α)
  | 0, _ => none
  | count + 1, text => do
      let (line, rest) ← splitFirst separator text
      if line = [] then return ([], rest)
      else
        let (lines, behind) ← paragraph separator count rest
        return (line :: lines, behind)

variable {line rest more : List α} {mark : α} {lines : List (List α)} {count : Nat}

theorem splitFirst_line (absent : mark ∉ line) :
    splitFirst (mark :: more) (line ++ (mark :: more) ++ rest) = some (line, rest) := by
  rw [splitFirst, searchFor_line absent, Option.map_some, List.append_assoc, List.take_left,
    ← List.drop_drop, List.drop_left, List.drop_left]

theorem paragraph_lines (inside : ∀ line ∈ lines, mark ∉ line ∧ line ≠ []) (enough : lines.length < count) :
    paragraph (mark :: more)
      count (lines.flatMap (· ++ (mark :: more)) ++ (mark :: more) ++ rest) = some (lines, rest) := by
  induction lines generalizing count with
  | nil =>
      cases count with
      | zero => cases enough
      | succ count =>
          have first : splitFirst (mark :: more) ([] ++ (mark :: more) ++ rest) = some ([], rest) :=
            splitFirst_line List.not_mem_nil
          rw [paragraph, List.flatMap_nil, first]
          rfl
  | cons line lines ih =>
      cases count with
      | zero => cases enough
      | succ count =>
          obtain ⟨absent, nonempty⟩ := inside line List.mem_cons_self
          have others := ih (fun other member => inside other (List.mem_cons_of_mem _ member))
            (Nat.lt_of_succ_lt_succ enough)
          have first : splitFirst (mark :: more) (line ++ (mark :: more) ++
              (lines.flatMap (· ++ (mark :: more)) ++ (mark :: more) ++ rest)) =
              some (line, lines.flatMap (· ++ (mark :: more)) ++ (mark :: more) ++ rest) :=
            splitFirst_line absent
          rw [paragraph, List.flatMap_cons, List.append_assoc, List.append_assoc, ← List.append_assoc _ _ rest,
            first]
          simp only [Option.bind_eq_bind, Option.bind_some, if_neg nonempty, others]
          rfl

end NutServer.Library
