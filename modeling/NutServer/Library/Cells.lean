import Mathlib

/-!
# Arrays as lists of cells

Segments between two positions, stores of consecutive values, and the forward
element-by-element copy inside one array, which tolerates an overlap as long as
the data moves towards the front.
-/

set_option autoImplicit false

namespace NutServer.Library

universe u

variable {α : Type u}

/-- The cells from `first` up to, not including, `last`. -/
def slice (cells : List α) (first last : Nat) : List α :=
  (cells.take last).drop first

def overwrite (cells : List α) (start : Nat) (data : List α) : List α :=
  cells.take start ++ data ++ cells.drop (start + data.length)

variable {cells data : List α} {first middle last start : Nat}

theorem getElem?_slice (index : Nat) :
    (slice cells first last)[index]? = if first + index < last then cells[first + index]? else none := by
  simp [slice, List.getElem?_drop, List.getElem?_take]

theorem getElem?_overwrite (inside : start ≤ cells.length) (index : Nat) :
    (overwrite cells start data)[index]? =
      if index < start then cells[index]?
      else if index < start + data.length then data[index - start]?
      else cells[index]? := by
  have front : (cells.take start).length = start := by simp [inside]
  unfold overwrite
  split_ifs with before within
  · rw [List.append_assoc, List.getElem?_append_left (by omega), List.getElem?_take_of_lt before]
  · rw [List.append_assoc, List.getElem?_append_right (by omega), front,
      List.getElem?_append_left (by omega)]
  · have whole : (cells.take start ++ data).length = start + data.length := by simp [inside]
    rw [List.getElem?_append_right (by omega), whole, List.getElem?_drop]
    congr 1
    omega

@[simp] theorem length_slice :
    (slice cells first last).length = min last cells.length - first := by
  simp [slice]

theorem length_overwrite (fits : start + data.length ≤ cells.length) :
    (overwrite cells start data).length = cells.length := by
  simp only [overwrite, List.length_append, List.length_take, List.length_drop]
  omega

@[simp] theorem slice_self : slice cells first first = [] := by
  simp [slice]

theorem slice_cons {value : α} (inside : first < last) (present : cells[first]? = some value) :
    slice cells first last = value :: slice cells (first + 1) last := by
  apply List.ext_getElem?
  intro index
  rw [getElem?_slice]
  cases index with
  | zero => simp [inside, present]
  | succ index =>
      have same : first + (index + 1) = first + 1 + index := by omega
      rw [List.getElem?_cons_succ, getElem?_slice, same]

theorem slice_append {first last : Nat} (middle : Nat) (ordered : first ≤ middle) (within : middle ≤ last) :
    slice cells first middle ++ slice cells middle last = slice cells first last := by
  have front : slice cells first middle = (slice cells first last).take (middle - first) := by
    simp only [slice, List.take_drop, List.take_take]
    congr 2
    omega
  have back : slice cells middle last = (slice cells first last).drop (middle - first) := by
    simp only [slice, List.drop_drop]
    congr 1
    omega
  rw [front, back, List.take_append_drop]

theorem slice_drop {count : Nat} :
    (slice cells first last).drop count = slice cells (first + count) last := by
  simp [slice, List.drop_drop]

theorem slice_take {count : Nat} (within : first + count ≤ last) :
    (slice cells first last).take count = slice cells first (first + count) := by
  simp only [slice, List.take_drop, List.take_take]
  congr 2
  omega

theorem slice_append_right (added : List α) (inside : last ≤ cells.length) :
    slice (cells ++ added) first last = slice cells first last := by
  simp [slice, List.take_append_of_le_length inside]

theorem slice_overwrite_self (data : List α) (inside : start ≤ cells.length) :
    slice (overwrite cells start data) start (start + data.length) = data := by
  apply List.ext_getElem?
  intro index
  rw [getElem?_slice]
  split_ifs with within
  · rw [getElem?_overwrite inside, if_neg (by omega), if_pos within]
    congr 1
    omega
  · exact (List.getElem?_eq_none (by omega)).symm

theorem slice_overwrite_frame (data : List α) (inside : start ≤ cells.length)
    (apart : last ≤ start ∨ start + data.length ≤ first) :
    slice (overwrite cells start data) first last = slice cells first last := by
  apply List.ext_getElem?
  intro index
  rw [getElem?_slice, getElem?_slice]
  split_ifs with within
  · rw [getElem?_overwrite inside]
    split_ifs with before covered
    · rfl
    · omega
    · rfl
  · rfl

theorem overwrite_cons {value : α} (inside : start < cells.length) :
    overwrite cells start (value :: data) = overwrite (cells.set start value) (start + 1) data := by
  have front : (cells.set start value).take (start + 1) = cells.take start ++ [value] := by
    rw [List.take_add_one, List.getElem?_set_self inside, List.take_set_of_le (Nat.le_refl start)]
    rfl
  have back : (cells.set start value).drop (start + 1 + data.length) =
      cells.drop (start + (value :: data).length) := by
    rw [List.drop_set_of_lt (by omega), List.length_cons]
    congr 1
    omega
  simp [overwrite, front, back]

theorem overwrite_append {more : List α} (inside : start + data.length ≤ cells.length) :
    overwrite (overwrite cells start data) (start + data.length) more = overwrite cells start (data ++ more) := by
  have front : (cells.take start ++ data).length = start + data.length := by
    rw [List.length_append, List.length_take]
    omega
  have taken : (overwrite cells start data).take (start + data.length) = cells.take start ++ data := by
    rw [overwrite, List.take_append_of_le_length (by rw [front]), List.take_of_length_le (by rw [front])]
  have dropped : (overwrite cells start data).drop (start + data.length + more.length) =
      cells.drop (start + (data ++ more).length) := by
    rw [overwrite, ← front, ← List.drop_drop, List.drop_left, List.drop_drop, front, List.length_append, Nat.add_assoc]
  rw [overwrite, taken, dropped, overwrite]
  simp only [List.append_assoc]

theorem take_overwrite {more : List α} (inside : start ≤ cells.length) :
    (overwrite cells start (data ++ more)).take (start + data.length) = cells.take start ++ data := by
  have front : (cells.take start ++ data).length = start + data.length := by
    rw [List.length_append, List.length_take]
    omega
  rw [overwrite, ← List.append_assoc, List.append_assoc, List.take_append_of_le_length (by rw [front]),
    List.take_of_length_le (by rw [front])]

/-- A segment that was stored is stored again in the other direction. -/
theorem overwrite_reverse {more : List α} (inside : start ≤ cells.length) :
    overwrite (overwrite cells start (data ++ more)) start
        (slice (overwrite cells start (data ++ more)) start (start + data.length)).reverse =
      overwrite cells start (data.reverse ++ more) := by
  have front : (cells.take start).length = start := by
    rw [List.length_take]
    omega
  have stored : slice (overwrite cells start (data ++ more)) start (start + data.length) = data := by
    rw [slice, take_overwrite inside, List.drop_left' front]
  have before : (overwrite cells start (data ++ more)).take start = cells.take start := by
    rw [overwrite, List.append_assoc, List.take_left' front]
  have behind : (overwrite cells start (data ++ more)).drop (start + data.length) =
      more ++ cells.drop (start + (data ++ more).length) := by
    rw [overwrite, ← List.drop_drop, List.append_assoc, List.drop_left' front, List.append_assoc, List.drop_left]
  rw [stored, overwrite, before, List.length_reverse, behind, overwrite]
  simp

def copyForward : Nat → List α → Nat → Nat → List α
  | 0, cells, _, _ => cells
  | count + 1, cells, source, target =>
      match cells[source]? with
      | none => cells
      | some value => copyForward count (cells.set target value) (source + 1) (target + 1)

@[simp] theorem length_copyForward (cells : List α) (count source target : Nat) :
    (copyForward count cells source target).length = cells.length := by
  induction count generalizing cells source target with
  | zero => rfl
  | succ count ih =>
      rw [copyForward]
      cases cells[source]? with
      | none => rfl
      | some value => rw [ih, List.length_set]

/-- A forward copy towards the front stores the original source cells, even
where the two segments overlap. -/
theorem copyForward_eq_overwrite (cells : List α) (count : Nat) {source target : Nat}
    (forward : target ≤ source)
    (inside : source + count ≤ cells.length) :
    copyForward count cells source target =
      overwrite cells target (slice cells source (source + count)) := by
  induction count generalizing cells source target with
  | zero => simp [copyForward, overwrite]
  | succ count ih =>
      have present : source < cells.length := by omega
      rw [copyForward, List.getElem?_eq_getElem present]
      simp only
      rw [ih _ (by omega) (by simp; omega)]
      -- The cell just stored lies before every cell still to be read.
      have unread : slice (cells.set target cells[source]) (source + 1) (source + 1 + count) =
          slice cells (source + 1) (source + 1 + count) := by
        apply List.ext_getElem?
        intro index
        rw [getElem?_slice, getElem?_slice, List.getElem?_set_ne (by omega)]
      have head : slice cells source (source + 1) = [cells[source]] := by
        apply List.ext_getElem?
        intro index
        rw [getElem?_slice]
        cases index with
        | zero => simp [present]
        | succ index => simp
      have whole : slice cells source (source + 1) ++ slice cells (source + 1) (source + (count + 1)) =
          slice cells source (source + (count + 1)) := slice_append (source + 1) (by omega) (by omega)
      rw [unread, ← whole, head, Nat.add_right_comm source 1 count, ← Nat.add_assoc,
        List.singleton_append, overwrite_cons (by omega)]

end NutServer.Library
