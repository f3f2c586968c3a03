import Mathlib

/-!
# Dense arrays

Items whose cells fill an array without a gap. Each listed item knows the place
of its cell; one in the middle is removed by swapping its cell with the last.
-/

set_option autoImplicit false

namespace NutServer.Library

universe u v

variable {α : Type u} {ι : Type v}

def swapCells (cells : List α) (first second : Nat) : List α :=
  cells[first]?.elim cells fun left =>
    cells[second]?.elim cells fun right => (cells.set first right).set second left

/-- `place` is where the listed items have their cells. -/
structure Dense (cells : List α) (owns : ι → α → Prop) (place : ι → Option Nat) : Prop where
  cell : ∀ item slot, place item = some slot → ∃ cell, cells[slot]? = some cell ∧ owns item cell
  owner : ∀ slot, slot < cells.length → ∃ item, place item = some slot
  apart : ∀ item other slot, place item = some slot → place other = some slot → item = other

variable {cells later : List α} {owns : ι → α → Prop} {place : ι → Option Nat} {item other : ι} {cell : α}
  {slot : Nat}

theorem swapCells_of_lt {second : Nat} (firstInside : slot < cells.length) (secondInside : second < cells.length) :
    swapCells cells slot second = (cells.set slot cells[second]).set second cells[slot] := by
  rw [swapCells, List.getElem?_eq_getElem firstInside, List.getElem?_eq_getElem secondInside]
  rfl

/-- Swapping a cell with the last and dropping it there moves the last cell into the gap. -/
theorem getElem?_dropLast_swapCells (inside : slot + 1 < cells.length) (index : Nat) :
    (swapCells cells slot (cells.length - 1)).dropLast[index]? =
      if index = slot then cells[cells.length - 1]? else if index + 1 < cells.length then cells[index]? else none := by
  have lastInside : cells.length - 1 < cells.length := by omega
  rw [swapCells_of_lt (by omega) lastInside, List.getElem?_dropLast, List.length_set, List.length_set]
  by_cases here : index = slot
  · subst here
    rw [if_pos (by omega), if_pos rfl, List.getElem?_set_ne (by omega), List.getElem?_set_self (by omega),
      List.getElem?_eq_getElem lastInside]
  · rw [if_neg here]
    by_cases before : index + 1 < cells.length
    · rw [if_pos before, if_pos (by omega), List.getElem?_set_ne (by omega), List.getElem?_set_ne (Ne.symm here)]
    · rw [if_neg before, if_neg (by omega)]

theorem length_dropLast_swapCells (inside : slot + 1 < cells.length) :
    (swapCells cells slot (cells.length - 1)).dropLast.length = cells.length - 1 := by
  rw [swapCells_of_lt (by omega) (by omega), List.length_dropLast, List.length_set, List.length_set]

theorem mem_of_mem_dropLast_swapCells (inside : slot + 1 < cells.length)
    (member : cell ∈ (swapCells cells slot (cells.length - 1)).dropLast) : cell ∈ cells := by
  obtain ⟨index, found⟩ := List.mem_iff_getElem?.mp member
  rw [getElem?_dropLast_swapCells inside] at found
  split_ifs at found
  · exact List.mem_of_getElem? found
  · exact List.mem_of_getElem? found

namespace Dense

theorem nil : Dense [] owns fun _ => none where
  cell item slot listed := by cases listed
  owner slot inside := by simp at inside
  apart item other slot listed := by cases listed

theorem inside (dense : Dense cells owns place) (listed : place item = some slot) : slot < cells.length := by
  obtain ⟨cell, found, -⟩ := dense.cell item slot listed
  exact (List.getElem?_eq_some_iff.mp found).1

theorem owns_of_getElem? (dense : Dense cells owns place) (listed : place item = some slot)
    (found : cells[slot]? = some cell) : owns item cell := by
  obtain ⟨own, ownFound, owned⟩ := dense.cell item slot listed
  cases ownFound.symm.trans found
  exact owned

/-- Cells may change as long as they stay their owners'. -/
theorem rewrite (dense : Dense cells owns place) (length : later.length = cells.length)
    (keeps : ∀ item slot cell next, place item = some slot → cells[slot]? = some cell → later[slot]? = some next →
      owns item cell → owns item next) : Dense later owns place where
  cell item slot listed := by
    have laterInside : slot < later.length := length ▸ dense.inside listed
    obtain ⟨cell, found, owned⟩ := dense.cell item slot listed
    have nextFound := List.getElem?_eq_getElem laterInside
    exact ⟨later[slot], nextFound, keeps item slot cell _ listed found nextFound owned⟩
  owner slot inside := dense.owner slot (length ▸ inside)
  apart := dense.apart

variable [DecidableEq ι]

theorem append (dense : Dense cells owns place) (unlisted : place item = none) (owned : owns item cell) :
    Dense (cells ++ [cell]) owns (Function.update place item (some cells.length)) where
  cell listed slot isListed := by
    by_cases same : listed = item
    · subst same
      rw [Function.update_self] at isListed
      cases isListed
      exact ⟨cell, by simp, owned⟩
    · rw [Function.update_of_ne same] at isListed
      obtain ⟨former, found, formerOwned⟩ := dense.cell listed slot isListed
      exact ⟨former, by rw [List.getElem?_append_left (dense.inside isListed), found], formerOwned⟩
  owner slot inside := by
    by_cases before : slot < cells.length
    · obtain ⟨listed, isListed⟩ := dense.owner slot before
      have different : listed ≠ item := by
        intro same
        rw [same, unlisted] at isListed
        cases isListed
      exact ⟨listed, by rw [Function.update_of_ne different, isListed]⟩
    · have last : slot = cells.length := by
        simp only [List.length_append, List.length_singleton] at inside
        omega
      exact ⟨item, by rw [Function.update_self, last]⟩
  apart first second slot firstListed secondListed := by
    rw [Function.update_apply] at firstListed secondListed
    split_ifs at firstListed secondListed with firstNew secondNew secondNew
    · exact firstNew.trans secondNew.symm
    · cases firstListed
      exact absurd (dense.inside secondListed) (lt_irrefl _)
    · cases secondListed
      exact absurd (dense.inside firstListed) (lt_irrefl _)
    · exact dense.apart first second slot firstListed secondListed

theorem removeLast (dense : Dense cells owns place) (listed : place item = some slot)
    (last : slot + 1 = cells.length) : Dense cells.dropLast owns (Function.update place item none) where
  cell other position isListed := by
    rw [Function.update_apply] at isListed
    split_ifs at isListed with same
    have elsewhere : position ≠ slot := by
      intro here
      exact same (dense.apart other item slot (here ▸ isListed) listed)
    obtain ⟨former, found, owned⟩ := dense.cell other position isListed
    have before := dense.inside isListed
    exact ⟨former, by rw [List.getElem?_dropLast, if_pos (by omega), found], owned⟩
  owner position inside := by
    rw [List.length_dropLast] at inside
    obtain ⟨other, isListed⟩ := dense.owner position (by omega)
    have different : other ≠ item := by
      intro same
      rw [same, listed] at isListed
      cases isListed
      omega
    exact ⟨other, by rw [Function.update_of_ne different, isListed]⟩
  apart first second position firstListed secondListed := by
    rw [Function.update_apply] at firstListed secondListed
    split_ifs at firstListed secondListed
    exact dense.apart first second position firstListed secondListed

/-- `other` owns the last cell, and takes over the place of `item`. -/
theorem removeSwap (dense : Dense cells owns place) (listed : place item = some slot)
    (inside : slot + 1 < cells.length) (isLast : place other = some (cells.length - 1)) :
    Dense (swapCells cells slot (cells.length - 1)).dropLast owns
      (Function.update (Function.update place other (some slot)) item none) := by
  have different : other ≠ item := by
    intro same
    rw [same, listed] at isLast
    cases isLast
    omega
  -- The items that are neither `item` nor `other` stay where they were.
  have stays : ∀ third position, third ≠ other → third ≠ item → place third = some position →
      position ≠ slot ∧ position + 1 < cells.length := by
    intro third position notOther notItem isListed
    have before := dense.inside isListed
    refine ⟨fun here => notItem (dense.apart third item slot (here ▸ isListed) listed), ?_⟩
    by_contra beyond
    have atEnd : position = cells.length - 1 := by omega
    exact notOther (dense.apart third other _ (atEnd ▸ isListed) isLast)
  refine ⟨?_, ?_, ?_⟩
  · intro third position isListed
    rw [Function.update_apply, Function.update_apply] at isListed
    split_ifs at isListed with isItem isOther
    · cases isListed
      subst isOther
      obtain ⟨former, found, owned⟩ := dense.cell third _ isLast
      exact ⟨former, by rw [getElem?_dropLast_swapCells inside, if_pos rfl, found], owned⟩
    · obtain ⟨former, found, owned⟩ := dense.cell third position isListed
      obtain ⟨elsewhere, before⟩ := stays third position isOther isItem isListed
      exact ⟨former, by rw [getElem?_dropLast_swapCells inside, if_neg elsewhere, if_pos before, found], owned⟩
  · intro position positionInside
    rw [length_dropLast_swapCells inside] at positionInside
    by_cases here : position = slot
    · exact ⟨other, by rw [Function.update_of_ne different, Function.update_self, here]⟩
    · obtain ⟨third, isListed⟩ := dense.owner position (by omega)
      have notItem : third ≠ item := by
        intro same
        rw [same, listed] at isListed
        cases isListed
        exact here rfl
      have notOther : third ≠ other := by
        intro same
        rw [same, isLast] at isListed
        cases isListed
        omega
      exact ⟨third, by rw [Function.update_of_ne notItem, Function.update_of_ne notOther, isListed]⟩
  · intro first second position firstListed secondListed
    rw [Function.update_apply, Function.update_apply] at firstListed secondListed
    split_ifs at firstListed secondListed with firstItem firstOther secondItem secondOther
    · exact firstOther.trans secondOther.symm
    · cases firstListed
      exact absurd rfl (stays second _ secondOther secondItem secondListed).1
    · cases secondListed
      exact absurd rfl (stays first _ firstOther firstItem firstListed).1
    · exact dense.apart first second position firstListed secondListed

end Dense

/-! A dense array represents a finite map from the items to their cells. -/

/-- The cell of an item that is listed. -/
def lookup (cells : List α) (place : ι → Option Nat) (item : ι) : Option α :=
  (place item).bind fun slot => cells[slot]?

theorem lookup_of_place (listed : place item = some slot) : lookup cells place item = cells[slot]? := by
  rw [lookup, listed, Option.bind_some]

theorem lookup_of_unlisted (unlisted : place item = none) : lookup cells place item = none := by
  rw [lookup, unlisted, Option.bind_none]

theorem lookup_eq_some_iff :
    lookup cells place item = some cell ↔ ∃ slot, place item = some slot ∧ cells[slot]? = some cell :=
  Option.bind_eq_some_iff

namespace Dense

theorem owns_of_lookup (dense : Dense cells owns place) (found : lookup cells place item = some cell) :
    owns item cell := by
  obtain ⟨slot, listed, here⟩ := lookup_eq_some_iff.mp found
  exact dense.owns_of_getElem? listed here

theorem mem_iff_lookup (dense : Dense cells owns place) :
    cell ∈ cells ↔ ∃ item, lookup cells place item = some cell := by
  constructor
  · intro member
    obtain ⟨slot, inside, found⟩ := List.mem_iff_getElem.mp member
    obtain ⟨item, listed⟩ := dense.owner slot inside
    exact ⟨item, lookup_eq_some_iff.mpr ⟨slot, listed, List.getElem?_eq_some_iff.mpr ⟨inside, found⟩⟩⟩
  · intro someItem
    obtain ⟨item, found⟩ := someItem
    obtain ⟨slot, -, here⟩ := lookup_eq_some_iff.mp found
    exact List.mem_of_getElem? here

variable [DecidableEq ι]

theorem lookup_append (dense : Dense cells owns place) :
    lookup (cells ++ [cell]) (Function.update place item (some cells.length)) =
      Function.update (lookup cells place) item (some cell) := by
  rw [Function.eq_update_iff]
  constructor
  · rw [lookup_of_place (Function.update_self ..)]
    simp
  · intro third different
    rw [lookup, lookup, Function.update_of_ne different]
    cases listed : place third with
    | none => rfl
    | some slot => exact List.getElem?_append_left (dense.inside listed)

theorem lookup_set (dense : Dense cells owns place) (listed : place item = some slot) :
    lookup (cells.set slot cell) place = Function.update (lookup cells place) item (some cell) := by
  rw [Function.eq_update_iff]
  constructor
  · rw [lookup_of_place listed, List.getElem?_set_self (dense.inside listed)]
  · intro third different
    rw [lookup, lookup]
    cases isListed : place third with
    | none => rfl
    | some position =>
        refine List.getElem?_set_ne fun same => different ?_
        exact dense.apart third item slot (same ▸ isListed) listed

theorem lookup_removeLast (dense : Dense cells owns place) (listed : place item = some slot)
    (last : slot + 1 = cells.length) :
    lookup cells.dropLast (Function.update place item none) = Function.update (lookup cells place) item none := by
  rw [Function.eq_update_iff]
  constructor
  · exact lookup_of_unlisted (Function.update_self ..)
  · intro third different
    rw [lookup, lookup, Function.update_of_ne different]
    cases isListed : place third with
    | none => rfl
    | some position =>
        have elsewhere : position ≠ slot :=
          fun same => different (dense.apart third item slot (same ▸ isListed) listed)
        have before := dense.inside isListed
        rw [Option.bind_some, Option.bind_some, List.getElem?_dropLast, if_pos (by omega)]

theorem lookup_removeSwap (dense : Dense cells owns place) (listed : place item = some slot)
    (inside : slot + 1 < cells.length) (isLast : place other = some (cells.length - 1)) :
    lookup (swapCells cells slot (cells.length - 1)).dropLast
        (Function.update (Function.update place other (some slot)) item none) =
      Function.update (lookup cells place) item none := by
  rw [Function.eq_update_iff]
  constructor
  · exact lookup_of_unlisted (Function.update_self ..)
  · intro third different
    rw [lookup, Function.update_of_ne different]
    by_cases isOther : third = other
    · subst isOther
      rw [Function.update_self, Option.bind_some, getElem?_dropLast_swapCells inside, if_pos rfl,
        lookup_of_place isLast]
    · rw [Function.update_of_ne isOther, lookup]
      cases isListed : place third with
      | none => rfl
      | some position =>
          have elsewhere : position ≠ slot :=
            fun same => different (dense.apart third item slot (same ▸ isListed) listed)
          have notLast : position ≠ cells.length - 1 :=
            fun same => isOther (dense.apart third other _ (same ▸ isListed) isLast)
          have before := dense.inside isListed
          rw [Option.bind_some, Option.bind_some, getElem?_dropLast_swapCells inside, if_neg elsewhere,
            if_pos (by omega)]

end Dense

end NutServer.Library
