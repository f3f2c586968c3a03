import Mathlib

/-!
# Ordered sets as ascending lists

The operations of an ordered set. The order of the list is part of the type.
-/

set_option autoImplicit false

namespace NutServer.Library

universe u

structure SortedSet (α : Type u) [LinearOrder α] where
  toList : List α
  ascending : toList.Pairwise (· < ·)

namespace SortedSet

variable {α : Type u} [LinearOrder α]

def empty : SortedSet α := ⟨[], .nil⟩

theorem ascending_orderedInsert {list : List α} {value : α} (ascending : list.Pairwise (· < ·))
    (absent : value ∉ list) : (list.orderedInsert (· ≤ ·) value).Pairwise (· < ·) := by
  have weak := List.Pairwise.orderedInsert (r := (· ≤ ·)) value list (ascending.imp le_of_lt)
  have distinct : (list.orderedInsert (· ≤ ·) value).Nodup := by
    rw [(List.perm_orderedInsert (· ≤ ·) value list).nodup_iff, List.nodup_cons]
    exact ⟨absent, ascending.imp ne_of_lt⟩
  exact (weak.and distinct).imp fun both => lt_of_le_of_ne both.1 both.2

/-- Insert a value unless it is there already; the second component tells. -/
def insert (set : SortedSet α) (value : α) : SortedSet α × Bool :=
  if absent : value ∉ set.toList then
    (⟨set.toList.orderedInsert (· ≤ ·) value, ascending_orderedInsert set.ascending absent⟩, true)
  else (set, false)

def first? (set : SortedSet α) : Option α := set.toList.head?

def below (set : SortedSet α) (bound : α) : List α := set.toList.takeWhile (· < bound)

/-- The set from the first value that is not below the bound. -/
def lowerBound (set : SortedSet α) (bound : α) : SortedSet α :=
  ⟨set.toList.dropWhile (· < bound), set.ascending.sublist (List.dropWhile_sublist _)⟩

variable {set : SortedSet α} {value bound : α}

theorem insert_snd (absent : value ∉ set.toList) : (set.insert value).2 = true := by
  rw [insert, dif_pos absent]

theorem toList_insert (absent : value ∉ set.toList) :
    (set.insert value).1.toList = set.toList.orderedInsert (· ≤ ·) value := by
  rw [insert, dif_pos absent]

theorem insert_perm (absent : value ∉ set.toList) :
    (set.insert value).1.toList.Perm (value :: set.toList) := by
  rw [toList_insert absent]
  exact List.perm_orderedInsert _ _ _

theorem first?_insert (absent : value ∉ set.toList) :
    (set.insert value).1.first? = some (set.first?.elim value (min value)) := by
  rw [first?, first?, toList_insert absent]
  cases set.toList with
  | nil => rfl
  | cons least rest =>
      by_cases ordered : value ≤ least
      · simp [List.orderedInsert, ordered]
      · simp [List.orderedInsert, ordered, (not_le.mp ordered).le]

theorem first?_le {least : α} (first : set.first? = some least) (member : value ∈ set.toList) :
    least ≤ value := by
  obtain ⟨rest, whole⟩ := List.head?_eq_some_iff.mp first
  have ascending := set.ascending
  rw [whole] at ascending member
  rcases List.mem_cons.mp member with rfl | later
  · exact le_rfl
  · exact ((List.pairwise_cons.mp ascending).1 value later).le

theorem mem_of_first? {least : α} (first : set.first? = some least) : least ∈ set.toList :=
  List.mem_of_mem_head? first

theorem below_append_lowerBound (set : SortedSet α) (bound : α) :
    set.below bound ++ (set.lowerBound bound).toList = set.toList :=
  List.takeWhile_append_dropWhile

theorem lt_of_mem_below (member : value ∈ set.below bound) : value < bound := by
  simpa using List.mem_takeWhile_imp member

theorem le_of_mem_lowerBound (member : value ∈ (set.lowerBound bound).toList) : bound ≤ value := by
  obtain ⟨list, ascending⟩ := set
  change value ∈ list.dropWhile (· < bound) at member
  induction list with
  | nil => cases member
  | cons first rest ih =>
      obtain ⟨smaller, ascendingRest⟩ := List.pairwise_cons.mp ascending
      by_cases under : first < bound
      · rw [List.dropWhile_cons_of_pos (by simpa using under)] at member
        exact ih ascendingRest member
      · rw [List.dropWhile_cons_of_neg (by simpa using under)] at member
        rcases List.mem_cons.mp member with rfl | later
        · exact not_lt.mp under
        · exact (not_lt.mp under).trans (smaller value later).le

theorem below_eq_filter : set.below bound = set.toList.filter (· < bound) := by
  rw [← below_append_lowerBound set bound, List.filter_append]
  have front : (set.below bound).filter (· < bound) = set.below bound :=
    List.filter_eq_self.mpr fun value member => by simpa using lt_of_mem_below member
  have back : (set.lowerBound bound).toList.filter (· < bound) = [] :=
    List.filter_eq_nil_iff.mpr fun value member => by simpa using le_of_mem_lowerBound member
  rw [front, back, List.append_nil]

end SortedSet

end NutServer.Library
