import Mathlib.Data.List.Sort

/-! # Ordered sets

A set kept as the strictly increasing list of its elements: the observable
behaviour of an ordered associative container. Iterating the set is reading the
list, and two sets with the same members are equal.
-/

namespace Libcmm.Lib

variable {α : Type*} [LinearOrder α]

/-- A finite set listed in strictly increasing order. -/
structure OrderedSet (α : Type*) [LinearOrder α] where
  toList : List α
  sorted : toList.Pairwise (· < ·)
  deriving DecidableEq

namespace OrderedSet

instance : Membership α (OrderedSet α) where
  mem set element := element ∈ set.toList

instance (element : α) (set : OrderedSet α) : Decidable (element ∈ set) :=
  inferInstanceAs (Decidable (element ∈ set.toList))

/-- The set without elements. -/
def empty : OrderedSet α := ⟨[], .nil⟩

instance : EmptyCollection (OrderedSet α) := ⟨empty⟩

/-- Place an element in an increasing list, dropping a copy of one present. -/
def place (element : α) : List α → List α
  | [] => [element]
  | head :: rest =>
      if element < head then element :: head :: rest
      else if head < element then head :: place element rest
      else head :: rest

theorem mem_place {element query : α} {list : List α} :
    query ∈ place element list ↔ query = element ∨ query ∈ list := by
  induction list with
  | nil => simp only [place, List.mem_singleton, List.not_mem_nil, or_false]
  | cons head rest ih =>
      unfold place
      split_ifs with before after
      · exact List.mem_cons
      · rw [List.mem_cons, ih, List.mem_cons]
        exact or_left_comm
      · have same : element = head := le_antisymm (not_lt.mp after) (not_lt.mp before)
        rw [same, List.mem_cons, ← or_assoc, or_self]

theorem place_sorted {element : α} {list : List α} (sorted : list.Pairwise (· < ·)) :
    (place element list).Pairwise (· < ·) := by
  induction list with
  | nil => exact List.pairwise_singleton _ _
  | cons head rest ih =>
      obtain ⟨above, restSorted⟩ := List.pairwise_cons.mp sorted
      unfold place
      split_ifs with before after
      · refine List.pairwise_cons.mpr ⟨?_, sorted⟩
        intro query member
        rcases List.mem_cons.mp member with rfl | later
        · exact before
        · exact before.trans (above query later)
      · refine List.pairwise_cons.mpr ⟨?_, ih restSorted⟩
        intro query member
        rcases mem_place.mp member with rfl | later
        · exact after
        · exact above query later
      · exact sorted

/-- Add an element. -/
def insert (set : OrderedSet α) (element : α) : OrderedSet α :=
  ⟨place element set.toList, place_sorted set.sorted⟩

/-- Keep the elements that pass a test. -/
def filter (set : OrderedSet α) (keep : α → Bool) : OrderedSet α :=
  ⟨set.toList.filter keep, set.sorted.filter _⟩

/-- Remove an element. -/
def erase (set : OrderedSet α) (element : α) : OrderedSet α :=
  set.filter fun query => decide (query ≠ element)

/-- Add every element of a list, in its order. -/
def insertAll (set : OrderedSet α) (elements : List α) : OrderedSet α :=
  elements.foldl insert set

/-- The elements common to two sets. -/
def inter (first second : OrderedSet α) : OrderedSet α :=
  first.filter fun query => decide (query ∈ second)

/-- The set of the elements of a list. -/
def ofList (elements : List α) : OrderedSet α := insertAll empty elements

/-- Whether the set has no elements. -/
def isEmpty (set : OrderedSet α) : Bool := set.toList.isEmpty

@[simp] theorem mem_toList {set : OrderedSet α} {query : α} : query ∈ set.toList ↔ query ∈ set :=
  Iff.rfl

@[simp] theorem not_mem_empty (query : α) : query ∉ (∅ : OrderedSet α) := List.not_mem_nil

@[simp] theorem mem_insert {set : OrderedSet α} {element query : α} :
    query ∈ set.insert element ↔ query = element ∨ query ∈ set := mem_place

@[simp] theorem mem_filter {set : OrderedSet α} {keep : α → Bool} {query : α} :
    query ∈ set.filter keep ↔ query ∈ set ∧ keep query = true := List.mem_filter

@[simp] theorem mem_erase {set : OrderedSet α} {element query : α} :
    query ∈ set.erase element ↔ query ∈ set ∧ query ≠ element := by
  simp only [erase, mem_filter, decide_eq_true_eq]

@[simp] theorem mem_inter {first second : OrderedSet α} {query : α} :
    query ∈ first.inter second ↔ query ∈ first ∧ query ∈ second := by
  simp only [inter, mem_filter, decide_eq_true_eq]

@[simp] theorem mem_insertAll {set : OrderedSet α} {elements : List α} {query : α} :
    query ∈ set.insertAll elements ↔ query ∈ elements ∨ query ∈ set := by
  induction elements generalizing set with
  | nil => simp only [insertAll, List.foldl_nil, List.not_mem_nil, false_or]
  | cons head rest ih =>
      change query ∈ (set.insert head).insertAll rest ↔ _
      rw [ih, mem_insert, List.mem_cons]
      exact or_left_comm.trans or_assoc.symm

@[simp] theorem mem_ofList {elements : List α} {query : α} :
    query ∈ ofList elements ↔ query ∈ elements :=
  mem_insertAll.trans (or_iff_left (not_mem_empty query))

theorem isEmpty_iff {set : OrderedSet α} : set.isEmpty = true ↔ ∀ query, query ∉ set := by
  unfold isEmpty
  rw [List.isEmpty_iff, List.eq_nil_iff_forall_not_mem]
  exact Iff.rfl

/-- A set is determined by its members. -/
@[ext] theorem ext {first second : OrderedSet α}
    (same : ∀ query, query ∈ first ↔ query ∈ second) : first = second := by
  obtain ⟨left, leftSorted⟩ := first
  obtain ⟨right, rightSorted⟩ := second
  have lists : left = right := leftSorted.eq_of_mem_iff rightSorted same
  cases lists
  rfl

end OrderedSet

end Libcmm.Lib
