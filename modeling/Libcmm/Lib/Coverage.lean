import Mathlib.Algebra.BigOperators.Group.Finset.Basic
import Mathlib.Algebra.GroupWithZero.Nat
import Mathlib.Data.Finset.Card

/-! # Coverage by total size

A list of items is to cover a finite set, and only the total size of the list is known. Copies of
an item, and items outside of the set, add to the total what is missing elsewhere: the total falls
short of that of the set if and only if this surplus is smaller than the size of what is missing.
-/

namespace Libcmm.Lib

variable {α : Type*} [DecidableEq α] (needed : Finset α) (size : α → Nat)

/-- The size of the items of a list that are not in the set, and of the further copies of those
that are. -/
def surplus : List α → Nat
  | [] => 0
  | item :: rest => (if item ∈ needed ∧ item ∉ rest then 0 else size item) + surplus rest

/-- The size of the items of the set that are not in a list. -/
def missing (list : List α) : Nat := (needed.filter fun item => item ∉ list).sum size

variable {needed size} {list : List α} {item : α}

/-- A new item of the set is no longer missing. -/
theorem missing_cons (listed : item ∈ needed) (fresh : item ∉ list) :
    missing needed size list = size item + missing needed size (item :: list) := by
  have split : needed.filter (fun other => other ∉ list) =
      insert item (needed.filter fun other => other ∉ item :: list) := by
    ext other
    simp only [Finset.mem_filter, Finset.mem_insert, List.mem_cons, not_or]
    constructor
    · rintro ⟨member, absent⟩
      by_cases same : other = item
      · exact .inl same
      · exact .inr ⟨member, same, absent⟩
    · rintro (rfl | ⟨member, -, absent⟩)
      · exact ⟨listed, fresh⟩
      · exact ⟨member, absent⟩
  have apart : item ∉ needed.filter fun other => other ∉ item :: list :=
    fun member => (Finset.mem_filter.mp member).2 List.mem_cons_self
  rw [missing, split, Finset.sum_insert apart, missing]

/-- Any other item leaves the same items missing. -/
theorem missing_cons_of_not (known : ¬(item ∈ needed ∧ item ∉ list)) :
    missing needed size (item :: list) = missing needed size list := by
  unfold missing
  congr 1
  apply Finset.filter_congr
  intro other member
  rw [List.mem_cons, not_or]
  exact and_iff_right_of_imp fun absent same => known ⟨same ▸ member, same ▸ absent⟩

theorem sum_add_missing (needed : Finset α) (size : α → Nat) (list : List α) :
    (list.map size).sum + missing needed size list = needed.sum size + surplus needed size list := by
  induction list with
  | nil => simp [missing, surplus]
  | cons item rest ih =>
      rw [List.map_cons, List.sum_cons, surplus]
      by_cases fresh : item ∈ needed ∧ item ∉ rest
      · rw [missing_cons fresh.1 fresh.2] at ih
        rw [if_pos fresh]
        omega
      · rw [missing_cons_of_not fresh, if_neg fresh]
        omega

/-- A list falls short of the total if and only if its surplus is smaller than what is missing. -/
theorem sum_lt_iff : (list.map size).sum < needed.sum size ↔
    surplus needed size list < missing needed size list := by
  have total := sum_add_missing needed size list
  omega

end Libcmm.Lib
