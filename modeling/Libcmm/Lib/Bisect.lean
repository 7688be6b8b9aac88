import Mathlib.Data.List.TakeWhile
import Mathlib.Tactic.SplitIfs

/-! # Search by halving

In a list where everything behind an item that lies beyond lies beyond too, halving finds the
position of the first such item. Each probe reads the list; the search traps where it would read
outside.
-/

namespace Libcmm.Lib

variable {α : Type*}

/-- The search among `len` items from position `first` on. -/
def bisectFrom (beyond : α → Bool) (items : List α) (first len : Nat) : Option Nat :=
  if len = 0 then some first
  else
    (items[first + len / 2]?).bind fun middle =>
      if beyond middle then bisectFrom beyond items first (len / 2)
      else bisectFrom beyond items (first + len / 2 + 1) (len - len / 2 - 1)
termination_by len

/-- The search in the whole list. -/
def bisect (beyond : α → Bool) (items : List α) : Option Nat :=
  bisectFrom beyond items 0 items.length

/-- The items that lie beyond are those from this position on. -/
structure Splits (beyond : α → Bool) (items : List α) (index : Nat) : Prop where
  bound : index ≤ items.length
  before : ∀ item ∈ items.take index, beyond item = false
  after : ∀ item ∈ items.drop index, beyond item = true

namespace Splits

variable {beyond : α → Bool} {items : List α} {index : Nat}

/-- The items in front of the position are the longest run of items that do not lie beyond. -/
theorem takeWhile_eq (splits : Splits beyond items index) :
    items.takeWhile (!beyond ·) = items.take index := by
  conv => lhs; rw [← List.take_append_drop index items]
  rw [List.takeWhile_append_of_pos]
  · cases rest : items.drop index with
    | nil => rw [List.takeWhile_nil, List.append_nil]
    | cons item others =>
        have far : beyond item = true := splits.after item (rest ▸ List.mem_cons_self)
        rw [List.takeWhile_cons_of_neg, List.append_nil]
        rw [far]
        exact Bool.false_ne_true
  · intro item member
    rw [splits.before item member]
    rfl

theorem length_takeWhile (splits : Splits beyond items index) :
    (items.takeWhile (!beyond ·)).length = index := by
  rw [splits.takeWhile_eq, List.length_take, Nat.min_eq_left splits.bound]

end Splits

section Bisect

variable {beyond : α → Bool} {items : List α}

/-- The item in the middle tells on which side of it the position is. -/
theorem splits_side {position : Nat} {middle : α}
    (sorted : items.Pairwise fun first second => beyond first = true → beyond second = true)
    (read : items[position]? = some middle) :
    (beyond middle = true → ∀ item ∈ items.drop position, beyond item = true) ∧
    (beyond middle = false → ∀ item ∈ items.take (position + 1), beyond item = false) := by
  obtain ⟨inside, rfl⟩ := List.getElem?_eq_some_iff.mp read
  rw [← List.take_append_drop position items, List.drop_eq_getElem_cons inside] at sorted
  obtain ⟨-, later, earlier⟩ := List.pairwise_append.mp sorted
  constructor
  · intro far item member
    rw [List.drop_eq_getElem_cons inside] at member
    rcases List.mem_cons.mp member with rfl | behind
    · exact far
    · exact (List.pairwise_cons.mp later).1 item behind far
  · intro near item member
    rw [List.take_add_one, List.getElem?_eq_getElem inside] at member
    rcases List.mem_append.mp member with front | here
    · rw [← Bool.not_eq_true]
      intro far
      have farToo := earlier item front _ List.mem_cons_self far
      exact Bool.false_ne_true (near.symm.trans farToo)
    · rw [List.mem_singleton.mp here]
      exact near

theorem bisectFrom_splits {first len : Nat}
    (sorted : items.Pairwise fun one other => beyond one = true → beyond other = true)
    (bound : first + len ≤ items.length) (before : ∀ item ∈ items.take first, beyond item = false)
    (after : ∀ item ∈ items.drop (first + len), beyond item = true) :
    ∃ index, bisectFrom beyond items first len = some index ∧ Splits beyond items index := by
  induction len using Nat.strong_induction_on generalizing first with
  | _ len ih =>
      rw [bisectFrom]
      split_ifs with none
      · subst none
        exact ⟨first, rfl, bound, before, after⟩
      · have inside : first + len / 2 < items.length := by omega
        have read : items[first + len / 2]? = some items[first + len / 2] :=
          List.getElem?_eq_getElem inside
        obtain ⟨far, near⟩ := splits_side sorted read
        rw [read, Option.bind_some]
        split_ifs with side
        · exact ih (len / 2) (by omega) (by omega) before (far side)
        · have end_eq : first + len / 2 + 1 + (len - len / 2 - 1) = first + len := by omega
          apply ih (len - len / 2 - 1) (by omega)
          · rwa [end_eq]
          · exact near (Bool.eq_false_iff.mpr side)
          · rwa [end_eq]

/-- Halving never reads outside the list, and finds the position. -/
theorem bisect_splits
    (sorted : items.Pairwise fun one other => beyond one = true → beyond other = true) :
    ∃ index, bisect beyond items = some index ∧ Splits beyond items index := by
  apply bisectFrom_splits sorted
  · rw [Nat.zero_add]
  · rw [List.take_zero]
    exact fun item member => (List.not_mem_nil member).elim
  · rw [Nat.zero_add, List.drop_length]
    exact fun item member => (List.not_mem_nil member).elim

end Bisect

end Libcmm.Lib
