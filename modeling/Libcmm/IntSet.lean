import Mathlib.Data.List.GetD
import Mathlib.Tactic.SplitIfs

/-! # Integer sets (`intset.cpp`)

A set of integers kept as two growable bit vectors, one for the non-negative
members and one for the negated negative ones, with a member count.
-/

namespace Libcmm

/-- `class IntSet`. -/
structure IntSet where
  posVec : List Bool
  negVec : List Bool
  count : Nat
  deriving DecidableEq

namespace IntSet

/-- `IntSet::IntSet`. -/
def empty : IntSet := ⟨[], [], 0⟩

/-- `IntSet::contains_vec`. -/
def containsVec (vec : List Bool) (num : Nat) : Bool := vec.getD num false

/-- `IntSet::contains`. -/
def contains (set : IntSet) (num : Int) : Bool :=
  if 0 ≤ num then containsVec set.posVec num.toNat else containsVec set.negVec (-num).toNat

/-- `IntSet::insert_vec`: grow to just below the index and push, or set the bit. -/
def insertVec (vec : List Bool) (num : Nat) : List Bool :=
  if vec.length ≤ num then vec ++ List.replicate (num - vec.length) false ++ [true]
  else vec.set num true

/-- `IntSet::insert`. -/
def insert (set : IntSet) (num : Int) : IntSet :=
  if set.contains num then set
  else if 0 ≤ num then
    { set with posVec := insertVec set.posVec num.toNat, count := set.count + 1 }
  else { set with negVec := insertVec set.negVec (-num).toNat, count := set.count + 1 }

@[simp] theorem contains_empty (num : Int) : empty.contains num = false := by
  simp only [contains, empty, containsVec, List.getD_nil, ite_self]

/-- Inserting an index sets its bit and no other. -/
theorem containsVec_insertVec (vec : List Bool) (num query : Nat) :
    containsVec (insertVec vec num) query = (decide (query = num) || containsVec vec query) := by
  unfold containsVec insertVec
  split_ifs with short
  · by_cases inside : query < vec.length
    · have other : query ≠ num := by omega
      rw [List.append_assoc, List.getD_append _ _ _ _ inside, decide_eq_false other,
        Bool.false_or]
    · rw [List.append_assoc, List.getD_append_right _ _ _ _ (Nat.le_of_not_lt inside),
        List.getD_eq_default _ _ (Nat.le_of_not_lt inside), Bool.or_false]
      rcases Nat.lt_trichotomy query num with below | rfl | above
      · rw [List.getD_append _ _ _ _ (by rw [List.length_replicate]; omega),
          decide_eq_false (Nat.ne_of_lt below)]
        exact List.getD_replicate _ (by omega)
      · rw [List.getD_append_right _ _ _ _ (by
          simp only [List.length_replicate, Nat.le_refl])]
        simp only [List.length_replicate, Nat.sub_self, List.getD_cons_zero, decide_true]
      · rw [List.getD_eq_default _ _ (by
          simp only [List.length_append, List.length_replicate, List.length_singleton]
          omega), decide_eq_false (Nat.ne_of_gt above)]
  · have inside : num < vec.length := Nat.lt_of_not_le short
    by_cases same : query = num
    · subst same
      simp only [List.getD_eq_getElem?_getD, List.getElem?_set_self inside, Option.getD_some,
        decide_true, Bool.true_or]
    · simp only [List.getD_eq_getElem?_getD, List.getElem?_set_ne (Ne.symm same),
        decide_eq_false same, Bool.false_or]

/-- Inserting a number adds exactly that number. -/
@[simp] theorem contains_insert (set : IntSet) (num query : Int) :
    (set.insert num).contains query = (decide (query = num) || set.contains query) := by
  unfold insert
  split_ifs with present nonneg
  · by_cases same : query = num
    · rw [same, present, Bool.or_true]
    · rw [decide_eq_false same, Bool.false_or]
  · unfold contains
    by_cases queryNonneg : 0 ≤ query
    · simp only [queryNonneg, ↓reduceIte, containsVec_insertVec]
      congr 2
      exact propext (by omega)
    · have other : query ≠ num := by omega
      simp only [queryNonneg, ↓reduceIte, decide_eq_false other, Bool.false_or]
  · unfold contains
    by_cases queryNonneg : 0 ≤ query
    · have other : query ≠ num := by omega
      simp only [queryNonneg, ↓reduceIte, decide_eq_false other, Bool.false_or]
    · simp only [queryNonneg, ↓reduceIte, containsVec_insertVec]
      congr 2
      exact propext (by omega)

end IntSet

end Libcmm
