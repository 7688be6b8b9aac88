import Libcmm.IntSet
import Mathlib.Data.Finset.Card
import Mathlib.Order.Interval.Finset.Basic
import Mathlib.Data.Int.Interval

/-! # Integer sets over a run (`intset.cpp`)

The calls on an integer set, with the assertions of the vectors and the arithmetic of a `long`.
Whatever is inserted, erased and cleared, the vectors and the counter stand for a finite set of
numbers. Only the least `long` has no place in them: it is its own negative.
-/

namespace Libcmm

namespace IntSet

namespace Checked

/-- `boost::dynamic_bitset::resize`. -/
def resize (vec : List Bool) (size : Nat) : List Bool :=
  vec.take size ++ List.replicate (size - vec.length) false

/-- `IntSet::insert_vec`; it traps where an assertion fires. -/
def insertVec (vec : List Bool) (num : Int64) : Option (List Bool) :=
  if num.toInt < 0 then none
  else if vec.length ≤ num.toInt.toNat then
    let grown := resize vec num.toInt.toNat ++ [true]
    if grown.length = num.toInt.toNat + 1 then some grown else none
  else some (vec.set num.toInt.toNat true)

/-- `IntSet::contains_vec`. -/
def containsVec (vec : List Bool) (num : Int64) : Option Bool :=
  if num.toInt < 0 then none
  else if vec.length ≤ num.toInt.toNat then some false
  else vec[num.toInt.toNat]?

variable (set : IntSet) (num : Int64)

/-- `IntSet::contains`. -/
def contains : Option Bool :=
  if 0 ≤ num.toInt then containsVec set.posVec num else containsVec set.negVec (-num)

/-- `IntSet::insert`. The counter is a `size_t`. -/
def insert : Option IntSet :=
  (contains set num).bind fun present =>
    if present then some set
    else
      let count := (set.count + 1) % 2 ^ 64
      if 0 ≤ num.toInt then
        (insertVec set.posVec num).map fun posVec => { set with posVec, count }
      else (insertVec set.negVec (-num)).map fun negVec => { set with negVec, count }

/-- A bit set to zero, at an index within the vector. -/
def resetBit (vec : List Bool) (num : Int64) : Option (List Bool) :=
  if 0 ≤ num.toInt ∧ num.toInt.toNat < vec.length then some (vec.set num.toInt.toNat false)
  else none

/-- `IntSet::erase`. -/
def erase : Option IntSet :=
  (contains set num).bind fun present =>
    if present then
      -- of zero the counter would be the greatest `size_t`
      let count := (set.count + (2 ^ 64 - 1)) % 2 ^ 64
      if 0 ≤ num.toInt then (resetBit set.posVec num).map fun posVec => { set with posVec, count }
      else (resetBit set.negVec (-num)).map fun negVec => { set with negVec, count }
    else some set

/-- `IntSet::size`. -/
def size : Nat := set.count

end Checked

/-- The calls that change a set. -/
inductive SetCall where
  | insert (num : Int64)
  | erase (num : Int64)
  | clear
  deriving DecidableEq

/-- A call with any number but the least one. -/
def SetCall.Proper : SetCall → Prop
  | .insert num => num ≠ Int64.minValue
  | .erase num => num ≠ Int64.minValue
  | .clear => True

instance : DecidablePred SetCall.Proper
  | .insert num => inferInstanceAs (Decidable (num ≠ Int64.minValue))
  | .erase num => inferInstanceAs (Decidable (num ≠ Int64.minValue))
  | .clear => inferInstanceAs (Decidable True)

/-- One call. `IntSet::clear` leaves what the constructor gives. -/
def call (set : IntSet) : SetCall → Option IntSet
  | .insert num => Checked.insert set num
  | .erase num => Checked.erase set num
  | .clear => some empty

/-- The calls one after another. -/
def calls : IntSet → List SetCall → Option IntSet
  | set, [] => some set
  | set, first :: rest => (set.call first).bind fun next => next.calls rest

/-- The numbers that were inserted and neither erased nor cleared since. -/
def SetCall.apply (members : Finset Int64) : SetCall → Finset Int64
  | .insert num => Insert.insert num members
  | .erase num => members.erase num
  | .clear => ∅

/-- The numbers after some calls. -/
def members (made : List SetCall) : Finset Int64 := made.foldl SetCall.apply ∅

/-- The vectors and the counter stand for a set of numbers. -/
structure Refines (set : IntSet) (members : Finset Int64) : Prop where
  contains : ∀ num : Int64, set.contains num.toInt = decide (num ∈ members)
  count : set.count = members.card
  proper : Int64.minValue ∉ members

/-! ### Numbers and indices -/

section Numbers

variable {num : Int64}

/-- The negative of a number that is not the least one is its negative. -/
theorem toInt_neg_of_proper (proper : num ≠ Int64.minValue) : (-num).toInt = -num.toInt := by
  have low := num.le_toInt
  have high := num.toInt_lt
  have other : num.toInt ≠ -2 ^ 63 := fun same => proper (Int64.toInt_inj.mp same)
  rw [Int64.toInt_neg]
  apply Int.bmod_eq_of_le
  · omega
  · omega

theorem toNat_eq_iff {first second : Int} (nonneg : 0 ≤ first) (nonnegToo : 0 ≤ second) :
    first.toNat = second.toNat ↔ first = second := by
  omega

/-- There are fewer numbers than values of a `size_t`. -/
theorem card_lt {members : Finset Int64} (proper : Int64.minValue ∉ members) :
    members.card < 2 ^ 64 := by
  have inside : ∀ num ∈ members, num.toInt ∈ Finset.Ioo (-2 ^ 63 : Int) (2 ^ 63) := by
    intro num member
    rw [Finset.mem_Ioo]
    have other : num.toInt ≠ -2 ^ 63 := fun same =>
      proper ((Int64.toInt_inj.mp same : num = Int64.minValue) ▸ member)
    exact ⟨lt_of_le_of_ne num.le_toInt other.symm, num.toInt_lt⟩
  have fewer := Finset.card_le_card_of_injOn Int64.toInt inside
    fun first _ second _ same => Int64.toInt_inj.mp same
  rw [Int.card_Ioo] at fewer
  exact Nat.lt_of_le_of_lt fewer (by decide)

end Numbers

/-! ### No assertion fires -/

section Vectors

variable {vec : List Bool} {num : Int64}

theorem checked_containsVec (nonneg : 0 ≤ num.toInt) :
    Checked.containsVec vec num = some (containsVec vec num.toInt.toNat) := by
  rw [Checked.containsVec, if_neg (Int.not_lt.mpr nonneg)]
  split_ifs with short
  · rw [containsVec, List.getD_eq_default _ _ short]
  · have inside := Nat.lt_of_not_le short
    rw [containsVec, List.getElem?_eq_getElem inside, List.getD_eq_getElem _ _ inside]

/-- A vector that is too short grows to just below the index. -/
theorem resize_of_le {size : Nat} (short : vec.length ≤ size) :
    Checked.resize vec size = vec ++ List.replicate (size - vec.length) false := by
  rw [Checked.resize, List.take_of_length_le short]

theorem checked_insertVec (nonneg : 0 ≤ num.toInt) :
    Checked.insertVec vec num = some (insertVec vec num.toInt.toNat) := by
  rw [Checked.insertVec, if_neg (Int.not_lt.mpr nonneg), insertVec]
  split_ifs with short
  · rw [resize_of_le short]
    apply if_pos
    rw [List.length_append, List.length_append, List.length_replicate, List.length_singleton,
      Nat.add_sub_of_le short]
  · rfl

/-- A bit that is set is within its vector. -/
theorem checked_resetBit (nonneg : 0 ≤ num.toInt)
    (present : containsVec vec num.toInt.toNat = true) :
    Checked.resetBit vec num = some (vec.set num.toInt.toNat false) := by
  have inside : num.toInt.toNat < vec.length := by
    by_contra short
    rw [containsVec, List.getD_eq_default _ _ (Nat.le_of_not_lt short)] at present
    exact Bool.false_ne_true present
  rw [Checked.resetBit, if_pos ⟨nonneg, inside⟩]

/-- Resetting an index resets its bit and no other. -/
theorem containsVec_set_false (vec : List Bool) (index query : Nat) :
    containsVec (vec.set index false) query =
      (containsVec vec query && decide (query ≠ index)) := by
  unfold containsVec
  by_cases same : query = index
  · subst same
    rw [decide_eq_false (not_not_intro rfl), Bool.and_false]
    by_cases inside : query < vec.length
    · rw [List.getD_eq_getElem?_getD, List.getElem?_set_self inside, Option.getD_some]
    · rw [List.getD_eq_default]
      rw [List.length_set]
      exact Nat.le_of_not_lt inside
  · rw [decide_eq_true same, Bool.and_true, List.getD_eq_getElem?_getD,
      List.getElem?_set_ne (Ne.symm same), List.getD_eq_getElem?_getD]

end Vectors

section Calls

variable {set : IntSet} {num : Int64}

theorem checked_contains (proper : num ≠ Int64.minValue) :
    Checked.contains set num = some (set.contains num.toInt) := by
  unfold Checked.contains contains
  split_ifs with nonneg
  · exact checked_containsVec nonneg
  · have negated := toInt_neg_of_proper proper
    rw [checked_containsVec (by omega), negated]

theorem checked_insert (proper : num ≠ Int64.minValue)
    (room : set.contains num.toInt = false → set.count + 1 < 2 ^ 64) :
    Checked.insert set num = some (set.insert num.toInt) := by
  rw [Checked.insert, checked_contains proper, Option.bind_some, insert]
  cases present : set.contains num.toInt with
  | true => rfl
  | false =>
      simp only [Bool.false_eq_true, ↓reduceIte, Nat.mod_eq_of_lt (room present)]
      split_ifs with nonneg
      · rw [checked_insertVec nonneg]
        rfl
      · have negated := toInt_neg_of_proper proper
        rw [checked_insertVec (by omega), negated]
        rfl

theorem count_insert (set : IntSet) (num : Int) :
    (set.insert num).count = if set.contains num then set.count else set.count + 1 := by
  unfold insert
  split_ifs with present nonneg
  · rfl
  · rfl
  · rfl

/-- Erasing a number takes away that number and no other. -/
theorem checked_erase (proper : num ≠ Int64.minValue)
    (counted : set.contains num.toInt = true → 0 < set.count ∧ set.count < 2 ^ 64) :
    ∃ after, Checked.erase set num = some after ∧
      (∀ query : Int, after.contains query = (set.contains query && decide (query ≠ num.toInt))) ∧
      after.count = if set.contains num.toInt then set.count - 1 else set.count := by
  rw [Checked.erase, checked_contains proper, Option.bind_some]
  cases present : set.contains num.toInt with
  | false =>
      refine ⟨set, rfl, fun query => ?_, rfl⟩
      by_cases same : query = num.toInt
      · rw [same, present, Bool.false_and]
      · rw [decide_eq_true same, Bool.and_true]
  | true =>
      obtain ⟨positive, bound⟩ := counted present
      have less : (set.count + (2 ^ 64 - 1)) % 2 ^ 64 = set.count - 1 := by omega
      simp only [↓reduceIte, less]
      generalize set.count - 1 = count
      by_cases nonneg : 0 ≤ num.toInt
      · rw [contains, if_pos nonneg] at present
        rw [if_pos nonneg, checked_resetBit nonneg present]
        refine ⟨_, rfl, fun query => ?_, rfl⟩
        unfold contains
        by_cases queryNonneg : 0 ≤ query
        · have same : query.toNat ≠ num.toInt.toNat ↔ query ≠ num.toInt :=
            (toNat_eq_iff queryNonneg nonneg).not
          simp only [queryNonneg, ↓reduceIte, containsVec_set_false, decide_eq_decide.mpr same]
        · have other : query ≠ num.toInt := by omega
          simp only [queryNonneg, ↓reduceIte, decide_eq_true other, Bool.and_true]
      · have negated := toInt_neg_of_proper proper
        rw [contains, if_neg nonneg, ← negated] at present
        rw [if_neg nonneg, checked_resetBit (by omega) present]
        refine ⟨_, rfl, fun query => ?_, rfl⟩
        unfold contains
        by_cases queryNonneg : 0 ≤ query
        · have other : query ≠ num.toInt := by omega
          simp only [queryNonneg, ↓reduceIte, decide_eq_true other, Bool.and_true]
        · have same : (-query).toNat ≠ (-num.toInt).toNat ↔ query ≠ num.toInt :=
            ((toNat_eq_iff (by omega) (by omega)).trans neg_inj).not
          simp only [queryNonneg, ↓reduceIte, containsVec_set_false, negated,
            decide_eq_decide.mpr same]

end Calls

/-! ### The set that the vectors stand for -/

theorem refines_empty : Refines empty ∅ where
  contains num := by rw [contains_empty, decide_eq_false (Finset.notMem_empty num)]
  count := rfl
  proper := Finset.notMem_empty _

namespace Refines

variable {set : IntSet} {members : Finset Int64} {num : Int64}

theorem insert (refines : Refines set members) (proper : num ≠ Int64.minValue) :
    ∃ after, Checked.insert set num = some after ∧
      Refines after (Insert.insert num members) := by
  have properToo : Int64.minValue ∉ Insert.insert num members := fun member =>
    (Finset.mem_insert.mp member).elim (fun same => proper same.symm) refines.proper
  have absent : set.contains num.toInt = false → num ∉ members := fun missing =>
    of_decide_eq_false ((refines.contains num).symm.trans missing)
  refine ⟨set.insert num.toInt, checked_insert proper ?_, ?_, ?_, properToo⟩
  · intro missing
    rw [refines.count, ← Finset.card_insert_of_notMem (absent missing)]
    exact card_lt properToo
  · intro query
    rw [contains_insert, refines.contains, ← Bool.decide_or]
    exact decide_eq_decide.mpr (by rw [Finset.mem_insert, Int64.toInt_inj])
  · rw [count_insert]
    cases present : set.contains num.toInt with
    | true =>
        have member : num ∈ members := of_decide_eq_true ((refines.contains num).symm.trans present)
        rw [if_pos rfl, Finset.insert_eq_of_mem member, refines.count]
    | false =>
        rw [if_neg Bool.false_ne_true, Finset.card_insert_of_notMem (absent present), refines.count]

theorem erase (refines : Refines set members) (proper : num ≠ Int64.minValue) :
    ∃ after, Checked.erase set num = some after ∧ Refines after (members.erase num) := by
  have member : set.contains num.toInt = true → num ∈ members := fun present =>
    of_decide_eq_true ((refines.contains num).symm.trans present)
  obtain ⟨after, erased, contains, count⟩ := @checked_erase set num proper fun present => by
    rw [refines.count]
    exact ⟨Finset.card_pos.mpr ⟨num, member present⟩, card_lt refines.proper⟩
  refine ⟨after, erased, ?_, ?_, fun least => refines.proper (Finset.mem_of_mem_erase least)⟩
  · intro query
    rw [contains, refines.contains, ← Bool.decide_and]
    exact decide_eq_decide.mpr (by rw [Finset.mem_erase, and_comm, ne_eq, Int64.toInt_inj])
  · rw [count]
    cases present : set.contains num.toInt with
    | true => rw [if_pos rfl, Finset.card_erase_of_mem (member present), refines.count]
    | false =>
        have absent : num ∉ members :=
          of_decide_eq_false ((refines.contains num).symm.trans present)
        rw [if_neg Bool.false_ne_true, Finset.erase_eq_of_notMem absent, refines.count]

/-- One call. -/
theorem call (refines : Refines set members) {made : SetCall} (proper : made.Proper) :
    ∃ after, set.call made = some after ∧ Refines after (made.apply members) := by
  cases made with
  | insert num => exact refines.insert proper
  | erase num => exact refines.erase proper
  | clear => exact ⟨empty, rfl, refines_empty⟩

/-- Any calls. -/
theorem calls (refines : Refines set members) {made : List SetCall}
    (proper : ∀ call ∈ made, call.Proper) :
    ∃ after, set.calls made = some after ∧ Refines after (made.foldl SetCall.apply members) := by
  induction made generalizing set members with
  | nil => exact ⟨set, rfl, refines⟩
  | cons first rest ih =>
      obtain ⟨next, moved, kept⟩ := refines.call (proper first List.mem_cons_self)
      obtain ⟨after, ran, held⟩ := ih kept fun call member =>
        proper call (List.mem_cons_of_mem _ member)
      refine ⟨after, ?_, held⟩
      rw [IntSet.calls, moved, Option.bind_some]
      exact ran

end Refines

/-- Whatever is inserted, erased and cleared, no assertion fires then or in a lookup afterwards. A
lookup finds the numbers that were inserted and neither erased nor cleared since, and the size is
how many they are. -/
theorem calls_refine {made : List SetCall} (proper : ∀ call ∈ made, call.Proper) :
    ∃ set, empty.calls made = some set ∧
      (∀ num ≠ Int64.minValue, Checked.contains set num = some (decide (num ∈ members made))) ∧
      Checked.size set = (members made).card := by
  obtain ⟨set, ran, refines⟩ := refines_empty.calls proper
  refine ⟨set, ran, fun num properToo => ?_, refines.count⟩
  rw [checked_contains properToo, refines.contains]
  rfl

/-- Numbers of either sign, some of them twice. -/
def sixCalls : List SetCall :=
  [.insert (-3), .insert 0, .insert 2, .insert (-3), .erase 0, .erase 7]

theorem calls_refine_six_calls : ∃ set, empty.calls sixCalls = some set ∧
    Checked.contains set (-3) = some true ∧ Checked.contains set 0 = some false ∧
    Checked.size set = 2 := by
  obtain ⟨set, ran, contains, size⟩ := @calls_refine sixCalls (by decide)
  refine ⟨set, ran, ?_, ?_, size⟩
  · exact contains (-3) (by decide)
  · exact contains 0 (by decide)

end IntSet

end Libcmm
