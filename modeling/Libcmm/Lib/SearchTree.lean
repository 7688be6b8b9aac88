import Mathlib.Data.List.Basic
import Mathlib.Data.List.TakeWhile

/-! # Search trees of any shape

A search tree holds its items in order, and a search descends from the root: to the right where an
item passes a test, to the left where it fails. Where the items that pass come before those that
fail, the descent ends between them whatever the shape of the tree. Where they do not, there are
two shapes in which it ends in different places.

A map compares keys by a test of its own. Its bounds are such descents, and after every change the
tree may have any shape; the results here are for a test that orders the keys concerned.
-/

namespace Libcmm.Lib

/-- A binary tree with items at its nodes. -/
inductive SearchTree (α : Type*) where
  | leaf
  | node (left : SearchTree α) (item : α) (right : SearchTree α)
  deriving DecidableEq

namespace SearchTree

variable {α : Type*}

/-- The items in order. -/
def toList : SearchTree α → List α
  | leaf => []
  | node left item right => left.toList ++ item :: right.toList

/-- There is nothing in the tree. -/
def isLeaf : SearchTree α → Bool
  | leaf => true
  | node _ _ _ => false

theorem eq_leaf {tree : SearchTree α} (empty : tree.toList = []) : tree = leaf := by
  cases tree with
  | leaf => rfl
  | node left item right =>
      exact absurd empty (List.append_ne_nil_of_right_ne_nil _ (List.cons_ne_nil _ _))

/-- The position in which a descent ends that goes right at the items that pass a test. -/
def descend (passes : α → Bool) : SearchTree α → Nat
  | leaf => 0
  | node left item right =>
      if passes item then left.toList.length + 1 + right.descend passes else left.descend passes

/-- The items one under another. -/
def spine : List α → SearchTree α
  | [] => leaf
  | item :: rest => node leaf item (spine rest)

@[simp] theorem toList_spine (items : List α) : (spine items).toList = items := by
  induction items with
  | nil => rfl
  | cons item rest ih => rw [spine, toList, toList, ih, List.nil_append]

/-- The positions between which the items are that are neither less nor greater: the descent to
both ends goes one way up to the first such item. -/
def equalRange (less greater : α → Bool) : SearchTree α → Nat × Nat
  | leaf => (0, 0)
  | node left item right =>
      if less item then
        let range := right.equalRange less greater
        (left.toList.length + 1 + range.1, left.toList.length + 1 + range.2)
      else if greater item then left.equalRange less greater
      else (left.descend less, left.toList.length + 1 + right.descend fun item => !greater item)

variable {passes : α → Bool} {tree : SearchTree α} {item : α}

theorem descend_le (passes : α → Bool) (tree : SearchTree α) :
    tree.descend passes ≤ tree.toList.length := by
  induction tree with
  | leaf => exact Nat.le_refl 0
  | node left item right leftIh rightIh =>
      rw [toList, descend, List.length_append, List.length_cons]
      split_ifs <;> omega

/-- The item in which a descent ends fails the test. -/
theorem descend_stop (found : tree.toList[tree.descend passes]? = some item) :
    passes item = false := by
  induction tree with
  | leaf => exact (Option.some_ne_none item found.symm).elim
  | node left root right leftIh rightIh =>
      rw [toList, descend] at found
      split_ifs at found with pass
      · rw [List.getElem?_append_right (by omega), show left.toList.length + 1 +
          right.descend passes - left.toList.length = right.descend passes + 1 by omega,
          List.getElem?_cons_succ] at found
        exact rightIh found
      · rcases Nat.lt_or_ge (left.descend passes) left.toList.length with inside | beyond
        · rw [List.getElem?_append_left inside] at found
          exact leftIh found
        · have last : left.descend passes = left.toList.length :=
            Nat.le_antisymm (descend_le passes left) beyond
          rw [last, List.getElem?_append_right (Nat.le_refl _), Nat.sub_self,
            List.getElem?_cons_zero, Option.some.injEq] at found
          rw [← found]
          exact Bool.eq_false_iff.mpr pass

/-- The item before the position in which a descent ends passes the test. -/
theorem descend_pass {position : Nat} (ends : tree.descend passes = position + 1) :
    ∃ item, tree.toList[position]? = some item ∧ passes item = true := by
  induction tree generalizing position with
  | leaf => exact absurd ends (Nat.succ_ne_zero position).symm
  | node left root right leftIh rightIh =>
      rw [descend] at ends
      rw [toList]
      split_ifs at ends with pass
      · rcases shape : right.descend passes with _ | before
        · refine ⟨root, ?_, pass⟩
          rw [show position = left.toList.length by omega,
            List.getElem?_append_right (Nat.le_refl _), Nat.sub_self, List.getElem?_cons_zero]
        · obtain ⟨item, found, itemPass⟩ := rightIh shape
          refine ⟨item, ?_, itemPass⟩
          rw [show position = left.toList.length + (before + 1) by omega,
            List.getElem?_append_right (Nat.le_add_right _ _), Nat.add_sub_cancel_left,
            List.getElem?_cons_succ]
          exact found
      · obtain ⟨item, found, itemPass⟩ := leftIh ends
        have inside : position < left.toList.length := by
          have le := descend_le passes left
          omega
        exact ⟨item, (List.getElem?_append_left inside).trans found, itemPass⟩

/-- Where no item is both less and greater, the ends of a range are those of two descents. -/
theorem equalRange_eq {less greater : α → Bool}
    (apart : ∀ item ∈ tree.toList, less item = true → greater item = false) :
    tree.equalRange less greater =
      (tree.descend less, tree.descend fun item => !greater item) := by
  induction tree with
  | leaf => rfl
  | node left root right leftIh rightIh =>
      have leftEnds := leftIh fun item member => apart item (List.mem_append_left _ member)
      have rightEnds := rightIh fun item member =>
        apart item (List.mem_append_right _ (List.mem_cons_of_mem _ member))
      rw [equalRange, descend, descend]
      by_cases isLess : less root = true
      · have notGreater := apart root (List.mem_append_right _ List.mem_cons_self) isLess
        simp only [isLess, notGreater, rightEnds, Bool.not_false, ↓reduceIte]
      · by_cases isGreater : greater root = true
        · simp only [isLess, isGreater, leftEnds, Bool.not_true, Bool.false_eq_true, ↓reduceIte]
        · simp only [isLess, isGreater, Bool.not_false, Bool.false_eq_true, ↓reduceIte]

/-- Where the items that pass come first, a descent ends behind them in every shape. -/
theorem descend_eq_length {before after : List α} (shape : tree.toList = before ++ after)
    (pass : ∀ item ∈ before, passes item = true) (fail : ∀ item ∈ after, passes item = false) :
    tree.descend passes = before.length := by
  rcases Nat.lt_trichotomy (tree.descend passes) before.length with less | same | greater
  · have found : tree.toList[tree.descend passes]? = some before[tree.descend passes] := by
      rw [shape, List.getElem?_append_left less, List.getElem?_eq_getElem less]
    have failed := descend_stop found
    rw [pass _ (List.getElem_mem less)] at failed
    exact Bool.noConfusion failed
  · exact same
  · obtain ⟨position, ends⟩ :=
      Nat.exists_eq_succ_of_ne_zero (Nat.ne_of_gt (Nat.zero_lt_of_lt greater))
    obtain ⟨item, found, passed⟩ := descend_pass ends
    rw [shape, List.getElem?_append_right (by omega)] at found
    rw [fail item (List.mem_of_getElem? found)] at passed
    exact Bool.noConfusion passed

/-- A tree with a given item at its root. -/
theorem exists_rooted (before : List α) (item : α) (after : List α) :
    ∃ tree : SearchTree α, tree.toList = before ++ item :: after ∧ ∀ passes : α → Bool,
      (passes item = true → before.length < tree.descend passes) ∧
      (passes item = false → tree.descend passes ≤ before.length) := by
  refine ⟨node (spine before) item (spine after), by rw [toList, toList_spine, toList_spine], ?_⟩
  intro passes
  constructor
  · intro pass
    rw [descend, if_pos pass, toList_spine]
    omega
  · intro fail
    rw [descend, if_neg (Bool.eq_false_iff.mp fail)]
    exact (descend_le passes _).trans_eq (congrArg List.length (toList_spine before))

end SearchTree

/-- How a tree is balanced after a change: it may get any shape. -/
structure Balance (α : Type*) where
  tree : List α → SearchTree α
  toList_tree : ∀ items, (tree items).toList = items

open Classical in
/-- Every shape may be the result of balancing. -/
theorem Balance.exists_tree {α : Type*} (tree : SearchTree α) :
    ∃ balance : Balance α, balance.tree tree.toList = tree := by
  refine ⟨⟨fun items => if items = tree.toList then tree else .spine items, fun items => ?_⟩,
    if_pos rfl⟩
  split_ifs with same
  · exact same.symm
  · exact SearchTree.toList_spine items

namespace SearchTree

/-! ### Maps -/

variable {κ β : Type*} (less : κ → κ → Bool) (tree : SearchTree (κ × β)) (key : κ)

/-- The position of the first entry that is not less than a key. -/
def lowerBound : Nat := tree.descend fun entry => less entry.1 key

/-- The entry that a map finds for a key: the first that is not less, unless it is greater. -/
def find : Option (κ × β) :=
  tree.toList[tree.lowerBound less key]?.filter fun entry => !less key entry.1

/-- Hang an entry where the descent to its lower bound ends. Below an item with nothing to its right
the keys are compared again, and an entry that is less after all goes to the left, in place of
what is there. -/
def hang (value : β) : SearchTree (κ × β) → SearchTree (κ × β)
  | leaf => node leaf (key, value) leaf
  | node left item right =>
      if less item.1 key then
        if right.isLeaf && less key item.1 then node (node leaf (key, value) leaf) item leaf
        else node left item (right.hang value)
      else node (left.hang value) item right

/-- Insert an entry whose key is not found. -/
def insertEntry (balance : Balance (κ × β)) (value : β) : SearchTree (κ × β) :=
  balance.tree (tree.hang less key value).toList

/-- Erase the entries that are neither less nor greater than a key. -/
def eraseKey (balance : Balance (κ × β)) : SearchTree (κ × β) :=
  let range := tree.equalRange (fun entry => less entry.1 key) fun entry => less key entry.1
  balance.tree (tree.toList.take range.1 ++ tree.toList.drop range.2)

/-- What is in front of a key is less, and what is behind it is greater. -/
structure Around (before after : List (κ × β)) : Prop where
  before : ∀ entry ∈ before, less entry.1 key = true ∧ less key entry.1 = false
  after : ∀ entry ∈ after, less entry.1 key = false ∧ less key entry.1 = true

section Around

variable {less tree key} {before after : List (κ × β)} {value : β} {balance : Balance (κ × β)}

theorem Around.lowerBound_absent (around : Around less key before after)
    (shape : tree.toList = before ++ after) : tree.lowerBound less key = before.length :=
  descend_eq_length shape (fun entry member => (around.before entry member).1)
    fun entry member => (around.after entry member).1

/-- Where no key is less and greater, an entry is hung in front of the first that is not less. -/
theorem toList_hang (straight : ∀ entry ∈ tree.toList, less entry.1 key = true →
    less key entry.1 = false) :
    (tree.hang less key value).toList = tree.toList.take (tree.lowerBound less key) ++
      (key, value) :: tree.toList.drop (tree.lowerBound less key) := by
  induction tree with
  | leaf => rfl
  | node left item right leftIh rightIh =>
      have leftEnds := leftIh fun entry member => straight entry (List.mem_append_left _ member)
      have rightEnds := rightIh fun entry member =>
        straight entry (List.mem_append_right _ (List.mem_cons_of_mem _ member))
      unfold lowerBound at leftEnds rightEnds ⊢
      rw [hang, descend]
      by_cases isLess : less item.1 key = true
      · have notGreater := straight item (List.mem_append_right _ List.mem_cons_self) isLess
        rw [if_pos isLess, if_pos isLess, notGreater, Bool.and_false, if_neg Bool.false_ne_true,
          toList, toList, rightEnds, Nat.add_assoc, List.take_length_add_append,
          List.drop_length_add_append, Nat.add_comm 1, List.take_succ_cons, List.drop_succ_cons,
          List.append_assoc, List.cons_append]
      · have inside := descend_le (fun entry => less entry.1 key) left
        rw [if_neg isLess, if_neg isLess, toList, toList, leftEnds,
          List.take_append_of_le_length inside, List.drop_append_of_le_length inside,
          List.append_assoc, List.cons_append]

/-- A key that is not there is inserted in its place. -/
theorem Around.toList_insertEntry (around : Around less key before after)
    (shape : tree.toList = before ++ after) :
    (tree.insertEntry less key balance value).toList = before ++ (key, value) :: after := by
  have straight : ∀ entry ∈ tree.toList, less entry.1 key = true → less key entry.1 = false := by
    intro entry member isLess
    rcases List.mem_append.mp (shape ▸ member) with earlier | later
    · exact (around.before entry earlier).2
    · exact absurd isLess (Bool.eq_false_iff.mp (around.after entry later).1)
  unfold insertEntry
  rw [balance.toList_tree, toList_hang straight, around.lowerBound_absent shape, shape,
    List.take_left, List.drop_left]

theorem Around.lowerBound_present (around : Around less key before after)
    (shape : tree.toList = before ++ (key, value) :: after) (irrefl : less key key = false) :
    tree.lowerBound less key = before.length := by
  apply descend_eq_length shape fun entry member => (around.before entry member).1
  intro entry member
  rcases List.mem_cons.mp member with rfl | later
  · exact irrefl
  · exact (around.after entry later).1

/-- A key that is there is found in its place. -/
theorem Around.find_present (around : Around less key before after)
    (shape : tree.toList = before ++ (key, value) :: after) (irrefl : less key key = false) :
    tree.find less key = some (key, value) := by
  unfold find
  rw [around.lowerBound_present shape irrefl, shape,
    List.getElem?_append_right (Nat.le_refl _), Nat.sub_self, List.getElem?_cons_zero,
    Option.filter_some, irrefl]
  rfl

/-- A key that is there is erased, and no other. -/
theorem Around.toList_eraseKey (around : Around less key before after)
    (shape : tree.toList = before ++ (key, value) :: after) (irrefl : less key key = false) :
    (tree.eraseKey less key balance).toList = before ++ after := by
  have whole : tree.toList = (before ++ [(key, value)]) ++ after := by
    rw [shape, List.append_assoc, List.cons_append, List.nil_append]
  have apart : ∀ entry ∈ tree.toList, less entry.1 key = true → less key entry.1 = false := by
    intro entry member isLess
    rw [whole, List.mem_append, List.mem_append, List.mem_singleton] at member
    rcases member with (earlier | rfl) | later
    · exact (around.before entry earlier).2
    · exact irrefl
    · exact absurd isLess (Bool.eq_false_iff.mp (around.after entry later).1)
  have first := around.lowerBound_present shape irrefl
  have last : tree.descend (fun entry => !less key entry.1) = before.length + 1 := by
    rw [show before.length + 1 = (before ++ [(key, value)]).length by
      rw [List.length_append, List.length_singleton]]
    apply descend_eq_length whole
    · intro entry member
      rcases List.mem_append.mp member with earlier | here
      · rw [(around.before entry earlier).2]
        rfl
      · rw [List.mem_singleton.mp here, irrefl]
        rfl
    · intro entry member
      rw [(around.after entry member).2]
      rfl
  unfold eraseKey
  dsimp only
  rw [equalRange_eq apart, balance.toList_tree]
  dsimp only
  rw [last, show tree.descend (fun entry => less entry.1 key) = before.length from first]
  have kept : tree.toList.take before.length = before := by rw [shape, List.take_left]
  have rest : tree.toList.drop (before.length + 1) = after := by
    rw [whole, show before.length + 1 = (before ++ [(key, value)]).length by
      rw [List.length_append, List.length_singleton], List.drop_left]
  rw [kept, rest]

end Around

/-- An entry whose key is greater than that of one behind it is lost in some shape. -/
theorem exists_lost {front back : List (κ × β)} {entry later : κ × β}
    (distinct : (front ++ later :: back).Nodup) (member : entry ∈ front)
    (reversed : less later.1 entry.1 = true) :
    ∃ tree : SearchTree (κ × β), tree.toList = front ++ later :: back ∧
      tree.find less entry.1 ≠ some entry := by
  obtain ⟨tree, shape, ends⟩ := exists_rooted front later back
  refine ⟨tree, shape, fun found => ?_⟩
  have beyond := (ends fun item => less item.1 entry.1).1 reversed
  obtain ⟨held, _⟩ := Option.filter_eq_some_iff.mp found
  unfold lowerBound at held
  rw [shape, List.getElem?_append_right (Nat.le_of_lt beyond)] at held
  exact (List.nodup_append.mp distinct).2.2 entry member entry (List.mem_of_getElem? held) rfl

/-- Hanging an entry keeps the order of the others. It may lose some, but if there is one that is
less than its key and greater, one of these stays. -/
theorem hang_split (value : β) : ∃ front back,
    (tree.hang less key value).toList = front ++ (key, value) :: back ∧
    (front ++ back).Sublist tree.toList ∧
    ∀ entry ∈ tree.toList, less entry.1 key = true → less key entry.1 = true →
      ∃ other ∈ front ++ back, less other.1 key = true ∧ less key other.1 = true := by
  induction tree with
  | leaf => exact ⟨[], [], rfl, List.Sublist.refl _, fun _ member => absurd member List.not_mem_nil⟩
  | node left item right leftIh rightIh =>
      rw [hang]
      split_ifs with isLess lost
      · -- what was to the left is lost, and the item is both
        obtain ⟨_, greater⟩ := Bool.and_eq_true_iff.mp lost
        refine ⟨[], [item], rfl, List.singleton_sublist.mpr ?_, fun _ _ _ _ => ?_⟩
        · exact List.mem_append_right _ List.mem_cons_self
        · exact ⟨item, List.mem_cons_self, isLess, greater⟩
      · obtain ⟨front, back, shape, sub, stays⟩ := rightIh
        refine ⟨left.toList ++ item :: front, back, ?_, ?_, ?_⟩
        · rw [toList, shape, List.append_assoc, List.cons_append]
        · rw [List.append_assoc, List.cons_append]
          exact (sub.cons_cons item).append_left left.toList
        · intro entry member less' greater
          rw [List.append_assoc, List.cons_append]
          rcases List.mem_append.mp member with earlier | inRight
          · exact ⟨entry, List.mem_append_left _ earlier, less', greater⟩
          rcases List.mem_cons.mp inRight with rfl | later
          · exact ⟨entry, List.mem_append_right _ List.mem_cons_self, less', greater⟩
          · obtain ⟨other, memberToo, both⟩ := stays entry later less' greater
            exact ⟨other, List.mem_append_right _ (List.mem_cons_of_mem _ memberToo), both⟩
      · obtain ⟨front, back, shape, sub, stays⟩ := leftIh
        refine ⟨front, back ++ item :: right.toList, ?_, ?_, ?_⟩
        · rw [toList, shape, List.append_assoc, List.cons_append]
        · rw [← List.append_assoc]
          exact sub.append_right _
        · intro entry member less' greater
          rw [← List.append_assoc]
          rcases List.mem_append.mp member with earlier | inRight
          · obtain ⟨other, memberToo, both⟩ := stays entry earlier less' greater
            exact ⟨other, List.mem_append_left _ memberToo, both⟩
          · exact ⟨entry, List.mem_append_right _ inRight, less', greater⟩

/-- Of an old entry and a new one that are each less than the other, one is lost in some shape. -/
theorem exists_lost_of_mutual {front back : List (κ × β)} {old new : κ × β}
    (distinct : (front ++ new :: back).Nodup) (member : old ∈ front ++ back)
    (newLess : less new.1 old.1 = true) (oldLess : less old.1 new.1 = true) :
    ∃ tree : SearchTree (κ × β), tree.toList = front ++ new :: back ∧
      ∃ lost ∈ tree.toList, tree.find less lost.1 ≠ some lost := by
  rcases List.mem_append.mp member with earlier | later
  · obtain ⟨tree, shape, missed⟩ := exists_lost less distinct earlier newLess
    exact ⟨tree, shape, old, shape ▸ List.mem_append_left _ earlier, missed⟩
  · obtain ⟨between, behind, parts⟩ := List.append_of_mem later
    have whole : front ++ new :: back = (front ++ new :: between) ++ old :: behind := by
      rw [parts, List.append_assoc, List.cons_append]
    have inFront : new ∈ front ++ new :: between :=
      List.mem_append_right _ List.mem_cons_self
    rw [whole] at distinct ⊢
    obtain ⟨tree, shape, missed⟩ := exists_lost less distinct inFront oldLess
    exact ⟨tree, shape, new, shape ▸ List.mem_append_left _ inFront, missed⟩

end SearchTree

/-- A list in the order of a relation along which a test only fails falls apart where it first
fails. -/
theorem exists_split {α : Type*} {follows : α → α → Prop} {passes : α → Bool} {items : List α}
    (sorted : items.Pairwise follows)
    (fails : ∀ first ∈ items, ∀ second ∈ items, follows first second →
      passes first = false → passes second = false) :
    ∃ before after, items = before ++ after ∧ (∀ item ∈ before, passes item = true) ∧
      ∀ item ∈ after, passes item = false := by
  induction items with
  | nil =>
      exact ⟨[], [], rfl, fun _ member => absurd member List.not_mem_nil,
        fun _ member => absurd member List.not_mem_nil⟩
  | cons item rest ih =>
      obtain ⟨below, sortedRest⟩ := List.pairwise_cons.mp sorted
      by_cases pass : passes item = true
      · obtain ⟨before, after, shape, passing, failing⟩ := ih sortedRest
          fun first member second memberToo =>
            fails first (List.mem_cons_of_mem _ member) second (List.mem_cons_of_mem _ memberToo)
        refine ⟨item :: before, after, by rw [shape, List.cons_append], ?_, failing⟩
        intro other member
        rcases List.mem_cons.mp member with rfl | earlier
        · exact pass
        · exact passing other earlier
      · refine ⟨[], item :: rest, rfl, fun _ member => absurd member List.not_mem_nil, ?_⟩
        intro other member
        have fail : passes item = false := Bool.eq_false_iff.mpr pass
        rcases List.mem_cons.mp member with rfl | later
        · exact fail
        · exact fails item List.mem_cons_self other member (below other later) fail

end Libcmm.Lib
