import Mathlib.Algebra.Order.BigOperators.Group.List
import Mathlib.Algebra.Ring.Nat
import Mathlib.Data.List.GetD
import Mathlib.Tactic.SplitIfs

/-! # Assembling a list of blocks out of order

Blocks arrive in any order, each with its index. The buffer is a list of slots
that grows when an index beyond its end arrives; the slots in between stay empty
until their block comes. `Fits` says that what has arrived so far belongs to a
given list of blocks. It is kept by every arrival, it bounds the two counters an
assembler keeps, and a full buffer that fits is the list itself.
-/

namespace Libcmm.Lib.Assembly

variable {β : Type*}

/-- Store a block under an index, growing the buffer with empty slots. -/
def put : List (Option β) → Nat → β → List (Option β)
  | [], 0, block => [some block]
  | [], index + 1, block => none :: put [] index block
  | _ :: rest, 0, block => some block :: rest
  | slot :: rest, index + 1, block => slot :: put rest index block

/-- The block stored under an index. -/
def held (slots : List (Option β)) (index : Nat) : Option β := slots[index]?.join

/-- How many slots are in use. -/
def filled (slots : List (Option β)) : Nat := slots.countP Option.isSome

/-- The total size of the stored blocks. -/
def weight (size : β → Nat) (slots : List (Option β)) : Nat :=
  (slots.map fun slot => (slot.map size).getD 0).sum

/-- Every stored block is the one of a given list with the same index. -/
def Fits : List (Option β) → List β → Prop
  | [], _ => True
  | _ :: _, [] => False
  | slot :: rest, block :: blocks => (∀ stored, slot = some stored → stored = block) ∧
      Fits rest blocks

@[simp] theorem held_nil (index : Nat) : held ([] : List (Option β)) index = none := rfl

@[simp] theorem held_cons_zero (slot : Option β) (rest : List (Option β)) :
    held (slot :: rest) 0 = slot := by
  cases slot <;> rfl

@[simp] theorem held_cons_succ (slot : Option β) (rest : List (Option β)) (index : Nat) :
    held (slot :: rest) (index + 1) = held rest index := rfl

/-- Storing a block changes what is held under its index only. -/
theorem held_put (slots : List (Option β)) (index query : Nat) (block : β) :
    held (put slots index block) query =
      if query = index then some block else held slots query := by
  induction slots, index, block using put.induct generalizing query with
  | case1 block => cases query <;> simp [put]
  | case2 index block ih => cases query <;> simp [put, ih]
  | case3 slot rest block => cases query <;> simp [put]
  | case4 slot rest index block ih => cases query <;> simp [put, ih]

/-- Nothing is held at the end of the buffer. -/
theorem held_length (slots : List (Option β)) : held slots slots.length = none := by
  unfold held
  rw [List.getElem?_eq_none le_rfl]
  rfl

/-- A slot at the end of the buffer is the one held there. -/
theorem held_append_singleton (slots : List (Option β)) (slot : Option β) (query : Nat) :
    held (slots ++ [slot]) query = if query = slots.length then slot else held slots query := by
  induction slots generalizing query with
  | nil => cases query <;> simp
  | cons first rest ih => cases query <;> simp [ih]

/-- Filling an empty slot counts once. -/
theorem filled_put {slots : List (Option β)} {index : Nat} {block : β}
    (hole : held slots index = none) : filled (put slots index block) = filled slots + 1 := by
  induction slots, index, block using put.induct with
  | case1 block => simp [put, filled]
  | case2 index block ih => simpa [put, filled] using ih rfl
  | case3 slot rest block =>
      rw [held_cons_zero] at hole
      subst hole
      simp [put, filled]
  | case4 slot rest index block ih =>
      have step := ih hole
      simp only [put, filled, List.countP_cons] at step ⊢
      omega

/-- Filling an empty slot adds the size of the block. -/
theorem weight_put {size : β → Nat} {slots : List (Option β)} {index : Nat} {block : β}
    (hole : held slots index = none) :
    weight size (put slots index block) = weight size slots + size block := by
  induction slots, index, block using put.induct with
  | case1 block => simp [put, weight]
  | case2 index block ih => simpa [put, weight] using ih rfl
  | case3 slot rest block =>
      rw [held_cons_zero] at hole
      subst hole
      simp [put, weight, Nat.add_comm]
  | case4 slot rest index block ih =>
      have step := ih hole
      simp only [put, weight, List.map_cons, List.sum_cons] at step ⊢
      omega

theorem fits_put {slots : List (Option β)} {blocks : List β} {index : Nat} {block : β}
    (fits : Fits slots blocks) (listed : blocks[index]? = some block) :
    Fits (put slots index block) blocks := by
  induction slots, index, block using put.induct generalizing blocks with
  | case1 block =>
      cases blocks with
      | nil => cases listed
      | cons first others =>
          cases listed
          exact ⟨fun stored same => (Option.some.inj same).symm, trivial⟩
  | case2 index block ih =>
      cases blocks with
      | nil => cases listed
      | cons first others => exact ⟨fun stored same => (nomatch same), ih trivial listed⟩
  | case3 slot rest block =>
      cases blocks with
      | nil => cases listed
      | cons first others =>
          cases listed
          exact ⟨fun stored same => (Option.some.inj same).symm, fits.2⟩
  | case4 slot rest index block ih =>
      cases blocks with
      | nil => cases listed
      | cons first others => exact ⟨fits.1, ih fits.2 listed⟩

namespace Fits

variable {slots : List (Option β)} {blocks : List β}

theorem length_le (fits : Fits slots blocks) : slots.length ≤ blocks.length := by
  induction slots generalizing blocks with
  | nil => exact Nat.zero_le _
  | cons slot rest ih =>
      cases blocks with
      | nil => exact fits.elim
      | cons block others => exact Nat.succ_le_succ (ih fits.2)

theorem held_eq (fits : Fits slots blocks) {index : Nat} {block : β}
    (stored : held slots index = some block) : blocks[index]? = some block := by
  induction slots generalizing blocks index with
  | nil => cases stored
  | cons slot rest ih =>
      cases blocks with
      | nil => exact fits.elim
      | cons first others =>
          cases index with
          | zero =>
              rw [held_cons_zero] at stored
              rw [fits.1 block stored]
              rfl
          | succ next => exact ih fits.2 stored

theorem filled_le (fits : Fits slots blocks) : filled slots ≤ blocks.length :=
  List.countP_le_length.trans fits.length_le

theorem weight_le (fits : Fits slots blocks) (size : β → Nat) :
    weight size slots ≤ (blocks.map size).sum := by
  induction slots generalizing blocks with
  | nil => exact Nat.zero_le _
  | cons slot rest ih =>
      cases blocks with
      | nil => exact fits.elim
      | cons block others =>
          have later := ih fits.2
          simp only [weight, List.map_cons, List.sum_cons] at later ⊢
          cases slot with
          | none =>
              simp only [Option.map_none, Option.getD_none]
              omega
          | some stored =>
              rw [fits.1 stored rfl]
              simp only [Option.map_some, Option.getD_some]
              omega

/-- More blocks may follow. -/
theorem append (fits : Fits slots blocks) (more : List β) : Fits slots (blocks ++ more) := by
  induction slots generalizing blocks with
  | nil => trivial
  | cons slot rest ih =>
      cases blocks with
      | nil => exact fits.elim
      | cons block others => exact ⟨fits.1, ih fits.2⟩

/-- A buffer that fits and has as many blocks as the list is the list. -/
theorem eq_map_some (fits : Fits slots blocks) (all : filled slots = blocks.length) :
    slots = blocks.map some := by
  induction slots generalizing blocks with
  | nil =>
      rw [List.length_eq_zero_iff.mp all.symm]
      rfl
  | cons slot rest ih =>
      cases blocks with
      | nil => exact fits.elim
      | cons block others =>
          have bound := fits.2.filled_le
          cases slot with
          | none =>
              simp only [filled, List.countP_cons, Option.isSome_none, Bool.false_eq_true,
                ↓reduceIte, List.length_cons] at all bound
              omega
          | some stored =>
              have count : filled rest = others.length := by
                simpa [filled] using all
              rw [fits.1 stored rfl, ih fits.2 count]
              rfl

/-- A buffer that fits and in which nothing is missing is the list. -/
theorem eq_map_some_of_held (fits : Fits slots blocks)
    (all : ∀ index < blocks.length, (held slots index).isSome = true) :
    slots = blocks.map some := by
  induction slots generalizing blocks with
  | nil =>
      cases blocks with
      | nil => rfl
      | cons block others => cases all 0 (Nat.succ_pos _)
  | cons slot rest ih =>
      cases blocks with
      | nil => exact fits.elim
      | cons block others =>
          have first := all 0 (Nat.succ_pos _)
          rw [held_cons_zero] at first
          obtain ⟨stored, rfl⟩ := Option.isSome_iff_exists.mp first
          rw [fits.1 stored rfl, ih fits.2 fun index inside => ?_]
          · rfl
          · exact all (index + 1) (Nat.succ_lt_succ inside)

end Fits

/-! ### Concatenations

Pieces are collected under keys, and the keys have an order. The concatenation in that
order grows at its end as long as nothing is collected under a key before those in front
of it are done with.
-/

section Concatenation

variable {κ α : Type*} {keys : List κ}

/-- What is taken in order is the beginning of the whole. -/
theorem flatMap_beginning {taken whole : κ → List α} (each : ∀ key ∈ keys, taken key <+: whole key)
    (ordered : keys.Pairwise fun first second => taken second ≠ [] → taken first = whole first) :
    keys.flatMap taken <+: keys.flatMap whole := by
  induction keys with
  | nil => exact List.prefix_rfl
  | cons key rest ih =>
      obtain ⟨ahead, restOrdered⟩ := List.pairwise_cons.mp ordered
      have restTaken := ih (fun other member => each other (List.mem_cons_of_mem _ member)) restOrdered
      rw [List.flatMap_cons, List.flatMap_cons]
      by_cases untouched : ∀ other ∈ rest, taken other = []
      · rw [List.flatMap_eq_nil_iff.mpr untouched, List.append_nil]
        exact (each key List.mem_cons_self).trans (List.prefix_append _ _)
      · obtain ⟨other, member, touched⟩ := not_forall₂.mp untouched
        rw [ahead other member touched]
        exact (List.prefix_append_right_inj _).mpr restTaken

/-- What is collected under a key comes last if nothing is there under later keys. -/
theorem flatMap_append_last {before after : κ → List α} {key : κ} {piece : List α}
    (distinct : keys.Nodup) (member : key ∈ keys)
    (others : ∀ other ∈ keys, other ≠ key → after other = before other)
    (grown : after key = before key ++ piece)
    (last : keys.Pairwise fun first second => first = key → before second = []) :
    keys.flatMap after = keys.flatMap before ++ piece := by
  induction keys with
  | nil => cases member
  | cons first rest ih =>
      obtain ⟨absent, restDistinct⟩ := List.nodup_cons.mp distinct
      obtain ⟨ahead, restLast⟩ := List.pairwise_cons.mp last
      have restOthers := fun other inRest => others other (List.mem_cons_of_mem _ inRest)
      rw [List.flatMap_cons, List.flatMap_cons]
      rcases List.mem_cons.mp member with rfl | inRest
      · have empty : rest.flatMap before = [] :=
          List.flatMap_eq_nil_iff.mpr fun other later => ahead other later rfl
        have same : rest.flatMap after = rest.flatMap before := by
          apply List.flatMap_congr
          intro other later
          exact restOthers other later fun same => absent (same ▸ later)
        rw [same, empty, grown, List.append_nil, List.append_nil]
      · rw [ih restDistinct inRest restOthers restLast,
          others first List.mem_cons_self fun same => absent (same ▸ inRest), List.append_assoc]

end Concatenation

end Libcmm.Lib.Assembly
