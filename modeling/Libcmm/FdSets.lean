import Mathlib.Data.Finset.Card
import Mathlib.Data.Int.Order.Basic

/-! # Sets of descriptors (`fd_set`)

The macros of `select` take any number, but a number from `FD_SETSIZE` on has no bit in a set.
-/

namespace Libcmm

/-- `FD_SETSIZE`. -/
def fdSetSize : Int := 1024

/-- A descriptor has a bit in an `fd_set`. -/
def Representable (fd : Int) : Prop := 0 ≤ fd ∧ fd < fdSetSize

instance (fd : Int) : Decidable (Representable fd) := inferInstanceAs (Decidable (_ ∧ _))

/-- `fd_set`, the descriptors whose bits are set. -/
structure FdSet where
  members : Finset Int
  representable : ∀ fd ∈ members, Representable fd

namespace FdSet

instance : Membership Int FdSet := ⟨fun fds fd => fd ∈ fds.members⟩

instance (fd : Int) (fds : FdSet) : Decidable (fd ∈ fds) :=
  inferInstanceAs (Decidable (fd ∈ fds.members))

instance : EmptyCollection FdSet := ⟨⟨∅, fun _ member => absurd member (Finset.notMem_empty _)⟩⟩

/-- `FD_ISSET`; it traps where there is no such bit. -/
def isSet (fds : FdSet) (fd : Int) : Option Bool :=
  if Representable fd then some (decide (fd ∈ fds)) else none

/-- `FD_SET`. -/
def set (fds : FdSet) (fd : Int) : Option FdSet :=
  if representable : Representable fd then
    some ⟨insert fd fds.members, fun other member =>
      (Finset.mem_insert.mp member).elim (fun same => same ▸ representable)
        (fds.representable other)⟩
  else none

/-- `FD_CLR`. -/
def clr (fds : FdSet) (fd : Int) : Option FdSet :=
  if Representable fd then
    some ⟨fds.members.erase fd, fun other member =>
      fds.representable other (Finset.mem_of_mem_erase member)⟩
  else none

/-- The number of bits that are set. -/
def card (fds : FdSet) : Nat := fds.members.card

/-- The number of bits that are set up to a descriptor. -/
def cardUpTo (fds : FdSet) (most : Int) : Nat := (fds.members.filter (· ≤ most)).card

variable {fds after : FdSet} {fd other : Int}

theorem representable_of_mem (member : fd ∈ fds) : Representable fd := fds.representable fd member

theorem not_mem_empty : fd ∉ (∅ : FdSet) := Finset.notMem_empty fd

theorem eq_empty (none : ∀ fd, fd ∉ fds) : fds = ∅ := by
  cases fds
  congr
  exact Finset.eq_empty_of_forall_notMem none

theorem isSet_of (representable : Representable fd) :
    fds.isSet fd = some (decide (fd ∈ fds)) := if_pos representable

theorem exists_set (fds : FdSet) (representable : Representable fd) :
    ∃ after, fds.set fd = some after ∧ after.members = insert fd fds.members :=
  ⟨_, dif_pos representable, rfl⟩

theorem exists_clr (fds : FdSet) (representable : Representable fd) :
    ∃ after, fds.clr fd = some after ∧ after.members = fds.members.erase fd :=
  ⟨_, if_pos representable, rfl⟩

theorem mem_of_insert (members : after.members = insert fd fds.members) :
    other ∈ after ↔ other = fd ∨ other ∈ fds := by
  change other ∈ after.members ↔ _
  rw [members]
  exact Finset.mem_insert

theorem mem_of_erase (members : after.members = fds.members.erase fd) :
    other ∈ after ↔ other ≠ fd ∧ other ∈ fds := by
  change other ∈ after.members ↔ _
  rw [members]
  exact Finset.mem_erase

theorem card_of_insert (members : after.members = insert fd fds.members) (absent : fd ∉ fds) :
    after.card = fds.card + 1 := by
  rw [card, members]
  exact Finset.card_insert_of_notMem absent

theorem card_of_erase (members : after.members = fds.members.erase fd) (member : fd ∈ fds) :
    after.card + 1 = fds.card := by
  rw [card, members]
  exact Finset.card_erase_add_one member

theorem cardUpTo_le (fds : FdSet) (most : Int) : fds.cardUpTo most ≤ fds.card :=
  Finset.card_filter_le _ _

/-- No bit is beyond a descriptor exactly if all are counted up to it. -/
theorem cardUpTo_eq_card_iff {most : Int} :
    fds.cardUpTo most = fds.card ↔ ∀ fd ∈ fds, fd ≤ most :=
  Finset.card_filter_eq_iff

end FdSet

end Libcmm
