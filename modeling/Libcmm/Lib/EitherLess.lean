import Mathlib.Order.Lattice
import Mathlib.Order.Defs.Unbundled

/-! # Comparing pairs by a disjunction

A pair that is less than another in either component. The relation is not the lexicographic
order, nor an order at all: two pairs each less in one component are each less than the other.
Where no two pairs are crossed in this way the relation is a strict weak order, and the pairs
it leaves unordered are equal.
-/

namespace Libcmm.Lib

variable {α β : Type*} [LinearOrder α] [LinearOrder β]

/-- Less in one of the components. -/
def EitherLess (first second : α × β) : Prop := first.1 < second.1 ∨ first.2 < second.2

/-- Less in one of the components and greater in the other. -/
def Crossed (first second : α × β) : Prop :=
  (first.1 < second.1 ∧ second.2 < first.2) ∨ (second.1 < first.1 ∧ first.2 < second.2)

variable {first second third : α × β}

theorem EitherLess.irrefl (pair : α × β) : ¬EitherLess pair pair := by
  rintro (less | less)
  · exact lt_irrefl _ less
  · exact lt_irrefl _ less

/-- Crossed pairs are those each of which is less than the other. -/
theorem crossed_iff : Crossed first second ↔ EitherLess first second ∧ EitherLess second first := by
  constructor
  · rintro (⟨less, greater⟩ | ⟨greater, less⟩)
    · exact ⟨.inl less, .inr greater⟩
    · exact ⟨.inr less, .inl greater⟩
  · rintro ⟨less | less, greater | greater⟩
    · exact absurd greater (lt_asymm less)
    · exact .inl ⟨less, greater⟩
    · exact .inr ⟨greater, less⟩
    · exact absurd greater (lt_asymm less)

/-- Pairs that are less neither way are equal. -/
theorem eq_iff_not_eitherLess :
    first = second ↔ ¬EitherLess first second ∧ ¬EitherLess second first := by
  constructor
  · rintro rfl
    exact ⟨EitherLess.irrefl _, EitherLess.irrefl _⟩
  · rintro ⟨notLess, notGreater⟩
    obtain ⟨above, aboveToo⟩ := not_or.mp notLess
    obtain ⟨below, belowToo⟩ := not_or.mp notGreater
    exact Prod.ext (le_antisymm (not_lt.mp below) (not_lt.mp above))
      (le_antisymm (not_lt.mp belowToo) (not_lt.mp aboveToo))

/-- A pair that is less and not crossed is at most as large in both components. -/
theorem EitherLess.le (less : EitherLess first second) (straight : ¬Crossed first second) :
    first.1 ≤ second.1 ∧ first.2 ≤ second.2 := by
  have notGreater : ¬EitherLess second first := fun greater =>
    straight (crossed_iff.mpr ⟨less, greater⟩)
  obtain ⟨below, belowToo⟩ := not_or.mp notGreater
  exact ⟨not_lt.mp below, not_lt.mp belowToo⟩

theorem EitherLess.trans (less : EitherLess first second) (onward : EitherLess second third)
    (straight : ¬Crossed first second) (straightOn : ¬Crossed second third) :
    EitherLess first third := by
  obtain ⟨le, leToo⟩ := less.le straight
  obtain ⟨leOn, leOnToo⟩ := onward.le straightOn
  rcases less with below | below
  · exact .inl (below.trans_le leOn)
  · exact .inr (below.trans_le leOnToo)

/-- A relation that is transitive except through what is related both ways, and that leaves things
unrelated which have the same key: it is a strict weak order on some things if and only if no two
of them are related both ways. -/
theorem strictWeakOrder_iff_of_key {ι γ : Type*} {less : ι → ι → Prop} {key : ι → γ}
    (trans : ∀ {first second third}, less first second → less second third →
      ¬(less first second ∧ less second first) → ¬(less second third ∧ less third second) →
        less first third)
    (keys : ∀ {first second}, key first = key second ↔ ¬less first second ∧ ¬less second first)
    (items : Set ι) :
    IsStrictWeakOrder items (fun first second => less first.1 second.1) ↔
      ∀ first ∈ items, ∀ second ∈ items, ¬(less first second ∧ less second first) := by
  constructor
  · intro weak first member second memberToo both
    exact weak.toIsStrictOrder.irrefl ⟨first, member⟩
      (weak.toIsStrictOrder.trans _ ⟨second, memberToo⟩ _ both.1 both.2)
  · intro oneWay
    refine @IsStrictWeakOrder.mk _ _ (@IsStrictOrder.mk _ _ ⟨?_⟩ ⟨?_⟩) ?_
    · exact fun item => (keys.mp (Eq.refl (key item.1))).1
    · exact fun first second third before onward => trans before onward
        (oneWay _ first.2 _ second.2) (oneWay _ second.2 _ third.2)
    · intro first second third equal equalOn
      exact keys.mp ((keys.mpr equal).trans (keys.mpr equalOn))

/-- By their pairs things are in a strict weak order if and only if no two pairs are crossed. -/
theorem strictWeakOrder_iff {ι : Type*} (pair : ι → α × β) (items : Set ι) :
    IsStrictWeakOrder items (fun first second => EitherLess (pair first) (pair second)) ↔
      ∀ first ∈ items, ∀ second ∈ items, ¬Crossed (pair first) (pair second) := by
  simp only [crossed_iff]
  apply strictWeakOrder_iff_of_key (fun before onward straight straightOn => ?_)
    eq_iff_not_eitherLess items
  exact before.trans onward (mt crossed_iff.mp straight) (mt crossed_iff.mp straightOn)

end Libcmm.Lib
