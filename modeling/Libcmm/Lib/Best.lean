import Mathlib.Order.Lattice
import Mathlib.Data.List.Basic

/-! # The best offer so far

A value and an item are kept while offers come in; an offer replaces them when its value is
strictly greater. What is kept at the end is the item of an offer with the greatest value, or,
when no offer was greater than the value at the start, what was there at the start. For the
least value the order is read the other way round.
-/

namespace Libcmm.Lib

variable {ι α β : Type*} [LinearOrder α]

/-- What is kept after some offers. -/
structure Best (value : ι → α) (item : ι → β) (start : α × β) (offers : List ι)
    (kept : α × β) : Prop where
  above : ∀ offer ∈ offers, value offer ≤ kept.1
  source : kept = start ∨ start.1 < kept.1 ∧ ∃ offer ∈ offers, kept = (value offer, item offer)

namespace Best

variable {value : ι → α} {item : ι → β} {start kept : α × β} {offers : List ι} {offer : ι}

theorem nil : Best value item start [] start :=
  ⟨fun _ member => (List.not_mem_nil member).elim, .inl rfl⟩

theorem start_le (best : Best value item start offers kept) : start.1 ≤ kept.1 := by
  rcases best.source with rfl | ⟨greater, -⟩
  · exact le_rfl
  · exact le_of_lt greater

/-- A greater value replaces what is kept. -/
theorem replaced (best : Best value item start offers kept) (greater : kept.1 < value offer) :
    Best value item start (offers ++ [offer]) (value offer, item offer) := by
  constructor
  · intro other member
    rcases List.mem_append.mp member with old | new
    · exact (best.above other old).trans (le_of_lt greater)
    · rw [List.mem_singleton.mp new]
  · exact .inr ⟨best.start_le.trans_lt greater, offer,
      List.mem_append_right _ (List.mem_singleton_self offer), rfl⟩

/-- No other value does. -/
theorem stays (best : Best value item start offers kept) (notGreater : ¬kept.1 < value offer) :
    Best value item start (offers ++ [offer]) kept := by
  constructor
  · intro other member
    rcases List.mem_append.mp member with old | new
    · exact best.above other old
    · rw [List.mem_singleton.mp new]
      exact not_lt.mp notGreater
  · rcases best.source with same | ⟨greater, found, member, shape⟩
    · exact .inl same
    · exact .inr ⟨greater, found, List.mem_append_left _ member, shape⟩

/-- Without a greater offer the start is kept. -/
theorem eq_start (best : Best value item start offers kept)
    (none : ∀ offer ∈ offers, value offer ≤ start.1) : kept = start := by
  rcases best.source with same | ⟨greater, offer, member, shape⟩
  · exact same
  · rw [shape] at greater
    exact absurd greater (not_lt.mpr (none offer member))

/-- With a greater offer it is an offer that is kept. -/
theorem exists_offer (best : Best value item start offers kept) (member : offer ∈ offers)
    (greater : start.1 < value offer) : ∃ found ∈ offers, kept.2 = item found := by
  rcases best.source with rfl | ⟨-, found, listed, shape⟩
  · exact absurd greater (not_lt.mpr (best.above offer member))
  · exact ⟨found, listed, congrArg Prod.snd shape⟩

end Best

end Libcmm.Lib
