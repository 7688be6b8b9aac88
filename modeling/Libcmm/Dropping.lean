import Mathlib.Logic.Relation
import Libcmm.Lattice

/-! # Dropping IROBs (`PendingIROBLattice::drop_irob_and_dependents`)

When an IROB cannot be sent the sender drops it, and everything that depends on it.
The code goes through the dependents breadth first. Every turn of its loop takes a
victim off the queue, and an IROB puts its dependents there once, when it is erased;
so the loop ends after as many turns as there are dependents recorded, and one more.

`Drops` says what is left: all victims are gone, with the IROBs that depend on one that
is gone, and nothing else.
-/

namespace Libcmm

open Lib

namespace IrobLattice

variable {α : Type}

/-- `PendingIROBLattice::irob_was_dropped`. -/
def irobWasDropped (lattice : IrobLattice α) (id : IrobId) : Bool := lattice.droppedIrobs.contains id

/-- `PendingIROBLattice::irob_is_undeliverable`. -/
def irobIsUndeliverable (lattice : IrobLattice α) (irob : PendingIrob α) : Bool :=
  irob.deps.toList.any lattice.irobWasDropped

/-- The dependents that all pending IROBs have together. -/
def countDependents (lattice : IrobLattice α) : Nat :=
  lattice.pendingIrobs.total fun irob => irob.dependents.toList.length

/-- Erase an IROB at the sender and remember that it was dropped. -/
def drop (lattice : IrobLattice α) (id : IrobId) : IrobLattice α :=
  let erased := (lattice.erase id false).1
  { erased with droppedIrobs := erased.droppedIrobs.insert id }

/-- The loop of `drop_irob_and_dependents`, for a number of turns. -/
def dropVictims : Nat → List IrobId → IrobLattice α → IrobLattice α
  | _, [], lattice => lattice
  | 0, _ :: _, lattice => lattice
  | turns + 1, victim :: victims, lattice =>
      match lattice.find victim with
      | none => dropVictims turns victims lattice
      | some irob => dropVictims turns (victims ++ irob.dependents.toList) (lattice.drop victim)

/-- `PendingIROBLattice::drop_irob_and_dependents`. -/
def dropIrobAndDependents (lattice : IrobLattice α) (id : IrobId) : IrobLattice α :=
  dropVictims (lattice.countDependents + 1) [id] lattice

/-- One turn of the loop of `drop_irob_and_dependents`, which ends when no victim waits. -/
def dropTurn : List IrobId × IrobLattice α → Option (List IrobId × IrobLattice α)
  | ([], _) => none
  | (victim :: victims, lattice) => some (match lattice.find victim with
      | none => (victims, lattice)
      | some irob => (victims ++ irob.dependents.toList, lattice.drop victim))

/-- The victims that the loop erases, in this order. -/
def erasedVictims : Nat → List IrobId → IrobLattice α → List IrobId
  | _, [], _ => []
  | 0, _ :: _, _ => []
  | turns + 1, victim :: victims, lattice =>
      match lattice.find victim with
      | none => erasedVictims turns victims lattice
      | some irob =>
          victim :: erasedVictims turns (victims ++ irob.dependents.toList) (lattice.drop victim)

/-- The IROBs that `drop_irob_and_dependents` erases. -/
def victims (lattice : IrobLattice α) (id : IrobId) : List IrobId :=
  erasedVictims (lattice.countDependents + 1) [id] lattice

variable {lattice : IrobLattice α} {id : IrobId}

/-- Erasing at the sender drops nothing. -/
theorem erase_dropped (lattice : IrobLattice α) (id : IrobId) :
    (lattice.erase id false).1.droppedIrobs = lattice.droppedIrobs := by
  unfold IrobLattice.erase
  cases lattice.find id <;> rfl

/-- Whether some dependency was dropped. -/
theorem irobIsUndeliverable_iff {irob : PendingIrob α} :
    lattice.irobIsUndeliverable irob = true ↔
      ∃ dep ∈ irob.deps, lattice.droppedIrobs.contains dep = true := by
  unfold irobIsUndeliverable irobWasDropped
  rw [List.any_eq_true]
  exact Iff.rfl

/-- A pending IROB is recorded as a dependent of another. -/
def HasDependent (lattice : IrobLattice α) (id dependent : IrobId) : Prop :=
  id.InRange ∧ ∃ irob, lattice.find id = some irob ∧ dependent ∈ irob.dependents

/-- Dropping one pending IROB. -/
theorem WellFormed.drop (wf : lattice.WellFormed) (inRange : id.InRange) {irob : PendingIrob α}
    (found : lattice.find id = some irob) :
    (lattice.drop id).WellFormed ∧
    (lattice.drop id).pastIrobs = lattice.pastIrobs.insert id ∧
    (∀ query : IrobId, query.InRange → (lattice.drop id).find query =
      if query = id then none else lattice.find query) ∧
    (lattice.drop id).countDependents + irob.dependents.toList.length = lattice.countDependents := by
  obtain ⟨-, erasedWf, past, finds⟩ := wf.find_erase inRange found false
  have pending : (lattice.drop id).pendingIrobs = lattice.pendingIrobs.clear (lattice.key id) := by
    unfold IrobLattice.drop IrobLattice.erase
    rw [found]
    rfl
  refine ⟨⟨erasedWf.low, erasedWf.high, erasedWf.tight, erasedWf.stored⟩, past, ?_, ?_⟩
  · intro query queryRange
    have kept := finds query queryRange
    simp only [Bool.false_eq_true, false_and, ↓reduceIte] at kept
    exact kept
  · unfold countDependents
    rw [pending]
    exact Window.total_clear (fun other : PendingIrob α => other.dependents.toList.length) found

theorem drop_rest {irob : PendingIrob α} (found : lattice.find id = some irob) :
    (lattice.drop id).droppedIrobs = lattice.droppedIrobs.insert id ∧
    (lattice.drop id).lastAnonIrobId = lattice.lastAnonIrobId ∧
    (lattice.drop id).minDominatorSet = lattice.minDominatorSet := by
  unfold IrobLattice.drop IrobLattice.erase
  rw [found]
  exact ⟨rfl, rfl, rfl⟩

/-- What is left of a lattice when victims and their dependents were dropped, given the
identifiers that are gone. -/
structure Drops (lattice : IrobLattice α) (victims : List IrobId) (after : IrobLattice α)
    (gone : List IrobId) : Prop where
  wf : after.WellFormed
  find : ∀ query : IrobId, query.InRange →
    after.find query = if query ∈ gone then none else lattice.find query
  past : ∀ query, after.pastIrobs.contains query =
    (decide (query ∈ gone) || lattice.pastIrobs.contains query)
  dropped : ∀ query, after.droppedIrobs.contains query =
    (decide (query ∈ gone) || lattice.droppedIrobs.contains query)
  lastAnon : after.lastAnonIrobId = lattice.lastAnonIrobId
  dominators : after.minDominatorSet = lattice.minDominatorSet
  ranged : ∀ victim ∈ gone, victim.InRange
  pending : ∀ victim ∈ gone, (lattice.find victim).isSome = true
  roots : ∀ victim ∈ victims, victim ∈ gone ∨ lattice.find victim = none
  closed : ∀ victim ∈ gone, ∀ dependent, lattice.HasDependent victim dependent →
    dependent ∈ gone ∨ lattice.find dependent = none
  reached : ∀ victim ∈ gone, ∃ root ∈ victims,
    Relation.ReflTransGen lattice.HasDependent root victim

namespace Drops

variable {after : IrobLattice α} {victims gone : List IrobId}

theorem nil (wf : lattice.WellFormed) : lattice.Drops [] lattice [] where
  wf := wf
  find := fun query _ => by rw [if_neg List.not_mem_nil]
  past := fun query => by simp only [List.not_mem_nil, decide_false, Bool.false_or]
  dropped := fun query => by simp only [List.not_mem_nil, decide_false, Bool.false_or]
  lastAnon := rfl
  dominators := rfl
  ranged := fun _ none => (List.not_mem_nil none).elim
  pending := fun _ none => (List.not_mem_nil none).elim
  roots := fun _ none => (List.not_mem_nil none).elim
  closed := fun _ none => (List.not_mem_nil none).elim
  reached := fun _ none => (List.not_mem_nil none).elim

/-- A victim that is not pending changes nothing. -/
theorem skip (drops : lattice.Drops victims after gone) (absent : lattice.find id = none) :
    lattice.Drops (id :: victims) after gone := by
  refine { drops with roots := fun victim member => ?_, reached := fun victim member => ?_ }
  · rcases List.mem_cons.mp member with rfl | later
    · exact .inr absent
    · exact drops.roots victim later
  · obtain ⟨root, listed, path⟩ := drops.reached victim member
    exact ⟨root, List.mem_cons_of_mem _ listed, path⟩

/-- A pending victim goes, and its dependents after it. -/
theorem visit (wf : lattice.WellFormed) (inRange : id.InRange) {irob : PendingIrob α}
    (found : lattice.find id = some irob) (ranged : ∀ victim ∈ victims, victim.InRange)
    (drops : (lattice.drop id).Drops (victims ++ irob.dependents.toList) after gone) :
    lattice.Drops (id :: victims) after (id :: gone) := by
  obtain ⟨-, past, finds, -⟩ := wf.drop inRange found
  obtain ⟨dropped, lastAnon, dominators⟩ := drop_rest found
  -- what is pending after the first victim went was pending before
  have before : ∀ query other, query.InRange → (lattice.drop id).find query = some other →
      lattice.find query = some other := by
    intro query other queryRange held
    rw [finds query queryRange] at held
    split_ifs at held
    exact held
  have absent : ∀ query, query.InRange → (lattice.drop id).find query = none →
      query ∈ id :: gone ∨ lattice.find query = none := by
    intro query queryRange none
    rw [finds query queryRange] at none
    split_ifs at none with same
    · exact .inl (same ▸ List.mem_cons_self)
    · exact .inr none
  refine { wf := drops.wf, find := ?find, past := ?past, dropped := ?dropped,
           lastAnon := drops.lastAnon.trans lastAnon,
           dominators := drops.dominators.trans dominators,
           ranged := ?ranged, pending := ?pending, roots := ?roots, closed := ?closed,
           reached := ?reached }
  case find =>
    intro query queryRange
    rw [drops.find query queryRange, finds query queryRange]
    by_cases same : query = id
    · subst same
      rw [if_pos rfl, ite_self, if_pos List.mem_cons_self]
    · simp only [same, ↓reduceIte, List.mem_cons, false_or]
  case past =>
    intro query
    rw [drops.past, past, IntSet.contains_insert, Bool.or_left_comm, ← Bool.or_assoc]
    simp only [List.mem_cons, Bool.decide_or]
  case dropped =>
    intro query
    rw [drops.dropped, dropped, IntSet.contains_insert, Bool.or_left_comm, ← Bool.or_assoc]
    simp only [List.mem_cons, Bool.decide_or]
  case ranged =>
    intro victim member
    rcases List.mem_cons.mp member with rfl | later
    · exact inRange
    · exact drops.ranged victim later
  case pending =>
    intro victim member
    rcases List.mem_cons.mp member with rfl | later
    · rw [found]
      rfl
    · obtain ⟨other, held⟩ := Option.isSome_iff_exists.mp (drops.pending victim later)
      rw [before victim other (drops.ranged victim later) held]
      rfl
  case roots =>
    intro victim member
    rcases List.mem_cons.mp member with rfl | later
    · exact .inl List.mem_cons_self
    · rcases drops.roots victim (List.mem_append_left _ later) with went | none
      · exact .inl (List.mem_cons_of_mem _ went)
      · exact absent victim (ranged victim later) none
  case closed =>
    intro victim member dependent listed
    obtain ⟨victimRange, holder, held, recorded⟩ := listed
    have dependentRange := wf.find_dependents victimRange held dependent recorded
    by_cases same : victim = id
    · subst same
      cases found.symm.trans held
      rcases drops.roots dependent (List.mem_append_right _ recorded) with went | none
      · exact .inl (List.mem_cons_of_mem _ went)
      · exact absent dependent dependentRange none
    · have later := (List.mem_cons.mp member).resolve_left same
      have still : (lattice.drop id).find victim = some holder := by
        rw [finds victim victimRange, if_neg same, held]
      rcases drops.closed victim later dependent ⟨victimRange, holder, still, recorded⟩ with
        went | none
      · exact .inl (List.mem_cons_of_mem _ went)
      · exact absent dependent dependentRange none
  case reached =>
    intro victim member
    rcases List.mem_cons.mp member with rfl | later
    · exact ⟨victim, List.mem_cons_self, .refl⟩
    · obtain ⟨root, listed, path⟩ := drops.reached victim later
      have links : ∀ above below, (lattice.drop id).HasDependent above below →
          lattice.HasDependent above below := by
        rintro above below ⟨aboveRange, holder, held, recorded⟩
        exact ⟨aboveRange, holder, before above holder aboveRange held, recorded⟩
      have lifted := Relation.ReflTransGen.mono links root victim path
      rcases List.mem_append.mp listed with waiting | dependent
      · exact ⟨root, List.mem_cons_of_mem _ waiting, lifted⟩
      · exact ⟨id, List.mem_cons_self, .head ⟨inRange, irob, found, dependent⟩ lifted⟩

end Drops

/-- With as many turns as victims are waiting and dependents recorded, the loop ends
because nothing waits any more. -/
theorem WellFormed.dropVictims {turns : Nat} {victims : List IrobId} (wf : lattice.WellFormed)
    (ranged : ∀ victim ∈ victims, victim.InRange)
    (enough : victims.length + lattice.countDependents ≤ turns) :
    lattice.Drops victims (dropVictims turns victims lattice)
        (erasedVictims turns victims lattice) ∧
      Relation.ReflTransGen (fun before after => dropTurn before = some after)
        (victims, lattice) ([], dropVictims turns victims lattice) := by
  induction turns generalizing victims lattice with
  | zero =>
      have none : victims = [] := List.length_eq_zero_iff.mp (by omega)
      subst none
      exact ⟨.nil wf, .refl⟩
  | succ turns ih =>
      cases victims with
      | nil => exact ⟨.nil wf, .refl⟩
      | cons victim victims =>
          have inRange := ranged victim List.mem_cons_self
          have restRanged : ∀ other ∈ victims, other.InRange :=
            fun other member => ranged other (List.mem_cons_of_mem _ member)
          rw [List.length_cons] at enough
          cases found : lattice.find victim with
          | none =>
              obtain ⟨drops, onward⟩ := ih wf restRanged (by omega)
              have turn : dropTurn (victim :: victims, lattice) = some (victims, lattice) := by
                rw [dropTurn, found]
              rw [IrobLattice.dropVictims, erasedVictims, found]
              exact ⟨drops.skip found, .head turn onward⟩
          | some irob =>
              obtain ⟨nextWf, -, -, spent⟩ := wf.drop inRange found
              have nextRanged : ∀ other ∈ victims ++ irob.dependents.toList, other.InRange := by
                intro other member
                rcases List.mem_append.mp member with waiting | dependent
                · exact restRanged other waiting
                · exact wf.find_dependents inRange found other dependent
              obtain ⟨drops, onward⟩ := ih nextWf nextRanged (by rw [List.length_append]; omega)
              have turn : dropTurn (victim :: victims, lattice) =
                  some (victims ++ irob.dependents.toList, lattice.drop victim) := by
                rw [dropTurn, found]
              rw [IrobLattice.dropVictims, erasedVictims, found]
              exact ⟨.visit wf inRange found restRanged drops, .head turn onward⟩

/-- The loop ends with no victim waiting, and `victims` are those it erased. -/
theorem WellFormed.drops (wf : lattice.WellFormed) (inRange : id.InRange) :
    lattice.Drops [id] (lattice.dropIrobAndDependents id) (lattice.victims id) ∧
      Relation.ReflTransGen (fun before after => dropTurn before = some after)
        ([id], lattice) ([], lattice.dropIrobAndDependents id) := by
  apply wf.dropVictims
  · intro victim member
    cases List.mem_singleton.mp member
    exact inRange
  · rw [List.length_singleton]
    omega

/-- Dropping an IROB drops it and all that depends on it through pending IROBs. -/
theorem WellFormed.dropIrobAndDependents (wf : lattice.WellFormed) (inRange : id.InRange) :
    ∃ gone, lattice.Drops [id] (lattice.dropIrobAndDependents id) gone :=
  ⟨_, (wf.drops inRange).1⟩

/-- An IROB is pending as `kept` and is recorded in its dependencies that are not past; the
other IROBs are as they were. -/
structure Recorded [IrobClass α] (lattice : IrobLattice α) (irob : PendingIrob α)
    (after : IrobLattice α) (kept : PendingIrob α) : Prop where
  dependents : ∀ query, query ∈ kept.dependents ↔ query ∈ irob.dependents ∨
    ∃ present, lattice.find irob.id = some present ∧ query ∈ present.dependents
  find : ∀ query : IrobId, query.InRange → after.find query =
    let before := if query = irob.id then some kept else lattice.find query
    if query ∈ kept.deps ∧ lattice.pastIrobs.contains query = false then
      some ((before.getD (makePlaceholder query)).addDependent irob.id) else before

namespace Recorded

variable [IrobClass α] {after : IrobLattice α} {irob kept : PendingIrob α}

/-- What was pending before an insertion is pending after it, with more dependents at
most. -/
theorem find_other (recorded : lattice.Recorded irob after kept) {query : IrobId}
    (queryRange : query.InRange) (other : query ≠ irob.id) {pirob : PendingIrob α}
    (found : lattice.find query = some pirob) :
    after.find query = some pirob ∨ after.find query = some (pirob.addDependent irob.id) := by
  rw [recorded.find query queryRange]
  simp only [other, ↓reduceIte, found, Option.getD_some]
  split_ifs
  · exact .inr rfl
  · exact .inl rfl

/-- The inserted IROB is found, perhaps as its own dependent. -/
theorem find_self (recorded : lattice.Recorded irob after kept) (inRange : irob.id.InRange) :
    after.find irob.id = some kept ∨ after.find irob.id = some (kept.addDependent irob.id) := by
  rw [recorded.find irob.id inRange]
  simp only [↓reduceIte, Option.getD_some]
  split_ifs
  · exact .inr rfl
  · exact .inl rfl

/-- Everything pending after an insertion is the inserted IROB, was pending, or is a new
placeholder. -/
theorem cases (recorded : lattice.Recorded irob after kept) {query : IrobId}
    (queryRange : query.InRange) {pirob : PendingIrob α} (found : after.find query = some pirob) :
    (query = irob.id ∧ (pirob = kept ∨ pirob = kept.addDependent irob.id)) ∨
    (query ≠ irob.id ∧ ∃ old, lattice.find query = some old ∧
      (pirob = old ∨ pirob = old.addDependent irob.id)) ∨
    (query ≠ irob.id ∧ lattice.find query = none ∧ query ∈ kept.deps ∧
      lattice.pastIrobs.contains query = false ∧
      pirob = (makePlaceholder query).addDependent irob.id) := by
  by_cases same : query = irob.id
  · subst same
    refine .inl ⟨rfl, ?_⟩
    rcases recorded.find_self queryRange with held | held
    · exact .inl (Option.some.inj (found.symm.trans held))
    · exact .inr (Option.some.inj (found.symm.trans held))
  · right
    cases before : lattice.find query with
    | some old =>
        refine .inl ⟨same, old, rfl, ?_⟩
        rcases recorded.find_other queryRange same before with held | held
        · exact .inl (Option.some.inj (found.symm.trans held))
        · exact .inr (Option.some.inj (found.symm.trans held))
    | none =>
        rw [recorded.find query queryRange] at found
        simp only [same, ↓reduceIte, before, Option.getD_none] at found
        split_ifs at found with linkedTo
        cases found
        exact .inr ⟨same, rfl, linkedTo.1, linkedTo.2, rfl⟩

/-- The dependents known before an insertion are still known. -/
theorem hasDependent (recorded : lattice.Recorded irob after kept) {above below : IrobId}
    (link : lattice.HasDependent above below) : after.HasDependent above below := by
  obtain ⟨inRange, pirob, found, listed⟩ := link
  refine ⟨inRange, ?_⟩
  have more : below ∈ (pirob.addDependent irob.id).dependents :=
    OrderedSet.mem_insert.mpr (.inr listed)
  by_cases same : above = irob.id
  · subst same
    have kept' : below ∈ kept.dependents :=
      (recorded.dependents below).mpr (.inr ⟨pirob, found, listed⟩)
    rcases recorded.find_self inRange with held | held
    · exact ⟨kept, held, kept'⟩
    · exact ⟨_, held, OrderedSet.mem_insert.mpr (.inr kept')⟩
  · rcases recorded.find_other inRange same found with held | held
    · exact ⟨pirob, held, listed⟩
    · exact ⟨_, held, more⟩

end Recorded

end IrobLattice

end Libcmm
