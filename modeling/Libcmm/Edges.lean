import Libcmm.Dropping
import Libcmm.Inference

/-! # Both ends of a dependency

Every dependency is recorded twice: in the dependency set of the IROB that has it, and
among the dependents of the IROB it names, which may be a placeholder made for the
purpose. Releasing IROBs and dropping them both go by the second record. `Wired` is the
invariant that makes the two agree on pending IROBs, in whatever order IROBs are
inserted, replaced, erased at either end and dropped: a record is forgotten at one end
only when the IROB at the other end is past, and nothing past comes back.
-/

namespace Libcmm

open Lib

namespace IrobLattice

variable {α : Type} {lattice after : IrobLattice α} {id : IrobId}

/-- `PendingIROBLattice::clear`. The dropped IROBs stay known. -/
def clear (lattice : IrobLattice α) : IrobLattice α :=
  { empty with droppedIrobs := lattice.droppedIrobs }

/-- A real IROB was inserted: it is pending as `kept`, and every dependency of it that is
not past lists it. -/
structure Stored [IrobClass α] (lattice : IrobLattice α) (irob : PendingIrob α)
    (after : IrobLattice α) (kept : PendingIrob α) : Prop where
  wf : after.WellFormed
  fresh : lattice.rejects irob = false
  named : kept.id = irob.id
  real : kept.placeholder = false
  ranges : ∀ dep ∈ kept.deps, dep.InRange
  past : after.pastIrobs = lattice.pastIrobs
  dependents : ∀ query, query ∈ kept.dependents ↔ query ∈ irob.dependents ∨
    ∃ present, lattice.find irob.id = some present ∧ query ∈ present.dependents
  find : ∀ query : IrobId, query.InRange → after.find query =
    let before := if query = irob.id then some kept else lattice.find query
    if query ∈ kept.deps ∧ lattice.pastIrobs.contains query = false then
      some ((before.getD (makePlaceholder query)).addDependent irob.id) else before

namespace Stored

variable [IrobClass α] {irob kept : PendingIrob α}

theorem recorded (stored : lattice.Stored irob after kept) : lattice.Recorded irob after kept :=
  ⟨stored.dependents, stored.find⟩

/-- A dependency that is not past lists the inserted IROB. -/
theorem hasDependent_dep (stored : lattice.Stored irob after kept) {dep : IrobId}
    (listed : dep ∈ kept.deps) (fresh : lattice.pastIrobs.contains dep = false) :
    after.HasDependent dep irob.id := by
  have inRange := stored.ranges dep listed
  have held := (stored.find dep inRange).trans (if_pos ⟨listed, fresh⟩)
  exact ⟨inRange, _, held, OrderedSet.mem_insert.mpr (.inl rfl)⟩

/-- The dependents after an insertion are those before and the inserted IROB. -/
theorem hasDependent_cases (stored : lattice.Stored irob after kept) {above below : IrobId}
    (link : after.HasDependent above below) :
    lattice.HasDependent above below ∨ (above = irob.id ∧ below ∈ irob.dependents) ∨
      (below = irob.id ∧ above ∈ kept.deps) := by
  obtain ⟨inRange, pirob, found, recorded⟩ := link
  -- the records that were there before the insertion was linked to its dependencies
  have before : ∀ holder, (if above = irob.id then some kept else lattice.find above) = some holder →
      below ∈ holder.dependents →
        lattice.HasDependent above below ∨ (above = irob.id ∧ below ∈ irob.dependents) := by
    intro holder held listed
    split_ifs at held with same
    · cases held
      rcases (stored.dependents below).mp listed with own | ⟨present, presentFound, old⟩
      · exact .inr ⟨same, own⟩
      · exact .inl ⟨inRange, present, same ▸ presentFound, old⟩
    · exact .inl ⟨inRange, holder, held, listed⟩
  rw [stored.find above inRange] at found
  simp only at found
  generalize (if above = irob.id then some kept else lattice.find above) = held at found before
  split_ifs at found with linkedTo
  · cases found
    rcases OrderedSet.mem_insert.mp recorded with new | listed
    · exact .inr (.inr ⟨new, linkedTo.1⟩)
    · cases held with
      | none => exact (OrderedSet.not_mem_empty below listed).elim
      | some holder => exact (before holder rfl listed).imp_right .inl
  · exact (before pirob found recorded).imp_right .inl

end Stored

/-- What holds of the dependencies an IROB comes with, of the last anonymous IROB and of the
dominators, holds in either mode of what `correct_deps` makes of them. -/
theorem correctDeps_keeps {irob : PendingIrob α} {property : IrobId → Prop} (inferDeps : Bool)
    (itself : property irob.id) (deps : ∀ dep ∈ irob.deps, property dep)
    (last : (0 : Int) ≤ lattice.lastAnonIrobId → property lattice.lastAnonIrobId)
    (dominators : ∀ dominator ∈ lattice.minDominatorSet, property dominator) :
    (∀ dep ∈ (lattice.correctDeps irob inferDeps).2.deps, property dep) ∧
    ((0 : Int) ≤ (lattice.correctDeps irob inferDeps).1.lastAnonIrobId →
      property (lattice.correctDeps irob inferDeps).1.lastAnonIrobId) ∧
    ∀ dominator ∈ (lattice.correctDeps irob inferDeps).1.minDominatorSet, property dominator := by
  cases inferDeps with
  | true => exact correctDeps_forall itself deps last dominators
  | false => exact ⟨fun dep listed => deps dep (OrderedSet.mem_filter.mp listed).1, last, dominators⟩

/-- The two ends of every dependency agree: a dependency of a pending IROB is past or lists
it, and what a pending IROB lists is past or has it as a dependency. Nothing past is
pending, a placeholder has no dependencies, and identifiers are in range. -/
structure Wired (lattice : IrobLattice α) : Prop where
  wf : lattice.WellFormed
  past : ∀ id : IrobId, id.InRange → lattice.pastIrobs.contains id = true → lattice.find id = none
  ranges : ∀ (id : IrobId) irob, id.InRange → lattice.find id = some irob →
    ∀ dep ∈ irob.deps, dep.InRange
  holders : ∀ (id : IrobId) irob, id.InRange → lattice.find id = some irob →
    irob.placeholder = true → ∀ dep, dep ∉ irob.deps
  links : ∀ (id : IrobId) irob, id.InRange → lattice.find id = some irob → ∀ dep ∈ irob.deps,
    lattice.pastIrobs.contains dep = true ∨ lattice.HasDependent dep id
  backlinks : ∀ above below, lattice.HasDependent above below →
    lattice.pastIrobs.contains below = true ∨
      ∃ irob, lattice.find below = some irob ∧ irob.placeholder = false ∧ above ∈ irob.deps
  last : (0 : Int) ≤ lattice.lastAnonIrobId → IrobId.InRange lattice.lastAnonIrobId
  dominators : ∀ dominator ∈ lattice.minDominatorSet, dominator.InRange

namespace Wired

/-- On pending IROBs the two records of a dependency are the same. -/
theorem dep_iff (wired : lattice.Wired) {above below : IrobId} (aboveRange : above.InRange)
    (belowRange : below.InRange) {upper lower : PendingIrob α}
    (upperFound : lattice.find above = some upper) (lowerFound : lattice.find below = some lower) :
    above ∈ lower.deps ↔ below ∈ upper.dependents := by
  constructor
  · intro listed
    rcases wired.links below lower belowRange lowerFound above listed with
      past | ⟨-, holder, held, recorded⟩
    · cases upperFound.symm.trans (wired.past above aboveRange past)
    · cases upperFound.symm.trans held
      exact recorded
  · intro recorded
    rcases wired.backlinks above below ⟨aboveRange, upper, upperFound, recorded⟩ with
      past | ⟨irob, held, -, listed⟩
    · cases lowerFound.symm.trans (wired.past below belowRange past)
    · cases lowerFound.symm.trans held
      exact listed

/-- A lattice without pending IROBs. -/
theorem of_unused (unused : lattice.pendingIrobs = ⟨0, []⟩) (noLast : lattice.lastAnonIrobId = -1)
    (noDominators : lattice.minDominatorSet = ∅) : lattice.Wired := by
  have absent : ∀ id, lattice.find id = none := fun id =>
    Window.get_of_empty (by rw [unused]) _
  have none : ∀ {id : IrobId} {irob : PendingIrob α}, lattice.find id = some irob → False := by
    intro id irob found
    cases (absent id).symm.trans found
  refine ⟨⟨?_, ?_, ?_, ?_⟩, fun id _ _ => absent id, ?_, ?_, ?_, ?_, ?_, ?_⟩
  · rw [unused]
  · rw [unused]
    simp [Window.stop]
  · rw [unused]
    simp [Window.Tight]
  · intro id irob used
    rw [Window.get_of_empty (by rw [unused])] at used
    cases used
  · exact fun id irob _ found => (none found).elim
  · exact fun id irob _ found => (none found).elim
  · exact fun id irob _ found => (none found).elim
  · exact fun above below link => (none link.2.choose_spec.1).elim
  · intro nonneg
    rw [noLast] at nonneg
    omega
  · intro dominator member
    rw [noDominators] at member
    exact (OrderedSet.not_mem_empty dominator member).elim

theorem empty : (IrobLattice.empty : IrobLattice α).Wired := of_unused rfl rfl rfl

theorem clear (lattice : IrobLattice α) : lattice.clear.Wired := of_unused rfl rfl rfl

section Insert

variable [IrobClass α] {irob kept : PendingIrob α} {inferDeps : Bool}

/-- Inserting a real IROB into a wired lattice. -/
theorem stored (wired : lattice.Wired) (real : irob.placeholder = false) (inRange : irob.id.InRange)
    (unlinked : ∀ dependent ∈ irob.dependents, dependent.InRange)
    (depsRange : ∀ dep ∈ irob.deps, dep.InRange)
    (inserted : lattice.insert irob inferDeps = some (after, some kept)) :
    lattice.Stored irob after kept ∧
      ((0 : Int) ≤ after.lastAnonIrobId → IrobId.InRange after.lastAnonIrobId) ∧
      ∀ dominator ∈ after.minDominatorSet, dominator.InRange := by
  rcases insert_cases inserted with ⟨-, refused⟩ |
    ⟨placed, fresh, placing, ⟨holder, -⟩ | ⟨-, result, -⟩⟩
  · cases refused
  · cases real.symm.trans holder
  obtain ⟨named, -, sameDeps, -, whole, dependents⟩ := place_links placing
  have rest := place_rest placing
  have placedRange : IrobId.InRange placed.2.id := named ▸ inRange
  obtain ⟨ranges, last, dominators⟩ := correctDeps_keeps inferDeps placedRange
    (sameDeps ▸ depsRange) (rest.lastAnon ▸ wired.last) (rest.dominators ▸ wired.dominators)
  obtain ⟨linkedAfter, same, wf, keptRest, finds⟩ := wired.wf.insert_placed inRange unlinked real
    fresh inferDeps placing ranges
  cases same.symm.trans inserted
  obtain ⟨deps, shape⟩ := correctDeps_kept placed.1 placed.2 inferDeps
  obtain ⟨-, samePast, -⟩ := correctDeps_lattice placed.1 placed.2 inferDeps
  refine ⟨⟨wf, fresh, ?_, ?_, ranges, keptRest.past.trans (samePast.trans rest.past),
    fun query => ?_, finds⟩, keptRest.lastAnon ▸ last, keptRest.dominators ▸ dominators⟩
  · rw [shape]
    exact named
  · rw [shape]
    exact whole.trans real
  · rw [shape]
    exact dependents query

/-- Inserting a real IROB that nobody was told to depend on keeps the lattice wired. -/
theorem insert (wired : lattice.Wired) (inRange : irob.id.InRange)
    (unlinked : ∀ dependent, dependent ∉ irob.dependents)
    (last : (0 : Int) ≤ after.lastAnonIrobId → IrobId.InRange after.lastAnonIrobId)
    (dominators : ∀ dominator ∈ after.minDominatorSet, dominator.InRange)
    (stored : lattice.Stored irob after kept) : after.Wired := by
  have notPast : lattice.pastIrobs.contains irob.id = false :=
    (Bool.or_eq_false_iff.mp stored.fresh).1
  -- a real IROB that was pending is another one than the IROB inserted
  have other : ∀ (query : IrobId) old, lattice.find query = some old → old.placeholder = false →
      query ≠ irob.id := by
    rintro query old found real rfl
    have fresh := stored.fresh
    unfold rejects at fresh
    rw [found] at fresh
    simp only [real, Bool.not_false, Bool.or_true, Bool.true_eq_false] at fresh
  refine ⟨stored.wf, fun query queryRange past => ?_, ?_, ?_, ?_, ?_, last, dominators⟩
  · rw [stored.past] at past
    have apart : query ≠ irob.id := by
      rintro rfl
      cases notPast.symm.trans past
    rw [stored.find query queryRange]
    simp only [apart, ↓reduceIte, past, Bool.true_eq_false, and_false]
    exact wired.past query queryRange past
  · intro query pirob queryRange found
    rcases stored.recorded.cases queryRange found with ⟨-, rfl | rfl⟩ | ⟨-, old, held, rfl | rfl⟩ |
      ⟨-, -, -, -, rfl⟩
    · exact stored.ranges
    · exact stored.ranges
    · exact wired.ranges query _ queryRange held
    · exact wired.ranges query old queryRange held
    · exact fun dep listed => (OrderedSet.not_mem_empty dep listed).elim
  · intro query pirob queryRange found holder
    rcases stored.recorded.cases queryRange found with ⟨-, rfl | rfl⟩ | ⟨-, old, held, rfl | rfl⟩ |
      ⟨-, -, -, -, rfl⟩
    · cases stored.real.symm.trans holder
    · cases stored.real.symm.trans holder
    · exact wired.holders query _ queryRange held holder
    · exact wired.holders query old queryRange held holder
    · exact fun dep => OrderedSet.not_mem_empty dep
  · intro query pirob queryRange found dep listed
    rw [stored.past]
    have own : ∀ dep ∈ kept.deps, lattice.pastIrobs.contains dep = true ∨
        after.HasDependent dep irob.id := by
      intro dep listed
      cases past : lattice.pastIrobs.contains dep with
      | true => exact .inl rfl
      | false => exact .inr (stored.hasDependent_dep listed past)
    have kept' : ∀ old, lattice.find query = some old → dep ∈ old.deps →
        lattice.pastIrobs.contains dep = true ∨ after.HasDependent dep query :=
      fun old held named => (wired.links query old queryRange held dep named).imp_right
        stored.recorded.hasDependent
    rcases stored.recorded.cases queryRange found with ⟨rfl, rfl | rfl⟩ | ⟨-, old, held, rfl | rfl⟩ |
      ⟨-, -, -, -, rfl⟩
    · exact own dep listed
    · exact own dep listed
    · exact kept' _ held listed
    · exact kept' old held listed
    · exact (OrderedSet.not_mem_empty dep listed).elim
  · intro above below link
    rw [stored.past]
    rcases stored.hasDependent_cases link with known | ⟨-, own⟩ | ⟨rfl, listed⟩
    · rcases wired.backlinks above below known with past | ⟨old, found, real, listed⟩
      · exact .inl past
      · obtain ⟨aboveRange, holder, held, recorded⟩ := known
        have belowRange := wired.wf.find_dependents aboveRange held below recorded
        right
        rcases stored.recorded.find_other belowRange (other below old found real) found with now | now
        · exact ⟨old, now, real, listed⟩
        · exact ⟨_, now, real, listed⟩
    · exact (unlinked below own).elim
    · right
      rcases stored.recorded.find_self inRange with held | held
      · exact ⟨kept, held, stored.real, listed⟩
      · exact ⟨_, held, stored.real, listed⟩

end Insert

/-- Inserting a placeholder for an identifier that is free and not past. -/
theorem hold (wired : lattice.Wired) (inRange : id.InRange) (absent : lattice.find id = none)
    {placed : IrobLattice α} (wf : placed.WellFormed) (rest : placed.SameRest lattice)
    (fresh : lattice.pastIrobs.contains id = false)
    {holder : PendingIrob α} (noDeps : ∀ dep, dep ∉ holder.deps)
    (noDependents : ∀ dependent, dependent ∉ holder.dependents)
    (finds : ∀ query : IrobId, query.InRange → placed.find query =
      if query = id then some holder else lattice.find query) : placed.Wired := by
  have links : ∀ {above below : IrobId}, placed.HasDependent above below ↔
      lattice.HasDependent above below := by
    intro above below
    refine and_congr_right fun aboveRange => ?_
    rw [finds above aboveRange]
    split_ifs with same
    · subst same
      constructor
      · rintro ⟨pirob, held, recorded⟩
        cases held
        exact (noDependents below recorded).elim
      · rintro ⟨pirob, held, -⟩
        cases absent.symm.trans held
    · exact Iff.rfl
  refine ⟨wf, fun query queryRange past => ?_, ?_, ?_, ?_, ?_, rest.lastAnon ▸ wired.last,
    rest.dominators ▸ wired.dominators⟩
  · rw [rest.past] at past
    rw [finds query queryRange, if_neg]
    · exact wired.past query queryRange past
    · rintro rfl
      cases fresh.symm.trans past
  · intro query pirob queryRange held
    rw [finds query queryRange] at held
    split_ifs at held
    · cases held
      exact fun dep listed => (noDeps dep listed).elim
    · exact wired.ranges query pirob queryRange held
  · intro query pirob queryRange held
    rw [finds query queryRange] at held
    split_ifs at held
    · cases held
      exact fun _ => noDeps
    · exact wired.holders query pirob queryRange held
  · intro query pirob queryRange held dep listed
    rw [rest.past, links]
    rw [finds query queryRange] at held
    split_ifs at held
    · cases held
      exact (noDeps dep listed).elim
    · exact wired.links query pirob queryRange held dep listed
  · intro above below link
    rw [rest.past]
    have known := links.mp link
    refine (wired.backlinks above below known).imp_right fun ⟨irob, held, real, listed⟩ => ?_
    obtain ⟨aboveRange, upper, upperFound, recorded⟩ := known
    have belowRange := wired.wf.find_dependents aboveRange upperFound below recorded
    refine ⟨irob, ?_, real, listed⟩
    rw [finds below belowRange, if_neg]
    · exact held
    · rintro rfl
      cases absent.symm.trans held

end Wired

/-- Erasing keeps the last anonymous IROB and adds no dominator. -/
theorem erase_rest (lattice : IrobLattice α) (id : IrobId) (atReceiver : Bool) :
    (lattice.erase id atReceiver).1.lastAnonIrobId = lattice.lastAnonIrobId ∧
      ∀ dominator ∈ (lattice.erase id atReceiver).1.minDominatorSet,
        dominator ∈ lattice.minDominatorSet := by
  have fold : ∀ (dependents : List IrobId) (start : IrobLattice α),
      (dependents.foldl (fun sofar dependent => sofar.update dependent (·.depSatisfied id))
        start).SameRest start := by
    intro dependents
    induction dependents with
    | nil => exact fun _ => .refl _
    | cons dependent rest ih => exact fun start => (ih _).trans .update
  unfold IrobLattice.erase
  cases lattice.find id with
  | none => exact ⟨rfl, fun _ member => member⟩
  | some victim =>
      simp only
      split_ifs
      · rw [(fold _ _).lastAnon, (fold _ _).dominators]
        exact ⟨rfl, fun _ member => (OrderedSet.mem_erase.mp member).1⟩
      · exact ⟨rfl, fun _ member => member⟩

/-- An IROB as a removal left it: it may have lost dependencies that were removed. -/
structure Shrunk (gone : List IrobId) (irob old : PendingIrob α) : Prop where
  placeholder : irob.placeholder = old.placeholder
  dependents : irob.dependents = old.dependents
  deps : ∀ dep ∈ irob.deps, dep ∈ old.deps
  lost : ∀ dep ∈ old.deps, dep ∈ gone ∨ dep ∈ irob.deps

theorem Shrunk.refl (gone : List IrobId) (irob : PendingIrob α) : Shrunk gone irob irob :=
  ⟨rfl, rfl, fun _ => id, fun _ => .inr⟩

/-- What is left when some IROBs were removed at either end. -/
structure Removal (lattice after : IrobLattice α) (gone : List IrobId) : Prop where
  wf : after.WellFormed
  past : ∀ query, after.pastIrobs.contains query = true ↔
    query ∈ gone ∨ lattice.pastIrobs.contains query = true
  absent : ∀ query ∈ gone, query.InRange → after.find query = none
  before : ∀ (query : IrobId) irob, query.InRange → after.find query = some irob →
    ∃ old, lattice.find query = some old ∧ Shrunk gone irob old
  stays : ∀ (query : IrobId) old, query.InRange → lattice.find query = some old → query ∉ gone →
    ∃ irob, after.find query = some irob ∧ Shrunk gone irob old
  lastAnon : after.lastAnonIrobId = lattice.lastAnonIrobId
  dominators : ∀ dominator ∈ after.minDominatorSet, dominator ∈ lattice.minDominatorSet

/-- A removal forgets records of what was removed only. -/
theorem Wired.remove (wired : lattice.Wired) {gone : List IrobId}
    (removal : lattice.Removal after gone) : after.Wired := by
  have links : ∀ {above below : IrobId}, after.HasDependent above below →
      above ∉ gone ∧ lattice.HasDependent above below := by
    rintro above below ⟨aboveRange, upper, held, recorded⟩
    obtain ⟨old, found, shrunk⟩ := removal.before above upper aboveRange held
    refine ⟨fun went => ?_, aboveRange, old, found, shrunk.dependents ▸ recorded⟩
    cases held.symm.trans (removal.absent above went aboveRange)
  have keeps : ∀ {above below : IrobId}, above ∉ gone → lattice.HasDependent above below →
      after.HasDependent above below := by
    rintro above below stays ⟨aboveRange, upper, found, recorded⟩
    obtain ⟨irob, held, shrunk⟩ := removal.stays above upper aboveRange found stays
    exact ⟨aboveRange, irob, held, shrunk.dependents ▸ recorded⟩
  refine ⟨removal.wf, fun query queryRange done => ?_, ?_, ?_, ?_, ?_,
    removal.lastAnon ▸ wired.last, fun dominator member =>
      wired.dominators dominator (removal.dominators dominator member)⟩
  · cases held : after.find query with
    | none => rfl
    | some irob =>
        obtain ⟨old, found, -⟩ := removal.before query irob queryRange held
        rcases (removal.past query).mp done with went | past
        · cases held.symm.trans (removal.absent query went queryRange)
        · cases found.symm.trans (wired.past query queryRange past)
  · intro query irob queryRange held dep listed
    obtain ⟨old, found, shrunk⟩ := removal.before query irob queryRange held
    exact wired.ranges query old queryRange found dep (shrunk.deps dep listed)
  · intro query irob queryRange held holder dep listed
    obtain ⟨old, found, shrunk⟩ := removal.before query irob queryRange held
    exact wired.holders query old queryRange found (shrunk.placeholder ▸ holder) dep
      (shrunk.deps dep listed)
  · intro query irob queryRange held dep listed
    obtain ⟨old, found, shrunk⟩ := removal.before query irob queryRange held
    by_cases went : dep ∈ gone
    · exact .inl ((removal.past dep).mpr (.inl went))
    · rcases wired.links query old queryRange found dep (shrunk.deps dep listed) with past | link
      · exact .inl ((removal.past dep).mpr (.inr past))
      · exact .inr (keeps went link)
  · intro above below link
    obtain ⟨stays, known⟩ := links link
    rcases wired.backlinks above below known with past | ⟨old, found, real, listed⟩
    · exact .inl ((removal.past below).mpr (.inr past))
    · by_cases went : below ∈ gone
      · exact .inl ((removal.past below).mpr (.inl went))
      · obtain ⟨aboveRange, upper, upperFound, recorded⟩ := known
        have belowRange := wired.wf.find_dependents aboveRange upperFound below recorded
        obtain ⟨irob, held, shrunk⟩ := removal.stays below old belowRange found went
        exact .inr ⟨irob, held, shrunk.placeholder ▸ real,
          (shrunk.lost above listed).resolve_left stays⟩

/-- A pending IROB is erased at either end. -/
theorem WellFormed.removal_erase (wf : lattice.WellFormed) (inRange : id.InRange)
    {victim : PendingIrob α} (found : lattice.find id = some victim) (atReceiver : Bool) :
    lattice.Removal (lattice.erase id atReceiver).1 [id] := by
  obtain ⟨-, erasedWf, past, finds⟩ := wf.find_erase inRange found atReceiver
  have shrunk : ∀ irob : PendingIrob α, Shrunk [id] (irob.depSatisfied id) irob := by
    intro irob
    refine ⟨rfl, rfl, fun dep listed => (OrderedSet.mem_erase.mp listed).1, fun dep listed => ?_⟩
    by_cases same : dep = id
    · exact .inl (List.mem_singleton.mpr same)
    · exact .inr (OrderedSet.mem_erase.mpr ⟨listed, same⟩)
  obtain ⟨last, dominators⟩ := erase_rest lattice id atReceiver
  refine ⟨erasedWf, fun query => ?_, fun query went queryRange => ?_,
    fun query irob queryRange held => ?_,
    fun query old queryRange pending stays => ?_, last, dominators⟩
  · rw [past, IntSet.contains_insert, Bool.or_eq_true, decide_eq_true_eq, List.mem_singleton]
  · rw [finds query queryRange, if_pos (List.mem_singleton.mp went)]
  · rw [finds query queryRange] at held
    split_ifs at held
    · obtain ⟨old, pending, rfl⟩ := Option.map_eq_some_iff.mp held
      exact ⟨old, pending, shrunk old⟩
    · exact ⟨irob, held, .refl _ _⟩
  · rw [List.mem_singleton] at stays
    rw [finds query queryRange, if_neg stays]
    split_ifs
    · exact ⟨_, by rw [pending]; rfl, shrunk old⟩
    · exact ⟨old, pending, .refl _ _⟩

theorem Drops.removal {victims gone : List IrobId} (drops : lattice.Drops victims after gone) :
    lattice.Removal after gone := by
  refine ⟨drops.wf, fun query => ?_, fun query went queryRange => ?_,
    fun query irob queryRange held => ?_, fun query old queryRange pending stays => ?_, drops.lastAnon,
    fun dominator member => drops.dominators ▸ member⟩
  · rw [drops.past, Bool.or_eq_true, decide_eq_true_eq]
  · rw [drops.find query queryRange, if_pos went]
  · rw [drops.find query queryRange] at held
    split_ifs at held
    exact ⟨irob, held, .refl _ _⟩
  · rw [drops.find query queryRange, if_neg stays]
    exact ⟨old, pending, .refl _ _⟩

end IrobLattice

end Libcmm
