import Libcmm.Irob
import Libcmm.IntSet
import Libcmm.Lib.Window

/-! # The IROB lattice (`PendingIROBLattice`)

The pending IROBs of one direction, stored in a deque indexed by identifier
minus `offset`, with the identifiers already done with (`past_irobs`), the ones
dropped at the sender, and the two members from which the sender infers
dependencies. `pending_irobs` and `offset` together are a `Lib.Window`. The
index, which the code computes in 64 bits and stores in an `int`, is narrowed
(`IrobLattice.key`); the length of the deque, which `insert_locked` narrows as
well, is taken as an unbounded number here. `Libcmm.Insertion` has
`insert_locked` with both narrowed.

`IrobLattice.WellFormed` is the representation invariant. On a well-formed
lattice and identifiers in range the deque is the finite map `find`, and
`find_place`, `find_update`, `find_linkDeps` and `find_erase` say how each
operation changes it.
-/

namespace Libcmm

open Lib

/-- `class PendingIROBLattice`. -/
structure IrobLattice (α : Type) where
  pendingIrobs : Window (PendingIrob α)
  lastAnonIrobId : IrobId
  minDominatorSet : IrobIdSet
  pastIrobs : IntSet
  droppedIrobs : IntSet

namespace IrobLattice

variable {α : Type}

/-- `PendingIROBLattice::PendingIROBLattice`. -/
def empty : IrobLattice α := ⟨⟨0, []⟩, -1, ∅, .empty, .empty⟩

/-- The window key of `int index = id - offset`. An empty deque takes the
identifier as its offset before the index is computed. -/
def key (lattice : IrobLattice α) (id : IrobId) : Int :=
  if lattice.pendingIrobs.slots.isEmpty then id
  else lattice.pendingIrobs.base + toInt (id - lattice.pendingIrobs.base)

/-- `PendingIROBLattice::find_locked`. -/
def find (lattice : IrobLattice α) (id : IrobId) : Option (PendingIrob α) :=
  lattice.pendingIrobs.get (lattice.key id)

/-- `PendingIROBLattice::past_irob_exists`. -/
def pastIrobExists (lattice : IrobLattice α) (id : IrobId) : Bool := lattice.pastIrobs.contains id

/-- `PendingIROBLattice::empty`. -/
def isEmpty (lattice : IrobLattice α) : Bool := lattice.pendingIrobs.slots.isEmpty

/-- Write through the pointer the lattice holds for an identifier. -/
def update (lattice : IrobLattice α) (id : IrobId)
    (write : PendingIrob α → PendingIrob α) : IrobLattice α :=
  { lattice with pendingIrobs := lattice.pendingIrobs.modify (lattice.key id) write }

/-- The two early returns of `insert_locked`: the id is in `past_irobs`, or its
slot already holds a real IROB. -/
def rejects (lattice : IrobLattice α) (irob : PendingIrob α) : Bool :=
  lattice.pastIrobs.contains irob.id ||
    match lattice.find irob.id with
    | some present => !present.placeholder
    | none => false

/-- `PendingIROBLattice::correct_deps`. Without inference the two removals of
satisfied dependencies act as one. -/
def correctDeps (lattice : IrobLattice α) (irob : PendingIrob α) (inferDeps : Bool) :
    IrobLattice α × PendingIrob α :=
  if !inferDeps then (lattice, irob.removeDepsIf lattice.pastIrobs.contains)
  else if irob.anonymous then
    let last := { lattice with lastAnonIrobId := irob.id }
    if (0 : Int) ≤ lattice.lastAnonIrobId ∧ lattice.minDominatorSet.isEmpty then
      (last, irob.addDep lattice.lastAnonIrobId)
    else
      ({ last with minDominatorSet := ∅ },
        { irob with deps := irob.deps.insertAll lattice.minDominatorSet.toList })
  else
    let isect := irob.deps.inter lattice.minDominatorSet
    -- an IROB that depends on a dominator already depends on the last anonymous one
    let linked := if (0 : Int) ≤ lattice.lastAnonIrobId ∧ isect.isEmpty then
      irob.addDep lattice.lastAnonIrobId else irob
    ({ lattice with minDominatorSet :=
      (isect.toList.foldl OrderedSet.erase lattice.minDominatorSet).insert irob.id }, linked)

/-- `PendingIROBLattice::erase_locked`; the flag is its return value. -/
def erase (lattice : IrobLattice α) (id : IrobId) (atReceiver : Bool) : IrobLattice α × Bool :=
  match lattice.find id with
  | none => (lattice, false)
  | some victim =>
      let past := { lattice with
        pendingIrobs := lattice.pendingIrobs.clear (lattice.key id)
        pastIrobs := lattice.pastIrobs.insert id }
      if atReceiver then
        let trimmed := { past with minDominatorSet := lattice.minDominatorSet.erase id }
        (victim.dependents.toList.foldl
          (fun sofar dependent => sofar.update dependent (·.depSatisfied id)) trimmed, true)
      else (past, true)

section Insert

variable [IrobClass α]

/-- What `insert_locked` stores in the slot: the IROB, after it has subsumed a
placeholder found there. -/
def merge (lattice : IrobLattice α) (irob : PendingIrob α) : Option (PendingIrob α) :=
  match lattice.find irob.id with
  | some present =>
      if irob.placeholder || !present.placeholder || present.id != irob.id then none
      else IrobClass.subsume irob present
  | none => some irob

/-- The part of `insert_locked` between its early returns: make a slot and store
the IROB there. -/
def place (lattice : IrobLattice α) (irob : PendingIrob α) :
    Option (IrobLattice α × PendingIrob α) :=
  (lattice.merge irob).map fun stored =>
    ({ lattice with pendingIrobs :=
      (lattice.pendingIrobs.reach (lattice.key irob.id)).put (lattice.key irob.id) stored }, stored)

/-- One turn of the dependency loop of `insert_locked`: make `dependent` known to
the IROB it depends on, through a placeholder if that one is not here yet. How an
IROB is stored is a parameter, and so is how a failed assertion ends. -/
def linkDepWith {m : Type → Type} [Monad m]
    (store : IrobLattice α → PendingIrob α → m (IrobLattice α × PendingIrob α))
    (failed : m (IrobLattice α)) (dependent : IrobId) (lattice : IrobLattice α) (dep : IrobId) :
    m (IrobLattice α) :=
  if lattice.pastIrobs.contains dep then pure lattice
  else match lattice.find dep with
    | some _ => pure (lattice.update dep (·.addDependent dependent))
    | none =>
        let placeholder : PendingIrob α := makePlaceholder dep
        -- ASSERT(ret)
        if lattice.rejects placeholder then failed
        else (fun placed => placed.1.update dep (·.addDependent dependent)) <$>
          store lattice placeholder

/-- `PendingIROBLattice::insert_locked`. The second component is `none` when the
code returns false and otherwise the inserted IROB as `correct_deps` left it. -/
def insertWith {m : Type → Type} [Monad m]
    (store : IrobLattice α → PendingIrob α → m (IrobLattice α × PendingIrob α))
    (failed : m (IrobLattice α)) (lattice : IrobLattice α) (irob : PendingIrob α)
    (inferDeps : Bool) : m (IrobLattice α × Option (PendingIrob α)) :=
  if lattice.rejects irob then pure (lattice, none)
  else do
    let placed ← store lattice irob
    if placed.2.placeholder then pure (placed.1, some placed.2)
    else
      let corrected := placed.1.correctDeps placed.2 inferDeps
      let stored := corrected.1.update irob.id fun _ => corrected.2
      let linked ← corrected.2.deps.toList.foldlM (linkDepWith store failed irob.id) stored
      pure (linked, some corrected.2)

/-- A turn of the dependency loop, where the deque has room for every index. -/
def linkDep (dependent : IrobId) (lattice : IrobLattice α) (dep : IrobId) :
    Option (IrobLattice α) :=
  linkDepWith place none dependent lattice dep

/-- The dependency loop. -/
def linkDeps (lattice : IrobLattice α) (dependent : IrobId) (deps : List IrobId) :
    Option (IrobLattice α) :=
  deps.foldlM (linkDep dependent) lattice

/-- `insert_locked`, where the deque has room for every index. `insertLocked` is the
function with its `int` index, and `insertLocked_eq` says when the two agree. -/
def insert (lattice : IrobLattice α) (irob : PendingIrob α) (inferDeps : Bool) :
    Option (IrobLattice α × Option (PendingIrob α)) :=
  insertWith place none lattice irob inferDeps

theorem linkDep_def (lattice : IrobLattice α) (dependent dep : IrobId) :
    lattice.linkDep dependent dep =
      if lattice.pastIrobs.contains dep then some lattice
      else match lattice.find dep with
        | some _ => some (lattice.update dep (·.addDependent dependent))
        | none =>
            if lattice.rejects (makePlaceholder dep) then none
            else (lattice.place (makePlaceholder dep)).map fun placed =>
              placed.1.update dep (·.addDependent dependent) := rfl

theorem insert_def (lattice : IrobLattice α) (irob : PendingIrob α) (inferDeps : Bool) :
    lattice.insert irob inferDeps =
      if lattice.rejects irob then some (lattice, none)
      else (lattice.place irob).bind fun placed =>
        if placed.2.placeholder then some (placed.1, some placed.2)
        else
          let corrected := placed.1.correctDeps placed.2 inferDeps
          let stored := corrected.1.update irob.id fun _ => corrected.2
          (stored.linkDeps irob.id corrected.2.deps.toList).bind fun linked =>
            some (linked, some corrected.2) := rfl

end Insert

/-! ### The representation invariant -/

/-- The deque is a window on `[0, 2^31)` with a used front entry, every entry is
stored under its own identifier, and the identifiers it lists are in range. -/
structure WellFormed (lattice : IrobLattice α) : Prop where
  low : 0 ≤ lattice.pendingIrobs.base
  high : lattice.pendingIrobs.stop ≤ 2 ^ 31
  tight : lattice.pendingIrobs.Tight
  stored : ∀ id irob, lattice.pendingIrobs.get id = some irob →
    irob.id = id ∧ ∀ dependent ∈ irob.dependents, dependent.InRange

theorem WellFormed.empty : (IrobLattice.empty : IrobLattice α).WellFormed where
  low := le_refl 0
  high := by simp [Window.stop, IrobLattice.empty]
  tight := by simp [Window.Tight, IrobLattice.empty]
  stored := by
    intro id irob used
    rw [Window.get_of_empty rfl] at used
    cases used

/-- Nothing is found in an empty lattice. -/
theorem find_empty (id : IrobId) : (IrobLattice.empty : IrobLattice α).find id = none :=
  Window.get_of_empty rfl _

variable {lattice : IrobLattice α} {id : IrobId}

/-- In range, the narrowed index is the difference of identifier and offset. -/
theorem key_of_bounds (low : 0 ≤ lattice.pendingIrobs.base)
    (high : lattice.pendingIrobs.stop ≤ 2 ^ 31) (inRange : id.InRange) : lattice.key id = id := by
  unfold key
  split_ifs with none
  · rfl
  · have used : lattice.pendingIrobs.slots.length ≠ 0 := fun zero =>
      none (List.isEmpty_iff.mpr (List.length_eq_zero_iff.mp zero))
    unfold Window.stop at high
    obtain ⟨nonneg, below⟩ := inRange
    rw [toInt_of_fits (by omega) (by omega)]
    omega

theorem WellFormed.key_eq (wf : lattice.WellFormed) (inRange : id.InRange) :
    lattice.key id = id := key_of_bounds wf.low wf.high inRange

theorem WellFormed.find_eq (wf : lattice.WellFormed) (inRange : id.InRange) :
    lattice.find id = lattice.pendingIrobs.get id := by
  rw [find, wf.key_eq inRange]

/-- An IROB is found under its own identifier. -/
theorem WellFormed.find_id (wf : lattice.WellFormed) (inRange : id.InRange)
    {irob : PendingIrob α} (found : lattice.find id = some irob) : irob.id = id :=
  (wf.stored id irob (wf.find_eq inRange ▸ found)).1

theorem WellFormed.find_dependents (wf : lattice.WellFormed) (inRange : id.InRange)
    {irob : PendingIrob α} (found : lattice.find id = some irob) :
    ∀ dependent ∈ irob.dependents, dependent.InRange :=
  (wf.stored id irob (wf.find_eq inRange ▸ found)).2

/-- An IROB stored anywhere is found under its own identifier. -/
theorem WellFormed.find_of_get (wf : lattice.WellFormed) {key : Int} {irob : PendingIrob α}
    (used : lattice.pendingIrobs.get key = some irob) :
    irob.id.InRange ∧ lattice.find irob.id = some irob := by
  obtain ⟨named, -⟩ := wf.stored key irob used
  obtain ⟨low, high⟩ := Window.bounds_of_get used
  have inRange : irob.id.InRange := by
    have base := wf.low
    have stop := wf.high
    rw [named]
    exact ⟨by omega, by omega⟩
  refine ⟨inRange, ?_⟩
  rw [wf.find_eq inRange, named]
  exact used

/-- The code's `empty()` test is exact. -/
theorem WellFormed.isEmpty_iff (wf : lattice.WellFormed) :
    lattice.isEmpty = true ↔ ∀ key, lattice.pendingIrobs.get key = none := by
  unfold isEmpty
  rw [List.isEmpty_iff]
  exact wf.tight.slots_eq_nil_iff

/-- The lattices differ in their pending IROBs at most. -/
structure SameRest (first second : IrobLattice α) : Prop where
  past : first.pastIrobs = second.pastIrobs
  dropped : first.droppedIrobs = second.droppedIrobs
  dominators : first.minDominatorSet = second.minDominatorSet
  lastAnon : first.lastAnonIrobId = second.lastAnonIrobId

theorem SameRest.refl (lattice : IrobLattice α) : lattice.SameRest lattice := ⟨rfl, rfl, rfl, rfl⟩

theorem SameRest.trans {first second third : IrobLattice α} (left : first.SameRest second)
    (right : second.SameRest third) : first.SameRest third :=
  ⟨left.past.trans right.past, left.dropped.trans right.dropped,
    left.dominators.trans right.dominators, left.lastAnon.trans right.lastAnon⟩

theorem SameRest.update {write : PendingIrob α → PendingIrob α} :
    (lattice.update id write).SameRest lattice := ⟨rfl, rfl, rfl, rfl⟩

/-! ### Writing through a pointer -/

theorem WellFormed.update (wf : lattice.WellFormed) {write : PendingIrob α → PendingIrob α}
    (keeps : ∀ irob, lattice.find id = some irob → (write irob).id = irob.id ∧
      ∀ dependent ∈ (write irob).dependents, dependent.InRange) :
    (lattice.update id write).WellFormed where
  low := by simpa [IrobLattice.update] using wf.low
  high := by simpa [IrobLattice.update] using wf.high
  tight := Window.tight_modify wf.tight
  stored := by
    intro query irob used
    unfold IrobLattice.update at used
    rw [Window.get_modify] at used
    split_ifs at used with same
    · obtain ⟨before, found, rfl⟩ := Option.map_eq_some_iff.mp used
      obtain ⟨named, ranged⟩ := keeps before found
      exact ⟨named.trans ((wf.stored _ before found).1.trans same.symm), ranged⟩
    · exact wf.stored query irob used

/-- Writing through a pointer changes what is found under the slot it leads to. -/
theorem WellFormed.find_update_key (wf : lattice.WellFormed) {write : PendingIrob α → PendingIrob α}
    {query : IrobId} (queryRange : query.InRange) :
    (lattice.update id write).find query =
      if query = lattice.key id then (lattice.find id).map write else lattice.find query := by
  have keyed : (lattice.update id write).key query = query := by
    have sameKey : (lattice.update id write).key query = lattice.key query := by
      have slots : (lattice.update id write).pendingIrobs.slots.length =
          lattice.pendingIrobs.slots.length := by
        have stop := lattice.pendingIrobs.modify_stop (lattice.key id) write
        have base := lattice.pendingIrobs.modify_base (lattice.key id) write
        unfold Window.stop at stop
        rw [base] at stop
        exact Int.ofNat_inj.mp (add_left_cancel stop)
      unfold key
      rw [show (lattice.update id write).pendingIrobs.base = lattice.pendingIrobs.base from
        Window.modify_base _ _ _]
      congr 2
      rw [Bool.eq_iff_iff, List.isEmpty_iff_length_eq_zero, List.isEmpty_iff_length_eq_zero, slots]
    rw [sameKey, wf.key_eq queryRange]
  rw [find, keyed, IrobLattice.update, Window.get_modify, wf.find_eq queryRange]
  rfl

/-- Writing through one pointer changes what is found under that identifier. -/
theorem WellFormed.find_update (wf : lattice.WellFormed) (inRange : id.InRange)
    {write : PendingIrob α → PendingIrob α} {query : IrobId} (queryRange : query.InRange) :
    (lattice.update id write).find query =
      if query = id then (lattice.find id).map write else lattice.find query := by
  rw [wf.find_update_key queryRange, wf.key_eq inRange]

/-- An entry is replaced. -/
theorem WellFormed.find_write (wf : lattice.WellFormed) (inRange : id.InRange)
    {irob : PendingIrob α} (found : lattice.find id = some irob)
    (write : PendingIrob α → PendingIrob α) {query : IrobId} (queryRange : query.InRange) :
    (lattice.update id write).find query =
      if query = id then some (write irob) else lattice.find query := by
  rw [wf.find_update inRange queryRange, found]
  rfl

theorem WellFormed.find_write_self (wf : lattice.WellFormed) (inRange : id.InRange)
    {irob : PendingIrob α} (found : lattice.find id = some irob)
    (write : PendingIrob α → PendingIrob α) :
    (lattice.update id write).find id = some (write irob) := by
  rw [wf.find_write inRange found write inRange, if_pos rfl]

/-- Writing an entry back as it is changes nothing. -/
theorem update_same {irob : PendingIrob α} (found : lattice.find id = some irob) :
    (lattice.update id fun _ => irob) = lattice := by
  unfold IrobLattice.update
  rw [Window.modify_same found]

/-- An entry is replaced by one with the same links. -/
theorem WellFormed.write (wf : lattice.WellFormed) {irob after : PendingIrob α}
    (found : lattice.find id = some irob) (links : PendingIrob.SameLinks after irob) :
    (lattice.update id fun _ => after).WellFormed := by
  apply wf.update
  intro held heldFound
  cases found.symm.trans heldFound
  refine ⟨links.id, ?_⟩
  rw [links.dependents]
  exact (wf.stored _ irob found).2

/-! ### Inserting -/

section Insert

variable [IrobClass α] {irob : PendingIrob α}

/-- What `place` stores: the IROB itself in a free slot, the IROB with what it
subsumed in the slot of a placeholder. -/
theorem place_cases {result : IrobLattice α × PendingIrob α}
    (placed : lattice.place irob = some result) :
    result.1 = { lattice with pendingIrobs :=
      (lattice.pendingIrobs.reach (lattice.key irob.id)).put (lattice.key irob.id) result.2 } ∧
    ((lattice.find irob.id = none ∧ result.2 = irob) ∨
      ∃ present, lattice.find irob.id = some present ∧ present.placeholder = true ∧
        irob.placeholder = false ∧ IrobClass.subsume irob present = some result.2) := by
  obtain ⟨stored, merged, rfl⟩ := Option.map_eq_some_iff.mp placed
  refine ⟨rfl, ?_⟩
  unfold merge at merged
  cases found : lattice.find irob.id with
  | none =>
      rw [found] at merged
      cases merged
      exact .inl ⟨rfl, rfl⟩
  | some present =>
      rw [found] at merged
      simp only at merged
      split_ifs at merged with refused
      simp only [Bool.or_eq_true, not_or, Bool.not_eq_true, Bool.not_eq_false'] at refused
      exact .inr ⟨present, rfl, refused.1.2, refused.1.1, merged⟩

/-- Placing touches nothing but pending IROBs. -/
theorem place_rest {result : IrobLattice α × PendingIrob α}
    (placed : lattice.place irob = some result) : result.1.SameRest lattice := by
  rw [(place_cases placed).1]
  exact ⟨rfl, rfl, rfl, rfl⟩

/-- A real IROB keeps its links when it is placed, and its dependents become its
own together with those of the placeholder it replaces. -/
theorem place_links {result : IrobLattice α × PendingIrob α}
    (placed : lattice.place irob = some result) :
    result.2.id = irob.id ∧ result.2.sendLabels = irob.sendLabels ∧
      result.2.deps = irob.deps ∧ result.2.anonymous = irob.anonymous ∧
      result.2.placeholder = irob.placeholder ∧
      ∀ query, query ∈ result.2.dependents ↔ query ∈ irob.dependents ∨
        ∃ present, lattice.find irob.id = some present ∧ query ∈ present.dependents := by
  rcases (place_cases placed).2 with ⟨absent, same⟩ | ⟨present, found, -, -, merged⟩
  · rw [same]
    refine ⟨rfl, rfl, rfl, rfl, rfl, fun query => ?_⟩
    simp only [absent, reduceCtorEq, false_and, exists_false, or_false]
  · have links := IrobClass.subsume_links merged
    refine ⟨links.id, links.sendLabels, links.deps, links.anonymous, links.placeholder,
      fun query => ?_⟩
    rw [links.dependents, OrderedSet.mem_insertAll, OrderedSet.mem_toList, found]
    simp only [Option.some.injEq, exists_eq_left']
    exact or_comm

/-- Placing an IROB keeps the lattice well formed and changes what is found
under its identifier only. -/
theorem WellFormed.find_place (wf : lattice.WellFormed) (inRange : irob.id.InRange)
    (ranged : ∀ dependent ∈ irob.dependents, dependent.InRange)
    {result : IrobLattice α × PendingIrob α} (placed : lattice.place irob = some result) :
    result.1.WellFormed ∧ ∀ query : IrobId, query.InRange → result.1.find query =
      if query = irob.id then some result.2 else lattice.find query := by
  obtain ⟨shape, -⟩ := place_cases placed
  obtain ⟨named, -, -, -, -, dependents⟩ := place_links placed
  rw [wf.key_eq inRange] at shape
  obtain ⟨low, high, whenEmpty, whenUsed⟩ :=
    lattice.pendingIrobs.reach_bounds irob.id
  obtain ⟨nonneg, below⟩ := inRange
  have gets : ∀ query, result.1.pendingIrobs.get query =
      if query = irob.id then some result.2 else lattice.pendingIrobs.get query := by
    intro query
    rw [shape, Window.get_put low high, Window.get_reach]
  have wf' : result.1.WellFormed := by
    constructor
    · rw [shape]
      by_cases none : lattice.pendingIrobs.slots = []
      · change 0 ≤ (lattice.pendingIrobs.reach irob.id).base
        rw [(whenEmpty none).1]
        exact nonneg
      · have base := wf.low
        change 0 ≤ (lattice.pendingIrobs.reach irob.id).base
        rw [(whenUsed none).1]
        omega
    · rw [shape]
      change ((lattice.pendingIrobs.reach irob.id).put irob.id result.2).stop ≤ _
      rw [Window.put_stop]
      by_cases none : lattice.pendingIrobs.slots = []
      · rw [(whenEmpty none).2]
        omega
      · have stop := wf.high
        rw [(whenUsed none).2]
        omega
    · rw [shape]
      exact Window.tight_put_reach wf.tight
    · intro query found held
      rw [gets] at held
      split_ifs at held with same
      · cases held
        refine ⟨named.trans same.symm, fun dependent member => ?_⟩
        rcases (dependents dependent).mp member with own | ⟨present, found, other⟩
        · exact ranged dependent own
        · exact wf.find_dependents ⟨nonneg, below⟩ found dependent other
      · exact wf.stored query found held
  refine ⟨wf', fun query queryRange => ?_⟩
  rw [wf'.find_eq queryRange, gets, wf.find_eq queryRange]

/-- An IROB that is neither past nor already real is placed unless the merge with
its placeholder traps. -/
theorem place_isSome (fresh : lattice.rejects irob = false)
    (real : ∀ present, lattice.find irob.id = some present → irob.placeholder = false ∧
      present.id = irob.id ∧ (IrobClass.subsume irob present).isSome) :
    ∃ result, lattice.place irob = some result := by
  suffices stores : ∃ stored, lattice.merge irob = some stored by
    obtain ⟨stored, merged⟩ := stores
    exact ⟨_, Option.map_eq_some_iff.mpr ⟨stored, merged, rfl⟩⟩
  unfold merge
  cases found : lattice.find irob.id with
  | none => exact ⟨irob, rfl⟩
  | some present =>
      obtain ⟨whole, named, merges⟩ := real present found
      have holder : present.placeholder = true := by
        unfold rejects at fresh
        rw [found] at fresh
        simpa using (Bool.or_eq_false_iff.mp fresh).2
      simp only [whole, holder, named, bne_self_eq_false, Bool.not_true, Bool.or_self,
        Bool.false_eq_true, ↓reduceIte]
      exact Option.isSome_iff_exists.mp merges

@[simp] theorem makePlaceholder_id (id : IrobId) : (makePlaceholder id : PendingIrob α).id = id := rfl

/-- A placeholder goes into any free slot of an identifier that is not past. -/
theorem WellFormed.place_placeholder (wf : lattice.WellFormed) (inRange : id.InRange)
    (absent : lattice.find id = none) (unsatisfied : lattice.pastIrobs.contains id = false) :
    lattice.rejects (makePlaceholder id) = false ∧
      ∃ placed, lattice.place (makePlaceholder id) = some (placed, makePlaceholder id) ∧
        placed.WellFormed ∧ placed.SameRest lattice ∧
        ∀ query : IrobId, query.InRange → placed.find query =
          if query = id then some (makePlaceholder id) else lattice.find query := by
  have fresh : lattice.rejects (makePlaceholder id) = false := by
    unfold rejects
    rw [makePlaceholder_id, absent, unsatisfied]
    rfl
  obtain ⟨⟨placed, stored⟩, placing⟩ := place_isSome fresh (by
    intro present held
    rw [makePlaceholder_id, absent] at held
    cases held)
  obtain ⟨placedWf, finds⟩ := wf.find_place inRange
    (fun other member => (OrderedSet.not_mem_empty other member).elim) placing
  obtain ⟨shape, ⟨-, stores⟩ | ⟨present, held, -⟩⟩ := place_cases placing
  · simp only at shape stores finds placedWf
    subst stores
    exact ⟨fresh, placed, placing, placedWf,
      ⟨by rw [shape], by rw [shape], by rw [shape], by rw [shape]⟩, finds⟩
  · rw [makePlaceholder_id, absent] at held
    cases held

/-- The IROB a dependency edge is recorded in: the one found, or a new placeholder. -/
def linkTarget (lattice : IrobLattice α) (dep : IrobId) : PendingIrob α :=
  (lattice.find dep).getD (makePlaceholder dep)

omit [IrobClass α] in
/-- Recording a dependent keeps the lattice well formed. -/
theorem WellFormed.update_addDependent (wf : lattice.WellFormed) (inRange : id.InRange)
    {dependent : IrobId} (dependentRange : dependent.InRange) :
    (lattice.update id (·.addDependent dependent)).WellFormed := by
  refine wf.update fun irob held => ⟨rfl, fun other member => ?_⟩
  rcases OrderedSet.mem_insert.mp member with rfl | own
  · exact dependentRange
  · exact wf.find_dependents inRange held other own

/-- One dependency edge is recorded, unless the dependency is already satisfied. -/
theorem WellFormed.linkDep (wf : lattice.WellFormed) {dependent dep : IrobId}
    (dependentRange : dependent.InRange) (depRange : dep.InRange) :
    ∃ linked, lattice.linkDep dependent dep = some linked ∧ linked.WellFormed ∧
      linked.SameRest lattice ∧ ∀ query : IrobId, query.InRange → linked.find query =
        if query = dep ∧ lattice.pastIrobs.contains query = false then
          some ((lattice.linkTarget query).addDependent dependent) else lattice.find query := by
  rw [linkDep_def]
  by_cases past : lattice.pastIrobs.contains dep = true
  · rw [if_pos past]
    refine ⟨lattice, rfl, wf, .refl _, fun query _ => ?_⟩
    rw [if_neg]
    rintro ⟨rfl, unsatisfied⟩
    rw [past] at unsatisfied
    cases unsatisfied
  · rw [if_neg past]
    rw [Bool.not_eq_true] at past
    cases found : lattice.find dep with
    | some present =>
        refine ⟨_, rfl, wf.update_addDependent depRange dependentRange, .update,
          fun query queryRange => ?_⟩
        rw [wf.find_update depRange queryRange]
        by_cases same : query = dep
        · subst same
          rw [if_pos rfl, if_pos ⟨rfl, past⟩, linkTarget, found]
          rfl
        · rw [if_neg same, if_neg fun both => same both.1]
    | none =>
        obtain ⟨fresh, placed, placing, placedWf, placedRest, finds⟩ :=
          wf.place_placeholder depRange found past
        refine ⟨placed.update dep (·.addDependent dependent), ?_,
          placedWf.update_addDependent depRange dependentRange, .trans .update placedRest,
          fun query queryRange => ?_⟩
        · simp only [fresh, Bool.false_eq_true, ↓reduceIte, placing, Option.map_some]
        · rw [placedWf.find_update depRange queryRange, finds dep depRange, if_pos rfl,
            finds query queryRange]
          by_cases same : query = dep
          · subst same
            rw [if_pos rfl, if_pos ⟨rfl, past⟩, linkTarget, found]
            rfl
          · rw [if_neg same, if_neg same, if_neg fun both => same both.1]

/-- The dependency loop records the dependent in every unsatisfied dependency, as
a placeholder where the lattice has no IROB. -/
theorem WellFormed.find_linkDeps (wf : lattice.WellFormed) {dependent : IrobId}
    {deps : List IrobId} (dependentRange : dependent.InRange)
    (depsRange : ∀ dep ∈ deps, dep.InRange) (distinct : deps.Nodup) :
    ∃ linked, lattice.linkDeps dependent deps = some linked ∧ linked.WellFormed ∧
      linked.SameRest lattice ∧ ∀ query : IrobId, query.InRange → linked.find query =
        if query ∈ deps ∧ lattice.pastIrobs.contains query = false then
          some ((lattice.linkTarget query).addDependent dependent) else lattice.find query := by
  induction deps generalizing lattice with
  | nil =>
      refine ⟨lattice, rfl, wf, .refl _, fun query _ => ?_⟩
      simp only [List.not_mem_nil, false_and, ↓reduceIte]
  | cons dep rest ih =>
      obtain ⟨unlisted, restDistinct⟩ := List.nodup_cons.mp distinct
      obtain ⟨next, linkedOne, nextWf, nextRest, nextFind⟩ :=
        wf.linkDep dependentRange (depsRange dep List.mem_cons_self)
      obtain ⟨last, linkedMore, lastWf, lastRest, lastFind⟩ := ih nextWf
        (fun other member => depsRange other (List.mem_cons_of_mem _ member)) restDistinct
      refine ⟨last, Option.bind_eq_some_iff.mpr ⟨next, linkedOne, linkedMore⟩, lastWf,
        lastRest.trans nextRest, fun query queryRange => ?_⟩
      rw [lastFind query queryRange, nextRest.past]
      by_cases later : query ∈ rest
      · have other : query ≠ dep := fun same => unlisted (same ▸ later)
        have kept : next.find query = lattice.find query := by
          rw [nextFind query queryRange, if_neg fun both => other both.1]
        simp only [List.mem_cons, later, or_true, true_and, linkTarget, kept]
      · rw [if_neg fun both => later both.1, nextFind query queryRange]
        simp only [List.mem_cons, later, or_false]

omit [IrobClass α] in
/-- Correcting dependencies changes none but the dependency set of the IROB. -/
theorem correctDeps_kept (lattice : IrobLattice α) (irob : PendingIrob α) (inferDeps : Bool) :
    ∃ deps, (lattice.correctDeps irob inferDeps).2 = { irob with deps := deps } := by
  unfold correctDeps
  dsimp only
  split_ifs <;> exact ⟨_, rfl⟩

omit [IrobClass α] in
/-- Correcting dependencies leaves the pending and the past IROBs alone. -/
theorem correctDeps_lattice (lattice : IrobLattice α) (irob : PendingIrob α) (inferDeps : Bool) :
    (lattice.correctDeps irob inferDeps).1.pendingIrobs = lattice.pendingIrobs ∧
      (lattice.correctDeps irob inferDeps).1.pastIrobs = lattice.pastIrobs ∧
      (lattice.correctDeps irob inferDeps).1.droppedIrobs = lattice.droppedIrobs := by
  unfold correctDeps
  split_ifs <;> exact ⟨rfl, rfl, rfl⟩

/-- A placed IROB is stored again with its corrected dependencies. -/
theorem WellFormed.correct_placed (wf : lattice.WellFormed) (inRange : irob.id.InRange)
    (ranged : ∀ dependent ∈ irob.dependents, dependent.InRange) (inferDeps : Bool)
    {placed : IrobLattice α × PendingIrob α} (placing : lattice.place irob = some placed) :
    let corrected := placed.1.correctDeps placed.2 inferDeps
    let stored := corrected.1.update irob.id fun _ => corrected.2
    stored.WellFormed ∧ stored.SameRest corrected.1 ∧
      corrected.1.pastIrobs = lattice.pastIrobs ∧
      ∀ query : IrobId, query.InRange →
        stored.find query = if query = irob.id then some corrected.2 else lattice.find query := by
  obtain ⟨placedWf, placedFind⟩ := wf.find_place inRange ranged placing
  obtain ⟨named, -⟩ := place_links placing
  obtain ⟨deps, keptEq⟩ := correctDeps_kept placed.1 placed.2 inferDeps
  obtain ⟨samePending, samePast, -⟩ := correctDeps_lattice placed.1 placed.2 inferDeps
  have correctedWf : (placed.1.correctDeps placed.2 inferDeps).1.WellFormed :=
    ⟨samePending ▸ placedWf.low, samePending ▸ placedWf.high, samePending ▸ placedWf.tight,
      samePending ▸ placedWf.stored⟩
  have correctedFind : ∀ query, (placed.1.correctDeps placed.2 inferDeps).1.find query =
      placed.1.find query := by
    intro query
    unfold find key
    rw [samePending]
  dsimp only
  generalize placed.1.correctDeps placed.2 inferDeps = corrected at *
  have keptNamed : corrected.2.id = irob.id := by rw [keptEq]; exact named
  have found : corrected.1.find irob.id = some placed.2 := by
    rw [correctedFind, placedFind _ inRange, if_pos rfl]
  refine ⟨?_, .update, samePast.trans (place_rest placing).past, fun query queryRange => ?_⟩
  · exact correctedWf.update fun held heldFound => by
      rw [found] at heldFound
      cases heldFound
      refine ⟨keptNamed.trans named.symm, fun other member => ?_⟩
      exact correctedWf.find_dependents inRange found other (by rw [keptEq] at member; exact member)
  · rw [correctedWf.find_update inRange queryRange, found, correctedFind,
      placedFind query queryRange]
    split_ifs <;> rfl

/-- Inserting a placed real IROB: it is found with its corrected dependencies, it
is recorded in every dependency not yet satisfied, and nothing else changes. -/
theorem WellFormed.insert_placed (wf : lattice.WellFormed) (inRange : irob.id.InRange)
    (ranged : ∀ dependent ∈ irob.dependents, dependent.InRange)
    (real : irob.placeholder = false) (fresh : lattice.rejects irob = false) (inferDeps : Bool)
    {placed : IrobLattice α × PendingIrob α} (placing : lattice.place irob = some placed)
    (depsRange : ∀ dep ∈ (placed.1.correctDeps placed.2 inferDeps).2.deps, dep.InRange) :
    ∃ linked, lattice.insert irob inferDeps =
        some (linked, some (placed.1.correctDeps placed.2 inferDeps).2) ∧
      linked.WellFormed ∧ linked.SameRest (placed.1.correctDeps placed.2 inferDeps).1 ∧
      ∀ query : IrobId, query.InRange → linked.find query =
        let kept := (placed.1.correctDeps placed.2 inferDeps).2
        let before := if query = irob.id then some kept else lattice.find query
        if query ∈ kept.deps ∧ lattice.pastIrobs.contains query = false then
          some ((before.getD (makePlaceholder query)).addDependent irob.id) else before := by
  obtain ⟨storedWf, storedRest, past, storedFind⟩ :=
    wf.correct_placed inRange ranged inferDeps placing
  have realPlaced : placed.2.placeholder = false :=
    (place_links placing).2.2.2.2.1.trans real
  obtain ⟨linked, linking, linkedWf, linkedRest, linkedFind⟩ := storedWf.find_linkDeps inRange
    depsRange ((placed.1.correctDeps placed.2 inferDeps).2.deps.sorted.imp ne_of_lt)
  refine ⟨linked, ?_, linkedWf, linkedRest.trans storedRest, fun query queryRange => ?_⟩
  · rw [insert_def]
    simp only [fresh, Bool.false_eq_true, ↓reduceIte, placing, Option.bind_some, realPlaced,
      linking]
  · rw [linkedFind query queryRange, linkTarget, storedFind query queryRange, storedRest.past, past]
    rfl

end Insert

/-! ### Erasing -/

/-- The loop of `erase_locked` over the dependents of the erased IROB. -/
theorem WellFormed.find_satisfy (wf : lattice.WellFormed) (id : IrobId) {dependents : List IrobId}
    (ranged : ∀ dependent ∈ dependents, dependent.InRange) (distinct : dependents.Nodup) :
    let satisfied := dependents.foldl
      (fun sofar dependent => sofar.update dependent (·.depSatisfied id)) lattice
    satisfied.WellFormed ∧ satisfied.SameRest lattice ∧
      ∀ query : IrobId, query.InRange → satisfied.find query =
        if query ∈ dependents then (lattice.find query).map (·.depSatisfied id)
        else lattice.find query := by
  induction dependents generalizing lattice with
  | nil => exact ⟨wf, .refl _, fun query _ => by simp only [List.not_mem_nil, ↓reduceIte,
      List.foldl_nil]⟩
  | cons dependent rest ih =>
      obtain ⟨unlisted, restDistinct⟩ := List.nodup_cons.mp distinct
      have inRange := ranged dependent List.mem_cons_self
      have nextWf : (lattice.update dependent (·.depSatisfied id)).WellFormed :=
        wf.update fun irob found => ⟨rfl, fun other member =>
          wf.find_dependents inRange found other member⟩
      obtain ⟨lastWf, lastRest, lastFind⟩ := ih nextWf
        (fun other member => ranged other (List.mem_cons_of_mem _ member)) restDistinct
      refine ⟨lastWf, lastRest.trans .update, fun query queryRange => ?_⟩
      rw [List.foldl_cons, lastFind query queryRange, wf.find_update inRange queryRange]
      by_cases same : query = dependent
      · subst same
        simp only [unlisted, ↓reduceIte, List.mem_cons_self]
      · simp only [same, ↓reduceIte, List.mem_cons, false_or]

/-- Erasing at either end: the identifier becomes past and is found no more. At
the receiver its dependents lose it from their dependency sets. -/
theorem WellFormed.find_erase (wf : lattice.WellFormed) (inRange : id.InRange)
    {victim : PendingIrob α} (found : lattice.find id = some victim) (atReceiver : Bool) :
    (lattice.erase id atReceiver).2 = true ∧ (lattice.erase id atReceiver).1.WellFormed ∧
      (lattice.erase id atReceiver).1.pastIrobs = lattice.pastIrobs.insert id ∧
      ∀ query : IrobId, query.InRange → (lattice.erase id atReceiver).1.find query =
        if query = id then none
        else if atReceiver = true ∧ query ∈ victim.dependents then
          (lattice.find query).map (·.depSatisfied id)
        else lattice.find query := by
  have keyed := wf.key_eq inRange
  have used : lattice.pendingIrobs.get id = some victim := wf.find_eq inRange ▸ found
  obtain ⟨low, -⟩ := Window.bounds_of_get used
  obtain ⟨raised, sameStop⟩ := lattice.pendingIrobs.clear_bounds id
  have gets : ∀ query, (lattice.pendingIrobs.clear id).get query =
      if query = id then none else lattice.pendingIrobs.get query :=
    Window.get_clear low
  -- both modes erase from this lattice, with different dominator sets
  have erased : ∀ rest : IrobLattice α, rest.pendingIrobs = lattice.pendingIrobs.clear id →
      rest.WellFormed ∧ ∀ query : IrobId, query.InRange → rest.find query =
        if query = id then none else lattice.find query := by
    intro rest shape
    have restWf : rest.WellFormed := by
      refine ⟨?_, ?_, ?_, ?_⟩
      · rw [shape]
        exact wf.low.trans raised
      · rw [shape, sameStop]
        exact wf.high
      · rw [shape]
        exact Window.tight_clear id
      · intro query irob held
        rw [shape, gets] at held
        split_ifs at held
        exact wf.stored query irob held
    refine ⟨restWf, fun query queryRange => ?_⟩
    rw [restWf.find_eq queryRange, shape, gets, wf.find_eq queryRange]
  unfold IrobLattice.erase
  rw [found]
  simp only [keyed]
  cases atReceiver with
  | false =>
      obtain ⟨restWf, restFind⟩ := erased { lattice with
        pendingIrobs := lattice.pendingIrobs.clear id
        pastIrobs := lattice.pastIrobs.insert id } rfl
      refine ⟨rfl, restWf, rfl, fun query queryRange => ?_⟩
      simp only [Bool.false_eq_true, ↓reduceIte, false_and]
      exact restFind query queryRange
  | true =>
      obtain ⟨restWf, restFind⟩ := erased { lattice with
        pendingIrobs := lattice.pendingIrobs.clear id
        pastIrobs := lattice.pastIrobs.insert id
        minDominatorSet := lattice.minDominatorSet.erase id } rfl
      obtain ⟨lastWf, lastRest, lastFind⟩ := restWf.find_satisfy id
        (wf.find_dependents inRange found) (victim.dependents.sorted.imp ne_of_lt)
      refine ⟨rfl, lastWf, lastRest.past, fun query queryRange => ?_⟩
      simp only [↓reduceIte, true_and]
      rw [lastFind query queryRange, restFind query queryRange]
      by_cases same : query = id
      · simp only [same, ↓reduceIte, Option.map_none, ite_self]
      · simp only [same, ↓reduceIte, OrderedSet.mem_toList]

/-- The receiver writes an IROB back and erases it. -/
theorem WellFormed.find_write_erase (wf : lattice.WellFormed) (inRange : id.InRange)
    {irob after : PendingIrob α} (found : lattice.find id = some irob)
    (links : PendingIrob.SameLinks after irob) :
    ((lattice.update id fun _ => after).erase id true).1.WellFormed ∧
      ((lattice.update id fun _ => after).erase id true).1.pastIrobs = lattice.pastIrobs.insert id ∧
      ∀ query : IrobId, query.InRange →
        ((lattice.update id fun _ => after).erase id true).1.find query =
          if query = id then none
          else if query ∈ after.dependents then (lattice.find query).map (·.depSatisfied id)
          else lattice.find query := by
  obtain ⟨-, erasedWf, past, finds⟩ := (wf.write found links).find_erase inRange
    (wf.find_write_self inRange found _) true
  refine ⟨erasedWf, past, fun query queryRange => ?_⟩
  rw [finds query queryRange, wf.find_write inRange found _ queryRange]
  by_cases same : query = id
  · simp only [same, ↓reduceIte]
  · simp only [same, ↓reduceIte, true_and]

/-- Erasing what is not pending does nothing. -/
theorem erase_absent (absent : lattice.find id = none) (atReceiver : Bool) :
    lattice.erase id atReceiver = (lattice, false) := by
  unfold IrobLattice.erase
  rw [absent]

/-- What erasing does to `past_irobs`. -/
theorem erase_past (lattice : IrobLattice α) (id : IrobId) (atReceiver : Bool) :
    (lattice.erase id atReceiver).1.pastIrobs =
      if (lattice.find id).isSome then lattice.pastIrobs.insert id else lattice.pastIrobs := by
  have fold : ∀ (dependents : List IrobId) (start : IrobLattice α),
      (dependents.foldl (fun sofar dependent => sofar.update dependent (·.depSatisfied id))
        start).pastIrobs = start.pastIrobs := by
    intro dependents
    induction dependents with
    | nil => exact fun _ => rfl
    | cons dependent rest ih => exact fun start => ih _
  unfold IrobLattice.erase
  cases lattice.find id with
  | none => rfl
  | some victim =>
      simp only [Option.isSome_some, ↓reduceIte]
      split_ifs
      · exact fold _ _
      · rfl

section Insert

variable [IrobClass α] {irob : PendingIrob α} {inferDeps : Bool}

/-- The ways `insert_locked` returns: refused, a placeholder stored, or a real IROB
stored with its dependencies corrected and linked. -/
theorem insert_cases {result : IrobLattice α × Option (PendingIrob α)}
    (inserted : lattice.insert irob inferDeps = some result) :
    (lattice.rejects irob = true ∧ result = (lattice, none)) ∨
    ∃ placed, lattice.rejects irob = false ∧ lattice.place irob = some placed ∧
      ((irob.placeholder = true ∧ result = (placed.1, some placed.2)) ∨
        (irob.placeholder = false ∧
          result.2 = some (placed.1.correctDeps placed.2 inferDeps).2 ∧
          IrobLattice.linkDeps ((placed.1.correctDeps placed.2 inferDeps).1.update irob.id
              fun _ => (placed.1.correctDeps placed.2 inferDeps).2) irob.id
            (placed.1.correctDeps placed.2 inferDeps).2.deps.toList = some result.1)) := by
  rw [insert_def] at inserted
  split_ifs at inserted with rejected
  · exact .inl ⟨rejected, (Option.some.inj inserted).symm⟩
  · obtain ⟨placed, placing, onward⟩ := Option.bind_eq_some_iff.mp inserted
    refine .inr ⟨placed, Bool.eq_false_iff.mpr rejected, placing, ?_⟩
    have kind := (place_links placing).2.2.2.2.1
    simp only at onward
    split_ifs at onward with holder
    · cases onward
      exact .inl ⟨kind.symm.trans holder, rfl⟩
    · obtain ⟨linked, linking, finished⟩ := Option.bind_eq_some_iff.mp onward
      cases finished
      exact .inr ⟨kind.symm.trans (Bool.eq_false_iff.mpr holder), rfl, linking⟩

/-- A turn of the dependency loop passes over a past IROB, or writes to the one that is
here, or stores a placeholder first. -/
theorem linkDep_cases {dependent dep : IrobId} {linked : IrobLattice α}
    (linking : lattice.linkDep dependent dep = some linked) :
    linked = lattice ∨ linked = lattice.update dep (·.addDependent dependent) ∨
      ∃ placed, lattice.pastIrobs.contains dep = false ∧
        lattice.place (makePlaceholder dep) = some (placed, makePlaceholder dep) ∧
        linked = placed.update dep (·.addDependent dependent) := by
  rw [linkDep_def] at linking
  by_cases past : lattice.pastIrobs.contains dep = true
  · rw [if_pos past] at linking
    exact .inl (Option.some.inj linking).symm
  · rw [if_neg past] at linking
    cases found : lattice.find dep with
    | some present =>
        simp only [found] at linking
        exact .inr (.inl (Option.some.inj linking).symm)
    | none =>
        simp only [found] at linking
        split_ifs at linking
        obtain ⟨⟨placed, stored⟩, placing, rfl⟩ := Option.map_eq_some_iff.mp linking
        have same : stored = makePlaceholder dep := by
          rcases (place_cases placing).2 with ⟨-, same⟩ | ⟨present, held, -⟩
          · exact same
          · rw [makePlaceholder_id, found] at held
            cases held
        subst same
        exact .inr (.inr ⟨placed, Bool.eq_false_iff.mpr past, placing, rfl⟩)

/-- The dependency loop touches nothing but pending IROBs. -/
theorem linkDeps_rest {dependent : IrobId} {deps : List IrobId} {linked : IrobLattice α}
    (linking : lattice.linkDeps dependent deps = some linked) : linked.SameRest lattice := by
  induction deps generalizing lattice with
  | nil =>
      cases linking
      exact .refl _
  | cons dep rest ih =>
      obtain ⟨next, linkedOne, linkedMore⟩ := Option.bind_eq_some_iff.mp linking
      apply (ih linkedMore).trans
      rcases linkDep_cases linkedOne with rfl | rfl | ⟨placed, -, placing, rfl⟩
      · exact .refl _
      · exact .update
      · exact SameRest.update.trans (place_rest placing)

/-- Inserting leaves `past_irobs` alone. -/
theorem insert_past {result : IrobLattice α × Option (PendingIrob α)}
    (inserted : lattice.insert irob inferDeps = some result) :
    result.1.pastIrobs = lattice.pastIrobs := by
  rcases insert_cases inserted with ⟨-, rfl⟩ | ⟨placed, -, placing, ⟨-, rfl⟩ | ⟨-, -, linking⟩⟩
  · rfl
  · rw [(place_cases placing).1]
  · rw [(linkDeps_rest linking).past]
    exact (correctDeps_lattice placed.1 placed.2 inferDeps).2.1.trans
      (by rw [(place_cases placing).1])

end Insert

/-! ### Properties of every entry

`Every` holds of a lattice when a property holds of each pending IROB, wherever
it is stored. Unlike the `find` lemmas these rules need no representation
invariant.
-/

/-- A property of every pending IROB. -/
def Every (property : PendingIrob α → Prop) (lattice : IrobLattice α) : Prop :=
  ∀ key irob, lattice.pendingIrobs.get key = some irob → property irob

namespace Every

variable {property : PendingIrob α → Prop}

theorem empty : Every property IrobLattice.empty := by
  intro key irob used
  rw [Window.get_of_empty rfl] at used
  cases used

theorem find (every : Every property lattice) {irob : PendingIrob α}
    (found : lattice.find id = some irob) : property irob := every _ irob found

theorem mono {weaker : PendingIrob α → Prop} (every : Every property lattice)
    (implies : ∀ irob, property irob → weaker irob) : Every weaker lattice :=
  fun key irob used => implies irob (every key irob used)

theorem congr {other : IrobLattice α} (every : Every property lattice)
    (same : other.pendingIrobs = lattice.pendingIrobs) : Every property other := by
  intro key irob used
  exact every key irob (same ▸ used)

theorem update (every : Every property lattice) {write : PendingIrob α → PendingIrob α}
    (keeps : ∀ irob, lattice.find id = some irob → property irob → property (write irob)) :
    Every property (lattice.update id write) := by
  intro key irob used
  rw [IrobLattice.update, Window.get_modify] at used
  split_ifs at used with same
  · obtain ⟨before, held, rfl⟩ := Option.map_eq_some_iff.mp used
    exact keeps before held (every _ before held)
  · exact every key irob used

theorem erase (every : Every property lattice)
    (keeps : ∀ irob, property irob → property (irob.depSatisfied id)) (atReceiver : Bool) :
    Every property (lattice.erase id atReceiver).1 := by
  unfold IrobLattice.erase
  cases found : lattice.find id with
  | none => exact every
  | some victim =>
      have cleared : ∀ rest : IrobLattice α,
          rest.pendingIrobs = lattice.pendingIrobs.clear (lattice.key id) →
            Every property rest := by
        intro rest shape key irob used
        rw [shape, Window.get_clear (Window.bounds_of_get found).1] at used
        split_ifs at used
        exact every key irob used
      have satisfied : ∀ (dependents : List IrobId) (rest : IrobLattice α), Every property rest →
          Every property (dependents.foldl
            (fun sofar dependent => sofar.update dependent (·.depSatisfied id)) rest) := by
        intro dependents
        induction dependents with
        | nil => exact fun _ held => held
        | cons dependent others ih =>
            exact fun rest held => ih _ (held.update fun irob _ => keeps irob)
      simp only
      split_ifs
      · exact satisfied _ _ (cleared _ rfl)
      · exact cleared _ rfl

variable [IrobClass α] {irob : PendingIrob α}

theorem place (every : Every property lattice) {result : IrobLattice α × PendingIrob α}
    (placed : lattice.place irob = some result) (stored : property result.2) :
    Every property result.1 := by
  obtain ⟨shape, -⟩ := place_cases placed
  obtain ⟨low, high, -⟩ := lattice.pendingIrobs.reach_bounds (lattice.key irob.id)
  intro key other used
  rw [shape, Window.get_put low high, Window.get_reach] at used
  split_ifs at used
  · cases used
    exact stored
  · exact every key other used

theorem linkDeps (every : Every property lattice) {dependent : IrobId} {deps : List IrobId}
    (holders : ∀ dep, property (makePlaceholder dep))
    (keeps : ∀ irob, property irob → property (irob.addDependent dependent))
    {linked : IrobLattice α} (linking : lattice.linkDeps dependent deps = some linked) :
    Every property linked := by
  induction deps generalizing lattice with
  | nil =>
      cases linking
      exact every
  | cons dep rest ih =>
      obtain ⟨next, linkedOne, linkedMore⟩ := Option.bind_eq_some_iff.mp linking
      refine ih ?_ linkedMore
      rcases linkDep_cases linkedOne with rfl | rfl | ⟨placed, -, placing, rfl⟩
      · exact every
      · exact every.update fun irob _ => keeps irob
      · exact (every.place placing (holders dep)).update fun irob _ => keeps irob

/-- Inserting an IROB: it may be stored with the dependencies `correct_deps` left
it and with more dependents, and its dependencies may become placeholders. -/
theorem insert (every : Every property lattice) {inferDeps : Bool}
    {result : IrobLattice α × Option (PendingIrob α)}
    (inserted : lattice.insert irob inferDeps = some result)
    (holders : ∀ dep, property (makePlaceholder dep))
    (keeps : ∀ other, property other → property (other.addDependent irob.id))
    (stored : ∀ placed, lattice.place irob = some placed → lattice.rejects irob = false →
      property placed.2 ∧ property (placed.1.correctDeps placed.2 inferDeps).2) :
    Every property result.1 := by
  rcases insert_cases inserted with
    ⟨-, rfl⟩ | ⟨placed, accepted, placing, ⟨-, rfl⟩ | ⟨-, -, linking⟩⟩
  · exact every
  · exact every.place placing (stored placed placing accepted).1
  · obtain ⟨own, corrected⟩ := stored placed placing accepted
    obtain ⟨samePending, -⟩ := correctDeps_lattice placed.1 placed.2 inferDeps
    exact (((every.place placing own).congr samePending).update
      fun _ _ _ => corrected).linkDeps holders keeps linking

end Every

end IrobLattice

end Libcmm
