import Libcmm.Lattice

/-! # `insert_locked` and its `int` index

`insert_locked` keeps the index of a slot in an `int` and compares it with the length of the
deque, narrowed to an `int` as well. With identifiers below `2^31` that goes wrong in two
ways, both when the deque would have slots for the first identifier and for the last one.
Where it starts with the first and the last is inserted, `index + 1` overflows, and `resize`
throws `std::length_error`. Where it ends with the last and the first is inserted, the length
becomes negative, and `resize` cuts everything off but the new slot.

`insertLocked` is the function with these two ways, and `insertLocked_eq` says that it is
`insert` where the deque need not span both identifiers.
-/

namespace Libcmm

open Lib

/-- The largest identifier in range. -/
def IrobId.last : Int := 2 ^ 31 - 1

namespace IrobLattice

variable {α : Type}

/-- `std::deque::resize`. -/
def resize (deque : Window (PendingIrob α)) (size : Nat) : Window (PendingIrob α) :=
  { deque with
    slots := deque.slots.take size ++ List.replicate (size - deque.slots.length) none }

/-- The part of `insert_locked` that makes a slot. None stands for the `std::length_error` of
`resize`, to which a negative `int` is an enormous size. -/
def makeRoom (lattice : IrobLattice α) (id : IrobId) : Option (Window (PendingIrob α)) :=
  let offset := if lattice.pendingIrobs.slots.isEmpty then id else lattice.pendingIrobs.base
  let index := toInt (id - offset)
  -- while (index < 0) push_front(PendingIROBPtr()), --offset
  let deque : Window (PendingIrob α) :=
    ⟨offset + min index 0, List.replicate (-index).toNat none ++ lattice.pendingIrobs.slots⟩
  let index := max index 0
  if toInt deque.slots.length ≤ index then
    if toInt (index + 1) < 0 then none else some (resize deque (toInt (index + 1)).toNat)
  else some deque

/-- What ends `insert_locked` before it returns: a failed assertion, or the exception of
`resize`, with the lattice it leaves. -/
inductive Interruption (α : Type) where
  | assertion
  | lengthError (left : IrobLattice α)

/-- The lattice that an insertion leaves which returns false or throws. -/
def failed : Except (Interruption α) (IrobLattice α × Option (PendingIrob α)) →
    Option (IrobLattice α)
  | .ok (left, none) => some left
  | .error (.lengthError left) => some left
  | _ => none

/-- A result that the code asserts. -/
def asserted {β : Type} : Option β → Except (Interruption α) β
  | some value => .ok value
  | none => .error .assertion

theorem asserted_bind {β γ : Type} {result : Option β} {onward : β → Option γ}
    {locked : β → Except (Interruption α) γ}
    (same : ∀ value, result = some value → locked value = asserted (onward value)) :
    (asserted result >>= locked) = asserted (result.bind onward) := by
  cases result with
  | none => rfl
  | some value => exact same value rfl

/-- The deque has a slot for an identifier. -/
def HasSlot (lattice : IrobLattice α) (id : Int) : Prop :=
  lattice.pendingIrobs.base ≤ id ∧ id < lattice.pendingIrobs.stop

instance (lattice : IrobLattice α) (id : Int) : Decidable (lattice.HasSlot id) :=
  inferInstanceAs (Decidable (_ ∧ _))

/-- The deque has a slot for an identifier, or needs one when IROBs are inserted or linked
under some identifiers. -/
def NeedsSlot (lattice : IrobLattice α) (ids : List IrobId) (id : Int) : Prop :=
  lattice.HasSlot id ∨ id ∈ ids ∧ lattice.pastIrobs.contains id = false

instance (lattice : IrobLattice α) (ids : List IrobId) (id : Int) :
    Decidable (lattice.NeedsSlot ids id) := inferInstanceAs (Decidable (_ ∨ _))

/-- The deque would reach from the first identifier to the last one. -/
def Spans (lattice : IrobLattice α) (ids : List IrobId) : Prop :=
  lattice.NeedsSlot ids 0 ∧ lattice.NeedsSlot ids IrobId.last

instance (lattice : IrobLattice α) (ids : List IrobId) : Decidable (lattice.Spans ids) :=
  inferInstanceAs (Decidable (_ ∧ _))

section Insert

variable [IrobClass α]

/-- The part of `insert_locked` between its early returns. -/
def store (lattice : IrobLattice α) (irob : PendingIrob α) :
    Except (Interruption α) (IrobLattice α × PendingIrob α) :=
  match lattice.makeRoom irob.id with
  | none => .error (.lengthError lattice)
  | some deque =>
      let roomy := { lattice with pendingIrobs := deque }
      asserted ((roomy.merge irob).map fun stored =>
        ({ lattice with pendingIrobs := deque.put (roomy.key irob.id) stored }, stored))

/-- The dependency loop of `insert_locked`. -/
def linkLocked (lattice : IrobLattice α) (dependent : IrobId) (deps : List IrobId) :
    Except (Interruption α) (IrobLattice α) :=
  deps.foldlM (linkDepWith store (.error .assertion) dependent) lattice

/-- `PendingIROBLattice::insert_locked`. -/
def insertLocked (lattice : IrobLattice α) (irob : PendingIrob α) (inferDeps : Bool) :
    Except (Interruption α) (IrobLattice α × Option (PendingIrob α)) :=
  insertWith store (.error .assertion) lattice irob inferDeps

end Insert

/-- Everything pending is lost. -/
def cutOff (lattice : IrobLattice α) : IrobLattice α := { lattice with pendingIrobs := ⟨0, []⟩ }

/-- The identifiers under which `insert_locked` stores or links an IROB. -/
def requested (lattice : IrobLattice α) (irob : PendingIrob α) (inferDeps : Bool) : List IrobId :=
  irob.id :: if irob.placeholder then [] else (lattice.correctDeps irob inferDeps).2.deps.toList

/-- Neither is the last identifier asked for where the first one has a slot or is asked for, nor
does a dependency ask for the first one where the last one has a slot, unless the insertion is
refused. -/
def Insertable [IrobClass α] (lattice : IrobLattice α) (irob : PendingIrob α) (inferDeps : Bool) :
    Prop :=
  lattice.rejects irob = true ∨
    ¬(lattice.NeedsSlot (lattice.requested irob inferDeps) 0 ∧
      IrobId.last ∈ lattice.requested irob inferDeps ∧
      lattice.pastIrobs.contains IrobId.last = false) ∧
    ¬(lattice.HasSlot IrobId.last ∧ irob.id ≠ (0 : Int) ∧
      (0 : Int) ∈ lattice.requested irob inferDeps ∧ lattice.pastIrobs.contains 0 = false)

/-! ### Making a slot -/

variable {lattice : IrobLattice α} {id : IrobId}

theorem HasSlot.ne_nil (has : lattice.HasSlot id) : lattice.pendingIrobs.slots ≠ [] := by
  intro empty
  have stop : lattice.pendingIrobs.stop = lattice.pendingIrobs.base := by
    rw [Window.stop, empty]
    exact Int.add_zero _
  obtain ⟨low, high⟩ := has
  omega

/-- An IROB that is found has a slot. -/
theorem WellFormed.hasSlot_of_find (wf : lattice.WellFormed) (inRange : id.InRange)
    {irob : PendingIrob α} (found : lattice.find id = some irob) : lattice.HasSlot id :=
  Window.bounds_of_get (wf.find_eq inRange ▸ found)

/-- A deque that does not reach from the first identifier to the last has a length that fits
into an `int`. -/
theorem WellFormed.length_lt (wf : lattice.WellFormed)
    (apart : ¬(lattice.HasSlot 0 ∧ lattice.HasSlot IrobId.last)) :
    lattice.pendingIrobs.slots.length < 2 ^ 31 := by
  have low := wf.low
  have high := wf.high
  unfold HasSlot IrobId.last at apart
  unfold Window.stop at apart high
  omega

theorem resize_of_le {deque : Window (PendingIrob α)} {size : Nat}
    (longer : deque.slots.length ≤ size) : resize deque size =
      ⟨deque.base, deque.slots ++ List.replicate (size - deque.slots.length) none⟩ := by
  rw [resize, List.take_of_length_le longer]

/-- Only the first slot is left. -/
theorem resize_one (base : Int) (first : Option (PendingIrob α)) (rest : List (Option _)) :
    resize ⟨base, first :: rest⟩ 1 = ⟨base, [first]⟩ := by
  simp [resize]

/-- A slot in front of the others. -/
theorem makeRoom_front {id : Int} (used : lattice.pendingIrobs.slots ≠ [])
    (before : lattice.pendingIrobs.base > id) (near : lattice.pendingIrobs.base - id ≤ 2 ^ 31) :
    lattice.makeRoom id =
      let reached := lattice.pendingIrobs.reach id
      if toInt reached.slots.length ≤ 0 then some (resize reached 1) else some reached := by
  have index : toInt (id - lattice.pendingIrobs.base) = id - lattice.pendingIrobs.base :=
    toInt_of_fits (by omega) (by omega)
  have one : ¬toInt (0 + 1) < 0 := by decide
  unfold makeRoom Window.reach
  dsimp only
  rw [if_neg (mt List.isEmpty_iff.mp used), if_neg (mt List.isEmpty_iff.mp used), if_pos before,
    index, min_eq_left (by omega), max_eq_right (by omega), add_sub_cancel, neg_sub, if_neg one]
  rfl

/-- A slot at the front or behind it. -/
theorem makeRoom_back {id : Int} (used : lattice.pendingIrobs.slots ≠ [])
    (behind : lattice.pendingIrobs.base ≤ id) (near : id - lattice.pendingIrobs.base < 2 ^ 31)
    (short : lattice.pendingIrobs.slots.length < 2 ^ 31) :
    lattice.makeRoom id =
      if id - lattice.pendingIrobs.base = 2 ^ 31 - 1 then none
      else some (lattice.pendingIrobs.reach id) := by
  have index : toInt (id - lattice.pendingIrobs.base) = id - lattice.pendingIrobs.base :=
    toInt_of_fits (by omega) (by omega)
  have length : toInt lattice.pendingIrobs.slots.length = lattice.pendingIrobs.slots.length :=
    toInt_of_fits (by omega) (by omega)
  have pushed : (-(id - lattice.pendingIrobs.base)).toNat = 0 := by omega
  unfold makeRoom Window.reach
  dsimp only
  rw [if_neg (mt List.isEmpty_iff.mp used), if_neg (mt List.isEmpty_iff.mp used),
    if_neg (not_lt.mpr behind), index, min_eq_right (by omega), max_eq_left (by omega), pushed,
    List.replicate_zero, List.nil_append, add_zero, length]
  by_cases last : id - lattice.pendingIrobs.base = 2 ^ 31 - 1
  · have overflows : toInt (id - lattice.pendingIrobs.base + 1) < 0 := by
      rw [last]
      decide
    rw [if_pos last, if_pos overflows, if_pos (by omega)]
  · have fits : toInt (id - lattice.pendingIrobs.base + 1) = id - lattice.pendingIrobs.base + 1 :=
      toInt_of_fits (by omega) (by omega)
    have nonneg : ¬id - lattice.pendingIrobs.base + 1 < 0 := by omega
    rw [if_neg last, fits, if_neg nonneg]
    have size : (id - lattice.pendingIrobs.base + 1).toNat =
        (id - lattice.pendingIrobs.base).toNat + 1 := by omega
    split_ifs with beyond
    · rw [size, resize_of_le (by dsimp only; omega)]
    · have none : (id - lattice.pendingIrobs.base).toNat + 1 -
          lattice.pendingIrobs.slots.length = 0 := by omega
      rw [none, List.replicate_zero, List.append_nil]

/-- The three ways of making a slot. -/
theorem WellFormed.makeRoom_eq {id : Int} (wf : lattice.WellFormed)
    (apart : ¬(lattice.HasSlot 0 ∧ lattice.HasSlot IrobId.last)) (inRange : IrobId.InRange id) :
    lattice.makeRoom id =
      if lattice.HasSlot 0 ∧ id = IrobId.last then none
      else if lattice.HasSlot IrobId.last ∧ id = 0 then some ⟨0, [none]⟩
      else some (lattice.pendingIrobs.reach id) := by
  by_cases used : lattice.pendingIrobs.slots = []
  · rw [if_neg fun both => both.1.ne_nil used, if_neg fun both => both.1.ne_nil used]
    unfold makeRoom
    rw [Window.reach, used]
    simp [toInt, resize]
  have short := wf.length_lt apart
  have low := wf.low
  have high := wf.high
  have filled := List.length_pos_iff.mpr used
  obtain ⟨nonneg, below⟩ := inRange
  have zero : lattice.HasSlot 0 ↔ lattice.pendingIrobs.base = 0 := by
    unfold HasSlot Window.stop
    omega
  have last : lattice.HasSlot IrobId.last ↔ lattice.pendingIrobs.stop = 2 ^ 31 := by
    unfold HasSlot IrobId.last Window.stop at *
    omega
  have top : lattice.pendingIrobs.base + lattice.pendingIrobs.slots.length ≤ 2 ^ 31 := high
  simp only [zero, last]
  unfold IrobId.last
  by_cases before : lattice.pendingIrobs.base > id
  · obtain ⟨-, -, -, bounds⟩ := lattice.pendingIrobs.reach_bounds id
    obtain ⟨reachBase, reachStop⟩ := bounds used
    have length : ((lattice.pendingIrobs.reach id).slots.length : Int) =
        lattice.pendingIrobs.stop - id := by
      unfold Window.stop at reachStop ⊢
      omega
    have room : ¬(lattice.pendingIrobs.base = 0 ∧ id = 2 ^ 31 - 1) := by omega
    rw [if_neg room, makeRoom_front used before (by omega)]
    dsimp only
    rw [length]
    by_cases whole : lattice.pendingIrobs.stop = 2 ^ 31 ∧ id = 0
    · obtain ⟨stop, rfl⟩ := whole
      have overflows : toInt (lattice.pendingIrobs.stop - 0) ≤ 0 := by
        rw [stop]
        decide
      obtain ⟨count, pushed⟩ : ∃ count, (lattice.pendingIrobs.base - 0).toNat = count + 1 :=
        ⟨(lattice.pendingIrobs.base - 0).toNat - 1, by omega⟩
      rw [if_pos overflows, if_pos ⟨stop, rfl⟩, Window.reach, if_neg (mt List.isEmpty_iff.mp used),
        if_pos before, pushed, List.replicate_succ, List.cons_append, resize_one]
    · have fits : toInt (lattice.pendingIrobs.stop - id) = lattice.pendingIrobs.stop - id :=
        toInt_of_fits (by unfold Window.stop; omega) (by omega)
      have positive : ¬lattice.pendingIrobs.stop - id ≤ 0 := by
        unfold Window.stop
        omega
      rw [fits, if_neg positive, if_neg whole]
  · have front : ¬(lattice.pendingIrobs.stop = 2 ^ 31 ∧ id = 0) := by
      unfold Window.stop
      omega
    rw [makeRoom_back used (by omega) (by omega) short, if_neg front]
    exact if_congr (by omega) rfl rfl

/-! ### Storing and linking -/

section Insert

variable [IrobClass α] {irob : PendingIrob α}

omit [IrobClass α] in
/-- A wider deque holds what it held, under the same indices. -/
theorem WellFormed.reach_find {id : Int} (wf : lattice.WellFormed) (inRange : IrobId.InRange id) :
    let roomy := { lattice with pendingIrobs := lattice.pendingIrobs.reach id }
    roomy.key id = id ∧ roomy.find id = lattice.find id := by
  obtain ⟨-, -, whenEmpty, whenUsed⟩ := lattice.pendingIrobs.reach_bounds id
  have low := wf.low
  have high := wf.high
  obtain ⟨nonneg, below⟩ := inRange
  have bounds : 0 ≤ (lattice.pendingIrobs.reach id).base ∧
      (lattice.pendingIrobs.reach id).stop ≤ 2 ^ 31 := by
    by_cases used : lattice.pendingIrobs.slots = []
    · obtain ⟨base, stop⟩ := whenEmpty used
      omega
    · obtain ⟨base, stop⟩ := whenUsed used
      omega
  have keyed : ({ lattice with pendingIrobs := lattice.pendingIrobs.reach id } :
      IrobLattice α).key id = id := key_of_bounds bounds.1 bounds.2 ⟨nonneg, below⟩
  refine ⟨keyed, ?_⟩
  rw [find, keyed, Window.get_reach, wf.find_eq ⟨nonneg, below⟩]

omit [IrobClass α] in
/-- A request for one slot more. -/
theorem spans_singleton {id : Int} (unsatisfied : lattice.pastIrobs.contains id = false) :
    lattice.Spans [id] ↔ (lattice.HasSlot 0 ∨ id = 0) ∧
      (lattice.HasSlot IrobId.last ∨ id = IrobId.last) := by
  unfold Spans NeedsSlot
  simp only [List.mem_singleton]
  constructor
  · rintro ⟨first | ⟨first, -⟩, last | ⟨last, -⟩⟩
    · exact ⟨.inl first, .inl last⟩
    · exact ⟨.inl first, .inr last.symm⟩
    · exact ⟨.inr first.symm, .inl last⟩
    · exact ⟨.inr first.symm, .inr last.symm⟩
  · rintro ⟨first, last⟩
    refine ⟨first.imp_right ?_, last.imp_right ?_⟩ <;>
    · rintro rfl
      exact ⟨rfl, unsatisfied⟩

/-- Where there is room, an IROB is stored as if the deque had no bound. -/
theorem WellFormed.store_eq (wf : lattice.WellFormed) (inRange : irob.id.InRange)
    (unsatisfied : lattice.pastIrobs.contains irob.id = false)
    (apart : ¬lattice.Spans [irob.id]) : lattice.store irob = asserted (lattice.place irob) := by
  rw [spans_singleton unsatisfied] at apart
  obtain ⟨keyed, finds⟩ := wf.reach_find inRange
  have room : lattice.makeRoom irob.id = some (lattice.pendingIrobs.reach irob.id) := by
    rw [wf.makeRoom_eq (fun both => apart ⟨.inl both.1, .inl both.2⟩) inRange,
      if_neg fun both => apart ⟨.inl both.1, .inr both.2⟩,
      if_neg fun both => apart ⟨.inr both.2, .inl both.1⟩]
  unfold store place merge
  rw [room]
  dsimp only
  rw [keyed, finds, wf.key_eq inRange]

omit [IrobClass α] in
theorem hasSlot_update {write : PendingIrob α → PendingIrob α} {key : Int} :
    (lattice.update id write).HasSlot key ↔ lattice.HasSlot key := by
  unfold HasSlot update
  rw [Window.modify_base, Window.modify_stop]

/-- Storing an IROB adds at most its own slot at the ends. -/
theorem WellFormed.hasSlot_place (wf : lattice.WellFormed) (inRange : irob.id.InRange)
    {placed : IrobLattice α × PendingIrob α} (placing : lattice.place irob = some placed)
    {key : Int} (atEnd : key = 0 ∨ key = IrobId.last) (has : placed.1.HasSlot key) :
    lattice.HasSlot key ∨ key = irob.id := by
  obtain ⟨-, -, whenEmpty, whenUsed⟩ := lattice.pendingIrobs.reach_bounds irob.id
  have low := wf.low
  have high := wf.high
  have keyed := wf.key_eq inRange
  obtain ⟨nonneg, below⟩ := inRange
  obtain ⟨base, stop⟩ : (lattice.pendingIrobs.reach irob.id).base ≤ key ∧
      key < (lattice.pendingIrobs.reach irob.id).stop := by
    rw [(place_cases placing).1, keyed] at has
    unfold HasSlot at has
    rw [Window.put_stop] at has
    exact has
  unfold HasSlot IrobId.last at *
  by_cases used : lattice.pendingIrobs.slots = []
  · obtain ⟨first, last⟩ := whenEmpty used
    omega
  · obtain ⟨first, last⟩ := whenUsed used
    have filled : lattice.pendingIrobs.base < lattice.pendingIrobs.stop := by
      have length := List.length_pos_iff.mpr used
      unfold Window.stop
      omega
    omega

omit [IrobClass α] in
theorem spans_nil : lattice.Spans [] ↔ lattice.HasSlot 0 ∧ lattice.HasSlot IrobId.last := by
  unfold Spans NeedsSlot
  simp only [List.not_mem_nil, false_and, or_false]

omit [IrobClass α] in
theorem Spans.mono {ids more : List IrobId} (spans : lattice.Spans ids) (within : ids ⊆ more) :
    lattice.Spans more :=
  ⟨spans.1.imp_right fun needed => ⟨within needed.1, needed.2⟩,
    spans.2.imp_right fun needed => ⟨within needed.1, needed.2⟩⟩

/-- A turn of the dependency loop uses up what it asks for. -/
theorem WellFormed.needsSlot_linkDep (wf : lattice.WellFormed) {dependent dep : IrobId}
    {rest : List IrobId} (depRange : dep.InRange) {linked : IrobLattice α}
    (linking : lattice.linkDep dependent dep = some linked) {key : Int}
    (atEnd : key = 0 ∨ key = IrobId.last) (needs : linked.NeedsSlot rest key) :
    lattice.NeedsSlot (dep :: rest) key := by
  rcases needs with has | ⟨later, unsatisfied⟩
  · rcases linkDep_cases linking with rfl | rfl | ⟨placed, unsatisfied, placing, rfl⟩
    · exact .inl has
    · exact .inl (hasSlot_update.mp has)
    · rcases wf.hasSlot_place depRange placing atEnd (hasSlot_update.mp has) with had | rfl
      · exact .inl had
      · exact .inr ⟨List.mem_cons_self, unsatisfied⟩
  · have past : linked.pastIrobs = lattice.pastIrobs := by
      rcases linkDep_cases linking with rfl | rfl | ⟨placed, -, placing, rfl⟩
      · rfl
      · rfl
      · exact (place_rest placing).past
    exact .inr ⟨List.mem_cons_of_mem _ later, past ▸ unsatisfied⟩

theorem WellFormed.spans_linkDep (wf : lattice.WellFormed) {dependent dep : IrobId}
    {rest : List IrobId} (depRange : dep.InRange) {linked : IrobLattice α}
    (linking : lattice.linkDep dependent dep = some linked) (spans : linked.Spans rest) :
    lattice.Spans (dep :: rest) :=
  ⟨wf.needsSlot_linkDep depRange linking (.inl rfl) spans.1,
    wf.needsSlot_linkDep depRange linking (.inr rfl) spans.2⟩

/-- Where there is room, a dependency is linked as if the deque had no bound. -/
theorem WellFormed.linkDepWith_eq (wf : lattice.WellFormed) {dependent dep : IrobId}
    (depRange : dep.InRange) (apart : ¬lattice.Spans [dep]) :
    linkDepWith store (.error .assertion) dependent lattice dep =
      asserted (lattice.linkDep dependent dep) := by
  rw [linkDep_def, linkDepWith]
  by_cases past : lattice.pastIrobs.contains dep = true
  · rw [if_pos past, if_pos past]
    rfl
  · rw [if_neg past, if_neg past]
    rw [Bool.not_eq_true] at past
    cases found : lattice.find dep with
    | some present => rfl
    | none =>
        dsimp only
        split_ifs
        · rfl
        · rw [wf.store_eq depRange past apart]
          cases lattice.place (makePlaceholder dep) <;> rfl

theorem WellFormed.linkLocked_eq (wf : lattice.WellFormed) {dependent : IrobId}
    {deps : List IrobId} (dependentRange : dependent.InRange)
    (depsRange : ∀ dep ∈ deps, dep.InRange) (apart : ¬lattice.Spans deps) :
    lattice.linkLocked dependent deps = asserted (lattice.linkDeps dependent deps) := by
  induction deps generalizing lattice with
  | nil => rfl
  | cons dep rest ih =>
      have depRange := depsRange dep List.mem_cons_self
      have first : linkDepWith store (.error .assertion) dependent lattice dep =
          asserted (lattice.linkDep dependent dep) :=
        wf.linkDepWith_eq depRange fun spans => apart (spans.mono (by simp))
      unfold linkLocked linkDeps at ih ⊢
      rw [List.foldlM_cons, first, List.foldlM_cons]
      refine asserted_bind fun next linking => ?_
      obtain ⟨linked, linkedOne, nextWf, -⟩ := wf.linkDep dependentRange depRange
      cases linking.symm.trans linkedOne
      exact ih nextWf (fun other member => depsRange other (List.mem_cons_of_mem _ member))
        fun spans => apart (wf.spans_linkDep depRange linking spans)

/-- What `correct_deps` makes of the dependencies does not change when the IROB is placed. -/
theorem correctDeps_place (inferDeps : Bool) {placed : IrobLattice α × PendingIrob α}
    (placing : lattice.place irob = some placed) :
    (placed.1.correctDeps placed.2 inferDeps).2.deps =
      (lattice.correctDeps irob inferDeps).2.deps := by
  obtain ⟨past, -, dominators, lastAnon⟩ := place_rest placing
  obtain ⟨-, -, deps, anonymous, -, -⟩ := place_links placing
  unfold correctDeps PendingIrob.removeDepsIf PendingIrob.addDep
  simp only [past, dominators, lastAnon, deps, anonymous]
  split_ifs <;> first | rfl | simp only [deps]

theorem requested_place {inferDeps : Bool} {placed : IrobLattice α × PendingIrob α}
    (placing : lattice.place irob = some placed) (real : irob.placeholder = false) :
    lattice.requested irob inferDeps =
      irob.id :: (placed.1.correctDeps placed.2 inferDeps).2.deps.toList := by
  rw [requested, correctDeps_place inferDeps placing, real]
  rfl

/-- Storing a real IROB uses up its own identifier. -/
theorem WellFormed.needsSlot_placed (wf : lattice.WellFormed) (inRange : irob.id.InRange)
    (unsatisfied : lattice.pastIrobs.contains irob.id = false) (inferDeps : Bool)
    {placed : IrobLattice α × PendingIrob α} (placing : lattice.place irob = some placed)
    {deps : List IrobId} {key : Int} (atEnd : key = 0 ∨ key = IrobId.last)
    (needs : NeedsSlot ((placed.1.correctDeps placed.2 inferDeps).1.update irob.id
      fun _ => (placed.1.correctDeps placed.2 inferDeps).2) deps key) :
    lattice.NeedsSlot (irob.id :: deps) key := by
  obtain ⟨samePending, samePast, -⟩ := correctDeps_lattice placed.1 placed.2 inferDeps
  have past := samePast.trans (place_rest placing).past
  rcases needs with has | ⟨later, open'⟩
  · have placedHas : placed.1.HasSlot key := by
      rw [hasSlot_update] at has
      unfold HasSlot at has ⊢
      rwa [samePending] at has
    rcases wf.hasSlot_place inRange placing atEnd placedHas with had | rfl
    · exact .inl had
    · exact .inr ⟨List.mem_cons_self, unsatisfied⟩
  · exact .inr ⟨List.mem_cons_of_mem _ later, past ▸ open'⟩

theorem WellFormed.spans_placed (wf : lattice.WellFormed) (inRange : irob.id.InRange)
    (unsatisfied : lattice.pastIrobs.contains irob.id = false) (inferDeps : Bool)
    {placed : IrobLattice α × PendingIrob α} (placing : lattice.place irob = some placed)
    {deps : List IrobId} (spans : Spans ((placed.1.correctDeps placed.2 inferDeps).1.update irob.id
      fun _ => (placed.1.correctDeps placed.2 inferDeps).2) deps) :
    lattice.Spans (irob.id :: deps) :=
  ⟨wf.needsSlot_placed inRange unsatisfied inferDeps placing (.inl rfl) spans.1,
    wf.needsSlot_placed inRange unsatisfied inferDeps placing (.inr rfl) spans.2⟩

/-- `insert_locked` is `insert` where the deque need not reach from the first identifier to
the last. -/
theorem WellFormed.insertLocked_eq (wf : lattice.WellFormed) (inRange : irob.id.InRange)
    (ranged : ∀ dependent ∈ irob.dependents, dependent.InRange) {inferDeps : Bool}
    (depsRange : ∀ dep ∈ lattice.requested irob inferDeps, dep.InRange)
    (apart : lattice.rejects irob = true ∨ ¬lattice.Spans (lattice.requested irob inferDeps)) :
    lattice.insertLocked irob inferDeps = asserted (lattice.insert irob inferDeps) := by
  rw [insert_def, insertLocked, insertWith]
  by_cases rejected : lattice.rejects irob = true
  · rw [if_pos rejected, if_pos rejected]
    rfl
  have fits := apart.resolve_left rejected
  rw [if_neg rejected, if_neg rejected]
  rw [Bool.not_eq_true] at rejected
  have unsatisfied := (Bool.or_eq_false_iff.mp rejected).1
  rw [wf.store_eq inRange unsatisfied fun spans => fits (spans.mono (by simp [requested]))]
  refine asserted_bind fun placed placing => ?_
  have kind := (place_links placing).2.2.2.2.1
  cases holder : placed.2.placeholder with
  | true => rfl
  | false =>
      obtain ⟨storedWf, -⟩ := wf.correct_placed inRange ranged inferDeps placing
      rw [requested_place placing (kind.symm.trans holder)] at depsRange fits
      have linking := storedWf.linkLocked_eq inRange
        (fun dep member => depsRange dep (List.mem_cons_of_mem _ member))
        fun spans => fits (wf.spans_placed inRange unsatisfied inferDeps placing spans)
      unfold linkLocked at linking
      simp only [Bool.false_eq_true, ↓reduceIte]
      rw [linking]
      exact asserted_bind fun linked _ => rfl

/-- With a slot for the first identifier, inserting the last one throws at once. -/
theorem WellFormed.insertLocked_throws (wf : lattice.WellFormed)
    (apart : ¬(lattice.HasSlot 0 ∧ lattice.HasSlot IrobId.last)) (first : lattice.HasSlot 0)
    (last : irob.id = IrobId.last) (fresh : lattice.rejects irob = false) (inferDeps : Bool) :
    lattice.insertLocked irob inferDeps = .error (.lengthError lattice) := by
  have room : lattice.makeRoom irob.id = none := by
    rw [wf.makeRoom_eq apart (last ▸ by decide), if_pos ⟨first, last⟩]
  have throws : lattice.store irob = .error (.lengthError lattice) := by
    unfold store
    rw [room]
  rw [insertLocked, insertWith, if_neg (Bool.eq_false_iff.mp fresh), throws]
  rfl

/-- With a slot for the last identifier, inserting the first one cuts everything off before it
is stored. -/
theorem WellFormed.store_cuts (wf : lattice.WellFormed)
    (apart : ¬(lattice.HasSlot 0 ∧ lattice.HasSlot IrobId.last))
    (last : lattice.HasSlot IrobId.last) (first : irob.id = (0 : Int)) :
    lattice.store irob = lattice.cutOff.store irob := by
  have room : lattice.makeRoom irob.id = some ⟨0, [none]⟩ := by
    rw [wf.makeRoom_eq apart (first ▸ by decide), if_neg fun both => apart ⟨both.1, last⟩,
      if_pos ⟨last, first⟩]
  have roomCut : lattice.cutOff.makeRoom irob.id = some ⟨0, [none]⟩ := by
    rw [first]
    simp [makeRoom, cutOff, toInt, resize]
  unfold store
  rw [room, roomCut]
  rfl

omit [IrobClass α] in
theorem rejects_cutOff (fresh : lattice.rejects irob = false) :
    lattice.cutOff.rejects irob = false := by
  unfold rejects
  rw [show lattice.cutOff.find irob.id = none from Window.get_of_empty rfl _]
  exact Bool.or_eq_false_iff.mpr ⟨(Bool.or_eq_false_iff.mp fresh).1, rfl⟩

theorem WellFormed.insertLocked_cuts (wf : lattice.WellFormed)
    (apart : ¬(lattice.HasSlot 0 ∧ lattice.HasSlot IrobId.last))
    (last : lattice.HasSlot IrobId.last) (first : irob.id = (0 : Int))
    (fresh : lattice.rejects irob = false) (inferDeps : Bool) :
    lattice.insertLocked irob inferDeps = lattice.cutOff.insertLocked irob inferDeps := by
  rw [insertLocked, insertLocked, insertWith, insertWith, if_neg (Bool.eq_false_iff.mp fresh),
    if_neg (Bool.eq_false_iff.mp (rejects_cutOff fresh)), wf.store_cuts apart last first]

/-! ### Where there is no room -/

/-- Storing an IROB takes no slot away. -/
theorem WellFormed.hasSlot_of_place (wf : lattice.WellFormed) (inRange : irob.id.InRange)
    {placed : IrobLattice α × PendingIrob α} (placing : lattice.place irob = some placed)
    {key : Int} (has : lattice.HasSlot key) : placed.1.HasSlot key := by
  obtain ⟨-, -, -, whenUsed⟩ := lattice.pendingIrobs.reach_bounds irob.id
  obtain ⟨base, stop⟩ := whenUsed has.ne_nil
  obtain ⟨low, high⟩ := has
  rw [(place_cases placing).1, wf.key_eq inRange]
  unfold HasSlot
  rw [Window.put_stop]
  constructor
  · exact base.le.trans ((min_le_left _ _).trans low)
  · exact high.trans_le ((le_max_left _ _).trans stop.ge)

/-- The dependency loop throws when it comes to the last identifier, if the deque has to have a
slot for the first one. -/
theorem WellFormed.linkLocked_throws (wf : lattice.WellFormed) {dependent : IrobId}
    {deps : List IrobId} (dependentRange : dependent.InRange)
    (depsRange : ∀ dep ∈ deps, dep.InRange) (sorted : deps.Pairwise (· < ·))
    (first : lattice.NeedsSlot deps 0) (apart : ¬lattice.HasSlot IrobId.last)
    (listed : IrobId.last ∈ deps) (unsatisfied : lattice.pastIrobs.contains IrobId.last = false) :
    ∃ interruption, lattice.linkLocked dependent deps = .error interruption := by
  induction deps generalizing lattice with
  | nil => cases listed
  | cons dep rest ih =>
      have depRange := depsRange dep List.mem_cons_self
      obtain ⟨before, restSorted⟩ := List.pairwise_cons.mp sorted
      by_cases same : dep = IrobId.last
      · subst same
        have absent : lattice.find IrobId.last = none := by
          cases found : lattice.find IrobId.last with
          | none => rfl
          | some present => exact (apart (wf.hasSlot_of_find depRange found)).elim
        have slot : lattice.HasSlot 0 := by
          refine first.resolve_right ?_
          rintro ⟨asked, -⟩
          rcases List.mem_cons.mp asked with same | later
          · exact absurd same (by decide)
          · exact absurd (before 0 later) (by decide)
        have room : lattice.makeRoom (makePlaceholder IrobId.last : PendingIrob α).id = none := by
          rw [makePlaceholder_id, wf.makeRoom_eq (fun both => apart both.2) depRange,
            if_pos ⟨slot, rfl⟩]
        have fresh := (wf.place_placeholder depRange absent unsatisfied).1
        have throws : linkDepWith store (.error .assertion) dependent lattice IrobId.last =
            .error (.lengthError lattice) := by
          rw [linkDepWith, if_neg (Bool.eq_false_iff.mp unsatisfied), absent]
          simp only [fresh, Bool.false_eq_true, ↓reduceIte]
          rw [store, room]
          rfl
        refine ⟨.lengthError lattice, ?_⟩
        rw [linkLocked, List.foldlM_cons, throws]
        rfl
      · have fits : ¬lattice.Spans [dep] := by
          rintro ⟨-, last | ⟨asked, -⟩⟩
          · exact apart last
          · exact same (List.mem_singleton.mp asked).symm
        obtain ⟨next, linkedOne, nextWf, nextRest, nextFind⟩ := wf.linkDep dependentRange depRange
        have nextFirst : next.NeedsSlot rest 0 := by
          rcases first with slot | ⟨asked, open'⟩
          · left
            rcases linkDep_cases linkedOne with rfl | rfl | ⟨placed, -, placing, rfl⟩
            · exact slot
            · exact hasSlot_update.mpr slot
            · exact hasSlot_update.mpr (wf.hasSlot_of_place depRange placing slot)
          · rcases List.mem_cons.mp asked with rfl | later
            · have found := nextFind 0 depRange
              rw [if_pos ⟨rfl, open'⟩] at found
              exact .inl (nextWf.hasSlot_of_find depRange found)
            · exact .inr ⟨later, nextRest.past ▸ open'⟩
        have nextApart : ¬next.HasSlot IrobId.last := by
          intro has
          have needs : next.NeedsSlot [] IrobId.last := .inl has
          rcases wf.needsSlot_linkDep depRange linkedOne (.inr rfl) needs with had | ⟨asked, -⟩
          · exact apart had
          · exact same (List.mem_singleton.mp asked).symm
        obtain ⟨interruption, throws⟩ := ih nextWf
          (fun other member => depsRange other (List.mem_cons_of_mem _ member)) restSorted nextFirst
          nextApart ((List.mem_cons.mp listed).resolve_left fun last => same last.symm)
          (nextRest.past ▸ unsatisfied)
        refine ⟨interruption, ?_⟩
        rw [linkLocked, List.foldlM_cons, wf.linkDepWith_eq depRange fits, linkedOne]
        exact throws

omit [IrobClass α] in
theorem WellFormed.cutOff (lattice : IrobLattice α) : lattice.cutOff.WellFormed where
  low := le_refl 0
  high := by simp [Window.stop, IrobLattice.cutOff]
  tight := by simp [Window.Tight, IrobLattice.cutOff]
  stored := by
    intro id irob used
    rw [Window.get_of_empty rfl] at used
    cases used

omit [IrobClass α] in
theorem not_hasSlot_cutOff {key : Int} : ¬lattice.cutOff.HasSlot key := fun has => has.ne_nil rfl

/-- Where the deque ends with the last identifier, a dependency on the first one cuts off what
there was, and placeholders are all that the loop leaves, if it does not throw. -/
theorem WellFormed.linkLocked_cuts (wf : lattice.WellFormed) {dependent : IrobId}
    {rest : List IrobId} (dependentRange : dependent.InRange)
    (restRange : ∀ dep ∈ rest, dep.InRange) (sorted : (0 :: rest).Pairwise (· < ·))
    (last : lattice.HasSlot IrobId.last) (apart : ¬lattice.HasSlot 0)
    (unsatisfied : lattice.pastIrobs.contains 0 = false) {linked : IrobLattice α}
    (linking : lattice.linkLocked dependent (0 :: rest) = .ok linked) :
    linked.Every fun irob => irob.placeholder = true := by
  have depsRange : ∀ dep ∈ 0 :: rest, dep.InRange := by
    intro dep member
    rcases List.mem_cons.mp member with rfl | later
    · decide
    · exact restRange dep later
  have absent : lattice.find 0 = none := by
    cases found : lattice.find 0 with
    | none => rfl
    | some present => exact (apart (wf.hasSlot_of_find (by decide) found)).elim
  have cuts : lattice.linkLocked dependent (0 :: rest) =
      lattice.cutOff.linkLocked dependent (0 :: rest) := by
    have cutAbsent : lattice.cutOff.find 0 = none := Window.get_of_empty rfl _
    have fresh := (wf.place_placeholder (by decide) absent unsatisfied).1
    have cutFresh := ((WellFormed.cutOff lattice).place_placeholder (by decide) cutAbsent
      unsatisfied).1
    have turn : linkDepWith store (.error .assertion) dependent lattice 0 =
        linkDepWith store (.error .assertion) dependent lattice.cutOff 0 := by
      have cutOpen : ¬lattice.cutOff.pastIrobs.contains 0 = true :=
        Bool.eq_false_iff.mp unsatisfied
      rw [linkDepWith, linkDepWith, if_neg (Bool.eq_false_iff.mp unsatisfied), if_neg cutOpen,
        absent, cutAbsent]
      simp only [fresh, cutFresh, Bool.false_eq_true, ↓reduceIte]
      rw [wf.store_cuts (fun both => apart both.1) last rfl]
    rw [linkLocked, linkLocked, List.foldlM_cons, List.foldlM_cons, turn]
  rw [cuts] at linking
  have cutWf := WellFormed.cutOff lattice
  by_cases spans : lattice.cutOff.Spans (0 :: rest)
  · rcases spans.2 with has | ⟨listed, open'⟩
    · exact (not_hasSlot_cutOff has).elim
    · obtain ⟨interruption, throws⟩ := cutWf.linkLocked_throws dependentRange depsRange sorted
        spans.1 not_hasSlot_cutOff listed open'
      cases throws.symm.trans linking
  · rw [cutWf.linkLocked_eq dependentRange depsRange spans] at linking
    cases linked' : lattice.cutOff.linkDeps dependent (0 :: rest) with
    | none =>
        rw [linked'] at linking
        cases linking
    | some result =>
        rw [linked'] at linking
        cases linking
        refine Every.linkDeps (fun key irob used => ?_) (fun _ => rfl) (fun _ held => held) linked'
        rw [Window.get_of_empty rfl] at used
        cases used

/-! ### What keeps the ends apart -/

theorem WellFormed.spans_linkDeps (wf : lattice.WellFormed) {dependent : IrobId}
    {deps : List IrobId} (dependentRange : dependent.InRange)
    (depsRange : ∀ dep ∈ deps, dep.InRange) {linked : IrobLattice α}
    (linking : lattice.linkDeps dependent deps = some linked) (spans : linked.Spans []) :
    lattice.Spans deps := by
  induction deps generalizing lattice with
  | nil =>
      cases linking
      exact spans
  | cons dep rest ih =>
      have depRange := depsRange dep List.mem_cons_self
      obtain ⟨next, linkedOne, linkedMore⟩ := Option.bind_eq_some_iff.mp linking
      obtain ⟨same, linkedSame, nextWf, -⟩ := wf.linkDep dependentRange depRange
      cases linkedOne.symm.trans linkedSame
      exact wf.spans_linkDep depRange linkedOne (ih nextWf
        (fun other member => depsRange other (List.mem_cons_of_mem _ member)) linkedMore)

/-- After an insertion the deque reaches from the first identifier to the last only if it did
so before or had to. -/
theorem WellFormed.spans_insert (wf : lattice.WellFormed) (inRange : irob.id.InRange)
    (ranged : ∀ dependent ∈ irob.dependents, dependent.InRange) {inferDeps : Bool}
    (depsRange : ∀ dep ∈ lattice.requested irob inferDeps, dep.InRange)
    {result : IrobLattice α × Option (PendingIrob α)}
    (inserted : lattice.insert irob inferDeps = some result) (spans : result.1.Spans []) :
    lattice.Spans [] ∨ lattice.Spans (lattice.requested irob inferDeps) := by
  rcases insert_cases inserted with
    ⟨-, rfl⟩ | ⟨placed, fresh, placing, ⟨-, rfl⟩ | ⟨real, -, linking⟩⟩
  · exact .inl spans
  · have unsatisfied := (Bool.or_eq_false_iff.mp fresh).1
    have step : ∀ key : Int, key = 0 ∨ key = IrobId.last → placed.1.NeedsSlot [] key →
        lattice.NeedsSlot (lattice.requested irob inferDeps) key := by
      rintro key atEnd (has | ⟨listed, -⟩)
      · rcases wf.hasSlot_place inRange placing atEnd has with had | rfl
        · exact .inl had
        · exact .inr ⟨List.mem_cons_self, unsatisfied⟩
      · cases listed
    exact .inr ⟨step 0 (.inl rfl) spans.1, step IrobId.last (.inr rfl) spans.2⟩
  · have unsatisfied := (Bool.or_eq_false_iff.mp fresh).1
    rw [requested_place placing real] at depsRange ⊢
    obtain ⟨storedWf, -⟩ := wf.correct_placed inRange ranged inferDeps placing
    exact .inr (wf.spans_placed inRange unsatisfied inferDeps placing
      (storedWf.spans_linkDeps inRange
        (fun dep member => depsRange dep (List.mem_cons_of_mem _ member)) linking spans))

/-! ### What an insertion comes to -/

/-- An insertion that is not refused, of an IROB that finds room. -/
theorem insertLocked_cases {inferDeps : Bool} (fresh : lattice.rejects irob = false)
    (real : irob.placeholder = false) (stores : lattice.store irob = asserted (lattice.place irob))
    {result : IrobLattice α × Option (PendingIrob α)}
    (inserted : lattice.insertLocked irob inferDeps = .ok result) :
    ∃ placed, lattice.place irob = some placed ∧
      linkLocked ((placed.1.correctDeps placed.2 inferDeps).1.update irob.id
        fun _ => (placed.1.correctDeps placed.2 inferDeps).2) irob.id
        (placed.1.correctDeps placed.2 inferDeps).2.deps.toList = .ok result.1 := by
  rw [insertLocked, insertWith, if_neg (Bool.eq_false_iff.mp fresh), stores] at inserted
  cases placing : lattice.place irob with
  | none =>
      rw [placing] at inserted
      cases inserted
  | some placed =>
      refine ⟨placed, rfl, ?_⟩
      have kind : placed.2.placeholder = false := (place_links placing).2.2.2.2.1.trans real
      rw [placing] at inserted
      change (if placed.2.placeholder then _ else _) = _ at inserted
      rw [if_neg (Bool.eq_false_iff.mp kind)] at inserted
      change (linkLocked _ _ _ >>= fun linked => pure (linked, some _)) = _ at inserted
      cases linking : linkLocked ((placed.1.correctDeps placed.2 inferDeps).1.update irob.id
        fun _ => (placed.1.correctDeps placed.2 inferDeps).2) irob.id
        (placed.1.correctDeps placed.2 inferDeps).2.deps.toList with
      | error interruption =>
          rw [linking] at inserted
          cases inserted
      | ok linked =>
          rw [linking] at inserted
          cases inserted
          rfl

/-- The dependency loop of an insertion that needs slots at both ends throws, or it cuts off the
IROB that was inserted. -/
theorem WellFormed.insertLocked_lost (wf : lattice.WellFormed) (inRange : irob.id.InRange)
    (ranged : ∀ dependent ∈ irob.dependents, dependent.InRange) {inferDeps : Bool}
    (depsRange : ∀ dep ∈ lattice.requested irob inferDeps, dep.InRange)
    (fresh : lattice.rejects irob = false) (real : irob.placeholder = false)
    (fits : ¬lattice.Spans [irob.id]) (spans : lattice.Spans (lattice.requested irob inferDeps))
    {result : IrobLattice α × Option (PendingIrob α)}
    (inserted : lattice.insertLocked irob inferDeps = .ok result) :
    result.1.Every fun irob => irob.placeholder = true := by
  have unsatisfied := (Bool.or_eq_false_iff.mp fresh).1
  obtain ⟨placed, placing, linking⟩ := insertLocked_cases fresh real
    (wf.store_eq inRange unsatisfied fits) inserted
  obtain ⟨storedWf, storedRest, past, storedFind⟩ :=
    wf.correct_placed inRange ranged inferDeps placing
  obtain ⟨samePending, -⟩ := correctDeps_lattice placed.1 placed.2 inferDeps
  rw [requested_place placing real] at spans depsRange
  have restRange := fun dep (member : dep ∈ _) => depsRange dep (List.mem_cons_of_mem irob.id member)
  have sorted := (placed.1.correctDeps placed.2 inferDeps).2.deps.sorted
  have keeps : ∀ {key : Int}, lattice.NeedsSlot
      (irob.id :: (placed.1.correctDeps placed.2 inferDeps).2.deps.toList) key →
      NeedsSlot ((placed.1.correctDeps placed.2 inferDeps).1.update irob.id
        fun _ => (placed.1.correctDeps placed.2 inferDeps).2)
        (placed.1.correctDeps placed.2 inferDeps).2.deps.toList key := by
    rintro key (has | ⟨asked, open'⟩)
    · left
      rw [hasSlot_update]
      unfold HasSlot
      rw [samePending]
      exact wf.hasSlot_of_place inRange placing has
    · rcases List.mem_cons.mp asked with rfl | later
      · exact .inl (storedWf.hasSlot_of_find inRange (by rw [storedFind _ inRange, if_pos rfl]))
      · exact .inr ⟨later, (storedRest.past.trans past) ▸ open'⟩
  have apart : ¬Spans ((placed.1.correctDeps placed.2 inferDeps).1.update irob.id
      fun _ => (placed.1.correctDeps placed.2 inferDeps).2) [] :=
    fun both => fits (wf.spans_placed inRange unsatisfied inferDeps placing both)
  rw [spans_nil] at apart
  obtain ⟨first, last⟩ := spans.imp keeps keeps
  generalize (placed.1.correctDeps placed.2 inferDeps).1.update irob.id
    (fun _ => (placed.1.correctDeps placed.2 inferDeps).2) = stored at *
  generalize (placed.1.correctDeps placed.2 inferDeps).2.deps.toList = deps at *
  by_cases ends : stored.HasSlot IrobId.last
  · have open' : ¬stored.HasSlot 0 := fun has => apart ⟨has, ends⟩
    obtain ⟨listed, notPast⟩ := first.resolve_left open'
    obtain ⟨rest, rfl⟩ : ∃ rest, deps = 0 :: rest := by
      cases deps with
      | nil => cases listed
      | cons dep rest =>
          refine ⟨rest, ?_⟩
          rcases List.mem_cons.mp listed with same | later
          · rw [← same]
          · have below := (List.pairwise_cons.mp sorted).1 0 later
            have nonneg := (restRange dep List.mem_cons_self).1
            exact absurd below (not_lt.mpr nonneg)
    exact storedWf.linkLocked_cuts inRange
      (fun dep member => restRange dep (List.mem_cons_of_mem _ member)) sorted ends open' notPast
      linking
  · obtain ⟨listed, notPast⟩ := last.resolve_left ends
    obtain ⟨interruption, throws⟩ := storedWf.linkLocked_throws inRange restRange sorted first ends
      listed notPast
    cases throws.symm.trans linking

omit [IrobClass α] in
theorem requested_placeholder (holder : irob.placeholder = true) (inferDeps : Bool) :
    lattice.requested irob inferDeps = [irob.id] := by
  rw [requested, if_pos holder]

omit [IrobClass α] in
theorem requested_cutOff (inferDeps : Bool) :
    lattice.cutOff.requested irob inferDeps = lattice.requested irob inferDeps := by
  unfold requested correctDeps cutOff
  split_ifs <;> rfl

/-- An insertion that is not `Insertable` throws, or it loses the IROB. -/
theorem WellFormed.lost_of_not_insertable (wf : lattice.WellFormed)
    (apart : ¬lattice.Spans []) (inRange : irob.id.InRange)
    (ranged : ∀ dependent ∈ irob.dependents, dependent.InRange) {inferDeps : Bool}
    (depsRange : ∀ dep ∈ lattice.requested irob inferDeps, dep.InRange)
    (unfit : ¬lattice.Insertable irob inferDeps)
    {result : IrobLattice α × Option (PendingIrob α)}
    (inserted : lattice.insertLocked irob inferDeps = .ok result) :
    irob.placeholder = false ∧ result.1.Every fun irob => irob.placeholder = true := by
  rw [spans_nil] at apart
  unfold Insertable at unfit
  rw [not_or, not_and_or, not_not, not_not, Bool.not_eq_true] at unfit
  obtain ⟨fresh, unfit⟩ := unfit
  have unsatisfied := (Bool.or_eq_false_iff.mp fresh).1
  have own : irob.id ∈ lattice.requested irob inferDeps := List.mem_cons_self
  have spans : lattice.Spans (lattice.requested irob inferDeps) := by
    rcases unfit with ⟨first, listed, open'⟩ | ⟨last, -, listed, open'⟩
    · exact ⟨first, .inr ⟨listed, open'⟩⟩
    · exact ⟨.inr ⟨listed, open'⟩, .inl last⟩
  by_cases fits : lattice.Spans [irob.id]
  · obtain ⟨low, high⟩ := (spans_singleton unsatisfied).mp fits
    rcases low with first | first
    · have last := high.resolve_left fun last => apart ⟨first, last⟩
      cases (wf.insertLocked_throws apart first last fresh inferDeps).symm.trans inserted
    · -- The slot of the last identifier is cut off, and a dependency asks for it again.
      have last : lattice.HasSlot IrobId.last :=
        high.resolve_right fun last => absurd (first.symm.trans last) (by decide)
      obtain ⟨listed, open'⟩ : IrobId.last ∈ lattice.requested irob inferDeps ∧
          lattice.pastIrobs.contains IrobId.last = false :=
        (unfit.resolve_right fun dependency => dependency.2.1 first).2
      have real : irob.placeholder = false := by
        by_contra holder
        rw [requested_placeholder (Bool.not_eq_false _ ▸ holder), List.mem_singleton, first]
          at listed
        exact absurd listed (by decide)
      rw [wf.insertLocked_cuts apart last first fresh] at inserted
      rw [← requested_cutOff] at depsRange own listed
      have alone : ¬lattice.cutOff.Spans [irob.id] := by
        intro both
        rcases both.2 with has | ⟨same, -⟩
        · exact not_hasSlot_cutOff has
        · rw [List.mem_singleton, first] at same
          exact absurd same (by decide)
      exact ⟨real, (WellFormed.cutOff lattice).insertLocked_lost inRange ranged depsRange
        (rejects_cutOff fresh) real alone
        ⟨.inr ⟨first ▸ own, first ▸ unsatisfied⟩, .inr ⟨listed, open'⟩⟩ inserted⟩
  · have real : irob.placeholder = false := by
      by_contra holder
      rw [requested_placeholder (Bool.not_eq_false _ ▸ holder)] at spans
      exact fits spans
    exact ⟨real, wf.insertLocked_lost inRange ranged depsRange fresh real fits spans inserted⟩

/-- An insertion that is `Insertable` ends as if the deque had no bound, or, where it is that of
the first identifier and the last one has a slot, as if the deque had been empty. -/
theorem WellFormed.insertLocked_of_insertable (wf : lattice.WellFormed)
    (apart : ¬lattice.Spans []) (inRange : irob.id.InRange)
    (ranged : ∀ dependent ∈ irob.dependents, dependent.InRange) {inferDeps : Bool}
    (depsRange : ∀ dep ∈ lattice.requested irob inferDeps, dep.InRange)
    (fits : lattice.Insertable irob inferDeps) :
    ∃ before : IrobLattice α, (before = lattice ∨
        before = lattice.cutOff ∧ irob.id = (0 : Int) ∧ lattice.HasSlot IrobId.last ∧
          lattice.rejects irob = false) ∧
      lattice.insertLocked irob inferDeps = asserted (before.insert irob inferDeps) ∧
      ∀ result ∈ before.insert irob inferDeps, ¬result.1.Spans [] := by
  by_cases roomy : lattice.rejects irob = true ∨ ¬lattice.Spans (lattice.requested irob inferDeps)
  · refine ⟨lattice, .inl rfl, wf.insertLocked_eq inRange ranged depsRange roomy, ?_⟩
    rintro result inserted spans
    rcases roomy with refused | fewer
    · rw [insert_def, if_pos refused] at inserted
      cases inserted
      exact apart spans
    · exact (wf.spans_insert inRange ranged depsRange inserted spans).elim apart fewer
  · rw [not_or, not_not, Bool.not_eq_true] at roomy
    obtain ⟨fresh, first, last⟩ := roomy
    rcases fits with refused | ⟨noLast, noFirst⟩
    · cases fresh.symm.trans refused
    rw [spans_nil] at apart
    have ends : lattice.HasSlot IrobId.last :=
      last.resolve_right fun listed => noLast ⟨first, listed⟩
    obtain ⟨listed, open'⟩ := first.resolve_left fun has => apart ⟨has, ends⟩
    have same : irob.id = (0 : Int) := by
      by_contra other
      exact noFirst ⟨ends, other, listed, open'⟩
    have cutWf := WellFormed.cutOff lattice
    have cutApart : ¬lattice.cutOff.Spans (lattice.requested irob inferDeps) := fun both =>
      noLast ⟨first, both.2.resolve_left not_hasSlot_cutOff⟩
    rw [← requested_cutOff] at depsRange cutApart
    refine ⟨lattice.cutOff, .inr ⟨rfl, same, ends, fresh⟩, ?_, fun result inserted spans => ?_⟩
    · rw [wf.insertLocked_cuts apart ends same fresh]
      exact cutWf.insertLocked_eq inRange ranged depsRange (.inr cutApart)
    · rcases cutWf.spans_insert inRange ranged depsRange inserted spans with had | needed
      · exact not_hasSlot_cutOff (spans_nil.mp had).1
      · exact cutApart needed

/-- An inserted IROB is found, and is a placeholder if and only if it was one. -/
theorem WellFormed.find_inserted (wf : lattice.WellFormed) (inRange : irob.id.InRange)
    (ranged : ∀ dependent ∈ irob.dependents, dependent.InRange) {inferDeps : Bool}
    (depsRange : ∀ dep ∈ lattice.requested irob inferDeps, dep.InRange) {after : IrobLattice α}
    {kept : PendingIrob α} (inserted : lattice.insert irob inferDeps = some (after, some kept)) :
    ∃ stored, after.find irob.id = some stored ∧ stored.placeholder = irob.placeholder := by
  rcases insert_cases inserted with
    ⟨-, shape⟩ | ⟨placed, fresh, placing, ⟨holder, shape⟩ | ⟨real, -, linking⟩⟩
  · cases shape
  · cases shape
    refine ⟨placed.2, ?_, (place_links placing).2.2.2.2.1⟩
    rw [(wf.find_place inRange ranged placing).2 irob.id inRange, if_pos rfl]
  · obtain ⟨deps, corrected⟩ := correctDeps_kept placed.1 placed.2 inferDeps
    have kind : (placed.1.correctDeps placed.2 inferDeps).2.placeholder = irob.placeholder := by
      rw [corrected]
      exact (place_links placing).2.2.2.2.1
    rw [requested_place placing real] at depsRange
    obtain ⟨linked, same, -, -, finds⟩ := wf.insert_placed inRange ranged real fresh inferDeps
      placing fun dep member => depsRange dep
        (List.mem_cons_of_mem _ (OrderedSet.mem_toList.mpr member))
    cases inserted.symm.trans same
    have own := finds irob.id inRange
    dsimp only at own
    rw [if_pos rfl] at own
    split_ifs at own
    · exact ⟨_, own, kind⟩
    · exact ⟨_, own, kind⟩

/-- Only a refused insertion returns false. -/
theorem rejects_of_insertLocked {inferDeps : Bool} {after : IrobLattice α}
    (inserted : lattice.insertLocked irob inferDeps = .ok (after, none)) :
    lattice.rejects irob = true := by
  by_contra fresh
  rw [insertLocked, insertWith, if_neg fresh] at inserted
  cases storing : lattice.store irob with
  | error interruption =>
      rw [storing] at inserted
      cases inserted
  | ok placed =>
      rw [storing] at inserted
      change (if placed.2.placeholder then _ else _) = _ at inserted
      split_ifs at inserted
      · cases inserted
      · change (linkLocked _ _ _ >>= fun linked => pure (linked, some _)) = _ at inserted
        cases linking : linkLocked ((placed.1.correctDeps placed.2 inferDeps).1.update irob.id
          fun _ => (placed.1.correctDeps placed.2 inferDeps).2) irob.id
          (placed.1.correctDeps placed.2 inferDeps).2.deps.toList with
        | error interruption =>
            rw [linking] at inserted
            cases inserted
        | ok linked =>
            rw [linking] at inserted
            cases inserted

end Insert

/-- Erasing adds no slot. -/
theorem hasSlot_erase {atReceiver : Bool} {key : Int}
    (has : (lattice.erase id atReceiver).1.HasSlot key) : lattice.HasSlot key := by
  obtain ⟨raised, sameStop⟩ := lattice.pendingIrobs.clear_bounds (lattice.key id)
  have cleared : ∀ rest : IrobLattice α,
      rest.pendingIrobs = lattice.pendingIrobs.clear (lattice.key id) → rest.HasSlot key →
        lattice.HasSlot key := by
    intro rest shape restHas
    unfold HasSlot at restHas ⊢
    rw [shape, sameStop] at restHas
    exact ⟨raised.trans restHas.1, restHas.2⟩
  have satisfied : ∀ (dependents : List IrobId) (rest : IrobLattice α),
      (dependents.foldl (fun sofar dependent => sofar.update dependent (·.depSatisfied id))
        rest).HasSlot key → rest.HasSlot key := by
    intro dependents
    induction dependents with
    | nil => exact fun _ held => held
    | cons dependent others ih => exact fun rest held => hasSlot_update.mp (ih _ held)
  unfold IrobLattice.erase at has
  cases found : lattice.find id with
  | none =>
      rw [found] at has
      exact has
  | some victim =>
      simp only [found] at has
      split_ifs at has
      · exact cleared _ rfl (satisfied _ _ has)
      · exact cleared _ rfl has

end IrobLattice

end Libcmm
