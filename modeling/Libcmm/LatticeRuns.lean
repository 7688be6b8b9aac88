import Libcmm.Edges
import Libcmm.Insertion

/-! # Runs of the lattice

The lattice under any sequence of calls from outside: IROBs and placeholders are
inserted, with or without inference of dependencies, erased at either end, dropped with
all that depends on them, and everything is cleared. A run remembers which identifiers
the calls inserted and erased, so that the deque can be compared with what it is for: a
finite map whose keys are the identifiers inserted since it was last cleared and not
erased since.

`machine` has a deque with room for every index, and `lockedMachine` inserts as
`insert_locked` does. Calls that are `Roomy` lead to the same states in both.
-/

namespace Libcmm

open Lib

/-- A call on `PendingIROBLattice`. -/
inductive LatticeCall (α : Type) where
  | insert (irob : PendingIrob α) (inferDeps : Bool)
  | erase (id : IrobId) (atReceiver : Bool)
  | dropIrobAndDependents (id : IrobId)
  | clear

/-- What a call did to the pending identifiers. -/
inductive Change where
  | inserted (id : IrobId)
  | erased (id : IrobId)
  | cleared
  deriving DecidableEq

namespace Change

/-- An identifier was inserted since the lattice was last cleared, and not erased since;
the changes are listed newest first. -/
def Live (id : IrobId) (changes : List Change) : Prop :=
  ∃ later earlier, changes = later ++ .inserted id :: earlier ∧ .cleared ∉ later ∧
    .erased id ∉ later

variable {id : IrobId} {changes : List Change}

@[simp] theorem not_live_nil : ¬Live id [] := by
  rintro ⟨later, earlier, shape, -⟩
  exact List.cons_ne_nil _ _ (List.append_eq_nil_iff.mp shape.symm).2

@[simp] theorem live_cons {change : Change} : Live id (change :: changes) ↔
    change = .inserted id ∨ (change ≠ .cleared ∧ change ≠ .erased id ∧ Live id changes) := by
  constructor
  · rintro ⟨later, earlier, shape, noClear, noErase⟩
    cases later with
    | nil =>
        cases shape
        exact .inl rfl
    | cons first later =>
        obtain ⟨rfl, rest⟩ := List.cons.inj shape
        simp only [List.mem_cons, not_or] at noClear noErase
        exact .inr ⟨Ne.symm noClear.1, Ne.symm noErase.1, later, earlier, rest, noClear.2,
          noErase.2⟩
  · rintro (rfl | ⟨noClear, noErase, later, earlier, rfl, clears, erases⟩)
    · exact ⟨[], changes, rfl, List.not_mem_nil, List.not_mem_nil⟩
    · refine ⟨change :: later, earlier, rfl, ?_, ?_⟩
      · exact fun member => (List.mem_cons.mp member).elim (fun same => noClear same.symm) clears
      · exact fun member => (List.mem_cons.mp member).elim (fun same => noErase same.symm) erases

theorem live_inserted {ids : List IrobId} :
    Live id (ids.map .inserted ++ changes) ↔ id ∈ ids ∨ Live id changes := by
  induction ids with
  | nil => simp only [List.map_nil, List.nil_append, List.not_mem_nil, false_or]
  | cons first rest ih =>
      rw [List.map_cons, List.cons_append, live_cons, ih, List.mem_cons, or_assoc]
      simp only [inserted.injEq, ne_eq, reduceCtorEq, not_false_eq_true, true_and]
      rw [eq_comm]

theorem live_erased {ids : List IrobId} :
    Live id (ids.map .erased ++ changes) ↔ id ∉ ids ∧ Live id changes := by
  induction ids with
  | nil => simp only [List.map_nil, List.nil_append, List.not_mem_nil, not_false_eq_true, true_and]
  | cons first rest ih =>
      rw [List.map_cons, List.cons_append, live_cons, ih, List.mem_cons, not_or, and_assoc]
      simp only [reduceCtorEq, ne_eq, not_false_eq_true, true_and, false_or, erased.injEq]
      rw [eq_comm]

end Change

/-- A lattice with the changes made to it, newest first. -/
structure LatticeRun (α : Type) where
  lattice : IrobLattice α
  changes : List Change

namespace LatticeRun

variable {α : Type}

/-- A new lattice. -/
def empty : LatticeRun α := ⟨.empty, []⟩

section Calls

variable [IrobClass α]

/-- The identifiers that a call of `insert_locked` stores an IROB under: its own and, for a
real IROB, the dependencies that neither are past nor have an IROB, which get placeholders. -/
def insertedIds (lattice : IrobLattice α) (irob : PendingIrob α) :
    Option (PendingIrob α) → List IrobId
  | none => []
  | some kept => irob.id ::
      if kept.placeholder then []
      else kept.deps.toList.filter fun dep => decide (dep ≠ irob.id) &&
        !lattice.pastIrobs.contains dep && (lattice.find dep).isNone

/-- An insertion returned. -/
def insertReturns (run : LatticeRun α) (irob : PendingIrob α)
    (result : IrobLattice α × Option (PendingIrob α)) : LatticeRun α :=
  ⟨result.1, (insertedIds run.lattice irob result.2).map .inserted ++ run.changes⟩

/-- One call. -/
def step (run : LatticeRun α) : LatticeCall α → Option (LatticeRun α)
  | .insert irob inferDeps =>
      (run.lattice.insert irob inferDeps).map (run.insertReturns irob)
  | .erase id atReceiver =>
      let erased := run.lattice.erase id atReceiver
      some ⟨erased.1, (if erased.2 then [id] else []).map .erased ++ run.changes⟩
  | .dropIrobAndDependents id => some ⟨run.lattice.dropIrobAndDependents id,
      (run.lattice.victims id).map .erased ++ run.changes⟩
  | .clear => some ⟨run.lattice.clear, .cleared :: run.changes⟩

/-- One call, with `insert_locked` as it is. Where it throws, nothing counts as inserted. -/
def stepLocked (run : LatticeRun α) : LatticeCall α → Option (LatticeRun α)
  | .insert irob inferDeps => match run.lattice.insertLocked irob inferDeps with
      | .ok result => some (run.insertReturns irob result)
      | .error (.lengthError left) => some { run with lattice := left }
      | .error .assertion => none
  | call => run.step call

/-- Identifiers are in range, an inserted IROB is as its constructor left it, and a
placeholder is made for an identifier without an IROB only. -/
def Permitted (run : LatticeRun α) : LatticeCall α → Prop
  | .insert irob _ => irob.id.InRange ∧ (∀ dep ∈ irob.deps.toList, dep.InRange) ∧
      irob.dependents = ∅ ∧
      (irob.placeholder = true → irob.deps = ∅ ∧ (run.lattice.find irob.id).isNone = true)
  | .erase id _ | .dropIrobAndDependents id => id.InRange
  | .clear => True

instance : ∀ (run : LatticeRun α) call, Decidable (run.Permitted call)
  | run, .insert irob _ => inferInstanceAs (Decidable (irob.id.InRange ∧
      (∀ dep ∈ irob.deps.toList, dep.InRange) ∧ irob.dependents = ∅ ∧
      (irob.placeholder = true → irob.deps = ∅ ∧ (run.lattice.find irob.id).isNone = true)))
  | _, .erase id _ | _, .dropIrobAndDependents id => inferInstanceAs (Decidable id.InRange)
  | _, .clear => inferInstanceAs (Decidable True)

/-- The lattice under every sequence of calls. -/
def machine : Machine (LatticeRun α) (LatticeCall α) where
  initial run := run = empty
  permitted := Permitted
  step := step

instance : ∀ (run : LatticeRun α) call, Decidable (machine.permitted run call) :=
  fun run call => inferInstanceAs (Decidable (run.Permitted call))

/-- An insertion does not make the deque reach from the first identifier to the last, unless
it is refused or throws before it has stored anything. -/
def Roomy (run : LatticeRun α) : LatticeCall α → Prop
  | .insert irob inferDeps => run.lattice.rejects irob = true ∨
      (run.lattice.HasSlot 0 ∧ irob.id = IrobId.last) ∨
      ¬run.lattice.Spans (run.lattice.requested irob inferDeps)
  | _ => True

instance : ∀ (run : LatticeRun α) call, Decidable (run.Roomy call)
  | _, .insert _ _ => inferInstanceAs (Decidable (_ ∨ _ ∨ _))
  | _, .erase _ _ | _, .dropIrobAndDependents _ | _, .clear => inferInstanceAs (Decidable True)

/-- The lattice under every sequence of calls, with `insert_locked` as it is. -/
def lockedMachine : Machine (LatticeRun α) (LatticeCall α) where
  initial run := run = empty
  permitted := Permitted
  step := stepLocked

instance : ∀ (run : LatticeRun α) call, Decidable (lockedMachine.permitted run call) :=
  fun run call => inferInstanceAs (Decidable (run.Permitted call))

/-! ### What every run keeps -/

/-- The dependencies are recorded at both ends, and the pending identifiers are those that
the changes leave. -/
structure Sound (run : LatticeRun α) : Prop where
  wired : run.lattice.Wired
  live : ∀ id : IrobId, id.InRange →
    ((run.lattice.find id).isSome = true ↔ Change.Live id run.changes)

variable {run after : LatticeRun α}

omit [IrobClass α] in
theorem Sound.empty : (empty : LatticeRun α).Sound := by
  refine ⟨.empty, fun id _ => ?_⟩
  rw [LatticeRun.empty, IrobLattice.find_empty]
  exact iff_of_false Bool.false_ne_true Change.not_live_nil

/-- A refused insertion changes nothing. -/
theorem insert_refused {lattice next : IrobLattice α} {irob : PendingIrob α} {inferDeps : Bool}
    (inserted : lattice.insert irob inferDeps = some (next, none)) : next = lattice := by
  rcases IrobLattice.insert_cases inserted with
    ⟨-, shape⟩ | ⟨placed, -, -, ⟨-, shape⟩ | ⟨-, shape, -⟩⟩
  · exact (Prod.mk.inj shape).1
  · cases (Prod.mk.inj shape).2
  · cases shape

/-- A placeholder is inserted. -/
theorem Sound.hold (sound : run.Sound) {irob kept : PendingIrob α} {inferDeps : Bool}
    {next : IrobLattice α} (inRange : irob.id.InRange) (unlinked : irob.dependents = ∅)
    (holder : irob.placeholder = true) (noDeps : irob.deps = ∅)
    (absent : run.lattice.find irob.id = none)
    (inserted : run.lattice.insert irob inferDeps = some (next, some kept)) :
    next.Wired ∧ kept.placeholder = true ∧ ∀ query : IrobId, query.InRange →
      next.find query = if query = irob.id then some irob else run.lattice.find query := by
  rcases IrobLattice.insert_cases inserted with
    ⟨-, shape⟩ | ⟨placed, fresh, placing, ⟨-, shape⟩ | ⟨real, -, -⟩⟩
  · cases (Prod.mk.inj shape).2
  · obtain ⟨same, keptSame⟩ := Prod.mk.inj shape
    have stored : placed.2 = irob := by
      rcases (IrobLattice.place_cases placing).2 with ⟨-, stores⟩ | ⟨present, found, -⟩
      · exact stores
      · cases absent.symm.trans found
    have noDependents : ∀ dependent, dependent ∉ irob.dependents := by
      rw [unlinked]
      exact OrderedSet.not_mem_empty
    obtain ⟨wf, finds⟩ := sound.wired.wf.find_place inRange
      (fun dependent member => (noDependents dependent member).elim) placing
    rw [stored] at finds
    subst same
    refine ⟨sound.wired.hold inRange absent wf (IrobLattice.place_rest placing)
      (Bool.or_eq_false_iff.mp fresh).1 ?_ noDependents finds, ?_, finds⟩
    · rw [noDeps]
      exact OrderedSet.not_mem_empty
    · cases keptSame
      rw [stored]
      exact holder
  · cases holder.symm.trans real

theorem Sound.insert (sound : run.Sound) {irob : PendingIrob α} {inferDeps : Bool}
    (permitted : run.Permitted (.insert irob inferDeps))
    (moved : run.step (.insert irob inferDeps) = some after) : after.Sound := by
  obtain ⟨inRange, depsRange, unlinked, holds⟩ := permitted
  have noDependents : ∀ dependent, dependent ∉ irob.dependents := by
    rw [unlinked]
    exact OrderedSet.not_mem_empty
  obtain ⟨⟨next, inserted⟩, inserting, rfl⟩ := Option.map_eq_some_iff.mp moved
  cases inserted with
  | none =>
      cases insert_refused inserting
      exact sound
  | some kept =>
      unfold insertReturns insertedIds
      cases kind : irob.placeholder with
      | true =>
          obtain ⟨noDeps, absent⟩ := holds kind
          obtain ⟨wired, keptKind, finds⟩ := sound.hold inRange unlinked kind noDeps
            (Option.isNone_iff_eq_none.mp absent) inserting
          refine ⟨wired, fun query queryRange => ?_⟩
          simp only [keptKind, ↓reduceIte]
          rw [finds query queryRange, Change.live_inserted, List.mem_singleton,
            ← sound.live query queryRange]
          split_ifs with same
          · exact iff_of_true rfl (.inl same)
          · exact (or_iff_right same).symm
      | false =>
          obtain ⟨stored, last, dominators⟩ := sound.wired.stored kind inRange
            (fun dependent member => (noDependents dependent member).elim) depsRange inserting
          refine ⟨sound.wired.insert inRange noDependents last dominators stored,
            fun query queryRange => ?_⟩
          simp only [stored.real, Bool.false_eq_true, ↓reduceIte]
          rw [Change.live_inserted, ← sound.live query queryRange, stored.find query queryRange]
          simp only [List.mem_cons, List.mem_filter, Bool.and_eq_true, decide_eq_true_eq,
            Bool.not_eq_true', Option.isNone_iff_eq_none, OrderedSet.mem_toList]
          by_cases same : query = irob.id
          · simp only [same, ↓reduceIte, true_or, iff_true]
            split_ifs <;> rfl
          · cases found : run.lattice.find query with
            | some old =>
                simp only [same, ↓reduceIte, Option.isSome_some, or_true, iff_true]
                split_ifs <;> rfl
            | none =>
                simp only [same, ↓reduceIte, Option.isSome_none, Bool.false_eq_true, or_false,
                  false_or, and_true, ne_eq, not_false_eq_true, true_and]
                split_ifs with linkedTo
                · exact iff_of_true rfl linkedTo
                · exact iff_of_false Bool.false_ne_true linkedTo

theorem Sound.step (sound : run.Sound) {call : LatticeCall α} (permitted : run.Permitted call)
    (moved : run.step call = some after) : after.Sound := by
  cases call with
  | insert irob inferDeps => exact sound.insert permitted moved
  | erase id atReceiver =>
      cases moved
      cases found : run.lattice.find id with
      | none =>
          rw [IrobLattice.erase_absent found]
          exact sound
      | some victim =>
          have removal := sound.wired.wf.removal_erase permitted found atReceiver
          obtain ⟨done, -, -, finds⟩ := sound.wired.wf.find_erase permitted found atReceiver
          refine ⟨sound.wired.remove removal, fun query queryRange => ?_⟩
          simp only [done, ↓reduceIte]
          rw [Change.live_erased, List.mem_singleton, ← sound.live query queryRange,
            finds query queryRange]
          split_ifs with same
          · exact iff_of_false Bool.false_ne_true fun both => both.1 same
          · rw [Option.isSome_map]
            exact (and_iff_right same).symm
          · exact (and_iff_right same).symm
  | dropIrobAndDependents id =>
      cases moved
      obtain ⟨drops, -⟩ := sound.wired.wf.drops permitted
      refine ⟨sound.wired.remove drops.removal, fun query queryRange => ?_⟩
      rw [Change.live_erased, ← sound.live query queryRange, drops.find query queryRange]
      split_ifs with went
      · exact iff_of_false Bool.false_ne_true fun both => both.1 went
      · exact (and_iff_right went).symm
  | clear =>
      cases moved
      refine ⟨.clear _, fun query _ => iff_of_false ?_ ?_⟩
      · rw [show run.lattice.clear.find query = none from Window.get_of_empty rfl _]
        exact Bool.false_ne_true
      · rw [Change.live_cons]
        simp only [reduceCtorEq, ne_eq, not_true_eq_false, false_and, or_self, not_false_eq_true]

theorem sound_of_reachable (reached : machine.Reachable run) : run.Sound := by
  apply reached.induct
  · rintro first rfl
    exact .empty
  · intro before next call _ sound permitted moved
    exact sound.step permitted moved

omit [IrobClass α] in
theorem Sound.requested_inRange (sound : run.Sound) {irob : PendingIrob α} {inferDeps : Bool}
    (permitted : run.Permitted (.insert irob inferDeps)) :
    ∀ dep ∈ run.lattice.requested irob inferDeps, dep.InRange := by
  obtain ⟨inRange, depsRange, -, -⟩ := permitted
  intro dep asked
  rcases List.mem_cons.mp asked with rfl | linked
  · exact inRange
  · split_ifs at linked
    · cases linked
    · exact (IrobLattice.correctDeps_keeps inferDeps inRange
        (fun own listed => depsRange own (OrderedSet.mem_toList.mpr listed)) sound.wired.last
        sound.wired.dominators).1 dep (OrderedSet.mem_toList.mp linked)

/-- A roomy insertion ends as if the deque had no bound, or throws at once. -/
theorem Sound.insertLocked (sound : run.Sound) (apart : ¬run.lattice.Spans [])
    {irob : PendingIrob α} {inferDeps : Bool} (permitted : run.Permitted (.insert irob inferDeps))
    (roomy : run.Roomy (.insert irob inferDeps)) :
    (run.lattice.insertLocked irob inferDeps =
        IrobLattice.asserted (run.lattice.insert irob inferDeps) ∧
      ∀ result ∈ run.lattice.insert irob inferDeps, ¬result.1.Spans []) ∨
    run.lattice.insertLocked irob inferDeps = .error (.lengthError run.lattice) := by
  have asked := sound.requested_inRange permitted
  obtain ⟨inRange, -, unlinked, -⟩ := permitted
  have ranged : ∀ dependent ∈ irob.dependents, dependent.InRange := by
    rw [unlinked]
    exact fun dependent member => (OrderedSet.not_mem_empty dependent member).elim
  have wf := sound.wired.wf
  have apartEnds := mt IrobLattice.spans_nil.mpr apart
  cases rejected : run.lattice.rejects irob with
  | true =>
      refine .inl ⟨wf.insertLocked_eq inRange ranged asked (.inl rejected), fun result same => ?_⟩
      rw [IrobLattice.insert_def, if_pos rejected] at same
      cases same
      exact apart
  | false =>
      rcases roomy with refused | ⟨first, last⟩ | fits
      · cases rejected.symm.trans refused
      · exact .inr (wf.insertLocked_throws apartEnds first last rejected inferDeps)
      · refine .inl ⟨wf.insertLocked_eq inRange ranged asked (.inr fits), fun result same spans => ?_⟩
        exact (wf.spans_insert inRange ranged asked same spans).elim apart fits

omit [IrobClass α] in
/-- Dropping adds no slot. -/
theorem hasSlot_dropVictims {turns : Nat} {victims : List IrobId} {lattice : IrobLattice α}
    {key : Int} (has : (IrobLattice.dropVictims turns victims lattice).HasSlot key) :
    lattice.HasSlot key := by
  induction turns generalizing victims lattice with
  | zero => cases victims <;> exact has
  | succ turns ih =>
      cases victims with
      | nil => exact has
      | cons victim victims =>
          unfold IrobLattice.dropVictims at has
          cases found : lattice.find victim with
          | none =>
              rw [found] at has
              exact ih has
          | some irob =>
              rw [found] at has
              have dropped : (lattice.drop victim).HasSlot key := ih has
              have erased : (lattice.erase victim false).1.HasSlot key := dropped
              exact IrobLattice.hasSlot_erase erased

/-- What the lattice reaches by roomy calls it reaches with room for every index, too. -/
theorem reachable_of_locked (reached : (lockedMachine.restrict Roomy).Reachable run) :
    machine.Reachable run ∧ ¬run.lattice.Spans [] := by
  apply reached.induct
  · rintro first rfl
    refine ⟨.initial rfl, fun spans => ?_⟩
    exact (IrobLattice.spans_nil.mp spans).1.ne_nil rfl
  · rintro before next call - ⟨idle, apart⟩ ⟨permitted, roomy⟩ moved
    change before.stepLocked call = some next at moved
    cases call with
    | insert irob inferDeps =>
        rcases (sound_of_reachable idle).insertLocked apart permitted roomy with
          ⟨same, apartAfter⟩ | throws
        · cases inserting : before.lattice.insert irob inferDeps with
          | none =>
              rw [stepLocked, same, inserting] at moved
              cases moved
          | some result =>
              rw [stepLocked, same, inserting] at moved
              cases moved
              refine ⟨.step idle permitted ?_, apartAfter result inserting⟩
              exact congrArg (Option.map (before.insertReturns irob)) inserting
        · rw [stepLocked, throws] at moved
          cases moved
          exact ⟨idle, apart⟩
    | erase id atReceiver =>
        refine ⟨.step idle permitted moved, fun spans => apart ?_⟩
        cases moved
        rw [IrobLattice.spans_nil] at spans ⊢
        exact spans.imp IrobLattice.hasSlot_erase IrobLattice.hasSlot_erase
    | dropIrobAndDependents id =>
        refine ⟨.step idle permitted moved, fun spans => apart ?_⟩
        cases moved
        rw [IrobLattice.spans_nil] at spans ⊢
        exact spans.imp hasSlot_dropVictims hasSlot_dropVictims
    | clear =>
        refine ⟨.step idle permitted moved, fun spans => ?_⟩
        cases moved
        exact (IrobLattice.spans_nil.mp spans).1.ne_nil rfl

/-- In every run whose insertions are roomy the deque starts with an IROB or is empty and holds
every IROB under its own identifier; it holds those inserted since it was last cleared and not
erased since, and none that is past; a call that fails changes nothing; and a pending IROB is
among the dependencies of another exactly when that one is among its dependents. -/
theorem lattice_represented (reached : (lockedMachine.restrict Roomy).Reachable run) :
    (run.lattice.pendingIrobs.slots = [] ∨
      ∃ irob, run.lattice.pendingIrobs.slots.head? = some (some irob)) ∧
    (∀ (index : Nat) irob, run.lattice.pendingIrobs.slots[index]? = some (some irob) →
      irob.id = index + run.lattice.pendingIrobs.base) ∧
    (∀ id : IrobId, id.InRange →
      ((run.lattice.find id).isSome = true ↔ Change.Live id run.changes)) ∧
    (∀ id : IrobId, id.InRange → (run.lattice.find id).isSome = true →
      run.lattice.pastIrobs.contains id = false) ∧
    (∀ irob inferDeps left, run.Permitted (.insert irob inferDeps) →
      run.Roomy (.insert irob inferDeps) →
      IrobLattice.failed (run.lattice.insertLocked irob inferDeps) = some left →
        left = run.lattice) ∧
    (∀ id atReceiver next, run.lattice.erase id atReceiver = (next, false) →
      next = run.lattice) ∧
    ∀ (above below : IrobId) upper lower, above.InRange → below.InRange →
      run.lattice.find above = some upper → run.lattice.find below = some lower →
        lower.placeholder = false → (above ∈ lower.deps ↔ below ∈ upper.dependents) := by
  obtain ⟨idle, apart⟩ := reachable_of_locked reached
  have sound := sound_of_reachable idle
  obtain ⟨wired, live⟩ := id sound
  refine ⟨?_, ?_, live, ?_, fun irob inferDeps left permitted roomy failing => ?_, ?_, ?_⟩
  · cases shape : run.lattice.pendingIrobs.slots with
    | nil => exact .inl rfl
    | cons head rest =>
        have tight := wired.wf.tight
        unfold Window.Tight at tight
        rw [shape] at tight
        cases head with
        | none => exact (tight rfl).elim
        | some irob => exact .inr ⟨irob, rfl⟩
  · intro index irob used
    have stored : run.lattice.pendingIrobs.get (run.lattice.pendingIrobs.base + index) =
        some irob := by
      rw [Window.get_of_le (by omega), show (run.lattice.pendingIrobs.base + (index : Int) -
        run.lattice.pendingIrobs.base).toNat = index by omega, used]
      rfl
    rw [(wired.wf.stored _ irob stored).1]
    exact add_comm _ _
  · intro id inRange pending
    cases past : run.lattice.pastIrobs.contains id with
    | false => rfl
    | true =>
        rw [wired.past id inRange past] at pending
        cases pending
  · rcases sound.insertLocked apart permitted roomy with ⟨same, -⟩ | throws
    · rw [same] at failing
      cases inserting : run.lattice.insert irob inferDeps with
      | none =>
          rw [inserting] at failing
          cases failing
      | some result =>
          obtain ⟨next, inserted⟩ := result
          rw [inserting] at failing
          cases inserted with
          | none =>
              cases failing
              exact insert_refused inserting
          | some kept => cases failing
    · rw [throws] at failing
      cases failing
      rfl
  · intro id atReceiver next failed
    unfold IrobLattice.erase at failed
    cases found : run.lattice.find id with
    | none =>
        rw [found] at failed
        exact (Prod.mk.inj failed).1.symm
    | some victim =>
        rw [found] at failed
        simp only at failed
        split_ifs at failed
        · cases (Prod.mk.inj failed).2
        · cases (Prod.mk.inj failed).2
  · intro above below upper lower aboveRange belowRange upperFound lowerFound _
    exact wired.dep_iff aboveRange belowRange upperFound lowerFound

end Calls

end LatticeRun

namespace IrobLattice

variable {α : Type} {lattice : IrobLattice α} {id : IrobId}

end IrobLattice

namespace LatticeRun

variable {α : Type} [IrobClass α] {run : LatticeRun α}

end LatticeRun

/-! ### The base class

A `PendingIROBLattice` of plain `PendingIROB`s, whose `subsume` appends the chunks of the
placeholder.
-/

/-- `PendingIROB::add_chunk`. -/
def PendingIrob.addChunk {α : Type} (irob : PendingIrob α) (chunk : IrobChunk) :
    PendingIrob α × Bool :=
  if irob.complete then (irob, false) else ({ irob with chunks := irob.chunks ++ [chunk] }, true)

instance : IrobClass Unit where
  placeholderOwn := ()
  subsume := PendingIrob.subsume fun irob chunk => some (irob.addChunk chunk)
  subsume_links := PendingIrob.subsume_links fun irob chunk _ added => by
    cases added
    unfold PendingIrob.addChunk
    split_ifs <;> exact ⟨rfl, rfl, rfl, rfl, rfl, rfl⟩

namespace LatticeRun

/-- Two IROBs that depend on each other, and a third that depends on the second. -/
def cycleCalls : List (LatticeCall Unit) :=
  [.insert (.mkReal 5 [6] [] 0 ()) true, .insert (.mkReal 6 [5] [] 0 ()) true,
    .insert (.mkReal 7 [6] [] 0 ()) true, .insert (.mkReal 4 [] [] 0 ()) true]

theorem lattice_represented_cycle : ∃ run : LatticeRun Unit,
    (lockedMachine.restrict Roomy).Reachable run ∧
    run.lattice.pendingIrobs.base = 4 ∧ Change.Live 7 run.changes := by
  obtain ⟨run, ran, base, pending⟩ : ∃ run : LatticeRun Unit,
      (lockedMachine.restrict Roomy).run empty cycleCalls = some run ∧
      run.lattice.pendingIrobs.base = 4 ∧ (run.lattice.find 7).isSome = true := ⟨_, rfl, rfl, rfl⟩
  have reached := Machine.Reachable.run (.initial rfl) ran
  exact ⟨run, reached, base,
    ((lattice_represented reached).2.2.1 7 (by decide)).mp pending⟩

/-- An IROB without dependencies is inserted. -/
def insertPlain (id : IrobId) : LatticeCall Unit := .insert (.mkReal id [] [] 0 ()) false

/-- With IROB 0 pending, IROB 5 is stored before the insertion of the last identifier, on which
it depends, throws. With the last one pending, the insertion of IROB 0 loses it. -/
theorem insertion_unroomy :
    (∃ run : LatticeRun Unit, lockedMachine.run empty [insertPlain 0] = some run ∧
      run.Permitted (.insert (.mkReal 5 [IrobId.last] [] 0 ()) false) ∧
      ∃ left, IrobLattice.failed
        (run.lattice.insertLocked (.mkReal 5 [IrobId.last] [] 0 ()) false) = some left ∧
        run.lattice.find 5 = none ∧ (left.find 5).isSome = true) ∧
    ∃ run : LatticeRun Unit, lockedMachine.Reachable run ∧ Change.Live IrobId.last run.changes ∧
      run.lattice.find IrobId.last = none := by
  constructor
  · exact ⟨_, rfl, by decide, _, rfl, rfl, rfl⟩
  · obtain ⟨before, ran, slot, fresh, permitted, result, cut, changes, lost⟩ :
        ∃ before : LatticeRun Unit,
        (lockedMachine.restrict Roomy).run empty [insertPlain IrobId.last] = some before ∧
        before.lattice.HasSlot IrobId.last ∧
        before.lattice.rejects (.mkReal 0 [] [] 0 ()) = false ∧
        before.Permitted (insertPlain 0) ∧ ∃ result,
        before.lattice.cutOff.insertLocked (.mkReal 0 [] [] 0 ()) false = .ok result ∧
        (before.insertReturns (.mkReal 0 [] [] 0 ()) result).changes =
          [.inserted 0, .inserted IrobId.last] ∧
        result.1.find IrobId.last = none :=
      ⟨_, rfl, by decide, rfl, by decide, _, rfl, rfl, rfl⟩
    have reached := Machine.Reachable.run (.initial rfl) ran
    obtain ⟨idle, apart⟩ := reachable_of_locked reached
    have cuts := (sound_of_reachable idle).wired.wf.insertLocked_cuts
      (mt IrobLattice.spans_nil.mpr apart) slot rfl fresh false
    have moved : before.stepLocked (insertPlain 0) =
        some (before.insertReturns (.mkReal 0 [] [] 0 ()) result) := by
      rw [insertPlain, stepLocked, cuts, cut]
    have allowed : lockedMachine.permitted before (insertPlain 0) := permitted
    have after : lockedMachine.Reachable (before.insertReturns (.mkReal 0 [] [] 0 ()) result) :=
      .step reached.of_restrict allowed moved
    refine ⟨_, after, ?_, lost⟩
    rw [changes]
    simp only [Change.live_cons, Change.inserted.injEq, ne_eq, reduceCtorEq, not_false_eq_true,
      true_and, true_or, or_true]

end LatticeRun

end Libcmm
