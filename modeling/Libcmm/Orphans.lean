import Libcmm.OutgoingLinks

/-! # Dependents of discarded IROBs

An IROB is discarded when a sender thread drops it, or when `end_irob` reports to the
application that it failed. The peer never gets it, so an IROB that depends on it would
never be released there. `drop_irob_and_dependents` takes all pending dependents along,
and `begin_irob` refuses an IROB that names a dropped one.

Two ways remain to leave an orphan behind. `end_irob` erases an IROB without its
dependents and without a note in `dropped_irobs`. And the dependencies that `correct_deps`
infers are added after the refusal test, from members that a drop leaves as they were.
-/

namespace Libcmm

open Lib

/-- Some pending IROB has an identifier among its dependencies. -/
def IrobLattice.dependedOn {α : Type} (lattice : IrobLattice α) (id : IrobId) : Bool :=
  lattice.pendingIrobs.slots.any fun slot => slot.any fun irob => decide (id ∈ irob.deps)

theorem IrobLattice.not_mem_deps {α : Type} {lattice : IrobLattice α} {id query : IrobId}
    (none : lattice.dependedOn id = false) {irob : PendingIrob α}
    (found : lattice.find query = some irob) : id ∉ irob.deps := by
  intro listed
  rw [IrobLattice.find, Window.get_of_le (Window.bounds_of_get found).1] at found
  have slot := List.mem_of_getElem? (Option.join_eq_some_iff.mp found)
  have free := List.any_eq_false.mp none _ slot
  exact free (decide_eq_true listed)

namespace Outgoing

variable {outgoing after : Outgoing} {event : OutgoingEvent}

/-- No discarded IROB is inherited from `last_anon_irob_id` or `min_dominator_set`, none
that `end_irob` erased is named, and `end_irob` fails only for IROBs without dependents. -/
def LeavesNoOrphan (outgoing : Outgoing) (event : OutgoingEvent) : Prop :=
  (∀ psirob ∈ event.inserts,
    (∀ dep ∈ outgoing.irobs.inherited psirob.toOutgoing, ¬outgoing.Discarded dep) ∧
      ∀ dep ∈ psirob.deps.toList, dep ∉ outgoing.failed) ∧
  ∀ id ∈ outgoing.failing event, outgoing.irobs.dependedOn id = false

instance (outgoing : Outgoing) (event : OutgoingEvent) : Decidable (outgoing.LeavesNoOrphan event) :=
  inferInstanceAs (Decidable (_ ∧ _))

/-- Every dependency of a pending IROB was or may still be delivered. -/
def NoOrphans (outgoing : Outgoing) : Prop :=
  ∀ (id : IrobId) (pirob : OutgoingIrob), id.InRange → outgoing.irobs.find id = some pirob →
    ∀ dep ∈ pirob.deps, ¬outgoing.Discarded dep

namespace NoOrphans

/-- Where pending IROBs depend on nothing new and nothing new is discarded. -/
theorem of_subset (clean : outgoing.NoOrphans)
    (before : ∀ (id : IrobId) (pirob : OutgoingIrob), id.InRange →
      after.irobs.find id = some pirob →
      ∃ old : OutgoingIrob, outgoing.irobs.find id = some old ∧ ∀ dep ∈ pirob.deps, dep ∈ old.deps)
    (discarded : ∀ id, after.Discarded id → outgoing.Discarded id) : after.NoOrphans := by
  intro id pirob inRange found dep listed gone
  obtain ⟨old, held, subset⟩ := before id pirob inRange found
  exact clean id old inRange held dep (subset dep listed) (discarded dep gone)

/-- An insertion is clean when all dependencies of the new IROB are. -/
theorem insert (clean : outgoing.NoOrphans) {psirob : SenderIrob}
    {irobs : IrobLattice (Option SenderPart)} {kept : OutgoingIrob}
    (insertion : outgoing.irobs.Insertion psirob.toOutgoing irobs kept)
    (deps : ∀ dep ∈ kept.deps, ¬outgoing.Discarded dep) (sameIrobs : after.irobs = irobs)
    (sameFailed : after.failed = outgoing.failed) : after.NoOrphans := by
  intro id pirob inRange found dep listed gone
  have before : outgoing.Discarded dep := by
    unfold Discarded at gone
    rw [sameIrobs, sameFailed, insertion.dropped] at gone
    exact gone
  rw [sameIrobs] at found
  rcases insertion.recorded.cases inRange found with ⟨-, rfl | rfl⟩ | ⟨-, old, held, rfl | rfl⟩ |
    ⟨-, -, -, -, rfl⟩
  · exact deps dep listed before
  · exact deps dep listed before
  · exact clean id _ inRange held dep listed before
  · exact clean id _ inRange held dep listed before
  · exact OrderedSet.not_mem_empty dep listed

/-- A drop leaves no dependents of what it drops. -/
theorem drop (clean : outgoing.NoOrphans) (consistent : outgoing.Consistent)
    {victims gone : List IrobId} {irobs : IrobLattice (Option SenderPart)}
    (drops : outgoing.irobs.Drops victims irobs gone) :
    NoOrphans { outgoing with irobs := irobs } := by
  intro id pirob inRange found dep listed discarded
  have before : outgoing.irobs.find id = some pirob ∧ id ∉ gone := by
    change irobs.find id = some pirob at found
    rw [drops.find id inRange] at found
    split_ifs at found with went
    exact ⟨found, went⟩
  rcases (discarded_drop drops).mp discarded with new | early
  · -- the dependency was pending, so the IROB is among its dependents
    obtain ⟨depRange, past | link⟩ := consistent.linked.links id pirob inRange before.1 dep listed
    · have absent := consistent.linked.past dep depRange past
      have pending := drops.pending dep new
      rw [absent] at pending
      cases pending
    · rcases drops.closed dep new id link with went | none
      · exact before.2 went
      · cases before.1.symm.trans none
  · exact clean id pirob inRange before.1 dep listed early

/-- A failure exit of `end_irob` is clean when nothing depends on the IROB. -/
theorem fail (clean : outgoing.NoOrphans) (consistent : outgoing.Consistent) {query : IrobId}
    (inRange : query.InRange) {pirob : OutgoingIrob}
    (found : outgoing.irobs.find query = some pirob)
    (none : outgoing.irobs.dependedOn query = false) (calls : List AppCall) :
    NoOrphans { outgoing.failIrob query with calls := calls } := by
  have removed := consistent.linked.wf.removed_erase inRange found
  intro id other otherRange held dep listed discarded
  obtain ⟨-, before⟩ := removed.before otherRange held
  rcases discarded_fail.mp discarded with rfl | early
  · exact IrobLattice.not_mem_deps none before listed
  · exact clean id other otherRange before dep listed early

/-- Every event that leaves no orphan behind keeps the lattice free of orphans. -/
theorem step (clean : outgoing.NoOrphans) (consistent : outgoing.Consistent)
    (permitted : machine.permitted outgoing event) (leaves : outgoing.LeavesNoOrphan event)
    (moved : outgoing.step event = some after) : after.NoOrphans := by
  cases step_move moved with
  | idle follow refused thunks fired => exact clean
  | insert call psirob resumeHandler made deliverable inserted follow handlers =>
      obtain ⟨-, -, insertion⟩ := consistent.insertion permitted made inserted
      obtain ⟨inherited, named⟩ := leaves.1 psirob (OutgoingEvent.mem_inserts made)
      refine clean.insert insertion (fun dep listed => ?_) rfl rfl
      rcases (insertion.deps dep).mp listed with explicit | implied
      · rintro (dropped | failed)
        · have refused := IrobLattice.irobIsUndeliverable_iff.mpr ⟨dep, explicit, dropped⟩
          cases deliverable.symm.trans refused
        · exact named dep explicit failed
      · exact inherited dep implied
  | write found links follow queued acks =>
      have finds := (consistent.store found links).2
      refine clean.of_subset (fun id pirob inRange held => ?_) fun id gone => gone
      obtain ⟨-, own⟩ := consistent.found found
      have now := finds id inRange
      rw [held] at now
      split_ifs at now with same
      · cases now
        subst same
        exact ⟨_, own, fun dep listed => links.deps ▸ listed⟩
      · exact ⟨pirob, now.symm, fun dep listed => listed⟩
  | @ack query psirob found complete =>
      have removed := consistent.ack found
      refine clean.of_subset (fun id pirob inRange held => ?_) fun id gone => discarded_ack.mp gone
      exact ⟨pirob, (removed.before inRange held).2, fun dep listed => listed⟩
  | fail found fails follow =>
      exact clean.fail consistent (consistent.failing permitted fails) found
        (leaves.2 _ fails) _
  | drop found drops =>
      obtain ⟨inRange, -⟩ := consistent.found found
      obtain ⟨gone, dropped⟩ := consistent.linked.wf.dropIrobAndDependents inRange
      exact clean.drop consistent dropped

end NoOrphans

/-! ### Orphans -/

/-- No orphaned dependents at the sender: in every run whose events leave none behind, no
IROB in `outgoing_irobs` depends on one that was discarded. -/
theorem no_orphaned_dependents
    (reached : (machine.restrict LeavesNoOrphan).Reachable outgoing) :
    outgoing.irobs.Every fun pirob => ∀ dep ∈ pirob.deps, ¬outgoing.Discarded dep := by
  have clean : outgoing.NoOrphans := by
    apply reached.induct
    · intro first start id pirob inRange found
      rw [show first = Outgoing.empty from start, show Outgoing.empty.irobs = .empty from rfl,
        IrobLattice.find_empty] at found
      cases found
    · intro before next event sofar clean permitted moved
      exact clean.step (consistent_of_reachable sofar.of_restrict) permitted.1 permitted.2 moved
  intro key pirob used
  obtain ⟨inRange, found⟩ :=
    (consistent_of_reachable reached.of_restrict).linked.wf.find_of_get used
  exact clean pirob.id pirob inRange found

/-- Two IROBs are begun and the first is ended and dropped. One that names it is refused,
one that depends on the second is accepted. -/
def dropEvents : List OutgoingEvent :=
  [.call (.beginIrob 0 [] 0 false), .proceed (.beginIrob 0 [] 0 false),
    .call (.beginIrob 1 [] 0 false), .proceed (.beginIrob 1 [] 0 false),
    .call (.endIrob 0), .proceed (.endIrob 0), .delegate (.work 0 false 0) .unfit,
    .call (.beginIrob 2 [0] 0 false), .proceed (.beginIrob 2 [0] 0 false),
    .call (.beginIrob 3 [1] 0 false), .proceed (.beginIrob 3 [1] 0 false)]

theorem no_orphaned_dependents_dropped : ∃ outgoing pirob,
    (machine.restrict LeavesNoOrphan).Reachable outgoing ∧ outgoing.Discarded 0 ∧
      outgoing.refused = [2] ∧ outgoing.irobs.find 3 = some pirob ∧ pirob.deps.toList = [1] ∧
      ∀ dep ∈ pirob.deps, ¬outgoing.Discarded dep := by
  have ran : ∃ outgoing pirob,
      (machine.restrict LeavesNoOrphan).run empty dropEvents = some outgoing ∧
      outgoing.Discarded 0 ∧ outgoing.refused = [2] ∧ outgoing.irobs.find 3 = some pirob ∧
      pirob.deps.toList = [1] := ⟨_, _, rfl, .inl rfl, rfl, rfl, rfl⟩
  obtain ⟨outgoing, pirob, ran, discarded, refused, found, deps⟩ := ran
  have start : (machine.restrict LeavesNoOrphan).initial empty := rfl
  have reached := Machine.Reachable.run (.initial start) ran
  exact ⟨outgoing, pirob, reached, discarded, refused, found, deps,
    (no_orphaned_dependents reached).find found⟩

/-- The application sends twice, and the first IROB is dropped in between. The second one
depends on it all the same. -/
def inheritEvents : List OutgoingEvent :=
  [.call (.defaultIrob 0 [1] 0 false), .proceed (.defaultIrob 0 [1] 0 false),
    .delegate (.work 0 false 0) .unfit,
    .call (.defaultIrob 1 [2] 0 false), .proceed (.defaultIrob 1 [2] 0 false)]

theorem dropped_dependency_inherited : ∃ outgoing pirob, machine.Reachable outgoing ∧
    outgoing.accepted = [1, 0] ∧ outgoing.irobs.find 1 = some pirob ∧ 0 ∈ pirob.deps ∧
      outgoing.Discarded 0 := by
  have ran : ∃ outgoing pirob, machine.run empty inheritEvents = some outgoing ∧
      outgoing.accepted = [1, 0] ∧ outgoing.irobs.find 1 = some pirob ∧ 0 ∈ pirob.deps ∧
      outgoing.Discarded 0 := ⟨_, _, rfl, rfl, rfl, .head _, .inl rfl⟩
  obtain ⟨outgoing, pirob, ran, orphan⟩ := ran
  exact ⟨outgoing, pirob, Machine.Reachable.run (.initial rfl) ran, orphan⟩

end Outgoing

end Libcmm
