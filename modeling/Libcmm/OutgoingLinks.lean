import Libcmm.Outgoing

/-! # Links between outgoing IROBs

At the sender a dependency stays in the dependency set of an IROB after it was
acknowledged. `IrobLattice.Linked` is what the lattice keeps all the same: every
dependency of a pending IROB is past, or it is pending and has the IROB among its
dependents. So whatever depends on a pending IROB is found through its dependents, which
is what `drop_irob_and_dependents` relies on.
-/

namespace Libcmm

open Lib

namespace IrobLattice

variable {α : Type}

/-- The dependencies that `correct_deps` infers for an IROB. -/
def inherited (lattice : IrobLattice α) (irob : PendingIrob α) : List IrobId :=
  if irob.anonymous then
    if (0 : Int) ≤ lattice.lastAnonIrobId ∧ lattice.minDominatorSet.isEmpty then
      [lattice.lastAnonIrobId]
    else lattice.minDominatorSet.toList
  else if (0 : Int) ≤ lattice.lastAnonIrobId ∧
      (irob.deps.inter lattice.minDominatorSet).isEmpty then [lattice.lastAnonIrobId]
  else []

variable {lattice after : IrobLattice α} {id : IrobId}

/-- An IROB ends up with the dependencies it came with and those inferred. -/
theorem mem_correctDeps {irob : PendingIrob α} {dep : IrobId} :
    dep ∈ (lattice.correctDeps irob true).2.deps ↔
      dep ∈ irob.deps ∨ dep ∈ lattice.inherited irob := by
  unfold correctDeps inherited PendingIrob.addDep
  simp only [Bool.not_true, Bool.false_eq_true, ↓reduceIte]
  by_cases anonymous : irob.anonymous = true
  · simp only [anonymous, ↓reduceIte]
    split_ifs
    · rw [OrderedSet.mem_insert, List.mem_singleton]
      exact or_comm
    · rw [OrderedSet.mem_insertAll]
      exact or_comm
  · simp only [anonymous, ↓reduceIte, Bool.false_eq_true]
    split_ifs
    · rw [OrderedSet.mem_insert, List.mem_singleton]
      exact or_comm
    · simp only [List.not_mem_nil, or_false]

/-- Every dependency of a pending IROB is past or has it among its dependents, nothing
past is pending, and the identifiers are in range. -/
structure Linked (lattice : IrobLattice α) : Prop where
  wf : lattice.WellFormed
  past : ∀ id : IrobId, id.InRange → lattice.pastIrobs.contains id = true → lattice.find id = none
  links : ∀ (id : IrobId) irob, id.InRange → lattice.find id = some irob → ∀ dep ∈ irob.deps,
    dep.InRange ∧ (lattice.pastIrobs.contains dep = true ∨ lattice.HasDependent dep id)
  last : (0 : Int) ≤ lattice.lastAnonIrobId → IrobId.InRange lattice.lastAnonIrobId
  dominators : ∀ dominator ∈ lattice.minDominatorSet, dominator.InRange

/-- What a successful insertion of a real IROB does. -/
structure Insertion [IrobClass α] (lattice : IrobLattice α) (irob : PendingIrob α)
    (after : IrobLattice α) (kept : PendingIrob α) : Prop where
  wf : after.WellFormed
  real : irob.placeholder = false
  fresh : lattice.rejects irob = false
  past : after.pastIrobs = lattice.pastIrobs
  dropped : after.droppedIrobs = lattice.droppedIrobs
  deps : ∀ dep, dep ∈ kept.deps ↔ dep ∈ irob.deps ∨ dep ∈ lattice.inherited irob
  dependents : ∀ query, query ∈ kept.dependents ↔ query ∈ irob.dependents ∨
    ∃ present, lattice.find irob.id = some present ∧ query ∈ present.dependents
  inherit : ∀ property : IrobId → Prop, property irob.id → (∀ dep ∈ irob.deps, property dep) →
    ((0 : Int) ≤ lattice.lastAnonIrobId → property lattice.lastAnonIrobId) →
    (∀ dominator ∈ lattice.minDominatorSet, property dominator) →
      (∀ dep ∈ kept.deps, property dep) ∧
      ((0 : Int) ≤ after.lastAnonIrobId → property after.lastAnonIrobId) ∧
      ∀ dominator ∈ after.minDominatorSet, property dominator
  placed : lattice.find irob.id = none ∧ kept = { irob with deps := kept.deps } ∨
    ∃ present stored, lattice.find irob.id = some present ∧ present.placeholder = true ∧
      IrobClass.subsume irob present = some stored ∧ kept = { stored with deps := kept.deps }
  find : ∀ query : IrobId, query.InRange → after.find query =
    let before := if query = irob.id then some kept else lattice.find query
    if query ∈ kept.deps ∧ lattice.pastIrobs.contains query = false then
      some ((before.getD (makePlaceholder query)).addDependent irob.id) else before

section Insert

variable [IrobClass α] {irob kept : PendingIrob α}

/-- What holds of the IROB that was placed, its dependencies and the dominators holds of the
dependencies it ends up with and of the new dominators. -/
theorem inherit_of_placed {placed : IrobLattice α × PendingIrob α}
    (placing : lattice.place irob = some placed) {property : IrobId → Prop}
    (itself : property irob.id) (deps : ∀ dep ∈ irob.deps, property dep)
    (last : (0 : Int) ≤ lattice.lastAnonIrobId → property lattice.lastAnonIrobId)
    (dominators : ∀ dominator ∈ lattice.minDominatorSet, property dominator) :
    (∀ dep ∈ (placed.1.correctDeps placed.2 true).2.deps, property dep) ∧
    ((0 : Int) ≤ (placed.1.correctDeps placed.2 true).1.lastAnonIrobId →
      property (placed.1.correctDeps placed.2 true).1.lastAnonIrobId) ∧
    ∀ dominator ∈ (placed.1.correctDeps placed.2 true).1.minDominatorSet, property dominator := by
  obtain ⟨named, -, sameDeps, -, -, -⟩ := place_links placing
  have rest := place_rest placing
  apply correctDeps_forall
  · rw [named]
    exact itself
  · rw [sameDeps]
    exact deps
  · rw [rest.lastAnon]
    exact last
  · rw [rest.dominators]
    exact dominators

/-- Inserting into a linked lattice. -/
theorem Linked.insertion (linked : lattice.Linked) (real : irob.placeholder = false)
    (inRange : irob.id.InRange) (unlinked : ∀ dependent ∈ irob.dependents, dependent.InRange)
    (depsRange : ∀ dep ∈ irob.deps, dep.InRange)
    (inserted : lattice.insert irob true = some (after, some kept)) :
    lattice.Insertion irob after kept := by
  rcases insert_cases inserted with ⟨-, refused⟩ |
    ⟨placed, fresh, placing, ⟨holder, -⟩ | ⟨-, result, -⟩⟩
  · cases refused
  · cases real.symm.trans holder
  obtain ⟨named, -, sameDeps, sameKind, -, dependents⟩ := place_links placing
  have rest := place_rest placing
  have ranges := inherit_of_placed placing inRange depsRange linked.last linked.dominators
  obtain ⟨linkedAfter, same, wf, keptRest, finds⟩ := linked.wf.insert_placed inRange unlinked real
    fresh true placing ranges.1
  cases same.symm.trans inserted
  obtain ⟨deps, shape⟩ := correctDeps_kept placed.1 placed.2 true
  obtain ⟨-, samePast, sameDropped⟩ := correctDeps_lattice placed.1 placed.2 true
  have reshaped : (placed.1.correctDeps placed.2 true).2 =
      { placed.2 with deps := (placed.1.correctDeps placed.2 true).2.deps } := by
    rw [shape]
  refine ⟨wf, real, fresh, keptRest.past.trans (samePast.trans rest.past),
    keptRest.dropped.trans (sameDropped.trans rest.dropped), fun dep => ?_, fun query => ?_,
    ?_, ?_, finds⟩
  · rw [mem_correctDeps, sameDeps]
    unfold inherited
    rw [sameKind, sameDeps, rest.lastAnon, rest.dominators]
  · rw [shape]
    exact dependents query
  · intro property itself deps last dominators
    rw [keptRest.lastAnon, keptRest.dominators]
    exact inherit_of_placed placing itself deps last dominators
  · rcases (place_cases placing).2 with ⟨absent, stored⟩ | ⟨present, found, holder, -, merged⟩
    · left
      rw [stored] at reshaped
      exact ⟨absent, by rw [stored]; exact reshaped⟩
    · exact .inr ⟨present, placed.2, found, holder, merged, reshaped⟩

theorem Insertion.recorded (insertion : lattice.Insertion irob after kept) :
    lattice.Recorded irob after kept :=
  ⟨insertion.dependents, insertion.find⟩

/-- An insertion records the new IROB in all its dependencies that are not past. -/
theorem Linked.insert (linked : lattice.Linked) (inRange : irob.id.InRange)
    (depsRange : ∀ dep ∈ irob.deps, dep.InRange)
    (insertion : lattice.Insertion irob after kept) : after.Linked := by
  obtain ⟨keptRange, last, dominators⟩ :=
    insertion.inherit IrobId.InRange inRange depsRange linked.last linked.dominators
  have notPast : lattice.pastIrobs.contains irob.id = false :=
    (Bool.or_eq_false_iff.mp insertion.fresh).1
  refine ⟨insertion.wf, fun query queryRange past => ?_, ?_, last, dominators⟩
  · rw [insertion.past] at past
    have other : query ≠ irob.id := by
      rintro rfl
      cases notPast.symm.trans past
    rw [insertion.find query queryRange]
    simp only [other, ↓reduceIte, past, Bool.true_eq_false, and_false]
    exact linked.past query queryRange past
  · -- the links of the new IROB, and the old links of the others
    have own : ∀ dep ∈ kept.deps, dep.InRange ∧
        (after.pastIrobs.contains dep = true ∨ after.HasDependent dep irob.id) := by
      intro dep listed
      have depRange := keptRange dep listed
      refine ⟨depRange, ?_⟩
      rw [insertion.past]
      cases past : lattice.pastIrobs.contains dep with
      | true => exact .inl rfl
      | false =>
          have held := (insertion.find dep depRange).trans (if_pos ⟨listed, past⟩)
          exact .inr ⟨depRange, _, held, OrderedSet.mem_insert.mpr (.inl rfl)⟩
    have old : ∀ query pirob, query.InRange → lattice.find query = some pirob →
        ∀ dep ∈ pirob.deps, dep.InRange ∧
          (after.pastIrobs.contains dep = true ∨ after.HasDependent dep query) := by
      intro query pirob queryRange found dep listed
      obtain ⟨depRange, past | link⟩ := linked.links query pirob queryRange found dep listed
      · exact ⟨depRange, .inl (insertion.past ▸ past)⟩
      · exact ⟨depRange, .inr (insertion.recorded.hasDependent link)⟩
    intro query pirob queryRange found dep listed
    rcases insertion.recorded.cases queryRange found with ⟨rfl, rfl | rfl⟩ |
      ⟨-, before, held, rfl | rfl⟩ | ⟨-, -, -, -, rfl⟩
    · exact own dep listed
    · exact own dep listed
    · exact old query _ queryRange held dep listed
    · exact old query _ queryRange held dep listed
    · exact (OrderedSet.not_mem_empty dep listed).elim

end Insert

theorem Linked.empty : (IrobLattice.empty : IrobLattice α).Linked := by
  refine ⟨.empty, fun id _ _ => find_empty id, ?_, ?_, ?_⟩
  · intro id irob _ found
    rw [find_empty] at found
    cases found
  · intro nonneg
    cases nonneg
  · exact fun dominator member => (OrderedSet.not_mem_empty dominator member).elim

/-- Writing an IROB without touching its links. -/
theorem Linked.write (linked : lattice.Linked) (inRange : id.InRange) {irob next : PendingIrob α}
    (found : lattice.find id = some irob) (links : PendingIrob.SameLinks next irob) :
    (lattice.update id fun _ => next).Linked ∧
      ∀ query : IrobId, query.InRange → (lattice.update id fun _ => next).find query =
        if query = id then some next else lattice.find query := by
  have finds : ∀ query : IrobId, query.InRange → (lattice.update id fun _ => next).find query =
      if query = id then some next else lattice.find query :=
    fun query queryRange => linked.wf.find_write inRange found _ queryRange
  have wf : (lattice.update id fun _ => next).WellFormed := linked.wf.write found links
  have keeps : ∀ above below, lattice.HasDependent above below →
      (lattice.update id fun _ => next).HasDependent above below := by
    rintro above below ⟨aboveRange, holder, held, recorded⟩
    refine ⟨aboveRange, ?_⟩
    rw [finds above aboveRange]
    split_ifs with same
    · subst same
      cases found.symm.trans held
      exact ⟨next, rfl, links.dependents ▸ recorded⟩
    · exact ⟨holder, held, recorded⟩
  refine ⟨⟨wf, fun query queryRange past => ?_, ?_, linked.last, linked.dominators⟩, finds⟩
  · have absent := linked.past query queryRange past
    rw [finds query queryRange, if_neg]
    · exact absent
    · rintro rfl
      cases found.symm.trans absent
  · intro query pirob queryRange held dep listed
    have before : ∃ old, lattice.find query = some old ∧ dep ∈ old.deps := by
      rw [finds query queryRange] at held
      split_ifs at held with same
      · cases held
        subst same
        exact ⟨irob, found, links.deps ▸ listed⟩
      · exact ⟨pirob, held, listed⟩
    obtain ⟨old, oldFound, oldListed⟩ := before
    obtain ⟨depRange, known⟩ := linked.links query old queryRange oldFound dep oldListed
    exact ⟨depRange, known.imp_right (keeps dep query)⟩

/-- What is left when some IROBs were removed at the sender. -/
structure Removed (lattice after : IrobLattice α) (gone : List IrobId) : Prop where
  wf : after.WellFormed
  find : ∀ query : IrobId, query.InRange →
    after.find query = if query ∈ gone then none else lattice.find query
  past : ∀ query, after.pastIrobs.contains query = true ↔
    query ∈ gone ∨ lattice.pastIrobs.contains query = true
  lastAnon : after.lastAnonIrobId = lattice.lastAnonIrobId
  dominators : after.minDominatorSet = lattice.minDominatorSet

/-- What is pending afterwards was so before and was not removed. -/
theorem Removed.before {gone : List IrobId} (removed : lattice.Removed after gone)
    {query : IrobId} (queryRange : query.InRange) {irob : PendingIrob α}
    (held : after.find query = some irob) : query ∉ gone ∧ lattice.find query = some irob := by
  rw [removed.find query queryRange] at held
  split_ifs at held with went
  exact ⟨went, held⟩

/-- What was not removed is still there. -/
theorem Removed.stays {gone : List IrobId} (removed : lattice.Removed after gone)
    {query : IrobId} (queryRange : query.InRange) (stays : query ∉ gone) :
    after.find query = lattice.find query := by
  rw [removed.find query queryRange, if_neg stays]

/-- Removed IROBs are past, so the rest is still linked. -/
theorem Linked.remove (linked : lattice.Linked) {gone : List IrobId}
    (removed : lattice.Removed after gone) : after.Linked := by
  refine ⟨removed.wf, fun query queryRange done => ?_, ?_, removed.lastAnon ▸ linked.last,
    removed.dominators ▸ linked.dominators⟩
  · rw [removed.find query queryRange]
    split_ifs with went
    · rfl
    · exact linked.past query queryRange (((removed.past query).mp done).resolve_left went)
  · intro query pirob queryRange held dep listed
    obtain ⟨-, old⟩ := removed.before queryRange held
    obtain ⟨depRange, done | ⟨-, holder, found, recorded⟩⟩ :=
      linked.links query pirob queryRange old dep listed
    · exact ⟨depRange, .inl ((removed.past dep).mpr (.inr done))⟩
    · refine ⟨depRange, ?_⟩
      by_cases went : dep ∈ gone
      · exact .inl ((removed.past dep).mpr (.inl went))
      · exact .inr ⟨depRange, holder, (removed.stays depRange went).trans found, recorded⟩

theorem WellFormed.removed_erase (wf : lattice.WellFormed) (inRange : id.InRange)
    {irob : PendingIrob α} (found : lattice.find id = some irob) :
    lattice.Removed (lattice.erase id false).1 [id] := by
  obtain ⟨-, erasedWf, past, finds⟩ := wf.find_erase inRange found false
  simp only [Bool.false_eq_true, false_and, ↓reduceIte] at finds
  obtain ⟨last, dominators⟩ := erase_sender lattice id
  refine ⟨erasedWf, fun query queryRange => ?_, fun query => ?_, last, dominators⟩
  · rw [finds query queryRange]
    simp only [List.mem_singleton]
  · rw [past, IntSet.contains_insert, Bool.or_eq_true, decide_eq_true_eq, List.mem_singleton]

theorem Drops.removed {victims gone : List IrobId} (drops : lattice.Drops victims after gone) :
    lattice.Removed after gone := by
  refine ⟨drops.wf, drops.find, fun query => ?_, drops.lastAnon, drops.dominators⟩
  rw [drops.past, Bool.or_eq_true, decide_eq_true_eq]

end IrobLattice

/-- The identifiers a call names are in range. -/
def AppCall.InRange : AppCall → Prop
  | .beginIrob id deps _ _ => id.InRange ∧ ∀ dep ∈ deps, dep.InRange
  | .defaultIrob id _ _ _ | .irobChunk id _ | .endIrob id | .endIrobWaiting id => id.InRange

/-- The IROB a call inserts is new: nobody depends on it yet. -/
theorem AppCall.irob_made {call : AppCall} (inRange : call.InRange) {psirob : SenderIrob}
    {resumeHandler : Bool} (made : call.irob = some (psirob, resumeHandler)) :
    psirob.id.InRange ∧ psirob.placeholder = false ∧ psirob.dependents = ∅ ∧
      ∀ dep ∈ psirob.deps, dep.InRange := by
  cases call with
  | beginIrob id deps sendLabels handler =>
      cases made
      exact ⟨inRange.1, rfl, rfl, fun dep listed => inRange.2 dep (OrderedSet.mem_ofList.mp listed)⟩
  | defaultIrob id data sendLabels handler =>
      cases made
      exact ⟨inRange, rfl, rfl, fun dep listed => (OrderedSet.not_mem_empty dep listed).elim⟩
  | irobChunk id data => cases made
  | endIrob id => cases made
  | endIrobWaiting id => cases made

namespace Outgoing

variable {outgoing after : Outgoing} {event : OutgoingEvent}

/-- What holds of `outgoing_irobs` in every run. -/
structure Consistent (outgoing : Outgoing) : Prop where
  linked : outgoing.irobs.Linked
  accepted : ∀ id ∈ outgoing.accepted, id.InRange
  calls : ∀ call ∈ outgoing.calls, call.InRange

namespace Consistent

theorem empty : Consistent .empty :=
  ⟨.empty, fun _ none => (List.not_mem_nil none).elim, fun _ none => (List.not_mem_nil none).elim⟩

theorem follow (consistent : outgoing.Consistent) (permitted : machine.permitted outgoing event)
    {calls : List AppCall} (follow : outgoing.Follow event calls) :
    ∀ call ∈ calls, call.InRange := by
  intro call member
  rcases follow call member with old | rfl | ⟨id, rfl, rfl⟩
  · exact consistent.calls call old
  · cases call with
    | beginIrob id deps sendLabels resumeHandler => exact permitted
    | defaultIrob id data sendLabels resumeHandler => exact permitted
    | irobChunk id data => exact consistent.accepted id permitted
    | endIrob id => exact consistent.accepted id permitted
    | endIrobWaiting id => exact permitted.elim
  · exact consistent.calls (.endIrob id) permitted

/-- The IROB a pointer leads to, under its own identifier. -/
theorem found (consistent : outgoing.Consistent) {query : IrobId} {psirob : SenderIrob}
    (found : outgoing.irobs.find query = some psirob.toOutgoing) :
    psirob.id.InRange ∧ outgoing.irobs.find psirob.id = some psirob.toOutgoing :=
  consistent.linked.wf.find_of_get found

/-- An IROB is written back. -/
theorem store (consistent : outgoing.Consistent) {query : IrobId} {psirob next : SenderIrob}
    (found : outgoing.irobs.find query = some psirob.toOutgoing)
    (links : PendingIrob.SameLinks next psirob) :
    (outgoing.store next).irobs.Linked ∧
      ∀ other : IrobId, other.InRange → (outgoing.store next).irobs.find other =
        if other = psirob.id then some next.toOutgoing else outgoing.irobs.find other := by
  obtain ⟨inRange, held⟩ := consistent.found found
  have same : PendingIrob.SameLinks next.toOutgoing psirob.toOutgoing :=
    ⟨links.id, links.sendLabels, links.deps, links.dependents, links.anonymous, links.placeholder⟩
  have named : next.id = psirob.id := links.id
  rw [Outgoing.store, named]
  exact consistent.linked.write inRange held same

/-- An IROB is marked as acknowledged and erased. -/
theorem ack (consistent : outgoing.Consistent) {query : IrobId} {psirob : SenderIrob}
    (found : outgoing.irobs.find query = some psirob.toOutgoing) :
    outgoing.irobs.Removed ((outgoing.store psirob.ack).irobs.erase psirob.id false).1
      [psirob.id] := by
  obtain ⟨inRange, -⟩ := consistent.found found
  have links : PendingIrob.SameLinks psirob.ack psirob := ⟨rfl, rfl, rfl, rfl, rfl, rfl⟩
  obtain ⟨linked, finds⟩ := consistent.store found links
  have held : (outgoing.store psirob.ack).irobs.find psirob.id = some psirob.ack.toOutgoing := by
    rw [finds psirob.id inRange, if_pos rfl]
  have removed := linked.wf.removed_erase inRange held
  refine ⟨removed.wf, fun other otherRange => ?_, removed.past, removed.lastAnon,
    removed.dominators⟩
  rw [removed.find other otherRange, finds other otherRange]
  simp only [List.mem_singleton]
  split_ifs <;> rfl

/-- An insertion, from the point of view of the lattice. -/
theorem insertion (consistent : outgoing.Consistent) {call : AppCall}
    (permitted : machine.permitted outgoing (.proceed call)) {psirob : SenderIrob}
    {resumeHandler : Bool} (made : call.irob = some (psirob, resumeHandler))
    {irobs : IrobLattice (Option SenderPart)} {kept : OutgoingIrob}
    (inserted : outgoing.irobs.insert psirob.toOutgoing true = some (irobs, some kept)) :
    psirob.id.InRange ∧ (∀ dep ∈ psirob.deps, dep.InRange) ∧
      outgoing.irobs.Insertion psirob.toOutgoing irobs kept := by
  obtain ⟨inRange, real, unlinked, depsRange⟩ := call.irob_made (consistent.calls call permitted) made
  refine ⟨inRange, depsRange, consistent.linked.insertion real inRange (fun dependent member => ?_) depsRange
    inserted⟩
  have listed : dependent ∈ psirob.dependents := member
  rw [unlinked] at listed
  exact (OrderedSet.not_mem_empty dependent listed).elim

/-- The identifier for which `end_irob` fails is in range. -/
theorem failing (consistent : outgoing.Consistent) (permitted : machine.permitted outgoing event)
    {query : IrobId} (fails : outgoing.failing event = some query) : query.InRange := by
  cases event with
  | proceed call =>
      cases call with
      | endIrob id =>
          obtain ⟨pirob, -, status⟩ := Option.bind_eq_some_iff.mp fails
          split_ifs at status
          cases status
          exact consistent.calls _ permitted
      | _ => cases fails
  | waited id timedOut =>
      cases timedOut with
      | true =>
          cases fails
          exact consistent.calls _ permitted
      | false => cases fails
  | _ => cases fails

/-- Every event keeps it. -/
theorem step (consistent : outgoing.Consistent) (permitted : machine.permitted outgoing event)
    (moved : outgoing.step event = some after) : after.Consistent := by
  cases step_move moved with
  | idle follow refused thunks fired =>
      exact ⟨consistent.linked, consistent.accepted, consistent.follow permitted follow⟩
  | insert call psirob resumeHandler made deliverable inserted follow handlers =>
      obtain ⟨inRange, depsRange, insertion⟩ := consistent.insertion permitted made inserted
      refine ⟨consistent.linked.insert inRange depsRange insertion, fun id member => ?_,
        consistent.follow permitted follow⟩
      rcases List.mem_cons.mp member with rfl | old
      · exact inRange
      · exact consistent.accepted id old
  | write found links follow queued acks =>
      exact ⟨(consistent.store found links).1, consistent.accepted,
        consistent.follow permitted follow⟩
  | ack found complete =>
      exact ⟨consistent.linked.remove (consistent.ack found), consistent.accepted, consistent.calls⟩
  | fail found fails follow =>
      have inRange := consistent.failing permitted fails
      exact ⟨consistent.linked.remove (consistent.linked.wf.removed_erase inRange found),
        consistent.accepted, consistent.follow permitted follow⟩
  | drop found drops =>
      obtain ⟨inRange, -⟩ := consistent.found found
      obtain ⟨gone, dropped⟩ := consistent.linked.wf.dropIrobAndDependents inRange
      exact ⟨consistent.linked.remove dropped.removed, consistent.accepted, consistent.calls⟩

end Consistent

/-! What each removal discards. -/

theorem discarded_ack {psirob : SenderIrob} {acknowledged : List IrobId} {id : IrobId} :
    Discarded { outgoing.store psirob.ack with
      irobs := ((outgoing.store psirob.ack).irobs.erase psirob.id false).1
      acknowledged := acknowledged } id ↔ outgoing.Discarded id := by
  unfold Discarded
  rw [IrobLattice.erase_dropped]
  rfl

theorem discarded_fail {query id : IrobId} {calls : List AppCall} :
    Discarded { outgoing.failIrob query with calls := calls } id ↔
      id = query ∨ outgoing.Discarded id := by
  unfold Discarded failIrob
  rw [IrobLattice.erase_dropped, List.mem_cons]
  exact or_left_comm

theorem discarded_drop {victims gone : List IrobId} {irobs : IrobLattice (Option SenderPart)}
    (drops : outgoing.irobs.Drops victims irobs gone) {id : IrobId} :
    Discarded { outgoing with irobs := irobs } id ↔ id ∈ gone ∨ outgoing.Discarded id := by
  unfold Discarded
  rw [drops.dropped, Bool.or_eq_true, decide_eq_true_eq]
  exact or_assoc

theorem consistent_of_reachable (reached : machine.Reachable outgoing) : outgoing.Consistent := by
  apply reached.induct
  · intro first start
    rw [show first = Outgoing.empty from start]
    exact .empty
  · intro before next event _ consistent permitted moved
    exact consistent.step permitted moved

end Outgoing

end Libcmm
