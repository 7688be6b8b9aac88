import Libcmm.OutgoingLinks

/-! # Placeholders among the outgoing IROBs

`insert_locked` makes a placeholder for a dependency it does not know. In the outgoing
lattice this is a plain `PendingIROB`, which every cast to `PendingSenderIROB` asserts
away and nothing ever removes. The dependencies that are inferred belong to IROBs that
were inserted before, so only the application can name an identifier that is neither
pending nor past: one of another multisocket, or one not yet issued.

A second way to leave an entry behind is an acknowledgment for an IROB the application
has not ended: it is only noted, and `end_irob` does not look at it.
-/

namespace Libcmm

open Lib

/-- The IROB an acknowledgment is for. -/
def OutgoingEvent.acknowledges : OutgoingEvent → Option IrobId
  | .ackReceived id => some id
  | _ => none

namespace Outgoing

open OutgoingIrob

variable {outgoing after : Outgoing} {event : OutgoingEvent} {id : IrobId}

/-- The identifier is pending or past. -/
def Known (outgoing : Outgoing) (id : IrobId) : Prop :=
  outgoing.irobs.pastIrobs.contains id = true ∨ (outgoing.irobs.find id).isSome = true

instance (outgoing : Outgoing) (id : IrobId) : Decidable (outgoing.Known id) :=
  inferInstanceAs (Decidable (_ ∨ _))

/-- An IROB names only itself and IROBs that are pending or past, and an acknowledgment
comes only for an IROB the application has ended. -/
def NamesKnown (outgoing : Outgoing) (event : OutgoingEvent) : Prop :=
  (∀ psirob ∈ event.inserts, ∀ dep ∈ psirob.deps.toList, dep = psirob.id ∨ outgoing.Known dep) ∧
  ∀ id ∈ event.acknowledges, ∀ pirob ∈ outgoing.irobs.find id, pirob.complete = true

instance (outgoing : Outgoing) (event : OutgoingEvent) : Decidable (outgoing.NamesKnown event) :=
  inferInstanceAs (Decidable (_ ∧ _))

/-- A removed IROB is past. -/
theorem Known.remove (known : outgoing.Known id) (inRange : id.InRange) {gone : List IrobId}
    (removed : outgoing.irobs.Removed after.irobs gone) : after.Known id := by
  rcases known with past | pending
  · exact .inl ((removed.past id).mpr (.inr past))
  · by_cases went : id ∈ gone
    · exact .inl ((removed.past id).mpr (.inl went))
    · right
      rw [removed.stays inRange went]
      exact pending

/-- What is known stays known. -/
theorem Known.step (known : outgoing.Known id) (inRange : id.InRange)
    (consistent : outgoing.Consistent) (permitted : machine.permitted outgoing event)
    (moved : outgoing.step event = some after) : after.Known id := by
  cases step_move moved with
  | idle follow refused thunks fired => exact known
  | insert call psirob resumeHandler made deliverable inserted follow handlers =>
      obtain ⟨newRange, -, insertion⟩ := consistent.insertion permitted made inserted
      rcases known with past | pending
      · exact .inl (insertion.past ▸ past)
      · right
        obtain ⟨pirob, found⟩ := Option.isSome_iff_exists.mp pending
        by_cases same : id = psirob.toOutgoing.id
        · subst same
          rcases insertion.recorded.find_self inRange with held | held <;> exact Option.isSome_of_eq_some held
        · rcases insertion.recorded.find_other inRange same found with held | held <;>
            exact Option.isSome_of_eq_some held
  | write found links follow queued acks =>
      refine known.imp_right fun pending => ?_
      change ((outgoing.store _).irobs.find id).isSome = true
      rw [(consistent.store found links).2 id inRange]
      split_ifs
      · rfl
      · exact pending
  | ack found complete => exact known.remove inRange (consistent.ack found)
  | fail found fails follow =>
      exact known.remove inRange
        (consistent.linked.wf.removed_erase (consistent.failing permitted fails) found)
  | drop found drops =>
      obtain ⟨victimRange, -⟩ := consistent.found found
      obtain ⟨gone, dropped⟩ := consistent.linked.wf.dropIrobAndDependents victimRange
      exact known.remove inRange dropped.removed

/-- Every entry is a sending IROB the application was told of, everything a dependency can
be inferred from is known, and what was acknowledged or discarded is past. -/
structure OnlySenders (outgoing : Outgoing) : Prop where
  entries : ∀ (id : IrobId) (pirob : OutgoingIrob), id.InRange →
    outgoing.irobs.find id = some pirob →
      pirob.own.isSome = true ∧ pirob.placeholder = false ∧ id ∈ outgoing.accepted
  last : (0 : Int) ≤ outgoing.irobs.lastAnonIrobId → outgoing.Known outgoing.irobs.lastAnonIrobId
  dominators : ∀ dominator ∈ outgoing.irobs.minDominatorSet, outgoing.Known dominator
  acknowledged : ∀ id ∈ outgoing.acknowledged, outgoing.irobs.pastIrobs.contains id = true
  discarded : ∀ id, outgoing.Discarded id → outgoing.irobs.pastIrobs.contains id = true

namespace OnlySenders

theorem empty : OnlySenders .empty := by
  refine ⟨?_, ?_, ?_, ?_, ?_⟩
  · intro id pirob inRange found
    rw [show Outgoing.empty.irobs = .empty from rfl, IrobLattice.find_empty] at found
    cases found
  · intro nonneg
    cases nonneg
  · exact fun dominator member => (OrderedSet.not_mem_empty dominator member).elim
  · exact fun id member => (List.not_mem_nil member).elim
  · rintro id (dropped | failed)
    · rw [show Outgoing.empty.irobs.droppedIrobs = .empty from rfl, IntSet.contains_empty] at dropped
      cases dropped
    · exact (List.not_mem_nil failed).elim

/-- An IROB all of whose dependencies are known makes no placeholder. -/
theorem insert (only : outgoing.OnlySenders) (linked : outgoing.irobs.Linked)
    {psirob : SenderIrob} (inRange : psirob.id.InRange)
    (depsRange : ∀ dep ∈ psirob.deps, dep.InRange) {kept : OutgoingIrob}
    (insertion : outgoing.irobs.Insertion psirob.toOutgoing after.irobs kept)
    (named : ∀ dep ∈ psirob.deps, dep = psirob.id ∨ outgoing.Known dep)
    (stays : ∀ id : IrobId, id.InRange → outgoing.Known id → after.Known id)
    (accepted : after.accepted = psirob.id :: outgoing.accepted)
    (acknowledged : after.acknowledged = outgoing.acknowledged)
    (failed : after.failed = outgoing.failed) : after.OnlySenders := by
  obtain ⟨deps, last, dominators⟩ := insertion.inherit
    (fun dep => dep.InRange ∧ (dep = psirob.id ∨ outgoing.Known dep)) ⟨inRange, .inl rfl⟩
    (fun dep listed => ⟨depsRange dep listed, named dep listed⟩)
    (fun nonneg => ⟨linked.last nonneg, .inr (only.last nonneg)⟩)
    (fun dominator member => ⟨linked.dominators dominator member,
      .inr (only.dominators dominator member)⟩)
  have present : after.Known psirob.id := by
    right
    rcases insertion.recorded.find_self inRange with held | held <;> exact Option.isSome_of_eq_some held
  have known : ∀ dep : IrobId, dep.InRange ∧ (dep = psirob.id ∨ outgoing.Known dep) →
      after.Known dep := by
    rintro dep ⟨depRange, rfl | before⟩
    · exact present
    · exact stays dep depRange before
  -- the slot was free: a placeholder in it would not have been a sender
  have sender : kept.own.isSome = true ∧ kept.placeholder = false := by
    rcases insertion.placed with ⟨-, shape⟩ | ⟨holder, stored, found, holds, -⟩
    · rw [shape]
      exact ⟨rfl, insertion.real⟩
    · cases (only.entries psirob.id holder inRange found).2.1.symm.trans holds
  refine ⟨?_, fun nonneg => known _ (last nonneg), fun dominator member =>
    known dominator (dominators dominator member), ?_, ?_⟩
  · intro id pirob queryRange found
    rw [accepted]
    rcases insertion.recorded.cases queryRange found with ⟨rfl, rfl | rfl⟩ | ⟨-, old, held, rfl | rfl⟩ |
      ⟨other, absent, listed, unsatisfied, -⟩
    · exact ⟨sender.1, sender.2, List.mem_cons_self⟩
    · exact ⟨sender.1, sender.2, List.mem_cons_self⟩
    · obtain ⟨own, real, before⟩ := only.entries id _ queryRange held
      exact ⟨own, real, List.mem_cons_of_mem _ before⟩
    · obtain ⟨own, real, before⟩ := only.entries id _ queryRange held
      exact ⟨own, real, List.mem_cons_of_mem _ before⟩
    · rcases (deps id listed).2 with same | past | pending
      · exact (other same).elim
      · cases unsatisfied.symm.trans past
      · rw [absent] at pending
        cases pending
  · rw [acknowledged, insertion.past]
    exact only.acknowledged
  · intro id gone
    unfold Discarded at gone
    rw [failed, insertion.dropped] at gone
    rw [insertion.past]
    exact only.discarded id gone

/-- Removing IROBs leaves senders. -/
theorem remove (only : outgoing.OnlySenders) (linked : outgoing.irobs.Linked) {gone : List IrobId}
    (removed : outgoing.irobs.Removed after.irobs gone)
    (accepted : after.accepted = outgoing.accepted)
    (acknowledged : ∀ id ∈ after.acknowledged, id ∈ gone ∨ id ∈ outgoing.acknowledged)
    (discarded : ∀ id, after.Discarded id → id ∈ gone ∨ outgoing.Discarded id) :
    after.OnlySenders := by
  have settles : ∀ id, id ∈ gone ∨ outgoing.irobs.pastIrobs.contains id = true →
      after.irobs.pastIrobs.contains id = true := fun id => (removed.past id).mpr
  refine ⟨?_, ?_, ?_, fun id member => ?_, fun id member => ?_⟩
  · intro id pirob inRange held
    rw [accepted]
    exact only.entries id pirob inRange (removed.before inRange held).2
  · intro nonneg
    rw [removed.lastAnon] at nonneg ⊢
    exact (only.last nonneg).remove (linked.last nonneg) removed
  · intro dominator member
    rw [removed.dominators] at member
    exact (only.dominators dominator member).remove (linked.dominators dominator member) removed
  · exact settles id ((acknowledged id member).imp_right (only.acknowledged id))
  · exact settles id ((discarded id member).imp_right (only.discarded id))

/-- Writing an IROB leaves senders, when it does not note an early acknowledgment. -/
theorem write (only : outgoing.OnlySenders) (consistent : outgoing.Consistent) {query : IrobId}
    {psirob next : SenderIrob} (found : outgoing.irobs.find query = some psirob.toOutgoing)
    (links : PendingIrob.SameLinks next psirob) (sameIrobs : after.irobs = (outgoing.store next).irobs)
    (accepted : after.accepted = outgoing.accepted)
    (acknowledged : after.acknowledged = outgoing.acknowledged)
    (failed : after.failed = outgoing.failed) : after.OnlySenders := by
  obtain ⟨inRange, held⟩ := consistent.found found
  obtain ⟨-, finds⟩ := consistent.store found links
  rw [← sameIrobs] at finds
  have known : ∀ id : IrobId, id.InRange → outgoing.Known id → after.Known id := by
    intro id idRange before
    unfold Known
    rw [finds id idRange, sameIrobs]
    refine before.imp_right fun pending => ?_
    split_ifs
    · rfl
    · exact pending
  have last : after.irobs.lastAnonIrobId = outgoing.irobs.lastAnonIrobId := by rw [sameIrobs]; rfl
  have dominators : after.irobs.minDominatorSet = outgoing.irobs.minDominatorSet := by
    rw [sameIrobs]
    rfl
  have past : after.irobs.pastIrobs = outgoing.irobs.pastIrobs := by rw [sameIrobs]; rfl
  refine ⟨?_, ?_, ?_, ?_, ?_⟩
  · intro id pirob idRange now
    rw [finds id idRange] at now
    rw [accepted]
    split_ifs at now with same
    · subst same
      cases now
      obtain ⟨-, real, before⟩ := only.entries psirob.id _ inRange held
      exact ⟨rfl, links.placeholder.trans real, before⟩
    · exact only.entries id pirob idRange now
  · intro nonneg
    rw [last] at nonneg ⊢
    exact known _ (consistent.linked.last nonneg) (only.last nonneg)
  · intro dominator member
    rw [dominators] at member
    exact known dominator (consistent.linked.dominators dominator member)
      (only.dominators dominator member)
  · rw [acknowledged, past]
    exact only.acknowledged
  · intro id gone
    unfold Discarded at gone
    rw [sameIrobs, failed] at gone
    rw [past]
    exact only.discarded id gone

/-- Every event that names known IROBs keeps senders only. -/
theorem step (only : outgoing.OnlySenders) (consistent : outgoing.Consistent)
    (permitted : machine.permitted outgoing event) (names : outgoing.NamesKnown event)
    (moved : outgoing.step event = some after) : after.OnlySenders := by
  have stays : ∀ id : IrobId, id.InRange → outgoing.Known id → after.Known id :=
    fun id inRange known => known.step inRange consistent permitted moved
  cases step_move moved with
  | idle follow refused thunks fired => exact ⟨only.entries, only.last, only.dominators,
      only.acknowledged, only.discarded⟩
  | insert call psirob resumeHandler made deliverable inserted follow handlers =>
      obtain ⟨inRange, depsRange, insertion⟩ := consistent.insertion permitted made inserted
      exact only.insert consistent.linked inRange depsRange insertion
        (names.1 psirob (OutgoingEvent.mem_inserts made)) stays rfl rfl rfl
  | write found links follow queued acks =>
      rcases acks with same | ⟨rfl, early, -⟩
      · exact only.write consistent found links rfl rfl same rfl
      · have complete := names.2 _ rfl _ found
        cases early.symm.trans complete
  | @ack query psirob found complete =>
      have removed := consistent.ack found
      have named : query = psirob.id :=
        (consistent.linked.wf.find_id permitted found).symm
      refine only.remove consistent.linked removed rfl (fun id member => ?_) fun id gone => ?_
      · rcases List.mem_cons.mp member with rfl | old
        · exact .inl (named ▸ List.mem_singleton_self _)
        · exact .inr old
      · exact .inr (discarded_ack.mp gone)
  | fail found fails follow =>
      have removed := consistent.linked.wf.removed_erase (consistent.failing permitted fails) found
      refine only.remove consistent.linked removed rfl (fun id member => .inr member)
        fun id gone => ?_
      exact (discarded_fail.mp gone).imp_left List.mem_singleton.mpr
  | drop found drops =>
      obtain ⟨victimRange, -⟩ := consistent.found found
      obtain ⟨gone, dropped⟩ := consistent.linked.wf.dropIrobAndDependents victimRange
      exact only.remove consistent.linked dropped.removed rfl (fun id member => .inr member)
        fun id discarded => (discarded_drop dropped).mp discarded

/-- So every cast succeeds. -/
theorem asSender (only : outgoing.OnlySenders) (consistent : outgoing.Consistent)
    {pirob : OutgoingIrob} (found : outgoing.irobs.find id = some pirob) :
    ∃ psirob, OutgoingIrob.asSender pirob = some psirob := by
  obtain ⟨inRange, held⟩ := consistent.linked.wf.find_of_get found
  obtain ⟨part, own⟩ := Option.isSome_iff_exists.mp (only.entries pirob.id pirob inRange held).1
  exact ⟨_, Option.map_eq_some_iff.mpr ⟨part, own, rfl⟩⟩

/-- What acts on a sending IROB without fail does not trap. -/
theorem withSender (only : outgoing.OnlySenders) (consistent : outgoing.Consistent)
    {act : SenderIrob → Outgoing} :
    ∃ after, outgoing.withSender id (fun psirob => some (act psirob)) = some after := by
  unfold Outgoing.withSender
  cases found : outgoing.irobs.find id with
  | none => exact ⟨outgoing, rfl⟩
  | some pirob =>
      obtain ⟨psirob, cast⟩ := only.asSender consistent found
      exact ⟨act psirob, by simp only [cast, Option.bind_some]⟩

theorem dataCheckAllIrobs (only : outgoing.OnlySenders) (consistent : outgoing.Consistent) :
    outgoing.dataCheckAllIrobs = some outgoing := by
  apply if_pos
  rw [List.all_eq_true]
  intro slot member
  cases slot with
  | none => rfl
  | some pirob =>
      obtain ⟨key, used⟩ := Window.exists_get_of_mem member
      obtain ⟨-, found⟩ := consistent.linked.wf.find_of_get used
      obtain ⟨psirob, cast⟩ := only.asSender consistent found
      exact Option.isSome_of_eq_some cast

/-- Where all that was accepted is settled nothing is pending. -/
theorem isEmpty (only : outgoing.OnlySenders) (consistent : outgoing.Consistent)
    (settled : ∀ id ∈ outgoing.accepted, id ∈ outgoing.acknowledged ∨ outgoing.Discarded id) :
    outgoing.irobs.isEmpty = true := by
  rw [consistent.linked.wf.isEmpty_iff]
  intro key
  by_contra used
  obtain ⟨pirob, held⟩ := Option.ne_none_iff_exists'.mp used
  obtain ⟨inRange, found⟩ := consistent.linked.wf.find_of_get held
  obtain ⟨-, -, accepted⟩ := only.entries pirob.id pirob inRange found
  have past : outgoing.irobs.pastIrobs.contains pirob.id = true := by
    rcases settled pirob.id accepted with acknowledged | discarded
    · exact only.acknowledged pirob.id acknowledged
    · exact only.discarded pirob.id discarded
  cases found.symm.trans (consistent.linked.past pirob.id inRange past)

end OnlySenders

/-- The outgoing lattice holds only sender IROBs: in every run in which the application
names known IROBs and acknowledgments come for ended ones, every entry is a
`PendingSenderIROB`, no cast fails its `ASSERT`, and once every accepted IROB was
acknowledged or discarded `outgoing_irobs` is empty. -/
theorem outgoing_only_senders (reached : (machine.restrict NamesKnown).Reachable outgoing) :
    outgoing.irobs.Every (fun pirob => ∃ psirob, asSender pirob = some psirob) ∧
    (∃ after, outgoing.step .dataCheckAllIrobs = some after) ∧
    (∀ data outcome, ∃ after, outgoing.step (.delegate data outcome) = some after) ∧
    (∀ id, ∃ after, outgoing.step (.ackReceived id) = some after) ∧
    (∀ request pirob, outgoing.irobs.find (ResendRequest.id request) = some pirob →
      ∃ psirob, asSender pirob = some psirob ∧
        outgoing.step (.resendRequestReceived request) =
          (psirob.resend request).map fun result => outgoing.store result.1) ∧
    ((∀ id ∈ outgoing.accepted, id ∈ outgoing.acknowledged ∨ outgoing.Discarded id) →
      outgoing.irobs.isEmpty = true) := by
  have consistent := consistent_of_reachable reached.of_restrict
  have only : outgoing.OnlySenders := by
    apply reached.induct
    · intro first start
      rw [show first = Outgoing.empty from start]
      exact .empty
    · intro before next event sofar only permitted moved
      exact only.step (consistent_of_reachable sofar.of_restrict) permitted.1 permitted.2 moved
  refine ⟨?_, ⟨outgoing, only.dataCheckAllIrobs consistent⟩, fun data outcome => ?_, fun id => ?_,
    fun request pirob found => ?_, only.isEmpty consistent⟩
  · intro key pirob used
    exact only.asSender consistent (consistent.linked.wf.find_of_get used).2
  · exact only.withSender consistent
  · exact only.withSender consistent
  · obtain ⟨psirob, cast⟩ := only.asSender consistent found
    refine ⟨psirob, cast, ?_⟩
    rw [Outgoing.step, resendRequestReceived, Outgoing.withSender, found]
    simp only [cast, Option.bind_some]

/-- An IROB and one that depends on it are begun, ended and acknowledged. -/
def settledEvents : List OutgoingEvent :=
  [.call (.beginIrob 4 [] 0 false), .proceed (.beginIrob 4 [] 0 false),
    .call (.beginIrob 5 [4] 0 false), .proceed (.beginIrob 5 [4] 0 false),
    .call (.endIrob 4), .proceed (.endIrob 4), .ackReceived 4,
    .call (.endIrob 5), .proceed (.endIrob 5), .ackReceived 5]

theorem outgoing_only_senders_settled : ∃ outgoing,
    (machine.restrict NamesKnown).Reachable outgoing ∧ outgoing.accepted = [5, 4] ∧
      outgoing.acknowledged = [5, 4] ∧ outgoing.irobs.isEmpty = true := by
  have ran : ∃ outgoing, (machine.restrict NamesKnown).run empty settledEvents = some outgoing ∧
      outgoing.accepted = [5, 4] ∧ outgoing.acknowledged = [5, 4] := ⟨_, rfl, rfl, rfl⟩
  obtain ⟨outgoing, ran, accepted, acknowledged⟩ := ran
  have start : (machine.restrict NamesKnown).initial empty := rfl
  have reached := Machine.Reachable.run (.initial start) ran
  have settled : ∀ id ∈ outgoing.accepted, id ∈ outgoing.acknowledged ∨ outgoing.Discarded id := by
    rw [accepted, acknowledged]
    exact fun id member => .inl member
  exact ⟨outgoing, reached, accepted, acknowledged,
    (outgoing_only_senders reached).2.2.2.2.2 settled⟩

/-- An IROB that depends on one of another multisocket is begun, ended and acknowledged. -/
def foreignEvents : List OutgoingEvent :=
  [.call (.beginIrob 1 [0] 0 false), .proceed (.beginIrob 1 [0] 0 false),
    .call (.endIrob 1), .proceed (.endIrob 1), .ackReceived 1]

theorem foreign_dependency_held : ∃ outgoing pirob, machine.Reachable outgoing ∧
    outgoing.accepted = [1] ∧ outgoing.acknowledged = [1] ∧ outgoing.irobs.find 0 = some pirob ∧
      asSender pirob = none ∧ outgoing.step .dataCheckAllIrobs = none ∧
      outgoing.irobs.isEmpty = false := by
  have ran : ∃ outgoing pirob, machine.run empty foreignEvents = some outgoing ∧
      outgoing.accepted = [1] ∧ outgoing.acknowledged = [1] ∧ outgoing.irobs.find 0 = some pirob ∧
      asSender pirob = none ∧ outgoing.step .dataCheckAllIrobs = none ∧
      outgoing.irobs.isEmpty = false := ⟨_, _, rfl, rfl, rfl, rfl, rfl, rfl, rfl⟩
  obtain ⟨outgoing, pirob, ran, stuck⟩ := ran
  exact ⟨outgoing, pirob, Machine.Reachable.run (.initial rfl) ran, stuck⟩

end Outgoing

end Libcmm
