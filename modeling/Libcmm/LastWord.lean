import Libcmm.Goodbye
import Libcmm.OutgoingLinks

/-! # GOODBYE as the last word on data

A sender thread that finds nothing left to send while the multisocket is shutting down
decides to send the GOODBYE, and the peer stops listening once it has it. The application
is turned away when the multisocket is shutting down, but the test and the insertion are
in different sections with a search for a csocket between them. So an IROB may be
inserted, and reported as accepted, after the decision. A thread that was writing an IROB
when it was acknowledged may also end its write late.
-/

namespace Libcmm

open Lib

/-- The record of a thread that decides to send the GOODBYE. -/
def LoopRecord.isDecision : LoopRecord → Bool
  | .decided _ => true
  | _ => false

namespace Outgoing

variable {outgoing after : Outgoing} {event : OutgoingEvent}

/-- Every accepted IROB is pending, acknowledged or discarded. -/
def Accounted (outgoing : Outgoing) : Prop :=
  ∀ id ∈ outgoing.accepted, (∃ pirob, outgoing.irobs.find id = some pirob) ∨
    id ∈ outgoing.acknowledged ∨ outgoing.Discarded id

/-- What removes IROBs acknowledges or discards them. -/
theorem Accounted.remove (accounted : outgoing.Accounted) (consistent : outgoing.Consistent)
    {gone : List IrobId} (removed : outgoing.irobs.Removed after.irobs gone)
    (accepted : after.accepted = outgoing.accepted)
    (settled : ∀ id ∈ gone, id ∈ after.acknowledged ∨ after.Discarded id)
    (stays : ∀ id, id ∈ outgoing.acknowledged ∨ outgoing.Discarded id →
      id ∈ after.acknowledged ∨ after.Discarded id) : after.Accounted := by
  intro id member
  rw [accepted] at member
  rcases accounted id member with ⟨pirob, found⟩ | closed
  · by_cases went : id ∈ gone
    · exact .inr (settled id went)
    · have inRange := consistent.accepted id member
      exact .inl ⟨pirob, (removed.stays inRange went).trans found⟩
  · exact .inr (stays id closed)

theorem Accounted.insert (accounted : outgoing.Accounted) (consistent : outgoing.Consistent)
    {psirob : SenderIrob} {kept : OutgoingIrob} (inRange : psirob.id.InRange)
    (insertion : outgoing.irobs.Insertion psirob.toOutgoing after.irobs kept)
    (accepted : after.accepted = psirob.id :: outgoing.accepted)
    (stays : ∀ id, id ∈ outgoing.acknowledged ∨ outgoing.Discarded id →
      id ∈ after.acknowledged ∨ after.Discarded id) : after.Accounted := by
  have present : ∃ pirob, after.irobs.find psirob.id = some pirob := by
    rcases insertion.recorded.find_self inRange with held | held
    · exact ⟨_, held⟩
    · exact ⟨_, held⟩
  intro id member
  rw [accepted] at member
  by_cases same : id = psirob.id
  · exact .inl (same ▸ present)
  · have old := (List.mem_cons.mp member).resolve_left same
    rcases accounted id old with ⟨pirob, found⟩ | closed
    · rcases insertion.recorded.find_other (consistent.accepted id old) same found with held | held
      · exact .inl ⟨_, held⟩
      · exact .inl ⟨_, held⟩
    · exact .inr (stays id closed)

/-- Every event keeps account. -/
theorem Accounted.step (accounted : outgoing.Accounted) (consistent : outgoing.Consistent)
    (permitted : machine.permitted outgoing event) (moved : outgoing.step event = some after) :
    after.Accounted := by
  cases step_move moved with
  | idle follow refused thunks fired => exact accounted
  | insert call psirob resumeHandler made deliverable inserted follow handlers =>
      obtain ⟨inRange, -, insertion⟩ := consistent.insertion permitted made inserted
      apply accounted.insert consistent inRange insertion rfl
      intro id closed
      unfold Discarded at closed ⊢
      rw [insertion.dropped]
      exact closed
  | @write _ query psirob next found links calls follow thunks acknowledged queued acks =>
      intro id member
      rcases accounted id member with ⟨pirob, held⟩ | closed
      · have now := (consistent.store found links).2 id (consistent.accepted id member)
        split_ifs at now
        · exact .inl ⟨_, now⟩
        · exact .inl ⟨pirob, now.trans held⟩
      · refine .inr (closed.imp_left fun before => ?_)
        rcases acks with same | ⟨-, -, more⟩
        · exact same ▸ before
        · exact more ▸ List.mem_cons_of_mem _ before
  | @ack query psirob found complete =>
      have named : query = psirob.id := (consistent.linked.wf.find_id permitted found).symm
      refine accounted.remove consistent (consistent.ack found) rfl (fun id went => ?_) fun id closed => ?_
      · rw [List.mem_singleton.mp went, ← named]
        exact .inl List.mem_cons_self
      · exact closed.imp (List.mem_cons_of_mem _) discarded_ack.mpr
  | fail found fails follow =>
      have removed := consistent.linked.wf.removed_erase (consistent.failing permitted fails) found
      refine accounted.remove consistent removed rfl (fun id went => ?_) fun id closed => ?_
      · exact .inr (discarded_fail.mpr (.inl (List.mem_singleton.mp went)))
      · exact closed.imp_right fun before => discarded_fail.mpr (.inr before)
  | drop found drops =>
      obtain ⟨inRange, -⟩ := consistent.found found
      obtain ⟨gone, dropped⟩ := consistent.linked.wf.dropIrobAndDependents inRange
      refine accounted.remove consistent dropped.removed rfl (fun id went => ?_) fun id closed => ?_
      · exact .inr ((discarded_drop dropped).mpr (.inl went))
      · exact closed.imp_right fun before => (discarded_drop dropped).mpr (.inr before)

theorem accounted_of_reachable (reached : machine.Reachable outgoing) : outgoing.Accounted := by
  apply reached.induct
  · intro first start id member
    rw [show first = Outgoing.empty from start] at member
    exact (List.not_mem_nil member).elim
  · intro before next event sofar accounted permitted moved
    exact accounted.step (consistent_of_reachable sofar) permitted moved

/-- Nothing is found where nothing is pending. -/
theorem Consistent.find_empty (consistent : outgoing.Consistent)
    (nothing : outgoing.irobs.isEmpty = true) (id : IrobId) : outgoing.irobs.find id = none :=
  consistent.linked.wf.isEmpty_iff.mp nothing _

/-- Without an insertion nothing becomes pending. -/
theorem Consistent.stays_empty (consistent : outgoing.Consistent)
    (nothing : outgoing.irobs.isEmpty = true) (inserts : event.inserts.isSome = false)
    (moved : outgoing.step event = some after) : after.irobs.isEmpty = true := by
  cases step_move moved with
  | idle follow refused thunks fired => exact nothing
  | insert call psirob resumeHandler made =>
      rw [OutgoingEvent.inserts, made] at inserts
      cases inserts
  | write found => cases (consistent.find_empty nothing _).symm.trans found
  | ack found => cases (consistent.find_empty nothing _).symm.trans found
  | fail found => cases (consistent.find_empty nothing _).symm.trans found
  | drop found => cases (consistent.find_empty nothing _).symm.trans found

end Outgoing

namespace Endpoint

variable {endpoint after : Endpoint} {event : EndpointEvent}

/-- Nothing else touches the outgoing IROBs. -/
theorem outgoing_reachable (reached : machine.Reachable endpoint) :
    Outgoing.machine.Reachable endpoint.outgoing := by
  apply reached.induct
  · intro first start
    rw [show first = Endpoint.empty from start]
    exact .initial rfl
  · intro before next event _ sofar permitted moved
    cases step_move moved with
    | outgoing records stepped entered recorded => exact sofar.step permitted stepped
    | raise raises => exact raises.outgoing ▸ sofar
    | decide looping shutting nothing unsent unsending => exact sofar
    | goodbyeWritten writing => exact sofar
    | goodbyeFailed writing => exact sofar
    | startWrite looping found => exact sofar
    | wrote writing stops => exact sofar
    | stop raises away stops =>
        rw [show (Endpoint.setTask _ _ _).outgoing = _ from raises.outgoing]
        exact sofar

/-- An IROB is inserted although the multisocket is shutting down with nothing pending. -/
def insertsLate (endpoint : Endpoint) : EndpointEvent → Bool
  | .outgoing inserting => inserting.inserts.isSome && endpoint.shuttingDown &&
      endpoint.outgoing.irobs.isEmpty
  | _ => false

/-- The application is turned away, as if the insertion tested again. -/
def TurnsAway (endpoint : Endpoint) (event : EndpointEvent) : Prop :=
  endpoint.insertsLate event = false

instance (endpoint : Endpoint) (event : EndpointEvent) : Decidable (endpoint.TurnsAway event) :=
  inferInstanceAs (Decidable (_ = false))

/-- Besides, no thread is in the write of an IROB when another one finds nothing to send. -/
structure Orderly (endpoint : Endpoint) (event : EndpointEvent) : Prop where
  insertion : endpoint.TurnsAway event
  decision : ∀ csock, event = .shutdownTest csock → endpoint.shuttingDown = true →
    endpoint.nothingToSend csock = true →
      ∀ other message id, endpoint.tasks other ≠ .writing message id

theorem TurnsAway.of_open (opened : endpoint.shuttingDown = false) : endpoint.TurnsAway event := by
  cases event with
  | outgoing inserting =>
      rw [TurnsAway, insertsLate, opened, Bool.and_false]
      rfl
  | _ => rfl

/-- Before the shutdown everything is in order. -/
theorem Orderly.of_open (opened : endpoint.shuttingDown = false) : endpoint.Orderly event := by
  refine ⟨.of_open opened, fun _ _ shutting => ?_⟩
  cases opened.symm.trans shutting

/-- Some thread has decided to send the GOODBYE. -/
def Decided (endpoint : Endpoint) : Prop := ∃ record ∈ endpoint.history, record.isDecision = true

/-- The multisocket is shutting down and nothing is pending. -/
structure Drained (endpoint : Endpoint) : Prop where
  shutting : endpoint.shuttingDown = true
  nothing : endpoint.outgoing.irobs.isEmpty = true

namespace Drained

theorem raises (drained : endpoint.Drained) (raises : endpoint.Raises after) : after.Drained := by
  refine ⟨raises.shutting drained.shutting, ?_⟩
  rw [raises.outgoing]
  exact drained.nothing

theorem not_inserts (drained : endpoint.Drained) {inserting : OutgoingEvent}
    (turns : endpoint.TurnsAway (.outgoing inserting)) : inserting.inserts.isSome = false := by
  rw [TurnsAway, insertsLate, drained.shutting, drained.nothing, Bool.and_true, Bool.and_true] at turns
  exact turns

/-- It stays so while the application is turned away. -/
theorem step (drained : endpoint.Drained) (consistent : endpoint.outgoing.Consistent)
    (turns : endpoint.TurnsAway event) (moved : endpoint.step event = some after) :
    after.Drained := by
  cases step_move moved with
  | outgoing records stepped entered recorded =>
      exact ⟨drained.shutting,
        consistent.stays_empty drained.nothing (drained.not_inserts turns) stepped⟩
  | raise raises => exact drained.raises raises
  | decide looping shutting nothing unsent unsending => exact ⟨drained.shutting, drained.nothing⟩
  | goodbyeWritten writing => exact ⟨drained.shutting, drained.nothing⟩
  | goodbyeFailed writing => exact ⟨drained.shutting, drained.nothing⟩
  | startWrite looping found => exact ⟨drained.shutting, drained.nothing⟩
  | wrote writing stops => exact ⟨drained.shutting, drained.nothing⟩
  | stop raises away stops => exact ⟨(drained.raises raises).shutting, (drained.raises raises).nothing⟩

end Drained

/-- A decision was made before, or this is it and there is nothing to send. -/
theorem Decided.before (moved : endpoint.step event = some after) (decided : after.Decided) :
    endpoint.Decided ∨ ∃ csock, event = .shutdownTest csock ∧ endpoint.shuttingDown = true ∧
      endpoint.nothingToSend csock = true := by
  obtain ⟨record, member, decision⟩ := decided
  cases step_move moved with
  | outgoing records stepped entered recorded =>
      rcases List.mem_append.mp member with new | old
      · obtain ⟨⟨id, rfl⟩, -⟩ := recorded record new
        cases decision
      · exact .inl ⟨record, old, decision⟩
  | raise raises => exact .inl ⟨record, raises.history ▸ member, decision⟩
  | @decide csock looping shutting nothing unsent unsending =>
      exact .inr ⟨csock, rfl, shutting, nothing⟩
  | goodbyeWritten writing =>
      rcases List.mem_cons.mp member with rfl | old
      · cases decision
      · exact .inl ⟨record, old, decision⟩
  | goodbyeFailed writing => exact .inl ⟨record, member, decision⟩
  | startWrite looping found => exact .inl ⟨record, member, decision⟩
  | wrote writing stops =>
      rcases List.mem_cons.mp member with rfl | old
      · cases decision
      · exact .inl ⟨record, old, decision⟩
  | stop raises away stops => exact .inl ⟨record, raises.history ▸ member, decision⟩

/-- After a decision nothing is pending, and nothing will be. -/
theorem drained_of_reachable (reached : (machine.restrict TurnsAway).Reachable endpoint) :
    endpoint.Decided → endpoint.Drained := by
  apply reached.induct
  · intro first start decided
    rw [show first = Endpoint.empty from start] at decided
    obtain ⟨record, member, -⟩ := decided
    cases member
  · intro before next event sofar drained permitted moved decided
    have consistent := Outgoing.consistent_of_reachable (outgoing_reachable sofar.of_restrict)
    have now : before.Drained := by
      rcases Decided.before moved decided with earlier | ⟨csock, -, shutting, nothing⟩
      · exact drained earlier
      · exact ⟨shutting, (nothingToSend_iff.mp nothing).1⟩
    exact now.step consistent permitted.2 moved

/-- After a decision there is no data, and there will be none. -/
structure LastWord (endpoint : Endpoint) : Prop where
  quiet : endpoint.Decided → ∀ csock message id, endpoint.tasks csock ≠ .writing message id
  last : endpoint.history.Pairwise fun later earlier =>
    earlier.isDecision = true → later.isData = false

namespace LastWord

/-- Where no thread decides anything. -/
theorem extend (word : endpoint.LastWord) (records : List LoopRecord)
    (history : after.history = records ++ endpoint.history)
    (undecided : ∀ record ∈ records, record.isDecision = false)
    (silent : endpoint.Decided → ∀ record ∈ records, record.isData = false)
    (quiet : endpoint.Decided → ∀ csock message id, after.tasks csock ≠ .writing message id) :
    after.LastWord := by
  refine ⟨fun decided => ?_, ?_⟩
  · obtain ⟨record, member, decision⟩ := decided
    rw [history] at member
    rcases List.mem_append.mp member with new | old
    · cases (undecided record new).symm.trans decision
    · exact quiet ⟨record, old, decision⟩
  · rw [history, List.pairwise_append]
    refine ⟨?_, word.last, ?_⟩
    · apply List.pairwise_of_forall_mem_list
      intro later _ earlier member decision
      cases (undecided earlier member).symm.trans decision
    · intro later member earlier old decision
      exact silent ⟨earlier, old, decision⟩ later member

/-- A thread that takes up something else than a write. -/
theorem quiet_setTask (quiet : ∀ csock message id, endpoint.tasks csock ≠ .writing message id)
    (thread : CSocketId) (task : LoopTask) (other : ∀ message id, task ≠ .writing message id) :
    ∀ csock message id, (endpoint.setTask thread task).tasks csock ≠ .writing message id := by
  intro csock message id writing
  rw [setTask_tasks] at writing
  split_ifs at writing
  · exact other message id writing
  · exact quiet csock message id writing

/-- Every orderly event keeps it. -/
theorem step (word : endpoint.LastWord) (drained : endpoint.Decided → endpoint.Drained)
    (consistent : endpoint.outgoing.Consistent) (orderly : endpoint.Orderly event)
    (moved : endpoint.step event = some after) : after.LastWord := by
  have none : ∀ {test : LoopRecord → Bool}, ∀ record ∈ ([] : List LoopRecord), test record = false :=
    fun _ member => (List.not_mem_nil member).elim
  cases step_move moved with
  | outgoing records stepped entered recorded =>
      refine word.extend records rfl (fun record member => ?_) (fun decided record member => ?_)
        word.quiet
      · obtain ⟨⟨id, rfl⟩, -⟩ := recorded record member
        rfl
      · have refused := (drained decided).not_inserts orderly.insertion
        cases refused.symm.trans (recorded record member).2
  | raise raises =>
      exact word.extend [] raises.history none (fun _ => none) fun decided =>
        raises.tasks ▸ word.quiet decided
  | @decide csock looping shutting nothing unsent unsending =>
      have quiet := orderly.decision csock rfl shutting nothing
      refine ⟨fun _ => quiet_setTask quiet csock .goodbye nofun, ?_⟩
      rw [List.pairwise_cons]
      exact ⟨fun _ _ _ => rfl, word.last⟩
  | @goodbyeWritten csock writing =>
      refine word.extend [.goodbyeWritten csock] rfl (fun record member => ?_)
        (fun _ record member => ?_) fun decided =>
          quiet_setTask (word.quiet decided) csock .looping nofun
      · rw [List.mem_singleton.mp member]
        rfl
      · rw [List.mem_singleton.mp member]
        rfl
  | @goodbyeFailed csock outcome writing =>
      exact word.extend [] rfl none (fun _ => none) fun decided =>
        quiet_setTask (word.quiet decided) csock (.throwing false) nofun
  | startWrite looping found =>
      refine word.extend [] rfl none (fun _ => none) fun decided => ?_
      cases (consistent.find_empty (drained decided).nothing _).symm.trans found
  | @wrote csock message id outcome writing task stops =>
      have undecided : ¬endpoint.Decided := fun decided => word.quiet decided csock message id writing
      refine word.extend [.wrote csock message id] rfl (fun record member => ?_)
        (fun decided => (undecided decided).elim) fun decided => (undecided decided).elim
      rw [List.mem_singleton.mp member]
      rfl
  | @stop _ csock task raised raises away stops =>
      refine word.extend [] raises.history none (fun _ => none) fun decided => ?_
      apply quiet_setTask (raises.tasks ▸ word.quiet decided)
      rcases stops with rfl | ⟨fatal, rfl⟩ <;> exact nofun

end LastWord

/-- GOODBYE is the last word on data: in every run in which nothing is inserted while the
multisocket is shutting down with nothing pending, and no thread decides while another one
is writing, no IROB is inserted and no data is written after a thread has decided to send
the GOODBYE, and every accepted IROB was acknowledged or discarded by then. -/
theorem goodbye_last_word (reached : (machine.restrict Orderly).Reachable endpoint) :
    (endpoint.history.Pairwise fun later earlier =>
      earlier.isDecision = true → later.isData = false) ∧
    ((∃ record ∈ endpoint.history, record.isDecision = true) →
      ∀ id ∈ endpoint.outgoing.accepted,
        id ∈ endpoint.outgoing.acknowledged ∨ endpoint.outgoing.Discarded id) := by
  have turned : ∀ {state}, (machine.restrict Orderly).Reachable state →
      (machine.restrict TurnsAway).Reachable state :=
    fun reached => reached.weaken fun _ _ orderly => orderly.insertion
  have word : endpoint.LastWord := by
    apply reached.induct
    · intro first start
      rw [show first = Endpoint.empty from start]
      refine ⟨fun _ _ _ _ writing => ?_, .nil⟩
      cases writing
    · intro before next event sofar word permitted moved
      have consistent := Outgoing.consistent_of_reachable (outgoing_reachable sofar.of_restrict)
      exact word.step (drained_of_reachable (turned sofar)) consistent permitted.2 moved
  refine ⟨word.last, fun decided id member => ?_⟩
  have outgoingReached := outgoing_reachable reached.of_restrict
  have absent := (Outgoing.consistent_of_reachable outgoingReached).find_empty
    (drained_of_reachable (turned reached) decided).nothing id
  rcases Outgoing.accounted_of_reachable outgoingReached id member with ⟨pirob, found⟩ | closed
  · cases absent.symm.trans found
  · exact closed

/-- Data is sent and acknowledged before the application closes. -/
def acknowledgedEvents : List EndpointEvent :=
  [.outgoing (.call (.defaultIrob 0 [65] 0 false)),
    .outgoing (.proceed (.defaultIrob 0 [65] 0 false)), .outgoing (.ackReceived 0),
    .goodbye false [] true, .shutdownTest 0]

theorem goodbye_last_word_acknowledged : ∃ endpoint, (machine.restrict Orderly).Reachable endpoint ∧
    endpoint.history = [.decided 0, .inserted 0] ∧
      (0 ∈ endpoint.outgoing.acknowledged ∨ endpoint.outgoing.Discarded 0) := by
  have ran : ∃ called accepted acked shut endpoint,
      (machine.step empty acknowledgedEvents[0] = some called ∧ called.shuttingDown = false ∧
        called.outgoing.calls = [.defaultIrob 0 [65] 0 false]) ∧
      (machine.step called acknowledgedEvents[1] = some accepted ∧ accepted.shuttingDown = false) ∧
      (machine.step accepted acknowledgedEvents[2] = some acked ∧ acked.shuttingDown = false) ∧
      (machine.step acked acknowledgedEvents[3] = some shut ∧ shut.tasks = fun _ => .looping) ∧
      machine.step shut acknowledgedEvents[4] = some endpoint ∧
      endpoint.history = [.decided 0, .inserted 0] ∧ endpoint.outgoing.accepted = [0] :=
    ⟨_, _, _, _, _, ⟨rfl, rfl, rfl⟩, ⟨rfl, rfl⟩, ⟨rfl, rfl⟩, ⟨rfl, rfl⟩, rfl, rfl, rfl⟩
  obtain ⟨called, accepted, acked, shut, endpoint, ⟨calling, calledOpen, calls⟩,
    ⟨accepting, acceptedOpen⟩, ⟨acking, ackedOpen⟩, ⟨shutting, looping⟩, deciding, history,
    ids⟩ := ran
  have start : (machine.restrict Orderly).Reachable empty := .initial rfl
  have inProgress : machine.permitted called acknowledgedEvents[1] := by
    change AppCall.defaultIrob 0 [65] 0 false ∈ called.outgoing.calls
    rw [calls]
    exact List.mem_singleton_self _
  have inRange : machine.permitted accepted acknowledgedEvents[2] := by
    change IrobId.InRange 0
    decide
  have idle : shut.Orderly (.shutdownTest 0) := by
    refine ⟨rfl, fun _ _ _ _ other message id writing => ?_⟩
    rw [looping] at writing
    cases writing
  have ranged : machine.permitted empty acknowledgedEvents[0] := by decide
  have first := start.step ⟨ranged, .of_open rfl⟩ calling
  have second := first.step ⟨inProgress, .of_open calledOpen⟩ accepting
  have third := second.step ⟨inRange, .of_open acceptedOpen⟩ acking
  have closing : machine.permitted acked acknowledgedEvents[3] := trivial
  have testing : machine.permitted shut (.shutdownTest 0) := trivial
  have fourth := third.step ⟨closing, .of_open ackedOpen⟩ shutting
  have reached := fourth.step ⟨testing, idle⟩ deciding
  refine ⟨endpoint, reached, history, (goodbye_last_word reached).2 ?_ 0 ?_⟩
  · rw [history]
    exact ⟨.decided 0, List.mem_cons_self, rfl⟩
  · rw [ids]
    exact List.mem_singleton_self _

/-- The application begins an IROB. While the call looks for a csocket another thread
closes the multisocket, and a sender thread has nothing to send. -/
def overtakenEvents : List EndpointEvent :=
  [.outgoing (.call (.beginIrob 0 [] 0 false)), .goodbye false [] true, .shutdownTest 0,
    .outgoing (.proceed (.beginIrob 0 [] 0 false)), .goodbyeDone 0 .full,
    .startWrite 0 .beginIrob 0, .writeDone 0 .full]

theorem accepted_after_goodbye : ∃ endpoint, machine.Reachable endpoint ∧
    endpoint.history =
      [.wrote 0 .beginIrob 0, .goodbyeWritten 0, .inserted 0, .decided 0] ∧
    endpoint.outgoing.accepted = [0] ∧ endpoint.outgoing.acknowledged = [] ∧
    ¬endpoint.outgoing.Discarded 0 ∧
    ¬endpoint.history.Pairwise fun later earlier =>
      earlier.isDecision = true → later.isData = false := by
  have ran : ∃ endpoint, machine.run empty overtakenEvents = some endpoint ∧
      endpoint.history =
        [.wrote 0 .beginIrob 0, .goodbyeWritten 0, .inserted 0, .decided 0] ∧
      endpoint.outgoing.accepted = [0] ∧ endpoint.outgoing.acknowledged = [] ∧
      endpoint.outgoing.irobs.droppedIrobs.contains 0 = false ∧ endpoint.outgoing.failed = [] :=
    ⟨_, rfl, rfl, rfl, rfl, rfl, rfl⟩
  obtain ⟨endpoint, ran, history, accepted, acknowledged, undropped, unfailed⟩ := ran
  refine ⟨endpoint, Machine.Reachable.run (.initial rfl) ran, history, accepted, acknowledged, ?_, ?_⟩
  · rw [Outgoing.Discarded, undropped, unfailed]
    decide
  · rw [history]
    decide

end Endpoint

end Libcmm
