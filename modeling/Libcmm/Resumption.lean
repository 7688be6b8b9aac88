import Libcmm.Placeholders

/-! # Deferred operations

When no network can send an IROB that the application has not ended yet, the sender
thread queues a `ResumeOperation` that schedules the IROB again later. The thunk asserts
that its IROB is still in `outgoing_irobs`, but nothing that removes an IROB looks for
queued thunks: not the failure exits of `end_irob`, not an acknowledgment, not a drop.
-/

namespace Libcmm

open Lib

namespace Outgoing

open OutgoingIrob

variable {outgoing after : Outgoing} {event : OutgoingEvent} {id : IrobId}

/-- The IROB that an event drops, with its dependents. -/
def dropping (outgoing : Outgoing) : OutgoingEvent → Option IrobId
  | .delegate data outcome => ((outgoing.irobs.find data.id).bind asSender).bind fun psirob =>
      if outcome.drops psirob then some psirob.id else none
  | _ => none

/-- While an operation is queued for an IROB, `end_irob` does not fail for it, no
acknowledgment comes for it after it was ended, and nothing that it depends on is
dropped. -/
structure SparesQueued (outgoing : Outgoing) (event : OutgoingEvent) : Prop where
  failing : ∀ id ∈ outgoing.failing event, ∀ data ∈ outgoing.thunks, data.id ≠ id
  acknowledges : ∀ id ∈ event.acknowledges, ∀ pirob ∈ outgoing.irobs.find id,
    pirob.complete = true → ∀ data ∈ outgoing.thunks, data.id ≠ id
  dropping : ∀ id ∈ outgoing.dropping event, ∀ data ∈ outgoing.thunks,
    ¬Relation.ReflTransGen outgoing.irobs.HasDependent id data.id

/-- With nothing queued there is nothing to spare. -/
theorem SparesQueued.of_nil (none : outgoing.thunks = []) : outgoing.SparesQueued event := by
  refine ⟨fun _ _ data member => ?_, fun _ _ _ _ _ data member => ?_, fun _ _ data member => ?_⟩ <;>
    exact (List.not_mem_nil (none ▸ member)).elim

/-- A sending IROB is pending. -/
def Sending (outgoing : Outgoing) (id : IrobId) : Prop :=
  ∃ pirob : OutgoingIrob, outgoing.irobs.find id = some pirob ∧ pirob.own.isSome = true

/-- An IROB that is not removed is still a sending one. -/
theorem Sending.remove (sending : outgoing.Sending id) (inRange : id.InRange) {gone : List IrobId}
    (removed : outgoing.irobs.Removed after.irobs gone) (stays : id ∉ gone) : after.Sending id := by
  obtain ⟨pirob, found, own⟩ := sending
  exact ⟨pirob, (removed.stays inRange stays).trans found, own⟩

theorem Sending.insert (sending : outgoing.Sending id) (inRange : id.InRange)
    {psirob : SenderIrob} {kept : OutgoingIrob}
    (insertion : outgoing.irobs.Insertion psirob.toOutgoing after.irobs kept) :
    after.Sending id := by
  obtain ⟨pirob, found, own⟩ := sending
  by_cases same : id = psirob.toOutgoing.id
  · have keptOwn : kept.own.isSome = true := by
      rcases insertion.placed with ⟨-, shape⟩ | ⟨holder, stored, -, -, merged, shape⟩
      · rw [shape]
        rfl
      · have storedOwn := subsume_own merged (show psirob.toOutgoing.own.isSome = true from rfl)
        rw [shape]
        exact storedOwn
    subst same
    rcases insertion.recorded.find_self inRange with held | held
    · exact ⟨_, held, keptOwn⟩
    · exact ⟨_, held, keptOwn⟩
  · rcases insertion.recorded.find_other inRange same found with held | held
    · exact ⟨_, held, own⟩
    · exact ⟨_, held, own⟩

theorem Sending.write (sending : outgoing.Sending id) (inRange : id.InRange)
    (consistent : outgoing.Consistent) {query : IrobId} {psirob next : SenderIrob}
    (found : outgoing.irobs.find query = some psirob.toOutgoing)
    (links : PendingIrob.SameLinks next psirob)
    (sameIrobs : after.irobs = (outgoing.store next).irobs) : after.Sending id := by
  obtain ⟨pirob, held, own⟩ := sending
  have now := (consistent.store found links).2 id inRange
  rw [← sameIrobs] at now
  split_ifs at now
  · exact ⟨_, now, rfl⟩
  · exact ⟨pirob, now.trans held, own⟩

/-- Every queued operation is for a pending sending IROB. -/
def Resumable (outgoing : Outgoing) : Prop :=
  ∀ data ∈ outgoing.thunks, data.id.InRange ∧ outgoing.Sending data.id

theorem Resumable.step (resumable : outgoing.Resumable) (consistent : outgoing.Consistent)
    (permitted : machine.permitted outgoing event) (spares : outgoing.SparesQueued event)
    (moved : outgoing.step event = some after) : after.Resumable := by
  cases step_move moved with
  | idle follow refused thunks fired => exact fun data member => resumable data (fired data member)
  | insert call psirob resumeHandler made deliverable inserted follow handlers =>
      obtain ⟨-, -, insertion⟩ := consistent.insertion permitted made inserted
      intro data member
      obtain ⟨inRange, sending⟩ := resumable data member
      exact ⟨inRange, sending.insert inRange insertion⟩
  | @write _ query psirob next found links calls follow thunks acknowledged queued acks =>
      have old : ∀ data ∈ outgoing.thunks, data.id.InRange ∧
          Sending { outgoing.store next with
            calls := calls, thunks := thunks, acknowledged := acknowledged } data.id := by
        intro data member
        obtain ⟨inRange, sending⟩ := resumable data member
        exact ⟨inRange, sending.write inRange consistent found links rfl⟩
      rcases queued with same | ⟨data, outcome, rfl, named, more⟩
      · exact fun data member => old data (same ▸ member)
      · intro other member
        rcases List.mem_cons.mp (more ▸ member) with rfl | before
        · have inRange : IrobId.InRange other.id := permitted
          have sending : outgoing.Sending other.id := ⟨_, named ▸ found, rfl⟩
          exact ⟨inRange, sending.write inRange consistent found links rfl⟩
        · exact old other before
  | @ack query psirob found complete =>
      have removed := consistent.ack found
      have named : query = psirob.id := (consistent.linked.wf.find_id permitted found).symm
      intro data member
      obtain ⟨inRange, sending⟩ := resumable data member
      refine ⟨inRange, sending.remove inRange removed fun went => ?_⟩
      exact spares.acknowledges query rfl _ found complete data member
        ((List.mem_singleton.mp went).trans named.symm)
  | fail found fails follow =>
      have removed := consistent.linked.wf.removed_erase (consistent.failing permitted fails) found
      intro data member
      obtain ⟨inRange, sending⟩ := resumable data member
      refine ⟨inRange, sending.remove inRange removed fun went => ?_⟩
      exact spares.failing _ fails data member (List.mem_singleton.mp went)
  | @drop scheduled outcome psirob found drops =>
      obtain ⟨victimRange, -⟩ := consistent.found found
      obtain ⟨gone, dropped⟩ := consistent.linked.wf.dropIrobAndDependents victimRange
      have victim : psirob.id ∈ outgoing.dropping (.delegate scheduled outcome) := by
        rw [dropping, found, Option.bind_some, asSender_toOutgoing, Option.bind_some, if_pos drops]
        rfl
      intro data member
      obtain ⟨inRange, sending⟩ := resumable data member
      refine ⟨inRange, sending.remove inRange dropped.removed fun went => ?_⟩
      obtain ⟨root, listed, path⟩ := dropped.reached data.id went
      cases List.mem_singleton.mp listed
      exact spares.dropping psirob.id victim data member path

/-- Deferred resume safety: in every run that spares the IROBs with queued operations,
whenever `resume_operation_thunk` runs for an identifier it finds a `PendingSenderIROB`
there. -/
theorem resumed_irob_pending (reached : (machine.restrict SparesQueued).Reachable outgoing) :
    ∀ data ∈ outgoing.thunks, ∃ pirob psirob, outgoing.irobs.find data.id = some pirob ∧
      asSender pirob = some psirob ∧ ∃ after, outgoing.step (.resume data) = some after := by
  have resumable : outgoing.Resumable := by
    apply reached.induct
    · intro first start data member
      rw [show first = Outgoing.empty from start] at member
      exact (List.not_mem_nil member).elim
    · intro before next event sofar resumable permitted moved
      exact resumable.step (consistent_of_reachable sofar.of_restrict) permitted.1 permitted.2 moved
  intro data member
  obtain ⟨-, pirob, found, own⟩ := resumable data member
  obtain ⟨part, held⟩ := Option.isSome_iff_exists.mp own
  have cast : asSender pirob = some { pirob with own := part } :=
    Option.map_eq_some_iff.mpr ⟨part, held, rfl⟩
  refine ⟨pirob, _, found, cast, { outgoing with thunks := outgoing.thunks.erase data }, ?_⟩
  rw [Outgoing.step, resumeOperationThunk, found, Option.bind_some, cast]
  rfl

/-- An IROB is begun, and no network can send it. -/
def deferredEvents : List OutgoingEvent :=
  [.call (.beginIrob 0 [] labelOndemand false), .proceed (.beginIrob 0 [] labelOndemand false),
    .delegate (.work 0 false labelOndemand) (.unmatched false)]

theorem resumed_irob_pending_deferred : ∃ outgoing data,
    (machine.restrict SparesQueued).Reachable outgoing ∧ outgoing.thunks = [data] ∧ data.id = 0 ∧
      ∃ after, outgoing.step (.resume data) = some after := by
  have ran : ∃ begun accepted outgoing, machine.step empty deferredEvents[0] = some begun ∧
      begun.thunks = [] ∧ begun.calls = [.beginIrob 0 [] labelOndemand false] ∧
      machine.step begun deferredEvents[1] = some accepted ∧ accepted.thunks = [] ∧
      machine.step accepted deferredEvents[2] = some outgoing ∧
      outgoing.thunks = [.work 0 false labelOndemand] :=
    ⟨_, _, _, rfl, rfl, rfl, rfl, rfl, rfl, rfl⟩
  obtain ⟨begun, accepted, outgoing, called, noneBegun, calls, inserted, noneAccepted, deferred,
    queued⟩ := ran
  have start : (machine.restrict SparesQueued).Reachable empty := .initial rfl
  have ranged : machine.permitted empty deferredEvents[0] := by decide
  have first := start.step ⟨ranged, .of_nil rfl⟩ called
  have inProgress : machine.permitted begun deferredEvents[1] := by
    change AppCall.beginIrob 0 [] labelOndemand false ∈ begun.calls
    rw [calls]
    exact List.mem_singleton_self _
  have second := first.step ⟨inProgress, .of_nil noneBegun⟩ inserted
  have inRange : machine.permitted accepted deferredEvents[2] := by
    change IrobId.InRange 0
    decide
  have reached := second.step ⟨inRange, .of_nil noneAccepted⟩ deferred
  obtain ⟨-, -, -, -, resumes⟩ := resumed_irob_pending reached (.work 0 false labelOndemand)
    (queued ▸ List.mem_singleton_self _)
  exact ⟨outgoing, _, reached, queued, rfl, resumes⟩

/-- Then the application ends the IROB, and its wait for a network times out. -/
def timedOutEvents : List OutgoingEvent :=
  deferredEvents ++ [.call (.endIrob 0), .proceed (.endIrob 0), .waited 0 true]

theorem resumed_irob_missing : ∃ outgoing data, machine.Reachable outgoing ∧
    outgoing.thunks = [data] ∧ outgoing.irobs.find data.id = none ∧
      machine.permitted outgoing (.resume data) ∧ outgoing.step (.resume data) = none := by
  have ran : ∃ outgoing data, machine.run empty timedOutEvents = some outgoing ∧
      outgoing.thunks = [data] ∧ outgoing.irobs.find data.id = none ∧
      outgoing.step (.resume data) = none := ⟨_, _, rfl, rfl, rfl, rfl⟩
  obtain ⟨outgoing, data, ran, queued, absent, traps⟩ := ran
  refine ⟨outgoing, data, Machine.Reachable.run (.initial rfl) ran, queued, absent, ?_, traps⟩
  change data ∈ outgoing.thunks
  rw [queued]
  exact List.mem_singleton_self _

end Outgoing

end Libcmm
