import Libcmm.Dropping
import Libcmm.Inference
import Libcmm.Recovery
import Libcmm.Scheduling

/-! # Outgoing IROBs (`cmm_socket_impl.cpp`, `csocket_sender.cpp`)

The application begins, fills and ends IROBs; the sender threads send, put off or drop
them; acknowledgments remove them. All of this meets in `outgoing_irobs`. A call of the
application gives up the lock while it looks for a csocket, so it takes its steps here
one lock-protected section at a time and is in `calls` in between. Which csocket a
sender thread finds, and whether a wait times out, is left open.
-/

namespace Libcmm

open Lib

/-- `CMM_FAILED`. -/
def cmmFailed : Int := -1

/-- `CMM_DEFERRED`. -/
def cmmDeferred : Int := -2

/-- `CMM_BLOCKING`. -/
def cmmBlocking : Int := -3

/-- A call of the application that is not inside a lock-protected section: it looks for a
csocket, or `end_irob` waits for its labels. -/
inductive AppCall where
  | beginIrob (id : IrobId) (deps : List IrobId) (sendLabels : Nat) (resumeHandler : Bool)
  | defaultIrob (id : IrobId) (data : List Byte) (sendLabels : Nat) (resumeHandler : Bool)
  | irobChunk (id : IrobId) (data : List Byte)
  | endIrob (id : IrobId)
  | endIrobWaiting (id : IrobId)
  deriving DecidableEq

/-- The IROB a call inserts, and whether the application gave a resume handler. -/
def AppCall.irob : AppCall → Option (SenderIrob × Bool)
  | .beginIrob id deps sendLabels resumeHandler =>
      some (.mk id deps [] sendLabels, resumeHandler)
  | .defaultIrob id data sendLabels resumeHandler => some (.mk id [] data sendLabels, resumeHandler)
  | _ => none

/-- What `delegate_if_necessary` finds: this csocket or another one sends the IROB, none
is there and this one does not fit the network restriction, or none is there and this one
would fit. Then `redundant` says that all csockets should send it. -/
inductive Delegation where
  | found
  | unfit
  | unmatched (redundant : Bool)
  deriving DecidableEq

/-- A complete IROB is dropped when no csocket can be told to send it. -/
def Delegation.drops (outcome : Delegation) (psirob : SenderIrob) : Bool :=
  psirob.complete && match outcome with
    | .found => false
    | .unfit => true
    | .unmatched redundant => !(hasLabel psirob.sendLabels labelBackground || redundant)

/-- `outgoing_irobs`, the IROBs the application gave a resume handler for, its calls, and
the queued `ResumeOperation`s. `accepted` and `refused` are the IROBs whose begin or send
call got one or the other answer, `acknowledged` those an acknowledgment was received
for, and `failed` those `end_irob` erased. -/
structure Outgoing where
  irobs : IrobLattice (Option SenderPart)
  handlers : List IrobId
  calls : List AppCall
  thunks : List IrobSchedulingData
  accepted : List IrobId
  refused : List IrobId
  acknowledged : List IrobId
  failed : List IrobId

/-- What happens: a call starts, goes on or is given up for lack of a csocket, a message of
the peer arrives, or a sender thread does something. -/
inductive OutgoingEvent where
  | call (call : AppCall)
  | proceed (call : AppCall)
  | waited (id : IrobId) (timedOut : Bool)
  | giveUp (call : AppCall)
  | ackReceived (id : IrobId)
  | resendRequestReceived (request : ResendRequest)
  | dataCheckAllIrobs
  | delegate (data : IrobSchedulingData) (outcome : Delegation)
  | send (id : IrobId) (calling : SenderCall)
  | resume (data : IrobSchedulingData)

/-- The IROB an event inserts. -/
def OutgoingEvent.inserts : OutgoingEvent → Option SenderIrob
  | .proceed started => started.irob.map Prod.fst
  | _ => none

theorem OutgoingEvent.mem_inserts {call : AppCall} {psirob : SenderIrob} {resumeHandler : Bool}
    (made : call.irob = some (psirob, resumeHandler)) :
    psirob ∈ (OutgoingEvent.proceed call).inserts := by
  rw [inserts, made]
  rfl

/-- A call of the application starts. -/
def OutgoingEvent.isCall : OutgoingEvent → Bool
  | .call _ => true
  | _ => false

namespace Outgoing

open OutgoingIrob

/-- Nothing has happened yet. -/
def empty : Outgoing := ⟨.empty, [], [], [], [], [], [], []⟩

/-- Write a sending IROB back through its pointer. -/
def store (outgoing : Outgoing) (irob : SenderIrob) : Outgoing :=
  { outgoing with irobs := outgoing.irobs.update irob.id fun _ => irob.toOutgoing }

/-- Act on an IROB found in `outgoing_irobs`; `ASSERT(psirob)` traps. -/
def withSender (outgoing : Outgoing) (id : IrobId) (act : SenderIrob → Option Outgoing) :
    Option Outgoing :=
  match outgoing.irobs.find id with
  | none => some outgoing
  | some pirob => (asSender pirob).bind act

/-- `PendingIROB::set_status`. -/
def setStatus (psirob : SenderIrob) (status : Int) : SenderIrob := { psirob with status := status }

/-! ### The application's calls -/

/-- The insertion in `begin_irob` and `send_default_irob`. -/
def insertIrob (outgoing : Outgoing) (psirob : SenderIrob) (resumeHandler : Bool) :
    Option Outgoing :=
  (outgoing.irobs.insert psirob.toOutgoing true).bind fun inserted =>
    -- ASSERT(success)
    inserted.2.map fun _ => { outgoing with
      irobs := inserted.1
      handlers := if resumeHandler then psirob.id :: outgoing.handlers else outgoing.handlers
      accepted := psirob.id :: outgoing.accepted }

/-- `CMMSocketImpl::begin_irob` with a csocket at hand. -/
def beginIrob (outgoing : Outgoing) (id : IrobId) (deps : List IrobId) (sendLabels : Nat)
    (resumeHandler : Bool) : Option Outgoing :=
  let psirob := SenderIrob.mk id deps [] sendLabels
  if outgoing.irobs.irobIsUndeliverable psirob.toOutgoing then
    some { outgoing with refused := id :: outgoing.refused }
  else outgoing.insertIrob psirob resumeHandler

/-- `CMMSocketImpl::send_default_irob`. -/
def sendDefaultIrob (outgoing : Outgoing) (id : IrobId) (data : List Byte) (sendLabels : Nat)
    (resumeHandler : Bool) : Option Outgoing :=
  outgoing.insertIrob (.mk id [] data sendLabels) resumeHandler

/-- `CMMSocketImpl::irob_chunk` with a csocket at hand. -/
def irobChunk (outgoing : Outgoing) (id : IrobId) (data : List Byte) : Option Outgoing :=
  outgoing.withSender id fun psirob =>
    some (outgoing.store (psirob.addChunk ⟨id, 0, 0, data.length, some data⟩).1)

/-- The failure exits of `CMMSocketImpl::end_irob`. -/
def failIrob (outgoing : Outgoing) (id : IrobId) : Outgoing :=
  { outgoing with
    irobs := (outgoing.irobs.erase id false).1
    failed := id :: outgoing.failed }

/-- `CMMSocketImpl::end_irob` from `finish` on. -/
def finishIrob (outgoing : Outgoing) (id : IrobId) : Option Outgoing :=
  outgoing.withSender id fun psirob => some (outgoing.store psirob.finish.1)

/-- `CMMSocketImpl::end_irob` with a csocket at hand. An IROB that was removed meanwhile
is changed where only this call sees it. -/
def endIrob (outgoing : Outgoing) (id : IrobId) : Option Outgoing :=
  match outgoing.irobs.find id with
  | none => some outgoing
  | some pirob =>
      if pirob.status < 0 then
        if pirob.status = cmmDeferred then some (outgoing.failIrob id)
        else if pirob.status = cmmBlocking then
          -- wait_for_labels, without the lock
          some { outgoing with calls := .endIrobWaiting id :: outgoing.calls }
        else some (outgoing.failIrob id)
      else outgoing.finishIrob id

/-- `CMMSocketImpl::end_irob` after it has waited for its labels. -/
def endIrobWaited (outgoing : Outgoing) (id : IrobId) (timedOut : Bool) : Option Outgoing :=
  match outgoing.irobs.find id with
  | none => some outgoing
  | some _ => if timedOut then some (outgoing.failIrob id) else outgoing.finishIrob id

/-- The first section of a call. -/
def enter (outgoing : Outgoing) (call : AppCall) : Option Outgoing :=
  let entered := { outgoing with calls := call :: outgoing.calls }
  match call with
  | .beginIrob _ _ _ _ | .defaultIrob _ _ _ _ => some entered
  | .irobChunk id _ => match outgoing.irobs.find id with
      | none => some outgoing
      | some pirob => if pirob.complete then some outgoing else (asSender pirob).map fun _ => entered
  | .endIrob id => match outgoing.irobs.find id with
      | none => some outgoing
      | some pirob => some (if pirob.complete then outgoing else entered)
  | .endIrobWaiting _ => none

/-- The section of a call after it has found a csocket. -/
def proceed (outgoing : Outgoing) (call : AppCall) : Option Outgoing :=
  let left := { outgoing with calls := outgoing.calls.erase call }
  match call with
  | .beginIrob id deps sendLabels resumeHandler => left.beginIrob id deps sendLabels resumeHandler
  | .defaultIrob id data sendLabels resumeHandler =>
      left.sendDefaultIrob id data sendLabels resumeHandler
  | .irobChunk id data => left.irobChunk id data
  | .endIrob id => left.endIrob id
  | .endIrobWaiting _ => none

/-! ### Messages and sender threads -/

/-- `CMMSocketImpl::ack_received` with `remove_if_unneeded`. -/
def ackReceived (outgoing : Outgoing) (id : IrobId) : Option Outgoing :=
  outgoing.withSender id fun psirob =>
    let acked := { outgoing.store psirob.ack with acknowledged := id :: outgoing.acknowledged }
    some (if psirob.ack.own.acked && psirob.ack.complete then
      { acked with irobs := (acked.irobs.erase psirob.id false).1 } else acked)

/-- `CMMSocketImpl::resend_request_received`. -/
def resendRequestReceived (outgoing : Outgoing) (request : ResendRequest) : Option Outgoing :=
  outgoing.withSender request.id fun psirob =>
    (psirob.resend request).map fun result => outgoing.store result.1

/-- `CMMSocketImpl::data_check_all_irobs`, the casts. -/
def dataCheckAllIrobs (outgoing : Outgoing) : Option Outgoing :=
  if outgoing.irobs.pendingIrobs.slots.all fun slot =>
      slot.all fun pirob => (asSender pirob).isSome then some outgoing
  else none

/-- `CSocketSender::delegate_if_necessary` after it has looked for a csocket. -/
def delegateIfNecessary (outgoing : Outgoing) (data : IrobSchedulingData) (outcome : Delegation) :
    Option Outgoing :=
  outgoing.withSender data.id fun psirob =>
    let dropped := { outgoing with irobs := outgoing.irobs.dropIrobAndDependents psirob.id }
    some (match outcome with
      | .found => outgoing
      | .unfit =>
          if psirob.complete then dropped else outgoing.store (setStatus psirob cmmFailed)
      | .unmatched redundant =>
          if hasLabel psirob.sendLabels labelBackground || redundant then outgoing
          else if psirob.complete then dropped
          else if data.id ∈ outgoing.handlers then outgoing.store (setStatus psirob cmmDeferred)
          else { outgoing.store (setStatus psirob cmmBlocking) with
            thunks := data :: outgoing.thunks })

/-- `resume_operation_thunk`, the lookup. -/
def resumeOperationThunk (outgoing : Outgoing) (data : IrobSchedulingData) : Option Outgoing :=
  -- ASSERT(pirob)
  (outgoing.irobs.find data.id).bind fun pirob =>
    (asSender pirob).map fun _ => { outgoing with thunks := outgoing.thunks.erase data }

/-- One event. -/
def step (outgoing : Outgoing) : OutgoingEvent → Option Outgoing
  | .call call => outgoing.enter call
  | .proceed call => outgoing.proceed call
  | .waited id timedOut => ({ outgoing with
      calls := outgoing.calls.erase (.endIrobWaiting id) } : Outgoing).endIrobWaited id timedOut
  | .giveUp call => some { outgoing with calls := outgoing.calls.erase call }
  | .ackReceived id => outgoing.ackReceived id
  | .resendRequestReceived request => outgoing.resendRequestReceived request
  | .dataCheckAllIrobs => outgoing.dataCheckAllIrobs
  | .delegate data outcome => outgoing.delegateIfNecessary data outcome
  | .send id calling => outgoing.withSender id fun psirob =>
      (psirob.call calling).map fun result => outgoing.store result.1
  | .resume data => outgoing.resumeOperationThunk data

/-- Identifiers are in range. Only an IROB that was begun is filled or ended, a call goes
on after it has started, and only queued thunks are fired. -/
def machine : Machine Outgoing OutgoingEvent where
  initial outgoing := outgoing = empty
  permitted outgoing event := match event with
    | .call (.beginIrob id deps _ _) => id.InRange ∧ ∀ dep ∈ deps, dep.InRange
    | .call (.defaultIrob id _ _ _) => id.InRange
    | .call (.irobChunk id _) | .call (.endIrob id) => id ∈ outgoing.accepted
    | .call (.endIrobWaiting _) => False
    | .proceed call | .giveUp call => call ∈ outgoing.calls
    | .waited id _ => .endIrobWaiting id ∈ outgoing.calls
    | .resume data => data ∈ outgoing.thunks
    | .ackReceived id => id.InRange
    | .resendRequestReceived request => request.id.InRange
    | .delegate data _ => data.id.InRange
    | .send id _ => id.InRange
    | .dataCheckAllIrobs => True
  step := step

instance : ∀ outgoing event, Decidable (machine.permitted outgoing event)
  | _, .call (.beginIrob id deps _ _) =>
      inferInstanceAs (Decidable (id.InRange ∧ ∀ dep ∈ deps, dep.InRange))
  | _, .call (.defaultIrob id _ _ _) => inferInstanceAs (Decidable id.InRange)
  | outgoing, .call (.irobChunk id _) => inferInstanceAs (Decidable (id ∈ outgoing.accepted))
  | outgoing, .call (.endIrob id) => inferInstanceAs (Decidable (id ∈ outgoing.accepted))
  | _, .call (.endIrobWaiting _) => .isFalse not_false
  | outgoing, .proceed call => inferInstanceAs (Decidable (call ∈ outgoing.calls))
  | outgoing, .giveUp call => inferInstanceAs (Decidable (call ∈ outgoing.calls))
  | outgoing, .waited id _ => inferInstanceAs (Decidable (.endIrobWaiting id ∈ outgoing.calls))
  | outgoing, .resume data => inferInstanceAs (Decidable (data ∈ outgoing.thunks))
  | _, .ackReceived id => inferInstanceAs (Decidable id.InRange)
  | _, .resendRequestReceived request => inferInstanceAs (Decidable request.id.InRange)
  | _, .delegate data _ => inferInstanceAs (Decidable data.id.InRange)
  | _, .send id _ => inferInstanceAs (Decidable id.InRange)
  | _, .dataCheckAllIrobs => .isTrue trivial

/-! ### What one event does -/

variable {outgoing after : Outgoing} {id : IrobId} {event : OutgoingEvent}

/-- An IROB that was given up: dropped by a sender thread or erased by `end_irob`. -/
def Discarded (outgoing : Outgoing) (id : IrobId) : Prop :=
  outgoing.irobs.droppedIrobs.contains id = true ∨ id ∈ outgoing.failed

instance (outgoing : Outgoing) (id : IrobId) : Decidable (outgoing.Discarded id) :=
  inferInstanceAs (Decidable (_ ∨ _))

/-- Acting on an IROB leaves everything as it is or finds the IROB. -/
theorem withSender_cases {act : SenderIrob → Option Outgoing}
    (moved : outgoing.withSender id act = some after) :
    after = outgoing ∨ ∃ pirob psirob, outgoing.irobs.find id = some pirob ∧
      asSender pirob = some psirob ∧ act psirob = some after := by
  unfold withSender at moved
  cases found : outgoing.irobs.find id with
  | none =>
      rw [found] at moved
      exact .inl (Option.some.inj moved).symm
  | some pirob =>
      rw [found] at moved
      obtain ⟨psirob, same, acted⟩ := Option.bind_eq_some_iff.mp moved
      exact .inr ⟨pirob, psirob, rfl, same, acted⟩

/-- The IROB for which `end_irob` takes a failure exit. -/
def failing (outgoing : Outgoing) : OutgoingEvent → Option IrobId
  | .proceed (.endIrob id) => (outgoing.irobs.find id).bind fun pirob =>
      if pirob.status < 0 ∧ pirob.status ≠ cmmBlocking then some id else none
  | .waited id true => some id
  | _ => none

/-- A call in progress was so before, has just started, or has just begun to wait. -/
def Follow (outgoing : Outgoing) (event : OutgoingEvent) (calls : List AppCall) : Prop :=
  ∀ call ∈ calls, call ∈ outgoing.calls ∨ event = .call call ∨
    ∃ id, call = .endIrobWaiting id ∧ event = .proceed (.endIrob id)

theorem Follow.refl : outgoing.Follow event outgoing.calls := fun _ member => .inl member

theorem Follow.erase (call : AppCall) : outgoing.Follow event (outgoing.calls.erase call) :=
  fun _ member => .inl (List.mem_of_mem_erase member)

/-- The things that can happen to `outgoing_irobs`. -/
inductive Move (outgoing : Outgoing) : OutgoingEvent → Outgoing → Prop where
  /-- Only calls start, end or are refused, and thunks are fired. -/
  | idle {event : OutgoingEvent} {calls : List AppCall} (follow : outgoing.Follow event calls)
      (refused : List IrobId) (thunks : List IrobSchedulingData) (fired : ∀ data ∈ thunks, data ∈ outgoing.thunks) :
      Move outgoing event { outgoing with calls := calls, refused := refused, thunks := thunks }
  | insert (call : AppCall) (psirob : SenderIrob) (resumeHandler : Bool)
      (made : call.irob = some (psirob, resumeHandler))
      (deliverable : outgoing.irobs.irobIsUndeliverable psirob.toOutgoing = false)
      {irobs : IrobLattice (Option SenderPart)} {kept : OutgoingIrob}
      (inserted : outgoing.irobs.insert psirob.toOutgoing true = some (irobs, some kept))
      {calls : List AppCall} (follow : outgoing.Follow (.proceed call) calls)
      (handlers : List IrobId) :
      Move outgoing (.proceed call) { outgoing with
        irobs := irobs, calls := calls, handlers := handlers
        accepted := psirob.id :: outgoing.accepted }
  /-- A pending IROB changes, but not its links. -/
  | write {event : OutgoingEvent} {query : IrobId} {psirob next : SenderIrob}
      (found : outgoing.irobs.find query = some psirob.toOutgoing)
      (links : PendingIrob.SameLinks next psirob) {calls : List AppCall}
      (follow : outgoing.Follow event calls)
      {thunks : List IrobSchedulingData} {acknowledged : List IrobId}
      (queued : thunks = outgoing.thunks ∨ ∃ data outcome, event = .delegate data outcome ∧
        data.id = query ∧ thunks = data :: outgoing.thunks)
      (acks : acknowledged = outgoing.acknowledged ∨
        event = .ackReceived query ∧ psirob.complete = false ∧
          acknowledged = query :: outgoing.acknowledged) :
      Move outgoing event { outgoing.store next with
        calls := calls, thunks := thunks, acknowledged := acknowledged }
  | ack {query : IrobId} {psirob : SenderIrob}
      (found : outgoing.irobs.find query = some psirob.toOutgoing)
      (complete : psirob.complete = true) :
      Move outgoing (.ackReceived query) { outgoing.store psirob.ack with
        irobs := ((outgoing.store psirob.ack).irobs.erase psirob.id false).1
        acknowledged := query :: outgoing.acknowledged }
  | fail {event : OutgoingEvent} {query : IrobId} {pirob : OutgoingIrob}
      (found : outgoing.irobs.find query = some pirob) (fails : outgoing.failing event = some query)
      {calls : List AppCall} (follow : outgoing.Follow event calls) :
      Move outgoing event { outgoing.failIrob query with calls := calls }
  | drop {data : IrobSchedulingData} {outcome : Delegation} {psirob : SenderIrob}
      (found : outgoing.irobs.find data.id = some psirob.toOutgoing)
      (drops : outcome.drops psirob = true) :
      Move outgoing (.delegate data outcome)
        { outgoing with irobs := outgoing.irobs.dropIrobAndDependents psirob.id }

namespace Move

theorem refl : Move outgoing event outgoing :=
  .idle .refl outgoing.refused outgoing.thunks fun _ member => member

/-- The IROB is written and nothing else happens. -/
theorem store {pirob : OutgoingIrob} {psirob next : SenderIrob}
    (found : outgoing.irobs.find id = some pirob) (cast : asSender pirob = some psirob)
    (links : PendingIrob.SameLinks next psirob) {calls : List AppCall}
    (follow : outgoing.Follow event calls) :
    Move outgoing event { outgoing.store next with calls := calls } :=
  .write (eq_of_asSender cast ▸ found) links follow (.inl rfl) (.inl rfl)

/-- Acting on the IROB that is found, with some calls gone or come. -/
theorem withSender {calls : List AppCall} {act : SenderIrob → Option Outgoing}
    (moved : ({ outgoing with calls := calls } : Outgoing).withSender id act = some after)
    (follow : outgoing.Follow event calls)
    (acts : ∀ pirob psirob, outgoing.irobs.find id = some pirob → asSender pirob = some psirob →
      act psirob = some after → Move outgoing event after) : Move outgoing event after := by
  rcases withSender_cases moved with rfl | ⟨pirob, psirob, found, cast, acted⟩
  · exact .idle follow outgoing.refused outgoing.thunks fun _ member => member
  · exact acts pirob psirob found cast acted

theorem insertIrob {call : AppCall} {psirob : SenderIrob} {resumeHandler : Bool}
    (made : call.irob = some (psirob, resumeHandler))
    (deliverable : outgoing.irobs.irobIsUndeliverable psirob.toOutgoing = false)
    {calls : List AppCall} (follow : outgoing.Follow (.proceed call) calls)
    (moved : ({ outgoing with calls := calls } : Outgoing).insertIrob psirob resumeHandler =
      some after) : Move outgoing (.proceed call) after := by
  obtain ⟨⟨irobs, stored⟩, inserted, finished⟩ := Option.bind_eq_some_iff.mp moved
  obtain ⟨kept, success, rfl⟩ := Option.map_eq_some_iff.mp finished
  simp only at success
  subst success
  exact .insert call psirob resumeHandler made deliverable inserted follow _

theorem finishIrob {calls : List AppCall} (follow : outgoing.Follow event calls)
    (moved : ({ outgoing with calls := calls } : Outgoing).finishIrob id = some after) :
    Move outgoing event after := by
  apply withSender moved follow
  intro pirob psirob found cast acted
  cases acted
  exact store found cast (SenderIrob.finish_links psirob) follow

theorem enter {call : AppCall} (moved : outgoing.enter call = some after) :
    Move outgoing (.call call) after := by
  have follow : outgoing.Follow (.call call) (call :: outgoing.calls) := by
    intro other member
    rcases List.mem_cons.mp member with rfl | old
    · exact .inr (.inl rfl)
    · exact .inl old
  have entered : Move outgoing (.call call) { outgoing with calls := call :: outgoing.calls } :=
    .idle follow outgoing.refused outgoing.thunks fun _ member => member
  unfold Outgoing.enter at moved
  cases call with
  | beginIrob id deps sendLabels resumeHandler =>
      cases moved
      exact entered
  | defaultIrob id data sendLabels resumeHandler =>
      cases moved
      exact entered
  | irobChunk id data =>
      cases found : outgoing.irobs.find id with
      | none =>
          simp only [found] at moved
          cases moved
          exact refl
      | some pirob =>
          simp only [found] at moved
          split_ifs at moved
          · cases moved
            exact refl
          · obtain ⟨psirob, -, rfl⟩ := Option.map_eq_some_iff.mp moved
            exact entered
  | endIrob id =>
      cases found : outgoing.irobs.find id with
      | none =>
          simp only [found] at moved
          cases moved
          exact refl
      | some pirob =>
          simp only [found] at moved
          split_ifs at moved
          · cases moved
            exact refl
          · cases moved
            exact entered
  | endIrobWaiting id => cases moved

theorem endIrob {calls : List AppCall} (follow : outgoing.Follow (.proceed (.endIrob id)) calls)
    (moved : ({ outgoing with calls := calls } : Outgoing).endIrob id = some after) :
    Move outgoing (.proceed (.endIrob id)) after := by
  unfold Outgoing.endIrob at moved
  cases found : outgoing.irobs.find id with
  | none =>
      simp only [found] at moved
      cases moved
      exact .idle follow outgoing.refused outgoing.thunks fun _ member => member
  | some pirob =>
      simp only [found] at moved
      split_ifs at moved with negative deferred blocking
      · cases moved
        refine .fail found ?_ follow
        rw [failing, found, Option.bind_some, if_pos ⟨negative, by rw [deferred]; decide⟩]
      · cases moved
        refine .idle (fun call member => ?_) outgoing.refused outgoing.thunks fun _ member => member
        rcases List.mem_cons.mp member with rfl | old
        · exact .inr (.inr ⟨id, rfl, rfl⟩)
        · exact follow call old
      · cases moved
        refine .fail found ?_ follow
        rw [failing, found, Option.bind_some, if_pos ⟨negative, blocking⟩]
      · exact finishIrob follow moved

theorem proceed {call : AppCall} (moved : outgoing.proceed call = some after) :
    Move outgoing (.proceed call) after := by
  have follow : outgoing.Follow (.proceed call) (outgoing.calls.erase call) := .erase call
  unfold Outgoing.proceed at moved
  cases call with
  | beginIrob id deps sendLabels resumeHandler =>
      simp only [Outgoing.beginIrob] at moved
      split_ifs at moved with undeliverable
      · cases moved
        exact .idle follow _ outgoing.thunks fun _ member => member
      · exact insertIrob rfl (Bool.not_eq_true _ ▸ undeliverable) follow moved
  | defaultIrob id data sendLabels resumeHandler => exact insertIrob rfl rfl follow moved
  | irobChunk id data =>
      apply withSender moved follow
      intro pirob psirob found cast acted
      cases acted
      exact store found cast (SenderIrob.addChunk_links psirob _) follow
  | endIrob id => exact endIrob follow moved
  | endIrobWaiting id => cases moved

theorem delegate {data : IrobSchedulingData} {outcome : Delegation}
    (moved : outgoing.delegateIfNecessary data outcome = some after) :
    Move outgoing (.delegate data outcome) after := by
  apply withSender moved .refl
  intro pirob psirob found cast acted
  have held := eq_of_asSender cast ▸ found
  have links : ∀ status, PendingIrob.SameLinks (setStatus psirob status) psirob :=
    fun status => ⟨rfl, rfl, rfl, rfl, rfl, rfl⟩
  cases outcome with
  | found =>
      cases acted
      exact refl
  | unfit =>
      simp only at acted
      split_ifs at acted with complete
      · cases acted
        exact .drop held (by rw [Delegation.drops, complete]; rfl)
      · cases acted
        exact store found cast (links cmmFailed) .refl
  | unmatched redundant =>
      simp only at acted
      split_ifs at acted with tried complete handler
      · cases acted
        exact refl
      · cases acted
        refine .drop held ?_
        rw [Delegation.drops, complete, Bool.true_and, Bool.eq_false_iff.mpr tried]
        rfl
      · cases acted
        exact store found cast (links cmmDeferred) .refl
      · cases acted
        exact .write held (links cmmBlocking) .refl (.inr ⟨data, _, rfl, rfl, rfl⟩) (.inl rfl)

end Move

/-- Every event is one of the moves. -/
theorem step_move (moved : outgoing.step event = some after) : Move outgoing event after := by
  cases event with
  | call call => exact Move.enter moved
  | proceed call => exact Move.proceed moved
  | waited id timedOut =>
      simp only [step, endIrobWaited] at moved
      cases found : outgoing.irobs.find id with
      | none =>
          simp only [found] at moved
          cases moved
          exact .idle (.erase _) outgoing.refused outgoing.thunks fun _ member => member
      | some pirob =>
          simp only [found] at moved
          split_ifs at moved with late
          · cases moved
            subst late
            exact .fail found rfl (.erase _)
          · exact Move.finishIrob (.erase _) moved
  | giveUp call =>
      cases moved
      exact .idle (.erase _) outgoing.refused outgoing.thunks fun _ member => member
  | ackReceived id =>
      apply Move.withSender moved .refl
      intro pirob psirob found cast acted
      have held := eq_of_asSender cast ▸ found
      simp only at acted
      split_ifs at acted with done
      · cases acted
        exact .ack held done
      · cases acted
        have opened : psirob.complete = false :=
          Bool.eq_false_iff.mpr fun complete => done complete
        have links : PendingIrob.SameLinks psirob.ack psirob := ⟨rfl, rfl, rfl, rfl, rfl, rfl⟩
        exact .write held links .refl (.inl rfl) (.inr ⟨rfl, opened, rfl⟩)
  | resendRequestReceived request =>
      apply Move.withSender moved .refl
      intro pirob psirob found cast acted
      obtain ⟨result, resent, rfl⟩ := Option.map_eq_some_iff.mp acted
      exact Move.store found cast (SenderIrob.resend_links resent) .refl
  | dataCheckAllIrobs =>
      simp only [step, dataCheckAllIrobs] at moved
      split_ifs at moved
      cases moved
      exact Move.refl
  | delegate data outcome => exact Move.delegate moved
  | send id calling =>
      apply Move.withSender moved .refl
      intro pirob psirob found cast acted
      obtain ⟨result, called, rfl⟩ := Option.map_eq_some_iff.mp acted
      exact Move.store found cast (SenderIrob.call_links called) .refl
  | resume data =>
      obtain ⟨pirob, -, cast⟩ := Option.bind_eq_some_iff.mp moved
      obtain ⟨psirob, -, rfl⟩ := Option.map_eq_some_iff.mp cast
      exact .idle .refl outgoing.refused _ fun _ member => List.mem_of_mem_erase member

/-- Only an insertion accepts an IROB. -/
theorem inserts_of_grown (moved : outgoing.step event = some after)
    (grown : outgoing.accepted.length < after.accepted.length) : event.inserts.isSome = true := by
  cases step_move moved with
  | insert call psirob resumeHandler made =>
      exact Option.isSome_of_mem (OutgoingEvent.mem_inserts made)
  | _ => exact (lt_irrefl _ grown).elim

end Outgoing

end Libcmm
