import Libcmm.Outgoing
import Libcmm.AckScheduling

/-! # Shutting down (`csocket_sender.cpp`, `cmm_socket_impl.cpp`)

A multisocket is shut down by the application, by a GOODBYE of the peer, or by an
exception in one of its threads. From then on the first sender thread that has nothing
left to send writes the GOODBYE of this endpoint, without the lock, and tells the others
through `sending_goodbye` and `goodbye_sent`.

`Endpoint` has the outgoing IROBs, the work sets, the four flags and the place of each
sender thread. What is put into the work sets and taken out is left open, so that every
way of scheduling is covered.
-/

namespace Libcmm

open Lib

/-- The messages a sender thread writes for an IROB it has found in `outgoing_irobs`. -/
inductive DataMessage where
  | beginIrob
  | irobChunk
  | endIrob
  | dataCheck
  deriving DecidableEq

/-- Where a sender thread is: in the loop of `Run` or in `schedule_work` with the lock, in a
write for an IROB, in the write of `goodbye`, on the way to one of the handlers, or gone. -/
inductive LoopTask where
  | looping
  | writing (message : DataMessage) (id : IrobId)
  | goodbye
  | throwing (fatal : Bool)
  | finished
  deriving DecidableEq

/-- What is remembered of a run: a thread set `sending_goodbye`, wrote its GOODBYE in full,
or wrote something for an IROB; or an IROB was inserted. -/
inductive LoopRecord where
  | decided (csock : CSocketId)
  | goodbyeWritten (csock : CSocketId)
  | wrote (csock : CSocketId) (message : DataMessage) (id : IrobId)
  | inserted (id : IrobId)
  deriving DecidableEq

/-- The records of data. -/
def LoopRecord.isData : LoopRecord → Bool
  | .wrote _ _ _ | .inserted _ => true
  | .decided _ | .goodbyeWritten _ => false

/-- The records of a GOODBYE written in full. -/
def LoopRecord.isGoodbye : LoopRecord → Bool
  | .goodbyeWritten _ => true
  | _ => false

/-- One end of a multisocket connection. The history is newest first. -/
structure Endpoint where
  outgoing : Outgoing
  multisocket : IrobSchedulingIndexes
  csockets : CSocketId → IrobSchedulingIndexes
  downLocalIfaces : List Nat
  shuttingDown : Bool
  remoteShutdown : Bool
  goodbyeSent : Bool
  sendingGoodbye : Bool
  tasks : CSocketId → LoopTask
  history : List LoopRecord

/-- How the handler of `CMMControlException` ends: work is passed on to a replacement or to
the multisocket, where `last` says that this was the last csocket of the accepting side;
or there is no replacement. `picked` are the IROBs that `should_data_check` picks. -/
inductive ControlOutcome where
  | passOn (replacement : Option CSocketId) (picked : List IrobId) (last : Bool)
  | hosed
  deriving DecidableEq

/-- What happens at an endpoint. -/
inductive EndpointEvent where
  | outgoing (event : OutgoingEvent)
  | schedule (csock : CSocketId) (level : Level) (indexes : IrobSchedulingIndexes)
  | interfaces (down : List Nat)
  | goodbye (remoteInitiated : Bool) (picked : List IrobId) (csocket : Bool)
  | goodbyeAcked
  | shutdownTest (csock : CSocketId)
  | goodbyeDone (csock : CSocketId) (outcome : WriteOutcome)
  | startWrite (csock : CSocketId) (message : DataMessage) (id : IrobId)
  | writeDone (csock : CSocketId) (outcome : WriteOutcome)
  | throw (csock : CSocketId) (fatal : Bool)
  | fatalError (csock : CSocketId)
  | controlException (csock : CSocketId) (outcome : ControlOutcome)
  | finish (csock : CSocketId)

namespace Endpoint

/-- Nothing has happened yet. -/
def empty : Endpoint where
  outgoing := .empty
  multisocket := .empty
  csockets := fun _ => .empty
  downLocalIfaces := []
  shuttingDown := false
  remoteShutdown := false
  goodbyeSent := false
  sendingGoodbye := false
  tasks := fun _ => .looping
  history := []

def setTask (endpoint : Endpoint) (csock : CSocketId) (task : LoopTask) : Endpoint :=
  { endpoint with tasks := Function.update endpoint.tasks csock task }

/-- `CSocketSender::nothingToSend`. -/
def nothingToSend (endpoint : Endpoint) (csock : CSocketId) : Bool :=
  (endpoint.csockets csock).waitingAcks.tasks.isEmpty &&
  endpoint.multisocket.waitingAcks.tasks.isEmpty &&
  (endpoint.csockets csock).resendRequests.tasks.isEmpty &&
  endpoint.multisocket.resendRequests.tasks.isEmpty &&
  endpoint.outgoing.irobs.isEmpty &&
  endpoint.downLocalIfaces.isEmpty &&
  (endpoint.csockets csock).waitingDataChecks.tasks.isEmpty &&
  endpoint.multisocket.waitingDataChecks.tasks.isEmpty

/-- `CMMSocketImpl::data_check_all_irobs`, with the IROBs that `should_data_check` picks. -/
def dataCheckAllIrobs (endpoint : Endpoint) (picked : List IrobId) : Option Endpoint :=
  endpoint.outgoing.dataCheckAllIrobs.map fun _ =>
    let ids := endpoint.outgoing.irobs.pendingIrobs.slots.filterMap fun slot => slot.map (·.id)
    let checks := (ids.filter fun id => decide (id ∈ picked)).map fun id =>
      { IrobSchedulingData.work id false 0 with dataCheck := true }
    { endpoint with multisocket := { endpoint.multisocket with
      waitingDataChecks := endpoint.multisocket.waitingDataChecks.insertRange checks } }

/-- The flags of a connection that is given up. -/
def kill (endpoint : Endpoint) : Endpoint :=
  { endpoint with shuttingDown := true, remoteShutdown := true, goodbyeSent := true }

/-- `CMMSocketImpl::goodbye`; `csocket` says that the multisocket was bootstrapped and has a
csocket to send the GOODBYE on. -/
def goodbye (endpoint : Endpoint) (remoteInitiated : Bool) (picked : List IrobId)
    (csocket : Bool) : Option Endpoint :=
  if endpoint.shuttingDown then some endpoint
  else
    let shut := { endpoint with shuttingDown := true }
    (if remoteInitiated then
      (shut.dataCheckAllIrobs picked).map fun checked => { checked with remoteShutdown := true }
    else some shut).map fun next =>
      if csocket then next else { next with remoteShutdown := true, goodbyeSent := true }

/-- `CMMSocketImpl::goodbye_acked`. -/
def goodbyeAcked (endpoint : Endpoint) : Option Endpoint :=
  -- ASSERT(shutting_down)
  if endpoint.shuttingDown then some { endpoint with remoteShutdown := true } else none

/-- The shutdown test of `CSocketSender::Run`, with `CSocketSender::goodbye` up to its write. -/
def shutdownTest (endpoint : Endpoint) (csock : CSocketId) : Endpoint :=
  if endpoint.shuttingDown && endpoint.nothingToSend csock then
    if !endpoint.goodbyeSent && !endpoint.sendingGoodbye then
      { endpoint.setTask csock .goodbye with
        sendingGoodbye := true
        history := .decided csock :: endpoint.history }
    else endpoint
  else endpoint

/-- `CSocketSender::goodbye` after its write. -/
def goodbyeDone (endpoint : Endpoint) (csock : CSocketId) : WriteOutcome → Endpoint
  | .full => { endpoint.setTask csock .looping with
      goodbyeSent := true
      history := .goodbyeWritten csock :: endpoint.history }
  | .short | .failing => { endpoint.setTask csock (.throwing false) with sendingGoodbye := false }

/-- A message for an IROB, after its write. -/
def writeDone (endpoint : Endpoint) (csock : CSocketId) (message : DataMessage) (id : IrobId) :
    WriteOutcome → Endpoint
  | .full => { endpoint.setTask csock .looping with
      history := .wrote csock message id :: endpoint.history }
  | .short => { endpoint.setTask csock (.throwing false) with
      history := .wrote csock message id :: endpoint.history }
  | .failing => endpoint.setTask csock (.throwing false)

/-- A thread that ends passes its work on. -/
def passOn (endpoint : Endpoint) (csock : CSocketId) : Option CSocketId → Endpoint
  | some other => { endpoint with
      csockets := Function.update endpoint.csockets other
        ((endpoint.csockets other).add (endpoint.csockets csock)) }
  | none => { endpoint with
      multisocket := endpoint.multisocket.add (endpoint.csockets csock) }

/-- The handler of `CMMControlException` in `CSocketSender::Run`. -/
def controlException (endpoint : Endpoint) (csock : CSocketId) : ControlOutcome → Option Endpoint
  | .passOn replacement picked last =>
      ((endpoint.passOn csock replacement).dataCheckAllIrobs picked).map fun checked =>
        (if last then checked.kill else checked).setTask csock .finished
  | .hosed => some (endpoint.kill.setTask csock .finished)

/-- An event of the outgoing IROBs. A call of the application returns at once when the
multisocket is shutting down. -/
def outgoingStep (endpoint : Endpoint) (event : OutgoingEvent) : Option Endpoint :=
  if event.isCall && endpoint.shuttingDown then some endpoint
  else (endpoint.outgoing.step event).map fun next => { endpoint with
    outgoing := next
    history := if endpoint.outgoing.accepted.length < next.accepted.length then
      (next.accepted.head?.map LoopRecord.inserted).toList ++ endpoint.history
    else endpoint.history }

/-- One event. A thread that is elsewhere does not take it. -/
def step (endpoint : Endpoint) : EndpointEvent → Option Endpoint
  | .outgoing event => endpoint.outgoingStep event
  | .schedule csock level indexes => some (match level with
      | .csocket => { endpoint with csockets := Function.update endpoint.csockets csock indexes }
      | .multisocket => { endpoint with multisocket := indexes })
  | .interfaces down => some { endpoint with downLocalIfaces := down }
  | .goodbye remoteInitiated picked csocket => endpoint.goodbye remoteInitiated picked csocket
  | .goodbyeAcked => endpoint.goodbyeAcked
  | .shutdownTest csock => match endpoint.tasks csock with
      | .looping => some (endpoint.shutdownTest csock)
      | _ => none
  | .goodbyeDone csock outcome => match endpoint.tasks csock with
      | .goodbye => some (endpoint.goodbyeDone csock outcome)
      | _ => none
  | .startWrite csock message id => match endpoint.tasks csock with
      | .looping => ((endpoint.outgoing.irobs.find id).bind OutgoingIrob.asSender).map fun _ =>
          endpoint.setTask csock (.writing message id)
      | _ => none
  | .writeDone csock outcome => match endpoint.tasks csock with
      | .writing message id => some (endpoint.writeDone csock message id outcome)
      | _ => none
  | .throw csock fatal => match endpoint.tasks csock with
      | .looping => some (endpoint.setTask csock (.throwing fatal))
      | _ => none
  | .fatalError csock => match endpoint.tasks csock with
      | .throwing true => some (endpoint.kill.setTask csock .finished)
      | _ => none
  | .controlException csock outcome => match endpoint.tasks csock with
      | .throwing false => endpoint.controlException csock outcome
      | _ => none
  | .finish csock => match endpoint.tasks csock with
      | .looping => if endpoint.shuttingDown && endpoint.nothingToSend csock then
          some (endpoint.setTask csock .finished) else none
      | _ => none

/-- Everything may happen at any time, but what the calls of the application promise. -/
def machine : Machine Endpoint EndpointEvent where
  initial endpoint := endpoint = empty
  permitted endpoint event := match event with
    | .outgoing event => Outgoing.machine.permitted endpoint.outgoing event
    | _ => True
  step := step

instance : ∀ endpoint event, Decidable (machine.permitted endpoint event)
  | endpoint, .outgoing event =>
      inferInstanceAs (Decidable (Outgoing.machine.permitted endpoint.outgoing event))
  | _, .schedule _ _ _ => .isTrue trivial
  | _, .interfaces _ => .isTrue trivial
  | _, .goodbye _ _ _ => .isTrue trivial
  | _, .goodbyeAcked => .isTrue trivial
  | _, .shutdownTest _ => .isTrue trivial
  | _, .goodbyeDone _ _ => .isTrue trivial
  | _, .startWrite _ _ _ => .isTrue trivial
  | _, .writeDone _ _ => .isTrue trivial
  | _, .throw _ _ => .isTrue trivial
  | _, .fatalError _ => .isTrue trivial
  | _, .controlException _ _ => .isTrue trivial
  | _, .finish _ => .isTrue trivial

variable {endpoint after : Endpoint} {event : EndpointEvent}

/-! ### What one event does to the flags and the threads -/

theorem setTask_tasks (endpoint : Endpoint) (csock other : CSocketId) (task : LoopTask) :
    (endpoint.setTask csock task).tasks other =
      if other = csock then task else endpoint.tasks other := by
  unfold setTask
  simp only [Function.update_apply]

/-- The flags are raised, never lowered, and no thread moves. -/
structure Raises (endpoint after : Endpoint) : Prop where
  outgoing : after.outgoing = endpoint.outgoing
  sending : after.sendingGoodbye = endpoint.sendingGoodbye
  tasks : after.tasks = endpoint.tasks
  history : after.history = endpoint.history
  shutting : endpoint.shuttingDown = true → after.shuttingDown = true

theorem Raises.kill : endpoint.Raises endpoint.kill := ⟨rfl, rfl, rfl, rfl, fun _ => rfl⟩

theorem Raises.trans {middle : Endpoint} (first : endpoint.Raises middle)
    (second : middle.Raises after) : endpoint.Raises after :=
  ⟨second.outgoing.trans first.outgoing, second.sending.trans first.sending,
    second.tasks.trans first.tasks, second.history.trans first.history,
    fun shutting => second.shutting (first.shutting shutting)⟩

/-- Data checks are scheduled, and nothing else happens. -/
theorem Raises.dataCheckAllIrobs {picked : List IrobId}
    (checked : endpoint.dataCheckAllIrobs picked = some after) :
    endpoint.Raises after ∧ after.shuttingDown = endpoint.shuttingDown := by
  obtain ⟨-, -, rfl⟩ := Option.map_eq_some_iff.mp checked
  exact ⟨⟨rfl, rfl, rfl, rfl, id⟩, rfl⟩

theorem Raises.passOn (csock : CSocketId) (replacement : Option CSocketId) :
    endpoint.Raises (endpoint.passOn csock replacement) := by
  cases replacement <;> exact ⟨rfl, rfl, rfl, rfl, id⟩

theorem Raises.goodbye {remoteInitiated csocket : Bool} {picked : List IrobId}
    (moved : endpoint.goodbye remoteInitiated picked csocket = some after) :
    endpoint.Raises after ∧ after.shuttingDown = true := by
  unfold Endpoint.goodbye at moved
  by_cases shutting : endpoint.shuttingDown = true
  · rw [if_pos shutting] at moved
    cases moved
    exact ⟨⟨rfl, rfl, rfl, rfl, id⟩, shutting⟩
  · rw [if_neg shutting] at moved
    obtain ⟨next, opened, rfl⟩ := Option.map_eq_some_iff.mp moved
    have first : endpoint.Raises next ∧ next.shuttingDown = true := by
      cases remoteInitiated with
      | true =>
          obtain ⟨checked, scheduled, rfl⟩ := Option.map_eq_some_iff.mp opened
          obtain ⟨raises, same⟩ := Raises.dataCheckAllIrobs scheduled
          exact ⟨⟨raises.outgoing, raises.sending, raises.tasks, raises.history, fun _ => same⟩, same⟩
      | false =>
          cases opened
          exact ⟨⟨rfl, rfl, rfl, rfl, fun _ => rfl⟩, rfl⟩
    cases csocket with
    | true => exact first
    | false => exact ⟨first.1.trans ⟨rfl, rfl, rfl, rfl, fun still => still⟩, first.2⟩

/-- What an event can be, as far as threads, flags and history go. -/
inductive Move (endpoint : Endpoint) : EndpointEvent → Endpoint → Prop where
  /-- The outgoing IROBs change, and an insertion is recorded. -/
  | outgoing {event : OutgoingEvent} {next : Outgoing} (records : List LoopRecord)
      (stepped : endpoint.outgoing.step event = some next)
      (entered : event.isCall = true → endpoint.shuttingDown = false)
      (recorded : ∀ record ∈ records, (∃ id, record = .inserted id) ∧ event.inserts.isSome = true) :
      Move endpoint (.outgoing event)
        { endpoint with outgoing := next, history := records ++ endpoint.history }
  | raise {event : EndpointEvent} {after : Endpoint} (raises : endpoint.Raises after) :
      Move endpoint event after
  | decide {csock : CSocketId} (looping : endpoint.tasks csock = .looping)
      (shutting : endpoint.shuttingDown = true) (nothing : endpoint.nothingToSend csock = true)
      (unsent : endpoint.goodbyeSent = false) (unsending : endpoint.sendingGoodbye = false) :
      Move endpoint (.shutdownTest csock) { endpoint.setTask csock .goodbye with
        sendingGoodbye := true, history := .decided csock :: endpoint.history }
  | goodbyeWritten {csock : CSocketId} (writing : endpoint.tasks csock = .goodbye) :
      Move endpoint (.goodbyeDone csock .full) { endpoint.setTask csock .looping with
        goodbyeSent := true, history := .goodbyeWritten csock :: endpoint.history }
  | goodbyeFailed {csock : CSocketId} {outcome : WriteOutcome}
      (writing : endpoint.tasks csock = .goodbye) :
      Move endpoint (.goodbyeDone csock outcome)
        { endpoint.setTask csock (.throwing false) with sendingGoodbye := false }
  | startWrite {csock : CSocketId} {message : DataMessage} {id : IrobId}
      (looping : endpoint.tasks csock = .looping) {pirob : OutgoingIrob}
      (found : endpoint.outgoing.irobs.find id = some pirob) :
      Move endpoint (.startWrite csock message id) (endpoint.setTask csock (.writing message id))
  | wrote {csock : CSocketId} {message : DataMessage} {id : IrobId} {outcome : WriteOutcome}
      (writing : endpoint.tasks csock = .writing message id) {task : LoopTask}
      (stops : task = .looping ∨ task = .throwing false) :
      Move endpoint (.writeDone csock outcome) { endpoint.setTask csock task with
        history := .wrote csock message id :: endpoint.history }
  /-- A thread throws or ends, perhaps after its handler has passed on its work or given up
  the connection. -/
  | stop {event : EndpointEvent} {csock : CSocketId} {task : LoopTask} {raised : Endpoint}
      (raises : endpoint.Raises raised) (away : endpoint.tasks csock ≠ .goodbye)
      (stops : task = .finished ∨ ∃ fatal, task = .throwing fatal) :
      Move endpoint event (raised.setTask csock task)

theorem Raises.refl (endpoint : Endpoint) : endpoint.Raises endpoint := ⟨rfl, rfl, rfl, rfl, id⟩

namespace Move

theorem outgoingStep {event : OutgoingEvent}
    (moved : endpoint.outgoingStep event = some after) : Move endpoint (.outgoing event) after := by
  unfold Endpoint.outgoingStep at moved
  by_cases returns : (event.isCall && endpoint.shuttingDown) = true
  · rw [if_pos returns] at moved
    cases moved
    exact .raise (.refl endpoint)
  · rw [if_neg returns] at moved
    obtain ⟨next, stepped, rfl⟩ := Option.map_eq_some_iff.mp moved
    have entered : event.isCall = true → endpoint.shuttingDown = false := by
      intro starts
      rw [starts, Bool.true_and] at returns
      exact Bool.eq_false_iff.mpr returns
    split_ifs with grown
    · refine .outgoing _ stepped entered fun record member => ?_
      obtain ⟨id, -, same⟩ := Option.map_eq_some_iff.mp (Option.mem_toList.mp member)
      exact ⟨⟨id, same.symm⟩, Outgoing.inserts_of_grown stepped grown⟩
    · exact .outgoing [] stepped entered fun record member => (List.not_mem_nil member).elim

theorem shutdownTest {csock : CSocketId} (looping : endpoint.tasks csock = .looping) :
    Move endpoint (.shutdownTest csock) (endpoint.shutdownTest csock) := by
  unfold Endpoint.shutdownTest
  split_ifs with test free
  · obtain ⟨shutting, nothing⟩ := Bool.and_eq_true_iff.mp test
    obtain ⟨unsent, unsending⟩ := Bool.and_eq_true_iff.mp free
    exact .decide looping shutting nothing (Bool.not_eq_true' _ ▸ unsent)
      (Bool.not_eq_true' _ ▸ unsending)
  · exact .raise (.refl endpoint)
  · exact .raise (.refl endpoint)

theorem controlException {csock : CSocketId} {outcome : ControlOutcome}
    (throwing : endpoint.tasks csock = .throwing false)
    (moved : endpoint.controlException csock outcome = some after) :
    Move endpoint (.controlException csock outcome) after := by
  have away : endpoint.tasks csock ≠ .goodbye := by
    rw [throwing]
    exact nofun
  cases outcome with
  | hosed =>
      cases moved
      exact .stop .kill away (.inl rfl)
  | passOn replacement picked last =>
      obtain ⟨checked, checking, rfl⟩ := Option.map_eq_some_iff.mp moved
      have passed := (Raises.passOn csock replacement).trans (Raises.dataCheckAllIrobs checking).1
      cases last with
      | true => exact .stop (passed.trans .kill) away (.inl rfl)
      | false => exact .stop passed away (.inl rfl)

end Move

/-- Every event is one of the moves. -/
theorem step_move (moved : endpoint.step event = some after) : Move endpoint event after := by
  cases event with
  | outgoing event => exact Move.outgoingStep moved
  | schedule csock level indexes =>
      cases moved
      cases level <;> exact .raise ⟨rfl, rfl, rfl, rfl, id⟩
  | interfaces down =>
      cases moved
      exact .raise ⟨rfl, rfl, rfl, rfl, id⟩
  | goodbye remoteInitiated picked csocket => exact .raise (Raises.goodbye moved).1
  | goodbyeAcked =>
      simp only [step, goodbyeAcked] at moved
      split_ifs at moved
      cases moved
      exact .raise ⟨rfl, rfl, rfl, rfl, id⟩
  | shutdownTest csock =>
      simp only [step] at moved
      split at moved
      next looping =>
        cases moved
        exact Move.shutdownTest looping
      next => cases moved
  | goodbyeDone csock outcome =>
      simp only [step] at moved
      split at moved
      next writing =>
        cases moved
        cases outcome with
        | full => exact .goodbyeWritten writing
        | short => exact .goodbyeFailed writing
        | failing => exact .goodbyeFailed writing
      next => cases moved
  | startWrite csock message id =>
      simp only [step] at moved
      split at moved
      next looping =>
        obtain ⟨psirob, cast, rfl⟩ := Option.map_eq_some_iff.mp moved
        obtain ⟨pirob, found, -⟩ := Option.bind_eq_some_iff.mp cast
        exact .startWrite looping found
      next => cases moved
  | writeDone csock outcome =>
      simp only [step] at moved
      split at moved
      next message id writing =>
        cases moved
        cases outcome with
        | full => exact .wrote writing (.inl rfl)
        | short => exact .wrote writing (.inr rfl)
        | failing =>
            refine .stop (.refl endpoint) ?_ (.inr ⟨false, rfl⟩)
            rw [writing]
            exact nofun
      next => cases moved
  | throw csock fatal =>
      simp only [step] at moved
      split at moved
      next looping =>
        cases moved
        refine .stop (.refl endpoint) ?_ (.inr ⟨fatal, rfl⟩)
        rw [looping]
        exact nofun
      next => cases moved
  | fatalError csock =>
      simp only [step] at moved
      split at moved
      next throwing =>
        cases moved
        refine .stop .kill ?_ (.inl rfl)
        rw [throwing]
        exact nofun
      next => cases moved
  | controlException csock outcome =>
      simp only [step] at moved
      split at moved
      next throwing => exact Move.controlException throwing moved
      next => cases moved
  | finish csock =>
      simp only [step] at moved
      split at moved
      next looping =>
        split_ifs at moved
        cases moved
        refine .stop (.refl endpoint) ?_ (.inl rfl)
        rw [looping]
        exact nofun
      next => cases moved

end Endpoint

end Libcmm
