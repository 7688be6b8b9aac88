import Libcmm.DependencyOrder
import Libcmm.Inference
import Libcmm.Recovery

/-! # One direction of a connection

A sending endpoint with its `outgoing_irobs`, a receiving endpoint, and the messages
between them over any number of csockets. A message stays on the wire once it was
written, so that it arrives in any order, any number of times or, when its csocket
fails, never. What the scheduler would have to do first is left open: any pending
IROB may send its `Begin_IROB`, its next bytes or its `End_IROB` at any time.
-/

namespace Libcmm

open Lib

/-- Both endpoints, and what has been written: messages that carry IROBs, data checks,
and the requests scheduled and written in answer to these. `opened` are the IROBs
that were inserted at the sender, newest first and as `correct_deps` left them. -/
structure Connection where
  outgoing : IrobLattice (Option SenderPart)
  opened : List OutgoingIrob
  wire : List Message
  checks : List IrobId
  receiver : Receiver
  scheduled : List (IrobId × ResendRequestType)
  requests : List ResendRequest

/-- What happens at the sender, on the way, or at the receiver. -/
inductive ConnectionEvent where
  | openIrob (id : IrobId) (deps : List IrobId) (data : List Byte) (sendLabels : Nat)
  | call (id : IrobId) (calling : SenderCall)
  | sendBegin (id : IrobId)
  | sendEnd (id : IrobId)
  | sendDataCheck (id : IrobId)
  | arrive (message : Message)
  | recv (len : Nat) (flags : RecvFlags)
  | dataCheck (id : IrobId)
  | sendRequest (id : IrobId) (request : ResendRequestType)
  | resendRequest (request : ResendRequest)
  | ack (id : IrobId)

/-- The events that happen at the receiver. -/
def ConnectionEvent.atReceiver : ConnectionEvent → Bool
  | .arrive _ | .recv _ _ | .dataCheck _ => true
  | _ => false

namespace Connection

open SenderIrob ReceiverLattice

/-- Nothing has happened yet. -/
def empty : Connection := ⟨.empty, [], [], [], .empty, [], []⟩

/-- Act on an IROB found in `outgoing_irobs`; `ASSERT(psirob)` traps. -/
def withSender (connection : Connection) (id : IrobId)
    (act : SenderIrob → Option Connection) : Option Connection :=
  match connection.outgoing.find id with
  | none => some connection
  | some pirob => (OutgoingIrob.asSender pirob).bind act

/-- The IROB is written back through its pointer. -/
def store (connection : Connection) (irob : SenderIrob) : Connection :=
  { connection with outgoing := connection.outgoing.update irob.id fun _ => irob.toOutgoing }

/-- `CMMSocketImpl::begin_irob` and `default_irob`, the insertion. -/
def openIrob (connection : Connection) (irob : SenderIrob) : Option Connection :=
  (connection.outgoing.insert irob.toOutgoing true).bind fun inserted =>
    -- ASSERT(success)
    inserted.2.map fun kept =>
      { connection with outgoing := inserted.1, opened := kept :: connection.opened }

/-- `CMMSocketImpl::ack_received` with `remove_if_unneeded`. -/
def ackReceived (connection : Connection) (id : IrobId) : Option Connection :=
  connection.withSender id fun psirob =>
    let stored := connection.store psirob.ack
    some (if psirob.ack.own.acked && psirob.ack.complete then
      { stored with outgoing := (stored.outgoing.erase psirob.id false).1 } else stored)

/-- `CMMSocketImpl::resend_request_received`. -/
def resendRequestReceived (connection : Connection) (request : ResendRequest) :
    Option Connection :=
  connection.withSender request.id fun psirob =>
    (psirob.resend request).map fun result => connection.store result.1

/-- `CMMSocketImpl::data_check_requested`. -/
def dataCheckRequested (connection : Connection) (id : IrobId) : Connection :=
  match connection.receiver.lattice.dataCheckRequested id with
  | .ack => { connection with receiver := { connection.receiver with
      history := .acknowledged id :: connection.receiver.history } }
  | .resend request => { connection with scheduled := (id, request) :: connection.scheduled }

/-- One event. -/
def step (connection : Connection) : ConnectionEvent → Option Connection
  | .openIrob id deps data sendLabels => connection.openIrob (.mk id deps data sendLabels)
  | .call id calling => connection.withSender id fun psirob =>
      (psirob.call calling).map fun result => { connection.store result.1 with
        wire := result.2.toList.map psirob.chunkMessage ++ connection.wire }
  | .sendBegin id => connection.withSender id fun psirob =>
      some { connection with wire := psirob.beginMessage :: connection.wire }
  | .sendEnd id => connection.withSender id fun psirob =>
      some (if psirob.ends then { connection with wire := psirob.endMessage :: connection.wire }
        else connection)
  | .sendDataCheck id => some { connection with checks := id :: connection.checks }
  | .arrive message => (connection.receiver.receive message).map fun result =>
      { connection with receiver := result.1 }
  | .recv len flags => (connection.receiver.read len flags).map fun receiver =>
      { connection with receiver := receiver }
  | .dataCheck id => some (connection.dataCheckRequested id)
  | .sendRequest id request => some { connection with
      requests := connection.receiver.lattice.resendRequest id request ++ connection.requests }
  | .resendRequest request => connection.resendRequestReceived request
  | .ack id => connection.ackReceived id

/-- Messages are written before they arrive, but for acknowledgments, which may come at
any time. Identifiers are in range, and the csocket senders ask only for resends of
chunks that were sent. -/
def machine : Machine Connection ConnectionEvent where
  initial connection := connection = empty
  permitted connection event := match event with
    | .openIrob id deps _ _ => id.InRange ∧ ∀ dep ∈ deps, dep.InRange
    | .call id calling => ∀ psirob ∈ (connection.outgoing.find id).bind OutgoingIrob.asSender,
        psirob.Allows calling
    | .sendDataCheck id => id ∈ connection.opened.map (·.id)
    | .arrive message => message ∈ connection.wire
    | .dataCheck id => id ∈ connection.checks
    | .sendRequest id request => (id, request) ∈ connection.scheduled
    | .resendRequest request => request ∈ connection.requests
    | _ => True
  step := step

instance : ∀ connection event, Decidable (machine.permitted connection event)
  | _, .openIrob id deps _ _ => inferInstanceAs (Decidable (id.InRange ∧ ∀ dep ∈ deps, dep.InRange))
  | connection, .call id calling => inferInstanceAs (Decidable
      (∀ psirob ∈ (connection.outgoing.find id).bind OutgoingIrob.asSender, psirob.Allows calling))
  | connection, .sendDataCheck id => inferInstanceAs (Decidable (id ∈ connection.opened.map (·.id)))
  | connection, .arrive message => inferInstanceAs (Decidable (message ∈ connection.wire))
  | connection, .dataCheck id => inferInstanceAs (Decidable (id ∈ connection.checks))
  | connection, .sendRequest id request =>
      inferInstanceAs (Decidable ((id, request) ∈ connection.scheduled))
  | connection, .resendRequest request => inferInstanceAs (Decidable (request ∈ connection.requests))
  | _, .sendBegin _ => .isTrue trivial
  | _, .sendEnd _ => .isTrue trivial
  | _, .recv _ _ => .isTrue trivial
  | _, .ack _ => .isTrue trivial

variable {connection after : Connection}

/-- Acting on an IROB leaves everything as it is or finds the IROB. -/
theorem withSender_cases {id : IrobId}
    {act : SenderIrob → Option Connection} (moved : connection.withSender id act = some after) :
    after = connection ∨ ∃ pirob psirob, connection.outgoing.find id = some pirob ∧
      OutgoingIrob.asSender pirob = some psirob ∧ act psirob = some after := by
  unfold withSender at moved
  cases found : connection.outgoing.find id with
  | none =>
      rw [found] at moved
      exact .inl (Option.some.inj moved).symm
  | some pirob =>
      rw [found] at moved
      obtain ⟨psirob, same, acted⟩ := Option.bind_eq_some_iff.mp moved
      exact .inr ⟨pirob, psirob, rfl, same, acted⟩

/-- Acting on an IROB of the sender leaves the receiver alone. -/
theorem withSender_receiver {id : IrobId} {act : SenderIrob → Option Connection}
    (moved : connection.withSender id act = some after)
    (keeps : ∀ psirob next, act psirob = some next → next.receiver = connection.receiver) :
    after.receiver = connection.receiver := by
  rcases withSender_cases moved with rfl | ⟨pirob, psirob, -, -, acted⟩
  · rfl
  · exact keeps psirob after acted

/-- What happens at the sender leaves the receiver alone. -/
theorem step_receiver {event : ConnectionEvent} (elsewhere : event.atReceiver = false)
    (moved : connection.step event = some after) : after.receiver = connection.receiver := by
  cases event with
  | openIrob id deps data sendLabels =>
      obtain ⟨inserted, -, storing⟩ := Option.bind_eq_some_iff.mp moved
      obtain ⟨kept, -, rfl⟩ := Option.map_eq_some_iff.mp storing
      rfl
  | call id calling =>
      apply withSender_receiver moved
      intro psirob next acted
      obtain ⟨result, -, rfl⟩ := Option.map_eq_some_iff.mp acted
      rfl
  | sendBegin id =>
      apply withSender_receiver moved
      intro psirob next acted
      cases acted
      rfl
  | sendEnd id =>
      apply withSender_receiver moved
      intro psirob next acted
      cases acted
      split_ifs <;> rfl
  | sendDataCheck id =>
      cases moved
      rfl
  | arrive message => cases elsewhere
  | recv len flags => cases elsewhere
  | dataCheck id => cases elsewhere
  | sendRequest id request =>
      cases moved
      rfl
  | resendRequest request =>
      apply withSender_receiver moved
      intro psirob next acted
      obtain ⟨result, -, rfl⟩ := Option.map_eq_some_iff.mp acted
      rfl
  | ack id =>
      apply withSender_receiver moved
      intro psirob next acted
      cases acted
      split_ifs <;> rfl

end Connection

end Libcmm
