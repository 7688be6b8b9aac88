import Libcmm.Announcing
import Libcmm.Connection
import Libcmm.Pipes

/-! # Two endpoints and the bytes between them

Both endpoints send and receive IROBs, over any number of csockets. A csocket carries bytes
in both directions, each in order. A sender thread puts the messages of one of its
functions into one write, of which the last bytes may not be accepted; then it gives the
csocket up. A receiver thread takes one message after the other off the bytes that have
arrived and calls its handler. A csocket may fail at any time, with all that is under way.

What is sent in one direction is a `Connection`. Its `wire`, `checks` and `requests` record
what has been written so far; no step reads them.
-/

namespace Libcmm

open Lib

/-- The connections in the two directions, each named after the endpoint that sends IROBs
in it, the bytes under way to an endpoint, and where an endpoint still writes. -/
structure Session where
  direction : Bool → Connection
  bytes : CSocketId → Bool → List Byte
  writable : CSocketId → Bool → Bool

/-- A function of `CSocketSender`, with what it is called for. With `whole`, `begin_irob`
finds that it can send all of a small IROB. -/
inductive SenderWork where
  | beginIrob (id : IrobId) (whole : Bool)
  | irobChunk (id : IrobId) (chunksize : Int) (waitingAckIrob : IrobId) (qdelay : Timeval)
  | endIrob (id : IrobId)
  | sendAcks (id : IrobId) (ackedIrobs : List IrobId) (srvTime qdelay : Timeval)
  | resendRequest (id : IrobId) (request : ResendRequestType)
  | sendDataCheck (id : IrobId)
  | newInterface (iface : NetInterface)
  | downInterface (iface : NetInterface)
  | goodbye

/-- What happens at an endpoint, or to a csocket. -/
inductive SessionEvent where
  | openIrob (side : Bool) (id : IrobId) (deps : List IrobId) (data : List Byte) (sendLabels : Nat)
  | call (side : Bool) (id : IrobId) (calling : SenderCall)
  | recv (side : Bool) (len : Nat) (flags : RecvFlags)
  | write (side : Bool) (csock : CSocketId) (work : SenderWork) (accepted : Nat)
  | receive (side : Bool) (csock : CSocketId)
  | ackHeader (side : Bool) (csock : CSocketId)
  | fail (csock : CSocketId)

/-- A call that is made in order to write. -/
def SenderCall.writes : SenderCall → Bool
  | .getReadyBytes _ _ | .getLastSentChunk _ => true
  | _ => false

/-- The message about an IROB that a handler is given. -/
def WireMessage.irobMessage (message : WireMessage) : Option Message :=
  match message.content with
  | .beginIrob id deps => some (.beginIrob id deps message.sendLabels.toNat)
  | .irobChunk id seqno offset data => some (.irobChunk id seqno.toNat offset.toNat data)
  | .endIrob id expectedBytes expectedChunks => some (.endIrob id expectedBytes expectedChunks)
  | _ => none

namespace Connection

open SenderIrob

/-- Messages are written. -/
def record (connection : Connection) (messages : List Message) : Connection :=
  { connection with wire := messages ++ connection.wire }

/-- `CSocketSender::begin_irob`, what it does to the IROB and what it writes. -/
def buildBegin (connection : Connection) (csock : CSocketId) (id : IrobId) (whole : Bool) :
    Option (Connection × Option Composite) :=
  match connection.outgoing.find id with
  | none => some (connection, none)
  | some pirob => (OutgoingIrob.asSender pirob).bind fun psirob =>
      if whole && psirob.complete then
        (psirob.getReadyBytes csock psirob.expectedBytes).bind fun (sent, transmission) =>
          -- ASSERT(psirob->all_bytes_chunked())
          if !sent.allBytesChunked then none
          else if transmission.bytes.isEmpty then
            some ((connection.store sent).record [sent.beginMessage],
              some (.beginIrob sent.sendLabels id sent.deps.toList none))
          else some
            ((connection.store sent).record
              [sent.endMessage, sent.beginMessage, sent.chunkMessage transmission],
            some (.beginIrob sent.sendLabels id sent.deps.toList
              (some (transmission, sent.expectedBytes, sent.numSenderChunks))))
      else some (connection.record [psirob.beginMessage],
        some (.beginIrob psirob.sendLabels id psirob.deps.toList none))

/-- `CSocketSender::irob_chunk`. -/
def buildChunk (connection : Connection) (csock : CSocketId) (id : IrobId) (chunksize : Int)
    (waitingAckIrob : IrobId) (qdelay : Timeval) : Option (Connection × Option Composite) :=
  match connection.outgoing.find id with
  | none => some (connection, none)
  | some pirob => (OutgoingIrob.asSender pirob).bind fun psirob =>
      (psirob.getReadyBytes csock chunksize).map fun (sent, transmission) =>
        if transmission.bytes.isEmpty then (connection.store sent, none)
        else ((connection.store sent).record [sent.chunkMessage transmission],
          some (.irobChunk waitingAckIrob qdelay sent.sendLabels id transmission))

/-- `CSocketSender::end_irob`. -/
def buildEnd (connection : Connection) (id : IrobId) : Option (Connection × Option Composite) :=
  match connection.outgoing.find id with
  | none => some (connection, none)
  | some pirob => (OutgoingIrob.asSender pirob).map fun psirob =>
      (connection.record [psirob.endMessage],
        some (.endIrob psirob.sendLabels id psirob.expectedBytes psirob.numSenderChunks))

/-- `CSocketSender::send_data_check`: the next chunk of the IROB, or the last one again, goes
with it. -/
def buildDataCheck (connection : Connection) (csock : CSocketId) (id : IrobId) :
    Option (Connection × Option Composite) :=
  let checking := { connection with checks := id :: connection.checks }
  match connection.outgoing.find id with
  | none => some (checking, some (.sendDataCheck id none))
  | some pirob => (OutgoingIrob.asSender pirob).bind fun psirob =>
      (psirob.getReadyBytes csock minChunksize).bind fun (sent, transmission) =>
        (if transmission.data.isEmpty then sent.getLastSentChunk csock
          else some (some transmission)).map fun chunk =>
            let present := chunk.filter fun probe => !probe.data.isEmpty
            ((checking.store sent).record
              ((if sent.ends then [sent.endMessage] else []) ++
                sent.beginMessage :: chunk.toList.map sent.chunkMessage),
              some (.sendDataCheck id (some ⟨sent.sendLabels, sent.deps.toList, present,
                if sent.ends then some (sent.expectedBytes, sent.numSenderChunks) else none⟩)))

/-- `CSocketSender::resend_request`, at the receiver of the IROBs. -/
def buildRequest (connection : Connection) (id : IrobId) (request : ResendRequestType) :
    Connection × Option Composite :=
  let prirob : Option ReceiverIrob := connection.receiver.lattice.irobs.find id
  ({ connection with
    requests := connection.receiver.lattice.resendRequest id request ++ connection.requests },
    some (.resendRequest id request ((prirob.map ReceiverIrob.getMissingChunks).getD [])
      (prirob.map ReceiverIrob.nextChunkSeqno)))

end Connection

namespace Session

/-- Nothing has happened yet, and no csocket has failed. -/
def initial : Session := ⟨fun _ => .empty, fun _ _ => [], fun _ _ => true⟩

/-- One direction becomes another connection. -/
def setDirection (session : Session) (side : Bool) (connection : Connection) : Session :=
  { session with direction := Function.update session.direction side connection }

/-- Bytes that are under way to an endpoint. -/
def setBytes (session : Session) (csock : CSocketId) (side : Bool) (bytes : List Byte) : Session :=
  { session with
    bytes := Function.update session.bytes csock (Function.update (session.bytes csock) side bytes) }

/-- A csocket is gone. -/
def close (session : Session) (csock : CSocketId) : Session :=
  { session with
    bytes := Function.update session.bytes csock fun _ => []
    writable := Function.update session.writable csock fun _ => false }

/-- `write` on a csocket. A sender whose write is not done in full stops. -/
def put (session : Session) (csock : CSocketId) (side : Bool) (bytes : List Byte) (accepted : Nat) :
    Session :=
  let sent := session.setBytes csock (!side) (session.bytes csock (!side) ++ bytes.take accepted)
  let still := Function.update (session.writable csock) side (bytes.length ≤ accepted)
  { sent with writable := Function.update session.writable csock still }

/-- A function of a sender thread up to its write. -/
def build (session : Session) (side : Bool) (csock : CSocketId) :
    SenderWork → Option (Session × Option Composite)
  | .beginIrob id whole => ((session.direction side).buildBegin csock id whole).map fun built =>
      (session.setDirection side built.1, built.2)
  | .irobChunk id chunksize waitingAckIrob qdelay =>
      ((session.direction side).buildChunk csock id chunksize waitingAckIrob qdelay).map fun built =>
        (session.setDirection side built.1, built.2)
  | .endIrob id => ((session.direction side).buildEnd id).map fun built =>
      (session.setDirection side built.1, built.2)
  | .sendDataCheck id => ((session.direction side).buildDataCheck csock id).map fun built =>
      (session.setDirection side built.1, built.2)
  | .resendRequest id request =>
      let built := (session.direction (!side)).buildRequest id request
      some (session.setDirection (!side) built.1, built.2)
  | .sendAcks id ackedIrobs srvTime qdelay => some (session, some (.sendAcks id ackedIrobs srvTime qdelay))
  | .newInterface iface => some (session, some (.newInterface iface))
  | .downInterface iface => some (session, some (.downInterface iface))
  | .goodbye => some (session, some .goodbye)

/-- The handler of a message, and whether it throws. -/
def handle (session : Session) (side : Bool) (message : WireMessage) : Option (Session × Bool) :=
  match message.irobMessage with
  | some carrying => ((session.direction (!side)).receiver.receive carrying).map fun result =>
      (session.setDirection (!side) { session.direction (!side) with receiver := result.1 },
        result.2 == .controlException || result.2 == .fatalError)
  | none => match message.content with
    | .dataCheck id =>
        some (session.setDirection (!side) ((session.direction (!side)).dataCheckRequested id), false)
    | .resendRequest id request seqno nextChunk =>
        ((session.direction side).resendRequestReceived ⟨id, request, seqno.toNat, nextChunk⟩).map
          fun after => (session.setDirection side after, false)
    | .ack id ackedIrobs _ _ =>
        ((id :: ackedIrobs).foldlM Connection.ackReceived (session.direction side)).map
          fun after => (session.setDirection side after, false)
    | _ => some (session, false)

/-- One event. -/
def step (platform : Platform) (session : Session) : SessionEvent → Option Session
  | .openIrob side id deps data sendLabels =>
      ((session.direction side).step (.openIrob id deps data sendLabels)).map
        (session.setDirection side)
  | .call side id calling =>
      ((session.direction side).step (.call id calling)).map (session.setDirection side)
  | .recv side len flags =>
      ((session.direction (!side)).step (.recv len flags)).map (session.setDirection (!side))
  | .write side csock work accepted =>
      if session.writable csock side then
        (session.build side csock work).map fun built => match built.2 with
          | none => built.1
          | some composite => built.1.put csock side (platform.written composite) accepted
      else some session
  | .receive side csock => match platform.receiveOne (session.bytes csock side) with
      -- the thread waits for more bytes
      | .error _ => some session
      | .ok (message, later) => (session.handle side message).map fun handled =>
          if handled.2 then handled.1.close csock else handled.1.setBytes csock side later
  | .ackHeader side csock =>
      -- `do_ack` acknowledges the IROB in the header before it reads the others
      match platform.load ((session.bytes csock side).take platform.hdrSize) with
      | .known ⟨_, .ack _ id _ _ _ _⟩ =>
          if platform.hdrSize ≤ (session.bytes csock side).length then
            ((session.direction side).ackReceived (platform.host id)).map (session.setDirection side)
          else some session
      | _ => some session
  | .fail csock => some (session.close csock)

/-- The IROBs for which the receiver has scheduled an acknowledgment. -/
def acks (session : Session) (side : Bool) : List IrobId :=
  (session.direction (!side)).receiver.history.filterMap fun
    | .acknowledged id => some id
    | _ => none

/-- The tasks a sender thread may be given: they are about IROBs that were opened or
acknowledged and about requests that were scheduled. The `End_IROB` of an IROB is scheduled
once it has an end. -/
def Scheduled (session : Session) (side : Bool) : SenderWork → Prop
  | .beginIrob id _ | .sendDataCheck id => id ∈ (session.direction side).opened.map (·.id)
  | .irobChunk id _ waitingAckIrob _ => id ∈ (session.direction side).opened.map (·.id) ∧
      (waitingAckIrob = -1 ∨ waitingAckIrob ∈ session.acks side)
  | .endIrob id => id ∈ (session.direction side).opened.map (·.id) ∧
      ∀ psirob ∈ ((session.direction side).outgoing.find id).bind OutgoingIrob.asSender, psirob.ends = true
  | .sendAcks id ackedIrobs _ _ => ∀ acked ∈ id :: ackedIrobs, acked ∈ session.acks side
  | .resendRequest id request => (id, request) ∈ (session.direction (!side)).scheduled
  | _ => True

/-- The numbers that are written fit their fields, and the size of an array of dependencies
fits an `int`. -/
def Fits (platform : Platform) (session : Session) (side : Bool) (csock : CSocketId)
    (work : SenderWork) : Prop :=
  ∀ built ∈ session.build side csock work, ∀ composite ∈ built.2,
    composite.InRange ∧ composite.deps.length * platform.idSize < 2 ^ 31

instance (session : Session) (side : Bool) : DecidablePred (session.Scheduled side)
  | .beginIrob id _ | .sendDataCheck id =>
      inferInstanceAs (Decidable (id ∈ (session.direction side).opened.map (·.id)))
  | .irobChunk id _ waitingAckIrob _ => inferInstanceAs (Decidable
      (id ∈ (session.direction side).opened.map (·.id) ∧
        (waitingAckIrob = -1 ∨ waitingAckIrob ∈ session.acks side)))
  | .endIrob id => inferInstanceAs (Decidable (id ∈ (session.direction side).opened.map (·.id) ∧
      ∀ psirob ∈ ((session.direction side).outgoing.find id).bind OutgoingIrob.asSender,
        psirob.ends = true))
  | .sendAcks id ackedIrobs _ _ => inferInstanceAs (Decidable
      (∀ acked ∈ id :: ackedIrobs, acked ∈ session.acks side))
  | .resendRequest id request => inferInstanceAs (Decidable
      ((id, request) ∈ (session.direction (!side)).scheduled))
  | .newInterface _ | .downInterface _ | .goodbye => .isTrue trivial

instance (platform : Platform) (session : Session) (side : Bool) (csock : CSocketId)
    (work : SenderWork) : Decidable (session.Fits platform side csock work) :=
  inferInstanceAs (Decidable (∀ built ∈ session.build side csock work, ∀ composite ∈ built.2,
    composite.InRange ∧ composite.deps.length * platform.idSize < 2 ^ 31))

/-- Identifiers are in range, and threads work on what is scheduled. -/
def machine (platform : Platform) : Machine Session SessionEvent where
  initial session := session = initial
  permitted session event := match event with
    | .openIrob _ id deps _ _ => id.InRange ∧ ∀ dep ∈ deps, dep.InRange
    | .call side id calling => calling.writes = false ∧
        Connection.machine.permitted (session.direction side) (.call id calling)
    | .write side csock work _ => session.Scheduled side work ∧ session.Fits platform side csock work
    | _ => True
  step := step platform

instance (platform : Platform) :
    ∀ session event, Decidable ((machine platform).permitted session event)
  | _, .openIrob _ id deps _ _ => inferInstanceAs (Decidable (id.InRange ∧ ∀ dep ∈ deps, dep.InRange))
  | session, .call side id calling => inferInstanceAs (Decidable (calling.writes = false ∧
      Connection.machine.permitted (session.direction side) (.call id calling)))
  | session, .write side csock work _ => inferInstanceAs (Decidable
      (session.Scheduled side work ∧ session.Fits platform side csock work))
  | _, .recv _ _ _ | _, .receive _ _ | _, .ackHeader _ _ | _, .fail _ => .isTrue trivial

/-- What the applications do, as an event of a direction. -/
def appEvent : SessionEvent → Option (Bool × ConnectionEvent)
  | .openIrob side id deps data sendLabels => some (side, .openIrob id deps data sendLabels)
  | .call side id calling => some (side, .call id calling)
  | .recv side len flags => some (!side, .recv len flags)
  | _ => none

/-- The applications keep a promise in both directions. -/
def Keeps (promise : Connection → ConnectionEvent → Prop) (session : Session) (event : SessionEvent) :
    Prop :=
  ∀ act ∈ appEvent event, promise (session.direction act.1) act.2

instance (promise : Connection → ConnectionEvent → Prop)
    [∀ connection event, Decidable (promise connection event)] (session : Session)
    (event : SessionEvent) : Decidable (session.Keeps promise event) :=
  inferInstanceAs (Decidable (∀ act ∈ appEvent event, promise (session.direction act.1) act.2))

end Session

end Libcmm
