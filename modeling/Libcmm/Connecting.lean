import Libcmm.Bootstrapping
import Libcmm.NetworkChooser
import Libcmm.Pipes

/-! # A csocket is connected (`csocket.cpp`, `cmm_internal_listener.cpp`)

One end opens a connection to the listener of the other one and writes a NEW_INTERFACE
message. The listener reads it and makes a csocket of its own. A HELLO confirms that, and from
then on the worker threads of both csockets use the connection. The HELLO is written by the
receiver thread of the multisocket that `cmm_accept` has made, whichever end it is at.

The listener and the two workers of each csocket run at the same time. A call that sends may
be done in part, and fails once the connection is cut. What happens to a descriptor whose
number is used again after `close` is not part of this.
-/

namespace Libcmm

open Lib

/-- Where a sender thread is: in `phys_connect`, in the loop of `CSocketSender::Run`, or
behind it. -/
inductive SenderStage where
  | absent
  | connects
  | announces
  | awaitsHello
  | confirmed
  | waits
  | works
  | ended
  deriving DecidableEq

/-- Where a receiver thread is: in `send_confirmation`, before it sets its flag, in
`wait_until_connected`, in the loop of `CSocketReceiver::Run`, or behind it. -/
inductive ReceiverStage where
  | absent
  | confirms
  | confirmed
  | waits
  | reads
  | ended
  deriving DecidableEq

/-- The turn of the loop of `ListenerThread::Run` that takes the connection. -/
inductive ListenerStage where
  | listens
  | accepted
  | done
  deriving DecidableEq

/-- A `CSocket` and its workers. `written` records what its sender was to write, and
`dispatched` what its receiver has read. -/
structure CsockEnd where
  ifacePair : IfacePair
  sender : SenderStage
  receiver : ReceiverStage
  isOpen : Bool
  connected : Bool
  connectionFailed : Bool
  written : List Composite
  dispatched : List WireMessage

/-- The csocket that connects, the one the listener makes, the bytes under way to each of
them, and whether they are connected to each other. -/
structure CsockLink where
  opener : CsockEnd
  acceptor : CsockEnd
  toOpener : List Byte
  toAcceptor : List Byte
  established : Bool
  listener : ListenerStage

/-- What happens. The acceptor is the side `true`. -/
inductive LinkEvent where
  | connect (ok : Bool)
  | announce (accepted : Nat)
  | recvHello (got : Nat)
  | accept (known : Bool)
  | addConnection (localIface : Option NetInterface)
  | confirm (side : Bool) (accepted : Nat)
  | setConnected (side ofSender : Bool)
  | wake (side ofSender : Bool)
  | write (side : Bool) (composite : Composite) (accepted : Nat)
  | receive (side : Bool)
  | finish (side ofSender : Bool)
  | update (side isLocal : Bool) (iface : NetInterface)
  | cut

namespace CsockEnd

/-- Nothing yet. -/
def absent : CsockEnd :=
  ⟨(sentinel, sentinel), .absent, .absent, false, false, false, [], []⟩

/-- `CSocket::create` and `startup_workers`. -/
def create (ifacePair : IfacePair) (accepting acceptingSide : Bool) : CsockEnd where
  ifacePair := ifacePair
  sender := if accepting then .waits else .connects
  receiver := if acceptingSide then .confirms else .waits
  isOpen := true
  connected := false
  connectionFailed := false
  written := []
  dispatched := []

variable (csock : CsockEnd)

/-- The handler of an exception in `phys_connect`, after which the sender thread ends. -/
def connectFails : CsockEnd :=
  { csock with sender := .ended, isOpen := false, connectionFailed := true }

/-- `send_confirmation` fails; the receiver thread goes on all the same. -/
def confirmFails : CsockEnd :=
  { csock with receiver := .reads, isOpen := false, connectionFailed := true }

/-- `wait_until_connected` returns to a sender. -/
def wakeSender : CsockEnd :=
  { csock with sender := if csock.connectionFailed then .ended else .works }

/-- `wait_until_connected` returns to a receiver. -/
def wakeReceiver : CsockEnd :=
  { csock with receiver := if csock.connectionFailed then .ended else .reads }

/-- `CSockMapping::setup` finds the csocket by the address of an interface. -/
def update (isLocal : Bool) (iface : NetInterface) : CsockEnd :=
  if isLocal then
    if csock.ifacePair.1.ipAddr = iface.ipAddr then
      { csock with ifacePair := (iface, csock.ifacePair.2) }
    else csock
  else if csock.ifacePair.2.ipAddr = iface.ipAddr then
    { csock with ifacePair := (csock.ifacePair.1, iface) }
  else csock

end CsockEnd

namespace CsockLink

variable (platform : Platform) (link : CsockLink)

/-- The message of `phys_connect`. -/
def announcement (iface : NetInterface) : List Byte :=
  platform.store ⟨0, .newInterface iface.ipAddr (platform.net iface.bandwidthDown)
    (platform.net iface.bandwidthUp) (platform.net iface.rtt) (platform.net iface.type)⟩

/-- The message of `send_confirmation`: all of it is zero. -/
def hello : List Byte := List.replicate platform.hdrSize 0

/-- One of the two csockets. -/
def csock : Bool → CsockEnd
  | false => link.opener
  | true => link.acceptor

def setCsock (csock : CsockEnd) : Bool → CsockLink
  | false => { link with opener := csock }
  | true => { link with acceptor := csock }

/-- The bytes under way to a csocket. -/
def bytes : Bool → List Byte
  | false => link.toOpener
  | true => link.toAcceptor

def setBytes (bytes : List Byte) : Bool → CsockLink
  | false => { link with toOpener := bytes }
  | true => { link with toAcceptor := bytes }

/-- The connection is lost, with what is under way. -/
def lose : CsockLink := { link with established := false, toOpener := [], toAcceptor := [] }

/-- A call that sends, and whether it was done in full. -/
def transmit (side : Bool) (bytes : List Byte) (accepted : Nat) : CsockLink × Bool :=
  let usable := link.established && (link.csock side).isOpen
  let before := link.bytes (!side)
  (link.setBytes (if usable then before ++ bytes.take accepted else before) (!side),
    usable && bytes.length ≤ accepted)

/-- A new csocket whose multisocket is, or is not, one that `cmm_accept` has made. -/
def opening (ifacePair : IfacePair) (acceptingSide : Bool) : CsockLink :=
  ⟨.create ifacePair false acceptingSide, .absent, [], [], false, .listens⟩

/-- One event, where `acceptingSide` says at which end the multisocket is that `cmm_accept`
has made. -/
def step (acceptingSide : Bool) : LinkEvent → Option CsockLink
  | .connect ok =>
      if link.opener.sender = .connects then
        some (if ok && link.opener.isOpen then
            { link with opener := { link.opener with sender := .announces }, established := true }
          else { link with opener := link.opener.connectFails })
      else none
  | .announce accepted =>
      if link.opener.sender = .announces then
        let (sent, done) :=
          link.transmit false (announcement platform link.opener.ifacePair.1) accepted
        some { sent with opener :=
          if done then { link.opener with sender := .awaitsHello } else link.opener.connectFails }
      else none
  | .recvHello got =>
      if link.opener.sender = .awaitsHello ∧ got ≤ platform.hdrSize ∧ got ≤ link.toOpener.length then
        some { link with
          toOpener := link.toOpener.drop got
          opener :=
            if got = platform.hdrSize ∧ platform.load (link.toOpener.take got) = .other 0 then
              { link.opener with sender := .confirmed }
            else link.opener.connectFails }
      else none
  | .accept known =>
      if link.established ∧ link.listener = .listens then
        some (if known then { link with listener := .accepted }
          else { link.lose with listener := .done })
      else none
  | .addConnection localIface =>
      if link.listener = .accepted then
        match localIface with
        | none => some { link.lose with listener := .done }
        | some localIface =>
            if platform.hdrSize ≤ link.toAcceptor.length then
              match platform.load (link.toAcceptor.take platform.hdrSize) with
              | .known ⟨_, .newInterface ipAddr bandwidthDown bandwidthUp rtt type⟩ =>
                  some { link with
                    listener := .done
                    toAcceptor := link.toAcceptor.drop platform.hdrSize
                    acceptor := .create (localIface, Bootstrapping.listener platform ipAddr
                      bandwidthDown bandwidthUp rtt type) true (!acceptingSide) }
              | _ => some { link.lose with listener := .done }
            else none
      else none
  | .confirm side accepted =>
      let csock := link.csock side
      if csock.receiver = .confirms then
        let (sent, done) := link.transmit side (hello platform) accepted
        some (sent.setCsock
          (if done then { csock with receiver := .confirmed } else csock.confirmFails) side)
      else none
  | .setConnected side ofSender =>
      let csock := link.csock side
      if ofSender then
        if csock.sender = .confirmed then
          some (link.setCsock { csock with connected := true, sender := .works } side)
        else none
      else if csock.receiver = .confirmed then
        some (link.setCsock { csock with connected := true, receiver := .reads } side)
      else none
  | .wake side ofSender =>
      let csock := link.csock side
      if csock.connected || csock.connectionFailed then
        if ofSender then
          if csock.sender = .waits then some (link.setCsock csock.wakeSender side) else none
        else if csock.receiver = .waits then some (link.setCsock csock.wakeReceiver side)
        else none
      else none
  | .write side composite accepted =>
      let csock := link.csock side
      if csock.sender = .works then
        let (sent, done) := link.transmit side (platform.written composite) accepted
        some (sent.setCsock { csock with
          written := csock.written ++ [composite]
          sender := if done then .works else .ended } side)
      else none
  | .receive side =>
      let csock := link.csock side
      if csock.receiver = .reads then
        match platform.receiveOne (link.bytes side) with
        | .ok (message, later) =>
            some ((link.setBytes later side).setCsock
              { csock with dispatched := csock.dispatched ++ [message] } side)
        -- the thread waits for more bytes
        | .error _ => none
      else none
  | .finish side ofSender =>
      let csock := link.csock side
      if ofSender then
        if csock.sender = .works then some (link.setCsock { csock with sender := .ended } side)
        else none
      else if csock.receiver = .reads then
        some (link.setCsock { csock with receiver := .ended } side)
      else none
  | .update side isLocal iface =>
      if (link.csock side).sender = .absent then none
      else some (link.setCsock ((link.csock side).update isLocal iface) side)
  | .cut => some link.lose

/-- The numbers that are written fit their fields. -/
def machine (acceptingSide : Bool) : Machine CsockLink LinkEvent where
  initial link := ∃ ifacePair, link = opening ifacePair acceptingSide
  permitted _ event := match event with
    | .write _ composite _ =>
        composite.InRange ∧ composite.deps.length * platform.idSize < 2 ^ 31
    | _ => True
  step link event := link.step platform acceptingSide event

instance (acceptingSide : Bool) :
    ∀ link event, Decidable ((machine platform acceptingSide).permitted link event)
  | _, .write _ composite _ => inferInstanceAs (Decidable
      (composite.InRange ∧ composite.deps.length * platform.idSize < 2 ^ 31))
  | _, .connect _ | _, .announce _ | _, .recvHello _ | _, .accept _ | _, .addConnection _
  | _, .confirm _ _ | _, .setConnected _ _ | _, .wake _ _ | _, .receive _ | _, .finish _ _
  | _, .update _ _ _ | _, .cut => .isTrue trivial

end CsockLink

end Libcmm
