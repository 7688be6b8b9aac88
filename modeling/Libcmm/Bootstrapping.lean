import Libcmm.Framing
import Libcmm.Lib.KeyedSet

/-! # Bootstrapping (`cmm_conn_bootstrapper.cpp`, `cmm_socket_impl.cpp`)

Before two multisockets have csockets they talk over one ordinary connection. Each says
hello, starts its csockets and lists its interfaces, and an interface with address zero
ends the list. The connecting side starts its csockets before it lists its interfaces, and
the accepting side starts its own when it has heard them.

A bootstrapper runs through its branch of `ConnBootstrapper::Run` stage by stage. What was
sent over the connection is kept in the order of sending, with how much of it the other
side has received. A step fails when a call of the kernel does, when the message is not of
the expected type, or at the end of the stream; `recv` may also return a part of a header.
The scout may take the interface of the connecting side down (`restart`). Its bootstrapper
then tries again, and connects to a new multisocket at the other side.

`offered`, `told` and `heard` record the strategy in the hello, the local interfaces when
they were listed, and the interfaces that `recv_remote_listener` has read. The sets a
multisocket starts with are not restricted.
-/

namespace Libcmm

open Lib

/-- `NetInterfaceSet`: interfaces are compared by their addresses. -/
abbrev NetInterfaceSet := KeyedSet fun iface : NetInterface => iface.ipAddr.toNat

/-- The messages of a bootstrapping connection. The port is in network byte order and is
copied as it is. -/
inductive BootMessage where
  | hello (listenPort : UInt16) (numIfaces redundancyStrategyType : UInt32)
  | newInterface (ipAddr bandwidthDown bandwidthUp rtt type : UInt32)
  deriving DecidableEq

/-- Where a bootstrapper is. The interfaces are listed under a lock, so that what is left of
the list is known once it has begun. -/
inductive BootStage where
  | absent
  | connecting
  | sendHello
  | recvHello
  | startup
  | sendListeners (left : Option (List NetInterface))
  | recvListeners
  | ended
  deriving DecidableEq

/-- `status_`: `EINPROGRESS`, zero, or `ECONNREFUSED`. -/
inductive BootStatus where
  | inProgress
  | succeeded
  | refused
  deriving DecidableEq

/-- A multisocket and its bootstrapper. `accepts` is the branch of `Run` it is in. -/
structure Bootstrapper where
  localIfaces : NetInterfaceSet
  remoteIfaces : NetInterfaceSet
  listenPort : UInt16
  remoteListenerPort : UInt16
  redundancyStrategy : Int
  accepts : Bool
  stage : BootStage
  status : BootStatus
  retry : Bool
  started : Bool
  offered : Int
  told : List NetInterface
  heard : List NetInterface

/-- Two bootstrappers, of which `true` is the one at the accepting side, what each has sent
over their connection, how much of it was received by a side, and whether a side has closed
the connection or shut it down. -/
structure Bootstrapping where
  party : Bool → Bootstrapper
  sent : Bool → List BootMessage
  received : Bool → Nat
  closed : Bool → Bool

/-- What happens. A bootstrapper that connects meets a new one. -/
inductive BootEvent where
  | noSocket
  | connectFails
  | connects (acceptor : Bootstrapper)
  | send (side done : Bool)
  | recv (side whole : Bool)
  | startup (side connected : Bool)
  | restart
  | stop (side : Bool)
  | setLocal (side : Bool) (ifaces : NetInterfaceSet)
  | setRemote (side : Bool) (ifaces : NetInterfaceSet)
  | setStrategy (side : Bool) (type : Int)

/-- `INTNW_NEVER_REDUNDANT` to `NUM_REDUNDANCY_STRATEGY_TYPES`. -/
def StrategyType (type : Int) : Prop := 0 ≤ type ∧ type < 5

instance : DecidablePred StrategyType := fun type => inferInstanceAs (Decidable (0 ≤ type ∧ type < 5))

/-- The interface that ends a list. -/
def sentinel : NetInterface := ⟨0, 0, 0, 0, 0⟩

namespace Bootstrapper

/-- A multisocket that has just accepted a connection. -/
def Fresh (bootstrapper : Bootstrapper) : Prop :=
  bootstrapper.accepts = true ∧ bootstrapper.stage = .recvHello ∧
    bootstrapper.status = .inProgress ∧ bootstrapper.retry = false ∧
    bootstrapper.started = false ∧ bootstrapper.heard = [] ∧ bootstrapper.told = [] ∧
    StrategyType bootstrapper.redundancyStrategy

instance : DecidablePred Fresh := fun bootstrapper => inferInstanceAs (Decidable
  (bootstrapper.accepts = true ∧ bootstrapper.stage = .recvHello ∧
    bootstrapper.status = .inProgress ∧ bootstrapper.retry = false ∧
    bootstrapper.started = false ∧ bootstrapper.heard = [] ∧ bootstrapper.told = [] ∧
    StrategyType bootstrapper.redundancyStrategy))

/-- The handler of an exception in `Run`. -/
def thrown (bootstrapper : Bootstrapper) : Bootstrapper :=
  if bootstrapper.retry then
    { bootstrapper with stage := .connecting, accepts := false, retry := false, status := .inProgress }
  else { bootstrapper with
    stage := .ended
    status := if bootstrapper.status = .inProgress then .inProgress else .refused }

/-- The end of the `try` block. If `retry` was set meanwhile the loop starts again, with the
socket it has. -/
def succeed (bootstrapper : Bootstrapper) : Bootstrapper :=
  if bootstrapper.retry then
    { bootstrapper with stage := .recvHello, accepts := true, retry := false, status := .succeeded }
  else { bootstrapper with stage := .ended, status := .succeeded }

/-- What `Run` does next, in the branch of the accepting side or the other one. -/
def next (accepts : Bool) (stage : BootStage) : Option BootStage :=
  match accepts, stage with
  | true, .recvHello => some .sendHello
  | true, .sendHello => some .recvListeners
  | true, .recvListeners => some .startup
  | true, .sendListeners _ => none
  | false, .sendHello => some .recvHello
  | false, .recvHello => some .startup
  | false, .sendListeners _ => some .recvListeners
  | false, .recvListeners => none
  | _, .startup => some (.sendListeners none)
  | _, stage => some stage

/-- A step was successful. -/
def onward (bootstrapper : Bootstrapper) : Bootstrapper :=
  match next bootstrapper.accepts bootstrapper.stage with
  | some stage => { bootstrapper with stage := stage }
  | none => bootstrapper.succeed

end Bootstrapper

namespace Bootstrapping

variable (platform : Platform)

/-- `CMMSocketImpl::send_hello`. -/
def helloMessage (bootstrapper : Bootstrapper) : BootMessage :=
  .hello bootstrapper.listenPort (platform.net bootstrapper.localIfaces.toList.length)
    (platform.net bootstrapper.redundancyStrategy)

/-- `CMMSocketImpl::send_local_listener`. -/
def listenerMessage (iface : NetInterface) : BootMessage :=
  .newInterface iface.ipAddr (platform.net iface.bandwidthDown) (platform.net iface.bandwidthUp)
    (platform.net iface.rtt) (platform.net iface.type)

/-- The interface that `recv_remote_listener` reads. -/
def listener (ipAddr bandwidthDown bandwidthUp rtt type : UInt32) : NetInterface :=
  ⟨ipAddr, platform.host bandwidthDown, platform.host bandwidthUp, platform.host rtt,
    toInt (platform.host type)⟩

variable (boot : Bootstrapping)

/-- A bootstrapper goes on, after it has said something or has received some messages. A
socket is closed at the end, and before another attempt. -/
def advance (side : Bool) (said : List BootMessage) (got : Nat) (after : Bootstrapper) :
    Bootstrapping where
  party := Function.update boot.party side after
  sent := Function.update boot.sent side (boot.sent side ++ said)
  received := Function.update boot.received side (boot.received side + got)
  closed := Function.update boot.closed side
    (boot.closed side || after.stage == .ended || after.stage == .connecting)

/-- A step of a bootstrapper throws. -/
def throws (side : Bool) : Bootstrapping := boot.advance side [] 0 (boot.party side).thrown

/-- A message is sent, unless the socket was shut down. -/
def sends (side done : Bool) (message : BootMessage) (after : Bootstrapper) : Bootstrapping :=
  if done && !boot.closed side then boot.advance side [message] 0 after else boot.throws side

/-- The next message that is under way to a side. -/
def arriving (side : Bool) : Option BootMessage := (boot.sent (!side))[boot.received side]?

/-- What a bootstrapper takes from a hello. -/
def greet (side : Bool) (listenPort : UInt16) (type : Int) (bootstrapper : Bootstrapper) :
    Bootstrapper :=
  { bootstrapper with
    remoteListenerPort := listenPort
    redundancyStrategy := if side then type else bootstrapper.redundancyStrategy }

/-- `recv_hello` of a message. -/
def recvHello (side : Bool) (message : BootMessage) : Bootstrapping :=
  match message with
  | .hello listenPort _ redundancyStrategyType =>
      boot.advance side [] 1
        (greet side listenPort (toInt (platform.host redundancyStrategyType))
          (boot.party side)).onward
  | .newInterface _ _ _ _ _ => boot.throws side

/-- `recv_remote_listener` of a message. Only the accepting side keeps the interface. -/
def recvRemoteListener (side : Bool) (message : BootMessage) : Bootstrapping :=
  match message with
  | .newInterface ipAddr bandwidthDown bandwidthUp rtt type =>
      let iface := listener platform ipAddr bandwidthDown bandwidthUp rtt type
      if ipAddr = 0 then boot.advance side [] 1 (boot.party side).onward
      else boot.advance side [] 1 { boot.party side with
        heard := (boot.party side).heard ++ [iface]
        remoteIfaces :=
          if side then ((boot.party side).remoteIfaces.erase iface.ipAddr.toNat).insert iface
          else (boot.party side).remoteIfaces }
  | .hello _ _ _ => boot.throws side

/-- One event. -/
def step : BootEvent → Option Bootstrapping
  | .noSocket =>
      if (boot.party false).stage = .connecting then
        some (boot.advance false [] 0 { boot.party false with stage := .ended })
      else none
  | .connectFails =>
      if (boot.party false).stage = .connecting then
        some (boot.advance false [] 0 { boot.party false with status := .refused }.thrown)
      else none
  | .connects acceptor =>
      if (boot.party false).stage = .connecting ∧ (boot.party false).localIfaces.toList ≠ [] then
        some ⟨fun side => if side then acceptor else { boot.party false with
            stage := .sendHello, started := false, heard := [], told := [] },
          fun _ => [], fun _ => 0, fun _ => false⟩
      else none
  | .send side done =>
      let party := boot.party side
      match party.stage with
      | .sendHello => some (boot.sends side done (helloMessage platform party)
          { party with offered := party.redundancyStrategy }.onward)
      | .sendListeners left =>
          -- the list is what it is when the lock is taken
          let told := if left.isNone then party.localIfaces.toList else party.told
          match left.getD (party.localIfaces.toList ++ [sentinel]) with
          | [] => none
          | [last] => some (boot.sends side done (listenerMessage platform last)
              { party with told := told }.onward)
          | next :: rest => some (boot.sends side done (listenerMessage platform next)
              { party with told := told, stage := .sendListeners (some rest) })
      | _ => none
  | .recv side whole =>
      match (boot.party side).stage, boot.arriving side with
      | .recvHello, some message =>
          some (if whole then recvHello platform boot side message else boot.throws side)
      | .recvListeners, some message =>
          some (if whole then recvRemoteListener platform boot side message else boot.throws side)
      | .recvHello, none | .recvListeners, none =>
          -- the end of the stream, or an error
          if boot.closed side || boot.closed (!side) || !whole then some (boot.throws side) else none
      | _, _ => none
  | .startup side connected =>
      if (boot.party side).stage = .startup then
        some (if connected then
            boot.advance side [] 0 { boot.party side with started := true }.onward
          else boot.throws side)
      else none
  | .restart =>
      if (boot.party false).stage = .absent ∨ (boot.party false).stage = .ended then some boot
      else some { boot with
        party := Function.update boot.party false { boot.party false with retry := true }
        closed := Function.update boot.closed false true }
  | .stop side => some { boot with closed := Function.update boot.closed side true }
  | .setLocal side ifaces =>
      match (boot.party side).stage with
      | .sendListeners (some _) => none
      | _ => some { boot with
          party := Function.update boot.party side { boot.party side with localIfaces := ifaces } }
  | .setRemote side ifaces => some { boot with
      party := Function.update boot.party side { boot.party side with remoteIfaces := ifaces } }
  | .setStrategy side type => some { boot with
      party := Function.update boot.party side { boot.party side with redundancyStrategy := type } }

/-- A multisocket is about to connect. Strategies are of a known type and set at its side,
and a connection is accepted by a new multisocket. -/
def machine : Machine Bootstrapping BootEvent where
  initial boot := (boot.party false).stage = .connecting ∧ (boot.party false).accepts = false ∧
    (boot.party false).status = .inProgress ∧ StrategyType (boot.party false).redundancyStrategy ∧
    (boot.party true).stage = .absent ∧ (boot.party true).status = .inProgress ∧
    (boot.party true).retry = false ∧ (boot.party true).started = false ∧
    boot.closed false = true ∧ ∀ side, boot.sent side = [] ∧ boot.received side = 0
  permitted _ event := match event with
    | .connects acceptor => acceptor.Fresh
    | .setStrategy side type => side = false ∧ StrategyType type
    | _ => True
  step := step platform

end Bootstrapping

end Libcmm
