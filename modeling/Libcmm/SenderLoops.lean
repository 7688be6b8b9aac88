import Libcmm.AckScheduling
import Libcmm.Bootstrapping

/-! # The loops of the sender threads (`csocket_sender.cpp`)

Every csocket has a sender thread, which runs `schedule_work` with the index sets of its csocket
and then with those of the multisocket, until it finds nothing in them, and then waits on
`scheduling_state_cv`. Most of this is done under `scheduling_state_lock`. The lock is given up
while a message is written, while `delegate_if_necessary` looks for another csocket, and while
thunks are fired. What is scheduled then is not announced to the thread, because it does not
wait.

Any number of threads are interleaved, with each other and with the calls of the application
and of the receiver threads that schedule work, acknowledge IROBs, or end the multisocket. What
a thread writes, and what it schedules while it handles an item, is left open.
-/

namespace Libcmm

open Lib

/-- The parts of `schedule_work`. The chunks of an IROB, and its end, are sent after
`begin_irob` (`begun`) or after `irob_chunk`. -/
inductive WorkPart where
  | acks
  | dataChecks
  | newIrobs
  | chunksOf (id : IrobId) (begun : Bool)
  | endOf (id : IrobId) (begun : Bool)
  | newChunks
  | finishedIrobs
  | resendRequests
  | changedIfaces
  | downIfaces
  deriving DecidableEq

/-- The part that comes when there is nothing left to do for this one. -/
def WorkPart.next : WorkPart → Option WorkPart
  | .acks => some .dataChecks
  | .dataChecks => some .newIrobs
  | .newIrobs => some .newChunks
  | .chunksOf id begun => some (.endOf id begun)
  | .endOf _ true => some .newChunks
  | .endOf _ false | .newChunks => some .finishedIrobs
  | .finishedIrobs => some .resendRequests
  | .resendRequests => some .changedIfaces
  | .changedIfaces => some .downIfaces
  | .downIfaces => none

/-- What was taken out of a set: the argument of `send_acks` and the acknowledgments that go with
it, of `send_data_check`, `begin_irob`, `irob_chunk` with an acknowledgment, `end_irob`,
`resend_request`, `new_interface`, and `down_interface`. -/
inductive WorkItem where
  | acks (data : IrobSchedulingData) (tmp : List IrobSchedulingData)
  | dataCheck (data : IrobSchedulingData)
  | newIrob (data : IrobSchedulingData)
  | chunk (data : IrobSchedulingData) (ack : Option IrobSchedulingData)
  | finishedIrob (data : IrobSchedulingData)
  | resendRequest (data : IrobSchedulingData)
  | changedIface (iface : NetInterface)
  | downIface (iface : NetInterface)
  deriving DecidableEq

/-- The part that comes after an item is sent. -/
def WorkPart.onward : WorkPart → WorkItem → Option WorkPart
  | .dataChecks, _ => some .dataChecks
  | .newIrobs, .newIrob data => some (.chunksOf data.id true)
  | .chunksOf id begun, _ => some (.chunksOf id begun)
  | .newChunks, .chunk data _ => some (.chunksOf data.id false)
  | part, _ => part.next

/-- Where a sender thread is. In `schedule_work` it knows whether this is the second time before
it waits, which sets it was called with, its part, and `did_something`. While it handles an item
it may hold the lock. -/
inductive LoopStage where
  | absent
  /-- in `phys_connect` -/
  | connecting
  /-- at the beginning of the loop -/
  | testing
  /-- in the write of `goodbye` -/
  | sayingGoodbye
  /-- after `goodbye` -/
  | parting
  /-- for the other side to say goodbye -/
  | waitsGoodbye
  | scheduling (again : Bool) (level : Level) (part : WorkPart) (did : Bool)
  | handling (again : Bool) (level : Level) (part : WorkPart) (did : Bool) (item : WorkItem)
      (holds : Bool)
  /-- with nothing scheduled -/
  | idle
  | firing
  | resting
  /-- in `pthread_cond_timedwait`, or in `pthread_cond_wait` -/
  | asleep (timed : Bool)
  | woken
  /-- with a `CMMControlException` -/
  | thrown
  | leaving
  | ended
  deriving DecidableEq

/-- `pthread_cond_broadcast` as a thread sees it. -/
def LoopStage.signalled : LoopStage → LoopStage
  | .asleep _ | .waitsGoodbye => .woken
  | stage => stage

/-- `schedule_work` goes on with a part, or returns. -/
def LoopStage.proceeds (again : Bool) (level : Level) (did : Bool) : Option WorkPart → LoopStage
  | some part => .scheduling again level part did
  | none =>
      if did then .testing
      else match level with
        | .csocket => .scheduling again .multisocket .acks false
        | .multisocket => if again then .resting else .idle

/-- The thread is there, and goes on without a signal. One that connects may hang. -/
def LoopStage.attends : LoopStage → Bool
  | .absent | .connecting | .asleep false | .ended => false
  | _ => true

/-- What becomes of the work of a thread that has thrown: the accepting side has other csockets,
there is a replacement, connected or not, or the multisocket is at its end. -/
inductive Successor where
  | multisocket
  | csocket (other : CSocketId)
  | nobody (accepting : Bool)
  deriving DecidableEq

/-- The scheduling state of a multisocket and its sender threads. `outgoing` are the IROBs in
`outgoing_irobs`, `receivers` the csockets with a `csock_recvr`, `trickles` the threads with a
`trickle_timeout`, and `created` the csockets whose threads were started. `delegated` records the
resend requests that a csocket was given by `delegate_resend_request_if_necessary` since its
thread waits. -/
structure SenderLoops where
  multisocket : IrobSchedulingIndexes
  csockets : CSocketId → IrobSchedulingIndexes
  changedLocalIfaces : NetInterfaceSet
  downLocalIfaces : NetInterfaceSet
  outgoing : List IrobId
  shuttingDown : Bool
  sendingGoodbye : Bool
  goodbyeSent : Bool
  remoteShutdown : Bool
  receivers : CSocketId → Bool
  trickles : CSocketId → Bool
  delegated : CSocketId → List IrobSchedulingData
  created : List CSocketId
  schedulingLock : Option CSocketId
  stages : CSocketId → LoopStage

/-- A step of a sender thread, or of another thread. -/
inductive LoopEvent where
  /-- `startup_workers` -/
  | create (csock : CSocketId)
  | connected (csock : CSocketId)
  | connectFails (csock : CSocketId) (refused : Bool)
  | test (csock : CSocketId)
  | goodbyeWritten (csock : CSocketId) (ok : Bool)
  | part (csock : CSocketId)
  | partingTimesOut (csock : CSocketId)
  | look (csock : CSocketId)
  | unlock (csock : CSocketId)
  | lock (csock : CSocketId)
  /-- work is scheduled while an item is handled, for the multisocket or for a csocket -/
  | hand (csock : CSocketId) (target : Option CSocketId) (data : IrobSchedulingData)
      (type : IndexType)
  /-- IROBs that cannot be sent are dropped -/
  | drop (csock : CSocketId) (ids : List IrobId)
  | sent (csock : CSocketId)
  /-- it is not okay to send background data -/
  | refused (csock : CSocketId)
  | unsent (csock : CSocketId)
  /-- whether the socket buffer has unsent bytes is asked -/
  | fire (csock : CSocketId) (unsentBytes : Bool)
  | fired (csock : CSocketId)
  /-- with bytes in flight and thunks that wait, the thread polls -/
  | rest (csock : CSocketId) (polls : Bool)
  /-- the time is over, or there is no reason -/
  | wake (csock : CSocketId)
  | resume (csock : CSocketId)
  | handOver (csock : CSocketId) (successor : Successor)
  /-- `CSocketSender::Finish` -/
  | finish (csock : CSocketId)
  | post (target : Option CSocketId) (data : IrobSchedulingData) (type : IndexType)
  /-- a local interface has changed, or is down -/
  | update (iface : NetInterface) (down : Bool)
  | insertIrob (target : Option CSocketId) (data : IrobSchedulingData)
  /-- an acknowledged IROB is removed -/
  | acked (id : IrobId)
  /-- `end_irob` fails, and erases its IROB -/
  | endFails (id : IrobId)
  | goodbye (remoteInitiated hosed : Bool)
  | goodbyeAcked
  /-- `CSocketReceiver::Finish` -/
  | receiverFinishes (csock : CSocketId)
  deriving DecidableEq

namespace SenderLoops

variable (state : SenderLoops)

/-! ### The parts of a step -/

/-- A thread goes on, with the lock or without. -/
def goes (csock : CSocketId) (stage : LoopStage) (holds : Bool) : SenderLoops :=
  { state with
    stages := Function.update state.stages csock stage
    schedulingLock := if holds then some csock else none }

/-- `pthread_cond_broadcast`. -/
def broadcast : SenderLoops :=
  { state with stages := fun csock => (state.stages csock).signalled }

/-- The index sets of a level, as a thread sees them. -/
def indexes (csock : CSocketId) : Level → IrobSchedulingIndexes
  | .csocket => state.csockets csock
  | .multisocket => state.multisocket

def setIndexes (csock : CSocketId) (level : Level) (indexes : IrobSchedulingIndexes) :
    SenderLoops :=
  match level with
  | .csocket => { state with csockets := Function.update state.csockets csock indexes }
  | .multisocket => { state with multisocket := indexes }

/-- Work is scheduled for the multisocket or for a csocket. -/
def schedule (target : Option CSocketId) (data : IrobSchedulingData) (type : IndexType) :
    SenderLoops :=
  match target with
  | none => { state with multisocket := state.multisocket.insert data type }
  | some csock => { state with
      csockets := Function.update state.csockets csock ((state.csockets csock).insert data type) }

/-- `CSocketSender::nothingToSend`. -/
def nothingToSend (csock : CSocketId) : Bool :=
  (state.csockets csock).waitingAcks.tasks.isEmpty && state.multisocket.waitingAcks.tasks.isEmpty &&
    (state.csockets csock).resendRequests.tasks.isEmpty &&
    state.multisocket.resendRequests.tasks.isEmpty && state.outgoing.isEmpty &&
    state.downLocalIfaces.toList.isEmpty &&
    (state.csockets csock).waitingDataChecks.tasks.isEmpty &&
    state.multisocket.waitingDataChecks.tasks.isEmpty

/-- The multisocket is at its end. -/
def kill : SenderLoops :=
  { state with shuttingDown := true, remoteShutdown := true, goodbyeSent := true }

/-- A thread goes on in `schedule_work`. -/
def proceeds (csock : CSocketId) (again : Bool) (level : Level) (did : Bool)
    (part : Option WorkPart) : SenderLoops :=
  state.goes csock (.proceeds again level did part) true

/-- A chunk is taken, and an acknowledgment to go with it. -/
def takeChunk (csock : CSocketId) (level : Level) (data : IrobSchedulingData)
    (rest : IrobPrioritySet) : SenderLoops × WorkItem :=
  let indexes := { state.indexes csock level with newChunks := rest }
  match indexes.waitingAcks.pop with
  | none => (state.setIndexes csock level indexes, .chunk data none)
  | some (ack, others) =>
      (state.setIndexes csock level { indexes with waitingAcks := others }, .chunk data (some ack))

/-- A part takes an item out of its set, if there is one. -/
def take (csock : CSocketId) (level : Level) (part : WorkPart) : Option (SenderLoops × WorkItem) :=
  let indexes := state.indexes csock level
  match part with
  | .acks => indexes.waitingAcks.pop.map fun (data, rest) =>
      (state.setIndexes csock level
          { indexes with waitingAcks := ⟨rest.tasks.drop Senders.maxAcks⟩ },
        .acks data (rest.tasks.take Senders.maxAcks))
  | .dataChecks => indexes.waitingDataChecks.pop.map fun (data, rest) =>
      (state.setIndexes csock level { indexes with waitingDataChecks := rest }, .dataCheck data)
  | .newIrobs => indexes.newIrobs.pop.map fun (data, rest) =>
      (state.setIndexes csock level { indexes with newIrobs := rest }, .newIrob data)
  | .chunksOf id _ => (indexes.newChunks.remove id).map fun (data, rest) =>
      state.takeChunk csock level data rest
  | .endOf id _ => (indexes.finishedIrobs.remove id).map fun (data, rest) =>
      (state.setIndexes csock level { indexes with finishedIrobs := rest }, .finishedIrob data)
  | .newChunks => indexes.newChunks.pop.map fun (data, rest) =>
      state.takeChunk csock level data rest
  | .finishedIrobs => indexes.finishedIrobs.pop.map fun (data, rest) =>
      (state.setIndexes csock level { indexes with finishedIrobs := rest }, .finishedIrob data)
  | .resendRequests => indexes.resendRequests.pop.map fun (data, rest) =>
      (state.setIndexes csock level { indexes with resendRequests := rest }, .resendRequest data)
  | .changedIfaces => state.changedLocalIfaces.pop.map fun (iface, rest) =>
      ({ state with changedLocalIfaces := rest }, .changedIface iface)
  | .downIfaces => state.downLocalIfaces.pop.map fun (iface, rest) =>
      ({ state with downLocalIfaces := rest }, .downIface iface)

/-- An item that is refused is put back where it was taken from. -/
def putBack (csock : CSocketId) (level : Level) : WorkItem → SenderLoops
  | .newIrob data =>
      state.setIndexes csock level ((state.indexes csock level).insert data .newIrobs)
  | .chunk data ack =>
      let indexes := (state.indexes csock level).insert data .newChunks
      state.setIndexes csock level (match ack with
        | some ack => if ack.id = -1 then indexes else indexes.insert ack .waitingAcks
        | none => indexes)
  | _ => state

/-- An item whose write fails is scheduled for the multisocket. -/
def giveBack : WorkItem → SenderLoops
  -- re-insert all ACKs
  | .acks _ tmp => { state with multisocket := { state.multisocket with
      waitingAcks := state.multisocket.waitingAcks.insertRange tmp } }
  | .dataCheck data => state.schedule none data .waitingDataChecks
  | .newIrob data => state.schedule none data .newIrobs
  | .chunk data ack =>
      let again := state.schedule none data .newChunks
      match ack with
      | some ack =>
          if ack.id = -1 then again
          else again.schedule none (.work ack.id false 0) .waitingAcks
      | none => again
  | .finishedIrob data => state.schedule none data .finishedIrobs
  | .resendRequest data => state.schedule none data .resendRequests
  | .changedIface iface =>
      { state with changedLocalIfaces := state.changedLocalIfaces.insert iface }
  | .downIface iface => { state with downLocalIfaces := state.downLocalIfaces.insert iface }

/-- Background data is refused. -/
def mayRefuse : WorkItem → Bool
  | .newIrob data | .chunk data _ => hasLabel data.sendLabels labelBackground
  | _ => false

/-- `schedule_work` looks for an item of a part. -/
def look (csock : CSocketId) (again : Bool) (level : Level) (part : WorkPart) (did : Bool) :
    SenderLoops :=
  match state.take csock level part with
  | some (taken, item) => taken.goes csock (.handling again level part did item true) true
  | none => state.proceeds csock again level did part.next

/-- A thread that handles an item schedules work. Others are told, unless the work is for its own
csocket, or a resend request for another csocket. -/
def hand (csock : CSocketId) (target : Option CSocketId) (data : IrobSchedulingData)
    (type : IndexType) : SenderLoops :=
  let scheduled := state.schedule target data type
  match target with
  | none => scheduled.broadcast
  | some other =>
      if other = csock then scheduled
      else if type = .resendRequests then
        { scheduled with
          delegated := Function.update state.delegated other (data :: state.delegated other) }
      else scheduled.broadcast

/-- The first lines of the loop. -/
def test (csock : CSocketId) : SenderLoops :=
  if state.shuttingDown && state.nothingToSend csock then
    if !state.goodbyeSent && !state.sendingGoodbye then
      { state with sendingGoodbye := true }.goes csock .sayingGoodbye false
    else state.goes csock .parting true
  else if state.receivers csock then
    state.goes csock (.scheduling false .csocket .acks false) true
  -- the receiver died
  else if state.shuttingDown && state.goodbyeSent then state.goes csock .leaving false
  else state.goes csock .thrown false

/-- The handler of `CMMControlException`. -/
def handOver (csock : CSocketId) : Successor → SenderLoops
  | .multisocket => { state with multisocket := state.multisocket.add (state.csockets csock) }
  | .csocket other => { state with
      csockets := Function.update state.csockets other
        ((state.csockets other).add (state.csockets csock)) }
  | .nobody true =>
      { state with multisocket := state.multisocket.add (state.csockets csock) }.kill
  | .nobody false => state.kill

/-- `CMMSocketImpl::goodbye`. -/
def goodbye (remoteInitiated hosed : Bool) : SenderLoops :=
  if state.shuttingDown then state
  else
    { state with
      shuttingDown := true
      remoteShutdown := state.remoteShutdown || remoteInitiated || hosed
      goodbyeSent := state.goodbyeSent || hosed }

/-! ### Steps -/

/-- One step; a thread waits (`none`) for the lock while another holds it. -/
def step : LoopEvent → Option SenderLoops
  | .create csock =>
      if state.stages csock = .absent then
        some { state with
          receivers := Function.update state.receivers csock true
          created := csock :: state.created
          stages := Function.update state.stages csock .connecting }
      else none
  | .connected csock =>
      if state.schedulingLock = none ∧ state.stages csock = .connecting then
        some (state.goes csock .testing true)
      else none
  | .connectFails csock refused =>
      if state.schedulingLock = none ∧ state.stages csock = .connecting then
        let next := state.goes csock .leaving false
        some (if refused then next.kill.broadcast else next)
      else none
  | .test csock =>
      if state.stages csock = .testing then some (state.test csock) else none
  | .goodbyeWritten csock ok =>
      if state.schedulingLock = none ∧ state.stages csock = .sayingGoodbye then
        some (if ok then
            ({ state with goodbyeSent := true }.goes csock .parting true).broadcast
          else ({ state with sendingGoodbye := false }.goes csock .thrown false).broadcast)
      else none
  | .part csock =>
      if state.stages csock = .parting then
        some (if !state.remoteShutdown && state.receivers csock then
            state.goes csock .waitsGoodbye false
          else state.goes csock .leaving false)
      else none
  | .partingTimesOut csock =>
      if state.schedulingLock = none ∧ state.stages csock = .waitsGoodbye then
        some (state.goes csock .leaving false)
      else none
  | .look csock => match state.stages csock with
      | .scheduling again level part did => some (state.look csock again level part did)
      | _ => none
  | .unlock csock => match state.stages csock with
      | .handling again level part did item true =>
          some (state.goes csock (.handling again level part did item false) false)
      | _ => none
  | .lock csock => match state.stages csock with
      | .handling again level part did item false =>
          if state.schedulingLock = none then
            some (state.goes csock (.handling again level part did item true) true)
          else none
      | _ => none
  | .hand csock target data type => match state.stages csock with
      | .handling _ _ _ _ _ true => some (state.hand csock target data type)
      | _ => none
  | .drop csock ids => match state.stages csock with
      | .handling _ _ _ _ _ true =>
          some { state with outgoing := state.outgoing.filter (· ∉ ids) }
      | _ => none
  | .sent csock => match state.stages csock with
      | .handling again level part _ item true =>
          some (state.proceeds csock again level true (part.onward item))
      | _ => none
  | .refused csock => match state.stages csock with
      | .handling again level part did item true =>
          if mayRefuse item then
            some ({ state.putBack csock level item with
              trickles := Function.update state.trickles csock true }.proceeds
                csock again level did part.next)
          else none
      | _ => none
  | .unsent csock => match state.stages csock with
      | .handling _ _ _ _ item true =>
          some ((state.giveBack item).goes csock .thrown false).broadcast
      | _ => none
  | .fire csock unsentBytes =>
      if state.stages csock = .idle then
        -- is_busy
        some (if (state.csockets csock).newIrobs.tasks.isEmpty &&
            (state.csockets csock).newChunks.tasks.isEmpty && !unsentBytes then
          state.goes csock .firing false
        else state.goes csock .resting true)
      else none
  | .fired csock =>
      if state.schedulingLock = none ∧ state.stages csock = .firing then
        some (state.goes csock (.scheduling true .csocket .acks false) true)
      else none
  | .rest csock polls =>
      if state.stages csock = .resting then
        some ({ state with
          trickles := Function.update state.trickles csock (polls && state.trickles csock)
          delegated := Function.update state.delegated csock [] }.goes csock
            (.asleep (polls || state.trickles csock)) false)
      else none
  | .wake csock => match state.stages csock with
      | .asleep _ | .waitsGoodbye =>
          some { state with stages := Function.update state.stages csock .woken }
      | _ => none
  | .resume csock =>
      if state.schedulingLock = none ∧ state.stages csock = .woken then
        some (state.goes csock .testing true)
      else none
  | .handOver csock successor =>
      if state.schedulingLock = none ∧ state.stages csock = .thrown then
        some ((state.handOver csock successor).goes csock .leaving false).broadcast
      else none
  | .finish csock =>
      if state.schedulingLock = none ∧ state.stages csock = .leaving then
        some (state.goes csock .ended false).broadcast
      else none
  | .post target data type =>
      if state.schedulingLock = none then some (state.schedule target data type).broadcast
      else none
  | .update iface down =>
      if state.schedulingLock = none then
        some (if down then
            { state with downLocalIfaces := state.downLocalIfaces.insert iface }
          else { state with
            changedLocalIfaces :=
              (state.changedLocalIfaces.erase iface.ipAddr.toNat).insert iface }).broadcast
      else none
  | .insertIrob target data =>
      if state.schedulingLock = none then
        some ({ state with outgoing := data.id :: state.outgoing }.schedule target data
          .newIrobs).broadcast
      else none
  | .acked id =>
      if state.schedulingLock = none then
        let removed := { state with outgoing := state.outgoing.filter (· ≠ id) }
        some (if removed.outgoing.isEmpty && state.shuttingDown then removed.broadcast else removed)
      else none
  | .endFails id =>
      if state.schedulingLock = none then
        some { state with outgoing := state.outgoing.filter (· ≠ id) }
      else none
  | .goodbye remoteInitiated hosed =>
      if state.schedulingLock = none then
        some (state.goodbye remoteInitiated hosed).broadcast
      else none
  | .goodbyeAcked =>
      -- ASSERT(shutting_down)
      if state.schedulingLock = none ∧ state.shuttingDown then
        some { state with remoteShutdown := true }.broadcast
      else none
  | .receiverFinishes csock =>
      if state.schedulingLock = none then
        some { state with receivers := Function.update state.receivers csock false }.broadcast
      else none

/-- A multisocket with nothing scheduled, and no csocket yet. -/
def initial : SenderLoops where
  multisocket := .empty
  csockets _ := .empty
  changedLocalIfaces := .empty
  downLocalIfaces := .empty
  outgoing := []
  shuttingDown := false
  sendingGoodbye := false
  goodbyeSent := false
  remoteShutdown := false
  receivers _ := false
  trickles _ := false
  delegated _ := []
  created := []
  schedulingLock := none
  stages _ := .absent

/-- Any interleaving of the sender threads and the other threads. -/
def machine : Machine SenderLoops LoopEvent where
  initial state := state = initial
  permitted _ _ := True
  step := step

instance : ∀ event, Decidable (machine.permitted state event) := fun _ => instDecidableTrue

end SenderLoops

end Libcmm
