import Libcmm.Scheduling
import Libcmm.Transfer

/-! # Sending one IROB (`csocket_sender.cpp`, `cmm_socket_impl.cpp`)

The application adds an IROB to the outgoing ones and schedules a task for its
`Begin_IROB`. From there the sender threads schedule the tasks for its chunks and for its
`End_IROB` themselves: after a write they look at the IROB and decide what comes next. The
application adds tasks of its own while the IROB is open and when it ends it.

This is one IROB, from its beginning, with the tasks it has in the indexes of the csockets
and of the multisocket. A set holds at most one entry for it, so a task is there or not;
which task a thread takes next depends on the other IROBs and is left open. A thread gives
up the lock while it looks for a csocket and while it writes, so a task goes through three
steps: it is taken, the message is built, and the write is done. All writes succeed, and the
peer asks for nothing again.

When a network that the IROB was sent on goes down, a data check is scheduled for it
(`data_check_all_irobs`). Its message brings the next chunk of the IROB along, or the last one
again, between a `Begin_IROB` and, if all is chunked, an `End_IROB`; but nothing is marked as
announced, and no task follows. Which networks go down when is left open.

Where the task goes is decided by `delegate_if_necessary`. If no network fits and the IROB
is still open, the task becomes a thunk (`ResumeOperation`) and is in no index until the
thunk fires. What ends in a failure is left out: a complete IROB is dropped instead, and for
an open one with a resume handler or a restriction that no network can meet `mc_end_irob`
reports the failure and erases it. An IROB may be marked to be sent on all networks at any
time; each csocket then announces and sends it for itself.
-/

namespace Libcmm

open Lib

/-- The indexes of a csocket, or those of the multisocket. -/
abbrev Place := Option CSocketId

namespace SenderIrob

/-- `PendingSenderIROB::was_announced`. -/
def wasAnnounced (irob : SenderIrob) (csock : CSocketId) : Bool :=
  irob.own.announcements (irob.nullIndexIfSingleSending csock)

/-- `PendingSenderIROB::end_was_announced`. -/
def endWasAnnounced (irob : SenderIrob) (csock : CSocketId) : Bool :=
  irob.own.endAnnouncements (irob.nullIndexIfSingleSending csock)

/-- `PendingSenderIROB::mark_announcement_sent`. -/
def markAnnouncementSent (irob : SenderIrob) (csock : CSocketId) : SenderIrob :=
  { irob with own := { irob.own with
    announcements :=
      Function.update irob.own.announcements (irob.nullIndexIfSingleSending csock) true } }

/-- `PendingSenderIROB::mark_end_announcement_sent`. -/
def markEndAnnouncementSent (irob : SenderIrob) (csock : CSocketId) : SenderIrob :=
  { irob with own := { irob.own with
    endAnnouncements :=
      Function.update irob.own.endAnnouncements (irob.nullIndexIfSingleSending csock) true } }

end SenderIrob

/-- `MIN_CHUNKSIZE`. -/
def minChunksize : Nat := 1500

/-- What a thread has in its hand: the task of a `Begin_IROB` or of a chunk and where it came
from, a data check, or a message that it writes. A `Begin_IROB` may come with all of the
IROB. For a chunk, `shared` says that another task for it was scheduled before the write. Of a
data check, the messages that carry the IROB are listed. -/
inductive Hand where
  | idle
  | begin (place : Place)
  | beginWrite (messages : List Message) (sendingAllIrobInfo : Bool)
  | chunk (place : Place)
  | chunkWrite (message : Message) (shared : Bool)
  | endWrite (message : Message)
  | dataCheck
  | dataCheckWrite (messages : List Message)

/-- What `okay_to_send_bg` and `delegate_if_necessary` say about a task: it is not the time
for background data, another csocket gets it (and this one may send too), it becomes a
thunk, or it is for this thread, which tells some others of an IROB for all networks. -/
inductive Assignment where
  | notOkayToSendBg
  | passed (other : CSocketId) (alsoHere : Bool)
  | parked
  | here (others : List CSocketId)

/-- One IROB and its tasks. `returned` says that `mc_send` or `mc_end_irob` was successful,
and `parked` counts the thunks, by `chunks_ready`. -/
structure Sending where
  irob : Option SenderIrob
  returned : Bool
  tasks : IndexType → Place → Bool
  parked : Bool → Nat
  hands : CSocketId → Hand
  written : List Message

/-- What happens: a call of the application, for which a csocket was found or not, a step of
a sender thread, a thunk, the decision to send the IROB on all networks, or the end of a
network that it was sent on. -/
inductive SendingEvent where
  | beginIrob (id : IrobId) (deps : List IrobId) (sendLabels : Nat) (place : Place)
  | send (id : IrobId) (data : List Byte) (sendLabels : Nat) (place : Place)
  | irobSend (data : List Byte) (csock : CSocketId) (connected : Bool)
  | endIrob (csock : CSocketId) (connected : Bool)
  | takeIrob (csock : CSocketId) (place : Place)
  | begin (csock : CSocketId) (assignment : Assignment)
  | begun (csock : CSocketId)
  | takeChunk (csock : CSocketId) (place : Place)
  | chunk (csock : CSocketId) (assignment : Assignment) (chunksize : Nat) (shared : Bool)
  | chunkSent (csock : CSocketId) (shared : Bool)
  | takeFinished (csock : CSocketId) (place : Place)
  | endSent (csock : CSocketId)
  | resume (chunksReady : Bool) (place : Place)
  | redundant (chunksReady : Bool) (csocks : List CSocketId)
  | dataCheckAllIrobs
  | takeDataCheck (csock : CSocketId) (place : Place)
  | dataCheck (csock : CSocketId) (assignment : Assignment)
  | dataCheckSent (csock : CSocketId)

namespace Sending

/-- Nothing has happened. -/
def initial : Sending := ⟨none, false, fun _ _ => false, fun _ => 0, fun _ => .idle, []⟩

/-- A task is scheduled. -/
def insert (state : Sending) (type : IndexType) (place : Place) : Sending :=
  { state with tasks := fun other elsewhere =>
    if other = type ∧ elsewhere = place then true else state.tasks other elsewhere }

/-- A task is taken. -/
def take (state : Sending) (type : IndexType) (place : Place) : Option Sending :=
  if state.tasks type place then
    some { state with tasks := fun other elsewhere =>
      if other = type ∧ elsewhere = place then false else state.tasks other elsewhere }
  else none

def setHand (state : Sending) (csock : CSocketId) (hand : Hand) : Sending :=
  { state with hands := Function.update state.hands csock hand }

/-- A task becomes a thunk. -/
def park (state : Sending) (chunksReady : Bool) : Sending :=
  { state with
    parked := Function.update state.parked chunksReady (state.parked chunksReady + 1) }

/-- `CMMSocketImpl::addSchedulingData`. -/
def addSchedulingData (state : Sending) (type : IndexType) (csock : CSocketId)
    (connected : Bool) : Sending :=
  state.insert type (if connected then some csock else none)

/-- `CSockMapping::AddRequestIfNotSent`. -/
def addRequestIfNotSent (state : Sending) (irob : SenderIrob) (chunksReady : Bool)
    (csock : CSocketId) : Sending :=
  if chunksReady then
    if 0 < irob.numReadyBytes csock then state.insert .newChunks (some csock) else state
  else if irob.wasAnnounced csock then state
  else state.insert .newIrobs (some csock)

/-- `CSockMapping::pass_request_to_all_senders`. -/
def passRequestToAllSenders (state : Sending) (irob : SenderIrob) (chunksReady : Bool)
    (csocks : List CSocketId) : Sending :=
  csocks.foldl (fun sofar csock => sofar.addRequestIfNotSent irob chunksReady csock) state

/-- `CSockMapping::onRedundancyDecision`, if it decides for all networks. -/
def onRedundancyDecision (state : Sending) (irob : SenderIrob) (chunksReady : Bool)
    (csocks : List CSocketId) : Sending :=
  let marked := irob.markSendOnAllNetworks
  { state with irob := some marked }.passRequestToAllSenders marked chunksReady csocks

/-- `CMMSocketImpl::irob_chunk`. -/
def irobSend (state : Sending) (irob : SenderIrob) (data : List Byte) (csock : CSocketId)
    (connected : Bool) : Sending :=
  let added := (irob.addChunk ⟨irob.id, 0, 0, data.length, some data⟩).1
  let stored := { state with irob := some added }
  if added.wasAnnounced csock then stored.addSchedulingData .newChunks csock connected else stored

/-- `CMMSocketImpl::end_irob`. -/
def endIrob (state : Sending) (irob : SenderIrob) (csock : CSocketId) (connected : Bool) :
    Sending :=
  let finished : SenderIrob := irob.finish.1
  let stored := { state with irob := some finished, returned := true }
  if finished.wasAnnounced csock && !finished.endWasAnnounced csock && finished.complete &&
      finished.allBytesChunked then
    stored.addSchedulingData .finishedIrobs csock connected
  else stored

/-- `CSocketSender::begin_irob` up to its write, on the csocket that sends. -/
def buildBegin (state : Sending) (irob : SenderIrob) (csock : CSocketId) : Option Sending :=
  if irob.complete && irob.expectedBytes < minChunksize &&
      hasLabel irob.sendLabels labelOndemand && !irob.wasAnnounced csock then do
    let (sent, transmission) ← irob.getReadyBytes csock irob.expectedBytes
    let stored := { state with irob := some sent }
    -- ASSERT(psirob->all_bytes_chunked())
    if !sent.allBytesChunked then none
    else if transmission.bytes.isEmpty then
      some (stored.setHand csock (.beginWrite [sent.beginMessage] false))
    else some (stored.setHand csock (.beginWrite
      [sent.beginMessage, sent.chunkMessage transmission, sent.endMessage] true))
  else some (state.setHand csock (.beginWrite [irob.beginMessage] false))

/-- `CSocketSender::begin_irob` after its write. -/
def begun (state : Sending) (irob : SenderIrob) (csock : CSocketId) (messages : List Message)
    (sendingAllIrobInfo : Bool) : Sending :=
  let announced := irob.markAnnouncementSent csock
  let done := { state with written := state.written ++ messages }.setHand csock .idle
  if sendingAllIrobInfo then
    { done with irob := some (if announced.complete && announced.allBytesChunked then
      announced.markEndAnnouncementSent csock else announced) }
  else
    let stored := { done with irob := some announced }
    if announced.anonymous || 0 < announced.chunks.length then
      stored.insert .newChunks (some csock)
    else stored

/-- `CSocketSender::irob_chunk` up to its write, on a csocket that sends. -/
def buildChunk (state : Sending) (irob : SenderIrob) (csock : CSocketId) (chunksize : Nat)
    (shared : Bool) : Option Sending := do
  let (sent, transmission) ← irob.getReadyBytes csock chunksize
  let stored := { state with irob := some sent }
  if transmission.bytes.isEmpty then some (stored.setHand csock .idle)
  else
    -- let other threads try to send this chunk too
    let announced := if shared then stored.insert .newChunks none else stored
    some (announced.setHand csock (.chunkWrite (sent.chunkMessage transmission) shared))

/-- `CSocketSender::irob_chunk` after its write. The test whether the chunk is shared is
made again. -/
def chunkSent (state : Sending) (irob : SenderIrob) (csock : CSocketId) (message : Message)
    (shared : Bool) : Sending :=
  let done := { state with written := state.written ++ [message] }.setHand csock .idle
  let finished :=
    if irob.complete && irob.allBytesChunked && !irob.endWasAnnounced csock then
      done.insert .finishedIrobs (some csock)
    else done
  if shared then finished else finished.insert .newChunks (some csock)

/-- The end of `delegate_if_necessary` for a task that is for this thread. -/
def tellOthers (state : Sending) (irob : SenderIrob) (chunksReady : Bool)
    (others : List CSocketId) : Sending :=
  if irob.own.sendOnAllNetworks then state.passRequestToAllSenders irob chunksReady others
  else state

/-- `CSocketSender::begin_irob` on a csocket, from `delegate_if_necessary` on. -/
def begin (state : Sending) (irob : SenderIrob) (csock : CSocketId) (place : Place) :
    Assignment → Option Sending
  | .notOkayToSendBg => some ((state.insert .newIrobs place).setHand csock .idle)
  | .passed other alsoHere =>
      let passed := state.insert .newIrobs (some other)
      if alsoHere && irob.own.sendOnAllNetworks then passed.buildBegin irob csock
      else some (passed.setHand csock .idle)
  | .parked =>
      if irob.complete then none
      else some ((state.park false).setHand csock .idle)
  | .here others => (state.tellOthers irob false others).buildBegin irob csock

/-- `CSocketSender::irob_chunk` on a csocket, from `okay_to_send_bg` on. -/
def chunk (state : Sending) (irob : SenderIrob) (csock : CSocketId) (place : Place)
    (chunksize : Nat) (shared : Bool) : Assignment → Option Sending
  | .notOkayToSendBg => some ((state.insert .newChunks place).setHand csock .idle)
  | .passed other alsoHere =>
      let passed := state.insert .newChunks (some other)
      if alsoHere then passed.buildChunk irob csock chunksize shared
      else some (passed.setHand csock .idle)
  | .parked =>
      if irob.complete then none
      else some ((state.park true).setHand csock .idle)
  | .here others => (state.tellOthers irob true others).buildChunk irob csock chunksize shared

/-- `CSocketSender::send_data_check` up to its write, on the csocket that sends. The header of
the `Data_Check` itself follows these messages. -/
def buildDataCheck (state : Sending) (irob : SenderIrob) (csock : CSocketId) : Option Sending := do
  let (sent, transmission) ← irob.getReadyBytes csock minChunksize
  -- if there's no next chunk to send, re-send the last sent chunk
  let chunk ← (if transmission.data.isEmpty then sent.getLastSentChunk csock
    else some (some transmission))
  let chunks := (chunk.filter fun probe => !probe.data.isEmpty).toList.map sent.chunkMessage
  some ({ state with irob := some sent }.setHand csock (.dataCheckWrite
    (sent.beginMessage :: chunks ++ if sent.ends then [sent.endMessage] else [])))

/-- `CSocketSender::send_data_check` on a csocket, from `delegate_if_necessary` on. Nothing says
that it is not the time for a data check, and the others are not told of it. -/
def dataCheck (state : Sending) (irob : SenderIrob) (csock : CSocketId) :
    Assignment → Option Sending
  | .notOkayToSendBg => none
  | .passed other alsoHere =>
      let passed := state.insert .waitingDataChecks (some other)
      if alsoHere && irob.own.sendOnAllNetworks then passed.buildDataCheck irob csock
      else some (passed.setHand csock .idle)
  | .parked =>
      if irob.complete then none
      else some ((state.park false).setHand csock .idle)
  | .here _ => state.buildDataCheck irob csock

/-- `resume_operation_thunk`. -/
def resume (state : Sending) (chunksReady : Bool) (place : Place) : Option Sending :=
  match state.parked chunksReady with
  | 0 => none
  | count + 1 =>
      some ({ state with parked := Function.update state.parked chunksReady count }.insert
        (if chunksReady then .newChunks else .newIrobs) place)

/-- One step. A thread that is elsewhere does not take it. -/
def step (state : Sending) : SendingEvent → Option Sending
  | .beginIrob id deps sendLabels place => match state.irob with
      | some _ => none
      | none => some ({ state with irob := some (.mk id deps [] sendLabels) }.insert .newIrobs place)
  | .send id data sendLabels place => match state.irob with
      | some _ => none
      | none => some ({ state with
          irob := some (.mk id [] data sendLabels)
          returned := true }.insert .newIrobs place)
  | .irobSend data csock connected =>
      state.irob.map fun irob => state.irobSend irob data csock connected
  | .endIrob csock connected =>
      state.irob.map fun irob => state.endIrob irob csock connected
  | .takeIrob csock place => match state.hands csock with
      | .idle => (state.take .newIrobs place).map fun taken => taken.setHand csock (.begin place)
      | _ => none
  | .begin csock assignment => match state.hands csock, state.irob with
      | .begin place, some irob => state.begin irob csock place assignment
      | _, _ => none
  | .begun csock => match state.hands csock, state.irob with
      | .beginWrite messages sendingAllIrobInfo, some irob =>
          some (state.begun irob csock messages sendingAllIrobInfo)
      | _, _ => none
  | .takeChunk csock place => match state.hands csock with
      | .idle => (state.take .newChunks place).map fun taken => taken.setHand csock (.chunk place)
      | _ => none
  | .chunk csock assignment chunksize shared => match state.hands csock, state.irob with
      | .chunk place, some irob => state.chunk irob csock place chunksize shared assignment
      | _, _ => none
  | .chunkSent csock shared => match state.hands csock, state.irob with
      | .chunkWrite message _, some irob => some (state.chunkSent irob csock message shared)
      | _, _ => none
  | .takeFinished csock place => match state.hands csock, state.irob with
      | .idle, some irob => (state.take .finishedIrobs place).map fun taken =>
          taken.setHand csock (.endWrite irob.endMessage)
      | _, _ => none
  | .endSent csock => match state.hands csock with
      | .endWrite message =>
          some ({ state with written := state.written ++ [message] }.setHand csock .idle)
      | _ => none
  | .resume chunksReady place => state.resume chunksReady place
  | .redundant chunksReady csocks =>
      state.irob.map fun irob => state.onRedundancyDecision irob chunksReady csocks
  | .dataCheckAllIrobs => state.irob.map fun _ => state.insert .waitingDataChecks none
  | .takeDataCheck csock place => match state.hands csock with
      | .idle => (state.take .waitingDataChecks place).map fun taken =>
          taken.setHand csock .dataCheck
      | _ => none
  | .dataCheck csock assignment => match state.hands csock, state.irob with
      | .dataCheck, some irob => state.dataCheck irob csock assignment
      | _, _ => none
  | .dataCheckSent csock => match state.hands csock with
      | .dataCheckWrite messages =>
          some ({ state with written := state.written ++ messages }.setHand csock .idle)
      | _ => none

/-- A data check brings along what the thread was given, if it was given bytes. -/
theorem buildDataCheck_cases {state after : Sending} {irob : SenderIrob} {csock : CSocketId}
    (built : state.buildDataCheck irob csock = some after) :
    ∃ sent transmission chunks, irob.getReadyBytes csock minChunksize = some (sent, transmission) ∧
      (transmission.bytes ≠ [] → chunks = [transmission]) ∧
      after = { state with irob := some sent }.setHand csock (.dataCheckWrite
        (sent.beginMessage :: chunks.map sent.chunkMessage ++
          if sent.ends then [sent.endMessage] else [])) := by
  obtain ⟨⟨sent, transmission⟩, got, onward⟩ := Option.bind_eq_some_iff.mp built
  obtain ⟨chunk, probing, building⟩ := Option.bind_eq_some_iff.mp onward
  cases building
  refine ⟨sent, transmission, _, got, fun nonempty => ?_, rfl⟩
  have pieces : transmission.data.isEmpty = false := by
    apply List.isEmpty_eq_false_iff.mpr
    intro none
    rw [Transmission.bytes, none] at nonempty
    exact nonempty rfl
  simp only [pieces, Bool.false_eq_true, ↓reduceIte, Option.some.injEq] at probing
  subst probing
  simp [Option.filter, pieces]

/-- What a step does, and when. -/
inductive Move (state : Sending) : SendingEvent → Sending → Prop where
  | beginIrob {id : IrobId} {deps : List IrobId} {sendLabels : Nat} {place : Place}
      (absent : state.irob = none) :
      Move state (.beginIrob id deps sendLabels place)
        ({ state with irob := some (.mk id deps [] sendLabels) }.insert .newIrobs place)
  | send {id : IrobId} {data : List Byte} {sendLabels : Nat} {place : Place}
      (absent : state.irob = none) :
      Move state (.send id data sendLabels place)
        ({ state with
          irob := some (.mk id [] data sendLabels)
          returned := true }.insert .newIrobs place)
  | irobSend {irob : SenderIrob} {data : List Byte} {csock : CSocketId} {connected : Bool}
      (present : state.irob = some irob) :
      Move state (.irobSend data csock connected) (state.irobSend irob data csock connected)
  | endIrob {irob : SenderIrob} {csock : CSocketId} {connected : Bool}
      (present : state.irob = some irob) :
      Move state (.endIrob csock connected) (state.endIrob irob csock connected)
  | takeIrob {csock : CSocketId} {place : Place} {taken : Sending}
      (idle : state.hands csock = .idle) (took : state.take .newIrobs place = some taken) :
      Move state (.takeIrob csock place) (taken.setHand csock (.begin place))
  | begin {irob : SenderIrob} {csock : CSocketId} {assignment : Assignment} {place : Place}
      {after : Sending} (held : state.hands csock = .begin place)
      (present : state.irob = some irob)
      (begun : state.begin irob csock place assignment = some after) :
      Move state (.begin csock assignment) after
  | begun {irob : SenderIrob} {csock : CSocketId} {messages : List Message}
      {sendingAllIrobInfo : Bool}
      (held : state.hands csock = .beginWrite messages sendingAllIrobInfo)
      (present : state.irob = some irob) :
      Move state (.begun csock) (state.begun irob csock messages sendingAllIrobInfo)
  | takeChunk {csock : CSocketId} {place : Place} {taken : Sending}
      (idle : state.hands csock = .idle) (took : state.take .newChunks place = some taken) :
      Move state (.takeChunk csock place) (taken.setHand csock (.chunk place))
  | chunk {irob : SenderIrob} {csock : CSocketId} {assignment : Assignment} {chunksize : Nat}
      {shared : Bool} {place : Place} {after : Sending} (held : state.hands csock = .chunk place)
      (present : state.irob = some irob)
      (chunked : state.chunk irob csock place chunksize shared assignment = some after) :
      Move state (.chunk csock assignment chunksize shared) after
  | chunkSent {irob : SenderIrob} {csock : CSocketId} {message : Message} {before shared : Bool}
      (held : state.hands csock = .chunkWrite message before) (present : state.irob = some irob) :
      Move state (.chunkSent csock shared) (state.chunkSent irob csock message shared)
  | takeFinished {irob : SenderIrob} {csock : CSocketId} {place : Place} {taken : Sending}
      (idle : state.hands csock = .idle) (present : state.irob = some irob)
      (took : state.take .finishedIrobs place = some taken) :
      Move state (.takeFinished csock place) (taken.setHand csock (.endWrite irob.endMessage))
  | endSent {csock : CSocketId} {message : Message}
      (held : state.hands csock = .endWrite message) :
      Move state (.endSent csock)
        ({ state with written := state.written ++ [message] }.setHand csock .idle)
  | resume {chunksReady : Bool} {place : Place} {after : Sending}
      (resumed : state.resume chunksReady place = some after) :
      Move state (.resume chunksReady place) after
  | redundant {irob : SenderIrob} {chunksReady : Bool} {csocks : List CSocketId}
      (present : state.irob = some irob) :
      Move state (.redundant chunksReady csocks) (state.onRedundancyDecision irob chunksReady csocks)
  | dataCheckAllIrobs {irob : SenderIrob} (present : state.irob = some irob) :
      Move state .dataCheckAllIrobs (state.insert .waitingDataChecks none)
  | takeDataCheck {csock : CSocketId} {place : Place} {taken : Sending}
      (idle : state.hands csock = .idle) (took : state.take .waitingDataChecks place = some taken) :
      Move state (.takeDataCheck csock place) (taken.setHand csock .dataCheck)
  | dataCheck {irob : SenderIrob} {csock : CSocketId} {assignment : Assignment} {after : Sending}
      (held : state.hands csock = .dataCheck) (present : state.irob = some irob)
      (checked : state.dataCheck irob csock assignment = some after) :
      Move state (.dataCheck csock assignment) after
  | dataCheckSent {csock : CSocketId} {messages : List Message}
      (held : state.hands csock = .dataCheckWrite messages) :
      Move state (.dataCheckSent csock)
        ({ state with written := state.written ++ messages }.setHand csock .idle)

theorem step_move {state after : Sending} {event : SendingEvent}
    (moved : state.step event = some after) : Move state event after := by
  cases event with
  | beginIrob id deps sendLabels place =>
      simp only [step] at moved
      split at moved
      · cases moved
      · next absent =>
        cases moved
        exact .beginIrob absent
  | send id data sendLabels place =>
      simp only [step] at moved
      split at moved
      · cases moved
      · next absent =>
        cases moved
        exact .send absent
  | irobSend data csock connected =>
      obtain ⟨irob, present, rfl⟩ := Option.map_eq_some_iff.mp moved
      exact .irobSend present
  | endIrob csock connected =>
      obtain ⟨irob, present, rfl⟩ := Option.map_eq_some_iff.mp moved
      exact .endIrob present
  | takeIrob csock place =>
      simp only [step] at moved
      split at moved
      · next idle =>
        obtain ⟨taken, took, rfl⟩ := Option.map_eq_some_iff.mp moved
        exact .takeIrob idle took
      · cases moved
  | begin csock assignment =>
      simp only [step] at moved
      split at moved
      · next held present => exact .begin held present moved
      · cases moved
  | begun csock =>
      simp only [step] at moved
      split at moved
      · next held present =>
        cases moved
        exact .begun held present
      · cases moved
  | takeChunk csock place =>
      simp only [step] at moved
      split at moved
      · next idle =>
        obtain ⟨taken, took, rfl⟩ := Option.map_eq_some_iff.mp moved
        exact .takeChunk idle took
      · cases moved
  | chunk csock assignment chunksize shared =>
      simp only [step] at moved
      split at moved
      · next held present => exact .chunk held present moved
      · cases moved
  | chunkSent csock shared =>
      simp only [step] at moved
      split at moved
      · next held present =>
        cases moved
        exact .chunkSent held present
      · cases moved
  | takeFinished csock place =>
      simp only [step] at moved
      split at moved
      · next idle present =>
        obtain ⟨taken, took, rfl⟩ := Option.map_eq_some_iff.mp moved
        exact .takeFinished idle present took
      · cases moved
  | endSent csock =>
      simp only [step] at moved
      split at moved
      · next held =>
        cases moved
        exact .endSent held
      · cases moved
  | resume chunksReady place => exact .resume moved
  | redundant chunksReady csocks =>
      obtain ⟨irob, present, rfl⟩ := Option.map_eq_some_iff.mp moved
      exact .redundant present
  | dataCheckAllIrobs =>
      obtain ⟨irob, present, rfl⟩ := Option.map_eq_some_iff.mp moved
      exact .dataCheckAllIrobs present
  | takeDataCheck csock place =>
      simp only [step] at moved
      split at moved
      · next idle =>
        obtain ⟨taken, took, rfl⟩ := Option.map_eq_some_iff.mp moved
        exact .takeDataCheck idle took
      · cases moved
  | dataCheck csock assignment =>
      simp only [step] at moved
      split at moved
      · next held present => exact .dataCheck held present moved
      · cases moved
  | dataCheckSent csock =>
      simp only [step] at moved
      split at moved
      · next held =>
        cases moved
        exact .dataCheckSent held
      · cases moved

/-- The application calls and the threads work in any order. A thread takes tasks from the
indexes of its csocket and of the multisocket. -/
def machine : Machine Sending SendingEvent where
  initial state := state = initial
  permitted _ event := match event with
    | .takeIrob csock place | .takeChunk csock place | .takeFinished csock place
    | .takeDataCheck csock place => place = none ∨ place = some csock
    | _ => True
  step := step

instance (state : Sending) (event : SendingEvent) : Decidable (machine.permitted state event) :=
  match event with
  | .takeIrob csock place => inferInstanceAs (Decidable (place = none ∨ place = some csock))
  | .takeChunk csock place => inferInstanceAs (Decidable (place = none ∨ place = some csock))
  | .takeFinished csock place => inferInstanceAs (Decidable (place = none ∨ place = some csock))
  | .takeDataCheck csock place => inferInstanceAs (Decidable (place = none ∨ place = some csock))
  | .beginIrob _ _ _ _ | .send _ _ _ _ | .irobSend _ _ _ | .endIrob _ _ | .begin _ _ | .begun _
  | .chunk _ _ _ _ | .chunkSent _ _ | .endSent _ | .resume _ _ | .redundant _ _
  | .dataCheckAllIrobs | .dataCheck _ _ | .dataCheckSent _ => .isTrue trivial

end Sending

end Libcmm
