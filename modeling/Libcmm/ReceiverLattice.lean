import Libcmm.Lattice
import Libcmm.ReceiverIrob
import Libcmm.Scheduling
import Libcmm.Lib.Transition

/-! # The receiving side (`PendingReceiverIROBLattice`, `CSocketReceiver`)

The incoming lattice with its set of released IROBs, the three message handlers
that fill it, and `recv`, which empties it. All of them run under the scheduling
lock, so each is one step.

`recv` releases the lock only while it waits for an IROB to become ready. The
model ends the call there: what the call does after waiting is a further call
with the rest of its buffer. A call that finds nothing ready in the middle of its
loop, times out or would block ends in the same way.
-/

namespace Libcmm

open Lib

/-- `class PendingReceiverIROBLattice`. `partially_read_irob` points to an IROB of
the lattice and is kept as its identifier. -/
structure ReceiverLattice where
  irobs : IrobLattice ReceiverPart
  readyIrobs : IrobPrioritySet
  partiallyReadIrob : Option IrobId

/-- The messages that carry an IROB: `Begin_IROB`, `IROB_Chunk` and `End_IROB`.
Integers are the values the header decodes to, and the length of a chunk's data is
its `datalen`. -/
inductive Message where
  | beginIrob (id : IrobId) (deps : List IrobId) (sendLabels : Nat)
  | irobChunk (id : IrobId) (seqno offset : Nat) (data : List Byte)
  | endIrob (id : IrobId) (expectedBytes expectedChunks : Int)
  deriving DecidableEq

/-- The IROB a message is about. -/
def Message.id : Message → IrobId
  | beginIrob id _ _ => id
  | irobChunk id _ _ _ => id
  | endIrob id _ _ => id

/-- How a handler ends: it used the message, it ignored a duplicate, or it threw
`CMMControlException` or `CMMFatalError`. -/
inductive Verdict where
  | taken
  | duplicate
  | controlException
  | fatalError
  deriving DecidableEq

/-- What a handler leaves. `ack` is the argument `valid_for_measurement` of its
call of `schedule_ack`, if it makes one. -/
structure Handled where
  after : ReceiverLattice
  verdict : Verdict
  ack : Option Bool

/-- The bytes one turn of the loop in `recv` hands over, with the labels of their
IROB, the bytes it still holds then, and the IROBs delivered before. -/
structure Delivery where
  id : IrobId
  sendLabels : Nat
  bytes : List Byte
  left : Int
  past : IntSet

/-- The flags of `recv` that the loop reads. -/
structure RecvFlags where
  waitall : Bool
  peek : Bool
  deriving DecidableEq

namespace ReceiverLattice

/-- `PendingReceiverIROBLattice::PendingReceiverIROBLattice`. -/
def empty : ReceiverLattice := ⟨.empty, .empty, none⟩

/-- `PendingReceiverIROBLattice::release_if_ready`, on the IROB found under an
identifier if there is one; with `PendingReceiverIROBLattice::release`. -/
def releaseIfReady (state : ReceiverLattice) (id : IrobId) : Option ReceiverLattice :=
  match state.irobs.find id with
  | none => some state
  | some irob => (ReceiverIrob.readyIrob irob).map fun ready =>
      if ready then
        { state with
          irobs := state.irobs.update id ReceiverIrob.release
          readyIrobs := state.readyIrobs.insert (.work irob.id false irob.sendLabels) }
      else state

/-- `PendingReceiverIROBLattice::release_dependents`. -/
def releaseDependents (state : ReceiverLattice) (dependents : List IrobId) :
    Option ReceiverLattice :=
  dependents.foldlM releaseIfReady state

/-! ### Message handlers -/

/-- The common end of the handlers: release the IROB if that made it ready and
acknowledge it if it is complete. -/
def settle (state : ReceiverLattice) (id : IrobId) (verdict : Verdict) : Option Handled := do
  let released ← state.releaseIfReady id
  let irob : ReceiverIrob ← released.irobs.find id
  let complete ← irob.isComplete
  some ⟨released, verdict, if complete && !irob.placeholder then some true else none⟩

section Handlers

variable (insert : IrobLattice ReceiverPart → ReceiverIrob →
  Option (IrobLattice ReceiverPart × Option ReceiverIrob))

/-- The IROB a chunk or an end belongs to, after a placeholder was made for one
not here yet. How `incoming_irobs` inserts is a parameter of the handlers. -/
def findOrHoldWith (state : ReceiverLattice) (id : IrobId) :
    Option (ReceiverLattice × ReceiverIrob) :=
  match state.irobs.find id with
  | some irob => some (state, irob)
  | none => do
      let (irobs, inserted) ← insert state.irobs (makePlaceholder id)
      -- ASSERT(ret)
      let _ ← inserted
      let irob ← irobs.find id
      some ({ state with irobs := irobs }, irob)

/-- `CSocketReceiver::do_begin_irob`. -/
def doBeginIrobWith (state : ReceiverLattice) (id : IrobId) (deps : List IrobId)
    (sendLabels : Nat) : Option Handled := do
  let (irobs, inserted) ← insert state.irobs (ReceiverIrob.mkBegun id deps sendLabels)
  match inserted with
  | none => some ⟨{ state with irobs := irobs }, .duplicate, none⟩
  | some _ => settle { state with irobs := irobs } id .taken

/-- `CSocketReceiver::do_end_irob`. -/
def doEndIrobWith (state : ReceiverLattice) (id : IrobId) (expectedBytes expectedChunks : Int) :
    Option Handled :=
  if (state.irobs.find id).isNone && state.irobs.pastIrobExists id then
    some ⟨state, .duplicate, some false⟩
  else do
    let (held, irob) ← state.findOrHoldWith insert id
    let (finished, fresh) ← irob.finish expectedBytes expectedChunks
    settle { held with irobs := held.irobs.update id fun _ => finished } id
      (if fresh then .taken else .duplicate)

/-- `CSocketReceiver::do_irob_chunk`, with the check of `read_data_buffer`. -/
def doIrobChunkWith (state : ReceiverLattice) (id : IrobId) (seqno offset : Nat)
    (data : List Byte) : Option Handled :=
  if data.isEmpty then some ⟨state, .controlException, none⟩
  else if (state.irobs.find id).isNone && state.irobs.pastIrobExists id then
    some ⟨state, .duplicate, none⟩
  else do
    let (held, irob) ← state.findOrHoldWith insert id
    let (added, fresh) ← irob.addChunk ⟨id, seqno, offset, data.length, some data⟩
    let stored := { held with irobs := held.irobs.update id fun _ => added }
    if fresh then settle stored id .taken
    else
      let complete ← added.isComplete
      if complete then settle stored id .duplicate
      else some ⟨stored, .fatalError, none⟩

/-- `CSocketReceiver::dispatch`, for the messages that carry an IROB. -/
def dispatchWith (state : ReceiverLattice) : Message → Option Handled
  | .beginIrob id deps sendLabels => state.doBeginIrobWith insert id deps sendLabels
  | .irobChunk id seqno offset data => state.doIrobChunkWith insert id seqno offset data
  | .endIrob id expectedBytes expectedChunks =>
      state.doEndIrobWith insert id expectedBytes expectedChunks

end Handlers

/-- `PendingIROBLattice::insert` without inference, on a deque with room for every index. -/
def insertRoomy (irobs : IrobLattice ReceiverPart) (irob : ReceiverIrob) :
    Option (IrobLattice ReceiverPart × Option ReceiverIrob) := irobs.insert irob false

def findOrHold (state : ReceiverLattice) (id : IrobId) : Option (ReceiverLattice × ReceiverIrob) :=
  state.findOrHoldWith insertRoomy id

def doBeginIrob (state : ReceiverLattice) (id : IrobId) (deps : List IrobId) (sendLabels : Nat) :
    Option Handled := state.doBeginIrobWith insertRoomy id deps sendLabels

def doEndIrob (state : ReceiverLattice) (id : IrobId) (expectedBytes expectedChunks : Int) :
    Option Handled := state.doEndIrobWith insertRoomy id expectedBytes expectedChunks

def doIrobChunk (state : ReceiverLattice) (id : IrobId) (seqno offset : Nat) (data : List Byte) :
    Option Handled := state.doIrobChunkWith insertRoomy id seqno offset data

/-- The handlers where the deque has room for every index. -/
def dispatch (state : ReceiverLattice) : Message → Option Handled
  | .beginIrob id deps sendLabels => state.doBeginIrob id deps sendLabels
  | .irobChunk id seqno offset data => state.doIrobChunk id seqno offset data
  | .endIrob id expectedBytes expectedChunks => state.doEndIrob id expectedBytes expectedChunks

theorem findOrHold_def (state : ReceiverLattice) (id : IrobId) :
    state.findOrHold id =
      match state.irobs.find id with
      | some irob => some (state, irob)
      | none => (state.irobs.insert (makePlaceholder id) false).bind fun result =>
          result.2.bind fun _ => (result.1.find id).bind fun irob =>
            some ({ state with irobs := result.1 }, irob) := rfl

theorem doBeginIrob_def (state : ReceiverLattice) (id : IrobId) (deps : List IrobId)
    (sendLabels : Nat) : state.doBeginIrob id deps sendLabels =
      (state.irobs.insert (ReceiverIrob.mkBegun id deps sendLabels) false).bind fun result =>
        match result.2 with
        | none => some ⟨{ state with irobs := result.1 }, .duplicate, none⟩
        | some _ => settle { state with irobs := result.1 } id .taken := rfl

theorem doEndIrob_def (state : ReceiverLattice) (id : IrobId)
    (expectedBytes expectedChunks : Int) : state.doEndIrob id expectedBytes expectedChunks =
      if (state.irobs.find id).isNone && state.irobs.pastIrobExists id then
        some ⟨state, .duplicate, some false⟩
      else (state.findOrHold id).bind fun held =>
        (held.2.finish expectedBytes expectedChunks).bind fun finished =>
          settle { held.1 with irobs := held.1.irobs.update id fun _ => finished.1 } id
            (if finished.2 then .taken else .duplicate) := rfl

theorem doIrobChunk_def (state : ReceiverLattice) (id : IrobId) (seqno offset : Nat)
    (data : List Byte) : state.doIrobChunk id seqno offset data =
      if data.isEmpty then some ⟨state, .controlException, none⟩
      else if (state.irobs.find id).isNone && state.irobs.pastIrobExists id then
        some ⟨state, .duplicate, none⟩
      else (state.findOrHold id).bind fun held =>
        (held.2.addChunk ⟨id, seqno, offset, data.length, some data⟩).bind fun added =>
          let stored := { held.1 with irobs := held.1.irobs.update id fun _ => added.1 }
          if added.2 then settle stored id .taken
          else added.1.isComplete.bind fun complete =>
            if complete then settle stored id .duplicate
            else some ⟨stored, .fatalError, none⟩ := rfl

/-! ### Reading -/

/-- The loop of `get_ready_irob` that skips entries without an IROB. -/
def popReady (irobs : IrobLattice ReceiverPart) :
    List IrobSchedulingData → Option (IrobId × ReceiverIrob) × List IrobSchedulingData
  | [] => (none, [])
  | task :: rest =>
      match irobs.find task.id with
      | none => popReady irobs rest
      | some irob => (some (task.id, irob), rest)

/-- `PendingReceiverIROBLattice::get_ready_irob`: an IROB with the identifier it was
found under. None stands for the sentinel and for the null pointer, on which `recv`
stops. -/
def getReadyIrob (state : ReceiverLattice) :
    Option (Option (IrobId × ReceiverIrob) × ReceiverLattice) :=
  match state.partiallyReadIrob with
  | some id => do
      let irob : ReceiverIrob ← state.irobs.find id
      let complete ← irob.isComplete
      -- ASSERT(0)
      if complete then some (some (id, irob), { state with partiallyReadIrob := none }) else none
  | none =>
      let popped := popReady state.irobs state.readyIrobs.tasks
      some (popped.1, { state with readyIrobs := ⟨popped.2⟩ })

/-- The body of the loop of `recv` for the IROB found under an identifier, of which
`len` bytes are wanted; the flag says whether the IROB is done with. -/
def passBytes (state : ReceiverLattice) (id : IrobId) (irob : ReceiverIrob) (len : Nat)
    (flags : RecvFlags) : Option (ReceiverLattice × Delivery × Bool) := do
  let complete ← irob.isComplete
  -- the three ASSERTs before the bytes are copied
  if irob.own.numBytes = 0 ∨ irob.isReady = false ∨ complete = false then none
  else
    let bytes ← irob.readData len
    let after ← (if flags.peek then some irob else irob.removeBytes bytes.length)
    let stillComplete ← after.isComplete
    let stored := state.irobs.update id fun _ => after
    let delivery := ⟨irob.id, irob.sendLabels, bytes, after.own.numBytes, state.irobs.pastIrobs⟩
    if stillComplete && decide (after.own.numBytes = 0) then
      let next ← releaseDependents { state with irobs := (stored.erase irob.id true).1 }
        after.dependents.toList
      some (next, delivery, true)
    -- ASSERT(!partially_read_irob)
    else if state.partiallyReadIrob.isSome then none
    else some ({ state with irobs := stored, partiallyReadIrob := some id }, delivery, false)

/-- The loop of `recv`. Every turn hands over at least one byte of the `len`
wanted, so `len` turns are enough. -/
def recvLoop : Nat → ReceiverLattice → Nat → RecvFlags → Option (ReceiverLattice × List Delivery)
  | _, state, 0, _ => some (state, [])
  | 0, _, _ + 1, _ => none
  | turns + 1, state, len + 1, flags => do
      let (ready, popped) ← state.getReadyIrob
      match ready with
      | none => some (popped, [])
      | some (id, irob) =>
          let (next, delivery, done) ← popped.passBytes id irob (len + 1) flags
          -- without MSG_WAITALL only one IROB is passed at a time
          if done && !flags.waitall then some (next, [delivery])
          else
            let (last, others) ← recvLoop turns next (len + 1 - delivery.bytes.length) flags
            some (last, delivery :: others)

/-- `PendingReceiverIROBLattice::recv`. -/
def recv (state : ReceiverLattice) (len : Nat) (flags : RecvFlags) :
    Option (ReceiverLattice × List Delivery) :=
  recvLoop len state len flags

end ReceiverLattice

/-! ### Runs of the receiver -/

/-- What an observer of the receiver sees: a `Begin_IROB` accepted for an IROB,
bytes handed to the application, an acknowledgment scheduled. -/
inductive Observation where
  | begun (id : IrobId) (deps : List IrobId)
  | delivered (delivery : Delivery)
  | acknowledged (id : IrobId)

/-- The receiver with what has been observed of it, newest first. -/
structure Receiver where
  lattice : ReceiverLattice
  history : List Observation

/-- A message arrives on some csocket, or the application calls `recv`. -/
inductive ReceiverEvent where
  | message (message : Message)
  | recv (len : Nat) (flags : RecvFlags)

namespace Receiver

/-- A receiver to which nothing has happened. -/
def empty : Receiver := ⟨.empty, []⟩

/-- What is observed of a handled message. -/
def observed (message : Message) (handled : Handled) : List Observation :=
  (if handled.ack.isSome then [.acknowledged message.id] else []) ++
    match message, handled.verdict with
    | .beginIrob id deps _, .taken => [.begun id deps]
    | _, _ => []

/-- A message is handled. -/
def receive (receiver : Receiver) (message : Message) : Option (Receiver × Verdict) :=
  (receiver.lattice.dispatch message).map fun handled =>
    (⟨handled.after, observed message handled ++ receiver.history⟩, handled.verdict)

/-- What is observed of a call of `recv`. Bytes that are only peeked at are not
handed over. -/
def handed (flags : RecvFlags) (deliveries : List Delivery) : List Observation :=
  if flags.peek then [] else (deliveries.map Observation.delivered).reverse

/-- The application reads. -/
def read (receiver : Receiver) (len : Nat) (flags : RecvFlags) : Option Receiver :=
  (receiver.lattice.recv len flags).map fun result =>
    ⟨result.1, handed flags result.2 ++ receiver.history⟩

/-- One event. An exception leaves the lattice as the handler left it. -/
def step (receiver : Receiver) : ReceiverEvent → Option Receiver
  | .message message => (receiver.receive message).map Prod.fst
  | .recv len flags => receiver.read len flags

/-- The receiver in an environment that raises any event about identifiers in
range and never peeks. -/
def machine : Machine Receiver ReceiverEvent where
  initial receiver := receiver = empty
  permitted _ event := match event with
    | .message message => message.id.InRange
    | .recv _ flags => flags.peek = false
  step := step

instance : ∀ receiver event, Decidable (machine.permitted receiver event)
  | _, .message message => inferInstanceAs (Decidable message.id.InRange)
  | _, .recv _ flags => inferInstanceAs (Decidable (flags.peek = false))

/-- A message is observed by its acknowledgment and the begin of its IROB. -/
theorem mem_observed {message : Message} {handled : Handled} {seen : Observation}
    (member : seen ∈ observed message handled) :
    (seen = .acknowledged message.id ∧ handled.ack.isSome = true) ∨
      ∃ id deps sendLabels, message = .beginIrob id deps sendLabels ∧
        handled.verdict = .taken ∧ seen = .begun id deps := by
  unfold observed at member
  rcases List.mem_append.mp member with acked | begun
  · split_ifs at acked with scheduled
    · exact .inl ⟨List.mem_singleton.mp acked, scheduled⟩
    · cases acked
  · split at begun
    · rename_i id deps sendLabels taken
      exact .inr ⟨id, deps, sendLabels, rfl, taken, List.mem_singleton.mp begun⟩
    · cases begun

@[simp] theorem handed_nil (flags : RecvFlags) : handed flags [] = [] := ite_self []

theorem handed_singleton {flags : RecvFlags} (noPeek : flags.peek = false) (delivery : Delivery)
    (history : List Observation) :
    handed flags [delivery] ++ history = .delivered delivery :: history := by
  rw [handed, noPeek]
  rfl

/-- A turn of the loop hands its bytes over before the turns that follow. -/
theorem handed_cons (flags : RecvFlags) (delivery : Delivery) (others : List Delivery)
    (history : List Observation) :
    handed flags (delivery :: others) ++ history =
      handed flags others ++ (handed flags [delivery] ++ history) := by
  unfold handed
  split_ifs
  · rfl
  · rw [List.map_cons, List.reverse_cons, List.append_assoc]
    rfl

end Receiver

end Libcmm
