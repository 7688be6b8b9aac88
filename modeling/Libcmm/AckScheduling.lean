import Libcmm.SenderIrob
import Libcmm.Scheduling
import Libcmm.Lib.Transition

/-! # Acknowledgments in the sender threads (`csocket_sender.cpp`)

Every csocket has a sender thread. It takes acknowledgments out of `waiting_acks`, of
its csocket or of the multisocket, and writes them on their own (`send_acks`) or in
front of a chunk (`irob_chunk`). A thread gives up the lock while it writes, so one step
here is what it does while it holds the lock. Between two steps it may have
acknowledgments in its hand. The parts of `schedule_work` that send other messages do
not touch these sets; that they return or throw is left open, and so is what the tests
in `irob_chunk` say.

`send_acks` does not put back the acknowledgment it was called with when its write
fails, and `irob_chunk` drops the one it was given when it returns before the write.
Otherwise every acknowledgment that was taken is written, in some hand, or waiting.
-/

namespace Libcmm

open Lib

/-- The indexes `schedule_work` is called with: those of the csocket or those of the
multisocket. -/
inductive Level where
  | csocket
  | multisocket
  deriving DecidableEq

/-- A write of everything, of less, or none. -/
inductive WriteOutcome where
  | full
  | short
  | failing
  deriving DecidableEq

/-- Where a call of `irob_chunk` ends: background data has to wait, the IROB is delegated
to another csocket, has been acknowledged or has no bytes to send, or the chunk is
written. Then `shared` says that other threads are let to send it too, and `pending` that
the IROB is still there after the write. -/
inductive ChunkOutcome where
  | notOkayToSendBg
  | delegated
  | acked
  | nothingReady
  | written (outcome : WriteOutcome) (shared pending : Bool)
  deriving DecidableEq

/-- The outcomes in which an acknowledgment that goes with the chunk is written or put
back. -/
def ChunkOutcome.settles : ChunkOutcome → Bool
  | .notOkayToSendBg | .written _ _ _ => true
  | .delegated | .acked | .nothingReady => false

/-- Where a sender thread is: outside `schedule_work`, in it and perhaps in the loop over
the chunks of one IROB, in the write of `send_acks`, in `irob_chunk`, or gone with an
exception. -/
inductive SenderTask where
  | idle
  | working (level : Level) (irob : Option IrobId)
  | sendAcks (level : Level) (data : IrobSchedulingData) (tmp : List IrobSchedulingData)
  | irobChunk (level : Level) (data : IrobSchedulingData) (ack : Option IrobSchedulingData)
  | failed

/-- The acknowledgments a thread has taken and not yet disposed of. -/
def SenderTask.hand : SenderTask → List IrobId
  | .sendAcks _ data tmp => data.id :: tmp.map (·.id)
  | .irobChunk _ _ (some ack) => [ack.id]
  | _ => []

/-- The scheduling state, the sender threads, and the identifiers of all
acknowledgments that were ever taken and of those in a full write. -/
structure Senders where
  multisocket : IrobSchedulingIndexes
  csockets : CSocketId → IrobSchedulingIndexes
  tasks : CSocketId → SenderTask
  taken : List IrobId
  written : List IrobId

/-- What happens: something is scheduled, or a thread does its next step. -/
inductive SenderEvent where
  | insert (csock : CSocketId) (level : Level) (data : IrobSchedulingData) (type : IndexType)
  | scheduleWork (csock : CSocketId) (level : Level)
  | acksWritten (csock : CSocketId) (outcome : WriteOutcome)
  | newIrob (csock : CSocketId) (begun : Bool)
  | popChunk (csock : CSocketId)
  | removeChunk (csock : CSocketId)
  | chunkDone (csock : CSocketId) (outcome : ChunkOutcome)
  | done (csock : CSocketId)
  | throw (csock : CSocketId)
  | handOver (csock : CSocketId) (replacement : Option CSocketId)

namespace Senders

/-- `MAX_ACKS`. -/
def maxAcks : Nat := 150

/-- The indexes of a level, as a thread sees them. -/
def indexes (senders : Senders) (csock : CSocketId) : Level → IrobSchedulingIndexes
  | .csocket => senders.csockets csock
  | .multisocket => senders.multisocket

def setIndexes (senders : Senders) (csock : CSocketId) (level : Level)
    (indexes : IrobSchedulingIndexes) : Senders :=
  match level with
  | .csocket => { senders with csockets := Function.update senders.csockets csock indexes }
  | .multisocket => { senders with multisocket := indexes }

def setTask (senders : Senders) (csock : CSocketId) (task : SenderTask) : Senders :=
  { senders with tasks := Function.update senders.tasks csock task }

/-- Something is scheduled. -/
def insert (senders : Senders) (csock : CSocketId) (level : Level) (data : IrobSchedulingData)
    (type : IndexType) : Senders :=
  senders.setIndexes csock level ((senders.indexes csock level).insert data type)

/-- The first part of `CSocketSender::schedule_work`, with `CSocketSender::send_acks` up to
its write. -/
def scheduleWork (senders : Senders) (csock : CSocketId) (level : Level) : Senders :=
  let indexes := senders.indexes csock level
  match indexes.waitingAcks.pop with
  | none => senders.setTask csock (.working level none)
  | some (data, rest) =>
      let tmp := rest.tasks.take maxAcks
      let erased := senders.setIndexes csock level
        { indexes with waitingAcks := ⟨rest.tasks.drop maxAcks⟩ }
      { erased.setTask csock (.sendAcks level data tmp) with
        taken := data.id :: tmp.map (·.id) ++ senders.taken }

/-- `CSocketSender::send_acks` after its write. -/
def acksWritten (senders : Senders) (csock : CSocketId) (level : Level)
    (data : IrobSchedulingData) (tmp : List IrobSchedulingData) : WriteOutcome → Senders
  | .full => { senders.setTask csock (.working level none) with
      written := data.id :: tmp.map (·.id) ++ senders.written }
  -- re-insert all ACKs
  | _ => (senders.setIndexes csock .multisocket { senders.multisocket with
      waitingAcks := senders.multisocket.waitingAcks.insertRange tmp }).setTask csock .failed

/-- `schedule_work` before a call of `irob_chunk` for a chunk it has taken: an
acknowledgment is popped to go with it. -/
def startChunk (senders : Senders) (csock : CSocketId) (level : Level)
    (data : IrobSchedulingData) : Senders :=
  let indexes := senders.indexes csock level
  match indexes.waitingAcks.pop with
  | none => senders.setTask csock (.irobChunk level data none)
  | some (ack, rest) =>
      let popped := senders.setIndexes csock level { indexes with waitingAcks := rest }
      { popped.setTask csock (.irobChunk level data (some ack)) with
        taken := ack.id :: senders.taken }

/-- `waiting_ack_irob`. -/
def waitingAckIrob (ack : Option IrobSchedulingData) : IrobId := (ack.map (·.id)).getD (-1)

/-- `CSocketSender::irob_chunk` after a full write. -/
def chunkSent (senders : Senders) (csock : CSocketId) (data : IrobSchedulingData)
    (waitingAckIrob : IrobId) (shared pending : Bool) : Senders :=
  let sent := { senders with written :=
    if waitingAckIrob = -1 then senders.written else waitingAckIrob :: senders.written }
  if pending && !shared then sent.insert csock .csocket data .newChunks else sent

/-- `CSocketSender::irob_chunk` after any other write, before it throws. -/
def chunkUnsent (senders : Senders) (csock : CSocketId) (data : IrobSchedulingData)
    (waitingAckIrob : IrobId) : Senders :=
  let again := senders.insert csock .multisocket data .newChunks
  if waitingAckIrob = -1 then again
  else again.insert csock .multisocket (.work waitingAckIrob false 0) .waitingAcks

/-- `CSocketSender::irob_chunk`. It returns nothing when it throws. -/
def irobChunk (senders : Senders) (csock : CSocketId) (data : IrobSchedulingData)
    (waitingAckIrob : IrobId) : ChunkOutcome → Senders × Option Bool
  | .notOkayToSendBg => (senders, some false)
  | .delegated | .acked | .nothingReady => (senders, some true)
  | .written outcome shared pending =>
      let announced := if shared then senders.insert csock .multisocket data .newChunks else senders
      if outcome = .full then
        (announced.chunkSent csock data waitingAckIrob shared pending, some true)
      else (announced.chunkUnsent csock data waitingAckIrob, none)

/-- `schedule_work` with the result of `irob_chunk`. -/
def chunkDone (senders : Senders) (csock : CSocketId) (level : Level) (data : IrobSchedulingData)
    (ack : Option IrobSchedulingData) (outcome : ChunkOutcome) : Senders :=
  match senders.irobChunk csock data (waitingAckIrob ack) outcome with
  | (next, some true) => next.setTask csock (.working level (some data.id))
  | (next, some false) =>
      let again := next.insert csock level data .newChunks
      (match ack with
        | some ack => if ack.id = -1 then again else again.insert csock level ack .waitingAcks
        | none => again).setTask csock (.working level none)
  | (next, none) => next.setTask csock .failed

/-- One step. A thread that is elsewhere does not take it. -/
def step (senders : Senders) : SenderEvent → Option Senders
  | .insert csock level data type => some (senders.insert csock level data type)
  | .scheduleWork csock level => match senders.tasks csock with
      | .idle => some (senders.scheduleWork csock level)
      | _ => none
  | .acksWritten csock outcome => match senders.tasks csock with
      | .sendAcks level data tmp => some (senders.acksWritten csock level data tmp outcome)
      | _ => none
  | .newIrob csock begun => match senders.tasks csock with
      | .working level none =>
          let indexes := senders.indexes csock level
          indexes.newIrobs.pop.map fun (data, rest) =>
            -- begin_irob
            if begun then (senders.setIndexes csock level { indexes with newIrobs := rest }).setTask
              csock (.working level (some data.id))
            else senders.setIndexes csock level { indexes with newIrobs := rest.insert data }
      | _ => none
  | .popChunk csock => match senders.tasks csock with
      | .working level none =>
          let indexes := senders.indexes csock level
          indexes.newChunks.pop.map fun (data, rest) =>
            (senders.setIndexes csock level { indexes with newChunks := rest }).startChunk
              csock level data
      | _ => none
  | .removeChunk csock => match senders.tasks csock with
      | .working level (some id) =>
          let indexes := senders.indexes csock level
          match indexes.newChunks.remove id with
          | none => some (senders.setTask csock (.working level none))
          | some (data, rest) =>
              some ((senders.setIndexes csock level { indexes with newChunks := rest }).startChunk
                csock level data)
      | _ => none
  | .chunkDone csock outcome => match senders.tasks csock with
      | .irobChunk level data ack => some (senders.chunkDone csock level data ack outcome)
      | _ => none
  | .done csock => match senders.tasks csock with
      | .working _ none => some (senders.setTask csock .idle)
      | _ => none
  | .throw csock => match senders.tasks csock with
      | .working _ none => some (senders.setTask csock .failed)
      | _ => none
  | .handOver csock replacement => match senders.tasks csock with
      | .failed => some (match replacement with
          | some other => senders.setIndexes other .csocket
              ((senders.csockets other).add (senders.csockets csock))
          | none => senders.setIndexes csock .multisocket
              (senders.multisocket.add (senders.csockets csock)))
      | _ => none

/-- An acknowledgment for an IROB waits in some set. -/
def Waiting (senders : Senders) (id : IrobId) : Prop :=
  ∃ csock level, ∃ entry ∈ (senders.indexes csock level).waitingAcks.tasks, entry.id = id

/-- Any scheduling state, with no thread in `schedule_work` yet. -/
def machine : Machine Senders SenderEvent where
  initial senders := (∀ csock, senders.tasks csock = .idle) ∧ senders.taken = []
  permitted _ _ := True
  step := step

instance (senders : Senders) (event : SenderEvent) : Decidable (machine.permitted senders event) :=
  .isTrue trivial

/-! ### No acknowledgment is lost -/

/-- An acknowledgment that was written, waits, or is in the hand of a thread. -/
def Accounted (senders : Senders) (id : IrobId) : Prop :=
  id ∈ senders.written ∨ senders.Waiting id ∨ ∃ csock, id ∈ (senders.tasks csock).hand

variable {senders after : Senders} {csock : CSocketId} {level : Level} {id : IrobId}

theorem indexes_setIndexes (senders : Senders) (csock other : CSocketId) (level read : Level)
    (indexes : IrobSchedulingIndexes) :
    (senders.setIndexes csock level indexes).indexes other read =
      if read = level ∧ (level = .multisocket ∨ other = csock) then indexes
      else senders.indexes other read := by
  cases level with
  | csocket =>
      cases read with
      | csocket =>
          by_cases same : other = csock
          · subst same
            simp [setIndexes, Senders.indexes]
          · simp [setIndexes, Senders.indexes, same]
      | multisocket => simp [setIndexes, Senders.indexes]
  | multisocket =>
      cases read with
      | csocket => simp [setIndexes, Senders.indexes]
      | multisocket => simp [setIndexes, Senders.indexes]

@[simp] theorem setIndexes_tasks (indexes : IrobSchedulingIndexes) :
    (senders.setIndexes csock level indexes).tasks = senders.tasks := by
  cases level <;> rfl

@[simp] theorem setIndexes_written (indexes : IrobSchedulingIndexes) :
    (senders.setIndexes csock level indexes).written = senders.written := by
  cases level <;> rfl

@[simp] theorem setIndexes_taken (indexes : IrobSchedulingIndexes) :
    (senders.setIndexes csock level indexes).taken = senders.taken := by
  cases level <;> rfl

/-- Where the sets of one level are replaced, an acknowledgment still waits unless it was
in these. -/
theorem Waiting.setIndexes (waiting : senders.Waiting id) (csock : CSocketId) (level : Level)
    (indexes : IrobSchedulingIndexes) :
    (senders.setIndexes csock level indexes).Waiting id ∨
      ∃ entry ∈ (senders.indexes csock level).waitingAcks.tasks, entry.id = id := by
  obtain ⟨other, read, entry, member, named⟩ := waiting
  by_cases same : read = level ∧ (level = .multisocket ∨ other = csock)
  · right
    obtain ⟨rfl, multi | rfl⟩ := same
    · subst multi
      exact ⟨entry, member, named⟩
    · exact ⟨entry, member, named⟩
  · left
    refine ⟨other, read, entry, ?_, named⟩
    rwa [indexes_setIndexes, if_neg same]

/-- What is in the new sets waits. -/
theorem waiting_setIndexes {indexes : IrobSchedulingIndexes} {entry : IrobSchedulingData}
    (member : entry ∈ indexes.waitingAcks.tasks) :
    (senders.setIndexes csock level indexes).Waiting entry.id := by
  refine ⟨csock, level, entry, ?_, rfl⟩
  rw [indexes_setIndexes, if_pos ⟨rfl, .inr rfl⟩]
  exact member

/-- Sets that keep all they had keep every acknowledgment waiting. -/
theorem Waiting.setIndexes_of_subset (waiting : senders.Waiting id)
    {indexes : IrobSchedulingIndexes}
    (kept : ∀ entry ∈ (senders.indexes csock level).waitingAcks.tasks,
      ∃ later ∈ indexes.waitingAcks.tasks, later.id = entry.id) :
    (senders.setIndexes csock level indexes).Waiting id := by
  rcases waiting.setIndexes csock level indexes with still | ⟨entry, member, rfl⟩
  · exact still
  · obtain ⟨later, inside, same⟩ := kept entry member
    exact same ▸ waiting_setIndexes inside

/-- An acknowledgment that is inserted waits. -/
theorem waiting_insert (senders : Senders) (csock : CSocketId) (level : Level)
    (data : IrobSchedulingData) : (senders.insert csock level data .waitingAcks).Waiting data.id := by
  obtain ⟨entry, member, named⟩ := IrobPrioritySet.exists_mem_place data
    (senders.indexes csock level).waitingAcks.tasks
  exact named ▸ waiting_setIndexes member

/-- A step of one thread keeps an acknowledgment accounted for if the thread does. -/
theorem Accounted.step (accounted : senders.Accounted id) (csock : CSocketId)
    (written : ∀ id ∈ senders.written, id ∈ after.written)
    (waiting : ∀ id, senders.Waiting id → after.Accounted id)
    (others : ∀ other, other ≠ csock → after.tasks other = senders.tasks other)
    (hand : ∀ id ∈ (senders.tasks csock).hand, after.Accounted id) : after.Accounted id := by
  rcases accounted with done | waits | ⟨other, held⟩
  · exact .inl (written id done)
  · exact waiting id waits
  · by_cases same : other = csock
    · exact hand id (same ▸ held)
    · refine .inr (.inr ⟨other, ?_⟩)
      rw [others other same]
      exact held

theorem hand_setTask (task : SenderTask) (held : id ∈ task.hand) :
    (senders.setTask csock task).Accounted id := by
  refine .inr (.inr ⟨csock, ?_⟩)
  change id ∈ (Function.update senders.tasks csock task csock).hand
  rw [Function.update_self]
  exact held

theorem tasks_setTask (task : SenderTask) {other : CSocketId} (different : other ≠ csock) :
    (senders.setTask csock task).tasks other = senders.tasks other :=
  Function.update_of_ne different _ _

/-- A thread with nothing in its hand moves on. -/
theorem Accounted.setTask (accounted : senders.Accounted id) (task : SenderTask)
    (free : (senders.tasks csock).hand = []) : (senders.setTask csock task).Accounted id := by
  refine accounted.step csock (fun _ member => member) (fun _ waiting => .inr (.inl waiting))
    (fun _ => tasks_setTask task) ?_
  rw [free]
  exact fun _ member => (List.not_mem_nil member).elim

/-! ### Taking acknowledgments -/

/-- Acknowledgments taken out of a set are in the hand of the thread. -/
theorem Accounted.take (accounted : senders.Accounted id) {indexes : IrobSchedulingIndexes}
    {task : SenderTask} (free : (senders.tasks csock).hand = []) (taken : List IrobId)
    (moved : ∀ entry ∈ (senders.indexes csock level).waitingAcks.tasks,
      entry.id ∈ task.hand ∨ entry ∈ indexes.waitingAcks.tasks) :
    Accounted { (senders.setIndexes csock level indexes).setTask csock task with
      taken := taken } id := by
  refine accounted.step csock ?_ ?_ ?_ ?_
  · intro query member
    simpa [Senders.setTask] using member
  · intro query waiting
    rcases waiting.setIndexes csock level indexes with still | ⟨entry, member, rfl⟩
    · exact .inr (.inl still)
    · rcases moved entry member with held | kept
      · have now : ((senders.setIndexes csock level indexes).setTask csock task).Accounted entry.id :=
          hand_setTask task held
        exact now
      · exact .inr (.inl (waiting_setIndexes kept))
  · intro other different
    simp [Senders.setTask, different]
  · rw [free]
    exact fun _ member => (List.not_mem_nil member).elim

theorem Accounted.scheduleWork (accounted : senders.Accounted id)
    (idle : senders.tasks csock = .idle) (level : Level) :
    (senders.scheduleWork csock level).Accounted id := by
  have free : (senders.tasks csock).hand = [] := by rw [idle]; rfl
  unfold Senders.scheduleWork
  cases tasks : (senders.indexes csock level).waitingAcks.tasks with
  | nil =>
      simp only [IrobPrioritySet.pop, tasks]
      exact accounted.setTask _ free
  | cons data rest =>
      simp only [IrobPrioritySet.pop, tasks]
      apply accounted.take free
      intro entry member
      rw [tasks] at member
      rcases List.mem_cons.mp member with rfl | later
      · exact .inl List.mem_cons_self
      · rw [← List.take_append_drop maxAcks rest] at later
        rcases List.mem_append.mp later with batched | kept
        · exact .inl (List.mem_cons_of_mem _ (List.mem_map_of_mem batched))
        · exact .inr kept

theorem Accounted.startChunk (accounted : senders.Accounted id)
    (free : (senders.tasks csock).hand = []) (level : Level) (data : IrobSchedulingData) :
    (senders.startChunk csock level data).Accounted id := by
  unfold Senders.startChunk
  cases tasks : (senders.indexes csock level).waitingAcks.tasks with
  | nil =>
      simp only [IrobPrioritySet.pop, tasks]
      exact accounted.setTask _ free
  | cons ack rest =>
      simp only [IrobPrioritySet.pop, tasks]
      apply accounted.take free
      intro entry member
      rw [tasks] at member
      rcases List.mem_cons.mp member with rfl | later
      · exact .inl List.mem_cons_self
      · exact .inr later

/-! ### Disposing of acknowledgments -/

/-- Work was scheduled and messages were written, and no thread has moved. -/
structure Extends (after before : Senders) : Prop where
  written : ∀ id ∈ before.written, id ∈ after.written
  waiting : ∀ id, before.Waiting id → after.Waiting id
  tasks : after.tasks = before.tasks
  taken : after.taken = before.taken

namespace Extends

variable {first second third : Senders}

theorem refl (senders : Senders) : senders.Extends senders :=
  ⟨fun _ member => member, fun _ waiting => waiting, rfl, rfl⟩

theorem trans (left : first.Extends second) (right : second.Extends third) :
    first.Extends third :=
  ⟨fun id member => left.written id (right.written id member),
    fun id waiting => left.waiting id (right.waiting id waiting), left.tasks.trans right.tasks,
    left.taken.trans right.taken⟩

theorem setIndexes {indexes : IrobSchedulingIndexes}
    (kept : ∀ entry ∈ (senders.indexes csock level).waitingAcks.tasks,
      ∃ later ∈ indexes.waitingAcks.tasks, later.id = entry.id) :
    (senders.setIndexes csock level indexes).Extends senders := by
  refine ⟨fun query member => ?_, fun query waiting => waiting.setIndexes_of_subset kept,
    setIndexes_tasks indexes, setIndexes_taken indexes⟩
  rwa [setIndexes_written]

theorem insert (senders : Senders) (csock : CSocketId) (level : Level) (data : IrobSchedulingData)
    (type : IndexType) : (senders.insert csock level data type).Extends senders :=
  setIndexes fun entry member => ⟨entry, IrobSchedulingIndexes.mem_insert_of_mem member, rfl⟩

theorem accounted (extends' : after.Extends senders) (accounted : senders.Accounted id) :
    after.Accounted id := by
  rcases accounted with written | waiting | ⟨other, held⟩
  · exact .inl (extends'.written id written)
  · exact .inr (.inl (extends'.waiting id waiting))
  · exact .inr (.inr ⟨other, extends'.tasks ▸ held⟩)

/-- The thread moves on after it has disposed of what was in its hand. -/
theorem setTask (extends' : after.Extends senders) (task : SenderTask)
    (disposed : ∀ id ∈ (senders.tasks csock).hand, id ∈ after.written ∨ after.Waiting id)
    (accounted : senders.Accounted id) : (after.setTask csock task).Accounted id := by
  refine accounted.step csock extends'.written
    (fun query waiting => .inr (.inl (extends'.waiting query waiting))) ?_ ?_
  · intro other different
    rw [tasks_setTask task different, extends'.tasks]
  · intro query held
    exact (disposed query held).imp_right .inl

end Extends

/-- The acknowledgment that goes with a chunk is in its full write. -/
theorem chunkSent_extends (senders : Senders) (csock : CSocketId) (data : IrobSchedulingData)
    (waitingAckIrob : IrobId) (shared pending : Bool) :
    (senders.chunkSent csock data waitingAckIrob shared pending).Extends senders ∧
      (waitingAckIrob ≠ -1 →
        waitingAckIrob ∈ (senders.chunkSent csock data waitingAckIrob shared pending).written) := by
  have sent : Extends { senders with written :=
      if waitingAckIrob = -1 then senders.written else waitingAckIrob :: senders.written } senders := by
    refine ⟨fun query member => ?_, fun _ waiting => waiting, rfl, rfl⟩
    dsimp only
    split_ifs
    · exact member
    · exact List.mem_cons_of_mem _ member
  have listed : waitingAckIrob ≠ -1 → waitingAckIrob ∈
      if waitingAckIrob = -1 then senders.written else waitingAckIrob :: senders.written := by
    intro some'
    rw [if_neg some']
    exact List.mem_cons_self
  unfold chunkSent
  dsimp only
  by_cases again : (pending && !shared) = true
  · rw [if_pos again]
    have inserted := Extends.insert { senders with written :=
      if waitingAckIrob = -1 then senders.written else waitingAckIrob :: senders.written }
      csock .csocket data .newChunks
    exact ⟨inserted.trans sent, fun some' => inserted.written _ (listed some')⟩
  · rw [if_neg again]
    exact ⟨sent, listed⟩

/-- After any other write it is put back. -/
theorem chunkUnsent_extends (senders : Senders) (csock : CSocketId) (data : IrobSchedulingData)
    (waitingAckIrob : IrobId) :
    (senders.chunkUnsent csock data waitingAckIrob).Extends senders ∧
      (waitingAckIrob ≠ -1 →
        (senders.chunkUnsent csock data waitingAckIrob).Waiting waitingAckIrob) := by
  have again := Extends.insert senders csock .multisocket data .newChunks
  unfold chunkUnsent
  dsimp only
  split_ifs with none
  · exact ⟨again, fun some' => (some' none).elim⟩
  · exact ⟨(Extends.insert _ _ _ _ _).trans again, fun _ => waiting_insert _ csock .multisocket _⟩

/-- What `irob_chunk` does to acknowledgments. -/
theorem irobChunk_extends (senders : Senders) (csock : CSocketId) (data : IrobSchedulingData)
    (waitingAckIrob : IrobId) (outcome : ChunkOutcome) :
    let result := senders.irobChunk csock data waitingAckIrob outcome
    result.1.Extends senders ∧
      (waitingAckIrob ≠ -1 → outcome.settles = true → result.2 ≠ some false →
        waitingAckIrob ∈ result.1.written ∨ result.1.Waiting waitingAckIrob) := by
  cases outcome with
  | notOkayToSendBg => exact ⟨.refl _, fun _ _ sent => (sent rfl).elim⟩
  | delegated => exact ⟨.refl _, fun _ settles => nomatch settles⟩
  | acked => exact ⟨.refl _, fun _ settles => nomatch settles⟩
  | nothingReady => exact ⟨.refl _, fun _ settles => nomatch settles⟩
  | written outcome shared pending =>
      have announced : (if shared then senders.insert csock .multisocket data .newChunks
          else senders).Extends senders := by
        split_ifs
        · exact .insert _ _ _ _ _
        · exact .refl _
      unfold irobChunk
      dsimp only
      by_cases full : outcome = .full
      · rw [if_pos full]
        obtain ⟨extends', written⟩ :=
          chunkSent_extends (if shared then senders.insert csock .multisocket data .newChunks
            else senders) csock data waitingAckIrob shared pending
        exact ⟨extends'.trans announced, fun some' _ _ => .inl (written some')⟩
      · rw [if_neg full]
        obtain ⟨extends', waiting⟩ :=
          chunkUnsent_extends (if shared then senders.insert csock .multisocket data .newChunks
            else senders) csock data waitingAckIrob
        exact ⟨extends'.trans announced, fun some' _ _ => .inr (waiting some')⟩

/-- The result of `irob_chunk` is handled. -/
theorem Accounted.chunkDone (accounted : senders.Accounted id) {data : IrobSchedulingData}
    {ack : Option IrobSchedulingData} (busy : senders.tasks csock = .irobChunk level data ack)
    {outcome : ChunkOutcome}
    (careful : ∀ held ∈ ack, outcome.settles = true ∧ held.id ≠ -1) :
    (senders.chunkDone csock level data ack outcome).Accounted id := by
  obtain ⟨extends', settled⟩ := irobChunk_extends senders csock data (waitingAckIrob ack) outcome
  have hand : ∀ query ∈ (senders.tasks csock).hand, ∃ held ∈ ack, held.id = query := by
    rw [busy]
    cases ack with
    | none => exact fun _ member => (List.not_mem_nil member).elim
    | some held =>
        intro query member
        exact ⟨held, rfl, (List.mem_singleton.mp member).symm⟩
  unfold Senders.chunkDone
  generalize senders.irobChunk csock data (waitingAckIrob ack) outcome = result at extends' settled ⊢
  obtain ⟨next, returned⟩ := result
  -- disposed of, unless `irob_chunk` refused to send
  have disposed : returned ≠ some false → ∀ query ∈ (senders.tasks csock).hand,
      query ∈ next.written ∨ next.Waiting query := by
    intro sent query held
    obtain ⟨entry, rfl, rfl⟩ := hand query held
    obtain ⟨settles, some'⟩ := careful entry rfl
    exact settled some' settles sent
  match returned with
  | some true => exact extends'.setTask _ (disposed nofun) accounted
  | none => exact extends'.setTask _ (disposed nofun) accounted
  | some false =>
      have again := (Extends.insert next csock level data .newChunks).trans extends'
      dsimp only
      cases ack with
      | none =>
          apply again.setTask _ _ accounted
          intro query held
          obtain ⟨entry, absent, -⟩ := hand query held
          cases absent
      | some held =>
          obtain ⟨-, some'⟩ := careful held rfl
          dsimp only
          rw [if_neg some']
          apply ((Extends.insert _ _ _ _ _).trans again).setTask _ _ accounted
          intro query member
          obtain ⟨entry, same, rfl⟩ := hand query member
          cases same
          exact .inr (waiting_insert _ _ _ _)

/-! ### Whole runs -/

/-- Acknowledgments are written in full, and one that goes with a chunk is given to an
`irob_chunk` that gets to its write or refuses to send. -/
def Careful (senders : Senders) : SenderEvent → Prop
  | .acksWritten _ outcome => outcome = .full
  | .chunkDone csock outcome => ∀ id ∈ (senders.tasks csock).hand, outcome.settles = true ∧ id ≠ -1
  | _ => True

/-- What a step can be. Work is scheduled, perhaps by a thread with an empty hand that
moves on, or such a thread takes acknowledgments, or one disposes of its own. -/
inductive Moves (senders : Senders) : SenderEvent → Senders → Prop where
  | schedule {event : SenderEvent} {after : Senders} : after.Extends senders →
      Moves senders event after
  | move {event : SenderEvent} {next : Senders} (csock : CSocketId) (task : SenderTask) :
      next.Extends senders → (senders.tasks csock).hand = [] →
      Moves senders event (next.setTask csock task)
  | scheduleWork (csock : CSocketId) (level : Level) : senders.tasks csock = .idle →
      Moves senders (.scheduleWork csock level) (senders.scheduleWork csock level)
  | startChunk {event : SenderEvent} {next : Senders} (csock : CSocketId) (level : Level)
      (data : IrobSchedulingData) : next.Extends senders →
      (∀ id, next.Waiting id → senders.Waiting id) → (senders.tasks csock).hand = [] →
      Moves senders event (next.startChunk csock level data)
  | acksWritten {csock : CSocketId} {outcome : WriteOutcome} {level : Level}
      {data : IrobSchedulingData} {tmp : List IrobSchedulingData} :
      senders.tasks csock = .sendAcks level data tmp →
      Moves senders (.acksWritten csock outcome) (senders.acksWritten csock level data tmp outcome)
  | chunkDone {csock : CSocketId} {outcome : ChunkOutcome} {level : Level}
      {data : IrobSchedulingData} {ack : Option IrobSchedulingData} :
      senders.tasks csock = .irobChunk level data ack →
      Moves senders (.chunkDone csock outcome) (senders.chunkDone csock level data ack outcome)

/-- The sets of a level are replaced by others with the same acknowledgments. -/
theorem Extends.of_sameAcks (senders : Senders) (csock : CSocketId) (level : Level)
    (indexes : IrobSchedulingIndexes)
    (same : indexes.waitingAcks = (senders.indexes csock level).waitingAcks) :
    (senders.setIndexes csock level indexes).Extends senders ∧
      ∀ id, (senders.setIndexes csock level indexes).Waiting id → senders.Waiting id := by
  refine ⟨.setIndexes fun entry member => ⟨entry, same ▸ member, rfl⟩, ?_⟩
  rintro id ⟨other, read, entry, member, named⟩
  rw [indexes_setIndexes] at member
  split_ifs at member with inside
  · exact ⟨csock, level, entry, same ▸ member, named⟩
  · exact ⟨other, read, entry, member, named⟩

/-- A csocket's work is added to that of another one or of the multisocket. -/
theorem Extends.of_add (senders : Senders) (csock : CSocketId) (level : Level)
    (other : IrobSchedulingIndexes) :
    (senders.setIndexes csock level ((senders.indexes csock level).add other)).Extends senders :=
  .setIndexes fun _ member => IrobPrioritySet.exists_mem_insertRange (.inl member)

theorem moves_of_step {event : SenderEvent} (moved : senders.step event = some after) :
    Moves senders event after := by
  cases event with
  | insert csock level data type =>
      cases moved
      exact .schedule (.insert _ _ _ _ _)
  | scheduleWork csock level =>
      cases task : senders.tasks csock <;> simp only [step, task, reduceCtorEq] at moved
      cases moved
      exact .scheduleWork csock level task
  | acksWritten csock outcome =>
      cases task : senders.tasks csock <;> simp only [step, task, reduceCtorEq] at moved
      cases moved
      exact .acksWritten task
  | newIrob csock begun =>
      cases task : senders.tasks csock <;> simp only [step, task, reduceCtorEq] at moved
      rename_i level irob
      cases irob <;> simp only [reduceCtorEq] at moved
      obtain ⟨⟨data, rest⟩, -, rfl⟩ := Option.map_eq_some_iff.mp moved
      dsimp only
      split_ifs
      · obtain ⟨extends', -⟩ := Extends.of_sameAcks senders csock level
          { senders.indexes csock level with newIrobs := rest } rfl
        exact .move csock _ extends' (by rw [task]; rfl)
      · obtain ⟨extends', -⟩ := Extends.of_sameAcks senders csock level
          { senders.indexes csock level with newIrobs := rest.insert data } rfl
        exact .schedule extends'
  | popChunk csock =>
      cases task : senders.tasks csock <;> simp only [step, task, reduceCtorEq] at moved
      rename_i level irob
      cases irob <;> simp only [reduceCtorEq] at moved
      obtain ⟨⟨data, rest⟩, -, rfl⟩ := Option.map_eq_some_iff.mp moved
      obtain ⟨extends', waiting⟩ := Extends.of_sameAcks senders csock level
        { senders.indexes csock level with newChunks := rest } rfl
      exact .startChunk csock level data extends' waiting (by rw [task]; rfl)
  | removeChunk csock =>
      cases task : senders.tasks csock <;> simp only [step, task, reduceCtorEq] at moved
      rename_i level irob
      cases irob <;> simp only [reduceCtorEq] at moved
      rename_i id
      cases removed : (senders.indexes csock level).newChunks.remove id with
      | none =>
          simp only [removed] at moved
          cases moved
          exact .move csock _ (.refl _) (by rw [task]; rfl)
      | some found =>
          obtain ⟨data, rest⟩ := found
          simp only [removed] at moved
          cases moved
          obtain ⟨extends', waiting⟩ := Extends.of_sameAcks senders csock level
            { senders.indexes csock level with newChunks := rest } rfl
          exact .startChunk csock level data extends' waiting (by rw [task]; rfl)
  | chunkDone csock outcome =>
      cases task : senders.tasks csock <;> simp only [step, task, reduceCtorEq] at moved
      cases moved
      exact .chunkDone task
  | done csock =>
      cases task : senders.tasks csock <;> simp only [step, task, reduceCtorEq] at moved
      rename_i level irob
      cases irob <;> simp only [reduceCtorEq] at moved
      cases moved
      exact .move csock _ (.refl _) (by rw [task]; rfl)
  | throw csock =>
      cases task : senders.tasks csock <;> simp only [step, task, reduceCtorEq] at moved
      rename_i level irob
      cases irob <;> simp only [reduceCtorEq] at moved
      cases moved
      exact .move csock _ (.refl _) (by rw [task]; rfl)
  | handOver csock replacement =>
      cases task : senders.tasks csock <;> simp only [step, task, reduceCtorEq] at moved
      cases moved
      cases replacement with
      | some other => exact .schedule (.of_add senders other .csocket _)
      | none => exact .schedule (.of_add senders csock .multisocket _)

/-- Every careful step keeps every acknowledgment accounted for. -/
theorem Accounted.of_moves (accounted : senders.Accounted id) {event : SenderEvent}
    (careful : senders.Careful event) (moves : Moves senders event after) :
    after.Accounted id := by
  cases moves with
  | schedule extends' => exact extends'.accounted accounted
  | move csock task extends' free =>
      apply extends'.setTask _ _ accounted
      rw [free]
      exact fun _ member => (List.not_mem_nil member).elim
  | scheduleWork csock level idle => exact accounted.scheduleWork idle level
  | startChunk csock level data extends' _ free =>
      exact (extends'.accounted accounted).startChunk (extends'.tasks ▸ free) level data
  | acksWritten busy =>
      cases careful
      refine accounted.step _ ?_ (fun _ waiting => .inr (.inl waiting))
        (fun _ => tasks_setTask _) ?_
      · exact fun _ member => List.mem_append_right _ member
      · rw [busy]
        exact fun _ member => .inl (List.mem_append_left _ member)
  | chunkDone busy =>
      apply accounted.chunkDone busy
      intro held member
      cases member
      apply careful
      rw [busy]
      exact List.mem_singleton_self _

theorem mem_taken_scheduleWork (member : id ∈ (senders.scheduleWork csock level).taken) :
    id ∈ senders.taken ∨ senders.Waiting id := by
  unfold scheduleWork at member
  cases tasks : (senders.indexes csock level).waitingAcks.tasks with
  | nil =>
      simp only [IrobPrioritySet.pop, tasks] at member
      exact .inl member
  | cons data rest =>
      simp only [IrobPrioritySet.pop, tasks] at member
      rcases List.mem_append.mp member with new | old
      · right
        have listed : ∃ entry ∈ data :: rest, entry.id = id := by
          rcases List.mem_cons.mp new with rfl | batched
          · exact ⟨data, List.mem_cons_self, rfl⟩
          · obtain ⟨entry, inside, named⟩ := List.mem_map.mp batched
            exact ⟨entry, List.mem_cons_of_mem _ (List.mem_of_mem_take inside), named⟩
        rw [← tasks] at listed
        exact ⟨csock, level, listed⟩
      · exact .inl old

theorem mem_taken_startChunk {data : IrobSchedulingData}
    (member : id ∈ (senders.startChunk csock level data).taken) :
    id ∈ senders.taken ∨ senders.Waiting id := by
  unfold startChunk at member
  cases tasks : (senders.indexes csock level).waitingAcks.tasks with
  | nil =>
      simp only [IrobPrioritySet.pop, tasks] at member
      exact .inl member
  | cons ack rest =>
      simp only [IrobPrioritySet.pop, tasks] at member
      rcases List.mem_cons.mp member with rfl | old
      · refine .inr ⟨csock, level, ack, ?_, rfl⟩
        rw [tasks]
        exact List.mem_cons_self
      · exact .inl old

theorem taken_chunkDone (data : IrobSchedulingData) (ack : Option IrobSchedulingData)
    (outcome : ChunkOutcome) :
    (senders.chunkDone csock level data ack outcome).taken = senders.taken := by
  obtain ⟨extends', -⟩ := irobChunk_extends senders csock data (waitingAckIrob ack) outcome
  unfold chunkDone
  generalize senders.irobChunk csock data (waitingAckIrob ack) outcome = result at extends' ⊢
  obtain ⟨next, returned⟩ := result
  match returned with
  | some true => exact extends'.taken
  | none => exact extends'.taken
  | some false =>
      have again := (Extends.insert next csock level data .newChunks).trans extends'
      dsimp only
      cases ack with
      | none => exact again.taken
      | some held =>
          dsimp only
          split_ifs
          · exact again.taken
          · exact ((Extends.insert _ csock level held .waitingAcks).trans again).taken

/-- An acknowledgment is taken out of a set in which it was waiting. -/
theorem mem_taken_of_moves {event : SenderEvent} (moves : Moves senders event after)
    (member : id ∈ after.taken) : id ∈ senders.taken ∨ senders.Waiting id := by
  cases moves with
  | schedule extends' => exact .inl (extends'.taken ▸ member)
  | move csock task extends' _ => exact .inl (extends'.taken ▸ member)
  | scheduleWork csock level _ => exact mem_taken_scheduleWork member
  | startChunk csock level data extends' waiting _ =>
      exact (mem_taken_startChunk member).imp (extends'.taken ▸ ·) (waiting id)
  | @acksWritten csock outcome level data tmp _ =>
      cases outcome with
      | full => exact .inl member
      | short => exact .inl member
      | failing => exact .inl member
  | chunkDone _ =>
      rw [taken_chunkDone] at member
      exact .inl member

/-- No acknowledgment is lost in runs of careful steps: one that was taken out of a set is
in a full write, is still in the hand of the thread that took it, or waits again. A
thread outside `schedule_work` has nothing in its hand. Acknowledgments are counted by the id
of their IROB; which entry of an id was written is not told. -/
theorem taken_accounted (reached : (machine.restrict Careful).Reachable senders) :
    (∀ id ∈ senders.taken, id ∈ senders.written ∨ senders.Waiting id ∨
      ∃ csock, id ∈ (senders.tasks csock).hand) ∧
    ((∀ csock, senders.tasks csock = .idle ∨ senders.tasks csock = .failed) →
      ∀ id ∈ senders.taken, id ∈ senders.written ∨ senders.Waiting id) := by
  have accounted : ∀ id ∈ senders.taken, senders.Accounted id := by
    apply reached.induct (motive := fun senders => ∀ id ∈ senders.taken, senders.Accounted id)
    · rintro first ⟨-, none⟩ id member
      rw [none] at member
      cases member
    · rintro before after event - held ⟨-, careful⟩ moved id member
      have moves := moves_of_step moved
      apply Accounted.of_moves _ careful moves
      rcases mem_taken_of_moves moves member with old | waiting
      · exact held id old
      · exact .inr (.inl waiting)
  refine ⟨accounted, fun ended id member => ?_⟩
  rcases accounted id member with written | waiting | ⟨csock, held⟩
  · exact .inl written
  · exact .inr waiting
  · rcases ended csock with idle | failed
    · rw [idle] at held
      cases held
    · rw [failed] at held
      cases held

instance (senders : Senders) : DecidablePred senders.Careful
  | .acksWritten _ outcome => inferInstanceAs (Decidable (outcome = .full))
  | .chunkDone csock outcome => inferInstanceAs (Decidable
      (∀ id ∈ (senders.tasks csock).hand, outcome.settles = true ∧ id ≠ -1))
  | .insert _ _ _ _ | .scheduleWork _ _ | .newIrob _ _ | .popChunk _ | .removeChunk _ | .done _
  | .throw _ | .handOver _ _ => .isTrue trivial

/-- Idle threads, and nothing scheduled. -/
def idle : Senders := ⟨.empty, fun _ => .empty, fun _ => .idle, [], []⟩

theorem idle_initial : machine.initial idle := ⟨fun _ => rfl, rfl⟩

/-- Two acknowledgments are written together, and a third one is put back with its chunk
when a write fails. -/
def carefulEvents : List SenderEvent :=
  [.insert 0 .csocket (.ack 5 ⟨1, 0⟩ 0) .waitingAcks,
    .insert 0 .csocket (.ack 6 ⟨2, 0⟩ 0) .waitingAcks, .scheduleWork 0 .csocket,
    .insert 0 .csocket (.ack 7 ⟨3, 0⟩ 0) .waitingAcks,
    .insert 0 .csocket (.work 9 true 0) .newChunks, .acksWritten 0 .full, .popChunk 0,
    .chunkDone 0 (.written .short false true)]

theorem taken_accounted_put_back : ∃ senders, (machine.restrict Careful).Reachable senders ∧
    senders.taken = [7, 5, 6] ∧ senders.written = [5, 6] ∧
    ∀ id ∈ senders.taken, id ∈ senders.written ∨ senders.Waiting id ∨
      ∃ csock, id ∈ (senders.tasks csock).hand := by
  have ran : ∃ senders, (machine.restrict Careful).run idle carefulEvents = some senders ∧
      senders.taken = [7, 5, 6] ∧ senders.written = [5, 6] := ⟨_, rfl, rfl, rfl⟩
  obtain ⟨senders, ran, taken, written⟩ := ran
  have start : (machine.restrict Careful).Reachable idle := .initial idle_initial
  have reached := start.run ran
  exact ⟨senders, reached, taken, written, (taken_accounted reached).1⟩

/-- An acknowledgment is taken to be written, and the write fails. -/
def failedWriteEvents : List SenderEvent :=
  [.insert 0 .csocket (.ack 5 ⟨1, 0⟩ 0) .waitingAcks, .scheduleWork 0 .csocket,
    .acksWritten 0 .failing]

/-- An acknowledgment is to go with a chunk that is delegated to another csocket. -/
def delegatedEvents : List SenderEvent :=
  [.insert 0 .csocket (.work 9 true 0) .newChunks, .scheduleWork 0 .csocket,
    .insert 0 .csocket (.ack 5 ⟨1, 0⟩ 0) .waitingAcks, .popChunk 0, .chunkDone 0 .delegated,
    .removeChunk 0, .done 0]

/-- A run after which no thread is in `schedule_work` and an acknowledgment that was taken
is neither written nor waiting. -/
def Loses (events : List SenderEvent) (id : IrobId) : Prop :=
  ∃ senders, machine.run idle events = some senders ∧ machine.Reachable senders ∧
    (∀ csock, senders.tasks csock = .idle ∨ senders.tasks csock = .failed) ∧
    id ∈ senders.taken ∧ id ∉ senders.written ∧ ¬senders.Waiting id

theorem loses_of_run {events : List SenderEvent} (ran : machine.run idle events = some senders)
    (ended : ∀ csock, senders.tasks csock = .idle ∨ senders.tasks csock = .failed)
    (taken : senders.taken = [id]) (written : senders.written = [])
    (none : ∀ csock level, (senders.indexes csock level).waitingAcks.tasks = []) :
    Loses events id := by
  refine ⟨senders, ran, Machine.Reachable.run (.initial idle_initial) ran, ended, ?_, ?_, ?_⟩
  · rw [taken]
    exact List.mem_singleton_self _
  · rw [written]
    exact List.not_mem_nil
  · rintro ⟨csock, level, entry, member, -⟩
    rw [none] at member
    cases member

theorem acknowledgment_lost : Loses failedWriteEvents 5 ∧ Loses delegatedEvents 5 := by
  constructor
  · apply loses_of_run rfl _ rfl rfl
    · intro csock level
      cases level <;> cases csock <;> rfl
    · intro csock
      cases csock with
      | zero => exact .inr rfl
      | succ _ => exact .inl rfl
  · apply loses_of_run rfl _ rfl rfl
    · intro csock level
      cases level <;> cases csock <;> rfl
    · intro csock
      cases csock with
      | zero => exact .inl rfl
      | succ _ => exact .inl rfl

end Senders

end Libcmm
