import Libcmm.Announcing
import Libcmm.SenderRuns

/-! # Work that is pending for an IROB

While an IROB is sent on one network at a time, the senders share one place in its bytes
(`Plain`). Once its `Begin_IROB` is announced, bytes that are not chunked have a task
somewhere: in an index, in the hand of a thread, or in a thunk. Once the IROB is complete and
all of it is chunked, its `End_IROB` has been written or is on its way: as a task, behind a
message that a thread writes just now, or along with a data check. `Kept` says this, and the
lemmas here say what the IROB, the tasks, the threads and the thunks may do without losing
it.
-/

namespace Libcmm

open Lib

namespace SenderIrob

/-- The senders share one place in the bytes, behind the last block, and nothing is to be
sent again. -/
structure Plain (data : List Byte) (blocks : List (List Byte)) (irob : SenderIrob) : Prop where
  chunked : Chunked data blocks irob
  resend : irob.own.resendChunks = []
  single : irob.own.sendOnAllNetworks = false
  place : irob.own.nextSeqnosToSend none = blocks.length
  announcements : ∀ csock, irob.own.announcements (some csock) = false

/-- What is announced, and of how many bytes, is the same. -/
structure SameMarks (after before : SenderIrob) : Prop where
  id : after.id = before.id
  chunks : after.chunks = before.chunks
  complete : after.complete = before.complete
  announcements : after.own.announcements = before.own.announcements
  endAnnouncements : after.own.endAnnouncements = before.own.endAnnouncements

theorem SameMarks.expectedBytes {after before : SenderIrob} (same : SameMarks after before) :
    after.expectedBytes = before.expectedBytes := by
  rw [SenderIrob.expectedBytes, SenderIrob.expectedBytes, same.chunks]

namespace Plain

variable {data : List Byte} {blocks : List (List Byte)} {irob : SenderIrob}

theorem nullIndex (plain : Plain data blocks irob) (csock : CSocketId) :
    irob.nullIndexIfSingleSending csock = none := by
  rw [nullIndexIfSingleSending, plain.single]
  rfl

theorem wasAnnounced (plain : Plain data blocks irob) (csock : CSocketId) :
    irob.wasAnnounced csock = irob.own.announcements none := by
  rw [SenderIrob.wasAnnounced, plain.nullIndex]

theorem endWasAnnounced (plain : Plain data blocks irob) (csock : CSocketId) :
    irob.endWasAnnounced csock = irob.own.endAnnouncements none := by
  rw [SenderIrob.endWasAnnounced, plain.nullIndex]

theorem initial (id : IrobId) (deps : List IrobId) (data : List Byte) (sendLabels : Nat) :
    Plain data [] (SenderIrob.mk id deps data sendLabels) :=
  ⟨.initial id deps data sendLabels, rfl, rfl, rfl, fun _ => rfl⟩

theorem addChunk (plain : Plain data blocks irob) (open' : irob.complete = false)
    (bytes : List Byte) : Plain (data ++ bytes) blocks
      (irob.addChunk ⟨irob.id, 0, 0, bytes.length, some bytes⟩).1 := by
  have chunked := plain.chunked.addChunk bytes
  rw [open'] at chunked
  refine ⟨chunked, ?_, ?_, ?_, ?_⟩ <;> rw [SenderIrob.addChunk, open']
  · exact plain.resend
  · exact plain.single
  · exact plain.place
  · exact plain.announcements

theorem finish (plain : Plain data blocks irob) : Plain data blocks irob.finish.1 := by
  refine ⟨plain.chunked.finish, ?_, ?_, ?_, ?_⟩ <;> unfold PendingIrob.finish <;> split_ifs
  · exact plain.resend
  · exact plain.resend
  · exact plain.single
  · exact plain.single
  · exact plain.place
  · exact plain.place
  · exact plain.announcements
  · exact plain.announcements

theorem markAnnouncementSent (plain : Plain data blocks irob) (csock : CSocketId) :
    Plain data blocks (irob.markAnnouncementSent csock) := by
  refine ⟨plain.chunked.congr rfl rfl ⟨_, _, _, rfl⟩, plain.resend, plain.single, plain.place, ?_⟩
  intro other
  rw [SenderIrob.markAnnouncementSent, plain.nullIndex]
  change Function.update irob.own.announcements none true (some other) = false
  rw [Function.update_of_ne (Option.some_ne_none other)]
  exact plain.announcements other

theorem announced_mark (plain : Plain data blocks irob) (csock : CSocketId) :
    (irob.markAnnouncementSent csock).own.announcements none = true := by
  rw [SenderIrob.markAnnouncementSent, plain.nullIndex]
  change Function.update irob.own.announcements none true none = true
  exact Function.update_self _ _ _

theorem markEndAnnouncementSent (plain : Plain data blocks irob) (csock : CSocketId) :
    Plain data blocks (irob.markEndAnnouncementSent csock) :=
  ⟨plain.chunked.congr rfl rfl ⟨_, _, _, rfl⟩, plain.resend, plain.single, plain.place,
    plain.announcements⟩

/-- A thread gets no bytes only when all are chunked. What it gets is the next block. -/
theorem getReadyBytes (plain : Plain data blocks irob) {csock : CSocketId} {requested : Int}
    {sent : SenderIrob} {transmission : Transmission}
    (got : irob.getReadyBytes csock requested = some (sent, transmission)) :
    (transmission.bytes = [] ∧ sent = irob ∧ irob.allBytesChunked = true) ∨
    (transmission.bytes ≠ [] ∧ Plain data (blocks ++ [transmission.bytes]) sent ∧
      SameMarks sent irob ∧ transmission.seqno = blocks.length ∧
      transmission.offset = blocks.flatten.length) := by
  obtain ⟨pieces, whole, given⟩ := plain.chunked.getReadyBytes_new csock requested plain.resend
    ((congrArg irob.own.nextSeqnosToSend (plain.nullIndex csock)).trans plain.place)
  rcases given with ⟨none, result⟩ | ⟨nonempty, after, result, chunked, -⟩
  · cases result.symm.trans got
    refine .inl ⟨none, rfl, plain.chunked.allBytesChunked_iff.mpr ?_⟩
    apply plain.chunked.within.eq_of_length_le
    have length := congrArg List.length whole
    rw [none, List.length_nil, List.length_take, List.length_drop] at length
    split_ifs at length <;> omega
  · cases result.symm.trans got
    rcases getReadyBytes_cases got with ⟨_, _, waiting, -⟩ | ⟨-, -, empty⟩ | ⟨-, -, -, added⟩
    · cases plain.resend.symm.trans waiting
    · exact absurd empty nonempty
    · obtain ⟨_, _, rfl, -⟩ := addSentChunk_cases added
      refine .inr ⟨nonempty, ⟨chunked, plain.resend, plain.single, ?_, plain.announcements⟩,
        ⟨rfl, rfl, rfl, rfl, rfl⟩, rfl, rfl⟩
      simp only [plain.nullIndex, Function.update_self, List.length_append, List.length_singleton]

end Plain

end SenderIrob

/-- It is an `End_IROB`. -/
def Message.isEnd : Message → Bool
  | .endIrob _ _ _ => true
  | _ => false

namespace Hand

/-- The messages of which the write is not done. -/
def messages : Hand → List Message
  | .beginWrite messages _ => messages
  | .chunkWrite message _ => [message]
  | .endWrite message => [message]
  | .dataCheckWrite messages => messages
  | _ => []

/-- The thread will look for bytes to chunk, or schedule a task to do so. -/
def chunks : Hand → Bool
  | .chunk _ => true
  | .chunkWrite _ shared => !shared
  | _ => false

/-- The thread will write the `End_IROB`, or see that it is time for it. -/
def ends : Hand → Bool
  | .beginWrite _ sendingAllIrobInfo => sendingAllIrobInfo
  | .chunkWrite _ _ => true
  | .endWrite _ => true
  | .dataCheckWrite messages => messages.any Message.isEnd
  | _ => false

/-- Nothing depends on the thread. -/
def free : Hand → Bool
  | .idle => true
  | .begin _ => true
  | .dataCheck => true
  | _ => false

/-- A chunk is written, and another task for it was scheduled before. -/
def shared : Hand → Bool
  | .chunkWrite _ shared => shared
  | _ => false

theorem eq_of_free {hand : Hand} (free : hand.free = true) :
    hand = .idle ∨ (∃ place, hand = .begin place) ∨ hand = .dataCheck := by
  cases hand with
  | idle => exact .inl rfl
  | begin place => exact .inr (.inl ⟨place, rfl⟩)
  | dataCheck => exact .inr (.inr rfl)
  | _ => exact Bool.noConfusion free

theorem messages_of_free {hand : Hand} (free : hand.free = true) : hand.messages = [] := by
  rcases eq_of_free free with rfl | ⟨place, rfl⟩ | rfl <;> rfl

theorem chunks_of_free {hand : Hand} (free : hand.free = true) : hand.chunks = false := by
  rcases eq_of_free free with rfl | ⟨place, rfl⟩ | rfl <;> rfl

theorem ends_of_free {hand : Hand} (free : hand.free = true) : hand.ends = false := by
  rcases eq_of_free free with rfl | ⟨place, rfl⟩ | rfl <;> rfl

end Hand

namespace Sending

open SenderIrob

/-- An `End_IROB` with the total of the IROB is among some messages. -/
def HasEnd (irob : SenderIrob) (messages : List Message) : Prop :=
  ∃ chunks, Message.endIrob irob.id irob.expectedBytes chunks ∈ messages

/-- What a thread has in its hand is right for the IROB. -/
def Fits (irob : SenderIrob) : Hand → Prop
  | .beginWrite messages sendingAllIrobInfo =>
      sendingAllIrobInfo = true → irob.ends = true ∧ HasEnd irob messages
  | .chunk _ => irob.own.announcements none = true
  | .chunkWrite _ _ => irob.own.announcements none = true
  | .endWrite message => irob.ends = true ∧ HasEnd irob [message]
  | .dataCheckWrite messages =>
      messages.any Message.isEnd = true → irob.ends = true ∧ HasEnd irob messages
  | _ => True

/-- The messages stay right for an IROB that keeps its marks, and its total once it has
ended. -/
structure Follows (after before : SenderIrob) : Prop where
  announced : before.own.announcements none = true → after.own.announcements none = true
  ends : before.ends = true → after.ends = true
  id : after.id = before.id
  total : before.complete = true → after.expectedBytes = before.expectedBytes

theorem HasEnd.follow {before after : SenderIrob} {messages : List Message}
    (has : HasEnd before messages) (follows : Follows after before)
    (complete : before.complete = true) : HasEnd after messages := by
  obtain ⟨chunks, member⟩ := has
  refine ⟨chunks, ?_⟩
  rw [follows.id, follows.total complete]
  exact member

theorem Fits.idle (irob : SenderIrob) : Fits irob .idle := trivial

theorem Fits.follow {before after : SenderIrob} {hand : Hand} (fits : Fits before hand)
    (follows : Follows after before) : Fits after hand := by
  have carried : ∀ {messages}, before.ends = true ∧ HasEnd before messages →
      after.ends = true ∧ HasEnd after messages := fun ⟨ends, has⟩ =>
    ⟨follows.ends ends, has.follow follows (Bool.and_eq_true_iff.mp ends).1⟩
  cases hand with
  | idle => trivial
  | begin place => trivial
  | beginWrite messages sendingAllIrobInfo => exact fun all => carried (fits all)
  | chunk place => exact follows.announced fits
  | chunkWrite message shared => exact follows.announced fits
  | endWrite message => exact carried fits
  | dataCheck => trivial
  | dataCheckWrite messages => exact fun some => carried (fits some)

/-- Someone will look for bytes to chunk. -/
def ChunkWork (state : Sending) : Prop :=
  (∃ place, state.tasks .newChunks place = true) ∨ (∃ csock, (state.hands csock).chunks = true) ∨
    0 < state.parked true

/-- The `End_IROB` is written, or someone will see to it. -/
def EndWork (state : Sending) (irob : SenderIrob) : Prop :=
  HasEnd irob state.written ∨ (∃ place, state.tasks .finishedIrobs place = true) ∨
    ∃ csock, (state.hands csock).ends = true

/-- The block with a sequence number, as a chunk. -/
def chunkOf (irob : SenderIrob) (blocks : List (List Byte)) (seqno : Nat) (block : List Byte) :
    Message :=
  .irobChunk irob.id seqno (blocks.take seqno).flatten.length block

/-- A message brings the block that was cut off last. -/
theorem chunkOf_last {irob : SenderIrob} {blocks : List (List Byte)} {transmission : Transmission}
    (seqno : transmission.seqno = blocks.length)
    (offset : transmission.offset = blocks.flatten.length) :
    chunkOf irob (blocks ++ [transmission.bytes]) blocks.length transmission.bytes =
      irob.chunkMessage transmission := by
  rw [chunkOf, chunkMessage, List.take_left, seqno, offset]

/-- No work on an announced IROB is lost. -/
structure Kept (data : List Byte) (blocks : List (List Byte)) (irob : SenderIrob)
    (state : Sending) : Prop where
  plain : Plain data blocks irob
  newChunks : ∀ place, state.tasks .newChunks place = true → irob.own.announcements none = true
  finished : ∀ place, state.tasks .finishedIrobs place = true → irob.ends = true
  hands : ∀ csock, Fits irob (state.hands csock)
  parked : 0 < state.parked true → irob.own.announcements none = true ∧
    (irob.complete = true → irob.allBytesChunked = true)
  chunking : irob.own.announcements none = true → irob.allBytesChunked = false → state.ChunkWork
  ending : irob.ends = true → state.EndWork irob
  ended : irob.own.endAnnouncements none = true →
    irob.complete = true ∧ HasEnd irob state.written
  sent : ∀ seqno block, blocks[seqno]? = some block → chunkOf irob blocks seqno block ∈ state.written ∨
    ∃ csock, chunkOf irob blocks seqno block ∈ (state.hands csock).messages

/-- Nothing changes but that tasks of one type are scheduled. -/
structure Schedules (type : IndexType) (before after : Sending) : Prop where
  parked : after.parked = before.parked
  hands : after.hands = before.hands
  written : after.written = before.written
  more : ∀ other place, before.tasks other place = true → after.tasks other place = true
  only : ∀ other place, after.tasks other place = true →
    other = type ∨ before.tasks other place = true

section Schedules

variable {before after : Sending} {type : IndexType}

/-- The IROB is stored. -/
theorem Schedules.store (type : IndexType) (state : Sending) (irob : Option SenderIrob)
    (returned : Bool) :
    Schedules type state { state with irob := irob, returned := returned } :=
  ⟨rfl, rfl, rfl, fun _ _ scheduled => scheduled, fun _ _ => .inr⟩

/-- The IROB is stored and a task is scheduled. -/
theorem Schedules.insert (state : Sending) (type : IndexType) (place : Place)
    (irob : Option SenderIrob) (returned : Bool) : Schedules type state
      ({ state with irob := irob, returned := returned }.insert type place) := by
  refine ⟨rfl, rfl, rfl, fun other elsewhere scheduled => ?_, fun other elsewhere scheduled => ?_⟩
  · simp only [Sending.insert]
    split_ifs
    · rfl
    · exact scheduled
  · simp only [Sending.insert] at scheduled
    split_ifs at scheduled with same
    · exact .inl same.1
    · exact .inr scheduled

theorem tasks_insert (state : Sending) (type : IndexType) (place : Place) :
    (state.insert type place).tasks type place = true :=
  if_pos ⟨rfl, rfl⟩

theorem tasks_of_take {state taken : Sending} {type : IndexType} {place : Place}
    (took : state.take type place = some taken) : state.tasks type place = true := by
  unfold Sending.take at took
  split_ifs at took with there
  exact there

theorem ChunkWork.schedule (work : before.ChunkWork) (schedules : Schedules type before after) :
    after.ChunkWork := by
  unfold ChunkWork
  rw [schedules.hands, schedules.parked]
  exact work.imp_left fun ⟨place, scheduled⟩ => ⟨place, schedules.more _ _ scheduled⟩

theorem EndWork.schedule {irob : SenderIrob} (work : before.EndWork irob)
    (schedules : Schedules type before after) : after.EndWork irob := by
  unfold EndWork
  rw [schedules.hands, schedules.written]
  exact work.imp_right (.imp_left fun ⟨place, scheduled⟩ => ⟨place, schedules.more _ _ scheduled⟩)

end Schedules

section Hands

variable {state : Sending} {csock : CSocketId} {hand : Hand}

@[simp]
theorem hands_setHand_self : (state.setHand csock hand).hands csock = hand :=
  Function.update_self _ _ _

theorem hands_setHand_of_ne {other : CSocketId} (different : other ≠ csock) :
    (state.setHand csock hand).hands other = state.hands other :=
  Function.update_of_ne different _ _

/-- What some thread has in its hand, it has still, if it is not the one that goes on. -/
theorem someHand (holds : Hand → Prop) (some : ∃ other, holds (state.hands other)) :
    holds (state.hands csock) ∨ ∃ other, holds ((state.setHand csock hand).hands other) := by
  obtain ⟨other, held⟩ := some
  by_cases same : other = csock
  · rw [same] at held
    exact .inl held
  · refine .inr ⟨other, ?_⟩
    rw [hands_setHand_of_ne same]
    exact held

end Hands

namespace Kept

variable {data : List Byte} {blocks : List (List Byte)} {irob : SenderIrob} {state : Sending}

/-- The IROB changes and tasks are scheduled, but no thread does anything. -/
theorem change (kept : Kept data blocks irob state) {later : List Byte} {after : SenderIrob}
    {next : Sending} {type : IndexType} (schedules : Schedules type state next)
    (plain : Plain later blocks after) (follows : Follows after irob)
    (newChunks : type = .newChunks → after.own.announcements none = true)
    (finished : type = .finishedIrobs → after.ends = true)
    (parked : 0 < state.parked true → after.complete = true → after.allBytesChunked = true)
    (chunking : after.own.announcements none = true → after.allBytesChunked = false →
      next.ChunkWork)
    (ending : after.ends = true → next.EndWork after)
    (ended : after.own.endAnnouncements none = true →
      after.complete = true ∧ HasEnd after state.written) : Kept later blocks after next where
  plain := plain
  newChunks place scheduled := (schedules.only _ _ scheduled).elim (fun same => newChunks same.symm)
    fun before => follows.announced (kept.newChunks place before)
  finished place scheduled := (schedules.only _ _ scheduled).elim (fun same => finished same.symm)
    fun before => follows.ends (kept.finished place before)
  hands csock := by
    rw [schedules.hands]
    exact (kept.hands csock).follow follows
  parked waiting := by
    rw [schedules.parked] at waiting
    exact ⟨follows.announced (kept.parked waiting).1, parked waiting⟩
  chunking := chunking
  ending := ending
  ended := by
    rw [schedules.written]
    exact ended
  sent seqno block listed := by
    rw [schedules.written, schedules.hands, chunkOf, follows.id]
    exact kept.sent seqno block listed

/-- A task is scheduled, of chunks only for an announced IROB, and of the end only for one
that has ended. -/
theorem schedule (kept : Kept data blocks irob state) {type : IndexType} {next : Sending}
    (schedules : Schedules type state next)
    (newChunks : type = .newChunks → irob.own.announcements none = true)
    (finished : type = .finishedIrobs → irob.ends = true) : Kept data blocks irob next :=
  kept.change schedules kept.plain ⟨id, id, rfl, fun _ => rfl⟩ newChunks finished
    (fun waiting => (kept.parked waiting).2)
    (fun announced left => (kept.chunking announced left).schedule schedules)
    (fun ends => (kept.ending ends).schedule schedules) kept.ended

/-- The application adds bytes to an open IROB. If it was announced there is a task for
them. -/
theorem addChunk (kept : Kept data blocks irob state) (open' : irob.complete = false)
    (bytes : List Byte) {type : IndexType} {next : Sending} (schedules : Schedules type state next)
    (newChunks : type = .newChunks → irob.own.announcements none = true)
    (finished : type ≠ .finishedIrobs)
    (work : irob.own.announcements none = true → ∃ place, next.tasks .newChunks place = true) :
    Kept (data ++ bytes) blocks
      (irob.addChunk ⟨irob.id, 0, 0, bytes.length, some bytes⟩).1 next := by
  have added : (irob.addChunk ⟨irob.id, 0, 0, bytes.length, some bytes⟩).1 = { irob with
      chunks := irob.chunks ++ [⟨irob.id, irob.chunks.length, irob.own.numBytes, bytes.length,
        some bytes⟩]
      own := { irob.own with numBytes := irob.own.numBytes + bytes.length } } := by
    rw [SenderIrob.addChunk, open']
    rfl
  have plain := kept.plain.addChunk open' bytes
  rw [added] at plain ⊢
  have absent : ∀ {result : Prop}, irob.complete = true → result := fun complete =>
    Bool.noConfusion (complete.symm.trans open')
  refine kept.change schedules plain ⟨id, fun ends => ?_, rfl, absent⟩ newChunks
    (fun same => absurd same finished) (fun _ => absent) ?_ (fun ends => ?_) ?_
  · exact absent (Bool.and_eq_true_iff.mp ends).1
  · exact fun announced _ => .inl (work announced)
  · exact absent (Bool.and_eq_true_iff.mp ends).1
  · exact fun ended => absent (kept.ended ended).1

/-- The application ends an IROB. There is a task for the `End_IROB` if all is chunked. -/
theorem finish (kept : Kept data blocks irob state) {type : IndexType} {next : Sending}
    (schedules : Schedules type state next) (newChunks : type ≠ .newChunks)
    (finished : type = .finishedIrobs → irob.allBytesChunked = true)
    (parked : state.parked true = 0 ∨ irob.allBytesChunked = true)
    (work : irob.allBytesChunked = true → irob.own.endAnnouncements none = true ∨
      ∃ place, next.tasks .finishedIrobs place = true) :
    Kept data blocks irob.finish.1 next := by
  have finishes : irob.finish.1 = { irob with complete := true } := by
    unfold PendingIrob.finish
    split_ifs with complete
    · cases irob
      cases complete
      rfl
    · rfl
  have plain := kept.plain.finish
  rw [finishes] at plain ⊢
  refine kept.change schedules plain ⟨id, fun ends => ?_, rfl, fun _ => rfl⟩
    (fun same => absurd same newChunks) finished (fun waiting _ => ?_)
    (fun announced left => (kept.chunking announced left).schedule schedules)
    (fun ends => ?_) (fun ended => ⟨rfl, (kept.ended ended).2⟩)
  · exact (Bool.and_eq_true_iff.mp ends).2
  · exact parked.resolve_left (Nat.ne_of_gt waiting)
  · rcases work ends with ended | scheduled
    · exact .inl (by rw [schedules.written]; exact (kept.ended ended).2)
    · exact .inr (.inl scheduled)

/-- The `Begin_IROB` is marked as announced. There is a task for the chunks if some are
left. -/
theorem announce (kept : Kept data blocks irob state) (csock : CSocketId) {type : IndexType}
    {next : Sending} (schedules : Schedules type state next) (finished : type ≠ .finishedIrobs)
    (work : irob.allBytesChunked = false → next.ChunkWork) :
    Kept data blocks (irob.markAnnouncementSent csock) next := by
  have announced := kept.plain.announced_mark csock
  exact kept.change schedules (kept.plain.markAnnouncementSent csock)
    ⟨fun _ => announced, id, rfl, fun _ => rfl⟩ (fun _ => announced)
    (fun same => absurd same finished) (fun waiting => (kept.parked waiting).2)
    (fun _ => work) (fun ends => (kept.ending ends).schedule schedules) kept.ended

/-- The `End_IROB` has been written. -/
theorem markEnd (kept : Kept data blocks irob state) (csock : CSocketId)
    (complete : irob.complete = true) (has : HasEnd irob state.written) :
    Kept data blocks (irob.markEndAnnouncementSent csock) state :=
  kept.change (.store .newIrobs state state.irob state.returned)
    (kept.plain.markEndAnnouncementSent csock) ⟨id, id, rfl, fun _ => rfl⟩ nofun nofun (fun waiting => (kept.parked waiting).2)
    kept.chunking kept.ending fun _ => ⟨complete, has⟩

/-- Messages are written. -/
theorem write (kept : Kept data blocks irob state) (messages : List Message) :
    Kept data blocks irob { state with written := state.written ++ messages } where
  plain := kept.plain
  newChunks := kept.newChunks
  finished := kept.finished
  hands := kept.hands
  parked := kept.parked
  chunking := kept.chunking
  ending ends := (kept.ending ends).imp_left fun ⟨chunks, member⟩ =>
    ⟨chunks, List.mem_append_left _ member⟩
  ended marked :=
    have ⟨complete, chunks, member⟩ := kept.ended marked
    ⟨complete, chunks, List.mem_append_left _ member⟩
  sent seqno block listed := (kept.sent seqno block listed).imp_left (List.mem_append_left _)

/-- A thread goes on to something else. What it leaves behind is in good hands. -/
theorem setHand (kept : Kept data blocks irob state) {csock : CSocketId} {old hand : Hand}
    (held : state.hands csock = old) (fits : Fits irob hand)
    (chunks : old.chunks = true → irob.allBytesChunked = false →
      hand.chunks = true ∨ (∃ place, state.tasks .newChunks place = true) ∨ 0 < state.parked true)
    (ends : old.ends = true → irob.ends = true → hand.ends = true ∨
      HasEnd irob state.written ∨ ∃ place, state.tasks .finishedIrobs place = true)
    (messages : ∀ message ∈ old.messages, message ∈ state.written) :
    Kept data blocks irob (state.setHand csock hand) where
  plain := kept.plain
  newChunks := kept.newChunks
  finished := kept.finished
  hands other := by
    by_cases same : other = csock
    · rw [same, hands_setHand_self]
      exact fits
    · rw [hands_setHand_of_ne same]
      exact kept.hands other
  parked := kept.parked
  chunking announced left := by
    rcases kept.chunking announced left with task | some | waiting
    · exact .inl task
    · rcases someHand (·.chunks = true) some with gone | there
      · rw [held] at gone
        rcases chunks gone left with here | task | waiting
        · exact .inr (.inl ⟨csock, by rw [hands_setHand_self]; exact here⟩)
        · exact .inl task
        · exact .inr (.inr waiting)
      · exact .inr (.inl there)
    · exact .inr (.inr waiting)
  ending ended := by
    rcases kept.ending ended with written | task | some
    · exact .inl written
    · exact .inr (.inl task)
    · rcases someHand (·.ends = true) some with gone | there
      · rw [held] at gone
        rcases ends gone ended with here | written | task
        · exact .inr (.inr ⟨csock, by rw [hands_setHand_self]; exact here⟩)
        · exact .inl written
        · exact .inr (.inl task)
      · exact .inr (.inr there)
  ended := kept.ended
  sent seqno block listed := by
    rcases kept.sent seqno block listed with written | some
    · exact .inl written
    · rcases someHand (chunkOf irob blocks seqno block ∈ ·.messages) some with gone | there
      · rw [held] at gone
        exact .inl (messages _ gone)
      · exact .inr there

/-- A thread has cut off the next block and writes it now. -/
theorem grow (kept : Kept data blocks irob state) {csock : CSocketId} {hand : Hand}
    {bytes : List Byte} {sent : SenderIrob} (plain : Plain data (blocks ++ [bytes]) sent)
    (same : SameMarks sent irob) (fits : Fits sent hand)
    (before : (state.hands csock).messages = []) (ends : sent.ends = true → hand.ends = true)
    (carries : chunkOf sent (blocks ++ [bytes]) blocks.length bytes ∈ hand.messages)
    (chunks : (state.hands csock).chunks = true → sent.allBytesChunked = false →
      hand.chunks = true ∨ ∃ place, state.tasks .newChunks place = true) :
    Kept data (blocks ++ [bytes]) sent (state.setHand csock hand) := by
  have unended : irob.allBytesChunked = false := by
    apply Bool.eq_false_of_not_eq_true
    intro all
    have longer := plain.chunked.within.length_le
    rw [← kept.plain.chunked.allBytesChunked_iff.mp all, List.flatten_append,
      List.flatten_singleton, List.length_append] at longer
    apply plain.chunked.nonempty bytes (List.mem_append_right _ List.mem_cons_self)
    exact List.eq_nil_of_length_eq_zero (by omega)
  have follows : Follows sent irob := by
    refine ⟨fun marked => same.announcements ▸ marked, fun ends => ?_, same.id,
      fun _ => same.expectedBytes⟩
    exact Bool.noConfusion ((Bool.and_eq_true_iff.mp ends).2.symm.trans unended)
  constructor
  case plain => exact plain
  case newChunks =>
    rw [same.announcements]
    exact kept.newChunks
  case finished => exact fun place scheduled => follows.ends (kept.finished place scheduled)
  case hands =>
    intro other
    by_cases here : other = csock
    · rw [here, hands_setHand_self]
      exact fits
    · rw [hands_setHand_of_ne here]
      exact (kept.hands other).follow follows
  case parked =>
    rw [same.announcements, same.complete]
    intro waiting
    obtain ⟨marked, all⟩ := kept.parked waiting
    exact ⟨marked, fun complete => Bool.noConfusion ((all complete).symm.trans unended)⟩
  case chunking =>
    intro marked left
    rw [same.announcements] at marked
    rcases kept.chunking marked unended with task | held | waiting
    · exact .inl task
    · rcases someHand (·.chunks = true) held with gone | there
      · rcases chunks gone left with here | task
        · exact .inr (.inl ⟨csock, by rw [hands_setHand_self]; exact here⟩)
        · exact .inl task
      · exact .inr (.inl there)
    · exact .inr (.inr waiting)
  case ending =>
    exact fun ended => .inr (.inr ⟨csock, by rw [hands_setHand_self]; exact ends ended⟩)
  case ended =>
    intro marked
    rw [same.endAnnouncements] at marked
    obtain ⟨complete, has⟩ := kept.ended marked
    exact ⟨same.complete.trans complete, has.follow follows complete⟩
  case sent =>
    intro seqno block listed
    rcases Nat.lt_or_ge seqno blocks.length with old | new
    · rw [List.getElem?_append_left old] at listed
      have shape : chunkOf sent (blocks ++ [bytes]) seqno block = chunkOf irob blocks seqno block := by
        rw [chunkOf, chunkOf, same.id, List.take_append_of_le_length (Nat.le_of_lt old)]
      rw [shape]
      apply (kept.sent seqno block listed).imp_right
      intro held
      apply (someHand (chunkOf irob blocks seqno block ∈ ·.messages) held).resolve_left
      rw [before]
      exact List.not_mem_nil
    · rw [List.getElem?_append_right new] at listed
      obtain ⟨rfl, rfl⟩ : seqno = blocks.length ∧ bytes = block := by
        obtain ⟨bound, same⟩ := List.getElem?_eq_some_iff.mp listed
        rw [List.length_singleton] at bound
        refine ⟨by omega, ?_⟩
        rw [← same, List.getElem_singleton]
      exact .inr ⟨csock, by rw [hands_setHand_self]; exact carries⟩

/-- A task disappears. Some thread has it in its hand. -/
theorem remove (kept : Kept data blocks irob state) {type : IndexType} {place : Place}
    {taken : Sending} (took : state.take type place = some taken)
    (chunks : type = .newChunks → ∃ csock, (state.hands csock).chunks = true)
    (ends : type = .finishedIrobs → ∃ csock, (state.hands csock).ends = true) :
    Kept data blocks irob taken := by
  unfold Sending.take at took
  split_ifs at took with there
  cases took
  have fewer : ∀ {other elsewhere}, (if other = type ∧ elsewhere = place then false
      else state.tasks other elsewhere) = true → state.tasks other elsewhere = true := by
    intro other elsewhere scheduled
    split_ifs at scheduled
    exact scheduled
  have others : ∀ {other}, other ≠ type → (∃ elsewhere, state.tasks other elsewhere = true) →
      ∃ elsewhere, (if other = type ∧ elsewhere = place then false
        else state.tasks other elsewhere) = true := by
    rintro other different ⟨elsewhere, scheduled⟩
    refine ⟨elsewhere, ?_⟩
    rw [if_neg fun same => different same.1]
    exact scheduled
  exact {
    plain := kept.plain
    newChunks := fun elsewhere scheduled => kept.newChunks elsewhere (fewer scheduled)
    finished := fun elsewhere scheduled => kept.finished elsewhere (fewer scheduled)
    hands := kept.hands
    parked := kept.parked
    chunking := by
      intro announced left
      by_cases same : type = .newChunks
      · exact .inr (.inl (chunks same))
      · exact (kept.chunking announced left).imp_left (others (Ne.symm same))
    ending := by
      intro ended
      by_cases same : type = .finishedIrobs
      · exact .inr (.inr (ends same))
      · exact (kept.ending ended).imp_right (.imp_left (others (Ne.symm same)))
    ended := kept.ended
    sent := kept.sent }

theorem setHand_of_free (kept : Kept data blocks irob state) {csock : CSocketId} {hand : Hand}
    (free : (state.hands csock).free = true) (fits : Fits irob hand) :
    Kept data blocks irob (state.setHand csock hand) := by
  apply kept.setHand rfl fits
  · exact fun chunks => Bool.noConfusion (chunks.symm.trans (Hand.chunks_of_free free))
  · exact fun ends => Bool.noConfusion (ends.symm.trans (Hand.ends_of_free free))
  · rw [Hand.messages_of_free free]
    exact fun message member => absurd member List.not_mem_nil

/-- A thread takes a task. -/
theorem take (kept : Kept data blocks irob state) {type : IndexType} {place : Place}
    {taken : Sending} {csock : CSocketId} {hand : Hand}
    (took : state.take type place = some taken) (idle : state.hands csock = .idle)
    (fits : Fits irob hand) (chunks : type = .newChunks → hand.chunks = true)
    (ends : type = .finishedIrobs → hand.ends = true) :
    Kept data blocks irob (taken.setHand csock hand) := by
  have held : Kept data blocks irob (state.setHand csock hand) := by
    apply kept.setHand_of_free _ fits
    rw [idle]
    rfl
  have took' : (state.setHand csock hand).take type place = some (taken.setHand csock hand) := by
    unfold Sending.take at took ⊢
    split_ifs at took with there
    cases took
    exact if_pos there
  refine held.remove took' (fun same => ⟨csock, ?_⟩) fun same => ⟨csock, ?_⟩
  · rw [hands_setHand_self]
    exact chunks same
  · rw [hands_setHand_self]
    exact ends same

/-- Thunks come and go. -/
theorem repark (kept : Kept data blocks irob state) {parked : Bool → Nat}
    (fits : 0 < parked true → irob.own.announcements none = true ∧
      (irob.complete = true → irob.allBytesChunked = true))
    (work : 0 < state.parked true →
      0 < parked true ∨ ∃ place, state.tasks .newChunks place = true) :
    Kept data blocks irob { state with parked := parked } :=
  { kept with
    parked := fits
    chunking := by
      intro announced left
      rcases kept.chunking announced left with task | held | waiting
      · exact .inl task
      · exact .inr (.inl held)
      · exact (work waiting).elim (fun waiting => .inr (.inr waiting)) .inl }

/-- A task becomes a thunk, for chunks only if the IROB is announced. -/
theorem park (kept : Kept data blocks irob state) {chunksReady : Bool}
    (ready : chunksReady = true → irob.own.announcements none = true)
    (open' : irob.complete = false) : Kept data blocks irob (state.park chunksReady) := by
  cases chunksReady with
  | false => exact kept.repark kept.parked .inl
  | true =>
      refine kept.repark (fun _ => ⟨ready rfl, fun complete => ?_⟩) fun _ => .inl (Nat.succ_pos _)
      exact Bool.noConfusion (complete.symm.trans open')

/-- A thunk becomes a task. -/
theorem resume (kept : Kept data blocks irob state) {chunksReady : Bool} {place : Place}
    {after : Sending} (resumed : state.resume chunksReady place = some after) :
    Kept data blocks irob after := by
  unfold Sending.resume at resumed
  split at resumed
  · cases resumed
  · next count parked =>
    cases resumed
    cases chunksReady with
    | false =>
        have scheduled := kept.schedule (.insert state .newIrobs place state.irob state.returned)
          nofun nofun
        exact scheduled.repark kept.parked .inl
    | true =>
        have waiting : 0 < state.parked true := by
          rw [parked]
          exact Nat.succ_pos count
        have scheduled := kept.schedule (.insert state .newChunks place state.irob state.returned)
          (fun _ => (kept.parked waiting).1) nofun
        exact scheduled.repark (fun _ => kept.parked waiting)
          fun _ => .inr ⟨place, tasks_insert state .newChunks place⟩

end Kept

end Sending

end Libcmm
