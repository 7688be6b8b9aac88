import Libcmm.Losses

/-! # Small IROBs sent at once (`CSocketSender::begin_irob`)

A complete foreground IROB that is smaller than a chunk is sent with its `Begin_IROB`: one
call of `get_ready_bytes` is to give all of its bytes, and the `End_IROB` follows in the same
write. But the call gives one chunk. What was cut before is given as it was cut, and a chunk
that is to be sent again comes first; then the `ASSERT` that all bytes are chunked may fail,
or the end is announced on the csocket with chunks that it has not sent and has no task for.
`Ready` says exactly when all goes well.
-/

namespace Libcmm

open Lib

namespace SenderIrob

variable {data : List Byte} {blocks : List (List Byte)} {irob sent : SenderIrob}
  {csock : CSocketId} {transmission : Transmission}

/-- The IROB is sent with its `Begin_IROB`. -/
def sentAtOnce (irob : SenderIrob) (csock : CSocketId) : Bool :=
  irob.complete && irob.expectedBytes < minChunksize &&
    hasLabel irob.sendLabels labelOndemand && !irob.wasAnnounced csock

/-- Nothing is to be sent again, and the csocket was given every chunk that was cut. -/
def CaughtUp (irob : SenderIrob) (csock : CSocketId) : Prop :=
  irob.own.resendChunks = [] ∧
    irob.own.nextSeqnosToSend (irob.nullIndexIfSingleSending csock) = irob.numSenderChunks

/-- The chunk that the csocket is given next. -/
def firstChunk (irob : SenderIrob) (csock : CSocketId) : Nat :=
  match irob.own.resendChunks with
  | chunk :: _ => chunk.seqno
  | [] => irob.own.nextSeqnosToSend (irob.nullIndexIfSingleSending csock)

/-- A call that asks for all bytes gives what is left to a csocket that has caught up, and one
chunk that was cut before to any other. -/
theorem Chunked.getReadyBytes_whole (chunked : Chunked data blocks irob) (csock : CSocketId) :
    ∃ sent transmission, irob.getReadyBytes csock irob.expectedBytes = some (sent, transmission) ∧
      (sent.allBytesChunked = true ↔ irob.allBytesChunked = true ∨ irob.CaughtUp csock) ∧
      (transmission.bytes = [] ↔ irob.allBytesChunked = true ∧ irob.CaughtUp csock) := by
  obtain ⟨bound, -⟩ := chunked.keys (irob.nullIndexIfSingleSending csock)
  cases waiting : irob.own.resendChunks with
  | cons chunk rest =>
      have behind : ¬irob.CaughtUp csock := fun caught =>
        List.cons_ne_nil _ _ (waiting.symm.trans caught.1)
      obtain ⟨sent, transmission, later, got, -⟩ := chunked.getReadyBytes csock irob.expectedBytes
      have given : sent.allBytesChunked = irob.allBytesChunked ∧
          transmission.bytes.length = chunk.datalen := by
        rcases getReadyBytes_cases got with ⟨first, others, same, rfl, -, length⟩ | none | none
        · cases waiting.symm.trans same
          exact ⟨rfl, length⟩
        · cases waiting.symm.trans none.1
        · cases waiting.symm.trans none.1
      have marked : chunk ∈ irob.own.sentChunks := by
        apply chunked.resend
        rw [waiting]
        exact List.mem_cons_self
      obtain ⟨index, listed⟩ := List.mem_iff_getElem?.mp marked
      obtain ⟨block, blockListed, rfl⟩ := chunked.block_of_sent listed
      refine ⟨sent, transmission, got, ?_, iff_of_false (fun empty => ?_) fun both => behind both.2⟩
      · rw [given.1, or_iff_left behind]
      · apply chunked.nonempty block (List.mem_of_getElem? blockListed)
        exact List.length_eq_zero_iff.mp (given.2.symm.trans (congrArg List.length empty))
  | nil =>
      rcases Nat.lt_or_eq_of_le bound with again | new
      · have behind : ¬irob.CaughtUp csock := by
          rintro ⟨-, same⟩
          rw [numSenderChunks, chunked.length_sent] at same
          exact absurd again (same ▸ lt_irrefl _)
        obtain ⟨sent, pieces, got, whole, kept, -⟩ := chunked.getReadyBytes_again csock
          irob.expectedBytes waiting (List.getElem?_eq_getElem again)
        refine ⟨sent, _, got, ?_, ?_⟩
        · rw [kept.allBytesChunked_iff, chunked.allBytesChunked_iff, or_iff_left behind]
        · refine iff_of_false ?_ fun both => behind both.2
          rw [Transmission.bytes, whole]
          exact chunked.nonempty _ (List.getElem_mem again)
      · have caught : irob.CaughtUp csock := by
          refine ⟨waiting, ?_⟩
          rw [numSenderChunks, chunked.length_sent]
          exact new
        obtain ⟨pieces, whole, given⟩ :=
          chunked.getReadyBytes_new csock irob.expectedBytes waiting new
        have rest : pieces.flatten = data.drop blocks.flatten.length := by
          rw [whole, chunked.expectedBytes_eq]
          apply List.take_of_length_le
          rw [List.length_drop]
          split_ifs <;> omega
        have all : blocks.flatten ++ pieces.flatten = data := by
          obtain ⟨more, rfl⟩ := chunked.within
          rw [rest, List.drop_left]
        rcases given with ⟨nothing, got⟩ | ⟨nonempty, sent, got, kept, -⟩
        · rw [nothing, List.append_nil] at all
          have chunks := chunked.allBytesChunked_iff.mpr all
          exact ⟨irob, _, got, iff_of_true chunks (.inl chunks),
            iff_of_true nothing ⟨chunks, caught⟩⟩
        · refine ⟨sent, _, got, iff_of_true ?_ (.inr caught), iff_of_false nonempty ?_⟩
          · rw [kept.allBytesChunked_iff, List.flatten_append, List.flatten_singleton]
            exact all
          · rintro ⟨chunks, -⟩
            rw [chunked.allBytesChunked_iff.mp chunks] at all
            exact nonempty (List.append_right_eq_self.mp all)

/-- What a csocket is given is its first chunk, and nothing else of the IROB changes. -/
structure Gives (csock : CSocketId) (irob sent : SenderIrob) (transmission : Transmission) :
    Prop where
  seqno : transmission.seqno = irob.firstChunk csock
  count : ∀ seqno, seqno ≠ irob.firstChunk csock →
    (seqno < sent.numSenderChunks ↔ seqno < irob.numSenderChunks)
  places : irob.own.sendOnAllNetworks = true → ∀ seqno, seqno ≠ irob.firstChunk csock →
    (sent.own.nextSeqnosToSend (some csock) ≤ seqno ↔
      irob.own.nextSeqnosToSend (some csock) ≤ seqno)
  marked : sent.own.sendOnAllNetworks = irob.own.sendOnAllNetworks
  complete : sent.complete = irob.complete

theorem gives_of_got {requested : Int}
    (got : irob.getReadyBytes csock requested = some (sent, transmission))
    (nonempty : transmission.bytes ≠ []) : Gives csock irob sent transmission := by
  rcases getReadyBytes_cases got with ⟨chunk, rest, waiting, rfl, seqno, -⟩ | ⟨-, -, none⟩ |
    ⟨waiting, -, seqno, added⟩
  · refine ⟨?_, fun _ _ => Iff.rfl, fun _ _ _ => Iff.rfl, rfl, rfl⟩
    rw [firstChunk, waiting]
    exact seqno
  · exact absurd none nonempty
  · have first : transmission.seqno = irob.firstChunk csock := by
      rw [firstChunk, waiting]
      exact seqno
    obtain ⟨sentChunks, offsets, rfl, grown⟩ := addSentChunk_cases added
    refine ⟨first, fun number different => ?_, fun marked number different => ?_, rfl, rfl⟩
    · simp only [numSenderChunks]
      rcases grown with ⟨last, rfl⟩ | ⟨-, rfl⟩
      · rw [List.length_append, List.length_singleton]
        omega
      · exact Iff.rfl
    · rw [nullIndexIfSingleSending, if_pos marked] at seqno ⊢
      simp only [Function.update_self]
      omega

/-- A complete IROB that is cut in full is not cut any further. -/
theorem Evolves.final {changed : SenderIrob} (evolves : Evolves irob changed)
    (chunked : Chunked data blocks irob) (complete : irob.complete = true)
    (all : irob.allBytesChunked = true) :
    changed.allBytesChunked = true ∧ changed.numSenderChunks = irob.numSenderChunks := by
  obtain ⟨later, more, kept, longer, same⟩ := evolves.chunked chunked
  cases same complete
  cases kept.blocks_final longer (chunked.allBytesChunked_iff.mp all)
  refine ⟨kept.allBytesChunked_iff.mpr (chunked.allBytesChunked_iff.mp all), ?_⟩
  rw [numSenderChunks, numSenderChunks, kept.length_sent, chunked.length_sent]

theorem endWasAnnounced_mark (irob : SenderIrob) (csock : CSocketId) :
    (irob.markEndAnnouncementSent csock).endWasAnnounced csock = true :=
  Function.update_self _ _ _

end SenderIrob

/-- The thread itself sends the `Begin_IROB` of its task. -/
def Assignment.sends (irob : SenderIrob) : Assignment → Bool
  | .here _ => true
  | .passed _ alsoHere => alsoHere && irob.own.sendOnAllNetworks
  | _ => false

namespace Sending

open SenderIrob

variable {state : Sending} {csock : CSocketId} {irob : SenderIrob}

/-- Other threads may be told before the message is built. -/
theorem begin_eq (state : Sending) (csock : CSocketId) (place : Place) {assignment : Assignment}
    (sends : assignment.sends irob = true) :
    ∃ middle, middle.irob = state.irob ∧ Schedules .newIrobs state middle ∧
      state.begin irob csock place assignment = middle.buildBegin irob csock := by
  cases assignment with
  | notOkayToSendBg => cases sends
  | parked => cases sends
  | passed other alsoHere =>
      refine ⟨state.insert .newIrobs (some other), rfl,
        .insert state .newIrobs _ state.irob state.returned, ?_⟩
      exact if_pos sends
  | here others =>
      obtain ⟨same, schedules⟩ := schedules_tellOthers state irob false others
      exact ⟨_, same, schedules, rfl⟩

/-- What is built of a small IROB: nothing, as the `ASSERT` fails, its `Begin_IROB` alone, or all
messages with one of its chunks. -/
theorem buildBegin_small {data : List Byte} {blocks : List (List Byte)} (state : Sending)
    (chunked : Chunked data blocks irob) (small : irob.sentAtOnce csock = true) :
    (¬(irob.allBytesChunked = true ∨ irob.CaughtUp csock) ∧ state.buildBegin irob csock = none) ∨
    ((irob.allBytesChunked = true ∧ irob.CaughtUp csock) ∧ ∃ sent messages,
      state.buildBegin irob csock =
        some ({ state with irob := some sent }.setHand csock (.beginWrite messages false))) ∨
    ((irob.allBytesChunked = true ∨ irob.CaughtUp csock) ∧
      ¬(irob.allBytesChunked = true ∧ irob.CaughtUp csock) ∧ ∃ sent transmission,
        Gives csock irob sent transmission ∧ sent.allBytesChunked = true ∧
        state.buildBegin irob csock = some ({ state with irob := some sent }.setHand csock
          (.beginWrite [sent.beginMessage, sent.chunkMessage transmission, sent.endMessage]
            true))) := by
  obtain ⟨sent, transmission, got, all, nothing⟩ := chunked.getReadyBytes_whole csock
  have built : state.buildBegin irob csock =
      if !sent.allBytesChunked then none
      else if transmission.bytes.isEmpty then some ({ state with irob := some sent }.setHand csock
        (.beginWrite [sent.beginMessage] false))
      else some ({ state with irob := some sent }.setHand csock (.beginWrite
        [sent.beginMessage, sent.chunkMessage transmission, sent.endMessage] true)) := by
    unfold sentAtOnce at small
    unfold Sending.buildBegin
    rw [if_pos small, got]
    rfl
  rw [built]
  by_cases chunks : sent.allBytesChunked = true
  · rw [chunks]
    by_cases empty : transmission.bytes = []
    · rw [empty]
      exact .inr (.inl ⟨nothing.mp empty, sent, _, rfl⟩)
    · refine .inr (.inr ⟨all.mp chunks, fun both => empty (nothing.mpr both), sent, transmission,
        gives_of_got got empty, chunks, ?_⟩)
      rw [List.isEmpty_eq_false_iff.mpr empty]
      rfl
  · refine .inl ⟨fun either => chunks (all.mpr either), ?_⟩
    rw [Bool.eq_false_of_not_eq_true chunks]
    rfl

end Sending

namespace LossySending

open SenderIrob

/-- A chunk was written on a csocket, or a task of the csocket will write it: the csocket has a
place of its own in the IROB, and the chunk is not before it. Where the csockets share a place,
and for a chunk that is to be sent again, the one that comes first is given the chunk. -/
def Reaches (state : LossySending) (csock : CSocketId) (irob : SenderIrob) (seqno : Nat) : Prop :=
  state.sent csock seqno = true ∨
    irob.own.sendOnAllNetworks = true ∧
      state.sending.tasks .newChunks (some csock) = true ∧
      irob.own.nextSeqnosToSend (some csock) ≤ seqno

/-- When the thread of a csocket is done with a write of all of an IROB and thereby announces
its end, every chunk reaches the other side on this csocket. -/
def AnnouncesAll (state : LossySending) (csock : CSocketId) : Prop :=
  ∀ messages after irob, state.sending.hands csock = .beginWrite messages true →
    state.step (.sending (.begun csock)) = some after → after.sending.irob = some irob →
    irob.endWasAnnounced csock = true →
      ∀ seqno < irob.numSenderChunks, after.Reaches csock irob seqno

/-- Everything that may happen while the thread of a csocket is in its write. -/
def during (csock : CSocketId) (start : LossySending) : Machine LossySending LossyEvent where
  initial state := state = start
  permitted state event := state.Permitted event ∧ event ≠ .sending (.begun csock)
  step := step

/-- A thread has the task to begin an IROB that it will send at once. -/
structure Enters (state : LossySending) (csock : CSocketId) (irob : SenderIrob) : Prop where
  up : state.down csock = false
  hand : ∃ place, state.sending.hands csock = .begin place
  present : state.sending.irob = some irob
  small : irob.sentAtOnce csock = true

/-- The small IROB is sent well: the `ASSERT` holds, and whatever happens until the write is
done, the end is announced only with all chunks written on the csocket or scheduled there. -/
def BeginsWell (state : LossySending) (csock : CSocketId) (irob : SenderIrob) : Prop :=
  ∀ assignment : Assignment, assignment.sends irob = true →
    ∃ next, state.step (.sending (.begin csock assignment)) = some next ∧
      ∀ later, (during csock next).Reachable later → later.AnnouncesAll csock

/-- The csocket has caught up, and it has a place of its own, or all bytes are cut, or it has
written all that was cut; or all bytes are cut, and of the chunks that it is not given now each
was written on it, or is before its own place, or has a task in its indexes. -/
def Ready (state : LossySending) (csock : CSocketId) (irob : SenderIrob) : Prop :=
  irob.CaughtUp csock ∧ (irob.own.sendOnAllNetworks = true ∨ irob.allBytesChunked = true ∨
      ∀ seqno < irob.numSenderChunks, state.sent csock seqno = true) ∨
    irob.allBytesChunked = true ∧ ∀ seqno < irob.numSenderChunks, seqno ≠ irob.firstChunk csock →
      state.sent csock seqno = true ∨ irob.own.sendOnAllNetworks = true ∧
        (seqno < irob.own.nextSeqnosToSend (some csock) ∨
          state.sending.tasks .newChunks (some csock) = true)

variable {state next later after : LossySending} {event : LossyEvent} {csock : CSocketId}
  {irob : SenderIrob}

/-- The chunks before the own place of a csocket that begins an IROB are written on it. -/
theorem Enters.reaches_of_lt (enters : state.Enters csock irob) (sound : state.Sound)
    {seqno : Nat} (below : seqno < irob.own.nextSeqnosToSend (some csock)) :
    state.sent csock seqno = true := by
  rcases (sound irob enters.present).places csock seqno enters.up below with sent | writing
  · exact sent
  · obtain ⟨place, held⟩ := enters.hand
    rw [held] at writing
    cases writing

/-- What is ready in terms of the chunks that reach the other side. -/
theorem Enters.ready_iff (enters : state.Enters csock irob) (sound : state.Sound) :
    state.Ready csock irob ↔ (irob.allBytesChunked = true ∧ irob.CaughtUp csock) ∨
      (irob.allBytesChunked = true ∨ irob.CaughtUp csock) ∧
        ∀ seqno < irob.numSenderChunks, seqno ≠ irob.firstChunk csock →
          state.Reaches csock irob seqno := by
  constructor
  · rintro (⟨caught, rest⟩ | ⟨all, rest⟩)
    · by_cases all : irob.allBytesChunked = true
      · exact .inl ⟨all, caught⟩
      · refine .inr ⟨.inr caught, fun seqno inside _ => .inl ?_⟩
        rcases rest with marked | chunks | sent
        · apply enters.reaches_of_lt sound
          have place := caught.2
          rw [nullIndexIfSingleSending, if_pos marked] at place
          rw [place]
          exact inside
        · exact absurd chunks all
        · exact sent seqno inside
    · refine .inr ⟨.inl all, fun seqno inside different => ?_⟩
      rcases rest seqno inside different with sent | ⟨marked, before | scheduled⟩
      · exact .inl sent
      · exact .inl (enters.reaches_of_lt sound before)
      · by_cases before : seqno < irob.own.nextSeqnosToSend (some csock)
        · exact .inl (enters.reaches_of_lt sound before)
        · exact .inr ⟨marked, scheduled, not_lt.mp before⟩
  · rintro (⟨all, caught⟩ | ⟨either, reaches⟩)
    · exact .inl ⟨caught, .inr (.inl all)⟩
    · by_cases all : irob.allBytesChunked = true
      · refine .inr ⟨all, fun seqno inside different => ?_⟩
        rcases reaches seqno inside different with sent | ⟨marked, scheduled, -⟩
        · exact .inl sent
        · exact .inr ⟨marked, .inr scheduled⟩
      · have caught := either.resolve_left all
        refine .inl ⟨caught, ?_⟩
        by_cases marked : irob.own.sendOnAllNetworks = true
        · exact .inl marked
        · refine .inr (.inr fun seqno inside => ?_)
          have different : seqno ≠ irob.firstChunk csock := by
            rw [firstChunk, caught.1]
            simp only
            rw [caught.2]
            exact Nat.ne_of_lt inside
          exact (reaches seqno inside different).resolve_right fun scheduled => marked scheduled.1

/-! ### While a thread is in its write -/

/-- The thread of a csocket writes the messages of a `Begin_IROB`, or the csocket is gone. -/
structure Underway (state : LossySending) (csock : CSocketId) (messages : List Message)
    (sendingAllIrobInfo : Bool) : Prop where
  present : state.sending.irob ≠ none
  hand : state.sending.hands csock = .beginWrite messages sendingAllIrobInfo ∨
    state.down csock = true ∧ state.sending.hands csock = .idle

/-- The chunks of a complete IROB that is cut in full are among the messages, or reach the other
side. -/
structure Covers (state : LossySending) (csock : CSocketId) (seqnos : List Nat)
    (irob : SenderIrob) : Prop where
  present : state.sending.irob = some irob
  complete : irob.complete = true
  all : irob.allBytesChunked = true
  reaches : ∀ seqno < irob.numSenderChunks, seqno ∈ seqnos ∨ state.Reaches csock irob seqno

variable {messages : List Message} {sendingAllIrobInfo : Bool} {seqnos : List Nat}

/-- A thread in its write can only be done with it. -/
theorem Underway.actor_ne {event : SendingEvent}
    (underway : state.Underway csock messages sendingAllIrobInfo)
    (permitted : (during csock next).permitted state (.sending event))
    (moved : state.step (.sending event) = some after) : event.actor ≠ some csock := by
  intro actor
  rcases underway.hand with held | ⟨gone, -⟩
  · obtain ⟨result, stepped, -⟩ := Option.map_eq_some_iff.mp moved
    have busy : ∀ {other hand}, some other = some csock → state.sending.hands other = hand →
        hand = .beginWrite messages sendingAllIrobInfo := by
      intro other hand here there
      cases here
      exact there.symm.trans held
    cases Sending.step_move stepped with
    | begun =>
        cases actor
        exact permitted.2 rfl
    | takeIrob there | takeChunk there | takeFinished there | takeDataCheck there =>
        cases busy actor there
    | begin there | chunk there | chunkSent there | endSent there | dataCheck there
    | dataCheckSent there => cases busy actor there
    | _ => cases actor
  · exact Bool.noConfusion (gone.symm.trans (permitted.1.2 csock actor))

/-- A chunk that reaches the other side does so while others go on. -/
theorem Reaches.keep {changed : SenderIrob} {seqno : Nat} (reaches : state.Reaches csock irob seqno)
    (moved : state.step event = some after)
    (marked : irob.own.sendOnAllNetworks = true → changed.own.sendOnAllNetworks = true)
    (tasks : state.sending.tasks .newChunks (some csock) = true →
      after.sending.tasks .newChunks (some csock) = true)
    (place : changed.own.nextSeqnosToSend (some csock) = irob.own.nextSeqnosToSend (some csock)) :
    after.Reaches csock changed seqno := by
  rcases reaches with sent | ⟨all, scheduled, before⟩
  · exact .inl (sent_step moved sent)
  · rw [← place] at before
    exact .inr ⟨marked all, tasks scheduled, before⟩

/-- A thread stays in its write until it is done or fails. -/
theorem Underway.step (underway : state.Underway csock messages sendingAllIrobInfo)
    (permitted : (during csock next).permitted state event)
    (moved : state.step event = some after) :
    after.Underway csock messages sendingAllIrobInfo := by
  cases event with
  | sending event =>
      have elsewhere := underway.actor_ne permitted moved
      obtain ⟨irob, present⟩ := Option.ne_none_iff_exists'.mp underway.present
      obtain ⟨result, stepped, rfl⟩ := Option.map_eq_some_iff.mp moved
      obtain ⟨changed, effect⟩ := Sending.step_effect present permitted.1.1 stepped
      refine ⟨?_, ?_⟩
      · rw [effect.present]
        exact Option.some_ne_none changed
      · rw [effect.hands csock elsewhere]
        exact underway.hand
  | resendRequest request seqno nextChunk =>
      obtain ⟨result, received, rfl⟩ := Option.map_eq_some_iff.mp moved
      obtain ⟨irob, marked, scheduled, -, -, present, hands, -⟩ :=
        Sending.resendRequestReceived_effect received
      refine ⟨?_, ?_⟩
      · rw [present]
        exact Option.some_ne_none marked
      · rw [hands]
        exact underway.hand
  | fail gone heir =>
      obtain ⟨result, failed, rfl⟩ := Option.map_eq_some_iff.mp moved
      obtain ⟨same, hands, -⟩ := Sending.fail_effect failed
      refine ⟨?_, ?_⟩
      · rw [same]
        exact underway.present
      · simp only [hands]
        by_cases here : csock = gone
        · subst here
          exact .inr ⟨Function.update_self _ _ _, Function.update_self _ _ _⟩
        · rw [Function.update_of_ne here, Function.update_of_ne here]
          exact underway.hand

/-- What is covered stays covered while the thread is in its write. -/
theorem Covers.step (covers : state.Covers csock seqnos irob) (sound : state.Sound)
    (underway : state.Underway csock messages sendingAllIrobInfo)
    (permitted : (during csock next).permitted state event)
    (moved : state.step event = some after) : ∃ changed, after.Covers csock seqnos changed := by
  obtain ⟨⟨data, blocks, chunked⟩, -⟩ := sound irob covers.present
  cases event with
  | sending event =>
      have elsewhere := underway.actor_ne permitted moved
      obtain ⟨result, stepped, rfl⟩ := Option.map_eq_some_iff.mp moved
      obtain ⟨changed, effect⟩ := Sending.step_effect covers.present permitted.1.1 stepped
      obtain ⟨all, count⟩ := effect.evolves.final chunked covers.complete covers.all
      refine ⟨changed, effect.present, effect.evolves.complete covers.complete, all, ?_⟩
      intro seqno inside
      rw [count] at inside
      refine (covers.reaches seqno inside).imp_right fun reaches => ?_
      apply reaches.keep moved effect.evolves.marked (effect.tasks csock elsewhere)
      exact (effect.places csock).resolve_right fun moves => elsewhere moves.1
  | resendRequest request number nextChunk =>
      obtain ⟨result, received, rfl⟩ := Option.map_eq_some_iff.mp moved
      obtain ⟨before, marked, scheduled, present, resent, now, -, tasks⟩ :=
        Sending.resendRequestReceived_effect received
      cases present.symm.trans covers.present
      obtain ⟨chunks, rfl⟩ := resend_eq resent
      refine ⟨_, now, covers.complete, covers.all, fun seqno inside => ?_⟩
      exact (covers.reaches seqno inside).imp_right fun reaches =>
        reaches.keep moved (fun all => all) (tasks csock) rfl
  | fail gone heir =>
      obtain ⟨result, failed, rfl⟩ := Option.map_eq_some_iff.mp moved
      obtain ⟨same, -, tasks⟩ := Sending.fail_effect failed
      refine ⟨irob, same.trans covers.present, covers.complete, covers.all, fun seqno inside => ?_⟩
      exact (covers.reaches seqno inside).imp_right fun reaches =>
        reaches.keep moved (fun all => all) (tasks csock) rfl

/-- What is reached during a write is reached. -/
theorem reachable_of_during (reached : machine.Reachable next)
    (onward : (during csock next).Reachable state) : machine.Reachable state := by
  apply onward.induct
  · rintro first rfl
    exact reached
  · exact fun before after event _ held permitted moved => held.step permitted.1 moved

/-- From its start to its end a write covers what it covered first. -/
theorem covers_of_during (reached : machine.Reachable next)
    (underway : next.Underway csock messages sendingAllIrobInfo)
    (onward : (during csock next).Reachable state) :
    state.Underway csock messages sendingAllIrobInfo ∧
      ∀ seqnos irob, next.Covers csock seqnos irob →
        ∃ changed, state.Covers csock seqnos changed := by
  apply onward.induct
  · rintro first rfl
    exact ⟨underway, fun _ irob covers => ⟨irob, covers⟩⟩
  · rintro before after event there ⟨held, kept⟩ permitted moved
    refine ⟨held.step permitted moved, fun seqnos irob covers => ?_⟩
    obtain ⟨changed, now⟩ := kept seqnos irob covers
    have sound := sound_of_reachable (reachable_of_during reached there)
    exact now.step sound held permitted moved

/-- When the write is done the covered chunks reach the other side. -/
theorem Covers.announcesAll
    (covers : state.Covers csock (messages.filterMap Message.chunkSeqno) irob)
    (underway : state.Underway csock messages true) : state.AnnouncesAll csock := by
  intro others after final held moved present _ seqno inside
  have hand := underway.hand.resolve_right fun gone => nomatch held.symm.trans gone.2
  cases hand.symm.trans held
  obtain ⟨result, stepped, rfl⟩ := Option.map_eq_some_iff.mp moved
  simp only [Sending.step, held, covers.present, Option.some.injEq] at stepped
  cases stepped
  have count : final.numSenderChunks = irob.numSenderChunks ∧
      final.own.sendOnAllNetworks = irob.own.sendOnAllNetworks ∧
      final.own.nextSeqnosToSend = irob.own.nextSeqnosToSend := by
    cases present
    split_ifs <;> exact ⟨rfl, rfl, rfl⟩
  rw [count.1] at inside
  rcases covers.reaches seqno inside with written | reaches
  · refine .inl (Bool.or_eq_true_iff.mpr (.inr ?_))
    rw [held]
    exact Bool.and_eq_true_iff.mpr ⟨decide_eq_true rfl, List.contains_iff_mem.mpr written⟩
  · apply reaches.keep moved
    · exact fun marked => count.2.1.trans marked
    · exact fun scheduled => scheduled
    · rw [count.2.2]

/-- A thread that is done with a write of all of an IROB announces its end, and schedules
nothing. -/
theorem step_begun (held : next.sending.hands csock = .beginWrite messages true)
    (present : next.sending.irob = some irob) (complete : irob.complete = true)
    (all : irob.allBytesChunked = true) :
    ∃ after, next.step (.sending (.begun csock)) = some after ∧
      after.sending.irob =
        some ((irob.markAnnouncementSent csock).markEndAnnouncementSent csock) ∧
      after.sending.tasks = next.sending.tasks ∧
      ∀ seqno, after.sent csock seqno = true →
        next.sent csock seqno = true ∨ seqno ∈ messages.filterMap Message.chunkSeqno := by
  have ends : ((irob.markAnnouncementSent csock).complete &&
      (irob.markAnnouncementSent csock).allBytesChunked) = true :=
    Bool.and_eq_true_iff.mpr ⟨complete, all⟩
  have stepped : next.sending.step (.begun csock) =
      some (next.sending.begun irob csock messages true) := by
    simp only [Sending.step, held, present]
  refine ⟨_, congrArg (Option.map _) stepped, ?_, rfl, fun seqno sent => ?_⟩
  · change some (if _ then _ else _) = _
    rw [if_pos ends]
  · rcases Bool.or_eq_true_iff.mp sent with before | now
    · exact .inl before
    · rw [held] at now
      exact .inr (List.contains_iff_mem.mp (Bool.and_eq_true_iff.mp now).2)

/-- A thread goes on with the task in its hand. -/
theorem Enters.step_begin (enters : state.Enters csock irob) {place : Place}
    (held : state.sending.hands csock = .begin place) (assignment : Assignment) :
    state.step (.sending (.begin csock assignment)) =
      (state.sending.begin irob csock place assignment).map fun built =>
        { state with sending := built } := by
  simp [step, Sending.step, held, enters.present, SendingEvent.writes]

theorem Enters.complete (enters : state.Enters csock irob) : irob.complete = true := by
  have small := enters.small
  simp only [sentAtOnce, Bool.and_eq_true] at small
  exact small.1.1.1

/-- Where the write can be done at once, what reaches the other side then was reached before, or
is the chunk that is given. -/
theorem Enters.ready_of_beginsWell (enters : state.Enters csock irob) (sound : state.Sound)
    (well : state.BeginsWell csock irob) : state.Ready csock irob := by
  obtain ⟨⟨data, blocks, chunked⟩, -⟩ := sound irob enters.present
  obtain ⟨place, held⟩ := enters.hand
  obtain ⟨next, moved, announces⟩ := well (.here []) rfl
  have nobody : state.sending.tellOthers irob false [] = state.sending := by
    unfold Sending.tellOthers
    split_ifs <;> rfl
  rw [enters.step_begin held, Sending.begin, nobody] at moved
  obtain ⟨result, building, same⟩ := Option.map_eq_some_iff.mp moved
  apply (enters.ready_iff sound).mpr
  rcases Sending.buildBegin_small state.sending chunked enters.small with
    ⟨-, traps⟩ | ⟨both, -⟩ | ⟨either, -, sent, transmission, gives, all, built⟩
  · cases traps.symm.trans building
  · exact .inl both
  · cases built.symm.trans building
    refine .inr ⟨either, fun seqno inside different => ?_⟩
    have writing : next.sending.hands csock = .beginWrite
        [sent.beginMessage, sent.chunkMessage transmission, sent.endMessage] true := by
      rw [← same]
      exact Function.update_self _ _ _
    have stored : next.sending.irob = some sent ∧ next.sent = state.sent ∧
        next.sending.tasks = state.sending.tasks := by
      rw [← same]
      exact ⟨rfl, rfl, rfl⟩
    obtain ⟨after, done, present, tasks, records⟩ := step_begun writing stored.1
      (gives.complete.trans enters.complete) all
    rcases announces next (.initial rfl) _ after _ writing done present
      (endWasAnnounced_mark _ csock) seqno ((gives.count seqno different).mpr inside) with
      written | ⟨marked, scheduled, before⟩
    · rcases records seqno written with old | now
      · rw [stored.2.1] at old
        exact .inl old
      · exact absurd (List.mem_singleton.mp now) (gives.seqno ▸ different)
    · have marked : irob.own.sendOnAllNetworks = true := gives.marked.symm.trans marked
      rw [tasks, stored.2.2] at scheduled
      exact .inr ⟨marked, scheduled, (gives.places marked seqno different).mp before⟩

/-- A csocket that is ready covers all chunks when its write starts. -/
theorem Enters.beginsWell_of_ready (enters : state.Enters csock irob)
    (reached : machine.Reachable state) (ready : state.Ready csock irob) :
    state.BeginsWell csock irob := by
  have sound := sound_of_reachable reached
  obtain ⟨⟨data, blocks, chunked⟩, -⟩ := sound irob enters.present
  obtain ⟨place, held⟩ := enters.hand
  intro assignment sends
  obtain ⟨middle, same, schedules, begins⟩ :=
    Sending.begin_eq state.sending csock place sends
  have moves : ∀ {built}, middle.buildBegin irob csock = some built →
      state.step (.sending (.begin csock assignment)) = some { state with sending := built } := by
    intro built building
    rw [enters.step_begin held, begins, building]
    rfl
  have permitted : machine.permitted state (.sending (.begin csock assignment)) := by
    refine ⟨trivial, fun other actor => ?_⟩
    cases actor
    exact enters.up
  have onward : ∀ {built}, middle.buildBegin irob csock = some built →
      machine.Reachable { state with sending := built } := fun building =>
    reached.step permitted (moves building)
  have reaches := (enters.ready_iff sound).mp ready
  rcases Sending.buildBegin_small middle chunked enters.small with
    ⟨neither, -⟩ | ⟨-, sent, messages, built⟩ |
    ⟨-, unfinished, sent, transmission, gives, all, built⟩
  · exact absurd (reaches.imp And.left And.left) fun either => neither (either.elim .inl id)
  · refine ⟨_, moves built, fun later there => ?_⟩
    have underway := (covers_of_during (onward built)
      ⟨Option.some_ne_none sent, .inl (Function.update_self _ _ _)⟩ there).1
    intro others after final held
    rcases underway.hand with hand | gone
    · cases hand.symm.trans held
    · cases gone.2.symm.trans held
  · refine ⟨_, moves built, fun later there => ?_⟩
    obtain ⟨underway, covers⟩ := covers_of_during (onward built)
      ⟨Option.some_ne_none sent, .inl (Function.update_self _ _ _)⟩ there
    have start : Covers ⟨({ middle with irob := some sent }.setHand csock (.beginWrite
        [sent.beginMessage, sent.chunkMessage transmission, sent.endMessage] true)), state.sent,
        state.down⟩ csock [transmission.seqno] sent := by
      refine ⟨rfl, gives.complete.trans enters.complete, all, fun seqno inside => ?_⟩
      by_cases first : seqno = irob.firstChunk csock
      · exact .inl (List.mem_singleton.mpr (first.trans gives.seqno.symm))
      · have before := (gives.count seqno first).mp inside
        refine .inr (((reaches.resolve_left unfinished).2 seqno before first).imp_right ?_)
        rintro ⟨marked, scheduled, ahead⟩
        exact ⟨gives.marked.trans marked, schedules.more _ _ scheduled,
          (gives.places marked seqno first).mpr ahead⟩
    obtain ⟨changed, covered⟩ := covers _ sent start
    exact covered.announcesAll underway

/-- In every state that is reached, a small IROB is sent well on a csocket if and only if the
csocket is ready for it. -/
theorem begins_well_iff (reached : machine.Reachable state) (enters : state.Enters csock irob) :
    state.BeginsWell csock irob ↔ state.Ready csock irob := by
  constructor
  · exact enters.ready_of_beginsWell (sound_of_reachable reached)
  · exact enters.beginsWell_of_ready reached

/-- An IROB is sent with its `Begin_IROB` on the only csocket. -/
def sentFirst : List SendingEvent :=
  [.send 7 [1, 2, 3] labelOndemand (some 1), .takeIrob 1 (some 1)]

theorem begins_well_iff_first : ∃ state irob, machine.Reachable state ∧ state.Enters 1 irob ∧
    state.BeginsWell 1 irob := by
  obtain ⟨state, irob, ran, enters, none⟩ : ∃ state irob,
      machine.run initial (sentFirst.map .sending) = some state ∧ state.Enters 1 irob ∧
        irob.CaughtUp 1 ∧ irob.numSenderChunks = 0 := by
    exact ⟨_, _, rfl, ⟨rfl, ⟨_, rfl⟩, rfl, rfl⟩, ⟨rfl, rfl⟩, rfl⟩
  have start : machine.initial initial := rfl
  have reached := Machine.Reachable.run (.initial start) ran
  refine ⟨state, irob, reached, enters, (begins_well_iff reached enters).mpr (.inl ⟨none.1, ?_⟩)⟩
  refine .inr (.inr fun seqno inside => ?_)
  rw [none.2] at inside
  cases inside

/-- The first csocket announces an IROB and sends a chunk of it. -/
def firstChunkSent : List SendingEvent :=
  [.beginIrob 7 [] labelOndemand (some 1), .takeIrob 1 (some 1), .begin 1 (.here []), .begun 1,
    .irobSend [1] 1 true, .takeChunk 1 (some 1), .chunk 1 (.here []) 4096 false,
    .chunkSent 1 false]

/-- The IROB is to be sent on all networks, and the application adds a byte before it ends it:
not all bytes are cut when the second csocket begins it. -/
def grown : List SendingEvent := firstChunkSent ++
  [.redundant false [2], .irobSend [2] 1 true, .endIrob 1 true, .takeIrob 2 (some 2)]

/-- The first csocket has sent two chunks when the IROB is to be sent on all networks. -/
def twoChunks : List SendingEvent := firstChunkSent ++
  [.irobSend [2] 1 true, .takeChunk 1 (some 1), .chunk 1 (.here []) 4096 false, .chunkSent 1 false,
    .endIrob 1 true, .redundant false [2], .takeIrob 2 (some 2)]

/-- The `ASSERT` fails on the second csocket in one run; in the other the end is announced there
with one of two chunks written and no task for the other. -/
theorem begins_badly :
    (∃ state irob, machine.run initial (grown.map .sending) = some state ∧ state.Enters 2 irob ∧
      state.step (.sending (.begin 2 (.here []))) = none) ∧
    (∃ state irob next after final, machine.run initial (twoChunks.map .sending) = some state ∧
      state.Enters 2 irob ∧ state.step (.sending (.begin 2 (.here []))) = some next ∧
      next.step (.sending (.begun 2)) = some after ∧ after.sending.irob = some final ∧
      final.endWasAnnounced 2 = true ∧ 1 < final.numSenderChunks ∧ ¬after.Reaches 2 final 1) ∧
    ¬∀ state csock irob, machine.Reachable state → state.Enters csock irob →
      state.BeginsWell csock irob := by
  have first : ∃ state irob, machine.run initial (grown.map .sending) = some state ∧
      state.Enters 2 irob ∧ state.step (.sending (.begin 2 (.here []))) = none :=
    ⟨_, _, rfl, ⟨rfl, ⟨_, rfl⟩, rfl, rfl⟩, rfl⟩
  refine ⟨first, ?_, fun claim => ?_⟩
  · refine ⟨_, _, _, _, _, rfl, ⟨rfl, ⟨_, rfl⟩, rfl, rfl⟩, rfl, rfl, rfl, rfl, by decide, ?_⟩
    rintro (sent | ⟨-, scheduled, -⟩)
    · exact Bool.noConfusion sent
    · exact Bool.noConfusion scheduled
  · obtain ⟨state, irob, ran, enters, traps⟩ := first
    have start : machine.initial initial := rfl
    obtain ⟨next, moved, -⟩ := claim state 2 irob (Machine.Reachable.run (.initial start) ran)
      enters (.here []) rfl
    cases traps.symm.trans moved

end LossySending

end Libcmm
