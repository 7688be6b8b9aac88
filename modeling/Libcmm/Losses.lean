import Libcmm.Pending
import Libcmm.ResendRuns

/-! # Losses while an IROB is sent (`csocket_sender.cpp`, `cmm_socket_impl.cpp`)

One IROB and its tasks on csockets that may fail, with a peer that may ask for anything again
at any time. When a write fails, the thread schedules its task again in the indexes of the
multisocket and ends; what is left in the indexes of its csocket goes to the replacement, or
to the multisocket. A resend request marks chunks and schedules its tasks there, too. The ACK,
after which nothing of the IROB is sent, is left out.

`sent` records which chunks were written on which csocket. A csocket that has a place of its
own in an IROB, because the IROB is sent on all networks, has written each chunk before its
place, or is writing it (`Carried`).
-/

namespace Libcmm

open Lib

/-- The sequence number of the chunk in a message. -/
def Message.chunkSeqno : Message → Option Nat
  | .irobChunk _ seqno _ _ => some seqno
  | _ => none

namespace Hand

/-- The chunks of which the write is not done. -/
def chunkSeqnos (hand : Hand) : List Nat := hand.messages.filterMap Message.chunkSeqno

/-- The tasks to schedule again if the write fails. A thread that has a task in its hand is
not in a write. -/
def unwritten : Hand → Option (List IndexType)
  | .idle => some []
  | .begin _ | .chunk _ | .dataCheck => none
  | .beginWrite _ _ => some [.newIrobs]
  | .chunkWrite _ _ => some [.newChunks]
  | .endWrite _ => some [.finishedIrobs]
  | .dataCheckWrite _ => some [.waitingDataChecks]

end Hand

namespace SendingEvent

/-- The csocket whose thread takes the step. -/
def actor : SendingEvent → Option CSocketId
  | .takeIrob csock _ | .begin csock _ | .begun csock | .takeChunk csock _ | .chunk csock _ _ _
  | .chunkSent csock _ | .takeFinished csock _ | .endSent csock | .takeDataCheck csock _
  | .dataCheck csock _ | .dataCheckSent csock => some csock
  | _ => none

/-- The csocket on which a write is done. -/
def writes : SendingEvent → Option CSocketId
  | .begun csock | .chunkSent csock _ | .endSent csock | .dataCheckSent csock => some csock
  | _ => none

end SendingEvent

namespace Sending

/-- `CMMSocketImpl::resend_request_received`. -/
def resendRequestReceived (state : Sending) (request : ResendRequestType) (seqno : Nat)
    (nextChunk : Int) : Option Sending := do
  let irob ← state.irob
  let (marked, scheduled) ← irob.resend ⟨irob.id, request, seqno, nextChunk⟩
  let stored := { state with irob := some marked }
  let deps := if scheduled.newIrobs then stored.insert .newIrobs none else stored
  let data := if scheduled.newChunks then deps.insert .newChunks none else deps
  some (if scheduled.finishedIrobs then data.insert .finishedIrobs none else data)

/-- `IROBSchedulingIndexes::add`, with the indexes of a csocket. -/
def add (state : Sending) (place : Place) (csock : CSocketId) : Sending :=
  { state with tasks := fun type elsewhere =>
    if elsewhere = place then state.tasks type place || state.tasks type (some csock)
    else state.tasks type elsewhere }

/-- The end of `CSocketSender::Run`, after a write that failed or with the receiver gone. -/
def fail (state : Sending) (csock : CSocketId) (heir : Place) : Option Sending :=
  (state.hands csock).unwritten.map fun types =>
    ((types.foldl (fun sofar type => sofar.insert type none) state).add heir csock).setHand
      csock .idle

end Sending

/-- One IROB with its tasks, the chunks that were written on each csocket, and the csockets
that are gone. -/
structure LossySending where
  sending : Sending
  sent : CSocketId → Nat → Bool
  down : CSocketId → Bool

/-- What happens: a call or the step of a thread, a request of the peer, or the end of a
csocket. -/
inductive LossyEvent where
  | sending (event : SendingEvent)
  | resendRequest (request : ResendRequestType) (seqno : Nat) (nextChunk : Int)
  | fail (csock : CSocketId) (heir : Place)

namespace LossySending

/-- Nothing has happened. -/
def initial : LossySending := ⟨.initial, fun _ _ => false, fun _ => false⟩

/-- One step. -/
def step (state : LossySending) : LossyEvent → Option LossySending
  | .sending event => (state.sending.step event).map fun after =>
      { state with
        sending := after
        sent := fun csock seqno => state.sent csock seqno ||
          (decide (event.writes = some csock) &&
            (state.sending.hands csock).chunkSeqnos.contains seqno) }
  | .resendRequest request seqno nextChunk =>
      (state.sending.resendRequestReceived request seqno nextChunk).map fun after =>
        { state with sending := after }
  | .fail csock heir => (state.sending.fail csock heir).map fun after =>
      { state with
        sending := after
        down := Function.update state.down csock true }

/-- Only the threads of the csockets that are not gone take steps. The numbers in a request
are as wide as on the wire. -/
def Permitted (state : LossySending) : LossyEvent → Prop
  | .sending event => Sending.machine.permitted state.sending event ∧
      ∀ csock ∈ event.actor, state.down csock = false
  | .resendRequest _ seqno nextChunk =>
      seqno < 2 ^ 32 ∧ -(2 ^ 31) ≤ nextChunk ∧ nextChunk < 2 ^ 31
  | .fail csock heir => state.down csock = false ∧
      ∀ other ∈ heir, other ≠ csock ∧ state.down other = false

/-- The application, the threads, the peer and the networks in any order. -/
def machine : Machine LossySending LossyEvent where
  initial state := state = initial
  permitted := Permitted
  step := step

instance : ∀ (state : LossySending) event, Decidable (machine.permitted state event)
  | state, .sending event => inferInstanceAs (Decidable (
      Sending.machine.permitted state.sending event ∧
        ∀ csock ∈ event.actor, state.down csock = false))
  | _, .resendRequest _ seqno nextChunk => inferInstanceAs (Decidable
      (seqno < 2 ^ 32 ∧ -(2 ^ 31) ≤ nextChunk ∧ nextChunk < 2 ^ 31))
  | state, .fail csock heir => inferInstanceAs (Decidable (state.down csock = false ∧
      ∀ other ∈ heir, other ≠ csock ∧ state.down other = false))

end LossySending

namespace SenderIrob

variable {irob after : SenderIrob} {csock : CSocketId} {requested : Int}
  {transmission : Transmission}

/-- Only the csocket that is given the chunk at its own place moves on. -/
theorem places_getReadyBytes
    (got : irob.getReadyBytes csock requested = some (after, transmission)) (other : CSocketId) :
    after.own.nextSeqnosToSend (some other) = irob.own.nextSeqnosToSend (some other) ∨
      other = csock ∧
        after.own.nextSeqnosToSend (some csock) = irob.own.nextSeqnosToSend (some csock) + 1 ∧
        irob.own.nextSeqnosToSend (some csock) = transmission.seqno ∧ transmission.bytes ≠ [] := by
  rcases getReadyBytes_cases got with ⟨-, -, -, rfl, -⟩ | ⟨-, rfl, -⟩ | ⟨-, nonempty, place, added⟩
  · exact .inl rfl
  · exact .inl rfl
  · obtain ⟨-, -, rfl, -⟩ := addSentChunk_cases added
    unfold nullIndexIfSingleSending at place ⊢
    by_cases marked : irob.own.sendOnAllNetworks = true
    · rw [if_pos marked] at place ⊢
      by_cases same : other = csock
      · rw [place]
        exact .inr ⟨same, Function.update_self _ _ _, rfl, nonempty⟩
      · exact .inl (Function.update_of_ne (fun both => same (Option.some.inj both)) _ _)
    · rw [if_neg marked]
      exact .inl (Function.update_of_ne (Option.some_ne_none other) (transmission.seqno + 1) _)

/-- What an IROB becomes: its chunks stay as they were cut, and a complete one keeps its
bytes. -/
structure Evolves (irob changed : SenderIrob) : Prop where
  chunked : ∀ {data blocks}, Chunked data blocks irob → ∃ later more, Chunked later more changed ∧
    blocks <+: more ∧ (irob.complete = true → later = data)
  complete : irob.complete = true → changed.complete = true
  marked : irob.own.sendOnAllNetworks = true → changed.own.sendOnAllNetworks = true

namespace Evolves

variable {changed : SenderIrob}

theorem refl (irob : SenderIrob) : Evolves irob irob :=
  ⟨fun chunked => ⟨_, _, chunked, List.prefix_rfl, fun _ => rfl⟩, fun complete => complete,
    fun marked => marked⟩

theorem trans (first : Evolves irob after) (second : Evolves after changed) :
    Evolves irob changed := by
  refine ⟨fun chunked => ?_, second.complete ∘ first.complete, second.marked ∘ first.marked⟩
  obtain ⟨middle, blocks, kept, longer, same⟩ := first.chunked chunked
  obtain ⟨later, more, keptToo, longerToo, sameToo⟩ := second.chunked kept
  exact ⟨later, more, keptToo, longer.trans longerToo,
    fun complete => (sameToo (first.complete complete)).trans (same complete)⟩

theorem addChunk (irob : SenderIrob) (bytes : List Byte) :
    Evolves irob (irob.addChunk ⟨irob.id, 0, 0, bytes.length, some bytes⟩).1 := by
  refine ⟨fun chunked => ⟨_, _, chunked.addChunk bytes, List.prefix_rfl, fun complete => ?_⟩,
    ?_, ?_⟩
  · rw [complete]
    rfl
  · intro complete
    rw [SenderIrob.addChunk, complete]
    exact complete
  · intro marked
    unfold SenderIrob.addChunk
    split_ifs <;> exact marked

theorem finish (irob : SenderIrob) : Evolves irob irob.finish.1 := by
  refine ⟨fun chunked => ⟨_, _, chunked.finish, List.prefix_rfl, fun _ => rfl⟩, ?_, ?_⟩
  · intro complete
    rw [PendingIrob.finish, complete]
    exact complete
  · intro marked
    unfold PendingIrob.finish
    split_ifs <;> exact marked

theorem markAnnouncementSent (irob : SenderIrob) (csock : CSocketId) :
    Evolves irob (irob.markAnnouncementSent csock) :=
  ⟨fun chunked => ⟨_, _, chunked.congr rfl rfl ⟨_, _, _, rfl⟩, List.prefix_rfl, fun _ => rfl⟩,
    fun complete => complete, fun marked => marked⟩

theorem markEndAnnouncementSent (irob : SenderIrob) (csock : CSocketId) :
    Evolves irob (irob.markEndAnnouncementSent csock) :=
  ⟨fun chunked => ⟨_, _, chunked.congr rfl rfl ⟨_, _, _, rfl⟩, List.prefix_rfl, fun _ => rfl⟩,
    fun complete => complete, fun marked => marked⟩

theorem markSendOnAllNetworks (irob : SenderIrob) : Evolves irob irob.markSendOnAllNetworks :=
  ⟨fun chunked => ⟨_, _, chunked.markSendOnAllNetworks, List.prefix_rfl, fun _ => rfl⟩,
    fun complete => complete, fun _ => rfl⟩

theorem getReadyBytes
    (got : irob.getReadyBytes csock requested = some (after, transmission)) :
    Evolves irob after := by
  have marks : after.complete = irob.complete ∧
      after.own.sendOnAllNetworks = irob.own.sendOnAllNetworks := by
    rcases getReadyBytes_cases got with ⟨-, -, -, rfl, -⟩ | ⟨-, rfl, -⟩ | ⟨-, -, -, added⟩
    · exact ⟨rfl, rfl⟩
    · exact ⟨rfl, rfl⟩
    · obtain ⟨-, -, rfl, -⟩ := addSentChunk_cases added
      exact ⟨rfl, rfl⟩
  refine ⟨fun {data blocks} chunked => ?_, fun complete => marks.1.trans complete,
    fun marked => marks.2.trans marked⟩
  obtain ⟨result, sent, later, gotToo, kept, longer, -⟩ := chunked.getReadyBytes csock requested
  cases gotToo.symm.trans got
  exact ⟨data, later, kept, longer, fun _ => rfl⟩

end Evolves

end SenderIrob

namespace Sending

open SenderIrob

variable {state after : Sending} {event : SendingEvent} {csock : CSocketId}
  {irob changed : SenderIrob}

/-- What a step does to the IROB, to the threads, and to the chunk tasks of a csocket that
does not take the step. -/
structure Effect (event : SendingEvent) (state after : Sending) (irob changed : SenderIrob) :
    Prop where
  present : after.irob = some changed
  evolves : Evolves irob changed
  places : ∀ csock, changed.own.nextSeqnosToSend (some csock) =
      irob.own.nextSeqnosToSend (some csock) ∨
    event.actor = some csock ∧
      changed.own.nextSeqnosToSend (some csock) = irob.own.nextSeqnosToSend (some csock) + 1 ∧
      irob.own.nextSeqnosToSend (some csock) ∈ (after.hands csock).chunkSeqnos
  hands : ∀ csock, event.actor ≠ some csock → after.hands csock = state.hands csock
  written : ∀ csock seqno, seqno ∈ (state.hands csock).chunkSeqnos →
    event.writes = some csock ∨ seqno ∈ (after.hands csock).chunkSeqnos
  tasks : ∀ csock, event.actor ≠ some csock → state.tasks .newChunks (some csock) = true →
    after.tasks .newChunks (some csock) = true

theorem Schedules.refl (type : IndexType) (state : Sending) : Schedules type state state :=
  .store type state state.irob state.returned

theorem Schedules.trans {type : IndexType} {middle : Sending} (first : Schedules type state middle)
    (second : Schedules type middle after) : Schedules type state after where
  parked := second.parked.trans first.parked
  hands := second.hands.trans first.hands
  written := second.written.trans first.written
  more _ _ scheduled := second.more _ _ (first.more _ _ scheduled)
  only _ _ scheduled := (second.only _ _ scheduled).elim .inl (first.only _ _)

/-- Other csockets are told of an IROB by tasks. -/
theorem schedules_passRequestToAllSenders (state : Sending) (irob : SenderIrob)
    (chunksReady : Bool) (csocks : List CSocketId) :
    (state.passRequestToAllSenders irob chunksReady csocks).irob = state.irob ∧
      Schedules (if chunksReady then .newChunks else .newIrobs) state
        (state.passRequestToAllSenders irob chunksReady csocks) := by
  unfold passRequestToAllSenders
  induction csocks generalizing state with
  | nil => exact ⟨rfl, .refl _ _⟩
  | cons csock rest ih =>
      have one : (state.addRequestIfNotSent irob chunksReady csock).irob = state.irob ∧
          Schedules (if chunksReady then .newChunks else .newIrobs) state
            (state.addRequestIfNotSent irob chunksReady csock) := by
        unfold addRequestIfNotSent
        cases chunksReady with
        | true =>
            simp only [↓reduceIte]
            split_ifs
            · exact ⟨rfl, .insert state .newChunks _ state.irob state.returned⟩
            · exact ⟨rfl, .refl _ _⟩
        | false =>
            simp only [Bool.false_eq_true, ↓reduceIte]
            split_ifs
            · exact ⟨rfl, .refl _ _⟩
            · exact ⟨rfl, .insert state .newIrobs _ state.irob state.returned⟩
      obtain ⟨present, schedules⟩ := ih (state.addRequestIfNotSent irob chunksReady csock)
      exact ⟨present.trans one.1, one.2.trans schedules⟩

theorem schedules_tellOthers (state : Sending) (irob : SenderIrob) (chunksReady : Bool)
    (others : List CSocketId) :
    (state.tellOthers irob chunksReady others).irob = state.irob ∧
      Schedules (if chunksReady then .newChunks else .newIrobs) state
        (state.tellOthers irob chunksReady others) := by
  unfold tellOthers
  by_cases marked : irob.own.sendOnAllNetworks = true
  · rw [if_pos marked]
    exact schedules_passRequestToAllSenders state irob chunksReady others
  · rw [if_neg marked]
    exact ⟨rfl, .refl _ _⟩

namespace Effect

/-- No thread does anything. -/
theorem schedule {type : IndexType} (present : after.irob = some changed)
    (evolves : Evolves irob changed)
    (places : changed.own.nextSeqnosToSend = irob.own.nextSeqnosToSend)
    (schedules : Schedules type state after) : Effect event state after irob changed where
  present := present
  evolves := evolves
  places csock := .inl (congrFun places _)
  hands csock _ := congrFun schedules.hands csock
  written csock seqno member := by
    rw [schedules.hands]
    exact .inr member
  tasks csock _ scheduled := schedules.more _ _ scheduled

/-- A thread goes on, and does not forget a chunk that it writes. -/
theorem turn {hand : Hand} (actor : event.actor = some csock) (present : after.irob = some changed)
    (evolves : Evolves irob changed)
    (places : ∀ other, changed.own.nextSeqnosToSend (some other) =
        irob.own.nextSeqnosToSend (some other) ∨
      other = csock ∧
        changed.own.nextSeqnosToSend (some csock) = irob.own.nextSeqnosToSend (some csock) + 1 ∧
        irob.own.nextSeqnosToSend (some csock) ∈ hand.chunkSeqnos)
    (hands : after.hands = Function.update state.hands csock hand)
    (written : (state.hands csock).chunkSeqnos = [] ∨ event.writes = some csock)
    (tasks : ∀ other, other ≠ csock → state.tasks .newChunks (some other) = true →
      after.tasks .newChunks (some other) = true) : Effect event state after irob changed := by
  have elsewhere : ∀ other, event.actor ≠ some other → other ≠ csock := by
    rintro other idle rfl
    exact idle actor
  refine ⟨present, evolves, fun other => ?_, fun other idle => ?_, fun other seqno member => ?_,
    fun other idle => tasks other (elsewhere other idle)⟩
  · rcases places other with same | ⟨rfl, next, given⟩
    · exact .inl same
    · rw [hands, Function.update_self]
      exact .inr ⟨actor, next, given⟩
  · rw [hands, Function.update_of_ne (elsewhere other idle)]
  · rw [hands]
    by_cases same : other = csock
    · subst same
      rcases written with nothing | done
      · rw [nothing] at member
        cases member
      · exact .inl done
    · rw [Function.update_of_ne same]
      exact .inr member

/-- Tasks are scheduled before a thread goes on. -/
theorem after_schedule {type : IndexType} {middle : Sending}
    (schedules : Schedules type state middle) (effect : Effect event middle after irob changed) :
    Effect event state after irob changed := by
  refine ⟨effect.present, effect.evolves, effect.places, fun other idle => ?_,
    fun other seqno member => ?_, fun other idle scheduled => ?_⟩
  · rw [effect.hands other idle, schedules.hands]
  · rw [← schedules.hands] at member
    exact effect.written other seqno member
  · exact effect.tasks other idle (schedules.more _ _ scheduled)

/-- A thread goes on without the IROB. -/
theorem setHand {hand : Hand} (actor : event.actor = some csock) (present : state.irob = some irob)
    (written : (state.hands csock).chunkSeqnos = [] ∨ event.writes = some csock) :
    Effect event state (state.setHand csock hand) irob irob :=
  .turn actor present (.refl irob) (fun _ => .inl rfl) rfl written fun _ _ scheduled => scheduled

/-- A thread builds a `Begin_IROB`. -/
theorem buildBegin (actor : event.actor = some csock) (present : state.irob = some irob)
    (free : (state.hands csock).chunkSeqnos = [])
    (built : state.buildBegin irob csock = some after) :
    ∃ changed, Effect event state after irob changed := by
  unfold Sending.buildBegin at built
  split_ifs at built
  · obtain ⟨⟨sent, transmission⟩, got, onward⟩ := Option.bind_eq_some_iff.mp built
    have places := places_getReadyBytes got
    simp only at onward
    split_ifs at onward with unchunked empty
    · cases onward
      refine ⟨sent, .turn actor rfl (.getReadyBytes got) (fun other => ?_) rfl (.inl free)
        fun _ _ scheduled => scheduled⟩
      exact (places other).imp_right fun given => absurd (List.isEmpty_iff.mp empty) given.2.2.2
    · cases onward
      refine ⟨sent, .turn actor rfl (.getReadyBytes got) (fun other => ?_) rfl (.inl free)
        fun _ _ scheduled => scheduled⟩
      refine (places other).imp_right fun ⟨same, next, given, _⟩ => ⟨same, next, ?_⟩
      rw [given]
      exact List.mem_singleton_self _
  · cases built
    exact ⟨irob, .setHand actor present (.inl free)⟩

/-- A thread builds an `IROB_Chunk`. -/
theorem buildChunk {chunksize : Nat} {shared : Bool} (actor : event.actor = some csock)
    (free : (state.hands csock).chunkSeqnos = [])
    (built : state.buildChunk irob csock chunksize shared = some after) :
    ∃ changed, Effect event state after irob changed := by
  unfold Sending.buildChunk at built
  obtain ⟨⟨sent, transmission⟩, got, onward⟩ := Option.bind_eq_some_iff.mp built
  have places := places_getReadyBytes got
  simp only at onward
  split_ifs at onward with empty share
  · cases onward
    refine ⟨sent, .turn actor rfl (.getReadyBytes got) (fun other => ?_) rfl (.inl free)
      fun _ _ scheduled => scheduled⟩
    exact (places other).imp_right fun given => absurd (List.isEmpty_iff.mp empty) given.2.2.2
  all_goals
    cases onward
    refine ⟨sent, .turn actor rfl (.getReadyBytes got) (fun other => ?_) rfl (.inl free)
      fun other _ scheduled => ?_⟩
  · refine (places other).imp_right fun ⟨same, next, given, _⟩ => ⟨same, next, ?_⟩
    rw [given]
    exact List.mem_singleton_self _
  · exact (Schedules.insert state .newChunks none (some sent) state.returned).more _ _ scheduled
  · refine (places other).imp_right fun ⟨same, next, given, _⟩ => ⟨same, next, ?_⟩
    rw [given]
    exact List.mem_singleton_self _
  · exact scheduled

/-- A thread builds a data check. -/
theorem buildDataCheck (actor : event.actor = some csock)
    (free : (state.hands csock).chunkSeqnos = [])
    (built : state.buildDataCheck irob csock = some after) :
    ∃ changed, Effect event state after irob changed := by
  obtain ⟨sent, transmission, chunks, got, along, rfl⟩ := buildDataCheck_cases built
  refine ⟨sent, .turn actor rfl (.getReadyBytes got) (fun other => ?_) rfl (.inl free)
    fun _ _ scheduled => scheduled⟩
  refine (places_getReadyBytes got other).imp_right fun ⟨same, next, given, nonempty⟩ =>
    ⟨same, next, List.mem_filterMap.mpr ⟨sent.chunkMessage transmission, ?_, ?_⟩⟩
  · rw [along nonempty]
    exact List.mem_cons_of_mem _ List.mem_cons_self
  · rw [given]
    rfl

/-- A task goes back, or to another place. -/
theorem insert_setHand {hand : Hand} (type : IndexType) (place : Place)
    (actor : event.actor = some csock) (present : state.irob = some irob)
    (free : (state.hands csock).chunkSeqnos = []) :
    Effect event state ((state.insert type place).setHand csock hand) irob irob :=
  .after_schedule (.insert state type place state.irob state.returned)
    (.setHand actor present (.inl free))

/-- A task becomes a thunk. -/
theorem park {hand : Hand} (chunksReady : Bool) (actor : event.actor = some csock)
    (present : state.irob = some irob) (free : (state.hands csock).chunkSeqnos = []) :
    Effect event state ((state.park chunksReady).setHand csock hand) irob irob :=
  .turn actor present (.refl irob) (fun _ => .inl rfl) rfl (.inl free)
    fun _ _ scheduled => scheduled

/-- `begin_irob` up to its write. -/
theorem begin {place : Place} {assignment : Assignment} (actor : event.actor = some csock)
    (present : state.irob = some irob) (held : state.hands csock = .begin place)
    (moved : state.begin irob csock place assignment = some after) :
    ∃ changed, Effect event state after irob changed := by
  have free : (state.hands csock).chunkSeqnos = [] := by
    rw [held]
    rfl
  cases assignment with
  | notOkayToSendBg =>
      cases moved
      exact ⟨irob, .insert_setHand _ _ actor present free⟩
  | passed other alsoHere =>
      unfold Sending.begin at moved
      simp only at moved
      split_ifs at moved
      · have same : (state.insert .newIrobs (some other)).irob = some irob := present
        obtain ⟨changed, effect⟩ := buildBegin actor same free moved
        exact ⟨changed, .after_schedule
          (.insert state .newIrobs (some other) state.irob state.returned) effect⟩
      · cases moved
        exact ⟨irob, .insert_setHand _ _ actor present free⟩
  | parked =>
      unfold Sending.begin at moved
      split_ifs at moved
      cases moved
      exact ⟨irob, .park _ actor present free⟩
  | here others =>
      obtain ⟨same, schedules⟩ := schedules_tellOthers state irob false others
      obtain ⟨changed, effect⟩ := buildBegin actor (same.trans present)
        (by rw [schedules.hands]; exact free) moved
      exact ⟨changed, .after_schedule schedules effect⟩

/-- `irob_chunk` up to its write. -/
theorem chunk {place : Place} {assignment : Assignment} {chunksize : Nat} {shared : Bool}
    (actor : event.actor = some csock) (present : state.irob = some irob)
    (held : state.hands csock = .chunk place)
    (moved : state.chunk irob csock place chunksize shared assignment = some after) :
    ∃ changed, Effect event state after irob changed := by
  have free : (state.hands csock).chunkSeqnos = [] := by
    rw [held]
    rfl
  cases assignment with
  | notOkayToSendBg =>
      cases moved
      exact ⟨irob, .insert_setHand _ _ actor present free⟩
  | passed other alsoHere =>
      unfold Sending.chunk at moved
      simp only at moved
      split_ifs at moved
      · have same : ((state.insert .newChunks (some other)).hands csock).chunkSeqnos = [] := free
        obtain ⟨changed, effect⟩ := buildChunk actor same moved
        exact ⟨changed, .after_schedule
          (.insert state .newChunks (some other) state.irob state.returned) effect⟩
      · cases moved
        exact ⟨irob, .insert_setHand _ _ actor present free⟩
  | parked =>
      unfold Sending.chunk at moved
      split_ifs at moved
      cases moved
      exact ⟨irob, .park _ actor present free⟩
  | here others =>
      obtain ⟨-, schedules⟩ := schedules_tellOthers state irob true others
      obtain ⟨changed, effect⟩ := buildChunk actor (by rw [schedules.hands]; exact free) moved
      exact ⟨changed, .after_schedule schedules effect⟩

/-- `send_data_check` up to its write. -/
theorem dataCheck {assignment : Assignment} (actor : event.actor = some csock)
    (present : state.irob = some irob) (held : state.hands csock = .dataCheck)
    (moved : state.dataCheck irob csock assignment = some after) :
    ∃ changed, Effect event state after irob changed := by
  have free : (state.hands csock).chunkSeqnos = [] := by
    rw [held]
    rfl
  cases assignment with
  | notOkayToSendBg => cases moved
  | passed other alsoHere =>
      unfold Sending.dataCheck at moved
      simp only at moved
      split_ifs at moved
      · have same : ((state.insert .waitingDataChecks (some other)).hands csock).chunkSeqnos = [] :=
          free
        obtain ⟨changed, effect⟩ := buildDataCheck actor same moved
        exact ⟨changed, .after_schedule
          (.insert state .waitingDataChecks (some other) state.irob state.returned) effect⟩
      · cases moved
        exact ⟨irob, .insert_setHand _ _ actor present free⟩
  | parked =>
      unfold Sending.dataCheck at moved
      split_ifs at moved
      cases moved
      exact ⟨irob, .park _ actor present free⟩
  | here others => exact buildDataCheck actor free moved

/-- `begin_irob` after its write. -/
theorem begun {messages : List Message} {sendingAllIrobInfo : Bool}
    (actor : event.actor = some csock) (writes : event.writes = some csock) :
    ∃ changed, Effect event state (state.begun irob csock messages sendingAllIrobInfo) irob
      changed := by
  have announced := Evolves.markAnnouncementSent irob csock
  unfold Sending.begun
  cases sendingAllIrobInfo with
  | true =>
      simp only [↓reduceIte]
      split_ifs
      · exact ⟨_, .turn actor rfl (announced.trans (.markEndAnnouncementSent _ csock))
          (fun _ => .inl rfl) rfl (.inr writes) fun _ _ scheduled => scheduled⟩
      · exact ⟨_, .turn actor rfl announced (fun _ => .inl rfl) rfl (.inr writes)
          fun _ _ scheduled => scheduled⟩
  | false =>
      simp only [Bool.false_eq_true, ↓reduceIte]
      split_ifs
      · refine ⟨_, .turn actor rfl announced (fun _ => .inl rfl) rfl (.inr writes) ?_⟩
        intro other _ scheduled
        exact (Schedules.insert state .newChunks (some csock) state.irob state.returned).more _ _
          scheduled
      · exact ⟨_, .turn actor rfl announced (fun _ => .inl rfl) rfl (.inr writes)
          fun _ _ scheduled => scheduled⟩

/-- `irob_chunk` after its write. -/
theorem chunkSent {message : Message} {shared : Bool} (actor : event.actor = some csock)
    (writes : event.writes = some csock) (present : state.irob = some irob) :
    Effect event state (state.chunkSent irob csock message shared) irob irob := by
  have tasks : ∀ other, state.tasks .newChunks (some other) = true →
      (state.chunkSent irob csock message shared).tasks .newChunks (some other) = true := by
    intro other scheduled
    have kept : ∀ (next : Sending) type place, next.tasks .newChunks (some other) = true →
        (next.insert type place).tasks .newChunks (some other) = true :=
      fun next type place =>
        (Schedules.insert next type place next.irob next.returned).more .newChunks (some other)
    unfold Sending.chunkSent
    simp only
    split_ifs
    · exact kept _ _ _ scheduled
    · exact scheduled
    · exact kept _ _ _ (kept _ _ _ scheduled)
    · exact kept _ _ _ scheduled
  have hands : (state.chunkSent irob csock message shared).hands =
      Function.update state.hands csock .idle := by
    unfold Sending.chunkSent
    simp only
    split_ifs <;> rfl
  refine .turn actor ?_ (.refl irob) (fun _ => .inl rfl) hands (.inr writes)
    fun other _ => tasks other
  unfold Sending.chunkSent
  simp only
  split_ifs <;> exact present

/-- A task is taken by a thread that was idle. -/
theorem take {type : IndexType} {place : Place} {taken : Sending} {hand : Hand}
    (took : state.take type place = some taken) (own : place = none ∨ place = some csock)
    (actor : event.actor = some csock) (present : state.irob = some irob)
    (idle : state.hands csock = .idle) :
    Effect event state (taken.setHand csock hand) irob irob := by
  unfold Sending.take at took
  split_ifs at took
  cases took
  refine .turn actor present (.refl irob) (fun _ => .inl rfl) rfl ?_
    fun other different scheduled => ?_
  · rw [idle]
    exact .inl rfl
  · have elsewhere : ¬(IndexType.newChunks = type ∧ some other = place) := by
      rintro ⟨-, rfl⟩
      rcases own with absent | same
      · cases absent
      · exact different (Option.some.inj same)
    simp only [Sending.setHand]
    rw [if_neg elsewhere]
    exact scheduled

end Effect

/-- Every step with the IROB there has an effect on it. -/
theorem step_effect (present : state.irob = some irob) (permitted : machine.permitted state event)
    (moved : state.step event = some after) : ∃ changed, Effect event state after irob changed := by
  have same : ∀ {other}, state.irob = some other → other = irob := fun there =>
    Option.some.inj (there.symm.trans present)
  cases step_move moved with
  | beginIrob absent => cases absent.symm.trans present
  | send absent => cases absent.symm.trans present
  | @irobSend _ data csock connected there =>
      cases same there
      have places : (irob.addChunk ⟨irob.id, 0, 0, data.length, some data⟩).1.own.nextSeqnosToSend =
          irob.own.nextSeqnosToSend := by
        unfold SenderIrob.addChunk
        split_ifs <;> rfl
      unfold Sending.irobSend
      simp only
      split_ifs
      · exact ⟨_, .schedule rfl (.addChunk irob data) places
          (.insert state .newChunks _ _ state.returned)⟩
      · exact ⟨_, .schedule rfl (.addChunk irob data) places
          (.store .newChunks state _ state.returned)⟩
  | endIrob there =>
      cases same there
      have places : irob.finish.1.own.nextSeqnosToSend = irob.own.nextSeqnosToSend := by
        unfold PendingIrob.finish
        split_ifs <;> rfl
      unfold Sending.endIrob
      simp only
      split_ifs
      · exact ⟨_, .schedule rfl (.finish irob) places (.insert state .finishedIrobs _ _ true)⟩
      · exact ⟨_, .schedule rfl (.finish irob) places (.store .finishedIrobs state _ true)⟩
  | takeIrob idle took => exact ⟨irob, .take took permitted rfl present idle⟩
  | begin held there begun =>
      cases same there
      exact Effect.begin rfl present held begun
  | begun held there =>
      cases same there
      exact Effect.begun rfl rfl
  | takeChunk idle took => exact ⟨irob, .take took permitted rfl present idle⟩
  | chunk held there chunked =>
      cases same there
      exact Effect.chunk rfl present held chunked
  | chunkSent held there =>
      cases same there
      exact ⟨irob, .chunkSent rfl rfl present⟩
  | takeFinished idle there took => exact ⟨irob, .take took permitted rfl present idle⟩
  | endSent held =>
      exact ⟨irob, .turn rfl present (.refl irob) (fun _ => .inl rfl) rfl (.inr rfl)
        fun _ _ scheduled => scheduled⟩
  | @resume _ place _ resumed =>
      unfold Sending.resume at resumed
      split at resumed
      · cases resumed
      · cases resumed
        refine ⟨irob, present, .refl irob, fun _ => .inl rfl, fun _ _ => rfl,
          fun _ _ member => .inr member, fun other _ scheduled => ?_⟩
        exact (Schedules.insert state _ place state.irob state.returned).more _ _ scheduled
  | @redundant _ chunksReady csocks there =>
      cases same there
      obtain ⟨stored, schedules⟩ := schedules_passRequestToAllSenders
        { state with irob := some irob.markSendOnAllNetworks } irob.markSendOnAllNetworks chunksReady
        csocks
      exact ⟨_, .schedule stored (.markSendOnAllNetworks irob) rfl
        ((Schedules.store _ state _ state.returned).trans schedules)⟩
  | dataCheckAllIrobs there =>
      exact ⟨irob, .schedule present (.refl irob) rfl
        (.insert state .waitingDataChecks none state.irob state.returned)⟩
  | takeDataCheck idle took => exact ⟨irob, .take took permitted rfl present idle⟩
  | dataCheck held there checked =>
      cases same there
      exact Effect.dataCheck rfl present held checked
  | dataCheckSent held =>
      exact ⟨irob, .turn rfl present (.refl irob) (fun _ => .inl rfl) rfl (.inr rfl)
        fun _ _ scheduled => scheduled⟩

/-- Without the IROB it can only begin. -/
theorem first_effect (absent : state.irob = none) (moved : state.step event = some after)
    (present : after.irob = some changed) :
    ∃ id deps data sendLabels, changed = SenderIrob.mk id deps data sendLabels := by
  have taken : ∀ {type place taken}, state.take type place = some taken → taken.irob = none := by
    intro type place taken took
    unfold Sending.take at took
    split_ifs at took
    cases took
    exact absent
  have stuck : ∀ {result : Prop}, after.irob = none → result := fun none =>
    nomatch none.symm.trans present
  cases step_move moved with
  | beginIrob =>
      cases present
      exact ⟨_, _, _, _, rfl⟩
  | send =>
      cases present
      exact ⟨_, _, _, _, rfl⟩
  | takeIrob idle took =>
      have none := taken took
      exact stuck none
  | takeChunk idle took =>
      have none := taken took
      exact stuck none
  | takeDataCheck idle took =>
      have none := taken took
      exact stuck none
  | endSent | dataCheckSent => exact stuck absent
  | resume resumed =>
      unfold Sending.resume at resumed
      split at resumed
      · cases resumed
      · cases resumed
        exact stuck absent
  | irobSend there | endIrob there | begin _ there | begun _ there | chunk _ there
  | chunkSent _ there | takeFinished _ there | redundant there | dataCheckAllIrobs there
  | dataCheck _ there => cases absent.symm.trans there

/-- A resend request marks chunks and schedules tasks of the multisocket. -/
theorem resendRequestReceived_effect {request : ResendRequestType} {seqno : Nat} {nextChunk : Int}
    (moved : state.resendRequestReceived request seqno nextChunk = some after) :
    ∃ irob marked scheduled, state.irob = some irob ∧
      irob.resend ⟨irob.id, request, seqno, nextChunk⟩ = some (marked, scheduled) ∧
      after.irob = some marked ∧ after.hands = state.hands ∧
      ∀ csock, state.tasks .newChunks (some csock) = true →
        after.tasks .newChunks (some csock) = true := by
  obtain ⟨irob, present, onward⟩ := Option.bind_eq_some_iff.mp moved
  obtain ⟨⟨marked, scheduled⟩, resent, last⟩ := Option.bind_eq_some_iff.mp onward
  have kept : ∀ (next : Sending) (asked : Bool) type csock,
      next.tasks .newChunks (some csock) = true →
        (if asked then next.insert type none else next).tasks .newChunks (some csock) = true := by
    intro next asked type csock scheduled
    split_ifs
    · exact (Schedules.insert next type none next.irob next.returned).more _ _ scheduled
    · exact scheduled
  cases last
  refine ⟨irob, marked, scheduled, present, resent, ?_, ?_, fun csock there =>
    kept _ _ _ _ (kept _ _ _ _ (kept _ _ _ _ there))⟩
  · split_ifs <;> rfl
  · split_ifs <;> rfl

/-- The end of a csocket leaves the IROB and the other threads alone. -/
theorem fail_effect {heir : Place} (moved : state.fail csock heir = some after) :
    after.irob = state.irob ∧ after.hands = Function.update state.hands csock .idle ∧
      ∀ other, state.tasks .newChunks (some other) = true →
        after.tasks .newChunks (some other) = true := by
  obtain ⟨types, -, rfl⟩ := Option.map_eq_some_iff.mp moved
  have inserts : ∀ (types : List IndexType) (start : Sending),
      (types.foldl (fun sofar type => sofar.insert type none) start).irob = start.irob ∧
      (types.foldl (fun sofar type => sofar.insert type none) start).hands = start.hands ∧
      ∀ other, start.tasks .newChunks (some other) = true →
        (types.foldl (fun sofar type => sofar.insert type none) start).tasks .newChunks
          (some other) = true := by
    intro types
    induction types with
    | nil => exact fun start => ⟨rfl, rfl, fun _ scheduled => scheduled⟩
    | cons type rest ih =>
        intro start
        obtain ⟨same, hands, tasks⟩ := ih (start.insert type none)
        exact ⟨same, hands, fun other scheduled => tasks other
          ((Schedules.insert start type none start.irob start.returned).more _ _ scheduled)⟩
  obtain ⟨same, hands, tasks⟩ := inserts types state
  refine ⟨same, ?_, fun other scheduled => ?_⟩
  · rw [← hands]
    rfl
  simp only [add, setHand]
  split_ifs with here
  · rw [← here, tasks other scheduled, Bool.true_or]
  · exact tasks other scheduled

end Sending

namespace LossySending

open SenderIrob

variable {state after : LossySending} {event : LossyEvent} {csock : CSocketId}

/-- The chunks before the own place of a csocket are written on it, or it writes them just
now. -/
structure Carried (state : LossySending) (irob : SenderIrob) : Prop where
  chunked : ∃ data blocks, Chunked data blocks irob
  places : ∀ csock seqno, state.down csock = false →
    seqno < irob.own.nextSeqnosToSend (some csock) →
      state.sent csock seqno = true ∨ seqno ∈ (state.sending.hands csock).chunkSeqnos

/-- The IROB, once it has begun, is carried. -/
def Sound (state : LossySending) : Prop :=
  ∀ irob, state.sending.irob = some irob → state.Carried irob

/-- What was written stays written. -/
theorem sent_step (moved : state.step event = some after) {seqno : Nat}
    (sent : state.sent csock seqno = true) : after.sent csock seqno = true := by
  cases event with
  | sending event =>
      obtain ⟨result, -, rfl⟩ := Option.map_eq_some_iff.mp moved
      exact Bool.or_eq_true_iff.mpr (.inl sent)
  | resendRequest request number nextChunk =>
      obtain ⟨result, -, rfl⟩ := Option.map_eq_some_iff.mp moved
      exact sent
  | fail gone heir =>
      obtain ⟨result, -, rfl⟩ := Option.map_eq_some_iff.mp moved
      exact sent

/-- A chunk that is being written is recorded when its write is done. -/
theorem sent_or_writing_step {event : SendingEvent} {result : Sending} {irob changed : SenderIrob}
    (effect : Sending.Effect event state.sending result irob changed) {seqno : Nat}
    (before : state.sent csock seqno = true ∨
      seqno ∈ (state.sending.hands csock).chunkSeqnos) :
    (state.sent csock seqno || (decide (event.writes = some csock) &&
        (state.sending.hands csock).chunkSeqnos.contains seqno)) = true ∨
      seqno ∈ (result.hands csock).chunkSeqnos := by
  rcases before with sent | writing
  · exact .inl (Bool.or_eq_true_iff.mpr (.inl sent))
  · refine (effect.written csock seqno writing).imp_left fun done => ?_
    rw [decide_eq_true done, Bool.true_and, List.contains_iff_mem.mpr writing, Bool.or_true]

theorem Sound.step (sound : state.Sound) (permitted : state.Permitted event)
    (moved : state.step event = some after) : after.Sound := by
  intro changed present
  cases event with
  | sending event =>
      obtain ⟨result, stepped, rfl⟩ := Option.map_eq_some_iff.mp moved
      cases before : state.sending.irob with
      | none =>
          obtain ⟨id, deps, data, sendLabels, rfl⟩ := Sending.first_effect before stepped present
          exact ⟨⟨data, [], .initial id deps data sendLabels⟩, fun _ _ _ below => nomatch below⟩
      | some irob =>
          obtain ⟨result, effect⟩ := Sending.step_effect before permitted.1 stepped
          cases effect.present.symm.trans present
          obtain ⟨⟨data, blocks, chunked⟩, places⟩ := sound irob before
          constructor
          · obtain ⟨later, more, kept, -⟩ := effect.evolves.chunked chunked
            exact ⟨later, more, kept⟩
          · intro csock seqno up below
            rcases effect.places csock with same | ⟨-, next, given⟩
            · rw [same] at below
              exact sent_or_writing_step effect (places csock seqno up below)
            · rw [next] at below
              rcases Nat.lt_or_eq_of_le (Nat.le_of_lt_succ below) with before | rfl
              · exact sent_or_writing_step effect (places csock seqno up before)
              · exact .inr given
  | resendRequest request number nextChunk =>
      obtain ⟨result, received, rfl⟩ := Option.map_eq_some_iff.mp moved
      obtain ⟨irob, marked, scheduled, before, resent, now, hands, -⟩ :=
        Sending.resendRequestReceived_effect received
      cases now.symm.trans present
      obtain ⟨⟨data, blocks, chunked⟩, places⟩ := sound irob before
      refine ⟨⟨data, blocks, chunked.of_resend resent⟩, fun csock seqno up below => ?_⟩
      obtain ⟨chunks, rfl⟩ := SenderIrob.resend_eq resent
      simp only [hands]
      exact places csock seqno up below
  | fail gone heir =>
      obtain ⟨result, failed, rfl⟩ := Option.map_eq_some_iff.mp moved
      obtain ⟨same, hands, -⟩ := Sending.fail_effect failed
      obtain ⟨chunked, places⟩ := sound changed (same.symm.trans present)
      refine ⟨chunked, fun csock seqno up below => ?_⟩
      have different : csock ≠ gone := by
        rintro rfl
        simp only [Function.update_self, Bool.true_eq_false] at up
      simp only [hands, Function.update_of_ne different] at up ⊢
      exact places csock seqno up below

theorem sound_of_reachable (reached : machine.Reachable state) : state.Sound := by
  apply reached.induct
  · rintro first rfl irob present
    cases present
  · rintro before next event - sound permitted moved
    exact sound.step permitted moved

end LossySending

end Libcmm
