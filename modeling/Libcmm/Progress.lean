import Libcmm.Pending

/-! # Every finished IROB makes progress

A run loses the work on an IROB in a few ways only: an `mc_send` of nothing, an `mc_end_irob`
that comes before the `Begin_IROB` of an IROB without bytes, or of one whose bytes a data check
has cut off, an `mc_end_irob` while a task waits in a thunk, a chunk that is shared too late,
and an IROB that is marked to be sent on all networks. Every other step keeps all work
pending. So in a run that avoids them (`Careful`) an IROB that is finished and has no task left
has been written, and for each of them a run shows that it is stuck.
-/

namespace Libcmm

open Lib

namespace Sending

open SenderIrob

/-- An IROB is on its way, and no work on it is lost. -/
structure Going (irob : SenderIrob) (state : Sending) : Prop where
  present : state.irob = some irob
  returned : state.returned = true → irob.complete = true
  kept : ∃ data blocks, Kept data blocks irob state

/-- The invariant of a careful run. -/
def Sound (state : Sending) : Prop := state = initial ∨ ∃ irob, Going irob state

/-- An `mc_end_irob` that found a csocket leaves no work behind: an IROB of which all bytes are
chunked was announced before, and no task for bytes that are not chunked waits in a thunk. -/
def mayEnd (state : Sending) (csock : CSocketId) (irob : SenderIrob) : Bool :=
  (irob.wasAnnounced csock || !irob.allBytesChunked) &&
    (state.parked true == 0 || irob.allBytesChunked)

/-- What the application and the senders do with care: no `mc_send` of nothing, no
`mc_end_irob` that leaves work behind. While bytes are left, a chunk is not shared after its
write only, and the IROB is not marked to be sent on all networks. -/
def Careful (state : Sending) : SendingEvent → Prop
  | .send _ data _ _ => data ≠ []
  | .endIrob csock _ => state.irob.all (state.mayEnd csock) = true
  | .chunkSent csock shared =>
      shared = false ∨ (state.hands csock).shared = true ∨ state.irob.all allBytesChunked = true
  | .redundant _ _ => False
  | _ => True

instance (state : Sending) (event : SendingEvent) : Decidable (state.Careful event) :=
  match event with
  | .send _ data _ _ => inferInstanceAs (Decidable (data ≠ []))
  | .endIrob csock _ => inferInstanceAs (Decidable (state.irob.all (state.mayEnd csock) = true))
  | .chunkSent csock shared => inferInstanceAs (Decidable (shared = false ∨
      (state.hands csock).shared = true ∨ state.irob.all allBytesChunked = true))
  | .redundant _ _ => .isFalse id
  | .beginIrob _ _ _ _ | .irobSend _ _ _ | .takeIrob _ _ | .begin _ _ | .begun _ | .takeChunk _ _
  | .chunk _ _ _ _ | .takeFinished _ _ | .endSent _ | .resume _ _ | .dataCheckAllIrobs
  | .takeDataCheck _ _ | .dataCheck _ _ | .dataCheckSent _ => .isTrue trivial

/-- The IROB is stored with the work that is pending for it. -/
theorem Kept.going {data : List Byte} {blocks : List (List Byte)} {irob : SenderIrob}
    {state : Sending} (kept : Kept data blocks irob state)
    (returned : state.returned = true → irob.complete = true) :
    Going irob { state with irob := some irob } :=
  ⟨rfl, returned, data, blocks,
    kept.schedule (.store .newIrobs state _ _) nofun nofun⟩

/-- The messages of a data check end with an `End_IROB` if the IROB has ended. -/
theorem ends_dataCheckWrite (irob : SenderIrob) (chunks : List Transmission)
    (ends : irob.ends = true) : Hand.ends (.dataCheckWrite (irob.beginMessage ::
      chunks.map irob.chunkMessage ++ if irob.ends then [irob.endMessage] else [])) = true := by
  rw [if_pos ends, Hand.ends, List.any_append, List.any_cons]
  exact Bool.or_true _

/-- The messages of a data check have an `End_IROB` only if the IROB has ended. -/
theorem fits_dataCheckWrite (irob : SenderIrob) (chunks : List Transmission) :
    Fits irob (.dataCheckWrite (irob.beginMessage ::
      chunks.map irob.chunkMessage ++ if irob.ends then [irob.endMessage] else [])) := by
  intro some
  by_cases ends : irob.ends = true
  · refine ⟨ends, irob.numSenderChunks, ?_⟩
    rw [if_pos ends]
    exact List.mem_append_right _ List.mem_cons_self
  · rw [if_neg ends, List.append_nil, List.any_cons, List.any_map] at some
    obtain ⟨chunk, -, isEnd⟩ := List.any_eq_true.mp some
    exact Bool.noConfusion isEnd

namespace Going

variable {irob : SenderIrob} {state after : Sending} {csock : CSocketId}

/-- A new IROB has a task for its `Begin_IROB`, and nothing else. -/
theorem begins (id : IrobId) (deps : List IrobId) (data : List Byte) (sendLabels : Nat)
    (place : Place) {returned : Bool} (sends : returned = true → data ≠ []) :
    Going (.mk id deps data sendLabels) ({ initial with
      irob := some (.mk id deps data sendLabels)
      returned := returned }.insert .newIrobs place) := by
  have complete : (SenderIrob.mk id deps data sendLabels).complete = true ↔ data ≠ [] := by
    change (!data.isEmpty) = true ↔ _
    rw [Bool.not_eq_true', List.isEmpty_eq_false_iff]
  refine ⟨rfl, fun done => complete.mpr (sends done), data, [], ?_⟩
  refine Kept.schedule ?_ (.insert initial .newIrobs place _ returned) nofun nofun
  exact {
    plain := .initial id deps data sendLabels
    newChunks := fun _ absent => Bool.noConfusion absent
    finished := fun _ absent => Bool.noConfusion absent
    hands := fun _ => trivial
    parked := fun waiting => absurd waiting (Nat.lt_irrefl 0)
    chunking := fun absent => Bool.noConfusion absent
    ending := by
      intro ends
      obtain ⟨done, all⟩ := Bool.and_eq_true_iff.mp ends
      have cut := (Chunked.initial id deps data sendLabels).allBytesChunked_iff.mp all
      exact absurd cut.symm (complete.mp done)
    ended := fun absent => Bool.noConfusion absent
    sent := fun _ _ absent => nomatch absent }

theorem irobSend (going : Going irob state) (data : List Byte) (connected : Bool) :
    ∃ added, Going added (state.irobSend irob data csock connected) := by
  obtain ⟨present, returned, before, blocks, kept⟩ := going
  unfold Sending.irobSend
  cases open' : irob.complete with
  | true =>
      have same : (irob.addChunk ⟨irob.id, 0, 0, data.length, some data⟩).1 = irob := by
        rw [SenderIrob.addChunk, open']
        rfl
      simp only [same]
      split_ifs with announced
      · rw [kept.plain.wasAnnounced] at announced
        exact ⟨irob, rfl, fun _ => open', before, blocks,
          kept.schedule (.insert state .newChunks _ _ _) (fun _ => announced)
            fun absent => IndexType.noConfusion absent⟩
      · exact ⟨irob, kept.going fun _ => open'⟩
  | false =>
      have plain := kept.plain.addChunk open' data
      have marks : (irob.addChunk ⟨irob.id, 0, 0, data.length, some data⟩).1.own.announcements =
          irob.own.announcements := by
        rw [SenderIrob.addChunk, open']
        rfl
      have closed : state.returned ≠ true := fun done =>
        Bool.noConfusion ((returned done).symm.trans open')
      simp only
      split_ifs with announced
      · rw [plain.wasAnnounced, marks] at announced
        exact ⟨_, rfl, fun done => absurd done closed, _, blocks, kept.addChunk open' data
          (.insert state .newChunks _ _ _) (fun _ => announced)
            (fun absent => IndexType.noConfusion absent) fun _ => ⟨_, tasks_insert _ .newChunks _⟩⟩
      · rw [plain.wasAnnounced, marks] at announced
        exact ⟨_, rfl, fun done => absurd done closed, _, blocks, kept.addChunk open' data
          (.store .newIrobs state _ _) (fun absent => IndexType.noConfusion absent)
            (fun absent => IndexType.noConfusion absent) fun marked => absurd marked announced⟩

theorem endIrob (going : Going irob state) (connected : Bool)
    (careful : state.Careful (.endIrob csock connected)) :
    ∃ finished, Going finished (state.endIrob irob csock connected) := by
  obtain ⟨present, returned, data, blocks, kept⟩ := going
  have careful : state.irob.all (state.mayEnd csock) = true := careful
  rw [present, Option.all_some, mayEnd, Bool.and_eq_true, Bool.or_eq_true, Bool.or_eq_true,
    Bool.not_eq_true', beq_iff_eq, kept.plain.wasAnnounced] at careful
  obtain ⟨begun, parked⟩ := careful
  have complete : irob.finish.1.complete = true := by
    unfold PendingIrob.finish
    split_ifs with already
    · exact already
    · rfl
  have chunks : allBytesChunked irob.finish.1 = irob.allBytesChunked := by
    unfold PendingIrob.finish
    split_ifs <;> rfl
  have marks : irob.finish.1.own = irob.own := by
    unfold PendingIrob.finish
    split_ifs <;> rfl
  unfold Sending.endIrob
  simp only [complete, chunks, kept.plain.finish.wasAnnounced, kept.plain.finish.endWasAnnounced,
    marks, Bool.and_true]
  split_ifs with schedules
  · simp only [Bool.and_eq_true, Bool.not_eq_true'] at schedules
    exact ⟨_, rfl, fun _ => complete, data, blocks, kept.finish
      (.insert state .finishedIrobs _ _ _) nofun (fun _ => schedules.2) parked
        fun _ => .inr ⟨_, tasks_insert _ .finishedIrobs _⟩⟩
  · refine ⟨_, rfl, fun _ => complete, data, blocks, kept.finish (.store .newIrobs state _ _)
      nofun nofun parked fun all => .inl ?_⟩
    have announced := begun.resolve_right fun left => Bool.noConfusion (all.symm.trans left)
    rw [announced, all, Bool.true_and, Bool.and_true, Bool.not_eq_true, Bool.not_eq_false'] at schedules
    exact schedules

/-- A thread builds a `Begin_IROB`, and sends the rest of a small IROB along with it. -/
theorem buildBegin (going : Going irob state) (free : (state.hands csock).free = true)
    (built : state.buildBegin irob csock = some after) : ∃ sent, Going sent after := by
  obtain ⟨present, returned, data, blocks, kept⟩ := going
  unfold Sending.buildBegin at built
  split_ifs at built with small
  · obtain ⟨⟨sent, transmission⟩, got, onward⟩ := Option.bind_eq_some_iff.mp built
    simp only [Bool.and_eq_true] at small
    have complete := small.1.1.1
    simp only at onward
    split_ifs at onward with unchunked empty
    · cases onward
      rcases kept.plain.getReadyBytes got with ⟨-, rfl, -⟩ | ⟨nonempty, -⟩
      · have held : Kept data blocks sent
            (state.setHand csock (.beginWrite [sent.beginMessage] false)) :=
          kept.setHand_of_free free fun absent => Bool.noConfusion absent
        exact ⟨sent, held.going returned⟩
      · exact absurd (List.isEmpty_iff.mp empty) nonempty
    · cases onward
      rcases kept.plain.getReadyBytes got with ⟨none, -, -⟩ | ⟨-, plain, same, seqno, offset⟩
      · exact absurd (List.isEmpty_iff.mpr none) empty
      · have ends : sent.ends = true := by
          rw [SenderIrob.ends, same.complete, complete]
          simpa using unchunked
        have grown : Kept data (blocks ++ [transmission.bytes]) sent (state.setHand csock
            (.beginWrite [sent.beginMessage, sent.chunkMessage transmission, sent.endMessage]
              true)) := by
          refine kept.grow plain same (fun _ => ⟨ends, sent.numSenderChunks, ?_⟩)
            (Hand.messages_of_free free) (fun _ => rfl) ?_ fun chunks => ?_
          · exact List.mem_cons_of_mem _ (List.mem_cons_of_mem _ List.mem_cons_self)
          · rw [chunkOf_last seqno offset]
            exact List.mem_cons_of_mem _ List.mem_cons_self
          · exact Bool.noConfusion (chunks.symm.trans (Hand.chunks_of_free free))
        exact ⟨sent, grown.going fun done => same.complete.trans (returned done)⟩
  · cases built
    exact ⟨irob, present, returned, data, blocks,
      kept.setHand_of_free free fun absent => Bool.noConfusion absent⟩

/-- A thread on which nothing depends lets go of a task that is somewhere else now. -/
theorem passes (going : Going irob state) (free : (state.hands csock).free = true)
    {type : IndexType} (place : Place) (newChunks : type ≠ .newChunks)
    (finished : type ≠ .finishedIrobs) :
    Going irob ((state.insert type place).setHand csock .idle) := by
  obtain ⟨present, returned, data, blocks, kept⟩ := going
  have scheduled := kept.schedule (.insert state type place state.irob state.returned)
    (fun same => absurd same newChunks) fun same => absurd same finished
  exact ⟨present, returned, data, blocks, scheduled.setHand_of_free free trivial⟩

/-- The task of such a thread becomes a thunk for the `Begin_IROB`. -/
theorem parks (going : Going irob state) (free : (state.hands csock).free = true)
    (open' : irob.complete = false) : Going irob ((state.park false).setHand csock .idle) := by
  obtain ⟨present, returned, data, blocks, kept⟩ := going
  have parked : Kept data blocks irob (state.park false) :=
    kept.park (fun absent => Bool.noConfusion absent) open'
  exact ⟨present, returned, data, blocks, parked.setHand_of_free free trivial⟩

/-- A task for a `Begin_IROB` goes to a csocket or becomes a thunk, or the message is
built. -/
theorem begin {place : Place} {assignment : Assignment} (going : Going irob state)
    (held : state.hands csock = .begin place)
    (moved : state.begin irob csock place assignment = some after) :
    ∃ sent, Going sent after := by
  have free : (state.hands csock).free = true := by
    rw [held]
    rfl
  obtain ⟨data, blocks, kept⟩ := going.kept
  cases assignment with
  | notOkayToSendBg =>
      cases moved
      exact ⟨irob, going.passes free place nofun nofun⟩
  | passed other alsoHere =>
      simp only [Sending.begin, kept.plain.single, Bool.and_false, Bool.false_eq_true,
        ↓reduceIte, Option.some.injEq] at moved
      cases moved
      exact ⟨irob, going.passes free (some other) nofun nofun⟩
  | parked =>
      unfold Sending.begin at moved
      split_ifs at moved with complete
      cases moved
      exact ⟨irob, going.parks free (Bool.eq_false_of_not_eq_true complete)⟩
  | here others =>
      simp only [Sending.begin, tellOthers, kept.plain.single, Bool.false_eq_true,
        ↓reduceIte] at moved
      exact going.buildBegin free moved

/-- A `Begin_IROB` has been written. -/
theorem begun {messages : List Message} {sendingAllIrobInfo : Bool} (going : Going irob state)
    (held : state.hands csock = .beginWrite messages sendingAllIrobInfo) :
    ∃ announced, Going announced (state.begun irob csock messages sendingAllIrobInfo) := by
  obtain ⟨present, returned, data, blocks, kept⟩ := going
  have written := kept.write messages
  have fits := kept.hands csock
  rw [held] at fits
  -- the thread is done once all that it wrote counts as written
  have release : ∀ {marked : SenderIrob} {next : Sending}, Kept data blocks marked next →
      next.hands csock = .beginWrite messages sendingAllIrobInfo →
      next.written = state.written ++ messages →
      (sendingAllIrobInfo = true → HasEnd marked next.written) →
      Kept data blocks marked (next.setHand csock .idle) := by
    intro marked next kept held written has
    apply kept.setHand held (Fits.idle _)
    · exact fun absent => Bool.noConfusion absent
    · exact fun all _ => .inr (.inl (has all))
    · rw [written]
      exact fun message => List.mem_append_right _
  unfold Sending.begun
  cases sendingAllIrobInfo with
  | true =>
      obtain ⟨ends, chunks, member⟩ := fits rfl
      obtain ⟨complete, all⟩ := Bool.and_eq_true_iff.mp ends
      have has : HasEnd irob (state.written ++ messages) := ⟨chunks, List.mem_append_right _ member⟩
      have marked := written.announce csock (.store .newIrobs _ state.irob state.returned) nofun
        fun left => Bool.noConfusion (all.symm.trans left)
      have ended := marked.markEnd csock complete has
      have idle := release ended held rfl fun _ => has
      have both : ((irob.markAnnouncementSent csock).complete &&
          (irob.markAnnouncementSent csock).allBytesChunked) = true := ends
      rw [if_pos rfl, if_pos both]
      exact ⟨_, idle.going returned⟩
  | false =>
      rw [if_neg Bool.false_ne_true]
      simp only
      split_ifs with chunks
      · have marked := written.announce csock (.insert _ .newChunks (some csock) state.irob
          state.returned) nofun fun _ => .inl ⟨some csock, tasks_insert _ _ _⟩
        have idle := release marked held rfl fun absent => Bool.noConfusion absent
        exact ⟨_, idle.going returned⟩
      · have empty : irob.allBytesChunked = true := by
          have none : irob.chunks = [] := by
            rw [Bool.or_eq_true, decide_eq_true_eq, not_or, Nat.pos_iff_ne_zero, not_not] at chunks
            exact List.eq_nil_of_length_eq_zero chunks.2
          have length := kept.plain.chunked.expectedBytes_eq
          rw [expectedBytes, none] at length
          apply kept.plain.chunked.allBytesChunked_iff.mpr
          apply kept.plain.chunked.within.eq_of_length_le
          rw [← length]
          exact Nat.zero_le _
        have marked := written.announce csock (.store .newIrobs _ state.irob state.returned) nofun
          fun left => Bool.noConfusion (empty.symm.trans left)
        have idle := release marked held rfl fun absent => Bool.noConfusion absent
        exact ⟨_, idle.going returned⟩

/-- A thread cuts off the next chunk, or finds that there is nothing to send. -/
theorem buildChunk {chunksize : Nat} {shared : Bool} (going : Going irob state)
    {place : Place} (held : state.hands csock = .chunk place)
    (built : state.buildChunk irob csock chunksize shared = some after) :
    ∃ sent, Going sent after := by
  obtain ⟨present, returned, data, blocks, kept⟩ := going
  have announced := kept.hands csock
  rw [held] at announced
  obtain ⟨⟨sent, transmission⟩, got, onward⟩ := Option.bind_eq_some_iff.mp built
  simp only at onward
  by_cases empty : transmission.bytes.isEmpty = true
  · rw [if_pos empty] at onward
    cases onward
    rcases kept.plain.getReadyBytes got with ⟨-, rfl, all⟩ | ⟨nonempty, -⟩
    · have idle : Kept data blocks sent (state.setHand csock .idle) := by
        apply kept.setHand held (Fits.idle _)
        · exact fun _ left => Bool.noConfusion (all.symm.trans left)
        · exact fun absent => Bool.noConfusion absent
        · exact fun message absent => absurd absent List.not_mem_nil
      exact ⟨sent, idle.going returned⟩
    · exact absurd (List.isEmpty_iff.mp empty) nonempty
  · rw [if_neg empty] at onward
    rcases kept.plain.getReadyBytes got with ⟨none, -, -⟩ | ⟨-, plain, same, seqno, offset⟩
    · exact absurd (List.isEmpty_iff.mpr none) empty
    · have grows : ∀ {next : Sending}, Kept data blocks irob next → next.hands = state.hands →
          (shared = true → ∃ place, next.tasks .newChunks place = true) →
          Kept data (blocks ++ [transmission.bytes]) sent
            (next.setHand csock (.chunkWrite (sent.chunkMessage transmission) shared)) := by
        intro next kept hands others
        have marked : sent.own.announcements none = true := by
          rw [same.announcements]
          exact announced
        refine kept.grow plain same marked ?_ (fun _ => rfl) ?_ fun _ _ => ?_
        · rw [hands, held]
          rfl
        · rw [chunkOf_last seqno offset]
          exact List.mem_cons_self
        · cases shared with
          | true => exact .inr (others rfl)
          | false => exact .inl rfl
      have complete : state.returned = true → sent.complete = true := fun done =>
        same.complete.trans (returned done)
      cases shared with
      | true =>
          cases onward
          have scheduled := kept.schedule (.insert state .newChunks none state.irob state.returned)
            (fun _ => announced) fun absent => IndexType.noConfusion absent
          have written := grows scheduled rfl fun _ => ⟨none, tasks_insert _ _ _⟩
          exact ⟨sent, written.going complete⟩
      | false =>
          cases onward
          have written := grows kept rfl fun absent => Bool.noConfusion absent
          exact ⟨sent, written.going complete⟩

/-- A task for chunks goes to a csocket or becomes a thunk, or the message is built. -/
theorem chunk {place : Place} {chunksize : Nat} {shared : Bool} {assignment : Assignment}
    (going : Going irob state) (held : state.hands csock = .chunk place)
    (moved : state.chunk irob csock place chunksize shared assignment = some after) :
    ∃ sent, Going sent after := by
  obtain ⟨present, returned, data, blocks, kept⟩ := id going
  have announced := kept.hands csock
  rw [held] at announced
  have scheduled : ∀ place, Kept data blocks irob (state.insert .newChunks place) := fun place =>
    kept.schedule (.insert state .newChunks place state.irob state.returned) (fun _ => announced)
      nofun
  -- the thread lets go of a task that is somewhere else now
  have release : ∀ {next : Sending}, Kept data blocks irob next →
      next.hands csock = .chunk place →
      ((∃ place, next.tasks .newChunks place = true) ∨ 0 < next.parked true) →
      Kept data blocks irob (next.setHand csock .idle) := by
    intro next kept held elsewhere
    apply kept.setHand held (Fits.idle _)
    · exact fun _ _ => .inr elsewhere
    · exact fun absent => Bool.noConfusion absent
    · exact fun message absent => absurd absent List.not_mem_nil
  have passes : ∀ place, Going irob ((state.insert .newChunks place).setHand csock .idle) := by
    intro place
    exact ⟨present, returned, data, blocks,
      release (scheduled place) held (.inl ⟨place, tasks_insert _ _ _⟩)⟩
  cases assignment with
  | notOkayToSendBg =>
      cases moved
      exact ⟨irob, passes place⟩
  | passed other alsoHere =>
      unfold Sending.chunk at moved
      simp only at moved
      split_ifs at moved
      · have passed : Going irob (state.insert .newChunks (some other)) :=
          ⟨present, returned, data, blocks, scheduled (some other)⟩
        exact passed.buildChunk held moved
      · cases moved
        exact ⟨irob, passes (some other)⟩
  | parked =>
      unfold Sending.chunk at moved
      split_ifs at moved with complete
      cases moved
      have parked : Kept data blocks irob (state.park true) :=
        kept.park (fun _ => announced) (Bool.eq_false_of_not_eq_true complete)
      exact ⟨irob, present, returned, data, blocks,
        release parked held (.inr (Nat.succ_pos _))⟩
  | here others =>
      simp only [Sending.chunk, tellOthers, kept.plain.single, Bool.false_eq_true,
        ↓reduceIte] at moved
      exact going.buildChunk held moved

/-- A chunk has been written. -/
theorem chunkSent {message : Message} {before shared : Bool} (going : Going irob state)
    (held : state.hands csock = .chunkWrite message before)
    (careful : shared = false ∨ before = true ∨ irob.allBytesChunked = true) :
    Going irob (state.chunkSent irob csock message shared) := by
  obtain ⟨present, returned, data, blocks, kept⟩ := going
  have announced := kept.hands csock
  rw [held] at announced
  have written := kept.write [message]
  have release : ∀ {next : Sending}, Kept data blocks irob next →
      next.hands csock = .chunkWrite message before →
      next.written = state.written ++ [message] →
      (shared = false → ∃ place, next.tasks .newChunks place = true) →
      (irob.ends = true → HasEnd irob next.written ∨
        ∃ place, next.tasks .finishedIrobs place = true) →
      Kept data blocks irob (next.setHand csock .idle) := by
    intro next kept held writes chunks ends
    apply kept.setHand held (Fits.idle _)
    · intro alone left
      rcases careful with unshared | sharing | all
      · exact .inr (.inl (chunks unshared))
      · rw [sharing] at alone
        exact Bool.noConfusion alone
      · exact Bool.noConfusion (all.symm.trans left)
    · exact fun _ ended => .inr (ends ended)
    · rw [writes]
      exact fun other => List.mem_append_right _
  -- a task for the chunks that are left is scheduled now, or was before the write
  have finishes : ∀ {next : Sending}, Kept data blocks irob next →
      next.hands csock = .chunkWrite message before →
      next.written = state.written ++ [message] →
      (irob.ends = true → HasEnd irob next.written ∨
        ∃ place, next.tasks .finishedIrobs place = true) →
      Kept data blocks irob (if shared = true then next.setHand csock .idle
        else (next.setHand csock .idle).insert .newChunks (some csock)) := by
    intro next kept held writes ends
    split_ifs with sharing
    · exact release kept held writes (fun absent => Bool.noConfusion (sharing.symm.trans absent)) ends
    · have scheduled := kept.schedule (.insert next .newChunks (some csock) next.irob next.returned)
        (fun _ => announced) nofun
      exact release scheduled held writes (fun _ => ⟨_, tasks_insert _ _ _⟩) ends
  have same : (state.chunkSent irob csock message shared).irob = some irob := by
    unfold Sending.chunkSent
    simp only
    split_ifs <;> exact present
  have still : (state.chunkSent irob csock message shared).returned = state.returned := by
    unfold Sending.chunkSent
    simp only
    split_ifs <;> rfl
  refine ⟨same, fun done => returned (still ▸ done), data, blocks, ?_⟩
  unfold Sending.chunkSent
  simp only [kept.plain.endWasAnnounced]
  by_cases due : (irob.complete && irob.allBytesChunked &&
      !irob.own.endAnnouncements none) = true
  · rw [if_pos due]
    have ends : irob.ends = true := (Bool.and_eq_true_iff.mp due).1
    have scheduled := written.schedule (.insert _ .finishedIrobs (some csock) state.irob
      state.returned) nofun fun _ => ends
    exact finishes scheduled held rfl fun _ => .inr ⟨some csock, tasks_insert _ _ _⟩
  · rw [if_neg due]
    refine finishes written held rfl fun ends => .inl ?_
    have marked : irob.own.endAnnouncements none = true := by
      rw [show (irob.complete && irob.allBytesChunked) = true from ends, Bool.true_and,
        Bool.not_eq_true', Bool.not_eq_false] at due
      exact due
    exact (written.ended marked).2

/-- A task is taken. -/
theorem take {type : IndexType} {place : Place} {taken : Sending} {hand : Hand}
    (going : Going irob state) (took : state.take type place = some taken)
    (idle : state.hands csock = .idle) (fits : Fits irob hand)
    (chunks : type = .newChunks → hand.chunks = true)
    (ends : type = .finishedIrobs → hand.ends = true) : Going irob (taken.setHand csock hand) := by
  obtain ⟨present, returned, data, blocks, kept⟩ := going
  have kept := kept.take took idle fits chunks ends
  unfold Sending.take at took
  split_ifs at took
  cases took
  exact ⟨present, returned, data, blocks, kept⟩

/-- A thunk fires. -/
theorem resume {chunksReady : Bool} {place : Place} (going : Going irob state)
    (resumed : state.resume chunksReady place = some after) : Going irob after := by
  obtain ⟨present, returned, data, blocks, kept⟩ := going
  have kept := kept.resume resumed
  unfold Sending.resume at resumed
  split at resumed
  · cases resumed
  · cases resumed
    exact ⟨present, returned, data, blocks, kept⟩

/-- The `End_IROB` has been written. -/
theorem endSent {message : Message} (going : Going irob state)
    (held : state.hands csock = .endWrite message) :
    Going irob ({ state with written := state.written ++ [message] }.setHand csock .idle) := by
  obtain ⟨present, returned, data, blocks, kept⟩ := going
  have fits := kept.hands csock
  rw [held] at fits
  obtain ⟨ends, chunks, member⟩ := fits
  have has : HasEnd irob (state.written ++ [message]) := ⟨chunks, List.mem_append_right _ member⟩
  refine ⟨present, returned, data, blocks, (kept.write [message]).setHand held (Fits.idle _) ?_ ?_ ?_⟩
  · exact fun absent => Bool.noConfusion absent
  · exact fun _ _ => .inr (.inl has)
  · exact fun other => List.mem_append_right _

/-- A thread builds a data check. It cuts off the next chunk if there is one, and an IROB that
has ended comes with its `End_IROB`. -/
theorem buildDataCheck (going : Going irob state) (held : state.hands csock = .dataCheck)
    (built : state.buildDataCheck irob csock = some after) : ∃ sent, Going sent after := by
  obtain ⟨present, returned, data, blocks, kept⟩ := going
  have free : (state.hands csock).free = true := by
    rw [held]
    rfl
  obtain ⟨sent, transmission, chunks, got, along, rfl⟩ := buildDataCheck_cases built
  rcases kept.plain.getReadyBytes got with ⟨-, rfl, -⟩ | ⟨nonempty, plain, same, seqno, offset⟩
  · exact ⟨sent, (kept.setHand_of_free free (fits_dataCheckWrite sent chunks)).going returned⟩
  · have grown := kept.grow plain same (fits_dataCheckWrite sent chunks)
      (Hand.messages_of_free free) (ends_dataCheckWrite sent chunks)
    refine ⟨sent, (grown ?_ fun absent => ?_).going fun done => same.complete.trans (returned done)⟩
    · rw [chunkOf_last seqno offset, along nonempty]
      exact List.mem_cons_of_mem _ List.mem_cons_self
    · exact Bool.noConfusion (absent.symm.trans (Hand.chunks_of_free free))

/-- A data check goes to a csocket or becomes a thunk, or the message is built. -/
theorem dataCheck {assignment : Assignment} (going : Going irob state)
    (held : state.hands csock = .dataCheck)
    (moved : state.dataCheck irob csock assignment = some after) : ∃ sent, Going sent after := by
  have free : (state.hands csock).free = true := by
    rw [held]
    rfl
  obtain ⟨data, blocks, kept⟩ := going.kept
  cases assignment with
  | notOkayToSendBg => cases moved
  | passed other alsoHere =>
      simp only [Sending.dataCheck, kept.plain.single, Bool.and_false, Bool.false_eq_true,
        ↓reduceIte, Option.some.injEq] at moved
      cases moved
      exact ⟨irob, going.passes free (some other) nofun nofun⟩
  | parked =>
      unfold Sending.dataCheck at moved
      split_ifs at moved with complete
      cases moved
      exact ⟨irob, going.parks free (Bool.eq_false_of_not_eq_true complete)⟩
  | here others => exact going.buildDataCheck held moved

/-- A data check is scheduled. -/
theorem dataCheckAllIrobs (going : Going irob state) :
    Going irob (state.insert .waitingDataChecks none) := by
  obtain ⟨present, returned, data, blocks, kept⟩ := going
  exact ⟨present, returned, data, blocks,
    kept.schedule (.insert state .waitingDataChecks none state.irob state.returned) nofun nofun⟩

/-- A data check has been written. -/
theorem dataCheckSent {messages : List Message} (going : Going irob state)
    (held : state.hands csock = .dataCheckWrite messages) :
    Going irob ({ state with written := state.written ++ messages }.setHand csock .idle) := by
  obtain ⟨present, returned, data, blocks, kept⟩ := going
  have fits := kept.hands csock
  rw [held] at fits
  refine ⟨present, returned, data, blocks,
    (kept.write messages).setHand held (Fits.idle _) ?_ ?_ ?_⟩
  · exact fun absent => Bool.noConfusion absent
  · intro some _
    obtain ⟨-, chunks, member⟩ := fits some
    exact .inr (.inl ⟨chunks, List.mem_append_right _ member⟩)
  · exact fun other => List.mem_append_right _

end Going

/-- Nothing happens before the IROB begins. -/
theorem Sound.first {after : Sending} {event : SendingEvent} (careful : initial.Careful event)
    (moved : initial.step event = some after) : after.Sound := by
  cases step_move moved with
  | @beginIrob id deps sendLabels place =>
      exact .inr ⟨_, .begins id deps [] sendLabels place fun absent => Bool.noConfusion absent⟩
  | @send id data sendLabels place =>
      exact .inr ⟨_, .begins id [] data sendLabels place fun _ => careful⟩
  | takeIrob _ took => cases took
  | takeChunk _ took => cases took
  | resume resumed => cases resumed
  | takeDataCheck _ took => cases took
  | endSent held | dataCheckSent held => cases held
  | dataCheckAllIrobs present | dataCheck _ present
  | irobSend present | endIrob present | begin _ present | begun _ present | chunk _ present
  | chunkSent _ present | takeFinished _ present | redundant present => cases present

/-- A careful step loses no work. -/
theorem Sound.step {state after : Sending} {event : SendingEvent} (sound : state.Sound)
    (careful : state.Careful event) (moved : state.step event = some after) : after.Sound := by
  rcases sound with rfl | ⟨irob, going⟩
  · exact .first careful moved
  have same : ∀ {other}, state.irob = some other → other = irob := fun present =>
    Option.some.inj (present.symm.trans going.present)
  cases step_move moved with
  | beginIrob absent => cases absent.symm.trans going.present
  | send absent => cases absent.symm.trans going.present
  | irobSend present =>
      cases same present
      exact .inr (going.irobSend _ _)
  | endIrob present =>
      cases same present
      exact .inr (going.endIrob _ careful)
  | takeIrob idle took => exact .inr ⟨irob, going.take took idle trivial nofun nofun⟩
  | begin held present begun =>
      cases same present
      exact .inr (going.begin held begun)
  | begun held present =>
      cases same present
      exact .inr (going.begun held)
  | @takeChunk _ place _ idle took =>
      obtain ⟨data, blocks, kept⟩ := going.kept
      have announced : Fits irob (.chunk place) := kept.newChunks place (tasks_of_take took)
      exact .inr ⟨irob, going.take took idle announced (fun _ => rfl) nofun⟩
  | chunk held present chunked =>
      cases same present
      exact .inr (going.chunk held chunked)
  | @chunkSent _ csock message _ shared held present =>
      cases same present
      have careful : shared = false ∨ (state.hands csock).shared = true ∨
        state.irob.all allBytesChunked = true := careful
      rw [held, present] at careful
      exact .inr ⟨_, going.chunkSent held careful⟩
  | @takeFinished _ _ place _ idle present took =>
      cases same present
      obtain ⟨data, blocks, kept⟩ := going.kept
      have fits : Fits irob (.endWrite irob.endMessage) :=
        ⟨kept.finished place (tasks_of_take took), irob.numSenderChunks, List.mem_cons_self⟩
      exact .inr ⟨irob, going.take took idle fits nofun fun _ => rfl⟩
  | endSent held => exact .inr ⟨irob, going.endSent held⟩
  | resume resumed => exact .inr ⟨irob, going.resume resumed⟩
  | redundant present => exact careful.elim
  | dataCheckAllIrobs present => exact .inr ⟨irob, going.dataCheckAllIrobs⟩
  | takeDataCheck idle took => exact .inr ⟨irob, going.take took idle trivial nofun nofun⟩
  | dataCheck held present checked =>
      cases same present
      exact .inr (going.dataCheck held checked)
  | dataCheckSent held => exact .inr ⟨irob, going.dataCheckSent held⟩

/-- No task for the IROB is left, and no thread is at work on it. -/
structure Quiet (state : Sending) : Prop where
  tasks : ∀ type ∈ [IndexType.newIrobs, .newChunks, .finishedIrobs, .waitingDataChecks],
    ∀ place, state.tasks type place = false
  hands : ∀ csock, state.hands csock = .idle

/-- All bytes of an IROB have been written in chunks, and an `End_IROB` with its total. -/
def AllWritten (irob : SenderIrob) (written : List Message) : Prop :=
  (∃ blocks : List (List Byte), blocks.flatten = irob.appData ∧
    ∀ seqno block, blocks[seqno]? = some block → chunkOf irob blocks seqno block ∈ written) ∧
  HasEnd irob written

/-- Progress: in every careful run, an IROB that the application has finished and of which
the `Begin_IROB` was announced has been written in full as soon as no task for it is left. -/
theorem finished_written {state : Sending} {irob : SenderIrob}
    (reached : (machine.restrict Careful).Reachable state) (present : state.irob = some irob)
    (returned : state.returned = true) (announced : ∃ key, irob.own.announcements key = true)
    (quiet : state.Quiet) : AllWritten irob state.written := by
  have sound : state.Sound := by
    apply reached.induct
    · exact fun first begins => .inl begins
    · exact fun before after event _ sound permitted moved => sound.step permitted.2 moved
  rcases sound with rfl | ⟨same, going⟩
  · cases present
  cases going.present.symm.trans present
  obtain ⟨data, blocks, kept⟩ := going.kept
  have complete := going.returned returned
  have marked : irob.own.announcements none = true := by
    obtain ⟨key, marked⟩ := announced
    cases key with
    | none => exact marked
    | some csock => exact Bool.noConfusion (marked.symm.trans (kept.plain.announcements csock))
  -- no one is there to chunk bytes or to see to the end
  have all : irob.allBytesChunked = true := by
    by_contra left
    rcases kept.chunking marked (Bool.eq_false_of_not_eq_true left) with
      ⟨place, task⟩ | ⟨csock, held⟩ | waiting
    · exact Bool.noConfusion (task.symm.trans (quiet.tasks .newChunks (by decide) place))
    · rw [quiet.hands csock] at held
      exact Bool.noConfusion held
    · exact left ((kept.parked waiting).2 complete)
  refine ⟨⟨blocks, ?_, fun seqno block listed => ?_⟩, ?_⟩
  · rw [kept.plain.chunked.allBytesChunked_iff.mp all, kept.plain.chunked.appData_eq]
  · rcases kept.sent seqno block listed with written | ⟨csock, held⟩
    · exact written
    · rw [quiet.hands csock] at held
      exact absurd held List.not_mem_nil
  · rcases kept.ending (Bool.and_eq_true_iff.mpr ⟨complete, all⟩) with
      written | ⟨place, task⟩ | ⟨csock, held⟩
    · exact written
    · exact Bool.noConfusion (task.symm.trans (quiet.tasks .finishedIrobs (by decide) place))
    · rw [quiet.hands csock] at held
      exact Bool.noConfusion held

/-- The application ends an IROB of three bytes while its `Begin_IROB` is being written, and
one thread writes it in two chunks. -/
def wholeRun : List SendingEvent :=
  [.beginIrob 7 [] 0 (some 0), .irobSend [1, 2, 3] 0 true, .takeIrob 0 (some 0), .begin 0 (.here []),
    .endIrob 0 true, .begun 0, .takeChunk 0 (some 0), .chunk 0 (.here []) 2 false, .chunkSent 0 false,
    .takeChunk 0 (some 0), .chunk 0 (.here []) 2 false, .chunkSent 0 false, .takeChunk 0 (some 0),
    .chunk 0 (.here []) 2 false, .takeFinished 0 (some 0), .endSent 0]

/-- In a run with two csockets only they are at work. -/
theorem Quiet.of_two {state : Sending} (shared : ∀ type, state.tasks type none = false)
    (first : ∀ type, state.tasks type (some 0) = false)
    (second : ∀ type, state.tasks type (some 1) = false)
    (others : ∀ type csock, state.tasks type (some (csock + 2)) = false)
    (hand : state.hands 0 = .idle) (other : state.hands 1 = .idle)
    (hands : ∀ csock, state.hands (csock + 2) = .idle) : state.Quiet := by
  constructor
  · intro type _ place
    match place with
    | none => exact shared type
    | some 0 => exact first type
    | some 1 => exact second type
    | some (csock + 2) => exact others type csock
  · intro csock
    match csock with
    | 0 => exact hand
    | 1 => exact other
    | csock + 2 => exact hands csock

theorem finished_written_whole : ∃ state irob, (machine.restrict Careful).Reachable state ∧
    state.irob = some irob ∧ irob.appData = [1, 2, 3] ∧ AllWritten irob state.written := by
  have ran : ∃ state irob, (machine.restrict Careful).run initial wholeRun = some state ∧
      state.irob = some irob ∧ state.returned = true ∧ irob.own.announcements none = true ∧
      irob.appData = [1, 2, 3] ∧ state.Quiet := by
    refine ⟨_, _, rfl, rfl, rfl, rfl, rfl, .of_two ?_ ?_ ?_ ?_ rfl rfl fun _ => rfl⟩ <;>
      intro type <;> cases type <;> first | rfl | exact fun _ => rfl
  obtain ⟨state, irob, ran, present, returned, announced, bytes, quiet⟩ := ran
  have start : (machine.restrict Careful).initial initial := rfl
  have reached := Machine.Reachable.run (.initial start) ran
  exact ⟨state, irob, reached, present, bytes,
    finished_written reached present returned ⟨none, announced⟩ quiet⟩

/-- A run after which an IROB is finished, announced and without a task, but has not been
written. -/
def Stuck (events : List SendingEvent) : Prop :=
  ∃ state irob, machine.run initial events = some state ∧ state.irob = some irob ∧
    state.returned = true ∧ irob.own.announcements none = true ∧ state.Quiet ∧
    ¬AllWritten irob state.written

/-- The IROB is announced by the first thread. -/
def announcing : List SendingEvent := [.takeIrob 0 (some 0), .begin 0 (.here []), .begun 0]

/-- An IROB without bytes is ended before it is announced. -/
def emptyEnded : List SendingEvent :=
  [.beginIrob 7 [] 0 (some 0), .endIrob 0 true] ++ announcing

/-- `mc_send` of nothing: the IROB is never complete. -/
def emptySent : List SendingEvent := [.send 7 [] 0 (some 0)] ++ announcing

/-- The first thread writes the `Begin_IROB` while its network goes down. The second one sends a
data check with the only byte, and then the IROB is ended. -/
def checkedThenEnded : List SendingEvent :=
  [.beginIrob 7 [] 0 (some 0), .takeIrob 0 (some 0), .begin 0 (.here []), .irobSend [1] 0 true,
    .dataCheckAllIrobs, .takeDataCheck 1 none, .dataCheck 1 (.here []), .dataCheckSent 1,
    .endIrob 1 true, .begun 0, .takeChunk 0 (some 0), .chunk 0 (.here []) 9 false]

/-- An IROB is ended while the task for its byte waits in a thunk. -/
def endedInThunk : List SendingEvent :=
  [.beginIrob 7 [] 0 (some 0)] ++ announcing ++
    [.irobSend [1] 0 true, .takeChunk 0 (some 0), .chunk 0 .parked 9 false, .endIrob 0 true]

/-- A second csocket turns up while the first chunk of a background IROB is being written: the
thread takes its chunks to be shared, but has not scheduled a task for them. -/
def sharedTooLate : List SendingEvent :=
  [.beginIrob 7 [] labelBackground (some 0)] ++ announcing ++
    [.irobSend [1, 2] 0 true, .endIrob 0 true, .takeChunk 0 (some 0), .chunk 0 (.here []) 1 false,
      .chunkSent 0 true]

/-- `mc_end_irob` marks an IROB to be sent on all networks, on none of which it was announced
as such. -/
def markedAtEnd : List SendingEvent :=
  [.beginIrob 7 [] 0 (some 0)] ++ announcing ++
    [.irobSend [1] 0 true, .takeChunk 0 (some 0), .chunk 0 (.here []) 9 false, .chunkSent 0 false,
      .takeChunk 0 (some 0), .chunk 0 (.here []) 9 false, .redundant true [], .endIrob 0 true]

/-- Every way of losing an IROB is real. -/
theorem progress_lost : Stuck emptyEnded ∧ Stuck emptySent ∧ Stuck checkedThenEnded ∧
    Stuck endedInThunk ∧ Stuck sharedTooLate ∧ Stuck markedAtEnd := by
  have unended : ∀ {irob : SenderIrob} {written : List Message},
      written.any Message.isEnd = false → ¬AllWritten irob written := by
    rintro irob written none ⟨-, chunks, member⟩
    exact Bool.noConfusion (none.symm.trans (List.any_eq_true.mpr ⟨_, member, rfl⟩))
  refine ⟨?_, ?_, ?_, ?_, ?_, ?_⟩ <;>
    refine ⟨_, _, rfl, rfl, rfl, rfl, .of_two ?_ ?_ ?_ ?_ rfl rfl (fun _ => rfl),
      unended rfl⟩ <;>
    intro type <;> cases type <;> first | rfl | exact fun _ => rfl

end Sending

end Libcmm
