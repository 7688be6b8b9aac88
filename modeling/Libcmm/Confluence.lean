import Libcmm.Arrivals
import Libcmm.Release

/-! # Confluence of the messages of one IROB

The messages of an IROB arrive in any order and any number of times, before or after its
`Begin_IROB` replaced the placeholder that kept what came first. As long as nothing of it has
been read, what the IROB looks like depends only on which messages have been handled: each
leaves its mark (`Shows`), later ones keep it, and when all marks are there the buffer is the
tiling of the content and the links are those of the `Begin_IROB`.
-/

namespace Libcmm

open Lib

namespace IrobContent

/-- The messages of an IROB that has ended, once each and in order. -/
def messages (content : IrobContent) (id : IrobId) : List Message :=
  .beginIrob id content.deps content.sendLabels ::
    ((content.chunks id).map fun chunk =>
      .irobChunk id chunk.seqno chunk.offset chunk.bytes) ++
    [.endIrob id content.bytes.length content.blocks.length]

theorem mem_messages {content : IrobContent} {id : IrobId} {message : Message} :
    message ∈ content.messages id ↔
      message = .beginIrob id content.deps content.sendLabels ∨
      (∃ seqno block, content.blocks[seqno]? = some block ∧
        message = .irobChunk id seqno (content.blocks.take seqno).flatten.length block) ∨
      message = .endIrob id content.bytes.length content.blocks.length := by
  have listed : (∃ chunk ∈ content.chunks id,
      .irobChunk id chunk.seqno chunk.offset chunk.bytes = message) ↔
      ∃ seqno block, content.blocks[seqno]? = some block ∧
        message = .irobChunk id seqno (content.blocks.take seqno).flatten.length block := by
    constructor
    · rintro ⟨chunk, member, rfl⟩
      obtain ⟨index, found⟩ := List.mem_iff_getElem?.mp member
      rw [chunks, getElem?_tile] at found
      obtain ⟨block, inside, rfl⟩ := Option.map_eq_some_iff.mp found
      exact ⟨index, block, inside, by simp only [Nat.zero_add]; rfl⟩
    · rintro ⟨seqno, block, inside, rfl⟩
      refine ⟨⟨id, 0 + seqno, 0 + (content.blocks.take seqno).flatten.length, block.length,
        some block⟩, ?_, ?_⟩
      · apply List.mem_iff_getElem?.mpr
        refine ⟨seqno, ?_⟩
        rw [chunks, getElem?_tile, inside]
        rfl
      · simp only [Nat.zero_add]
        rfl
  unfold messages
  rw [List.mem_append, List.mem_cons, List.mem_map, List.mem_singleton, listed, or_assoc]

/-- The messages of a content are about its IROB and conform to it. -/
theorem conforms_of_mem {contents : Contents} {id : IrobId} (final : (contents id).final = true)
    {message : Message} (member : message ∈ (contents id).messages id) :
    message.id = id ∧ contents.Conforms message := by
  rcases mem_messages.mp member with rfl | ⟨seqno, block, listed, rfl⟩ | rfl
  · exact ⟨rfl, rfl, rfl⟩
  · exact ⟨rfl, listed, rfl⟩
  · exact ⟨rfl, final, rfl, rfl⟩

end IrobContent

namespace ReceiverIrob

/-- What a handled message leaves in its IROB. -/
def Shows (irob : ReceiverIrob) : Message → Prop
  | .beginIrob _ _ _ => irob.placeholder = false
  | .irobChunk _ seqno _ _ => (Assembly.held irob.slots seqno).isSome = true
  | .endIrob _ _ _ => irob.complete = true

/-- An IROB, found as `start`, after some messages. -/
structure Marked (past : IntSet) (content : IrobContent) (start : ReceiverIrob)
    (handled : List Message) (irob : ReceiverIrob) : Prop where
  id : irob.id = start.id
  shows : ∀ message ∈ handled, irob.Shows message
  unbegun : irob.placeholder = true → irob.dependents = start.dependents
  begun : irob.placeholder = false → PendingIrob.SameLinks irob (linked past
    { mkBegun start.id content.deps content.sendLabels with
      dependents := (mkBegun start.id content.deps content.sendLabels).dependents.insertAll
        start.dependents.toList })

/-- What has arrived of two IROBs and their links agree. -/
structure Agree (first second : ReceiverIrob) : Prop where
  chunks : first.chunks = second.chunks
  numBytes : first.own.numBytes = second.own.numBytes
  recvdBytes : first.own.recvdBytes = second.own.recvdBytes
  recvdChunks : first.own.recvdChunks = second.own.recvdChunks
  expectedBytes : first.own.expectedBytes = second.own.expectedBytes
  expectedChunks : first.own.expectedChunks = second.own.expectedChunks
  complete : first.complete = second.complete
  deps : first.deps = second.deps
  dependents : first.dependents = second.dependents
  isComplete : first.isComplete = second.isComplete

variable {past : IntSet} {content : IrobContent} {start irob next : ReceiverIrob}
  {handled : List Message} {message : Message}

/-- What `insert_locked` makes of the links depends on the links. -/
theorem linked_sameLinks (past : IntSet) {first second : ReceiverIrob}
    (same : PendingIrob.SameLinks first second) :
    PendingIrob.SameLinks (linked past first) (linked past second) := by
  have deps : (first.removeDepsIf past.contains).deps = (second.removeDepsIf past.contains).deps :=
    congrArg (fun deps : OrderedSet IrobId => deps.filter fun id => !past.contains id) same.deps
  unfold linked
  simp only [same.id, deps]
  split_ifs
  · refine ⟨same.id, same.sendLabels, deps, ?_, same.anonymous, same.placeholder⟩
    exact congrArg (OrderedSet.insert · second.id) same.dependents
  · exact ⟨same.id, same.sendLabels, deps, same.dependents, same.anonymous, same.placeholder⟩

/-- `finish` returns with the IROB closed. -/
theorem complete_of_finish {expectedBytes numChunks : Int} {fresh : Bool}
    (finished : irob.finish expectedBytes numChunks = some (next, fresh)) :
    next.complete = true := by
  unfold ReceiverIrob.finish at finished
  cases whole : irob.isComplete with
  | none =>
      rw [whole] at finished
      cases finished
  | some done =>
      rw [whole] at finished
      cases done with
      | true =>
          cases finished
          unfold isComplete at whole
          split_ifs at whole
          exact (Bool.and_eq_true_iff.mp (Option.some.inj whole)).2
      | false =>
          simp only at finished
          split_ifs at finished
          · cases finished
            rfl
          · cases finished
            rfl

/-- Everything received is under its sequence number. -/
theorem Receiving.placed (receiving : Receiving content irob) {seqno : Nat} {chunk : IrobChunk}
    (stored : Assembly.held irob.slots seqno = some chunk) : chunk.seqno = seqno := by
  have listed := receiving.fits.held_eq stored
  rw [IrobContent.chunks, getElem?_tile] at listed
  obtain ⟨block, -, rfl⟩ := Option.map_eq_some_iff.mp listed
  exact Nat.zero_add seqno

/-- A `Begin_IROB` keeps what its placeholder has received. -/
theorem Receiving.of_merging {id : IrobId} {deps : List IrobId} {sendLabels : Nat}
    {merged : ReceiverIrob} (receiving : Receiving content irob)
    (merging : (mkBegun id deps sendLabels).subsume irob = some merged) :
    merged.chunks = irob.chunks ∧ merged.complete = irob.complete := by
  obtain ⟨filled, filling, -, chunks, complete, -⟩ :=
    @subsume_begun irob id deps sendLabels receiving.holes receiving.last
      fun _ _ => receiving.placed
  cases filling.symm.trans merging
  exact ⟨chunks, complete⟩

/-- A chunk of the content that was added is held. -/
theorem Receiving.shows_chunk (receiving : Receiving content irob) {chunk : IrobChunk}
    {fresh : Bool} (listed : (content.chunks irob.id)[chunk.seqno]? = some chunk)
    (added : irob.addChunk chunk = some (next, fresh)) :
    (Assembly.held next.slots chunk.seqno).isSome = true := by
  obtain ⟨block, -, data, -⟩ := data_of_mem_tile (List.mem_of_getElem? listed)
  have present : chunk.data.isSome = true := by
    rw [data]
    rfl
  obtain ⟨whole, complete, exactly⟩ := receiving.isComplete_eq
  cases whole with
  | false =>
      obtain ⟨after, adding, -⟩ := receiving.addChunk complete chunk listed
      cases adding.symm.trans added
      exact held_addChunk present adding
  | true =>
      have same : next = irob := by
        rcases addChunk_cases added with same | ⟨-, incomplete, -⟩
        · exact same
        · cases complete.symm.trans incomplete
      rw [same, held_slots, (exactly.mp rfl).2, List.getD_eq_getElem?_getD, listed,
        Option.getD_some, IrobChunk.slot_of_data present]
      rfl

/-- When every chunk is held and the end is here, the IROB is complete. -/
theorem Receiving.isComplete_of_shows (receiving : Receiving content irob)
    (complete : irob.complete = true)
    (all : ∀ seqno < content.blocks.length, (Assembly.held irob.slots seqno).isSome = true) :
    irob.isComplete = some true := by
  obtain ⟨whole, isWhole, exactly⟩ := receiving.isComplete_eq
  rw [isWhole, exactly.mpr ⟨complete, ?_⟩]
  have full : irob.slots = (content.chunks irob.id).map some := by
    apply receiving.fits.eq_map_some_of_held
    rwa [IrobContent.chunks, length_tile]
  refine chunks_eq_of_slots receiving.holes (fun chunk member null => ?_) ?_
  · obtain ⟨block, -, data, -⟩ := data_of_mem_tile member
    cases null.symm.trans data
  · refine full.trans (List.map_congr_left fun chunk member => ?_)
    obtain ⟨block, -, data, -⟩ := data_of_mem_tile member
    exact (IrobChunk.slot_of_data (by rw [data]; rfl)).symm

namespace Shows

variable {other : Message}

/-- An IROB shows what one with the same chunks showed, unless it lost its `Begin_IROB` or end. -/
theorem of_chunks (shown : irob.Shows other) (chunks : next.chunks = irob.chunks)
    (real : irob.placeholder = false → next.placeholder = false)
    (closed : irob.complete = true → next.complete = true) : next.Shows other := by
  cases other with
  | beginIrob _ _ _ => exact real shown
  | irobChunk _ seqno _ _ =>
      unfold Shows slots at shown ⊢
      rw [chunks]
      exact shown
  | endIrob _ _ _ => exact closed shown

/-- A further chunk removes no mark. -/
theorem addChunk (shown : irob.Shows other) {chunk : IrobChunk} {fresh : Bool}
    (present : chunk.data.isSome = true) (added : irob.addChunk chunk = some (next, fresh)) :
    next.Shows other := by
  cases other with
  | beginIrob _ _ _ => exact (addChunk_kept added).links.placeholder.trans shown
  | irobChunk _ _ _ _ => exact held_addChunk_of_held present added shown
  | endIrob _ _ _ =>
      rcases addChunk_cases added with same | ⟨-, -, -, shape⟩
      · rw [show next = irob from same]
        exact shown
      · rw [show next = _ from shape]
        exact shown

/-- The end removes no mark. -/
theorem finish (shown : irob.Shows other) {expectedBytes numChunks : Int} {fresh : Bool}
    (finished : irob.finish expectedBytes numChunks = some (next, fresh)) : next.Shows other := by
  have chunks : next.chunks = irob.chunks := by
    rcases finish_cases finished with same | ⟨-, own, -, shape⟩
    · rw [show next = irob from same]
    · rw [show next = _ from shape]
  exact shown.of_chunks chunks (finish_kept finished).links.placeholder.trans
    fun _ => complete_of_finish finished

end Shows

namespace Marked

/-- Before the `Begin_IROB`, an IROB is as it was found. -/
theorem initial (past : IntSet) (content : IrobContent) (holder : start.placeholder = true) :
    Marked past content start [] start := by
  refine ⟨rfl, fun _ member => (List.not_mem_nil member).elim, fun _ => rfl, fun real => ?_⟩
  cases holder.symm.trans real

/-- The marks do not depend on whether the IROB was released. -/
theorem release (marked : Marked past content start handled irob) :
    Marked past content start handled irob.release := by
  refine ⟨marked.id, fun message member => ?_, marked.unbegun, fun real => ?_⟩
  · have shown := marked.shows message member
    cases message with
    | beginIrob _ _ _ => exact shown
    | irobChunk _ _ _ _ => exact shown
    | endIrob _ _ _ => exact shown
  · exact (release_kept irob).links.trans (marked.begun real)

/-- A message that was handled before leaves the IROB as it is. -/
theorem again (marked : Marked past content start handled irob) (shown : irob.Shows message) :
    Marked past content start (message :: handled) irob := by
  refine ⟨marked.id, fun other member => ?_, marked.unbegun, marked.begun⟩
  rcases List.mem_cons.mp member with rfl | before
  · exact shown
  · exact marked.shows other before

/-- An IROB that keeps its links keeps its marks, if it shows what it showed before. -/
theorem keeps (marked : Marked past content start handled irob)
    (links : PendingIrob.SameLinks next irob) (shown : next.Shows message)
    (still : ∀ other, irob.Shows other → next.Shows other) :
    Marked past content start (message :: handled) next := by
  refine ⟨links.id.trans marked.id, fun other member => ?_, fun holder => ?_, fun real => ?_⟩
  · rcases List.mem_cons.mp member with rfl | before
    · exact shown
    · exact still other (marked.shows other before)
  · exact links.dependents.trans (marked.unbegun (links.placeholder ▸ holder))
  · exact links.trans (marked.begun (links.placeholder ▸ real))

/-- The `Begin_IROB` takes over the marks of the placeholder. -/
theorem begins (marked : Marked past content start handled irob)
    (receiving : Receiving content irob) (holder : irob.placeholder = true) {merged : ReceiverIrob}
    (merging : (mkBegun irob.id content.deps content.sendLabels).subsume irob = some merged) :
    Marked past content start
      (.beginIrob irob.id content.deps content.sendLabels :: handled) (linked past merged) := by
  obtain ⟨chunks, complete⟩ := receiving.of_merging merging
  have links := linked_sameLinks past (receiver_subsume_links merging)
  obtain ⟨dependents, shape⟩ := linked_cases past merged
  have real : (linked past merged).placeholder = false := by
    rw [shape]
    exact (receiver_subsume_links merging).placeholder
  refine ⟨?_, fun other member => ?_, fun holds => ?_, fun _ => ?_⟩
  · rw [shape]
    exact (receiver_subsume_links merging).id.trans marked.id
  · rcases List.mem_cons.mp member with rfl | before
    · exact real
    · refine (marked.shows other before).of_chunks ?_ (fun _ => real) fun closed => ?_
      · rw [shape]
        exact chunks
      · rw [shape]
        exact complete.trans closed
  · cases holds.symm.trans real
  · rw [← marked.id, ← marked.unbegun holder]
    exact links

/-- A message leaves its mark and keeps those of the messages before it. -/
theorem takes (marked : Marked past content start handled irob)
    (receiving : Receiving content irob) (about : message ∈ content.messages irob.id)
    (taking : Takes past irob message next) :
    Marked past content start (message :: handled) next := by
  cases taking with
  | @begun id deps sendLabels merged holder merging =>
      have own : id = irob.id ∧ deps = content.deps ∧ sendLabels = content.sendLabels := by
        rcases IrobContent.mem_messages.mp about with same | ⟨_, _, -, same⟩ | same
        · cases same
          exact ⟨rfl, rfl, rfl⟩
        · cases same
        · cases same
      obtain ⟨rfl, rfl, rfl⟩ := own
      exact marked.begins receiving holder merging
  | @chunk id seqno offset data _ fresh _ added =>
      have listed : (content.chunks irob.id)[seqno]? =
          some ⟨id, seqno, offset, data.length, some data⟩ := by
        rcases IrobContent.mem_messages.mp about with same | ⟨_, _, inside, same⟩ | same
        · cases same
        · cases same
          rw [IrobContent.chunks, getElem?_tile, inside]
          simp only [Option.map_some, Nat.zero_add]
        · cases same
      exact marked.keeps (addChunk_kept added).links (receiving.shows_chunk listed added)
        fun _ shown => shown.addChunk rfl added
  | ended finished =>
      exact marked.keeps (finish_kept finished).links (complete_of_finish finished)
        fun _ shown => shown.finish finished

/-- With all marks there, the IROB is complete and real. -/
theorem whole (marked : Marked past content start handled irob)
    (receiving : Receiving content irob)
    (all : ∀ message ∈ content.messages start.id, message ∈ handled) :
    irob.placeholder = false ∧ irob.isComplete = some true := by
  have shown := fun message member => marked.shows message (all message member)
  have real := shown _ (IrobContent.mem_messages.mpr (.inl rfl))
  have complete := shown _ (IrobContent.mem_messages.mpr (.inr (.inr rfl)))
  refine ⟨real, receiving.isComplete_of_shows complete fun seqno inside => ?_⟩
  exact shown _ (IrobContent.mem_messages.mpr
    (.inr (.inl ⟨seqno, _, List.getElem?_eq_getElem inside, rfl⟩)))

/-- Two IROBs with all marks agree. -/
theorem agree {other : ReceiverIrob} {others : List Message}
    (marked : Marked past content start handled irob) (receiving : Receiving content irob)
    (otherMarked : Marked past content start others other) (otherReceiving : Receiving content other)
    (all : ∀ message ∈ content.messages start.id, message ∈ handled)
    (otherAll : ∀ message ∈ content.messages start.id, message ∈ others) : Agree irob other := by
  obtain ⟨real, complete⟩ := marked.whole receiving all
  obtain ⟨otherReal, otherComplete⟩ := otherMarked.whole otherReceiving otherAll
  have links := (marked.begun real).trans (otherMarked.begun otherReal).symm
  have reading := receiving.reading complete
  have otherReading := otherReceiving.reading otherComplete
  have full : ∀ {held : ReceiverIrob}, Receiving content held → held.isComplete = some true →
      held.complete = true ∧ held.chunks = content.chunks held.id ∧
        held.own.expectedBytes = content.bytes.length ∧
        held.own.expectedChunks = content.blocks.length := by
    intro held holds done
    obtain ⟨whole, same, exactly⟩ := holds.isComplete_eq
    cases done.symm.trans same
    obtain ⟨closed, chunks⟩ := exactly.mp rfl
    rcases holds.ending with ⟨opened, -⟩ | ⟨-, -, bytes, count⟩
    · cases closed.symm.trans opened
    · exact ⟨closed, chunks, bytes, count⟩
  obtain ⟨closed, chunks, bytes, count⟩ := full receiving complete
  obtain ⟨otherClosed, otherChunks, otherBytes, otherCount⟩ := full otherReceiving otherComplete
  have sameBytes := bytes.trans otherBytes.symm
  have sameChunks := count.trans otherCount.symm
  have recvdBytes := reading.byteCount.symm.trans (sameBytes.trans otherReading.byteCount)
  refine ⟨?_, ?_, recvdBytes, ?_, sameBytes, sameChunks, closed.trans otherClosed.symm,
    links.deps, links.dependents, complete.trans otherComplete.symm⟩
  · rw [chunks, otherChunks, links.id]
  · rw [receiving.untouched.1, otherReceiving.untouched.1, recvdBytes]
  · exact reading.chunkCount.symm.trans (sameChunks.trans otherReading.chunkCount)

end Marked

end ReceiverIrob

namespace ReceiverLattice

open ReceiverIrob

/-- Messages are handled one after another. -/
def dispatchAll (state : ReceiverLattice) (messages : List Message) : Option ReceiverLattice :=
  messages.foldlM (fun state message => (state.dispatch message).map Handled.after) state

/-- The IROB under an identifier, a fresh placeholder if there is none. -/
def irobAt (state : ReceiverLattice) (id : IrobId) : ReceiverIrob :=
  (state.irobs.find id).getD (makePlaceholder id)

/-- The lattice after messages of one IROB, of which nothing has been read. -/
structure Gathers (contents : Contents) (history : List Observation) (start : ReceiverLattice)
    (id : IrobId) (handled : List Message) (state : ReceiverLattice) : Prop where
  sound : Sound contents (fun _ => False) none state history
  past : state.irobs.pastIrobs = start.irobs.pastIrobs
  marked : Marked start.irobs.pastIrobs (contents id) (start.irobAt id) handled (state.irobAt id)

variable {contents : Contents} {history : List Observation} {start state : ReceiverLattice}
  {id : IrobId} {handled : List Message} {message : Message}

/-- The messages of an IROB in range name only IROBs in range. -/
theorem idsInRange_of_conforms (valid : contents.Valid) (inRange : message.id.InRange)
    (conforms : contents.Conforms message) : message.IdsInRange := by
  cases message with
  | beginIrob id deps sendLabels =>
      refine ⟨inRange, fun dep listed => valid.deps id dep ?_⟩
      rw [← conforms.1]
      exact listed
  | irobChunk _ _ _ _ => exact inRange
  | endIrob _ _ _ => exact inRange

theorem Sound.irobAt_id (sound : Sound contents (fun _ => False) none state history)
    (inRange : id.InRange) : (state.irobAt id).id = id := by
  unfold irobAt
  cases found : state.irobs.find id with
  | none => rfl
  | some irob => exact sound.wf.find_id inRange found

/-- An IROB of which nothing has been delivered is being received. -/
theorem Sound.irobAt_receiving (sound : Sound contents (fun _ => False) none state history)
    (inRange : id.InRange) (undelivered : deliveredBytes history id = []) :
    Receiving (contents id) (state.irobAt id) := by
  unfold irobAt
  cases found : state.irobs.find id with
  | none => exact receiving_makePlaceholder _ id
  | some irob =>
      have phase := (sound.pending id irob inRange found).2.phase
      rw [undelivered] at phase
      exact phase.of_undelivered

/-- Nothing is delivered of an IROB that is not begun. -/
theorem Sound.undelivered_of_unbegun
    (sound : Sound contents (fun _ => False) none state history) (inRange : id.InRange)
    (fresh : state.irobs.pastIrobs.contains id = false)
    (unbegun : ∀ irob, state.irobs.find id = some irob → irob.placeholder = true) :
    deliveredBytes history id = [] := by
  cases found : state.irobs.find id with
  | none => exact sound.unseen id (fun _ => found) fresh
  | some irob =>
      exact ((sound.pending id irob inRange found).2.phase.of_placeholder (unbegun irob found)).1

/-- A released IROB has taken the same messages. -/
theorem releasing_irobAt (state : ReceiverLattice) {irobs : IrobLattice ReceiverPart}
    {irob : ReceiverIrob}
    (wf : irobs.WellFormed) (inRange : id.InRange) (found : irobs.find id = some irob)
    (ready : Bool) :
    (state.releasing irobs id irob ready).irobs.pastIrobs = irobs.pastIrobs ∧
      (state.releasing irobs id irob ready).irobAt id = if ready then irob.release else irob := by
  unfold releasing irobAt
  cases ready with
  | false =>
      simp only [Bool.false_eq_true, ↓reduceIte, found, Option.getD_some, and_self]
  | true =>
      simp only [↓reduceIte]
      refine ⟨rfl, ?_⟩
      rw [wf.find_write_self inRange found]
      rfl

/-- One more message is handled. -/
theorem Gathers.dispatch (gathers : Gathers contents history start id handled state)
    (valid : contents.Valid) (inRange : id.InRange) (final : (contents id).final = true)
    (fresh : start.irobs.pastIrobs.contains id = false)
    (undelivered : deliveredBytes history id = [])
    (member : message ∈ (contents id).messages id) :
    ∃ handling, state.dispatch message = some handling ∧
      Gathers contents history start id (message :: handled) handling.after := by
  obtain ⟨rfl, conforms⟩ := IrobContent.conforms_of_mem final member
  obtain ⟨handling, dispatched, handles⟩ := gathers.sound.dispatch valid inRange conforms
  have receiving := gathers.sound.irobAt_receiving inRange undelivered
  have named := gathers.sound.irobAt_id inRange
  suffices rest : handling.after.irobs.pastIrobs = start.irobs.pastIrobs ∧
      Marked start.irobs.pastIrobs (contents message.id) (start.irobAt message.id)
        (message :: handled) (handling.after.irobAt message.id) by
    exact ⟨handling, dispatched, handles.sound, rest.1, rest.2⟩
  rcases dispatch_effect gathers.sound.wf (idsInRange_of_conforms valid inRange conforms)
    dispatched with ⟨ignores, same⟩ | ⟨irobs, irob, ready, stores, -, after⟩
  · rw [same]
    refine ⟨gathers.past, gathers.marked.again ?_⟩
    rcases ignores with past | ⟨id, deps, sendLabels, irob, rfl, found, real⟩ |
      ⟨id, seqno, offset, rfl⟩
    · rw [gathers.past, fresh] at past
      cases past
    · unfold irobAt
      rw [show state.irobs.find (Message.beginIrob id deps sendLabels).id = some irob from found]
      exact real
    · -- the blocks of a content are not empty
      exact absurd rfl (valid.blocks id [] (List.mem_of_getElem? conforms.1))
  · obtain ⟨past, itself⟩ := releasing_irobAt state stores.wf inRange stores.found ready
    rw [after, past, itself]
    refine ⟨stores.past.trans gathers.past, ?_⟩
    have taken := gathers.marked.takes receiving (by rwa [named]) (gathers.past ▸ stores.takes)
    split_ifs
    · exact taken.release
    · exact taken

/-- Any list of messages is handled, and all of them leave their mark. -/
theorem Gathers.dispatchAll (gathers : Gathers contents history start id handled state)
    (valid : contents.Valid) (inRange : id.InRange) (final : (contents id).final = true)
    (fresh : start.irobs.pastIrobs.contains id = false)
    (undelivered : deliveredBytes history id = []) {messages : List Message}
    (members : ∀ message ∈ messages, message ∈ (contents id).messages id) :
    ∃ last marks, state.dispatchAll messages = some last ∧
      Gathers contents history start id marks last ∧
      ∀ message, message ∈ handled ∨ message ∈ messages → message ∈ marks := by
  induction messages generalizing state handled with
  | nil =>
      refine ⟨state, handled, rfl, gathers, fun message either => ?_⟩
      exact either.resolve_right List.not_mem_nil
  | cons first rest ih =>
      obtain ⟨handling, dispatched, next⟩ := gathers.dispatch valid inRange final fresh undelivered
        (members first List.mem_cons_self)
      obtain ⟨last, marks, ran, lastGathers, all⟩ :=
        ih next fun message member => members message (List.mem_cons_of_mem _ member)
      refine ⟨last, marks, ?_, lastGathers, fun message either => all message ?_⟩
      · unfold ReceiverLattice.dispatchAll at ran ⊢
        rw [List.foldlM_cons, dispatched]
        exact ran
      · rcases either with before | member
        · exact .inl (List.mem_cons_of_mem _ before)
        · rcases List.mem_cons.mp member with rfl | later
          · exact .inl List.mem_cons_self
          · exact .inr later

end ReceiverLattice

namespace Receiver

open ReceiverLattice ReceiverIrob

variable {contents : Contents} {receiver : Receiver} {id : IrobId}

/-- Messages of an IROB that is not begun are handled, and leave their marks. -/
theorem gathers (valid : contents.Valid) (reached : (conforming contents).Reachable receiver)
    (inRange : id.InRange) (final : (contents id).final = true)
    (fresh : receiver.lattice.irobs.pastIrobs.contains id = false)
    (unbegun : ∀ irob, receiver.lattice.irobs.find id = some irob → irob.placeholder = true)
    {messages : List Message} (members : ∀ message ∈ messages, message ∈ (contents id).messages id) :
    ∃ last marks, receiver.lattice.dispatchAll messages = some last ∧
      Gathers contents receiver.history receiver.lattice id marks last ∧
      Receiving (contents id) (last.irobAt id) ∧ ∀ message ∈ messages, message ∈ marks := by
  have sound : ReceiverLattice.Sound contents (fun _ => False) none receiver.lattice
    receiver.history := sound_of_reachable valid reached
  have holder : (receiver.lattice.irobAt id).placeholder = true := by
    unfold irobAt
    cases found : receiver.lattice.irobs.find id with
    | none => rfl
    | some irob => exact unbegun irob found
  have undelivered := sound.undelivered_of_unbegun inRange fresh unbegun
  have start : Gathers contents receiver.history receiver.lattice id [] receiver.lattice :=
    ⟨sound, rfl, Marked.initial _ _ holder⟩
  obtain ⟨last, marks, ran, gathers, all⟩ :=
    start.dispatchAll valid inRange final fresh undelivered members
  exact ⟨last, marks, ran, gathers, gathers.sound.irobAt_receiving inRange undelivered,
    fun message member => all message (.inr member)⟩

/-- A real IROB is in the lattice. -/
theorem find_of_real {state : ReceiverLattice} (real : (state.irobAt id).placeholder = false) :
    state.irobs.find id = some (state.irobAt id) := by
  unfold irobAt at real ⊢
  cases found : state.irobs.find id with
  | none =>
      rw [found] at real
      cases real
  | some irob => rfl

/-- Confluence: whatever copies of the messages of an IROB arrive in whatever order, once each
of them has, the IROB is the one that its messages leave when they arrive once and in order. -/
theorem confluent (valid : contents.Valid) (reached : (conforming contents).Reachable receiver)
    (inRange : id.InRange) (final : (contents id).final = true)
    (fresh : receiver.lattice.irobs.pastIrobs.contains id = false)
    (unbegun : ∀ irob, receiver.lattice.irobs.find id = some irob → irob.placeholder = true)
    {messages : List Message}
    (copies : ∀ message, message ∈ messages ↔ message ∈ (contents id).messages id) :
    ∃ last canonical, ∃ irob other : ReceiverIrob,
      receiver.lattice.dispatchAll messages = some last ∧
      receiver.lattice.dispatchAll ((contents id).messages id) = some canonical ∧
      last.irobs.find id = some irob ∧ canonical.irobs.find id = some other ∧
      irob.Agree other ∧ irob.isComplete = some true := by
  obtain ⟨last, marks, ran, gathers, receiving, all⟩ :=
    gathers valid reached inRange final fresh unbegun fun message => (copies message).mp
  obtain ⟨canonical, others, orderly, otherGathers, otherReceiving, otherAll⟩ :=
    Receiver.gathers valid reached inRange final fresh unbegun fun _ member => member
  have named : (receiver.lattice.irobAt id).id = id :=
    ReceiverLattice.Sound.irobAt_id (sound_of_reachable valid reached) inRange
  have whole : ∀ message ∈ (contents id).messages (receiver.lattice.irobAt id).id,
      message ∈ marks := by
    rw [named]
    exact fun message member => all message ((copies message).mpr member)
  have otherWhole : ∀ message ∈ (contents id).messages (receiver.lattice.irobAt id).id,
      message ∈ others := by
    rw [named]
    exact otherAll
  obtain ⟨real, complete⟩ := gathers.marked.whole receiving whole
  obtain ⟨otherReal, -⟩ := otherGathers.marked.whole otherReceiving otherWhole
  exact ⟨last, canonical, _, _, ran, orderly, find_of_real real, find_of_real otherReal,
    gathers.marked.agree receiving otherGathers.marked otherReceiving whole otherWhole, complete⟩

/-- Two IROBs, the second of which depends on the first and has two chunks. -/
def chainContents : Contents := fun id =>
  if id = 0 then ⟨[], 0, [[1]], true⟩
  else if id = 1 then ⟨[0], 3, [[2, 3], [4]], true⟩
  else ⟨[], 0, [], false⟩

theorem chain_valid : chainContents.Valid := by
  refine ⟨fun id => ?_, fun id => ?_⟩ <;> unfold chainContents <;>
    split_ifs <;> simp [IrobId.InRange]

/-- The last chunk and the end come first, so that `Begin_IROB` finds a placeholder with a
hole, and what came is repeated. -/
theorem confluent_hole : ∃ last canonical, ∃ irob other : ReceiverIrob,
    ReceiverLattice.empty.dispatchAll [.irobChunk 1 1 2 [4], .endIrob 1 3 2, .beginIrob 1 [0] 3,
      .irobChunk 1 0 0 [2, 3], .irobChunk 1 1 2 [4], .beginIrob 1 [0] 3] = some last ∧
    ReceiverLattice.empty.dispatchAll ((chainContents 1).messages 1) = some canonical ∧
    last.irobs.find 1 = some irob ∧ canonical.irobs.find 1 = some other ∧
    irob.Agree other ∧ irob.isComplete = some true := by
  refine confluent chain_valid (.initial rfl) (by decide) rfl rfl (fun irob found => ?_) ?_
  · cases found.symm.trans (IrobLattice.find_empty 1)
  · intro message
    rw [show (chainContents 1).messages 1 = [.beginIrob 1 [0] 3, .irobChunk 1 0 0 [2, 3],
      .irobChunk 1 1 2 [4], .endIrob 1 3 2] from rfl]
    simp only [List.mem_cons, List.not_mem_nil, or_false]
    tauto

end Receiver

end Libcmm
