import Libcmm.Reassembly
import Libcmm.Lib.Transition

/-! # Runs of a receiving IROB

A `PendingReceiverIROB` under any sequence of calls, whether or not the chunks and the end
that arrive fit together. Until it is read its buffer holds the chunks that `add_chunk` took,
each under its sequence number (`Gathering`). Once it is complete the application takes its
bytes: what the calls of `read_data` and `remove_bytes` hand over is the concatenation of its
chunks, however the requests cut it. But `remove_bytes` pops the chunks it empties from the
front of the buffer, and from then on `get_missing_chunks` and `next_chunk_seqno`, which take
the place of a chunk in the buffer for its sequence number, are wrong.
-/

namespace Libcmm

open Lib

namespace ReceiverIrob

/-- `PendingReceiverIROB(id, numdeps, deps, datalen, data, send_labels)`. -/
def mk (id : IrobId) (deps : List IrobId) (data : List Byte) (sendLabels : Nat) : ReceiverIrob :=
  .mkReal id deps data sendLabels
    (if data.isEmpty then .initial
    else ⟨0, .zero, data.length, data.length, 1, data.length, 1, false⟩)

/-- One past the highest of some sequence numbers; zero if there is none. -/
def nextAfter (seqnos : List Nat) : Nat := seqnos.foldr (fun seqno sofar => max (seqno + 1) sofar) 0

/-- The number of chunks announced by the end, if it was seen. -/
def knownChunks (irob : ReceiverIrob) : Nat :=
  if irob.own.expectedChunks = -1 then 0 else irob.own.expectedChunks.toNat

/-- `get_missing_chunks` lists, in order and once each, the sequence numbers up to the last one
known that were not received, and `next_chunk_seqno` is the one after the highest received. -/
structure Exact (received : List Nat) (irob : ReceiverIrob) : Prop where
  increasing : irob.getMissingChunks.Pairwise (· < ·)
  missing : ∀ seqno, seqno ∈ irob.getMissingChunks ↔
    seqno < max irob.knownChunks (nextAfter received) ∧ seqno ∉ received
  next : irob.nextChunkSeqno = nextAfter received

/-- An IROB of which no byte has been read, with the sequence numbers it has received. -/
structure Gathering (received : List Nat) (irob : ReceiverIrob) : Prop where
  placed : ∀ seqno chunk, Assembly.held irob.slots seqno = some chunk →
    chunk.seqno = seqno ∧ chunk.datalen = chunk.bytes.length ∧ chunk.bytes ≠ []
  known : ∀ seqno, (Assembly.held irob.slots seqno).isSome = true ↔ seqno ∈ received
  wire : ∀ seqno ∈ received, seqno < 2 ^ 32
  holes : ∀ chunk ∈ irob.chunks, chunk.data = none → chunk = .zero
  last : ∀ chunk, irob.chunks.getLast? = some chunk → chunk.data.isSome = true
  chunkCount : irob.own.recvdChunks = Assembly.filled irob.slots
  byteCount : irob.own.recvdBytes = Assembly.weight IrobChunk.datalen irob.slots
  untouched : irob.own.numBytes = irob.own.recvdBytes ∧ irob.own.offset = 0 ∧
    irob.own.partialChunk.data = none

variable {irob after : ReceiverIrob} {received : List Nat}

namespace Gathering

theorem fresh {irob : ReceiverIrob} (chunks : irob.chunks = []) (own : irob.own = .initial) :
    Gathering [] irob := by
  have slots : irob.slots = [] := by rw [slots, chunks]; rfl
  refine ⟨?_, ?_, fun _ none => (List.not_mem_nil none).elim, ?_, ?_, ?_, ?_, ?_⟩
  · rw [slots]
    intro seqno chunk held
    cases held
  · rw [slots]
    exact fun seqno => iff_of_false Bool.false_ne_true List.not_mem_nil
  · rw [chunks]
    exact fun chunk member => (List.not_mem_nil member).elim
  · rw [chunks]
    intro chunk found
    cases found
  · rw [slots, own]
    rfl
  · rw [slots, own]
    rfl
  · rw [own]
    exact ⟨rfl, rfl, rfl⟩

/-- An IROB constructed with data has received its only chunk. -/
theorem constructed {id : IrobId} {deps : List IrobId} {data : List Byte} {sendLabels : Nat} :
    Gathering (if data.isEmpty then [] else [0]) (ReceiverIrob.mk id deps data sendLabels) := by
  cases data with
  | nil => exact fresh rfl rfl
  | cons byte rest =>
      have slots : (ReceiverIrob.mk id deps (byte :: rest) sendLabels).slots =
          [some ⟨id, 0, 0, (byte :: rest).length, some (byte :: rest)⟩] := rfl
      refine ⟨?_, ?_, ?_, ?_, ?_, ?_, ?_, rfl, rfl, rfl⟩
      · intro seqno chunk held
        rw [slots] at held
        cases seqno with
        | zero =>
            cases held
            exact ⟨rfl, rfl, List.cons_ne_nil _ _⟩
        | succ seqno => cases held
      · intro seqno
        rw [slots]
        cases seqno with
        | zero => exact iff_of_true rfl List.mem_cons_self
        | succ seqno => exact iff_of_false Bool.false_ne_true (by simp)
      · intro seqno member
        cases List.mem_singleton.mp member
        norm_num
      · intro chunk member null
        cases List.mem_singleton.mp member
        cases null
      · intro chunk found
        cases found
        rfl
      · rfl
      · rw [slots]
        simp [Assembly.weight, ReceiverIrob.mk, PendingIrob.mkReal]

/-- The invariant does not depend on the links and the end of an IROB. -/
theorem congr (gathering : Gathering received irob) (chunks : after.chunks = irob.chunks)
    (own : after.own = { irob.own with
      expectedBytes := after.own.expectedBytes
      expectedChunks := after.own.expectedChunks
      released := after.own.released }) : Gathering received after := by
  have slots : after.slots = irob.slots := by rw [slots, chunks, slots]
  refine ⟨slots ▸ gathering.placed, slots ▸ gathering.known, gathering.wire,
    chunks ▸ gathering.holes, chunks ▸ gathering.last, ?_, ?_, ?_⟩
  · rw [slots, own]
    exact gathering.chunkCount
  · rw [slots, own]
    exact gathering.byteCount
  · rw [own]
    exact gathering.untouched

/-- A chunk that `add_chunk` reports as taken has been received. -/
theorem addChunk (gathering : Gathering received irob) {chunk : IrobChunk} {data : List Byte}
    (held : chunk.data = some data) (size : chunk.datalen = data.length) (nonempty : data ≠ [])
    (wire : chunk.seqno < 2 ^ 32) {taken : Bool}
    (added : irob.addChunk chunk = some (after, taken)) :
    Gathering (if taken then chunk.seqno :: received else received) after := by
  have present : chunk.data.isSome = true := by rw [held]; rfl
  have bytes : chunk.bytes = data := by rw [IrobChunk.bytes, held]; rfl
  rcases addChunk_cases added with same | ⟨isTaken, -, free, shape⟩
  · cases (show after = irob from same)
    cases taken with
    | false => exact gathering
    | true =>
        -- a chunk taken without a change was there already
        have seen : chunk.seqno ∈ received :=
          (gathering.known chunk.seqno).mp (held_addChunk present added)
        have same : ∀ seqno, seqno ∈ chunk.seqno :: received ↔ seqno ∈ received := by
          intro seqno
          rw [List.mem_cons]
          exact ⟨fun either => either.elim (fun equal => equal ▸ seen) id, .inr⟩
        refine ⟨gathering.placed, fun seqno => ?_, fun seqno member => ?_, gathering.holes,
          gathering.last, gathering.chunkCount, gathering.byteCount, gathering.untouched⟩
        · exact (gathering.known seqno).trans (same seqno).symm
        · exact gathering.wire seqno ((same seqno).mp member)
  · cases (show taken = true from isTaken)
    have hole : Assembly.held irob.slots chunk.seqno = none := by
      rw [held_slots, IrobChunk.slot_eq_none]
      exact free
    have slots : after.slots = Assembly.put irob.slots chunk.seqno chunk := by
      rw [show after = _ from shape]
      exact map_slot_storeChunk irob.chunks present
    have stored : ∀ seqno, Assembly.held after.slots seqno =
        if seqno = chunk.seqno then some chunk else Assembly.held irob.slots seqno := by
      intro seqno
      rw [slots, Assembly.held_put]
    refine ⟨?_, ?_, ?_, ?_, ?_, ?_, ?_, ?_⟩
    · intro seqno found same
      rw [stored] at same
      split_ifs at same with equal
      · cases same
        exact ⟨equal.symm, size.trans (congrArg List.length bytes.symm), bytes ▸ nonempty⟩
      · exact gathering.placed seqno found same
    · intro seqno
      rw [stored, if_pos rfl, List.mem_cons]
      split_ifs with equal
      · exact iff_of_true rfl (.inl equal)
      · rw [gathering.known]
        exact (or_iff_right equal).symm
    · intro seqno member
      rcases List.mem_cons.mp member with rfl | old
      · exact wire
      · exact gathering.wire seqno old
    · rw [show after = _ from shape]
      intro query member null
      rcases mem_storeChunk member with rfl | old | zero
      · rw [null] at present
        cases present
      · exact gathering.holes query old null
      · exact zero
    · rw [show after = _ from shape]
      exact last_storeChunk present gathering.last
    · rw [slots, Assembly.filled_put hole, show after = _ from shape]
      simp only [gathering.chunkCount]
      norm_cast
    · rw [slots, Assembly.weight_put hole, show after = _ from shape]
      simp only [gathering.byteCount]
      norm_cast
    · rw [show after = _ from shape]
      obtain ⟨unread, start, whole⟩ := gathering.untouched
      exact ⟨by simp only [unread], start, whole⟩

/-- The end of an IROB leaves what was received alone. -/
theorem finish (gathering : Gathering received irob) {expectedBytes numChunks : Int} {fresh : Bool}
    (finished : irob.finish expectedBytes numChunks = some (after, fresh)) :
    Gathering received after := by
  unfold ReceiverIrob.finish at finished
  split at finished
  · cases finished
  · cases finished
    exact gathering
  · simp only at finished
    split_ifs at finished
    · cases finished
      exact gathering.congr rfl rfl
    · cases finished
      exact gathering.congr rfl rfl

/-- A real IROB takes over what its placeholder has received. -/
theorem subsume (gathering : Gathering received irob) {id : IrobId} {deps : List IrobId}
    {sendLabels : Nat} (merged : (mkBegun id deps sendLabels).subsume irob = some after) :
    Gathering received after := by
  obtain ⟨filled, merging, -, chunks, -, own⟩ := subsume_begun gathering.holes gathering.last
    fun seqno chunk held => (gathering.placed seqno chunk held).1
  cases merging.symm.trans merged
  refine gathering.congr chunks ?_
  rw [own]

/-- An entry of the buffer is in use when its chunk was received. -/
theorem mem_iff (gathering : Gathering received irob) (seqno : Nat) :
    seqno ∈ received ↔ (irob.chunks.getD seqno .zero).data.isSome = true := by
  rw [← gathering.known, held_slots]
  cases held : (irob.chunks.getD seqno .zero).data with
  | none =>
      rw [IrobChunk.slot_eq_none.mpr held]
      exact Iff.rfl
  | some data =>
      rw [IrobChunk.slot_of_data (by rw [held]; rfl)]
      exact Iff.rfl

theorem lt_length (gathering : Gathering received irob) {seqno : Nat} (seen : seqno ∈ received) :
    seqno < irob.chunks.length := by
  by_contra beyond
  rw [gathering.mem_iff, List.getD_eq_default _ _ (not_lt.mp beyond)] at seen
  cases seen

/-- The last entry of the buffer has arrived. -/
theorem last_mem (gathering : Gathering received irob) {count : Nat}
    (long : irob.chunks.length = count + 1) : count ∈ received := by
  rw [gathering.mem_iff]
  have inside : count < irob.chunks.length := by omega
  rw [List.getD_eq_getElem _ _ inside]
  apply gathering.last
  rw [List.getLast?_eq_getElem?, long, Nat.add_sub_cancel, List.getElem?_eq_getElem inside]

end Gathering

theorem nextAfter_le_iff {seqnos : List Nat} {bound : Nat} :
    nextAfter seqnos ≤ bound ↔ ∀ seqno ∈ seqnos, seqno < bound := by
  induction seqnos with
  | nil => simp [nextAfter]
  | cons seqno rest ih =>
      unfold nextAfter at ih ⊢
      rw [List.foldr_cons, max_le_iff, ih, List.forall_mem_cons]
      exact and_congr_left fun _ => Nat.succ_le_iff

/-- The buffer reaches as far as the highest sequence number received. -/
theorem Gathering.length_eq (gathering : Gathering received irob) :
    irob.chunks.length = nextAfter received := by
  apply le_antisymm
  · cases long : irob.chunks.length with
    | zero => exact Nat.zero_le _
    | succ count =>
        have all := nextAfter_le_iff.mp (le_refl (nextAfter received))
        exact all count (gathering.last_mem long)
  · exact nextAfter_le_iff.mpr fun seqno seen => gathering.lt_length seen

/-- What `get_missing_chunks` lists. -/
theorem mem_missing {seqno : Nat} : seqno ∈ irob.getMissingChunks ↔
    (seqno < irob.chunks.length ∧ (irob.chunks.getD seqno .zero).data = none) ∨
      (irob.own.expectedChunks ≠ -1 ∧ irob.chunks.length ≤ seqno ∧
        (seqno : Int) < toULong irob.own.expectedChunks) := by
  unfold getMissingChunks
  rw [List.mem_append, List.mem_filter, List.mem_range, Option.isNone_iff_eq_none]
  refine or_congr_right ?_
  split_ifs with more
  · rw [List.mem_range'_1]
    refine ⟨fun inside => ⟨more.1, inside.1, by omega⟩, fun inside => ⟨inside.2.1, by omega⟩⟩
  · simp only [List.not_mem_nil, false_iff, not_and, not_lt]
    intro known above
    have short := not_and.mp more known
    omega

theorem missing_increasing (irob : ReceiverIrob) : irob.getMissingChunks.Pairwise (· < ·) := by
  unfold getMissingChunks
  apply List.pairwise_append.mpr
  refine ⟨List.pairwise_lt_range.filter _, ?_, ?_⟩
  · split_ifs
    · exact List.pairwise_lt_range'
    · exact .nil
  · intro first inside second beyond
    have low := List.mem_range.mp (List.mem_filter.mp inside).1
    split_ifs at beyond
    · have high := (List.mem_range'_1.mp beyond).1
      omega
    · cases beyond

/-- Before an IROB is read its report is exact. -/
theorem Gathering.exact (gathering : Gathering received irob)
    (counted : -1 ≤ irob.own.expectedChunks) : Exact received irob := by
  refine ⟨missing_increasing irob, fun seqno => ?_, gathering.length_eq⟩
  have gap : (irob.chunks.getD seqno .zero).data = none ↔ seqno ∉ received := by
    rw [gathering.mem_iff, Bool.not_eq_true, Option.isSome_eq_false_iff, Option.isNone_iff_eq_none]
  have outside : irob.chunks.length ≤ seqno → seqno ∉ received :=
    fun beyond seen => absurd (gathering.lt_length seen) (not_lt.mpr beyond)
  rw [mem_missing, gap, ← gathering.length_eq, lt_max_iff, knownChunks]
  by_cases unknown : irob.own.expectedChunks = -1
  · rw [if_pos unknown]
    simp only [unknown, ne_eq, not_true_eq_false, false_and, or_false, Nat.not_lt_zero, false_or]
  · rw [if_neg unknown, toULong_of_nonneg (by omega)]
    constructor
    · rintro (⟨inside, unseen⟩ | ⟨-, beyond, below⟩)
      · exact ⟨.inr inside, unseen⟩
      · exact ⟨.inl (by omega), outside beyond⟩
    · rintro ⟨below, unseen⟩
      by_cases inside : seqno < irob.chunks.length
      · exact .inl ⟨inside, unseen⟩
      · exact .inr ⟨unknown, by omega, by omega⟩

/-- A negative number of chunks is taken for a huge one. -/
theorem Gathering.not_exact (gathering : Gathering received irob)
    (negative : irob.own.expectedChunks < -1) (int : -(2 ^ 31) ≤ irob.own.expectedChunks) :
    ¬Exact received irob := by
  intro exact'
  have short : irob.chunks.length ≤ 2 ^ 32 := by
    cases long : irob.chunks.length with
    | zero => exact Nat.zero_le _
    | succ count => exact gathering.wire count (gathering.last_mem long)
  have listed : irob.chunks.length ∈ irob.getMissingChunks := by
    rw [mem_missing, toULong, if_pos (by omega)]
    exact .inr ⟨by omega, le_refl _, by omega⟩
  have below := ((exact'.missing _).mp listed).1
  have known : irob.knownChunks = 0 := by
    unfold knownChunks
    split_ifs
    · rfl
    · omega
  rw [← gathering.length_eq, known, Nat.zero_max] at below
  exact lt_irrefl _ below

/-- A complete IROB has received every chunk it expects. -/
theorem Gathering.whole (gathering : Gathering received irob)
    (complete : irob.isComplete = some true) :
    irob.complete = true ∧ irob.own.expectedBytes = irob.own.recvdBytes ∧
      irob.own.expectedChunks = irob.own.recvdChunks ∧
      irob.own.recvdChunks = irob.chunks.length ∧
      ∀ chunk ∈ irob.chunks, chunk.data.isSome = true := by
  unfold isComplete allChunksComplete at complete
  split_ifs at complete
  simp only [Option.some.injEq, Bool.and_eq_true, decide_eq_true_eq, List.all_eq_true] at complete
  obtain ⟨⟨⟨bytes, chunks⟩, all⟩, closed⟩ := complete
  refine ⟨closed, bytes, chunks, ?_, all⟩
  rw [gathering.chunkCount, Assembly.filled, slots, List.countP_map, Nat.cast_inj]
  refine List.countP_eq_length.mpr fun chunk member => ?_
  rw [Function.comp_apply, IrobChunk.slot_of_data (all chunk member)]
  rfl

/-- The content of a complete IROB, as it arrived. -/
def gathered (irob : ReceiverIrob) : IrobContent := ⟨[], 0, irob.chunks.map IrobChunk.bytes, true⟩

/-- A complete IROB can be read from its first byte on. -/
theorem Gathering.reading (gathering : Gathering received irob)
    (complete : irob.isComplete = some true) :
    Reading irob.gathered [] irob ∧ irob.unread = irob.chunks.flatMap IrobChunk.bytes := by
  obtain ⟨closed, bytes, chunks, -, all⟩ := gathering.whole complete
  obtain ⟨unreadBytes, start, noHalf⟩ := gathering.untouched
  have sized : ∀ chunk ∈ irob.chunks, chunk.data.isSome = true ∧
      chunk.datalen = chunk.bytes.length := by
    intro chunk member
    obtain ⟨index, listed⟩ := List.mem_iff_getElem?.mp member
    have held : Assembly.held irob.slots index = some chunk := by
      rw [held_slots, List.getD_eq_getElem?_getD, listed]
      exact IrobChunk.slot_of_data (all chunk member)
    exact ⟨all chunk member, (gathering.placed index chunk held).2.1⟩
  have unreadEq : irob.unread = irob.chunks.flatMap IrobChunk.bytes := by
    rw [unread, IrobChunk.bytes, noHalf, Option.getD_none, List.drop_nil, List.nil_append]
  refine ⟨⟨rfl, closed, bytes, chunks, sized, .inl noHalf, ?_, ?_⟩, unreadEq⟩
  · rw [unreadBytes, gathering.byteCount, unreadEq, Assembly.weight, slots, List.map_map,
      List.length_flatMap, Nat.cast_inj]
    refine congrArg List.sum (List.map_congr_left fun chunk member => ?_)
    rw [Function.comp_apply, IrobChunk.slot_of_data (all chunk member), Option.map_some,
      Option.getD_some, (sized chunk member).2]
  · rw [unreadEq, IrobContent.bytes, gathered, List.flatMap_def]
    rfl

/-! ### Removing bytes -/

/-- The popping loop leaves no more chunks than there were. -/
theorem length_popChunks (len : Nat) (chunks : List IrobChunk) :
    (popChunks len chunks).2.2.length ≤ chunks.length := by
  induction chunks generalizing len with
  | nil => exact le_refl _
  | cons chunk rest ih =>
      unfold popChunks
      split_ifs
      · exact le_refl _
      · exact Nat.le_succ _
      · exact Nat.le_succ_of_le (ih _)

/-- If bytes are wanted the first chunk is popped. -/
theorem length_popChunks_lt {len : Nat} (wanted : 0 < len) {chunks : List IrobChunk}
    (some' : chunks ≠ []) : (popChunks len chunks).2.2.length < chunks.length := by
  obtain ⟨chunk, rest, rfl⟩ := List.exists_cons_of_ne_nil some'
  unfold popChunks
  rw [if_neg (Nat.pos_iff_ne_zero.mp wanted)]
  split_ifs
  · exact Nat.lt_succ_self _
  · exact Nat.lt_succ_of_le (length_popChunks _ rest)

theorem chunks_removeChunks (irob : ReceiverIrob) (len : Nat) :
    (irob.removeChunks len).chunks = (popChunks len irob.chunks).2.2 := by
  unfold removeChunks
  rcases popChunks len irob.chunks with ⟨removed, _ | ⟨chunk, read⟩, rest⟩ <;> rfl

theorem length_removeBytes {len : Nat} (removed : irob.removeBytes len = some after) :
    after.chunks.length ≤ irob.chunks.length := by
  unfold removeBytes at removed
  dsimp only at removed
  split_ifs at removed <;> cases removed
  · rw [chunks_removeChunks]
    exact length_popChunks _ _
  · rw [chunks_removeChunks]
    exact length_popChunks _ _
  · exact le_refl _

/-- Removing nothing from an IROB without a chunk half read changes nothing. -/
theorem removeChunks_zero (irob : ReceiverIrob) : irob.removeChunks 0 = irob := by
  have none : popChunks 0 irob.chunks = (0, none, irob.chunks) := by
    cases irob.chunks with
    | nil => rfl
    | cons chunk rest => rfl
  unfold removeChunks
  rw [none]
  simp only [Nat.cast_zero, sub_zero]

/-- No offset is kept without a chunk half read. -/
def Rewound (irob : ReceiverIrob) : Prop := irob.own.partialChunk.data = none → irob.own.offset = 0

theorem Rewound.removeChunks {content : IrobContent} {taken : List Byte} (rewound : Rewound irob)
    (reading : Reading content taken irob) (len : Nat) : Rewound (irob.removeChunks len) := by
  have held := (popChunks_eq irob.chunks len fun chunk member => (reading.sized chunk member).2).2.2
  unfold ReceiverIrob.removeChunks
  rcases popped : popChunks len irob.chunks with ⟨removed, _ | ⟨next, read⟩, rest⟩
  · exact rewound
  · intro unheld
    have present := (reading.sized next (by rw [popped] at held; exact held.1)).1
    change next.data = none at unheld
    rw [unheld] at present
    cases present

theorem Rewound.removeBytes {content : IrobContent} {taken : List Byte} (rewound : Rewound irob)
    (reading : Reading content taken irob) {len : Nat}
    (removed : irob.removeBytes len = some after) : Rewound after := by
  unfold ReceiverIrob.removeBytes at removed
  dsimp only at removed
  split_ifs at removed with noHalf zero all <;> cases removed
  · exact rewound.removeChunks reading len
  · -- the chunk half read is used up, and the offset with it
    have held := (popChunks_eq irob.chunks
      (len - (irob.own.partialChunk.datalen - irob.own.offset))
      fun chunk member => (reading.sized chunk member).2).2.2
    intro unheld
    unfold ReceiverIrob.removeChunks at unheld ⊢
    rcases popped : popChunks (len - (irob.own.partialChunk.datalen - irob.own.offset))
      irob.chunks with ⟨count, _ | ⟨next, read⟩, rest⟩
    · rfl
    · simp only [popped] at unheld
      have present := (reading.sized next (by rw [popped] at held; exact held.1)).1
      rw [unheld] at present
      cases present
  · intro unheld
    change irob.own.partialChunk.data = none at unheld
    exact (noHalf (by rw [unheld]; rfl)).elim

/-- What a receiving IROB is in a run: it has not been read, or it is complete and has been
opened by a read. -/
inductive Stage (received : List Nat) (irob : ReceiverIrob) : Prop where
  | gathering : Gathering received irob → Stage received irob
  | opened {content : IrobContent} {taken : List Byte} : irob.placeholder = false →
      Reading content taken irob → Rewound irob → (∃ seqno ∈ received,
        irob.chunks.length ≤ seqno ∧ (seqno : Int) < irob.own.expectedChunks) →
      irob.own.numBytes < irob.own.recvdBytes → Stage received irob

namespace Stage

/-- A complete IROB is read as a stream of the bytes it holds. -/
theorem reading (stage : Stage received irob) (complete : irob.isComplete = some true) :
    ∃ content taken, Reading content taken irob ∧ Rewound irob := by
  cases stage with
  | gathering gathering =>
      exact ⟨_, _, (gathering.reading complete).1, fun _ => gathering.untouched.2.1⟩
  | opened _ reading rewound _ _ => exact ⟨_, _, reading, rewound⟩

/-- An incomplete IROB has not been read, nor has a placeholder. -/
theorem to_gathering (stage : Stage received irob)
    (unread : irob.isComplete ≠ some true ∨ irob.placeholder = true) : Gathering received irob := by
  cases stage with
  | gathering gathering => exact gathering
  | opened real reading _ _ _ =>
      rcases unread with incomplete | holder
      · exact (incomplete reading.isComplete_eq).elim
      · cases real.symm.trans holder

/-- Bytes are removed from a complete IROB. -/
theorem removeBytes (stage : Stage received irob) (real : irob.placeholder = false)
    (complete : irob.isComplete = some true) {len : Nat}
    (removed : irob.removeBytes len = some after) : Stage received after := by
  obtain ⟨content, taken, reading, rewound⟩ := stage.reading complete
  cases len with
  | zero =>
      unfold ReceiverIrob.removeBytes at removed
      split_ifs at removed with noHalf
      · rw [removeChunks_zero] at removed
        cases removed
        exact stage
      · simp only [Nat.zero_min, ↓reduceIte, reduceCtorEq] at removed
  | succ len =>
      obtain ⟨next, removing, nextReading⟩ := reading.removeBytes_eq (Nat.succ_pos len)
      cases removing.symm.trans removed
      have same := removeBytes_sameButRead removed
      have shorter := length_removeBytes removed
      have links := same.kept.links
      have counters : after.own.expectedChunks = irob.own.expectedChunks ∧
          after.own.recvdBytes = irob.own.recvdBytes := by
        obtain ⟨chunks, offset, partialChunk, numBytes, -, shape⟩ := same
        rw [shape]
        exact ⟨rfl, rfl⟩
      -- the bytes that are left are fewer, unless there were none
      have left : after.unread.length = irob.unread.length - (len + 1) := by
        have total := congrArg List.length (nextReading.bytes.trans reading.bytes.symm)
        simp only [List.length_append, List.length_take] at total
        omega
      have fewer := nextReading.counted
      rw [left] at fewer
      have before := reading.counted
      cases stage with
      | opened _ _ _ gap read =>
          obtain ⟨seqno, seen, beyond, below⟩ := gap
          refine .opened (links.placeholder.trans real) nextReading
            (rewound.removeBytes reading removed) ⟨seqno, seen, shorter.trans beyond, ?_⟩ ?_
          · rw [counters.1]
            exact below
          · rw [counters.2]
            omega
      | gathering gathering =>
          obtain ⟨-, -, expected, count, all⟩ := gathering.whole complete
          by_cases empty : irob.chunks = []
          · have untouched : irob.removeBytes (len + 1) = some irob := by
              unfold ReceiverIrob.removeBytes
              rw [if_pos (Option.isNone_iff_eq_none.mpr gathering.untouched.2.2)]
              have none : popChunks (len + 1) irob.chunks = (0, none, irob.chunks) := by
                rw [empty]
                rfl
              unfold ReceiverIrob.removeChunks
              rw [none]
              simp only [Nat.cast_zero, sub_zero]
            cases untouched.symm.trans removed
            exact .gathering gathering
          · have popped : after.chunks.length < irob.chunks.length := by
              unfold ReceiverIrob.removeBytes at removed
              rw [if_pos (Option.isNone_iff_eq_none.mpr gathering.untouched.2.2)] at removed
              cases removed
              rw [chunks_removeChunks]
              exact length_popChunks_lt (Nat.succ_pos len) empty
            have someBytes : irob.unread ≠ [] := by
              obtain ⟨chunk, rest, shape⟩ := List.exists_cons_of_ne_nil empty
              have held : Assembly.held irob.slots 0 = some chunk := by
                rw [held_slots, shape, List.getD_cons_zero]
                exact IrobChunk.slot_of_data (all chunk (by rw [shape]; exact List.mem_cons_self))
              rw [(gathering.reading complete).2, shape, List.flatMap_cons]
              exact List.append_ne_nil_of_left_ne_nil (gathering.placed 0 chunk held).2.2 _
            have positive := List.length_pos_iff.mpr someBytes
            refine .opened (links.placeholder.trans real) nextReading
              (rewound.removeBytes reading removed) ⟨after.chunks.length, ?_, le_refl _, ?_⟩ ?_
            · rw [gathering.mem_iff, List.getD_eq_getElem _ _ popped]
              exact all _ (List.getElem_mem popped)
            · rw [counters.1, expected, count]
              omega
            · rw [counters.2, ← gathering.untouched.1]
              omega

end Stage

/-! ### The calls on an IROB -/

/-- The successive `read_data` and `remove_bytes` of a reader, with the lengths it asks for,
until no byte is left: the bytes each call returned, and the IROB it leaves. -/
def readRun : ReceiverIrob → List Nat → Option (List (List Byte) × ReceiverIrob)
  | irob, [] => some ([], irob)
  | irob, len :: rest =>
      if irob.own.numBytes = 0 then some ([], irob)
      else
        (irob.readData len).bind fun bytes =>
          (irob.removeBytes bytes.length).bind fun after =>
            (after.readRun rest).map fun read => (bytes :: read.1, read.2)

/-- A call on a receiving IROB. -/
inductive Call where
  | addChunk (chunk : IrobChunk)
  | finish (expectedBytes numChunks : Int)
  | subsume (deps : List IrobId) (sendLabels : Nat)
  | readData (len : Nat)
  | removeBytes (len : Nat)

end ReceiverIrob

/-- A receiving IROB with the sequence numbers of the chunks it has taken. -/
structure IrobRun where
  irob : ReceiverIrob
  received : List Nat

namespace IrobRun

open ReceiverIrob

/-- One call. -/
def step (run : IrobRun) : Call → Option IrobRun
  | .addChunk chunk => (run.irob.addChunk chunk).map fun result =>
      ⟨result.1, if result.2 then chunk.seqno :: run.received else run.received⟩
  | .finish expectedBytes numChunks => (run.irob.finish expectedBytes numChunks).map fun result =>
      ⟨result.1, run.received⟩
  | .subsume deps sendLabels =>
      ((mkBegun run.irob.id deps sendLabels).subsume run.irob).map fun merged =>
        ⟨merged, run.received⟩
  | .readData len => (run.irob.readData len).map fun _ => run
  | .removeBytes len => (run.irob.removeBytes len).map fun after => ⟨after, run.received⟩

/-- Chunks are not empty and numbers are as wide as on the wire; a placeholder only is taken
over, and a complete real IROB only is read. -/
def Permitted (run : IrobRun) : Call → Prop
  | .addChunk chunk => chunk.datalen = chunk.bytes.length ∧ chunk.bytes ≠ [] ∧
      chunk.seqno < 2 ^ 32
  | .finish _ numChunks => -(2 ^ 31) ≤ numChunks ∧ numChunks < 2 ^ 31
  | .subsume _ _ => run.irob.placeholder = true
  | .readData _ | .removeBytes _ =>
      run.irob.placeholder = false ∧ run.irob.isComplete = some true

instance : ∀ (run : IrobRun) call, Decidable (run.Permitted call)
  | _, .addChunk chunk => inferInstanceAs (Decidable (chunk.datalen = chunk.bytes.length ∧
      chunk.bytes ≠ [] ∧ chunk.seqno < 2 ^ 32))
  | _, .finish _ numChunks =>
      inferInstanceAs (Decidable (-(2 ^ 31) ≤ numChunks ∧ numChunks < 2 ^ 31))
  | run, .subsume _ _ => inferInstanceAs (Decidable (run.irob.placeholder = true))
  | run, .readData _ | run, .removeBytes _ =>
      inferInstanceAs (Decidable (run.irob.placeholder = false ∧ run.irob.isComplete = some true))

/-- A placeholder, or an IROB that was begun, as its constructor leaves it. -/
def Initial (run : IrobRun) : Prop :=
  (∃ id, run = ⟨makePlaceholder id, []⟩) ∨
    ∃ id deps data sendLabels, run =
      ⟨ReceiverIrob.mk id deps data sendLabels, if data.isEmpty then [] else [0]⟩

/-- The IROB under every sequence of calls. -/
def machine : Machine IrobRun Call where
  initial := Initial
  permitted := Permitted
  step := step

instance : ∀ (run : IrobRun) call, Decidable (machine.permitted run call) :=
  fun run call => inferInstanceAs (Decidable (run.Permitted call))

/-- What every run keeps. -/
structure Sound (run : IrobRun) : Prop where
  stage : Stage run.received run.irob
  int : -(2 ^ 31) ≤ run.irob.own.expectedChunks

variable {run after : IrobRun}

theorem Sound.initial (first : Initial run) : run.Sound := by
  rcases first with ⟨id, rfl⟩ | ⟨id, deps, data, sendLabels, rfl⟩
  · exact ⟨.gathering (.fresh rfl rfl), show -(2 ^ 31) ≤ (-1 : Int) by decide⟩
  · refine ⟨.gathering .constructed, ?_⟩
    cases data with
    | nil => exact show -(2 ^ 31) ≤ (-1 : Int) by decide
    | cons byte rest => exact show -(2 ^ 31) ≤ (1 : Int) by decide

/-- The call of `add_chunk` announces nothing. -/
theorem addChunk_expected {irob : ReceiverIrob} {chunk : IrobChunk} {result : ReceiverIrob × Bool}
    (added : irob.addChunk chunk = some result) :
    result.1.own.expectedChunks = irob.own.expectedChunks := by
  rcases addChunk_cases added with same | ⟨-, -, -, shape⟩
  · rw [same]
  · rw [shape]

/-- An IROB is announced as its end says, or as it was. -/
theorem finish_expected {irob : ReceiverIrob} {expectedBytes numChunks : Int}
    {result : ReceiverIrob × Bool} (finished : irob.finish expectedBytes numChunks = some result) :
    result.1.own.expectedChunks = irob.own.expectedChunks ∨
      result.1.own.expectedChunks = numChunks := by
  unfold ReceiverIrob.finish at finished
  split at finished
  · cases finished
  · cases finished
    exact .inl rfl
  · simp only at finished
    split_ifs at finished <;> cases finished
    · exact .inr rfl
    · exact .inl rfl

/-- No call breaks what every run keeps. -/
theorem Sound.step {call : Call} (sound : run.Sound) (permitted : run.Permitted call)
    (stepped : run.step call = some after) : after.Sound := by
  cases call with
  | addChunk chunk =>
      obtain ⟨result, added, rfl⟩ := Option.map_eq_some_iff.mp stepped
      obtain ⟨size, nonempty, wire⟩ := permitted
      refine ⟨?_, (addChunk_expected added).symm ▸ sound.int⟩
      obtain ⟨data, held⟩ : ∃ data, chunk.data = some data := by
        rcases held : chunk.data with _ | data
        · rw [IrobChunk.bytes, held] at nonempty
          exact (nonempty rfl).elim
        · exact ⟨data, rfl⟩
      have bytes : chunk.bytes = data := by rw [IrobChunk.bytes, held]; rfl
      rw [bytes] at size nonempty
      by_cases incomplete : run.irob.isComplete = some true
      · -- a complete IROB ignores the chunk, whether or not it is being read
        unfold ReceiverIrob.addChunk at added
        rw [incomplete] at added
        cases added
        exact sound.stage
      · exact .gathering
          ((sound.stage.to_gathering (.inl incomplete)).addChunk held size nonempty wire added)
  | finish expectedBytes numChunks =>
      obtain ⟨result, finished, rfl⟩ := Option.map_eq_some_iff.mp stepped
      refine ⟨?_, ?_⟩
      · by_cases incomplete : run.irob.isComplete = some true
        · unfold ReceiverIrob.finish at finished
          rw [incomplete] at finished
          cases finished
          exact sound.stage
        · exact .gathering ((sound.stage.to_gathering (.inl incomplete)).finish finished)
      · rcases finish_expected finished with same | announced
        · exact same.symm ▸ sound.int
        · exact announced.symm ▸ permitted.1
  | subsume deps sendLabels =>
      obtain ⟨merged, taken, rfl⟩ := Option.map_eq_some_iff.mp stepped
      have gathering := sound.stage.to_gathering (.inr permitted)
      refine ⟨.gathering (gathering.subsume taken), ?_⟩
      unfold ReceiverIrob.subsume at taken
      obtain ⟨filled, -, rfl⟩ := Option.map_eq_some_iff.mp taken
      exact sound.int
  | readData len =>
      obtain ⟨bytes, -, rfl⟩ := Option.map_eq_some_iff.mp stepped
      exact sound
  | removeBytes len =>
      obtain ⟨left, removed, rfl⟩ := Option.map_eq_some_iff.mp stepped
      refine ⟨sound.stage.removeBytes permitted.1 permitted.2 removed, ?_⟩
      obtain ⟨chunks, offset, partialChunk, numBytes, -, shape⟩ := removeBytes_sameButRead removed
      rw [shape]
      exact sound.int

theorem sound_of_reachable (reached : machine.Reachable run) : run.Sound := by
  apply reached.induct
  · intro first started
    exact .initial started
  · intro before next call _ sound permitted moved
    exact sound.step permitted moved

/-! ### What is missing -/

/-- In every run the report of an IROB is exact if and only if no byte of it has been removed
and the number of chunks that its end announced, if it was seen, is none below minus one; a
complete IROB of which no byte has been removed misses nothing. -/
theorem missing_exact_iff (reached : machine.Reachable run) :
    (Exact run.received run.irob ↔
      run.irob.own.numBytes = run.irob.own.recvdBytes ∧ -1 ≤ run.irob.own.expectedChunks) ∧
    (run.irob.isComplete = some true → run.irob.own.numBytes = run.irob.own.recvdBytes →
      run.irob.getMissingChunks = []) := by
  obtain ⟨stage, int⟩ := sound_of_reachable reached
  cases stage with
  | gathering gathering =>
      refine ⟨⟨fun exact' => ⟨gathering.untouched.1, ?_⟩, fun kept => gathering.exact kept.2⟩,
        fun complete _ => ?_⟩
      · by_contra negative
        exact gathering.not_exact (not_le.mp negative) int exact'
      · obtain ⟨-, -, expected, count, all⟩ := gathering.whole complete
        apply List.eq_nil_iff_forall_not_mem.mpr
        intro seqno listed
        rcases mem_missing.mp listed with ⟨inside, hole⟩ | ⟨-, beyond, below⟩
        · have held := all _ (List.getElem_mem inside)
          rw [List.getD_eq_getElem _ _ inside] at hole
          rw [hole] at held
          cases held
        · rw [expected, count, toULong_of_nonneg (by omega)] at below
          omega
  | opened _ _ _ gap fewer =>
      refine ⟨⟨fun exact' => ?_, fun kept => absurd kept.1 (ne_of_lt fewer)⟩,
        fun _ kept => absurd kept (ne_of_lt fewer)⟩
      -- the buffer is shorter than the highest sequence number
      obtain ⟨seqno, seen, beyond, -⟩ := gap
      have inside := nextAfter_le_iff.mp (le_of_eq exact'.next.symm) seqno seen
      exact absurd beyond (not_le.mpr inside)

/-- An IROB of one chunk of two bytes, complete and read up to the middle of the chunk. -/
def halfReadCalls : List Call :=
  [.addChunk ⟨1, 0, 0, 2, some [7, 8]⟩, .finish 2 1, .removeBytes 1]

/-- The chunk that is being read is reported missing. -/
theorem half_read_missing : ∃ run : IrobRun, machine.Reachable run ∧
    run.irob.isComplete = some true ∧ run.received = [0] ∧
    run.irob.getMissingChunks = [0] ∧ run.irob.nextChunkSeqno = 0 ∧
    ¬Exact run.received run.irob := by
  obtain ⟨run, ran, complete, received, missing, next⟩ : ∃ run : IrobRun,
      machine.run ⟨ReceiverIrob.mk 1 [] [] 0, []⟩ halfReadCalls = some run ∧
      run.irob.isComplete = some true ∧ run.received = [0] ∧
      run.irob.getMissingChunks = [0] ∧ run.irob.nextChunkSeqno = 0 :=
    ⟨_, rfl, rfl, rfl, rfl, rfl⟩
  have start : Initial ⟨ReceiverIrob.mk 1 [] [] 0, []⟩ := .inr ⟨1, [], [], 0, rfl⟩
  refine ⟨run, Machine.Reachable.run (.initial start) ran, complete, received, missing, next, ?_⟩
  intro exact'
  have unseen := ((exact'.missing 0).mp (by rw [missing]; exact List.mem_singleton.mpr rfl)).2
  rw [received] at unseen
  exact unseen List.mem_cons_self

/-- An IROB of two chunks, complete. -/
def twoChunkCalls : List Call :=
  [.addChunk ⟨1, 1, 2, 1, some [9]⟩, .addChunk ⟨1, 0, 0, 2, some [7, 8]⟩, .finish 3 2]

theorem missing_exact_iff_two_chunks : ∃ run : IrobRun, machine.Reachable run ∧
    run.received = [0, 1] ∧ Exact run.received run.irob ∧ run.irob.getMissingChunks = [] := by
  obtain ⟨run, ran, complete, received, unread, announced⟩ : ∃ run : IrobRun,
      machine.run ⟨ReceiverIrob.mk 1 [] [] 0, []⟩ twoChunkCalls = some run ∧
      run.irob.isComplete = some true ∧ run.received = [0, 1] ∧
      run.irob.own.numBytes = run.irob.own.recvdBytes ∧ run.irob.own.expectedChunks = 2 :=
    ⟨_, rfl, rfl, rfl, rfl, rfl⟩
  have start : Initial ⟨ReceiverIrob.mk 1 [] [] 0, []⟩ := .inr ⟨1, [], [], 0, rfl⟩
  have exactly := missing_exact_iff (Machine.Reachable.run (.initial start) ran)
  exact ⟨run, Machine.Reachable.run (.initial start) ran, received,
    exactly.1.mpr ⟨unread, by rw [announced]; decide⟩, exactly.2 complete unread⟩

/-! ### Reading to the end -/

/-- A complete IROB under a reader: the bytes the calls return and those that are left make
up what there was. -/
theorem Reading.readRun {irob : ReceiverIrob} {content : IrobContent} {taken : List Byte}
    (reading : Reading content taken irob) (rewound : Rewound irob) {lens : List Nat}
    (wanted : ∀ len ∈ lens, 0 < len) : ∃ outputs left takenNow,
      irob.readRun lens = some (outputs, left) ∧ Reading content takenNow left ∧ Rewound left ∧
      outputs.flatten ++ left.unread = irob.unread ∧
      (irob.unread.length ≤ lens.length → left.unread = []) := by
  induction lens generalizing irob taken with
  | nil => exact ⟨[], irob, taken, rfl, reading, rewound, rfl, fun short =>
      List.length_eq_zero_iff.mp (Nat.le_zero.mp short)⟩
  | cons len rest ih =>
      have counted := reading.counted
      by_cases nothing : irob.own.numBytes = 0
      · have done : irob.unread = [] := List.length_eq_zero_iff.mp (by omega)
        refine ⟨[], irob, taken, ?_, reading, rewound, rfl, fun _ => done⟩
        rw [ReceiverIrob.readRun, if_pos nothing]
      · have positive := wanted len List.mem_cons_self
        have size : (irob.unread.take len).length = min len irob.unread.length :=
          List.length_take
        have some' : 0 < (irob.unread.take len).length := by omega
        obtain ⟨after, removed, onward⟩ := reading.removeBytes_eq some'
        have split : irob.unread.take len ++ after.unread = irob.unread := by
          have total := onward.bytes.trans reading.bytes.symm
          rw [List.append_assoc, size, ← List.take_eq_take_min] at total
          exact List.append_cancel_left total
        obtain ⟨outputs, left, takenNow, ran, final, finalRewound, whole, finished⟩ :=
          ih onward (rewound.removeBytes reading removed) fun next member =>
            wanted next (List.mem_cons_of_mem _ member)
        refine ⟨irob.unread.take len :: outputs, left, takenNow, ?_, final, finalRewound, ?_,
          fun enough => finished ?_⟩
        · rw [ReceiverIrob.readRun, if_neg nothing, reading.readData_eq positive, Option.bind_some,
            removed, Option.bind_some, ran]
          rfl
        · rw [List.flatten_cons, List.append_assoc, whole, split]
        · have total := congrArg List.length split
          rw [List.length_append] at total
          rw [List.length_cons] at enough
          omega

/-- In every run, a complete IROB is read as a stream. Whatever lengths the reader asks for no
call traps; what the calls return is, from the front, what was left to read, which is the
concatenation of the chunks before the first byte is removed; the counter tells the bytes that
are left, the offset lies inside the chunk that is held; and the next call returns as many
bytes as it asks for, or all there are. -/
theorem read_as_stream (reached : machine.Reachable run)
    (complete : run.irob.isComplete = some true) {lens : List Nat}
    (wanted : ∀ len ∈ lens, 0 < len) :
    (run.irob.own.numBytes = run.irob.own.recvdBytes →
      run.irob.unread = run.irob.chunks.flatMap IrobChunk.bytes) ∧
    ∃ outputs left, run.irob.readRun lens = some (outputs, left) ∧
      outputs.flatten ++ left.unread = run.irob.unread ∧
      left.own.numBytes = left.unread.length ∧
      (if left.own.partialChunk.data.isSome then left.own.offset < left.own.partialChunk.datalen
      else left.own.offset = 0) ∧
      (∀ len, 0 < len → left.own.numBytes ≠ 0 → ∃ bytes next, left.readData len = some bytes ∧
        (bytes.length : Int) = min (len : Int) left.own.numBytes ∧
        left.removeBytes bytes.length = some next ∧ bytes ++ next.unread = left.unread) ∧
      (run.irob.unread.length ≤ lens.length →
        left.own.numBytes = 0 ∧ outputs.flatten = run.irob.unread) := by
  have stage := (sound_of_reachable reached).stage
  refine ⟨fun kept => ?_, ?_⟩
  · cases stage with
    | gathering gathering => exact (gathering.reading complete).2
    | opened _ _ _ _ fewer => exact absurd kept (ne_of_lt fewer)
  obtain ⟨content, taken, reading, rewound⟩ := stage.reading complete
  obtain ⟨outputs, left, takenNow, ran, final, finalRewound, whole, finished⟩ :=
    Reading.readRun reading rewound wanted
  have counted := final.counted
  refine ⟨outputs, left, ran, whole, counted, ?_, ?_, ?_⟩
  · cases held : left.own.partialChunk.data with
    | none => exact finalRewound held
    | some data =>
        rcases final.half with unheld | ⟨-, inside⟩
        · rw [unheld] at held
          cases held
        · exact inside
  · intro len positive more
    have size : (left.unread.take len).length = min len left.unread.length := List.length_take
    have some' : 0 < (left.unread.take len).length := by omega
    obtain ⟨next, removed, onward⟩ := final.removeBytes_eq some'
    refine ⟨_, next, final.readData_eq positive, by omega, removed, ?_⟩
    have total := onward.bytes.trans final.bytes.symm
    rw [List.append_assoc, size, ← List.take_eq_take_min] at total
    exact List.append_cancel_left total
  · intro enough
    have done := finished enough
    rw [done] at counted whole
    exact ⟨counted, by rw [← whole, List.append_nil]⟩

theorem read_as_stream_two_chunks : ∃ run : IrobRun, machine.Reachable run ∧
    ∃ outputs left, run.irob.readRun [1, 5] = some (outputs, left) ∧
      outputs.flatten ++ left.unread = [7, 8, 9] := by
  obtain ⟨run, ran, complete, bytes⟩ : ∃ run : IrobRun,
      machine.run ⟨ReceiverIrob.mk 1 [] [] 0, []⟩ twoChunkCalls = some run ∧
      run.irob.isComplete = some true ∧ run.irob.unread = [7, 8, 9] :=
    ⟨_, rfl, rfl, rfl⟩
  have start : Initial ⟨ReceiverIrob.mk 1 [] [] 0, []⟩ := .inr ⟨1, [], [], 0, rfl⟩
  have reached := Machine.Reachable.run (.initial start) ran
  have wanted : ∀ len ∈ [1, 5], 0 < len := by decide
  obtain ⟨outputs, left, ran, whole, -⟩ := (read_as_stream reached complete wanted).2
  exact ⟨run, reached, outputs, left, ran, whole.trans bytes⟩

end IrobRun

end Libcmm
