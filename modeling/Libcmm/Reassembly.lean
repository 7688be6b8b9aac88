import Libcmm.Tiling
import Libcmm.ReceiverIrob

/-! # Reassembly of one IROB

What the sender says about an IROB is an `IrobContent`: the blocks it has been
cut into so far and whether these are all. Against it a pending IROB of the
receiver is in one of two phases. While it is being received (`Receiving`) its
chunks fit the tiling of the blocks and its counters count them. From its
completion on it is read (`Reading`): what the application has taken and what the
IROB still holds are together the bytes of the content.

The operations of `PendingReceiverIROB` never trap in these phases and move an
IROB between them in this order only.
-/

namespace Libcmm

open Lib

/-- What the messages of one IROB say: its dependencies, its labels, the blocks
it has been cut into, and whether these are all of them. -/
structure IrobContent where
  deps : List IrobId
  sendLabels : Nat
  blocks : List (List Byte)
  final : Bool

namespace IrobContent

/-- The bytes of an IROB. -/
def bytes (content : IrobContent) : List Byte := content.blocks.flatten

/-- The chunks of an IROB. -/
def chunks (content : IrobContent) (id : IrobId) : List IrobChunk := tile id 0 0 content.blocks

/-- A later content adds blocks, and none to an IROB whose end was announced. -/
structure Extends (later earlier : IrobContent) : Prop where
  blocks : earlier.blocks <+: later.blocks
  final : earlier.final = true → later.final = true ∧ later.blocks = earlier.blocks

theorem Extends.refl (content : IrobContent) : content.Extends content :=
  ⟨List.prefix_rfl, fun final => ⟨final, rfl⟩⟩

end IrobContent

namespace ReceiverIrob

/-- The chunks as a reassembly buffer. -/
def slots (irob : ReceiverIrob) : List (Option IrobChunk) := irob.chunks.map IrobChunk.slot

/-- The bytes the application has not taken yet. -/
def unread (irob : ReceiverIrob) : List Byte :=
  irob.own.partialChunk.bytes.drop irob.own.offset ++ irob.chunks.flatMap IrobChunk.bytes

/-- An IROB of which chunks of a content have arrived and none has been read. -/
structure Receiving (content : IrobContent) (irob : ReceiverIrob) : Prop where
  fits : Assembly.Fits irob.slots (content.chunks irob.id)
  holes : ∀ chunk ∈ irob.chunks, chunk.data = none → chunk = .zero
  last : ∀ chunk, irob.chunks.getLast? = some chunk → chunk.data.isSome = true
  chunkCount : irob.own.recvdChunks = Assembly.filled irob.slots
  byteCount : irob.own.recvdBytes = Assembly.weight IrobChunk.datalen irob.slots
  untouched : irob.own.numBytes = irob.own.recvdBytes ∧ irob.own.offset = 0 ∧
    irob.own.partialChunk.data = none
  ending : (irob.complete = false ∧ irob.own.expectedBytes = -1 ∧ irob.own.expectedChunks = -1) ∨
    (irob.complete = true ∧ content.final = true ∧
      irob.own.expectedBytes = content.bytes.length ∧
      irob.own.expectedChunks = content.blocks.length)

/-- A complete IROB of which some bytes have been taken. -/
structure Reading (content : IrobContent) (taken : List Byte) (irob : ReceiverIrob) : Prop where
  final : content.final = true
  complete : irob.complete = true
  byteCount : irob.own.expectedBytes = irob.own.recvdBytes
  chunkCount : irob.own.expectedChunks = irob.own.recvdChunks
  sized : ∀ chunk ∈ irob.chunks, chunk.data.isSome = true ∧ chunk.datalen = chunk.bytes.length
  half : irob.own.partialChunk.data = none ∨
    (irob.own.partialChunk.datalen = irob.own.partialChunk.bytes.length ∧
      irob.own.offset < irob.own.partialChunk.datalen)
  counted : irob.own.numBytes = irob.unread.length
  bytes : taken ++ irob.unread = content.bytes

variable {content : IrobContent} {irob : ReceiverIrob}

/-! ### Completeness -/

namespace Receiving

theorem filled_le (receiving : Receiving content irob) :
    Assembly.filled irob.slots ≤ content.blocks.length := by
  have bound := receiving.fits.filled_le
  rwa [IrobContent.chunks, length_tile] at bound

theorem weight_le (receiving : Receiving content irob) :
    Assembly.weight IrobChunk.datalen irob.slots ≤ content.bytes.length := by
  have bound := receiving.fits.weight_le IrobChunk.datalen
  rwa [IrobContent.chunks, sum_datalen_tile] at bound

/-- An IROB is complete when its end and all its chunks have arrived. -/
theorem isComplete_eq (receiving : Receiving content irob) :
    ∃ whole, irob.isComplete = some whole ∧
      (whole = true ↔ irob.complete = true ∧ irob.chunks = content.chunks irob.id) := by
  have chunkBound := receiving.filled_le
  have byteBound := receiving.weight_le
  have chunkCount := receiving.chunkCount
  have byteCount := receiving.byteCount
  unfold isComplete
  rcases receiving.ending with ⟨opened, noBytes, noChunks⟩ | ⟨closed, -, allBytes, allChunks⟩
  · rw [if_neg (by omega), if_neg (by omega)]
    refine ⟨_, rfl, ?_⟩
    simp only [opened, Bool.and_false, Bool.false_eq_true, false_and]
  · rw [if_neg (by omega), if_neg (by omega)]
    refine ⟨_, rfl, ?_⟩
    simp only [closed, Bool.and_true, Bool.and_eq_true, decide_eq_true_eq, true_and]
    constructor
    · rintro ⟨⟨-, counted⟩, -⟩
      have full : irob.slots = (content.chunks irob.id).map some :=
        receiving.fits.eq_map_some (by rw [IrobContent.chunks, length_tile]; omega)
      refine List.ext_getElem? fun index => ?_
      have same : irob.slots[index]? = ((content.chunks irob.id).map some)[index]? := by rw [full]
      rw [slots, List.getElem?_map, List.getElem?_map] at same
      cases left : irob.chunks[index]? with
      | none =>
          rw [left] at same
          exact (Option.map_eq_none_iff.mp same.symm).symm
      | some chunk =>
          rw [left] at same
          obtain ⟨stored, listed, equal⟩ := Option.map_eq_some_iff.mp same.symm
          rw [listed, (IrobChunk.eq_of_slot equal.symm).1]
    · intro arrived
      have held : ∀ chunk ∈ irob.chunks, chunk.data.isSome = true := by
        rw [arrived]
        intro chunk member
        obtain ⟨block, -, data, -⟩ := data_of_mem_tile member
        rw [data]
        rfl
      have full : irob.slots = (content.chunks irob.id).map some := by
        rw [slots]
        conv_rhs => rw [← arrived]
        exact List.map_congr_left fun chunk member => IrobChunk.slot_of_data (held chunk member)
      refine ⟨⟨?_, ?_⟩, List.all_eq_true.mpr held⟩
      · rw [allBytes, byteCount, full, Assembly.weight, List.map_map]
        simp only [Function.comp_def, Option.map_some, Option.getD_some]
        rw [IrobContent.chunks, sum_datalen_tile]
        rfl
      · rw [allChunks, chunkCount, full, Assembly.filled, List.countP_map]
        simp only [Function.comp_def, Option.isSome_some, List.countP_true, IrobContent.chunks,
          length_tile]

/-- A complete IROB is ready to be read from its first byte on. -/
theorem reading (receiving : Receiving content irob) (complete : irob.isComplete = some true) :
    Reading content [] irob := by
  obtain ⟨whole, same, exactly⟩ := receiving.isComplete_eq
  rw [complete] at same
  cases same
  obtain ⟨closed, arrived⟩ := exactly.mp rfl
  obtain ⟨unreadBytes, start, noHalf⟩ := receiving.untouched
  have counters : irob.own.expectedBytes = irob.own.recvdBytes ∧
      irob.own.expectedChunks = irob.own.recvdChunks := by
    unfold isComplete at complete
    split_ifs at complete
    simp only [Option.some.injEq, Bool.and_eq_true, decide_eq_true_eq] at complete
    exact complete.1.1
  have flat : irob.chunks.flatMap IrobChunk.bytes = content.bytes := by
    rw [arrived, List.flatMap_def, IrobContent.chunks, map_bytes_tile]
    rfl
  have unreadEq : irob.unread = content.bytes := by
    rw [unread, IrobChunk.bytes, noHalf, flat, start]
    rfl
  obtain ⟨opened, -⟩ | ⟨-, final, allBytes, -⟩ := receiving.ending
  · rw [closed] at opened
    cases opened
  · refine ⟨final, closed, counters.1, counters.2, ?_, .inl noHalf, ?_, unreadEq⟩
    · rw [arrived]
      intro chunk member
      obtain ⟨block, -, data, length, -⟩ := data_of_mem_tile member
      rw [IrobChunk.bytes, data]
      exact ⟨rfl, length⟩
    · rw [unreadBytes, unreadEq, ← counters.1, allBytes]

end Receiving

/-- An IROB that is being read stays complete. -/
theorem Reading.isComplete_eq {taken : List Byte} (reading : Reading content taken irob) :
    irob.isComplete = some true := by
  have bytes := reading.byteCount
  have chunks := reading.chunkCount
  unfold isComplete
  rw [if_neg (by omega), if_neg (by omega)]
  simp only [bytes, chunks, reading.complete, decide_true, Bool.and_true, Bool.true_and,
    Option.some.injEq, allChunksComplete, List.all_eq_true]
  exact fun chunk member => (reading.sized chunk member).1

/-! ### Arrivals -/

/-- A fresh placeholder fits any content. -/
theorem receiving_makePlaceholder (content : IrobContent) (id : IrobId) :
    Receiving content (makePlaceholder id : ReceiverIrob) :=
  ⟨trivial, fun _ member => (List.not_mem_nil member).elim, fun _ found => (nomatch found), rfl,
    rfl, ⟨rfl, rfl, rfl⟩, .inl ⟨rfl, rfl, rfl⟩⟩

/-- A fresh real IROB fits any content. -/
theorem receiving_mkBegun (content : IrobContent) (id : IrobId) (deps : List IrobId)
    (sendLabels : Nat) : Receiving content (mkBegun id deps sendLabels) :=
  ⟨trivial, fun _ member => (List.not_mem_nil member).elim, fun _ found => (nomatch found), rfl,
    rfl, ⟨rfl, rfl, rfl⟩, .inl ⟨rfl, rfl, rfl⟩⟩

/-- The phase depends on the buffer of an IROB, its counters and its end. -/
theorem Receiving.of_slots {other : ReceiverIrob} (receiving : Receiving content irob)
    (id : other.id = irob.id) (sameSlots : other.slots = irob.slots)
    (holes : ∀ chunk ∈ other.chunks, chunk.data = none → chunk = .zero)
    (complete : other.complete = irob.complete)
    (own : other.own = { irob.own with released := other.own.released }) :
    Receiving content other := by
  refine ⟨?_, holes, ?_, ?_, ?_, ?_, ?_⟩
  · rw [sameSlots, id]
    exact receiving.fits
  · intro chunk found
    have sameLast : other.slots.getLast? = irob.slots.getLast? := by rw [sameSlots]
    unfold slots at sameLast
    rw [List.getLast?_map, List.getLast?_map, found] at sameLast
    obtain ⟨stored, last, same⟩ := Option.map_eq_some_iff.mp sameLast.symm
    rw [IrobChunk.slot_of_data (receiving.last stored last)] at same
    exact (IrobChunk.eq_of_slot same.symm).1 ▸ receiving.last stored last
  · rw [sameSlots, own]
    exact receiving.chunkCount
  · rw [sameSlots, own]
    exact receiving.byteCount
  · rw [own]
    exact receiving.untouched
  · rw [own, complete]
    exact receiving.ending

/-- The phases do not depend on the links of an IROB. -/
theorem Receiving.congr {other : ReceiverIrob} (receiving : Receiving content irob)
    (id : other.id = irob.id) (chunks : other.chunks = irob.chunks)
    (complete : other.complete = irob.complete)
    (own : other.own = { irob.own with released := other.own.released }) :
    Receiving content other :=
  receiving.of_slots id (by rw [slots, chunks, slots]) (chunks ▸ receiving.holes) complete own

theorem Reading.congr {other : ReceiverIrob} {taken : List Byte}
    (reading : Reading content taken irob) (chunks : other.chunks = irob.chunks)
    (complete : other.complete = irob.complete)
    (own : other.own = { irob.own with released := other.own.released }) :
    Reading content taken other := by
  have sameUnread : other.unread = irob.unread := by rw [unread, chunks, own, unread]
  refine ⟨reading.final, complete.trans reading.complete, ?_, ?_, ?_, ?_, ?_, ?_⟩
  · rw [own]
    exact reading.byteCount
  · rw [own]
    exact reading.chunkCount
  · rw [chunks]
    exact reading.sized
  · rw [own]
    exact reading.half
  · rw [sameUnread, own]
    exact reading.counted
  · rw [sameUnread]
    exact reading.bytes

/-- The slot under a sequence number. -/
theorem held_slots (irob : ReceiverIrob) (seqno : Nat) :
    Assembly.held irob.slots seqno = (irob.chunks.getD seqno .zero).slot := by
  unfold Assembly.held slots
  rw [List.getElem?_map, List.getD_eq_getElem?_getD]
  cases irob.chunks[seqno]? <;> rfl

/-- Storing a chunk with data is storing it in the buffer. -/
theorem map_slot_storeChunk (chunks : List IrobChunk) {chunk : IrobChunk}
    (present : chunk.data.isSome = true) :
    (storeChunk chunks chunk).map IrobChunk.slot =
      Assembly.put (chunks.map IrobChunk.slot) chunk.seqno chunk := by
  unfold storeChunk
  generalize chunk.seqno = index
  induction chunks generalizing index with
  | nil =>
      simp only [List.nil_append, List.length_nil, Nat.sub_zero, List.map_nil]
      induction index with
      | zero => simp [Assembly.put, IrobChunk.slot_of_data present]
      | succ next ih =>
          rw [List.replicate_succ, List.set_cons_succ, List.map_cons, ih]
          rfl
  | cons first rest ih =>
      cases index with
      | zero => simp [Assembly.put, IrobChunk.slot_of_data present]
      | succ next =>
          have step := ih next
          simp only [List.cons_append, List.set_cons_succ, List.map_cons, List.length_cons,
            Nat.reduceSubDiff, Assembly.put, List.cons.injEq, true_and]
          exact step

theorem mem_storeChunk {chunks : List IrobChunk} {chunk query : IrobChunk}
    (member : query ∈ storeChunk chunks chunk) :
    query = chunk ∨ query ∈ chunks ∨ query = .zero := by
  rcases List.mem_or_eq_of_mem_set member with old | new
  · rcases List.mem_append.mp old with listed | padded
    · exact .inr (.inl listed)
    · exact .inr (.inr (List.eq_of_mem_replicate padded))
  · exact .inl new

theorem length_storeChunk (chunks : List IrobChunk) (chunk : IrobChunk) :
    (storeChunk chunks chunk).length = max chunks.length (chunk.seqno + 1) := by
  unfold storeChunk
  rw [List.length_set, List.length_append, List.length_replicate]
  omega

/-- The last entry of the buffer stays one that has arrived. -/
theorem last_storeChunk {chunks : List IrobChunk} {chunk : IrobChunk}
    (present : chunk.data.isSome = true)
    (last : ∀ query, chunks.getLast? = some query → query.data.isSome = true) :
    ∀ query, (storeChunk chunks chunk).getLast? = some query → query.data.isSome = true := by
  intro query found
  rw [List.getLast?_eq_getElem?, length_storeChunk] at found
  unfold storeChunk at found
  rw [List.getElem?_set] at found
  split_ifs at found with at' inside
  · cases found
    exact present
  · have long : chunk.seqno + 1 < chunks.length := by omega
    rw [List.getElem?_append_left (by omega)] at found
    refine last query ?_
    rw [List.getLast?_eq_getElem?]
    rwa [Nat.max_eq_left (by omega)] at found

/-- A chunk that `add_chunk` reports as taken is held. -/
theorem held_addChunk {after : ReceiverIrob} {chunk : IrobChunk}
    (present : chunk.data.isSome = true) (added : irob.addChunk chunk = some (after, true)) :
    (Assembly.held after.slots chunk.seqno).isSome = true := by
  rcases addChunk_cases added with same | ⟨-, -, -, shape⟩
  · -- a chunk taken without a change was there already
    cases (show after = irob from same)
    rw [held_slots]
    unfold ReceiverIrob.addChunk at added
    split at added
    · cases added
    · cases added
    · simp only at added
      split_ifs at added with _ _ arrived
      · cases added
      · rw [IrobChunk.slot_of_data arrived]
        rfl
      · exact absurd (congrArg (·.own.recvdChunks) (Prod.mk.inj (Option.some.inj added)).1)
          (by simp)
  · rw [show after = _ from shape]
    unfold slots
    simp only
    rw [map_slot_storeChunk _ present, Assembly.held_put, if_pos rfl]
    rfl

/-- What is held stays held when chunks are added. -/
theorem held_addChunk_of_held {after : ReceiverIrob} {chunk : IrobChunk} {fresh : Bool}
    {seqno : Nat} (present : chunk.data.isSome = true)
    (added : irob.addChunk chunk = some (after, fresh))
    (held : (Assembly.held irob.slots seqno).isSome = true) :
    (Assembly.held after.slots seqno).isSome = true := by
  rcases addChunk_cases added with same | ⟨-, -, -, shape⟩
  · rw [show after = irob from same]
    exact held
  · rw [show after = _ from shape]
    unfold slots
    simp only
    rw [map_slot_storeChunk _ present, Assembly.held_put]
    split_ifs
    · rfl
    · exact held

/-- A chunk of the content is taken by an incomplete IROB. -/
theorem Receiving.addChunk (receiving : Receiving content irob)
    (incomplete : irob.isComplete = some false) (chunk : IrobChunk)
    (listed : (content.chunks irob.id)[chunk.seqno]? = some chunk) :
    ∃ added, irob.addChunk chunk = some (added, true) ∧ Receiving content added := by
  obtain ⟨block, -, data, -⟩ := data_of_mem_tile (List.mem_of_getElem? listed)
  have present : chunk.data.isSome = true := by
    rw [data]
    rfl
  have inside : chunk.seqno < content.blocks.length := by
    obtain ⟨bound, -⟩ := List.getElem?_eq_some_iff.mp listed
    rwa [IrobContent.chunks, length_tile] at bound
  have expected : ¬(irob.own.expectedChunks ≠ -1 ∧
      toULong irob.own.expectedChunks ≤ chunk.seqno) := by
    rintro ⟨known, short⟩
    rcases receiving.ending with ⟨-, -, unknown⟩ | ⟨-, -, -, allChunks⟩
    · exact known unknown
    · rw [allChunks, toULong_of_nonneg (Int.natCast_nonneg _)] at short
      omega
  unfold ReceiverIrob.addChunk
  rw [incomplete]
  simp only [receiving.untouched.1, ne_eq, not_true_eq_false, ↓reduceIte, if_neg expected]
  split_ifs with arrived
  · -- a chunk seen before is the same chunk of the tiling
    refine ⟨irob, ?_, receiving⟩
    have stored : Assembly.held irob.slots chunk.seqno =
        some (irob.chunks.getD chunk.seqno .zero) := by
      rw [held_slots, IrobChunk.slot_of_data arrived]
    have same := receiving.fits.held_eq stored
    rw [listed] at same
    simp only [← Option.some.inj same, and_self, decide_true]
  · have hole : Assembly.held irob.slots chunk.seqno = none := by
      rw [held_slots, IrobChunk.slot_eq_none]
      simpa using arrived
    have newSlots := map_slot_storeChunk irob.chunks present
    refine ⟨_, rfl, ?_, ?_, ?_, ?_, ?_, ⟨?_, receiving.untouched.2⟩, receiving.ending⟩
    · unfold slots
      simp only
      rw [newSlots]
      exact Assembly.fits_put receiving.fits listed
    · intro query member null
      rcases mem_storeChunk member with rfl | old | zero
      · rw [null] at present
        cases present
      · exact receiving.holes query old null
      · exact zero
    · exact last_storeChunk present receiving.last
    · unfold slots
      simp only
      rw [newSlots, receiving.chunkCount]
      exact (congrArg Nat.cast (Assembly.filled_put hole)).symm
    · unfold slots
      simp only
      rw [newSlots, receiving.byteCount]
      exact (congrArg Nat.cast (Assembly.weight_put hole)).symm
    · rfl

/-- The end of the content is taken by an incomplete IROB. -/
theorem Receiving.finish (receiving : Receiving content irob)
    (incomplete : irob.isComplete = some false) (final : content.final = true) :
    ∃ finished fresh,
      irob.finish content.bytes.length content.blocks.length = some (finished, fresh) ∧
        Receiving content finished := by
  unfold ReceiverIrob.finish
  rw [incomplete]
  rcases receiving.ending with ⟨-, noBytes, noChunks⟩ | ⟨closed, -, allBytes, allChunks⟩
  · simp only [noBytes, noChunks, or_self, and_self, not_true_eq_false, ↓reduceIte]
    exact ⟨_, _, rfl, receiving.fits, receiving.holes, receiving.last, receiving.chunkCount,
      receiving.byteCount, receiving.untouched, .inr ⟨rfl, final, rfl, rfl⟩⟩
  · rw [if_neg (by omega), if_pos ⟨allBytes, allChunks⟩]
    exact ⟨_, _, rfl, receiving.fits, receiving.holes, receiving.last, receiving.chunkCount,
      receiving.byteCount, receiving.untouched, .inr ⟨rfl, final, allBytes, allChunks⟩⟩

/-! ### Replacing a placeholder -/

/-- An IROB that has taken over the first chunks of a placeholder. -/
structure Refilled (content : IrobContent) (done : List IrobChunk) (irob : ReceiverIrob) : Prop where
  opened : irob.complete = false ∧ irob.own.expectedBytes = -1 ∧ irob.own.expectedChunks = -1
  untouched : irob.own.numBytes = irob.own.recvdBytes ∧ 0 ≤ irob.own.recvdBytes
  holes : ∀ chunk ∈ irob.chunks, chunk.data = none → chunk = .zero
  short : irob.chunks.length ≤ done.length
  held : ∀ seqno, Assembly.held irob.slots seqno = Assembly.held (done.map IrobChunk.slot) seqno

theorem Refilled.isComplete_eq {done : List IrobChunk} (refilled : Refilled content done irob) :
    irob.isComplete = some false := by
  obtain ⟨opened, noBytes, noChunks⟩ := refilled.opened
  unfold isComplete
  rw [if_neg (by omega), if_neg (by omega), opened]
  simp only [Bool.and_false]

/-- A null chunk stored where nothing has arrived leaves no trace. -/
theorem held_storeChunk_zero {chunks : List IrobChunk}
    (arrived : ¬((chunks.getD 0 .zero).data.isSome = true)) (seqno : Nat) :
    ((storeChunk chunks .zero).getD seqno .zero).slot = (chunks.getD seqno .zero).slot := by
  have first : IrobChunk.zero.seqno = 0 := rfl
  simp only [List.getD_eq_getElem?_getD, storeChunk]
  rw [List.getElem?_set]
  by_cases origin : IrobChunk.zero.seqno = seqno
  · rw [if_pos origin, ← origin, first]
    have hole : (chunks.getD 0 .zero).slot = none := by
      rw [IrobChunk.slot_eq_none]
      simpa using arrived
    rw [List.getD_eq_getElem?_getD] at hole
    rw [hole]
    split_ifs <;> rfl
  · rw [if_neg origin, List.getElem?_append]
    split_ifs with inside
    · rfl
    · rw [List.getElem?_eq_none (not_lt.mp inside), List.getElem?_replicate]
      split_ifs <;> rfl

namespace Refilled

variable {done : List IrobChunk} {chunk : IrobChunk}

/-- The holes of the buffer after a chunk whose own null entry is zero. -/
theorem holes_storeChunk (refilled : Refilled content done irob)
    (zero : chunk.data = none → chunk = .zero) :
    ∀ query ∈ storeChunk irob.chunks chunk, query.data = none → query = .zero := by
  intro query member null
  rcases mem_storeChunk member with rfl | old | none
  · exact zero null
  · exact refilled.holes query old null
  · exact none

/-- The replay of a null chunk. It has sequence number zero and leaves no trace. -/
theorem addChunk_null (refilled : Refilled content done irob) (data : chunk.data = none)
    (zero : chunk = .zero) :
    ∃ added fresh, irob.addChunk chunk = some (added, fresh) ∧
      Refilled content (done ++ [chunk]) added := by
  have unchanged : ∀ seqno, Assembly.held ((done ++ [chunk]).map IrobChunk.slot) seqno =
      Assembly.held (done.map IrobChunk.slot) seqno := by
    intro seqno
    rw [List.map_append, List.map_singleton, Assembly.held_append_singleton,
      IrobChunk.slot_eq_none.mpr data]
    split_ifs with same
    · rw [same, Assembly.held_length]
    · rfl
  have counter := refilled.untouched.2
  have bound := refilled.short
  unfold ReceiverIrob.addChunk
  rw [refilled.isComplete_eq]
  simp only [refilled.untouched.1, refilled.opened.2.2, ne_eq, not_true_eq_false, ↓reduceIte,
    false_and]
  split_ifs with arrived
  · refine ⟨irob, _, rfl, refilled.opened, refilled.untouched, refilled.holes, ?_, ?_⟩
    · rw [List.length_append]
      exact Nat.le_add_right_of_le refilled.short
    · intro seqno
      rw [unchanged]
      exact refilled.held seqno
  · refine ⟨_, _, rfl, ⟨refilled.opened.1, refilled.opened.2.1, rfl⟩, ⟨rfl, ?_⟩,
      refilled.holes_storeChunk fun _ => zero, ?_, ?_⟩
    · simp only
      omega
    · simp only [length_storeChunk, zero, IrobChunk.zero, List.length_append,
        List.length_singleton]
      omega
    · intro seqno
      rw [zero] at arrived
      rw [unchanged, ← refilled.held, held_slots, held_slots]
      simp only [zero]
      exact held_storeChunk_zero arrived seqno

/-- The replay of a chunk with data, which comes with the next sequence number. -/
theorem addChunk_data (refilled : Refilled content done irob) (present : chunk.data.isSome = true)
    (placed : chunk.seqno = done.length) :
    ∃ added fresh, irob.addChunk chunk = some (added, fresh) ∧
      Refilled content (done ++ [chunk]) added := by
  have counter := refilled.untouched.2
  have bound := refilled.short
  have beyond : Assembly.held (done.map IrobChunk.slot) done.length = none := by
    have last := Assembly.held_length (done.map IrobChunk.slot)
    rwa [List.length_map] at last
  have hole : ¬((irob.chunks.getD chunk.seqno .zero).data.isSome = true) := by
    have free := (held_slots irob chunk.seqno).symm.trans (refilled.held chunk.seqno)
    rw [placed, beyond, IrobChunk.slot_eq_none] at free
    rw [placed, free]
    exact Bool.false_ne_true
  have real : chunk.data = none → chunk = .zero := by
    intro null
    rw [null] at present
    cases present
  unfold ReceiverIrob.addChunk
  rw [refilled.isComplete_eq]
  simp only [refilled.untouched.1, refilled.opened.2.2, ne_eq, not_true_eq_false, ↓reduceIte,
    false_and]
  rw [if_neg hole]
  refine ⟨_, _, rfl, ⟨refilled.opened.1, refilled.opened.2.1, rfl⟩, ⟨rfl, ?_⟩,
    refilled.holes_storeChunk real, ?_, ?_⟩
  · simp only
    omega
  · simp only [length_storeChunk, placed, List.length_append, List.length_singleton]
    omega
  · intro seqno
    unfold slots
    simp only
    rw [map_slot_storeChunk _ present, Assembly.held_put, placed, List.map_append,
      List.map_singleton, Assembly.held_append_singleton, List.length_map,
      IrobChunk.slot_of_data present]
    split_ifs
    · rfl
    · exact refilled.held seqno

/-- The replay of one chunk. A null chunk of the placeholder is replayed with
sequence number zero. -/
theorem addChunk (refilled : Refilled content done irob)
    (zero : chunk.data = none → chunk = .zero)
    (placed : chunk.data.isSome = true → chunk.seqno = done.length) :
    ∃ added fresh, irob.addChunk chunk = some (added, fresh) ∧
      Refilled content (done ++ [chunk]) added := by
  cases data : chunk.data with
  | none => exact refilled.addChunk_null data (zero data)
  | some bytes =>
      have present : chunk.data.isSome = true := by
        rw [data]
        rfl
      exact refilled.addChunk_data present (placed present)

end Refilled

/-- Two buffers of one length that hold the same are equal. -/
theorem slots_eq_of_held {first second : List (Option IrobChunk)}
    (length : first.length = second.length)
    (held : ∀ seqno, Assembly.held first seqno = Assembly.held second seqno) : first = second := by
  refine List.ext_getElem? fun index => ?_
  have same := held index
  unfold Assembly.held at same
  by_cases inside : index < first.length
  · rw [List.getElem?_eq_getElem inside, List.getElem?_eq_getElem (length ▸ inside)] at same ⊢
    exact congrArg some same
  · rw [List.getElem?_eq_none (not_lt.mp inside),
      List.getElem?_eq_none (length ▸ not_lt.mp inside)]

/-- Two lists of chunks whose null entries are all zero agree if their buffers do. -/
theorem chunks_eq_of_slots {first second : List IrobChunk}
    (firstHoles : ∀ chunk ∈ first, chunk.data = none → chunk = .zero)
    (secondHoles : ∀ chunk ∈ second, chunk.data = none → chunk = .zero)
    (same : first.map IrobChunk.slot = second.map IrobChunk.slot) : first = second := by
  refine List.ext_getElem? fun index => ?_
  have entry : (first.map IrobChunk.slot)[index]? = (second.map IrobChunk.slot)[index]? := by
    rw [same]
  rw [List.getElem?_map, List.getElem?_map] at entry
  cases left : first[index]? with
  | none =>
      rw [left] at entry
      exact (Option.map_eq_none_iff.mp entry.symm).symm
  | some chunk =>
      rw [left] at entry
      obtain ⟨other, right, equal⟩ := Option.map_eq_some_iff.mp entry.symm
      rw [right]
      cases slot : chunk.slot with
      | none =>
          have null := IrobChunk.slot_eq_none.mp slot
          have otherNull := IrobChunk.slot_eq_none.mp (equal.trans slot)
          rw [firstHoles chunk (List.mem_of_getElem? left) null,
            secondHoles other (List.mem_of_getElem? right) otherNull]
      | some stored =>
          rw [(IrobChunk.eq_of_slot slot).1, (IrobChunk.eq_of_slot (equal.trans slot)).1]

/-- A real IROB takes over the chunks of its placeholder and what it counted. -/
theorem subsume_begun {id : IrobId} {deps : List IrobId} {sendLabels : Nat}
    (holes : ∀ chunk ∈ irob.chunks, chunk.data = none → chunk = .zero)
    (reaches : ∀ chunk, irob.chunks.getLast? = some chunk → chunk.data.isSome = true)
    (placed : ∀ seqno chunk, Assembly.held irob.slots seqno = some chunk → chunk.seqno = seqno) :
    ∃ merged, (mkBegun id deps sendLabels).subsume irob = some merged ∧ merged.id = id ∧
      merged.chunks = irob.chunks ∧ merged.complete = irob.complete ∧
      merged.own = { irob.own with released := false } := by
  have replay : ∀ (rest done : List IrobChunk) (start : ReceiverIrob), irob.chunks = done ++ rest →
      Refilled ⟨[], 0, [], false⟩ done start → start.id = id → start.own.released = false →
      ∃ filled, rest.foldlM (fun sofar chunk => (ReceiverIrob.addChunk sofar chunk).map Prod.fst)
        start = some filled ∧ Refilled ⟨[], 0, [], false⟩ irob.chunks filled ∧ filled.id = id ∧
          filled.own.released = false := by
    intro rest
    induction rest with
    | nil =>
        intro done start shape refilled sameId unreleased
        rw [List.append_nil] at shape
        exact ⟨start, rfl, shape ▸ refilled, sameId, unreleased⟩
    | cons chunk rest ih =>
        intro done start shape refilled sameId unreleased
        have member : chunk ∈ irob.chunks := by
          rw [shape]
          exact List.mem_append_right _ List.mem_cons_self
        obtain ⟨added, fresh, adding, next⟩ := refilled.addChunk (holes chunk member) (by
          intro present
          apply placed
          rw [held_slots, shape, List.getD_eq_getElem?_getD, List.getElem?_append_right
            (le_refl _), Nat.sub_self]
          exact IrobChunk.slot_of_data present)
        have kept : added.id = start.id ∧ added.own.released = start.own.released := by
          rcases addChunk_cases adding with same | ⟨-, -, -, same⟩
          · rw [show added = start from same]
            exact ⟨rfl, rfl⟩
          · simp only at same
            rw [same]
            exact ⟨rfl, rfl⟩
        obtain ⟨filled, folded, done', filledId, unreleased'⟩ := ih (done ++ [chunk]) added
          (by rw [shape, List.append_assoc, List.singleton_append]) next (kept.1.trans sameId)
          (kept.2.trans unreleased)
        refine ⟨filled, ?_, done', filledId, unreleased'⟩
        rw [List.foldlM_cons, adding]
        exact folded
  obtain ⟨filled, folded, refilled, filledId, unreleased⟩ := replay irob.chunks []
    { mkBegun id deps sendLabels with
      dependents := (mkBegun id deps sendLabels).dependents.insertAll irob.dependents.toList }
    rfl ⟨⟨rfl, rfl, rfl⟩, ⟨rfl, le_refl _⟩, fun _ member => (List.not_mem_nil member).elim,
      le_refl _, fun _ => rfl⟩ rfl rfl
  have sameSlots : filled.slots = irob.slots := by
    refine slots_eq_of_held ?_ refilled.held
    unfold slots
    rw [List.length_map, List.length_map]
    refine le_antisymm refilled.short ?_
    -- the last chunk has arrived, so the copy reaches as far
    by_contra shorter
    rw [not_le] at shorter
    have lastHeld := refilled.held (irob.chunks.length - 1)
    have found : ∃ chunk, irob.chunks.getLast? = some chunk := by
      cases shape : irob.chunks.getLast? with
      | some chunk => exact ⟨chunk, rfl⟩
      | none =>
          rw [List.getLast?_eq_none_iff.mp shape] at shorter
          exact (Nat.not_lt_zero _ shorter).elim
    obtain ⟨chunk, last⟩ := found
    have present := reaches chunk last
    rw [List.getLast?_eq_getElem?] at last
    unfold Assembly.held at lastHeld
    rw [List.getElem?_map, last, Option.map_some, IrobChunk.slot_of_data present, slots,
      List.getElem?_eq_none (by rw [List.length_map]; omega)] at lastHeld
    cases lastHeld
  refine ⟨{ filled with
    complete := irob.complete
    own := { irob.own with released := filled.own.released } }, ?_, filledId,
    chunks_eq_of_slots refilled.holes holes sameSlots, rfl, ?_⟩
  · unfold ReceiverIrob.subsume PendingIrob.subsume
    rw [Option.map_eq_some_iff]
    refine ⟨{ filled with complete := irob.complete }, ?_, rfl⟩
    exact Option.bind_eq_some_iff.mpr ⟨filled, folded, rfl⟩
  · simp only [unreleased]

/-- A real IROB takes over what its placeholder has received. -/
theorem Receiving.subsume {id : IrobId} {deps : List IrobId} {sendLabels : Nat}
    (receiving : Receiving content irob) (named : irob.id = id) :
    ∃ merged, (mkBegun id deps sendLabels).subsume irob = some merged ∧
      Receiving content merged ∧ merged.own.released = false := by
  have placed : ∀ seqno chunk, Assembly.held irob.slots seqno = some chunk →
      chunk.seqno = seqno := by
    intro seqno chunk stored
    have listed := receiving.fits.held_eq stored
    rw [IrobContent.chunks, getElem?_tile] at listed
    obtain ⟨block, -, rfl⟩ := Option.map_eq_some_iff.mp listed
    exact Nat.zero_add seqno
  obtain ⟨merged, merging, mergedId, chunks, complete, own⟩ :=
    subsume_begun receiving.holes receiving.last placed
  refine ⟨merged, merging, receiving.congr (mergedId.trans named.symm) chunks complete ?_, ?_⟩
  · rw [own]
  · rw [own]

/-! ### Growth of the content -/

theorem Receiving.extend {later : IrobContent} (receiving : Receiving content irob)
    (extends' : later.Extends content) : Receiving later irob := by
  refine ⟨?_, receiving.holes, receiving.last, receiving.chunkCount, receiving.byteCount,
    receiving.untouched, ?_⟩
  · obtain ⟨more, shape⟩ := extends'.blocks
    rw [IrobContent.chunks, ← shape, tile_append]
    exact receiving.fits.append _
  · rcases receiving.ending with opened | closed
    · exact .inl opened
    · obtain ⟨final, same⟩ := extends'.final closed.2.1
      rw [IrobContent.bytes, same]
      exact .inr ⟨closed.1, final, closed.2.2⟩

theorem Reading.extend {later : IrobContent} {taken : List Byte}
    (reading : Reading content taken irob) (extends' : later.Extends content) :
    Reading later taken irob := by
  obtain ⟨final, same⟩ := extends'.final reading.final
  refine ⟨final, reading.complete, reading.byteCount, reading.chunkCount, reading.sized,
    reading.half, reading.counted, ?_⟩
  rw [IrobContent.bytes, same]
  exact reading.bytes

/-! ### Reading -/

/-- The copying loop reads a run of bytes across chunks. -/
theorem copyChunks_eq (chunks : List IrobChunk) (len : Nat)
    (sized : ∀ chunk ∈ chunks, chunk.datalen = chunk.bytes.length) :
    copyChunks len chunks = (chunks.flatMap IrobChunk.bytes).take len := by
  induction chunks generalizing len with
  | nil => simp only [copyChunks, List.flatMap_nil, List.take_nil]
  | cons chunk rest ih =>
      unfold copyChunks
      rw [ih _ fun other member => sized other (List.mem_cons_of_mem _ member),
        sized chunk List.mem_cons_self, List.flatMap_cons, List.take_append]
      split_ifs with zero
      · simp only [zero, List.take_zero, Nat.zero_sub, List.append_nil]
      · rw [← List.take_take, List.take_length]
        congr 2
        omega

/-- The popping loop drops a run of bytes across chunks. -/
theorem popChunks_eq (chunks : List IrobChunk) (len : Nat)
    (sized : ∀ chunk ∈ chunks, chunk.datalen = chunk.bytes.length) :
    (popChunks len chunks).1 = min len (chunks.flatMap IrobChunk.bytes).length ∧
    (∀ chunk ∈ (popChunks len chunks).2.2, chunk ∈ chunks) ∧
    match (popChunks len chunks).2.1 with
    | none => (popChunks len chunks).2.2.flatMap IrobChunk.bytes =
        (chunks.flatMap IrobChunk.bytes).drop len
    | some (half, read) => half ∈ chunks ∧ read < half.datalen ∧
        half.bytes.drop read ++ (popChunks len chunks).2.2.flatMap IrobChunk.bytes =
          (chunks.flatMap IrobChunk.bytes).drop len := by
  induction chunks generalizing len with
  | nil => simp only [popChunks, List.flatMap_nil, List.length_nil, Nat.min_zero,
      List.not_mem_nil, imp_self, implies_true, List.drop_nil, and_self]
  | cons chunk rest ih =>
      have size := sized chunk List.mem_cons_self
      obtain ⟨count, subset, left⟩ := ih (len - chunk.datalen)
        fun other member => sized other (List.mem_cons_of_mem _ member)
      unfold popChunks
      split_ifs with zero inside
      · rw [zero]
        exact ⟨(Nat.zero_min _).symm, fun _ member => member, rfl⟩
      · refine ⟨?_, fun _ member => List.mem_cons_of_mem _ member, List.mem_cons_self, inside, ?_⟩
        · rw [List.flatMap_cons, List.length_append, ← size]
          simp only
          omega
        · rw [List.flatMap_cons, List.drop_append_of_le_length (by omega)]
      · refine ⟨?_, fun other member => List.mem_cons_of_mem _ (subset other member), ?_⟩
        · rw [List.flatMap_cons, List.length_append, ← size]
          simp only [count]
          omega
        · have dropped : ((chunk :: rest).flatMap IrobChunk.bytes).drop len =
              (rest.flatMap IrobChunk.bytes).drop (len - chunk.datalen) := by
            rw [List.flatMap_cons, List.drop_append, List.drop_eq_nil_of_le (by omega), size,
              List.nil_append]
          rw [dropped]
          simp only
          cases stopped : (popChunks (len - chunk.datalen) rest).2.1 with
          | none =>
              rw [stopped] at left
              exact left
          | some half =>
              rw [stopped] at left
              exact ⟨List.mem_cons_of_mem _ left.1, left.2⟩

namespace Reading

variable {taken : List Byte}

/-- A call of `read_data` copies the next bytes. -/
theorem readData_eq (reading : Reading content taken irob) {len : Nat} (wanted : 0 < len) :
    irob.readData len = some (irob.unread.take len) := by
  have copied : ∀ len, copyChunks len irob.chunks =
      (irob.chunks.flatMap IrobChunk.bytes).take len := fun len =>
    copyChunks_eq irob.chunks len fun chunk member => (reading.sized chunk member).2
  unfold readData unread
  cases data : irob.own.partialChunk.data with
  | none =>
      simp only [IrobChunk.bytes, data, Option.getD_none, List.drop_nil, List.nil_append]
      rw [copied]
  | some bytes =>
      rcases reading.half with absent | ⟨size, inside⟩
      · rw [data] at absent
        cases absent
      · have length : irob.own.partialChunk.datalen = bytes.length := by
          rw [size, IrobChunk.bytes, data]
          rfl
        simp only [IrobChunk.bytes, data, Option.getD_some]
        rw [if_neg (by omega), copied, List.take_append, List.length_drop, ← length]
        congr 2
        · by_cases whole : len ≤ irob.own.partialChunk.datalen - irob.own.offset
          · rw [Nat.min_eq_left whole]
          · rw [Nat.min_eq_right (by omega), List.take_of_length_le (by
              rw [List.length_drop]; omega), List.take_of_length_le (by
              rw [List.length_drop]; omega)]
        · congr 1
          omega

/-- The popping loop takes bytes from an IROB without a chunk half read. -/
theorem removeChunks (reading : Reading content taken irob)
    (noHalf : irob.own.partialChunk.data = none) (len : Nat) :
    Reading content (taken ++ irob.unread.take len) (irob.removeChunks len) := by
  have flat : irob.unread = irob.chunks.flatMap IrobChunk.bytes := by
    rw [unread, IrobChunk.bytes, noHalf, Option.getD_none, List.drop_nil, List.nil_append]
  obtain ⟨count, subset, left⟩ := popChunks_eq irob.chunks len
    fun chunk member => (reading.sized chunk member).2
  have dropped : taken ++ irob.unread.take len ++ irob.unread.drop len = content.bytes := by
    rw [List.append_assoc, List.take_append_drop]
    exact reading.bytes
  have counted := reading.counted
  rw [flat] at dropped counted ⊢
  unfold ReceiverIrob.removeChunks
  rcases popped : popChunks len irob.chunks with ⟨removed, _ | ⟨half, read⟩, rest⟩
  · rw [popped] at count subset left
    simp only at count subset left
    have newUnread : irob.own.partialChunk.bytes.drop irob.own.offset ++
        rest.flatMap IrobChunk.bytes = (irob.chunks.flatMap IrobChunk.bytes).drop len := by
      rw [IrobChunk.bytes, noHalf, left, Option.getD_none, List.drop_nil, List.nil_append]
    refine ⟨reading.final, reading.complete, reading.byteCount, reading.chunkCount,
      fun chunk member => reading.sized chunk (subset chunk member), .inl noHalf, ?_, ?_⟩
    · simp only [unread, newUnread, List.length_drop]
      omega
    · simp only [unread, newUnread]
      exact dropped
  · rw [popped] at count subset left
    simp only at count subset left
    refine ⟨reading.final, reading.complete, reading.byteCount, reading.chunkCount,
      fun chunk member => reading.sized chunk (subset chunk member),
      .inr ⟨(reading.sized half left.1).2, left.2.1⟩, ?_, ?_⟩
    · simp only [unread, left.2.2, List.length_drop]
      omega
    · simp only [unread, left.2.2]
      exact dropped

/-- A call of `remove_bytes` takes the next bytes. -/
theorem removeBytes_eq (reading : Reading content taken irob) {len : Nat} (some' : 0 < len) :
    ∃ after, irob.removeBytes len = some after ∧
      Reading content (taken ++ irob.unread.take len) after := by
  unfold ReceiverIrob.removeBytes
  split_ifs with noHalf
  · exact ⟨_, rfl, reading.removeChunks (Option.isNone_iff_eq_none.mp noHalf) len⟩
  · rcases reading.half with absent | ⟨size, inside⟩
    · rw [absent] at noHalf
      exact (noHalf rfl).elim
    simp only
    rw [if_neg (by omega)]
    have shape : irob.unread = irob.own.partialChunk.bytes.drop irob.own.offset ++
        irob.chunks.flatMap IrobChunk.bytes := rfl
    have length : (irob.own.partialChunk.bytes.drop irob.own.offset).length =
        irob.own.partialChunk.datalen - irob.own.offset := by rw [List.length_drop, size]
    have counted := reading.counted
    split_ifs with whole
    · -- the rest of the half-read chunk goes first, then whole chunks
      have finished : Reading content
          (taken ++ irob.own.partialChunk.bytes.drop irob.own.offset)
          ({ irob with own := { irob.own with
            partialChunk := { irob.own.partialChunk with data := none, datalen := 0 }
            offset := 0
            numBytes := irob.own.numBytes -
              (irob.own.partialChunk.datalen - irob.own.offset : Nat) } } : ReceiverIrob) := by
        refine ⟨reading.final, reading.complete, reading.byteCount, reading.chunkCount,
          reading.sized, .inl rfl, ?_, ?_⟩
        · rw [shape, List.length_append, length] at counted
          simp only [unread, IrobChunk.bytes, Option.getD_none, List.drop_nil, List.nil_append]
          rw [counted]
          omega
        · simp only [unread, IrobChunk.bytes, Option.getD_none, List.drop_nil, List.nil_append]
          rw [List.append_assoc]
          exact reading.bytes
      refine ⟨_, rfl, ?_⟩
      have next := finished.removeChunks rfl
        (len - (irob.own.partialChunk.datalen - irob.own.offset))
      rw [shape, List.take_append, length, List.take_of_length_le (by omega), ← List.append_assoc]
      simpa only [unread, IrobChunk.bytes, Option.getD_none, List.drop_nil,
        List.nil_append] using next
    · refine ⟨_, rfl, reading.final, reading.complete, reading.byteCount, reading.chunkCount,
        reading.sized, .inr ⟨size, ?_⟩, ?_, ?_⟩
      · simp only
        omega
      · rw [shape, List.length_append, length] at counted
        simp only [unread, List.length_append, List.length_drop, ← size]
        rw [counted]
        omega
      · have bytes := reading.bytes
        rw [shape] at bytes ⊢
        simp only [unread]
        rw [List.take_append_of_le_length (by omega), ← List.drop_drop, List.append_assoc,
          ← List.append_assoc (List.take _ _), List.take_append_drop]
        exact bytes

end Reading

end ReceiverIrob

end Libcmm
