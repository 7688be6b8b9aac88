import Mathlib.Data.List.TakeWhile
import Libcmm.SenderIrob
import Libcmm.Lib.Transition

/-! # Chunking at the sender

`Chunked data blocks irob` says that the application has given the IROB the bytes
`data` and that the senders have cut the beginning of them into `blocks`. Every
operation keeps this for some blocks that extend the earlier ones, and what
`get_ready_bytes` returns is always one of the blocks under its index. So however
csockets, sizes, resends and redundancy are mixed, the same sequence number always
stands for the same bytes.
-/

namespace Libcmm

open Lib

/-! ### Looking up an offset in a tiling -/

section Lookup

variable {id : IrobId}

/-- The chunks that start at or before an offset are those up to the one that
contains it. -/
theorem length_takeWhile_tile (id : IrobId) (seqno : Nat) {start offset : Nat} {blocks : List (List Byte)}
    (above : start ≤ offset) :
    (offset < start + blocks.flatten.length → ∃ index block,
      ((tile id seqno start blocks).takeWhile
        fun chunk => decide (chunk.offset ≤ offset)).length = index + 1 ∧
      blocks[index]? = some block ∧ start + (blocks.take index).flatten.length ≤ offset ∧
      offset < start + (blocks.take index).flatten.length + block.length) ∧
    (start + blocks.flatten.length ≤ offset →
      ((tile id seqno start blocks).takeWhile
        fun chunk => decide (chunk.offset ≤ offset)).length = blocks.length) := by
  induction blocks generalizing seqno start with
  | nil =>
      refine ⟨fun below => ?_, fun _ => rfl⟩
      simp only [List.flatten_nil, List.length_nil, Nat.add_zero] at below
      omega
  | cons block rest ih =>
      have first : ((tile id seqno start (block :: rest)).takeWhile
          fun chunk => decide (chunk.offset ≤ offset)).length =
          ((tile id (seqno + 1) (start + block.length) rest).takeWhile
            fun chunk => decide (chunk.offset ≤ offset)).length + 1 := by
        rw [tile, List.takeWhile_cons_of_pos (by simpa using above), List.length_cons]
      simp only [first, List.flatten_cons, List.length_append, List.length_cons]
      by_cases inside : offset < start + block.length
      · refine ⟨fun _ => ⟨0, block, ?_, rfl, ?_, ?_⟩, fun beyond => by omega⟩
        · cases rest with
          | nil => rfl
          | cons next others =>
              rw [tile, List.takeWhile_cons_of_neg]
              · rfl
              · simpa using inside
        · simpa using above
        · simpa using inside
      · obtain ⟨within, beyond⟩ := ih (seqno + 1) (not_lt.mp inside)
        constructor
        · intro below
          obtain ⟨index, found, count, listed, low, high⟩ := within (by omega)
          refine ⟨index + 1, found, by rw [count], listed, ?_, ?_⟩
          · rw [List.take_succ_cons, List.flatten_cons, List.length_append]
            omega
          · rw [List.take_succ_cons, List.flatten_cons, List.length_append]
            omega
        · intro past
          rw [beyond (by omega)]

/-- An offset inside a tiling is found in the chunk that contains it. -/
theorem findAppChunk_of_lt (id : IrobId) {offset : Nat} {blocks : List (List Byte)}
    (inside : offset < blocks.flatten.length) :
    ∃ block, blocks[SenderIrob.findAppChunk (tile id 0 0 blocks) offset]? = some block ∧
      (blocks.take (SenderIrob.findAppChunk (tile id 0 0 blocks) offset)).flatten.length ≤ offset ∧
      offset < (blocks.take (SenderIrob.findAppChunk (tile id 0 0 blocks) offset)).flatten.length +
        block.length := by
  obtain ⟨index, block, count, listed, low, high⟩ :=
    (length_takeWhile_tile id 0 (Nat.zero_le offset)).1 (by rwa [Nat.zero_add])
  rw [Nat.zero_add] at low high
  have found : SenderIrob.findAppChunk (tile id 0 0 blocks) offset = index := by
    unfold SenderIrob.findAppChunk
    simp only [count, Nat.add_sub_cancel, getElem?_tile, listed, Option.map_some, Nat.zero_add]
    exact if_pos ⟨low, high⟩
  rw [found]
  exact ⟨block, listed, low, high⟩

/-- An offset beyond a tiling is not found. -/
theorem findAppChunk_of_le (id : IrobId) {offset : Nat} {blocks : List (List Byte)}
    (beyond : blocks.flatten.length ≤ offset) :
    SenderIrob.findAppChunk (tile id 0 0 blocks) offset = blocks.length := by
  have count := (length_takeWhile_tile id 0 (Nat.zero_le offset)).2
    (by rwa [Nat.zero_add])
  unfold SenderIrob.findAppChunk
  simp only [count, getElem?_tile]
  cases last : blocks[blocks.length - 1]? with
  | none => rfl
  | some block =>
      simp only [Option.map_some, Nat.zero_add]
      rw [if_neg]
      rintro ⟨-, below⟩
      have inside := List.getElem?_eq_some_iff.mp last
      obtain ⟨bound, same⟩ := inside
      have whole : (blocks.take (blocks.length - 1)).flatten.length + block.length =
          blocks.flatten.length := by
        conv_rhs => rw [← List.take_append_drop (blocks.length - 1) blocks]
        rw [List.flatten_append, List.length_append, List.drop_eq_getElem_cons bound, same,
          List.drop_eq_nil_of_le (by omega), List.flatten_cons, List.flatten_nil,
          List.append_nil]
      omega

/-- The gathering loop reads a run of bytes across chunks. -/
theorem flatten_gather {seqno start skip : Nat} (len : Nat) {blocks : List (List Byte)}
    (first : ∀ block, blocks.head? = some block → skip ≤ block.length) :
    (SenderIrob.gather skip len (tile id seqno start blocks)).flatten =
      (blocks.flatten.drop skip).take len := by
  induction blocks generalizing seqno start skip len with
  | nil => simp only [tile, SenderIrob.gather, List.flatten_nil, List.drop_nil, List.take_nil]
  | cons block rest ih =>
      have bound := first block rfl
      rw [tile, SenderIrob.gather, List.flatten_cons, List.drop_append_of_le_length bound]
      split_ifs with none
      · rw [none, List.take_zero, List.flatten_nil]
      · rw [List.flatten_cons, ih _ (fun _ _ => Nat.zero_le _), List.drop_zero, List.take_append,
          List.length_drop, IrobChunk.bytes, Option.getD_some]
        simp only
        congr 1
        · by_cases short : len ≤ block.length - skip
          · rw [Nat.min_eq_right short]
          · rw [Nat.min_eq_left (by omega), List.take_of_length_le (by rw [List.length_drop]),
              List.take_of_length_le (by rw [List.length_drop]; omega)]
        · congr 1
          omega

end Lookup

/-! ### The chunking invariant -/

/-- A transmission carries one of the blocks. -/
def Transmission.Carries (blocks : List (List Byte)) (transmission : Transmission) : Prop :=
  blocks[transmission.seqno]? = some transmission.bytes ∧
    transmission.offset = (blocks.take transmission.seqno).flatten.length

/-- Blocks that follow do not change what a transmission carries. -/
theorem Transmission.Carries.extend {blocks later : List (List Byte)} {transmission : Transmission}
    (carries : transmission.Carries blocks) (longer : blocks <+: later) :
    transmission.Carries later :=
  block_of_longer carries.1 carries.2 longer

namespace SenderIrob

/-- The application has given `data`, and its beginning has been cut into `blocks`. -/
structure Chunked (data : List Byte) (blocks : List (List Byte)) (irob : SenderIrob) : Prop where
  app : ∃ pieces : List (List Byte), irob.chunks = tile irob.id 0 0 pieces ∧ pieces.flatten = data
  numBytes : irob.own.numBytes = data.length
  sent : irob.own.sentChunks = (tile irob.id 0 0 blocks).map IrobChunk.header
  nonempty : ∀ block ∈ blocks, block ≠ []
  within : blocks.flatten <+: data
  resend : ∀ chunk ∈ irob.own.resendChunks, chunk ∈ irob.own.sentChunks
  keys : ∀ key, irob.own.nextSeqnosToSend key ≤ blocks.length ∧
    irob.own.irobOffsets key = (blocks.take (irob.own.nextSeqnosToSend key)).flatten.length

namespace Chunked

variable {data : List Byte} {blocks : List (List Byte)} {irob : SenderIrob}

theorem length_sent (chunked : Chunked data blocks irob) :
    irob.own.sentChunks.length = blocks.length := by
  rw [chunked.sent, List.length_map, length_tile]

theorem expectedBytes_eq (chunked : Chunked data blocks irob) :
    irob.expectedBytes = data.length := by
  obtain ⟨pieces, shape, whole⟩ := chunked.app
  rw [expectedBytes, sumChunks, shape, sum_datalen_tile, whole]

/-- The chunking concerns the chunks of an IROB and its progress. -/
theorem congr {other : SenderIrob} (chunked : Chunked data blocks irob) (id : other.id = irob.id)
    (chunks : other.chunks = irob.chunks)
    (own : ∃ announcements endAnnouncements acked, other.own = { irob.own with
      announcements := announcements
      endAnnouncements := endAnnouncements
      acked := acked }) : Chunked data blocks other := by
  obtain ⟨announcements, endAnnouncements, acked, same⟩ := own
  refine ⟨?_, ?_, ?_, chunked.nonempty, chunked.within, ?_, ?_⟩
  · rw [id, chunks]
    exact chunked.app
  · rw [same]
    exact chunked.numBytes
  · rw [id, same]
    exact chunked.sent
  · rw [same]
    exact chunked.resend
  · rw [same]
    exact chunked.keys

/-- The lengths of the first sent chunks add up to the bytes of the first blocks. -/
theorem sumChunks_take (chunked : Chunked data blocks irob) (count : Nat) :
    sumChunks (irob.own.sentChunks.take count) = (blocks.take count).flatten.length := by
  rw [chunked.sent, ← List.map_take, take_tile, sumChunks, List.map_map]
  exact sum_datalen_tile

/-- The sent chunks are looked up like the tiling they describe. -/
theorem findAppChunk_map_header (chunks : List IrobChunk) (offset : Nat) :
    findAppChunk (chunks.map IrobChunk.header) offset = findAppChunk chunks offset := by
  have same : (fun chunk : IrobChunk => decide (chunk.offset ≤ offset)) ∘ IrobChunk.header =
      fun chunk => decide (chunk.offset ≤ offset) := rfl
  unfold findAppChunk
  simp only [List.takeWhile_map, same, List.length_map, List.getElem?_map]
  cases chunks[(chunks.takeWhile fun chunk => decide (chunk.offset ≤ offset)).length - 1]? <;> rfl

/-- Gathering from an offset inside the application's data reads from there. -/
theorem gather_from (chunked : Chunked data blocks irob) {offset : Nat}
    (inside : offset < data.length) :
    ∃ chunk rest, irob.chunks.drop (findAppChunk irob.chunks offset) = chunk :: rest ∧
      ∀ len, (gather (offset - chunk.offset) len (chunk :: rest)).flatten =
        (data.drop offset).take len := by
  obtain ⟨pieces, shape, rfl⟩ := chunked.app
  obtain ⟨piece, listed, low, high⟩ := findAppChunk_of_lt irob.id inside
  rw [shape]
  generalize findAppChunk (tile irob.id 0 0 pieces) offset = index at *
  obtain ⟨bound, same⟩ := List.getElem?_eq_some_iff.mp listed
  have split : pieces.drop index = piece :: pieces.drop (index + 1) := by
    rw [List.drop_eq_getElem_cons bound, same]
  have gathered : ∀ len, (gather (offset - (pieces.take index).flatten.length) len
      (tile irob.id (0 + index) (0 + (pieces.take index).flatten.length)
        (pieces.drop index))).flatten = (pieces.flatten.drop offset).take len := by
    intro len
    rw [flatten_gather len (by
      rw [split]
      intro block head
      cases head
      omega)]
    conv_rhs => rw [← List.take_append_drop index pieces, List.flatten_append, List.drop_append,
      List.drop_eq_nil_of_le low, List.nil_append]
  rw [drop_tile, split, tile, Nat.zero_add (pieces.take index).flatten.length]
  refine ⟨_, _, rfl, fun len => ?_⟩
  have here := gathered len
  rwa [split, tile, Nat.zero_add (pieces.take index).flatten.length] at here

/-- A boundary between sent blocks is found as the block behind it. -/
theorem findAppChunk_boundary (chunked : Chunked data blocks irob) {seqno : Nat}
    {block : List Byte} (listed : blocks[seqno]? = some block) :
    findAppChunk irob.own.sentChunks (blocks.take seqno).flatten.length = seqno := by
  have positive : 0 < block.length :=
    List.length_pos_iff.mpr (chunked.nonempty block (List.mem_of_getElem? listed))
  have after := length_flatten_take_succ listed
  have total : (blocks.take (seqno + 1)).flatten.length ≤ blocks.flatten.length := by
    conv_rhs => rw [← List.take_append_drop (seqno + 1) blocks, List.flatten_append,
      List.length_append]
    exact Nat.le_add_right _ _
  rw [chunked.sent, findAppChunk_map_header]
  obtain ⟨found, foundListed, low, high⟩ := findAppChunk_of_lt irob.id
    (show (blocks.take seqno).flatten.length < blocks.flatten.length by omega)
  generalize findAppChunk (tile irob.id 0 0 blocks) (blocks.take seqno).flatten.length = index at *
  have foundAfter := length_flatten_take_succ foundListed
  rcases Nat.lt_trichotomy index seqno with below | same | above
  · have step : (blocks.take (index + 1)).flatten.length ≤ (blocks.take seqno).flatten.length :=
      length_flatten_take_le below
    omega
  · exact same
  · have step : (blocks.take (seqno + 1)).flatten.length ≤ (blocks.take index).flatten.length :=
      length_flatten_take_le above
    omega

/-- The bytes of a block that has been sent are gathered as they were, whatever the
length asked for. -/
theorem getBytesInternal_sent (chunked : Chunked data blocks irob) {seqno : Nat}
    {block : List Byte} (listed : blocks[seqno]? = some block) (len : Nat) :
    ∃ pieces, irob.getBytesInternal (blocks.take seqno).flatten.length len = some pieces ∧
      pieces.flatten = block := by
  obtain ⟨bound, same⟩ := List.getElem?_eq_some_iff.mp listed
  obtain ⟨more, whole⟩ := chunked.within
  have behind : data.drop (blocks.take seqno).flatten.length =
      block ++ ((blocks.drop (seqno + 1)).flatten ++ more) := by
    rw [← whole]
    conv_lhs => rw [← List.take_append_drop seqno blocks]
    rw [List.flatten_append, List.append_assoc, List.take_append_of_le_length (by
        rw [List.length_take]; omega), List.take_take, Nat.min_self, List.drop_append,
      List.drop_length, List.nil_append, Nat.sub_self, List.drop_zero,
      List.drop_eq_getElem_cons bound, same, List.flatten_cons, List.append_assoc]
  have positive : 0 < block.length :=
    List.length_pos_iff.mpr (chunked.nonempty block (List.mem_of_getElem? listed))
  have inside : (blocks.take seqno).flatten.length < data.length := by
    have lengths := congrArg List.length behind
    rw [List.length_drop, List.length_append] at lengths
    omega
  obtain ⟨chunk, rest, reached, gathered⟩ := chunked.gather_from inside
  have sent : irob.own.sentChunks[seqno]? = some (IrobChunk.header ⟨irob.id, seqno,
      (blocks.take seqno).flatten.length, block.length, some block⟩) := by
    rw [chunked.sent, List.getElem?_map, getElem?_tile, listed]
    simp only [Option.map_some, Nat.zero_add]
  refine ⟨gather ((blocks.take seqno).flatten.length - chunk.offset) block.length
    (chunk :: rest), ?_, ?_⟩
  · unfold getBytesInternal
    simp only [reached, chunked.findAppChunk_boundary listed, sent]
    rw [if_neg (by simp [IrobChunk.header])]
    rfl
  · rw [gathered, behind, List.take_left]

/-- Bytes that have not been sent are gathered as far as asked for. -/
theorem getBytesInternal_unsent (chunked : Chunked data blocks irob) (len : Nat) :
    ∃ pieces, irob.getBytesInternal blocks.flatten.length len = some pieces ∧
      pieces.flatten = (data.drop blocks.flatten.length).take len := by
  have unsent : irob.own.sentChunks[findAppChunk irob.own.sentChunks blocks.flatten.length]? =
      none := by
    rw [chunked.sent, findAppChunk_map_header, findAppChunk_of_le irob.id (le_refl _),
      List.getElem?_map, List.getElem?_eq_none (by rw [length_tile])]
    rfl
  unfold getBytesInternal
  by_cases inside : blocks.flatten.length < data.length
  · obtain ⟨chunk, rest, reached, gathered⟩ := chunked.gather_from inside
    simp only [reached, unsent]
    exact ⟨_, rfl, gathered len⟩
  · obtain ⟨pieces, shape, rfl⟩ := chunked.app
    have ended : irob.chunks.drop (findAppChunk irob.chunks blocks.flatten.length) = [] := by
      rw [shape, findAppChunk_of_le irob.id (not_lt.mp inside)]
      exact List.drop_eq_nil_of_le (by rw [length_tile])
    simp only [ended]
    refine ⟨_, rfl, ?_⟩
    rw [List.drop_eq_nil_of_le (not_lt.mp inside), List.take_nil, List.flatten_nil]

/-! ### Operations -/

theorem initial (id : IrobId) (deps : List IrobId) (data : List Byte) (sendLabels : Nat) :
    Chunked data [] (SenderIrob.mk id deps data sendLabels) := by
  refine ⟨?_, rfl, rfl, fun _ member => (List.not_mem_nil member).elim, List.nil_prefix,
    fun _ member => (List.not_mem_nil member).elim, fun _ => ⟨Nat.zero_le _, rfl⟩⟩
  cases data with
  | nil => exact ⟨[], rfl, rfl⟩
  | cons first rest =>
      refine ⟨[first :: rest], rfl, ?_⟩
      rw [List.flatten_singleton]

/-- The application adds bytes, even none, until the IROB is complete. -/
theorem addChunk (chunked : Chunked data blocks irob) (bytes : List Byte) :
    Chunked (if irob.complete then data else data ++ bytes) blocks
      (irob.addChunk ⟨irob.id, 0, 0, bytes.length, some bytes⟩).1 := by
  unfold SenderIrob.addChunk
  split_ifs with complete
  · exact chunked
  · obtain ⟨pieces, shape, whole⟩ := chunked.app
    refine ⟨⟨pieces ++ [bytes], ?_, ?_⟩, ?_, chunked.sent, chunked.nonempty,
      chunked.within.trans (List.prefix_append _ _), chunked.resend, chunked.keys⟩
    · simp only [tile_append, tile, Nat.zero_add, shape, length_tile]
      rw [chunked.numBytes, whole]
    · rw [List.flatten_append, List.flatten_singleton, whole]
    · simp only [chunked.numBytes, List.length_append]

theorem finish (chunked : Chunked data blocks irob) : Chunked data blocks irob.finish.1 := by
  unfold PendingIrob.finish
  split_ifs
  · exact chunked
  · exact ⟨chunked.app, chunked.numBytes, chunked.sent, chunked.nonempty, chunked.within,
      chunked.resend, chunked.keys⟩

theorem markSendOnAllNetworks (chunked : Chunked data blocks irob) :
    Chunked data blocks irob.markSendOnAllNetworks :=
  ⟨chunked.app, chunked.numBytes, chunked.sent, chunked.nonempty, chunked.within,
    chunked.resend, chunked.keys⟩

theorem mem_placeResend {chunk query : IrobChunk} {chunks : List IrobChunk}
    (member : query ∈ placeResend chunk chunks) : query = chunk ∨ query ∈ chunks := by
  induction chunks with
  | nil => exact .inl (List.mem_singleton.mp member)
  | cons first rest ih =>
      unfold placeResend at member
      split_ifs at member
      · exact List.mem_cons.mp member
      · rcases List.mem_cons.mp member with rfl | later
        · exact .inr List.mem_cons_self
        · exact (ih later).imp_right (List.mem_cons_of_mem _)
      · exact .inr member

/-- A sent chunk is marked to be sent again. -/
theorem markNotReceived (chunked : Chunked data blocks irob) {seqno : Nat}
    (sent : seqno < irob.own.sentChunks.length) :
    ∃ marked, irob.markNotReceived seqno = some marked ∧ Chunked data blocks marked ∧
      PendingIrob.SameLinks marked irob ∧ marked.complete = irob.complete ∧
      marked.own.sentChunks = irob.own.sentChunks := by
  unfold SenderIrob.markNotReceived
  rw [if_neg (Nat.not_lt.mpr (Nat.le_of_lt sent)), List.getElem?_eq_getElem sent]
  refine ⟨_, rfl, ⟨chunked.app, chunked.numBytes, chunked.sent, chunked.nonempty, chunked.within,
    fun query member => ?_, chunked.keys⟩, ⟨rfl, rfl, rfl, rfl, rfl, rfl⟩, rfl, rfl⟩
  rcases mem_placeResend member with rfl | before
  · exact List.getElem_mem sent
  · exact chunked.resend query before

/-- Whatever sequence number is asked for, marking keeps the chunking. -/
theorem of_markNotReceived (chunked : Chunked data blocks irob) {seqno : Nat}
    {marked : SenderIrob} (marking : irob.markNotReceived seqno = some marked) :
    Chunked data blocks marked ∧ PendingIrob.SameLinks marked irob ∧
      marked.complete = irob.complete ∧ marked.own.sentChunks = irob.own.sentChunks := by
  by_cases sent : seqno < irob.own.sentChunks.length
  · obtain ⟨result, same, kept⟩ := chunked.markNotReceived sent
    cases same.symm.trans marking
    exact kept
  · unfold SenderIrob.markNotReceived at marking
    split_ifs at marking
    · cases marking
      exact ⟨chunked, .refl _, rfl, rfl⟩
    · rw [List.getElem?_eq_none (Nat.not_lt.mp sent)] at marking
      cases marking

/-- Every chunk from a drop point on is marked to be sent again. -/
theorem markDropPoint (chunked : Chunked data blocks irob) (nextChunk : Int) :
    ∃ marked, irob.markDropPoint nextChunk = some marked ∧ Chunked data blocks marked ∧
      PendingIrob.SameLinks marked irob ∧ marked.complete = irob.complete ∧
      marked.own.sentChunks = irob.own.sentChunks := by
  have loop : ∀ (seqnos : List Nat) (start : SenderIrob), Chunked data blocks start →
      (∀ seqno ∈ seqnos, seqno < start.own.sentChunks.length) →
        ∃ marked, seqnos.foldlM SenderIrob.markNotReceived start = some marked ∧
          Chunked data blocks marked ∧ PendingIrob.SameLinks marked start ∧
          marked.complete = start.complete ∧ marked.own.sentChunks = start.own.sentChunks := by
    intro seqnos
    induction seqnos with
    | nil => exact fun start held _ => ⟨start, rfl, held, .refl _, rfl, rfl⟩
    | cons seqno rest ih =>
        intro start held bounds
        obtain ⟨next, marking, nextChunked, links, complete, sent⟩ :=
          held.markNotReceived (bounds seqno List.mem_cons_self)
        obtain ⟨last, folding, lastChunked, lastLinks, lastComplete, lastSent⟩ :=
          ih next nextChunked fun other member => by
            rw [sent]
            exact bounds other (List.mem_cons_of_mem _ member)
        exact ⟨last, Option.bind_eq_some_iff.mpr ⟨next, marking, folding⟩, lastChunked,
          lastLinks.trans links, lastComplete.trans complete, lastSent.trans sent⟩
  apply loop _ irob chunked
  intro seqno member
  rw [List.mem_range'_1] at member
  omega

/-- A csocket's place is kept as the end of the blocks it has been given. -/
theorem key_cases (chunked : Chunked data blocks irob) (csock : CSocketId) :
    irob.getNextSeqnoToSend csock =
      some (irob.own.nextSeqnosToSend (irob.nullIndexIfSingleSending csock)) ∧
    irob.getIrobOffset csock = (blocks.take
      (irob.own.nextSeqnosToSend (irob.nullIndexIfSingleSending csock))).flatten.length := by
  obtain ⟨bound, offset⟩ := chunked.keys (irob.nullIndexIfSingleSending csock)
  refine ⟨?_, offset⟩
  unfold getNextSeqnoToSend
  exact if_pos (by rw [chunked.length_sent]; exact bound)

/-- A sent chunk describes a block under its sequence number. -/
theorem block_of_sent (chunked : Chunked data blocks irob) {index : Nat} {chunk : IrobChunk}
    (sent : irob.own.sentChunks[index]? = some chunk) :
    ∃ block, blocks[index]? = some block ∧ chunk = ⟨irob.id, index,
      (blocks.take index).flatten.length, block.length, none⟩ := by
  rw [chunked.sent, List.getElem?_map, getElem?_tile, Option.map_map] at sent
  obtain ⟨block, listed, rfl⟩ := Option.map_eq_some_iff.mp sent
  refine ⟨block, listed, ?_⟩
  simp only [Function.comp_apply, IrobChunk.header, Nat.zero_add]

/-- A csocket is given the next block that was sent before. -/
theorem addSentChunk_again (chunked : Chunked data blocks irob) (csock : CSocketId)
    {block : List Byte}
    (listed : blocks[irob.own.nextSeqnosToSend (irob.nullIndexIfSingleSending csock)]? =
      some block) :
    ∃ after, irob.addSentChunk csock
        (irob.own.nextSeqnosToSend (irob.nullIndexIfSingleSending csock))
        (irob.getIrobOffset csock) block.length = some after ∧ Chunked data blocks after ∧
      PendingIrob.SameLinks after irob ∧ after.complete = irob.complete := by
  obtain ⟨bound, -⟩ := List.getElem?_eq_some_iff.mp listed
  obtain ⟨-, offset⟩ := chunked.key_cases csock
  have sent : irob.own.sentChunks[irob.own.nextSeqnosToSend
      (irob.nullIndexIfSingleSending csock)]? = some ⟨irob.id,
        irob.own.nextSeqnosToSend (irob.nullIndexIfSingleSending csock),
        irob.getIrobOffset csock, block.length, none⟩ := by
    rw [chunked.sent, List.getElem?_map, getElem?_tile, listed, offset]
    simp only [Option.map_some, IrobChunk.header, Nat.zero_add]
  unfold addSentChunk
  simp only [sent, and_self, ↓reduceIte]
  refine ⟨_, rfl, ⟨chunked.app, chunked.numBytes, chunked.sent, chunked.nonempty, chunked.within,
    chunked.resend, fun key => ?_⟩, ⟨rfl, rfl, rfl, rfl, rfl, rfl⟩, rfl⟩
  by_cases same : key = irob.nullIndexIfSingleSending csock
  · subst same
    simp only [Function.update_self]
    rw [length_flatten_take_succ listed, offset]
    exact ⟨bound, rfl⟩
  · simp only [Function.update_of_ne same]
    exact chunked.keys key

/-- A csocket that has been given every block gets a new one. -/
theorem addSentChunk_new (chunked : Chunked data blocks irob) (csock : CSocketId)
    {bytes : List Byte} (nonempty : bytes ≠ []) (fits : blocks.flatten ++ bytes <+: data) :
    ∃ after, irob.addSentChunk csock blocks.length blocks.flatten.length bytes.length =
        some after ∧ Chunked data (blocks ++ [bytes]) after ∧
      PendingIrob.SameLinks after irob ∧ after.complete = irob.complete := by
  have beyond : irob.own.sentChunks[blocks.length]? = none :=
    List.getElem?_eq_none (by rw [chunked.length_sent])
  unfold addSentChunk
  simp only [beyond, chunked.length_sent, ↓reduceIte]
  refine ⟨_, rfl, ⟨chunked.app, chunked.numBytes, ?_, ?_, ?_, ?_, fun key => ?_⟩,
    ⟨rfl, rfl, rfl, rfl, rfl, rfl⟩, rfl⟩
  · simp only [chunked.sent, tile_append, List.map_append, Nat.zero_add, tile, List.map_cons,
      List.map_nil, IrobChunk.header]
  · intro block member
    rcases List.mem_append.mp member with old | new
    · exact chunked.nonempty block old
    · rw [List.mem_singleton.mp new]
      exact nonempty
  · rw [List.flatten_append, List.flatten_singleton]
    exact fits
  · exact fun chunk member => List.mem_append_left _ (chunked.resend chunk member)
  · by_cases same : key = irob.nullIndexIfSingleSending csock
    · subst same
      simp only [Function.update_self]
      rw [List.take_of_length_le (by rw [List.length_append, List.length_singleton]),
        List.flatten_append, List.flatten_singleton, List.length_append, List.length_append,
        List.length_singleton]
      exact ⟨le_refl _, rfl⟩
    · simp only [Function.update_of_ne same]
      obtain ⟨bound, offset⟩ := chunked.keys key
      rw [List.take_append_of_le_length bound, List.length_append]
      exact ⟨Nat.le_add_right_of_le bound, offset⟩

/-- A csocket that is behind is given the next block that was sent before. -/
theorem getReadyBytes_again (chunked : Chunked data blocks irob) (csock : CSocketId)
    (bytesRequested : Int) (nothing : irob.own.resendChunks = []) {block : List Byte}
    (listed : blocks[irob.own.nextSeqnosToSend (irob.nullIndexIfSingleSending csock)]? =
      some block) :
    ∃ after pieces, irob.getReadyBytes csock bytesRequested = some (after, ⟨pieces,
        irob.own.nextSeqnosToSend (irob.nullIndexIfSingleSending csock),
        irob.getIrobOffset csock⟩) ∧
      pieces.flatten = block ∧ Chunked data blocks after ∧ PendingIrob.SameLinks after irob ∧
      after.complete = irob.complete := by
  obtain ⟨seqno, offset⟩ := chunked.key_cases csock
  obtain ⟨pieces, getting, whole⟩ := chunked.getBytesInternal_sent listed
    (if bytesRequested ≤ 0 then irob.own.numBytes - irob.getIrobOffset csock
      else bytesRequested.toNat)
  have nonempty : pieces.flatten ≠ [] := by
    rw [whole]
    exact chunked.nonempty _ (List.mem_of_getElem? listed)
  obtain ⟨after, adding, kept, links, complete⟩ := chunked.addSentChunk_again csock listed
  rw [← whole] at adding
  rw [← offset] at getting
  refine ⟨after, pieces, ?_, whole, kept, links, complete⟩
  unfold SenderIrob.getReadyBytes
  simp only [nothing, seqno, Option.bind_eq_bind, Option.bind_some, getting,
    List.length_eq_zero_iff, nonempty, ↓reduceIte, adding]

/-- A csocket that was given every block is given a new one, of the bytes that follow. -/
theorem getReadyBytes_new (chunked : Chunked data blocks irob) (csock : CSocketId)
    (bytesRequested : Int) (nothing : irob.own.resendChunks = [])
    (place : irob.own.nextSeqnosToSend (irob.nullIndexIfSingleSending csock) = blocks.length) :
    ∃ pieces : List (List Byte), pieces.flatten = (data.drop blocks.flatten.length).take
        (if bytesRequested ≤ 0 then data.length - blocks.flatten.length
          else bytesRequested.toNat) ∧
      (pieces.flatten = [] ∧ irob.getReadyBytes csock bytesRequested =
          some (irob, ⟨pieces, blocks.length, blocks.flatten.length⟩) ∨
        pieces.flatten ≠ [] ∧ ∃ after, irob.getReadyBytes csock bytesRequested =
            some (after, ⟨pieces, blocks.length, blocks.flatten.length⟩) ∧
          Chunked data (blocks ++ [pieces.flatten]) after ∧ PendingIrob.SameLinks after irob ∧
          after.complete = irob.complete) := by
  obtain ⟨seqno, offset⟩ := chunked.key_cases csock
  rw [place] at seqno offset
  rw [List.take_length] at offset
  obtain ⟨pieces, getting, whole⟩ := chunked.getBytesInternal_unsent
    (if bytesRequested ≤ 0 then data.length - blocks.flatten.length else bytesRequested.toNat)
  refine ⟨pieces, whole, ?_⟩
  unfold SenderIrob.getReadyBytes
  simp only [nothing, seqno, offset, chunked.numBytes, Option.bind_eq_bind, Option.bind_some,
    getting, List.length_eq_zero_iff]
  by_cases none : pieces.flatten = []
  · rw [if_pos none]
    exact .inl ⟨none, rfl⟩
  · obtain ⟨more, shape⟩ := chunked.within
    have fits : blocks.flatten ++ pieces.flatten <+: data := by
      rw [whole, ← shape, List.drop_left]
      exact (List.prefix_append_right_inj _).mpr (List.take_prefix _ _)
    obtain ⟨after, adding, kept, links, complete⟩ := chunked.addSentChunk_new csock none fits
    rw [if_neg none, adding]
    exact .inr ⟨none, after, rfl, kept, links, complete⟩

/-- What a csocket is given is a block: one to be sent again, the next one for that
csocket, or a new one. No `ASSERT` fails. -/
theorem getReadyBytes (chunked : Chunked data blocks irob) (csock : CSocketId)
    (bytesRequested : Int) :
    ∃ after transmission later, irob.getReadyBytes csock bytesRequested =
        some (after, transmission) ∧ Chunked data later after ∧ blocks <+: later ∧
      PendingIrob.SameLinks after irob ∧ after.complete = irob.complete ∧
      (transmission.bytes ≠ [] → transmission.Carries later) := by
  cases waiting : irob.own.resendChunks with
  | cons chunk rest =>
      have marked : chunk ∈ irob.own.resendChunks := by
        rw [waiting]
        exact List.mem_cons_self
      obtain ⟨index, sent⟩ := List.mem_iff_getElem?.mp (chunked.resend chunk marked)
      obtain ⟨block, listed, rfl⟩ := chunked.block_of_sent sent
      obtain ⟨pieces, getting, whole⟩ := chunked.getBytesInternal_sent listed block.length
      unfold SenderIrob.getReadyBytes
      simp only [waiting, getting, Option.bind_eq_bind, Option.bind_some, whole, ne_eq,
        not_true_eq_false, ↓reduceIte]
      refine ⟨_, _, blocks, rfl, ⟨chunked.app, chunked.numBytes, chunked.sent, chunked.nonempty,
        chunked.within, fun query member => ?_, chunked.keys⟩, List.prefix_rfl,
        ⟨rfl, rfl, rfl, rfl, rfl, rfl⟩, rfl, fun _ => ⟨?_, rfl⟩⟩
      · apply chunked.resend
        rw [waiting]
        exact List.mem_cons_of_mem _ member
      · rw [Transmission.bytes, whole]
        exact listed
  | nil =>
      obtain ⟨-, offset⟩ := chunked.key_cases csock
      obtain ⟨bound, -⟩ := chunked.keys (irob.nullIndexIfSingleSending csock)
      rcases Nat.lt_or_eq_of_le bound with again | new
      · have listed := List.getElem?_eq_getElem again
        obtain ⟨after, pieces, got, whole, kept, links, complete⟩ :=
          chunked.getReadyBytes_again csock bytesRequested waiting listed
        rw [← whole] at listed
        exact ⟨after, _, blocks, got, kept, List.prefix_rfl, links, complete,
          fun _ => ⟨listed, offset⟩⟩
      · obtain ⟨pieces, -, ⟨none, got⟩ | ⟨-, after, got, kept, links, complete⟩⟩ :=
          chunked.getReadyBytes_new csock bytesRequested waiting new
        · exact ⟨irob, _, blocks, got, chunked, List.prefix_rfl, .refl _, rfl,
            fun some' => absurd none some'⟩
        · refine ⟨after, _, _, got, kept, List.prefix_append _ _, links, complete,
            fun _ => ⟨List.getElem?_concat_length, ?_⟩⟩
          simp only
          rw [List.take_left]

/-- The last chunk a csocket was given is gathered again as it was. -/
theorem getLastSentChunk (chunked : Chunked data blocks irob) (csock : CSocketId) :
    ∃ probe, irob.getLastSentChunk csock = some probe ∧
      ∀ transmission, probe = some transmission → transmission.Carries blocks := by
  obtain ⟨seqno, -⟩ := chunked.key_cases csock
  obtain ⟨bound, -⟩ := chunked.keys (irob.nullIndexIfSingleSending csock)
  unfold SenderIrob.getLastSentChunk
  simp only [seqno, Option.bind_eq_bind, Option.bind_some]
  split_ifs with none
  · exact ⟨_, rfl, fun _ absent => nomatch absent⟩
  · rw [not_or] at none
    have inside : irob.own.nextSeqnosToSend (irob.nullIndexIfSingleSending csock) - 1 <
        irob.own.sentChunks.length := by
      rw [chunked.length_sent]
      omega
    obtain ⟨block, listed, shape⟩ := chunked.block_of_sent (List.getElem?_eq_getElem inside)
    obtain ⟨pieces, getting, whole⟩ := chunked.getBytesInternal_sent listed block.length
    rw [List.getElem?_eq_getElem inside, shape]
    simp only [Option.bind_some, getting]
    refine ⟨_, rfl, fun transmission same => ?_⟩
    cases same
    refine ⟨?_, rfl⟩
    rw [Transmission.bytes, whole]
    exact listed

/-- When all bytes have been cut into blocks there are no further blocks. -/
theorem blocks_final {later : List (List Byte)} {after : SenderIrob}
    (chunked : Chunked data later after) (longer : blocks <+: later)
    (all : blocks.flatten = data) : later = blocks := by
  obtain ⟨more, rfl⟩ := longer
  obtain ⟨rest, whole⟩ := chunked.within
  rw [List.flatten_append, all, List.append_assoc] at whole
  have none := List.append_right_eq_self.mp whole
  have empty : more.flatten = [] := (List.append_eq_nil_iff.mp none).1
  cases more with
  | nil => exact List.append_nil _
  | cons block others =>
      refine (chunked.nonempty block (List.mem_append_right _ List.mem_cons_self) ?_).elim
      exact (List.append_eq_nil_iff.mp empty).1

end Chunked

end SenderIrob

end Libcmm
