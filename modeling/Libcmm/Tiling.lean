import Libcmm.Control
import Libcmm.Lib.Assembly

/-! # Tilings

An IROB is cut into blocks of bytes. `tile` lists the chunks that carry them:
consecutive sequence numbers, and offsets that leave no gap. Sender and receiver
agree on an IROB when both describe the same tiling.
-/

namespace Libcmm

open Lib

/-- The chunks of consecutive blocks, numbered and placed from a given start. -/
def tile (id : IrobId) : Nat → Nat → List (List Byte) → List IrobChunk
  | _, _, [] => []
  | seqno, offset, block :: rest =>
      ⟨id, seqno, offset, block.length, some block⟩ ::
        tile id (seqno + 1) (offset + block.length) rest

/-- The entry of a chunk in a reassembly buffer; a null chunk is an empty slot. -/
def IrobChunk.slot (chunk : IrobChunk) : Option IrobChunk :=
  if chunk.data.isSome then some chunk else none

variable {id : IrobId} {seqno offset : Nat} {blocks : List (List Byte)}

@[simp] theorem length_tile : (tile id seqno offset blocks).length = blocks.length := by
  induction blocks generalizing seqno offset with
  | nil => rfl
  | cons block rest ih => simp only [tile, List.length_cons, ih]

theorem tile_append (more : List (List Byte)) :
    tile id seqno offset (blocks ++ more) = tile id seqno offset blocks ++
      tile id (seqno + blocks.length) (offset + blocks.flatten.length) more := by
  induction blocks generalizing seqno offset with
  | nil => rfl
  | cons block rest ih =>
      simp only [List.cons_append, tile, ih, List.length_cons, List.flatten_cons,
        List.length_append]
      congr 3 <;> omega

theorem take_tile (count : Nat) :
    (tile id seqno offset blocks).take count = tile id seqno offset (blocks.take count) := by
  induction blocks generalizing seqno offset count with
  | nil => simp only [tile, List.take_nil]
  | cons block rest ih =>
      cases count with
      | zero => rfl
      | succ next => simp only [tile, List.take_succ_cons, ih]

theorem drop_tile (count : Nat) : (tile id seqno offset blocks).drop count =
    tile id (seqno + count) (offset + (blocks.take count).flatten.length) (blocks.drop count) := by
  induction blocks generalizing seqno offset count with
  | nil => simp only [tile, List.drop_nil]
  | cons block rest ih =>
      cases count with
      | zero => rfl
      | succ next =>
          simp only [tile, List.drop_succ_cons, ih, List.take_succ_cons, List.flatten_cons,
            List.length_append]
          congr 1 <;> omega

/-- The offsets of a tiling grow with the index. -/
theorem length_flatten_take_le {first second : Nat} (le : first ≤ second) :
    (blocks.take first).flatten.length ≤ (blocks.take second).flatten.length := by
  obtain ⟨more, rfl⟩ := Nat.exists_eq_add_of_le le
  rw [List.take_add, List.flatten_append, List.length_append]
  exact Nat.le_add_right _ _

/-- The next offset of a tiling is behind the block. -/
theorem length_flatten_take_succ {index : Nat} {block : List Byte}
    (listed : blocks[index]? = some block) :
    (blocks.take (index + 1)).flatten.length =
      (blocks.take index).flatten.length + block.length := by
  rw [List.take_add_one, listed, Option.toList_some, List.flatten_append, List.flatten_singleton,
    List.length_append]

/-- A block stays at its place when further blocks follow. -/
theorem block_of_longer {later : List (List Byte)} {index start : Nat} {block : List Byte}
    (listed : blocks[index]? = some block) (placed : start = (blocks.take index).flatten.length)
    (longer : blocks <+: later) :
    later[index]? = some block ∧ start = (later.take index).flatten.length := by
  obtain ⟨more, rfl⟩ := longer
  obtain ⟨bound, -⟩ := List.getElem?_eq_some_iff.mp listed
  rw [List.getElem?_append_left bound, List.take_append_of_le_length (Nat.le_of_lt bound)]
  exact ⟨listed, placed⟩

/-- The chunk at an index carries the block there, with the bytes before it as
its offset. -/
theorem getElem?_tile (index : Nat) : (tile id seqno offset blocks)[index]? =
    blocks[index]?.map fun block => ⟨id, seqno + index,
      offset + (blocks.take index).flatten.length, block.length, some block⟩ := by
  induction blocks generalizing seqno offset index with
  | nil => rfl
  | cons block rest ih =>
      cases index with
      | zero => rfl
      | succ next =>
          simp only [tile, List.getElem?_cons_succ, ih, List.take_succ_cons, List.flatten_cons,
            List.length_append]
          congr 1
          funext found
          congr 1 <;> omega

/-- The lengths of a tiling add up to the bytes it carries. -/
@[simp] theorem sum_datalen_tile :
    ((tile id seqno offset blocks).map IrobChunk.datalen).sum = blocks.flatten.length := by
  induction blocks generalizing seqno offset with
  | nil => rfl
  | cons block rest ih =>
      simp only [tile, List.map_cons, List.sum_cons, ih, List.flatten_cons, List.length_append]

/-- Reading the chunks of a tiling in order gives the blocks. -/
@[simp] theorem map_bytes_tile : (tile id seqno offset blocks).map IrobChunk.bytes = blocks := by
  induction blocks generalizing seqno offset with
  | nil => rfl
  | cons block rest ih =>
      simp only [tile, List.map_cons, ih]
      rfl

theorem IrobChunk.slot_eq_none {chunk : IrobChunk} : chunk.slot = none ↔ chunk.data = none := by
  unfold slot
  cases chunk.data <;> simp

theorem IrobChunk.slot_of_data {chunk : IrobChunk} (present : chunk.data.isSome = true) :
    chunk.slot = some chunk := if_pos present

theorem IrobChunk.eq_of_slot {chunk stored : IrobChunk} (present : chunk.slot = some stored) :
    chunk = stored ∧ stored.data.isSome = true := by
  unfold slot at present
  split_ifs at present with data
  cases present
  exact ⟨rfl, data⟩

/-- The chunks of a tiling hold data. -/
theorem data_of_mem_tile {chunk : IrobChunk} (member : chunk ∈ tile id seqno offset blocks) :
    ∃ block ∈ blocks, chunk.data = some block ∧ chunk.datalen = block.length ∧
      chunk.id = id := by
  obtain ⟨index, listed⟩ := List.mem_iff_getElem?.mp member
  rw [getElem?_tile] at listed
  obtain ⟨block, found, rfl⟩ := Option.map_eq_some_iff.mp listed
  exact ⟨block, List.mem_of_getElem? found, rfl, rfl, rfl⟩

end Libcmm
