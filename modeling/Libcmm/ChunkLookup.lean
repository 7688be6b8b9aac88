import Libcmm.Chunking
import Libcmm.Lib.Bisect

/-! # Looking up a chunk by its offset (`pending_sender_irob.cpp`)

The sender looks for the chunk that contains an offset by halving, with a step back from the first
chunk that starts beyond it. In a list of chunks where each starts where the one before it ends,
chunks of no bytes included, this finds the one chunk that contains the offset, or the end.
-/

namespace Libcmm

open Lib

namespace ChunkLookup

/-- `upper_bound` with `LessByOffset`, and a chunk that has only its offset. -/
def upperBound (chunkList : List IrobChunk) (offset : Nat) : Option Nat :=
  bisect (fun chunk => decide (offset < chunk.offset)) chunkList

/-- `PendingSenderIROB::find_app_chunk` as it probes the list. An iterator is an index; it traps
where an iterator outside the list is dereferenced. The end of a chunk is a `size_t`. -/
def findAppChunk (chunkList : List IrobChunk) (offset : Nat) : Option Nat :=
  (upperBound chunkList offset).bind fun it =>
    if chunkList.isEmpty then some it
    else match it with
      | 0 => none
      | previous + 1 => (chunkList[previous]?).map fun target =>
          if target.offset ≤ offset ∧ offset < (target.offset + target.datalen) % 2 ^ 64 then
            previous
          else previous + 1

/-- Each chunk starts where the one before it ends, and ends at a `size_t`. -/
def Contiguous : Nat → List IrobChunk → Prop
  | _, [] => True
  | start, chunk :: rest => chunk.offset = start ∧ start + chunk.datalen < 2 ^ 64 ∧
      Contiguous (start + chunk.datalen) rest

/-- The chunk at an index contains the offset. -/
def Contains (chunkList : List IrobChunk) (offset index : Nat) : Prop :=
  ∃ chunk, chunkList[index]? = some chunk ∧ chunk.offset ≤ offset ∧
    offset < chunk.offset + chunk.datalen

section Contiguous

variable {start offset index : Nat} {chunkList : List IrobChunk} {chunk : IrobChunk}

/-- The data of an IROB that fit into memory are in contiguous chunks. -/
theorem contiguous_tile (id : IrobId) (seqno : Nat) {blocks : List (List Byte)}
    (fits : start + blocks.flatten.length < 2 ^ 64) :
    Contiguous start (tile id seqno start blocks) := by
  induction blocks generalizing seqno start with
  | nil => trivial
  | cons block rest ih =>
      rw [List.flatten_cons, List.length_append] at fits
      rw [← Nat.add_assoc] at fits
      exact ⟨rfl, Nat.lt_of_le_of_lt (Nat.le_add_right _ _) fits, ih (seqno + 1) fits⟩

/-- Sent chunks are headers of the ones that were cut. -/
theorem contiguous_map_header (contiguous : Contiguous start chunkList) :
    Contiguous start (chunkList.map IrobChunk.header) := by
  induction chunkList generalizing start with
  | nil => trivial
  | cons first rest ih => exact ⟨contiguous.1, contiguous.2.1, ih contiguous.2.2⟩

/-- A chunk starts behind the bytes of those in front of it. -/
theorem Contiguous.offset_eq (contiguous : Contiguous start chunkList)
    (listed : chunkList[index]? = some chunk) :
    chunk.offset = start + sumChunks (chunkList.take index) ∧
      chunk.offset + chunk.datalen < 2 ^ 64 := by
  induction chunkList generalizing start index with
  | nil => cases listed
  | cons first rest ih =>
      obtain ⟨here, fits, later⟩ := contiguous
      cases index with
      | zero =>
          cases listed
          exact ⟨here, here ▸ fits⟩
      | succ index =>
          obtain ⟨place, small⟩ := ih later listed
          refine ⟨?_, small⟩
          rw [place, List.take_succ_cons, Nat.add_assoc]
          rfl

theorem sumChunks_take_succ (listed : chunkList[index]? = some chunk) :
    sumChunks (chunkList.take (index + 1)) = sumChunks (chunkList.take index) + chunk.datalen := by
  rw [List.take_add_one, listed, sumChunks, List.map_append, List.sum_append]
  rfl

theorem sumChunks_take_mono {first second : Nat} (before : first ≤ second) :
    sumChunks (chunkList.take first) ≤ sumChunks (chunkList.take second) := by
  obtain ⟨gap, rfl⟩ := Nat.exists_eq_add_of_le before
  rw [List.take_add, sumChunks, sumChunks, List.map_append, List.sum_append]
  exact Nat.le_add_right _ _

/-- A chunk contains the offsets between the bytes in front of it and those up to its end. -/
theorem Contiguous.contains_iff (contiguous : Contiguous 0 chunkList) :
    Contains chunkList offset index ↔ index < chunkList.length ∧
      sumChunks (chunkList.take index) ≤ offset ∧
      offset < sumChunks (chunkList.take (index + 1)) := by
  constructor
  · rintro ⟨chunk, listed, low, high⟩
    obtain ⟨place, -⟩ := contiguous.offset_eq listed
    rw [place, Nat.zero_add] at low high
    rw [sumChunks_take_succ listed]
    exact ⟨(List.getElem?_eq_some_iff.mp listed).1, low, high⟩
  · intro ⟨inside, low, high⟩
    have listed := List.getElem?_eq_getElem inside
    obtain ⟨place, -⟩ := contiguous.offset_eq listed
    rw [sumChunks_take_succ listed] at high
    refine ⟨_, listed, ?_, ?_⟩
    · rwa [place, Nat.zero_add]
    · rwa [place, Nat.zero_add]

/-- No two chunks contain the same offset. -/
theorem Contiguous.contains_unique (contiguous : Contiguous 0 chunkList) {other : Nat}
    (here : Contains chunkList offset index) (there : Contains chunkList offset other) :
    other = index := by
  obtain ⟨-, low, high⟩ := contiguous.contains_iff.mp here
  obtain ⟨-, lowToo, highToo⟩ := contiguous.contains_iff.mp there
  rcases Nat.lt_trichotomy other index with below | same | above
  · have ends : sumChunks (chunkList.take (other + 1)) ≤ sumChunks (chunkList.take index) :=
      sumChunks_take_mono below
    omega
  · exact same
  · have ends : sumChunks (chunkList.take (index + 1)) ≤ sumChunks (chunkList.take other) :=
      sumChunks_take_mono above
    omega

theorem Contiguous.offset_getElem (contiguous : Contiguous 0 chunkList)
    (inside : index < chunkList.length) :
    chunkList[index].offset = sumChunks (chunkList.take index) := by
  rw [(contiguous.offset_eq (List.getElem?_eq_getElem inside)).1, Nat.zero_add]

/-- The search stops at the first chunk that starts beyond the offset. -/
theorem Contiguous.upperBound_splits (contiguous : Contiguous 0 chunkList) (offset : Nat) :
    ∃ index, upperBound chunkList offset = some index ∧
      Splits (fun chunk => decide (offset < chunk.offset)) chunkList index := by
  apply bisect_splits
  rw [List.pairwise_iff_getElem]
  intro first second inside insideToo before far
  have ends : sumChunks (chunkList.take first) ≤ sumChunks (chunkList.take second) :=
    sumChunks_take_mono (Nat.le_of_lt before)
  rw [decide_eq_true_iff, contiguous.offset_getElem] at far ⊢
  exact Nat.lt_of_lt_of_le far ends

/-- Chunks in front of the position start at most at the offset, the others beyond it. -/
theorem Contiguous.start_of_splits (contiguous : Contiguous 0 chunkList)
    (splits : Splits (fun chunk => decide (offset < chunk.offset)) chunkList index) :
    (∀ earlier < index, sumChunks (chunkList.take earlier) ≤ offset) ∧
      ∀ later, index ≤ later → later < chunkList.length →
        offset < sumChunks (chunkList.take later) := by
  constructor
  · intro earlier before
    have inside : earlier < chunkList.length := Nat.lt_of_lt_of_le before splits.bound
    have near := splits.before chunkList[earlier]
      (List.mem_take_iff_getElem.mpr ⟨earlier, by omega, rfl⟩)
    rw [decide_eq_false_iff_not, contiguous.offset_getElem] at near
    exact Nat.le_of_not_lt near
  · intro later behind inside
    have far := splits.after chunkList[later] (List.mem_drop_iff_getElem.mpr
      ⟨later - index, by omega, by simp only [Nat.add_sub_of_le behind]⟩)
    rwa [decide_eq_true_iff, contiguous.offset_getElem] at far

end Contiguous

variable {chunkList : List IrobChunk} {index : Nat}

/-- After the step back: the chunk that contains the offset, or the end. -/
theorem findAppChunk_cases (contiguous : Contiguous 0 chunkList) (offset : Nat) :
    (∃ index, findAppChunk chunkList offset = some index ∧ Contains chunkList offset index) ∨
      findAppChunk chunkList offset = some chunkList.length ∧ sumChunks chunkList ≤ offset := by
  obtain ⟨index, found, splits⟩ := contiguous.upperBound_splits offset
  obtain ⟨near, far⟩ := contiguous.start_of_splits splits
  have bound := splits.bound
  rw [findAppChunk, found, Option.bind_some]
  cases chunkList with
  | nil =>
      right
      exact ⟨congrArg some (Nat.le_zero.mp bound), Nat.zero_le _⟩
  | cons first rest =>
      rw [if_neg (by exact Bool.false_ne_true)]
      cases index with
      | zero =>
          -- the first chunk starts at zero
          exact absurd (far 0 le_rfl (Nat.succ_pos _)) (Nat.not_lt_zero _)
      | succ previous =>
          have listed := List.getElem?_eq_getElem (Nat.lt_of_succ_le bound)
          obtain ⟨place, fits⟩ := contiguous.offset_eq listed
          have low := near previous (Nat.lt_succ_self _)
          have next := sumChunks_take_succ listed
          rw [Nat.zero_add] at place
          simp only [listed, Option.map_some, Nat.mod_eq_of_lt fits]
          split_ifs with inside
          · left
            exact ⟨previous, rfl, _, listed, inside⟩
          · right
            have past : sumChunks ((first :: rest).take (previous + 1)) ≤ offset := by omega
            have last : previous + 1 = (first :: rest).length := by
              by_contra short
              exact absurd (far _ le_rfl (Nat.lt_of_le_of_ne bound short)) (Nat.not_lt.mpr past)
            rw [last, List.take_length] at past
            exact ⟨congrArg some last, past⟩

/-- In contiguous chunks the lookup never dereferences an iterator outside the list. It finds the
one chunk that contains an offset below their total length, and the end for any other offset. -/
theorem findAppChunk_contiguous (contiguous : Contiguous 0 chunkList) (offset : Nat) :
    (offset < sumChunks chunkList → ∃ index, findAppChunk chunkList offset = some index ∧
      Contains chunkList offset index ∧
      ∀ other, Contains chunkList offset other → other = index) ∧
    (sumChunks chunkList ≤ offset → findAppChunk chunkList offset = some chunkList.length) := by
  rcases findAppChunk_cases contiguous offset with ⟨index, found, here⟩ | ⟨found, beyond⟩
  · obtain ⟨inside, -, high⟩ := contiguous.contains_iff.mp here
    have total : sumChunks (chunkList.take (index + 1)) ≤ sumChunks chunkList := by
      conv => rhs; rw [← @List.take_length _ chunkList]
      exact sumChunks_take_mono inside
    constructor
    · exact fun _ => ⟨index, found, here, fun _ there => contiguous.contains_unique here there⟩
    · intro beyond
      omega
  · exact ⟨fun below => absurd below (Nat.not_lt.mpr beyond), fun _ => found⟩

/-- Where the lookup ends is the position that the sender's model uses. -/
theorem findAppChunk_eq (contiguous : Contiguous 0 chunkList) (offset : Nat) :
    findAppChunk chunkList offset = some (SenderIrob.findAppChunk chunkList offset) := by
  obtain ⟨index, found, splits⟩ := contiguous.upperBound_splits offset
  have same : (fun chunk : IrobChunk => decide (chunk.offset ≤ offset)) =
      fun chunk => !decide (offset < chunk.offset) := by
    funext chunk
    rw [← decide_not]
    exact decide_eq_decide.mpr Nat.not_lt.symm
  rw [findAppChunk, found, Option.bind_some, SenderIrob.findAppChunk, same, splits.length_takeWhile]
  cases chunkList with
  | nil => rfl
  | cons first rest =>
      rw [if_neg (by exact Bool.false_ne_true)]
      cases index with
      | zero =>
          have far := (contiguous.start_of_splits splits).2 0 le_rfl (Nat.succ_pos _)
          exact absurd far (Nat.not_lt_zero _)
      | succ previous =>
          have listed := List.getElem?_eq_getElem (Nat.lt_of_succ_le splits.bound)
          obtain ⟨-, fits⟩ := contiguous.offset_eq listed
          simp only [listed, Option.map_some, Nat.mod_eq_of_lt fits, Nat.add_sub_cancel]

/-- Both lookups of `get_bytes_internal` in an IROB whose data fit into memory. -/
theorem findAppChunk_of_chunked {data : List Byte} {blocks : List (List Byte)} {irob : SenderIrob}
    (chunked : SenderIrob.Chunked data blocks irob) (fits : data.length < 2 ^ 64) (offset : Nat) :
    findAppChunk irob.chunks offset = some (SenderIrob.findAppChunk irob.chunks offset) ∧
    findAppChunk irob.own.sentChunks offset =
      some (SenderIrob.findAppChunk irob.own.sentChunks offset) := by
  obtain ⟨pieces, shape, whole⟩ := chunked.app
  constructor
  · apply findAppChunk_eq
    rw [shape]
    apply contiguous_tile
    rwa [whole, Nat.zero_add]
  · apply findAppChunk_eq
    rw [chunked.sent]
    apply contiguous_map_header
    apply contiguous_tile
    rw [Nat.zero_add]
    exact Nat.lt_of_le_of_lt chunked.within.length_le fits

/-- Two chunks with bytes, and chunks with none around them. -/
def fiveChunks : List IrobChunk :=
  [⟨1, 0, 0, 0, none⟩, ⟨1, 1, 0, 10, none⟩, ⟨1, 2, 10, 0, none⟩, ⟨1, 3, 10, 5, none⟩,
    ⟨1, 4, 15, 0, none⟩]

theorem findAppChunk_contiguous_five_chunks :
    findAppChunk fiveChunks 10 = some 3 ∧ findAppChunk fiveChunks 15 = some 5 := by
  have contiguous : Contiguous 0 fiveChunks := by
    simp only [Contiguous, fiveChunks, and_true]
    decide
  constructor
  · obtain ⟨index, found, -, only⟩ := (findAppChunk_contiguous contiguous 10).1 (by decide)
    rw [found, only 3 ⟨_, rfl, by decide, by decide⟩]
  · exact (findAppChunk_contiguous contiguous 15).2 (by decide)

end ChunkLookup

end Libcmm
