import Libcmm.Irob
import Libcmm.Lib.Assembly

/-! # Receiving one IROB (`PendingReceiverIROB`)

Chunks of an IROB arrive in any order, before or after the messages that begin
and end it. A chunk that has not arrived is a null entry of `chunks`. Once the
IROB is complete the application reads its bytes from the front; what it leaves
of a chunk is kept in `partial_chunk`, with `offset` bytes of it already read.

A failed `ASSERT` traps (`none`).
-/

namespace Libcmm

open Lib

/-- The members that `PendingReceiverIROB` adds to `PendingIROB`. -/
structure ReceiverPart where
  offset : Nat
  partialChunk : IrobChunk
  numBytes : Int
  expectedBytes : Int
  expectedChunks : Int
  recvdBytes : Int
  recvdChunks : Int
  released : Bool

/-- The members of an IROB that was constructed without data. -/
def ReceiverPart.initial : ReceiverPart := ⟨0, .zero, 0, -1, -1, 0, 0, false⟩

/-- `class PendingReceiverIROB`. -/
abbrev ReceiverIrob := PendingIrob ReceiverPart

namespace ReceiverIrob

/-- `PendingReceiverIROB(id, numdeps, deps, 0, NULL, send_labels)`, the only use
of the constructor of real IROBs. -/
def mkBegun (id : IrobId) (deps : List IrobId) (sendLabels : Nat) : ReceiverIrob :=
  .mkReal id deps [] sendLabels .initial

/-- `PendingReceiverIROB::is_ready`. -/
def isReady (irob : ReceiverIrob) : Bool := !irob.placeholder && irob.deps.isEmpty

/-- `PendingReceiverIROB::all_chunks_complete`. -/
def allChunksComplete (irob : ReceiverIrob) : Bool := irob.chunks.all (·.data.isSome)

/-- `PendingReceiverIROB::is_complete`. -/
def isComplete (irob : ReceiverIrob) : Option Bool :=
  if ¬(irob.own.recvdBytes ≤ irob.own.expectedBytes ∨ irob.own.expectedBytes = -1) then none
  else if ¬(irob.own.expectedChunks = -1 ∨ irob.own.recvdChunks ≤ irob.own.expectedChunks) then
    none
  else some (decide (irob.own.expectedBytes = irob.own.recvdBytes) &&
    decide (irob.own.expectedChunks = irob.own.recvdChunks) && irob.allChunksComplete &&
      irob.complete)

/-- `class ReadyIROB`. -/
def readyIrob (irob : ReceiverIrob) : Option Bool :=
  irob.isComplete.map fun complete => complete && irob.isReady && !irob.own.released

/-- `PendingReceiverIROB::release`. -/
def release (irob : ReceiverIrob) : ReceiverIrob :=
  { irob with own := { irob.own with released := true } }

/-- `chunks.resize(seqno + 1, empty)` when the deque is shorter, then the
assignment to `chunks[seqno]`. -/
def storeChunk (chunks : List IrobChunk) (chunk : IrobChunk) : List IrobChunk :=
  (chunks ++ List.replicate (chunk.seqno + 1 - chunks.length) IrobChunk.zero).set chunk.seqno chunk

/-- `PendingReceiverIROB::add_chunk`. -/
def addChunk (irob : ReceiverIrob) (chunk : IrobChunk) : Option (ReceiverIrob × Bool) :=
  match irob.isComplete with
  | none => none
  | some true => some (irob, false)
  | some false =>
      if irob.own.numBytes ≠ irob.own.recvdBytes then none
      else if irob.own.expectedChunks ≠ -1 ∧ toULong irob.own.expectedChunks ≤ chunk.seqno then
        some (irob, false)
      else
        let existing := irob.chunks.getD chunk.seqno .zero
        if existing.data.isSome then
          -- an already-seen chunk is ignored
          some (irob, decide (chunk.offset = existing.offset ∧ chunk.datalen = existing.datalen))
        else some ({ irob with
          chunks := storeChunk irob.chunks chunk
          own := { irob.own with
            recvdChunks := irob.own.recvdChunks + 1
            numBytes := irob.own.numBytes + chunk.datalen
            recvdBytes := irob.own.recvdBytes + chunk.datalen } }, true)

/-- `PendingReceiverIROB::finish`. -/
def finish (irob : ReceiverIrob) (expectedBytes numChunks : Int) : Option (ReceiverIrob × Bool) :=
  match irob.isComplete with
  | none => none
  | some true => some (irob, false)
  | some false =>
      let closed := { irob with complete := true }
      if irob.own.expectedBytes = -1 ∨ irob.own.expectedChunks = -1 then
        if ¬(irob.own.expectedBytes = -1 ∧ irob.own.expectedChunks = -1) then none
        else some ({ closed with own := { irob.own with
            expectedBytes := expectedBytes
            expectedChunks := numChunks } },
          !decide ((irob.chunks.length : Int) > toULong numChunks))
      else if irob.own.expectedBytes = expectedBytes ∧ irob.own.expectedChunks = numChunks then
        some (closed, false)
      else none

/-- `PendingReceiverIROB::subsume`. -/
def subsume (irob other : ReceiverIrob) : Option ReceiverIrob :=
  (PendingIrob.subsume addChunk irob other).map fun merged =>
    { merged with own := { other.own with released := merged.own.released } }

/-- `PendingReceiverIROB::seen_end`. -/
def seenEnd (irob : ReceiverIrob) : Bool := irob.own.expectedBytes != -1

/-- `PendingReceiverIROB::get_missing_chunks`; only the sequence number of each
result is set. -/
def getMissingChunks (irob : ReceiverIrob) : List Nat :=
  (List.range irob.chunks.length).filter
    (fun seqno => (irob.chunks.getD seqno .zero).data.isNone) ++
  if irob.own.expectedChunks ≠ -1 ∧ toULong irob.own.expectedChunks > irob.chunks.length then
    List.range' irob.chunks.length
      ((toULong irob.own.expectedChunks).toNat - irob.chunks.length)
  else []

/-- `PendingReceiverIROB::next_chunk_seqno`. -/
def nextChunkSeqno (irob : ReceiverIrob) : Nat := irob.chunks.length

/-- The copying loop of `read_data`. -/
def copyChunks : Nat → List IrobChunk → List Byte
  | _, [] => []
  | len, chunk :: rest =>
      if len = 0 then []
      else chunk.bytes.take (min len chunk.datalen) ++
        copyChunks (len - min len chunk.datalen) rest

/-- `PendingReceiverIROB::read_data`. -/
def readData (irob : ReceiverIrob) (len : Nat) : Option (List Byte) :=
  match irob.own.partialChunk.data with
  | none => some (copyChunks len irob.chunks)
  | some data =>
      let bytes := min len (irob.own.partialChunk.datalen - irob.own.offset)
      if bytes = 0 then none
      else some ((data.drop irob.own.offset).take bytes ++ copyChunks (len - bytes) irob.chunks)

/-- What the popping loop of `remove_bytes` leaves: the number of bytes removed,
the chunk it stopped inside with the bytes removed from it, and the others. -/
def popChunks : Nat → List IrobChunk → Nat × Option (IrobChunk × Nat) × List IrobChunk
  | _, [] => (0, none, [])
  | len, chunk :: rest =>
      if len = 0 then (0, none, chunk :: rest)
      else if len < chunk.datalen then (len, some (chunk, len), rest)
      else
        let popped := popChunks (len - chunk.datalen) rest
        (chunk.datalen + popped.1, popped.2)

/-- The loop of `remove_bytes` on an IROB without a chunk half read. -/
def removeChunks (irob : ReceiverIrob) (len : Nat) : ReceiverIrob :=
  match popChunks len irob.chunks with
  | (removed, none, rest) => { irob with
      chunks := rest
      own := { irob.own with numBytes := irob.own.numBytes - removed } }
  | (removed, some (chunk, read), rest) => { irob with
      chunks := rest
      own := { irob.own with
        offset := read
        partialChunk := chunk
        numBytes := irob.own.numBytes - removed } }

/-- `PendingReceiverIROB::remove_bytes`. -/
def removeBytes (irob : ReceiverIrob) (len : Nat) : Option ReceiverIrob :=
  if irob.own.partialChunk.data.isNone then some (irob.removeChunks len)
  else
    let left := irob.own.partialChunk.datalen - irob.own.offset
    if min len left = 0 then none
    else if left ≤ len then
      let read := { irob.own with
        partialChunk := { irob.own.partialChunk with data := none, datalen := 0 }
        offset := 0
        numBytes := irob.own.numBytes - left }
      some (removeChunks { irob with own := read } (len - left))
    else some { irob with own := { irob.own with
      offset := irob.own.offset + len
      numBytes := irob.own.numBytes - len } }

/-! ### What the operations keep

None of them touches what the lattice maintains, and none makes a complete IROB
incomplete.
-/

/-- The two ways `add_chunk` returns: nothing changed, or the chunk is stored. -/
theorem addChunk_cases {irob : ReceiverIrob} {chunk : IrobChunk} {result : ReceiverIrob × Bool}
    (added : irob.addChunk chunk = some result) :
    result.1 = irob ∨
      (result.2 = true ∧ irob.isComplete = some false ∧
        (irob.chunks.getD chunk.seqno .zero).data = none ∧
        result.1 = { irob with
          chunks := storeChunk irob.chunks chunk
          own := { irob.own with
            recvdChunks := irob.own.recvdChunks + 1
            numBytes := irob.own.numBytes + chunk.datalen
            recvdBytes := irob.own.recvdBytes + chunk.datalen } }) := by
  unfold addChunk at added
  cases complete : irob.isComplete with
  | none =>
      rw [complete] at added
      cases added
  | some whole =>
      rw [complete] at added
      cases whole with
      | true =>
          cases added
          exact .inl rfl
      | false =>
          simp only at added
          split_ifs at added with _ _ present
          · cases added
            exact .inl rfl
          · cases added
            exact .inl rfl
          · cases added
            exact .inr ⟨rfl, rfl, by simpa using present, rfl⟩

/-- The two ways `finish` returns: nothing changed, or the IROB is closed. -/
theorem finish_cases {irob : ReceiverIrob} {expectedBytes numChunks : Int}
    {result : ReceiverIrob × Bool} (finished : irob.finish expectedBytes numChunks = some result) :
    result.1 = irob ∨ (irob.isComplete = some false ∧
      ∃ own, own.released = irob.own.released ∧
        result.1 = { irob with complete := true, own := own }) := by
  unfold finish at finished
  cases complete : irob.isComplete with
  | none =>
      rw [complete] at finished
      cases finished
  | some whole =>
      rw [complete] at finished
      cases whole with
      | true =>
          cases finished
          exact .inl rfl
      | false =>
          simp only at finished
          split_ifs at finished
          · cases finished
            exact .inr ⟨rfl, { irob.own with
              expectedBytes := expectedBytes, expectedChunks := numChunks }, rfl, rfl⟩
          · cases finished
            exact .inr ⟨rfl, irob.own, rfl, rfl⟩

/-- What is left in `chunks` by the popping loop was there before. -/
theorem mem_of_popChunks {len : Nat} {chunks : List IrobChunk} {query : IrobChunk}
    (left : query ∈ (popChunks len chunks).2.2) : query ∈ chunks := by
  induction chunks generalizing len with
  | nil => exact left
  | cons chunk rest ih =>
      unfold popChunks at left
      split_ifs at left
      · exact left
      · exact List.mem_cons_of_mem _ left
      · exact List.mem_cons_of_mem _ (ih left)

/-- Two IROBs that differ in what has been read of them. -/
def SameButRead (after before : ReceiverIrob) : Prop :=
  ∃ chunks offset partialChunk numBytes, (∀ chunk ∈ chunks, chunk ∈ before.chunks) ∧
    after = { before with
      chunks := chunks
      own := { before.own with
        offset := offset
        partialChunk := partialChunk
        numBytes := numBytes } }

theorem removeChunks_sameButRead (irob : ReceiverIrob) (len : Nat) :
    SameButRead (irob.removeChunks len) irob := by
  have left : ∀ chunk ∈ (popChunks len irob.chunks).2.2, chunk ∈ irob.chunks :=
    fun _ member => mem_of_popChunks member
  unfold removeChunks
  revert left
  rcases popChunks len irob.chunks with ⟨removed, _ | ⟨chunk, read⟩, rest⟩ <;>
    exact fun left => ⟨_, _, _, _, left, rfl⟩

theorem removeBytes_sameButRead {irob result : ReceiverIrob} {len : Nat}
    (removed : irob.removeBytes len = some result) : SameButRead result irob := by
  unfold removeBytes at removed
  dsimp only at removed
  split_ifs at removed <;> cases removed
  · exact removeChunks_sameButRead irob len
  · obtain ⟨chunks, offset, partialChunk, numBytes, left, shape⟩ :=
      removeChunks_sameButRead { irob with own := { irob.own with
        partialChunk := { irob.own.partialChunk with data := none, datalen := 0 }
        offset := 0
        numBytes := irob.own.numBytes - ↑(irob.own.partialChunk.datalen - irob.own.offset) } }
        (len - (irob.own.partialChunk.datalen - irob.own.offset))
    exact ⟨chunks, offset, partialChunk, numBytes, left, shape⟩
  · exact ⟨_, _, _, _, fun _ member => member, rfl⟩

theorem SameButRead.released {after before : ReceiverIrob} (same : SameButRead after before) :
    after.own.released = before.own.released := by
  obtain ⟨chunks, offset, partialChunk, numBytes, -, rfl⟩ := same
  rfl

/-- A write that changes no links and undoes no completion. -/
structure Kept (after before : ReceiverIrob) : Prop where
  links : PendingIrob.SameLinks after before
  complete : before.isComplete = some true → after.isComplete = some true

theorem Kept.refl (irob : ReceiverIrob) : Kept irob irob := ⟨.refl _, id⟩

theorem addChunk_kept {irob : ReceiverIrob} {chunk : IrobChunk} {result : ReceiverIrob × Bool}
    (added : irob.addChunk chunk = some result) : Kept result.1 irob := by
  rcases addChunk_cases added with same | ⟨-, incomplete, -, stored⟩
  · rw [same]
    exact .refl _
  · rw [stored]
    refine ⟨⟨rfl, rfl, rfl, rfl, rfl, rfl⟩, fun complete => ?_⟩
    cases incomplete.symm.trans complete

theorem finish_kept {irob : ReceiverIrob} {expectedBytes numChunks : Int}
    {result : ReceiverIrob × Bool} (finished : irob.finish expectedBytes numChunks = some result) :
    Kept result.1 irob := by
  rcases finish_cases finished with same | ⟨incomplete, own, -, closed⟩
  · rw [same]
    exact .refl _
  · rw [closed]
    refine ⟨⟨rfl, rfl, rfl, rfl, rfl, rfl⟩, fun complete => ?_⟩
    cases incomplete.symm.trans complete

theorem finish_released {irob : ReceiverIrob} {expectedBytes numChunks : Int}
    {result : ReceiverIrob × Bool} (finished : irob.finish expectedBytes numChunks = some result) :
    result.1.own.released = irob.own.released := by
  rcases finish_cases finished with same | ⟨-, own, released, closed⟩
  · rw [same]
  · rw [closed]
    exact released

theorem release_kept (irob : ReceiverIrob) : Kept irob.release irob :=
  ⟨⟨rfl, rfl, rfl, rfl, rfl, rfl⟩, id⟩

/-- Reading a complete IROB leaves it complete: what has been read is not missed. -/
theorem SameButRead.kept {after before : ReceiverIrob} (same : SameButRead after before) :
    Kept after before := by
  obtain ⟨chunks, offset, partialChunk, numBytes, left, rfl⟩ := same
  refine ⟨⟨rfl, rfl, rfl, rfl, rfl, rfl⟩, fun complete => ?_⟩
  unfold isComplete allChunksComplete at complete ⊢
  split_ifs at complete with bytes count
  rw [if_neg (not_not_intro bytes), if_neg (not_not_intro count)]
  simp only [Option.some.injEq, Bool.and_eq_true, List.all_eq_true] at complete ⊢
  exact ⟨⟨complete.1.1, fun chunk member => complete.1.2 chunk (left chunk member)⟩, complete.2⟩

theorem receiver_subsume_links {irob other result : ReceiverIrob}
    (merged : irob.subsume other = some result) :
    PendingIrob.SameLinks result
      { irob with dependents := irob.dependents.insertAll other.dependents.toList } := by
  obtain ⟨filled, base, rfl⟩ := Option.map_eq_some_iff.mp merged
  have links := PendingIrob.subsume_links (fun _ _ _ added => (addChunk_kept added).links) base
  exact ⟨links.id, links.sendLabels, links.deps, links.dependents, links.anonymous,
    links.placeholder⟩

end ReceiverIrob

instance : IrobClass ReceiverPart where
  placeholderOwn := .initial
  subsume := ReceiverIrob.subsume
  subsume_links := ReceiverIrob.receiver_subsume_links

end Libcmm
