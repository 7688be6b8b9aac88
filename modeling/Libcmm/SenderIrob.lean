import Libcmm.Irob
import Libcmm.Tiling

/-! # Sending one IROB (`PendingSenderIROB`)

The application adds chunks of its own; the csocket senders ask for bytes and so
decide on the fly how the IROB is cut into the chunks that are sent. What was sent
once is remembered in `sent_chunks` (without its bytes) and is cut in the same way
when it is sent again.

Progress is kept in maps from csockets, under the null key while the IROB is not
sent on all networks. A missing key reads as zero, so a map is a function. A failed
`ASSERT` and an access outside a deque trap (`none`).
-/

namespace Libcmm

open Lib

/-- A csocket, as the sender's maps know it. -/
abbrev CSocketId := Nat

/-- The members that `PendingSenderIROB` adds to `PendingIROB`. -/
structure SenderPart where
  announcements : Option CSocketId → Bool
  endAnnouncements : Option CSocketId → Bool
  acked : Bool
  nextSeqnosToSend : Option CSocketId → Nat
  sentChunks : List IrobChunk
  resendChunks : List IrobChunk
  numBytes : Nat
  irobOffsets : Option CSocketId → Nat
  sendOnAllNetworks : Bool

/-- The members of an IROB constructed with `datalen` bytes. -/
def SenderPart.initial (datalen : Nat) : SenderPart :=
  ⟨fun _ => false, fun _ => false, false, fun _ => 0, [], [], datalen, fun _ => 0, false⟩

/-- `class PendingSenderIROB`. -/
abbrev SenderIrob := PendingIrob SenderPart

/-- `irob_chunk_data::operator<`. -/
def IrobChunk.before (first second : IrobChunk) : Bool :=
  decide (first.id < second.id) || (decide (first.id = second.id) &&
    decide (first.seqno < second.seqno))

/-- A chunk without its bytes. -/
def IrobChunk.header (chunk : IrobChunk) : IrobChunk := { chunk with data := none }

/-- What `get_ready_bytes` returns: the pieces of application data, their sequence
number and their offset. `bytes_requested` becomes their total length. -/
structure Transmission where
  data : List (List Byte)
  seqno : Nat
  offset : Nat

/-- The bytes of a transmission. -/
def Transmission.bytes (transmission : Transmission) : List Byte := transmission.data.flatten

namespace SenderIrob

/-- `PendingSenderIROB::PendingSenderIROB`. -/
def mk (id : IrobId) (deps : List IrobId) (data : List Byte) (sendLabels : Nat) : SenderIrob :=
  .mkReal id deps data sendLabels (.initial data.length)

/-- `PendingSenderIROB::add_chunk`. -/
def addChunk (irob : SenderIrob) (chunk : IrobChunk) : SenderIrob × Bool :=
  if irob.complete then (irob, false)
  else
    ({ irob with
      chunks := irob.chunks ++
        [{ chunk with seqno := irob.chunks.length, offset := irob.own.numBytes }]
      own := { irob.own with numBytes := irob.own.numBytes + chunk.datalen } }, true)

/-- `PendingSenderIROB::expected_bytes`. -/
def expectedBytes (irob : SenderIrob) : Nat := sumChunks irob.chunks

/-- `PendingSenderIROB::all_bytes_chunked`. -/
def allBytesChunked (irob : SenderIrob) : Bool :=
  sumChunks irob.own.sentChunks == irob.expectedBytes

/-- `PendingSenderIROB::num_sender_chunks`. -/
def numSenderChunks (irob : SenderIrob) : Nat := irob.own.sentChunks.length

/-- `PendingSenderIROB::null_index_if_single_sending`. -/
def nullIndexIfSingleSending (irob : SenderIrob) (csock : CSocketId) : Option CSocketId :=
  if irob.own.sendOnAllNetworks then some csock else none

/-- `PendingSenderIROB::get_irob_offset`. -/
def getIrobOffset (irob : SenderIrob) (csock : CSocketId) : Nat :=
  irob.own.irobOffsets (irob.nullIndexIfSingleSending csock)

/-- `PendingSenderIROB::get_next_seqno_to_send`. -/
def getNextSeqnoToSend (irob : SenderIrob) (csock : CSocketId) : Option Nat :=
  let seqno := irob.own.nextSeqnosToSend (irob.nullIndexIfSingleSending csock)
  if seqno ≤ irob.own.sentChunks.length then some seqno else none

/-- `PendingSenderIROB::num_ready_bytes`, before it is stored as a `size_t`. -/
def numReadyBytes (irob : SenderIrob) (csock : CSocketId) : Int :=
  (irob.expectedBytes : Int) - irob.getIrobOffset csock

/-- `PendingSenderIROB::find_app_chunk`, as an index; the length is the end. The
chunks are in order of their offsets, so `upper_bound` returns the first one beyond
the offset. -/
def findAppChunk (chunkList : List IrobChunk) (offset : Nat) : Nat :=
  let it := (chunkList.takeWhile fun chunk => decide (chunk.offset ≤ offset)).length
  match chunkList[it - 1]? with
  | none => it
  | some target =>
      if target.offset ≤ offset ∧ offset < target.offset + target.datalen then it - 1 else it

/-- The gathering loop of `get_bytes_internal`. -/
def gather : Nat → Nat → List IrobChunk → List (List Byte)
  | _, _, [] => []
  | curChunkOffset, len, chunk :: rest =>
      if len = 0 then []
      else
        let bytes := min (chunk.datalen - curChunkOffset) len
        (chunk.bytes.drop curChunkOffset).take bytes :: gather 0 (len - bytes) rest

/-- `PendingSenderIROB::get_bytes_internal`. -/
def getBytesInternal (irob : SenderIrob) (offset len : Nat) : Option (List (List Byte)) :=
  match irob.chunks.drop (findAppChunk irob.chunks offset) with
  | [] => some []
  | chunk :: rest =>
      match irob.own.sentChunks[findAppChunk irob.own.sentChunks offset]? with
      | none => some (gather (offset - chunk.offset) len (chunk :: rest))
      | some sent =>
          -- data that has been chunked and sent is returned as the same chunk
          if offset ≠ sent.offset then none
          else some (gather (offset - chunk.offset) sent.datalen (chunk :: rest))

/-- `PendingSenderIROB::add_sent_chunk`, after its caller read the sequence number
and the offset of the csocket. -/
def addSentChunk (irob : SenderIrob) (csock : CSocketId) (seqno offset len : Nat) :
    Option SenderIrob :=
  let key := irob.nullIndexIfSingleSending csock
  let advanced := { irob.own with
    nextSeqnosToSend := Function.update irob.own.nextSeqnosToSend key (seqno + 1)
    irobOffsets := Function.update irob.own.irobOffsets key (offset + len) }
  match irob.own.sentChunks[seqno]? with
  | none =>
      if seqno = irob.own.sentChunks.length then
        some { irob with own := { advanced with
          sentChunks := irob.own.sentChunks ++ [⟨irob.id, seqno, offset, len, none⟩] } }
      else none
  | some alreadySent =>
      if alreadySent.offset = offset ∧ alreadySent.datalen = len then
        some { irob with own := advanced }
      else none

/-- `PendingSenderIROB::get_ready_bytes`. -/
def getReadyBytes (irob : SenderIrob) (csock : CSocketId) (bytesRequested : Int) :
    Option (SenderIrob × Transmission) :=
  let requested : Nat :=
    if bytesRequested ≤ 0 then irob.own.numBytes - irob.getIrobOffset csock
    else bytesRequested.toNat
  match irob.own.resendChunks with
  | chunk :: rest => do
      let data ← irob.getBytesInternal chunk.offset chunk.datalen
      -- ASSERT(len == lencopy)
      if data.flatten.length ≠ chunk.datalen then none
      else some ({ irob with own := { irob.own with resendChunks := rest } },
        ⟨data, chunk.seqno, chunk.offset⟩)
  | [] => do
      let seqno ← irob.getNextSeqnoToSend csock
      let offset := irob.getIrobOffset csock
      let data ← irob.getBytesInternal offset requested
      if data.flatten.length = 0 then some (irob, ⟨data, seqno, offset⟩)
      else
        let sent ← irob.addSentChunk csock seqno offset data.flatten.length
        some (sent, ⟨data, seqno, offset⟩)

/-- `PendingSenderIROB::get_last_sent_chunk_htonl`; nothing is returned before the
first chunk was sent. -/
def getLastSentChunk (irob : SenderIrob) (csock : CSocketId) : Option (Option Transmission) := do
  let seqno ← irob.getNextSeqnoToSend csock
  if irob.own.sentChunks.isEmpty ∨ seqno = 0 then some none
  else
    let lastChunk ← irob.own.sentChunks[seqno - 1]?
    let data ← irob.getBytesInternal lastChunk.offset lastChunk.datalen
    some (some ⟨data, lastChunk.seqno, lastChunk.offset⟩)

/-- `std::set::insert` for `resend_chunks`. -/
def placeResend (chunk : IrobChunk) : List IrobChunk → List IrobChunk
  | [] => [chunk]
  | first :: rest =>
      if chunk.before first then chunk :: first :: rest
      else if first.before chunk then first :: placeResend chunk rest
      else first :: rest

/-- `PendingSenderIROB::mark_not_received`. The check lets through one sequence
number beyond the last chunk. -/
def markNotReceived (irob : SenderIrob) (seqno : Nat) : Option SenderIrob :=
  if irob.own.sentChunks.length < seqno then some irob
  else irob.own.sentChunks[seqno]?.map fun chunk =>
    { irob with own := { irob.own with
      resendChunks := placeResend chunk irob.own.resendChunks } }

/-- `PendingSenderIROB::mark_drop_point`. A negative sequence number fails the check
of `mark_not_received` as a huge unsigned one. -/
def markDropPoint (irob : SenderIrob) (nextChunk : Int) : Option SenderIrob :=
  (List.range' nextChunk.toNat (irob.own.sentChunks.length - nextChunk.toNat)).foldlM
    markNotReceived irob

/-- `PendingSenderIROB::mark_send_on_all_networks`. -/
def markSendOnAllNetworks (irob : SenderIrob) : SenderIrob :=
  { irob with own := { irob.own with sendOnAllNetworks := true } }

/-- `PendingSenderIROB::ack`. -/
def ack (irob : SenderIrob) : SenderIrob := { irob with own := { irob.own with acked := true } }

/-- The IROB as `outgoing_irobs` holds it. -/
def toOutgoing (irob : SenderIrob) : PendingIrob (Option SenderPart) :=
  { irob with own := some irob.own }

end SenderIrob

/-! ### In the outgoing lattice -/

/-- An entry of `outgoing_irobs`. The placeholders there are plain `PendingIROB`s,
without the members of a sending IROB. -/
abbrev OutgoingIrob := PendingIrob (Option SenderPart)

namespace OutgoingIrob

/-- `dynamic_cast<PendingSenderIROB*>`. -/
def asSender (irob : OutgoingIrob) : Option SenderIrob :=
  irob.own.map fun part => { irob with own := part }

/-- An IROB is itself in the lattice. -/
theorem eq_of_asSender {pirob : OutgoingIrob} {psirob : SenderIrob}
    (same : asSender pirob = some psirob) : pirob = psirob.toOutgoing := by
  obtain ⟨part, own, rfl⟩ := Option.map_eq_some_iff.mp same
  cases pirob
  cases own
  rfl

theorem asSender_toOutgoing (psirob : SenderIrob) : asSender psirob.toOutgoing = some psirob := rfl

/-- `add_chunk` of the class the entry is of. -/
def addChunk (irob : OutgoingIrob) (chunk : IrobChunk) : OutgoingIrob × Bool :=
  match asSender irob with
  | some sender => ((sender.addChunk chunk).1.toOutgoing, (sender.addChunk chunk).2)
  | none =>
      if irob.complete then (irob, false) else ({ irob with chunks := irob.chunks ++ [chunk] }, true)

theorem addChunk_links (irob : OutgoingIrob) (chunk : IrobChunk) :
    PendingIrob.SameLinks (addChunk irob chunk).1 irob := by
  unfold addChunk asSender SenderIrob.addChunk
  cases irob.own with
  | none =>
      simp only [Option.map_none]
      split_ifs <;> exact ⟨rfl, rfl, rfl, rfl, rfl, rfl⟩
  | some part =>
      simp only [Option.map_some]
      split_ifs <;> exact ⟨rfl, rfl, rfl, rfl, rfl, rfl⟩

/-- A sending IROB that gets a chunk is still one. -/
theorem addChunk_own {irob : OutgoingIrob} (sender : irob.own.isSome = true) (chunk : IrobChunk) :
    (addChunk irob chunk).1.own.isSome = true := by
  obtain ⟨part, own⟩ := Option.isSome_iff_exists.mp sender
  unfold addChunk asSender
  rw [own]
  rfl

end OutgoingIrob

instance : IrobClass (Option SenderPart) where
  placeholderOwn := none
  subsume := PendingIrob.subsume fun irob chunk => some (OutgoingIrob.addChunk irob chunk)
  subsume_links := PendingIrob.subsume_links fun irob chunk _ added => by
    cases added
    exact OutgoingIrob.addChunk_links irob chunk

/-- A sending IROB that takes the place of a placeholder is still one. -/
theorem OutgoingIrob.subsume_own {irob other stored : OutgoingIrob}
    (merged : IrobClass.subsume irob other = some stored) (sender : irob.own.isSome = true) :
    stored.own.isSome = true := by
  obtain ⟨filled, folding, result⟩ := Option.bind_eq_some_iff.mp merged
  cases result
  have fold : ∀ (chunks : List IrobChunk) (start filled : OutgoingIrob),
      chunks.foldlM (fun sofar chunk => (some (addChunk sofar chunk)).map Prod.fst) start =
        some filled → start.own.isSome = true → filled.own.isSome = true := by
    intro chunks
    induction chunks with
    | nil =>
        intro start filled folded own
        cases folded
        exact own
    | cons chunk rest ih =>
        intro start filled folded own
        exact ih _ _ folded (addChunk_own own chunk)
  exact fold other.chunks _ filled folding sender

end Libcmm
