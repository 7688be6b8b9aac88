import Libcmm.Chunking

/-! # Runs of a sending IROB

The application and the csocket senders call a `PendingSenderIROB` in any order.
One call moves the chunking invariant on, never trapping, and returns only bytes
that stand under their sequence number for good. Along a whole run this makes
every two transmissions of a sequence number equal.
-/

namespace Libcmm

open Lib

/-- A call on a `PendingSenderIROB` by the application or a csocket sender. -/
inductive SenderCall where
  | addChunk (data : List Byte)
  | finish
  | getReadyBytes (csock : CSocketId) (bytesRequested : Int)
  | getLastSentChunk (csock : CSocketId)
  | markNotReceived (seqno : Nat)
  | markDropPoint (nextChunk : Int)
  | markSendOnAllNetworks

/-- The application adds data to the IROB. -/
def SenderCall.adds : SenderCall → Bool
  | .addChunk _ => true
  | _ => false

namespace SenderIrob

/-- The IROB after a call and the bytes to be sent, if there are any. -/
def call (irob : SenderIrob) : SenderCall → Option (SenderIrob × Option Transmission)
  | .addChunk data =>
      some ((irob.addChunk ⟨irob.id, 0, 0, data.length, some data⟩).1, none)
  | .finish => some (irob.finish.1, none)
  | .getReadyBytes csock bytesRequested =>
      (irob.getReadyBytes csock bytesRequested).map fun result =>
        (result.1, if result.2.bytes.isEmpty then none else some result.2)
  | .getLastSentChunk csock => (irob.getLastSentChunk csock).map fun probe => (irob, probe)
  | .markNotReceived seqno => (irob.markNotReceived seqno).map fun marked => (marked, none)
  | .markDropPoint nextChunk => (irob.markDropPoint nextChunk).map fun marked => (marked, none)
  | .markSendOnAllNetworks => some (irob.markSendOnAllNetworks, none)

section Inversion

variable {irob after : SenderIrob} {csock : CSocketId} {requested : Int}
  {transmission : Transmission}

/-- The place of a csocket moves by one chunk, the one it is given. -/
theorem addSentChunk_cases {seqno offset len : Nat}
    (added : irob.addSentChunk csock seqno offset len = some after) :
    ∃ sentChunks irobOffsets, after = { irob with own := { irob.own with
        sentChunks := sentChunks
        irobOffsets := irobOffsets
        nextSeqnosToSend := Function.update irob.own.nextSeqnosToSend
          (irob.nullIndexIfSingleSending csock) (seqno + 1) } } ∧
      (seqno = irob.own.sentChunks.length ∧
          sentChunks = irob.own.sentChunks ++ [⟨irob.id, seqno, offset, len, none⟩] ∨
        seqno < irob.own.sentChunks.length ∧ sentChunks = irob.own.sentChunks) := by
  unfold addSentChunk at added
  cases found : irob.own.sentChunks[seqno]? with
  | none =>
      simp only [found] at added
      split_ifs at added with next
      cases added
      exact ⟨_, _, rfl, .inl ⟨next, rfl⟩⟩
  | some alreadySent =>
      simp only [found] at added
      split_ifs at added
      cases added
      exact ⟨_, _, rfl, .inr ⟨(List.getElem?_eq_some_iff.mp found).1, rfl⟩⟩

/-- A thread is given the first chunk that is to be sent again, nothing, or the chunk at the
place of its csocket. -/
theorem getReadyBytes_cases
    (got : irob.getReadyBytes csock requested = some (after, transmission)) :
    (∃ chunk rest, irob.own.resendChunks = chunk :: rest ∧
      after = { irob with own := { irob.own with resendChunks := rest } } ∧
      transmission.seqno = chunk.seqno ∧ transmission.bytes.length = chunk.datalen) ∨
    (irob.own.resendChunks = [] ∧ after = irob ∧ transmission.bytes = []) ∨
    irob.own.resendChunks = [] ∧ transmission.bytes ≠ [] ∧
      transmission.seqno = irob.own.nextSeqnosToSend (irob.nullIndexIfSingleSending csock) ∧
      irob.addSentChunk csock transmission.seqno (irob.getIrobOffset csock)
        transmission.bytes.length = some after := by
  unfold getReadyBytes at got
  cases waiting : irob.own.resendChunks with
  | cons chunk rest =>
      simp only [waiting] at got
      obtain ⟨data, gathered, onward⟩ := Option.bind_eq_some_iff.mp got
      split_ifs at onward with whole
      cases onward
      exact .inl ⟨chunk, rest, rfl, rfl, rfl, not_not.mp whole⟩
  | nil =>
      simp only [waiting] at got
      obtain ⟨seqno, next, onward⟩ := Option.bind_eq_some_iff.mp got
      obtain ⟨data, gathered, last⟩ := Option.bind_eq_some_iff.mp onward
      have place : seqno = irob.own.nextSeqnosToSend (irob.nullIndexIfSingleSending csock) := by
        unfold getNextSeqnoToSend at next
        simp only at next
        split_ifs at next
        cases next
        rfl
      split_ifs at last with nothing
      · cases last
        exact .inr (.inl ⟨rfl, rfl, List.length_eq_zero_iff.mp nothing⟩)
      · obtain ⟨sent, added, result⟩ := Option.bind_eq_some_iff.mp last
        cases result
        exact .inr (.inr ⟨rfl, fun empty => nothing (congrArg List.length empty), place, added⟩)

/-- Only what is to be sent again changes. -/
theorem markNotReceived_eq {seqno : Nat} (marking : irob.markNotReceived seqno = some after) :
    ∃ chunks, after = { irob with own := { irob.own with resendChunks := chunks } } := by
  unfold markNotReceived at marking
  split_ifs at marking
  · cases marking
    exact ⟨_, rfl⟩
  · obtain ⟨chunk, -, rfl⟩ := Option.map_eq_some_iff.mp marking
    exact ⟨_, rfl⟩

theorem markDropPoint_eq {nextChunk : Int} (dropping : irob.markDropPoint nextChunk = some after) :
    ∃ chunks, after = { irob with own := { irob.own with resendChunks := chunks } } := by
  unfold markDropPoint at dropping
  generalize List.range' nextChunk.toNat (irob.own.sentChunks.length - nextChunk.toNat) = seqnos
    at dropping
  induction seqnos generalizing irob with
  | nil =>
      cases dropping
      exact ⟨_, rfl⟩
  | cons seqno rest ih =>
      obtain ⟨marked, marking, onward⟩ := Option.bind_eq_some_iff.mp dropping
      obtain ⟨now, rfl⟩ := markNotReceived_eq marking
      obtain ⟨later, rfl⟩ := ih onward
      exact ⟨later, rfl⟩

end Inversion

/-! Whatever is called, the dependency lattice reads the same members. -/

theorem getReadyBytes_links {irob : SenderIrob} {csock : CSocketId} {bytesRequested : Int}
    {result : SenderIrob × Transmission}
    (gathered : irob.getReadyBytes csock bytesRequested = some result) :
    PendingIrob.SameLinks result.1 irob := by
  rcases getReadyBytes_cases gathered with ⟨_, _, -, same, -⟩ | ⟨-, same, -⟩ | ⟨-, -, -, added⟩
  · rw [same]
    exact ⟨rfl, rfl, rfl, rfl, rfl, rfl⟩
  · rw [same]
    exact .refl _
  · obtain ⟨_, _, same, -⟩ := addSentChunk_cases added
    rw [same]
    exact ⟨rfl, rfl, rfl, rfl, rfl, rfl⟩

theorem addChunk_links (irob : SenderIrob) (chunk : IrobChunk) :
    PendingIrob.SameLinks (irob.addChunk chunk).1 irob := by
  unfold addChunk
  split_ifs <;> exact ⟨rfl, rfl, rfl, rfl, rfl, rfl⟩

theorem finish_links (irob : SenderIrob) : PendingIrob.SameLinks irob.finish.1 irob := by
  unfold PendingIrob.finish
  split_ifs <;> exact ⟨rfl, rfl, rfl, rfl, rfl, rfl⟩

theorem call_links {irob : SenderIrob} {calling : SenderCall}
    {result : SenderIrob × Option Transmission} (called : irob.call calling = some result) :
    PendingIrob.SameLinks result.1 irob := by
  cases calling with
  | addChunk data =>
      cases called
      exact addChunk_links irob _
  | finish =>
      cases called
      exact finish_links irob
  | getReadyBytes csock bytesRequested =>
      obtain ⟨gathered, ready, rfl⟩ := Option.map_eq_some_iff.mp called
      exact getReadyBytes_links ready
  | getLastSentChunk csock =>
      obtain ⟨probe, -, rfl⟩ := Option.map_eq_some_iff.mp called
      exact .refl _
  | markNotReceived seqno =>
      obtain ⟨marked, marking, rfl⟩ := Option.map_eq_some_iff.mp called
      obtain ⟨chunks, rfl⟩ := markNotReceived_eq marking
      exact ⟨rfl, rfl, rfl, rfl, rfl, rfl⟩
  | markDropPoint nextChunk =>
      obtain ⟨marked, marking, rfl⟩ := Option.map_eq_some_iff.mp called
      obtain ⟨chunks, rfl⟩ := markDropPoint_eq marking
      exact ⟨rfl, rfl, rfl, rfl, rfl, rfl⟩
  | markSendOnAllNetworks =>
      cases called
      exact ⟨rfl, rfl, rfl, rfl, rfl, rfl⟩

/-- Resends are asked for chunks that were sent, and drop points are not negative. -/
def Allows (irob : SenderIrob) : SenderCall → Prop
  | .markNotReceived seqno => seqno < irob.own.sentChunks.length
  | .markDropPoint nextChunk => 0 ≤ nextChunk
  | _ => True

instance (irob : SenderIrob) : DecidablePred irob.Allows
  | .markNotReceived _ => Nat.decLt _ _
  | .markDropPoint nextChunk => inferInstanceAs (Decidable (0 ≤ nextChunk))
  | .addChunk _ => .isTrue trivial
  | .finish => .isTrue trivial
  | .getReadyBytes _ _ => .isTrue trivial
  | .getLastSentChunk _ => .isTrue trivial
  | .markSendOnAllNetworks => .isTrue trivial

/-- What a call does to an IROB of which `blocks` of `data` have been sent. -/
structure Called (calling : SenderCall) (data : List Byte) (blocks : List (List Byte))
    (irob after : SenderIrob) (sent : Option Transmission) (laterData : List Byte)
    (laterBlocks : List (List Byte)) : Prop where
  chunked : Chunked laterData laterBlocks after
  blocks : blocks <+: laterBlocks
  data : irob.complete = true ∨ calling.adds = false → laterData = data
  closed : irob.complete = true → after.complete = true
  links : PendingIrob.SameLinks after irob
  carries : ∀ transmission, sent = some transmission → transmission.Carries laterBlocks

/-- Every call returns, and keeps the chunking. -/
theorem Chunked.call {data : List Byte} {blocks : List (List Byte)} {irob : SenderIrob}
    (chunked : Chunked data blocks irob) {calling : SenderCall} (allowed : irob.Allows calling) :
    ∃ after sent laterData laterBlocks, irob.call calling = some (after, sent) ∧
      Called calling data blocks irob after sent laterData laterBlocks := by
  have silent : ∀ {transmission : Transmission} {later : List (List Byte)},
      none = some transmission → transmission.Carries later := fun absent => nomatch absent
  cases calling with
  | addChunk bytes =>
      refine ⟨_, _, _, blocks, rfl, chunked.addChunk bytes, List.prefix_rfl, fun unchanged => ?_,
        fun complete => ?_, ?_, fun _ => silent⟩
      · rw [if_pos (unchanged.resolve_right nofun)]
      · rw [SenderIrob.addChunk, if_pos complete]
        exact complete
      · exact addChunk_links irob _
  | finish =>
      refine ⟨_, _, data, blocks, rfl, chunked.finish, List.prefix_rfl, fun _ => rfl,
        fun complete => ?_, ?_, fun _ => silent⟩
      · rw [PendingIrob.finish, if_pos complete]
        exact complete
      · exact finish_links irob
  | getReadyBytes csock bytesRequested =>
      obtain ⟨after, transmission, later, getting, kept, longer, links, complete, carries⟩ :=
        chunked.getReadyBytes csock bytesRequested
      refine ⟨after, if transmission.bytes.isEmpty then none else some transmission, data, later, ?_,
        kept, longer, fun _ => rfl, complete.trans, links, ?_⟩
      · rw [SenderIrob.call, getting]
        rfl
      · intro sent returned
        split_ifs at returned with empty
        cases returned
        apply carries
        intro none
        exact empty (List.isEmpty_iff.mpr none)
  | getLastSentChunk csock =>
      obtain ⟨probe, getting, carries⟩ := chunked.getLastSentChunk csock
      refine ⟨irob, probe, data, blocks, ?_, chunked, List.prefix_rfl, fun _ => rfl,
        id, .refl _, carries⟩
      rw [SenderIrob.call, getting]
      rfl
  | markNotReceived seqno =>
      obtain ⟨marked, marking, kept, links, complete, -⟩ := chunked.markNotReceived allowed
      refine ⟨marked, none, data, blocks, ?_, kept, List.prefix_rfl,
        fun _ => rfl, complete.trans, links, fun _ => silent⟩
      rw [SenderIrob.call, marking]
      rfl
  | markDropPoint nextChunk =>
      obtain ⟨marked, marking, kept, links, complete, -⟩ := chunked.markDropPoint nextChunk
      refine ⟨marked, none, data, blocks, ?_, kept, List.prefix_rfl,
        fun _ => rfl, complete.trans, links, fun _ => silent⟩
      rw [SenderIrob.call, marking]
      rfl
  | markSendOnAllNetworks =>
      exact ⟨_, _, data, blocks, rfl, chunked.markSendOnAllNetworks, List.prefix_rfl,
        fun _ => rfl, id, ⟨rfl, rfl, rfl, rfl, rfl, rfl⟩, fun _ => silent⟩

end SenderIrob

/-- An IROB with what has been transmitted of it. -/
structure SenderRun where
  irob : SenderIrob
  transmissions : List Transmission

namespace SenderRun

open SenderIrob

/-- Any calls that ask for resends of sent chunks only, on an IROB with any data. -/
def machine : Machine SenderRun SenderCall where
  initial run := ∃ id deps data sendLabels, run = ⟨.mk id deps data sendLabels, []⟩
  permitted run calling := run.irob.Allows calling
  step run calling := (run.irob.call calling).map fun result =>
    ⟨result.1, result.2.toList ++ run.transmissions⟩

instance (run : SenderRun) (calling : SenderCall) : Decidable (machine.permitted run calling) :=
  inferInstanceAs (Decidable (run.irob.Allows calling))

/-- All transmissions are blocks of one chunking. -/
def Consistent (run : SenderRun) : Prop :=
  ∃ data blocks, Chunked data blocks run.irob ∧
    ∀ transmission ∈ run.transmissions, transmission.Carries blocks

/-- One call keeps all transmissions consistent. -/
theorem Consistent.step {run : SenderRun} (consistent : run.Consistent) {calling : SenderCall}
    (allowed : run.irob.Allows calling) :
    ∃ after, machine.step run calling = some after ∧ after.Consistent := by
  obtain ⟨data, blocks, chunked, carried⟩ := consistent
  obtain ⟨after, sent, laterData, laterBlocks, called, result⟩ := chunked.call allowed
  refine ⟨⟨after, sent.toList ++ run.transmissions⟩, ?_, laterData, laterBlocks, result.chunked, ?_⟩
  · change (run.irob.call calling).map _ = _
    rw [called]
    rfl
  · intro transmission member
    rcases List.mem_append.mp member with new | old
    · exact result.carries transmission (Option.mem_toList.mp new)
    · exact (carried transmission old).extend result.blocks

theorem consistent_of_reachable {run : SenderRun} (reached : machine.Reachable run) :
    run.Consistent := by
  apply reached.induct
  · rintro first ⟨id, deps, data, sendLabels, rfl⟩
    exact ⟨data, [], .initial id deps data sendLabels, fun _ absent => nomatch absent⟩
  · intro before after calling _ consistent allowed moved
    obtain ⟨next, stepped, kept⟩ := consistent.step allowed
    cases stepped.symm.trans moved
    exact kept

/-- Chunking consistency at the sender: in every run the sent chunks tile what was
sent, every csocket stands at the boundary behind the chunks it was given, two
transmissions of one sequence number are the same bytes at the same offset, and no
call fails an `ASSERT`. -/
theorem sent_chunks_tile {run : SenderRun} (reached : machine.Reachable run) :
    (∀ index chunk, run.irob.own.sentChunks[index]? = some chunk →
      chunk.seqno = index ∧ chunk.offset = sumChunks (run.irob.own.sentChunks.take index)) ∧
    (∀ key, run.irob.own.nextSeqnosToSend key ≤ run.irob.own.sentChunks.length ∧
      run.irob.own.irobOffsets key =
        sumChunks (run.irob.own.sentChunks.take (run.irob.own.nextSeqnosToSend key)) ∧
      run.irob.own.irobOffsets key ≤ run.irob.expectedBytes) ∧
    (∀ csock, 0 ≤ run.irob.numReadyBytes csock) ∧
    (∀ first ∈ run.transmissions, ∀ second ∈ run.transmissions, first.seqno = second.seqno →
      first.offset = second.offset ∧ first.bytes = second.bytes) ∧
    ∀ calling, run.irob.Allows calling → ∃ after, machine.step run calling = some after := by
  have consistent := consistent_of_reachable reached
  obtain ⟨data, blocks, chunked, carried⟩ := consistent
  have bounded : ∀ key, run.irob.own.irobOffsets key ≤ run.irob.expectedBytes := by
    intro key
    rw [(chunked.keys key).2, chunked.expectedBytes_eq]
    calc (blocks.take (run.irob.own.nextSeqnosToSend key)).flatten.length
        ≤ (blocks.take blocks.length).flatten.length :=
          length_flatten_take_le (chunked.keys key).1
      _ = blocks.flatten.length := by rw [List.take_length]
      _ ≤ data.length := chunked.within.length_le
  refine ⟨fun index chunk sent => ?_, fun key => ⟨?_, ?_, bounded key⟩, fun csock => ?_, ?_, ?_⟩
  · obtain ⟨block, -, shape⟩ := chunked.block_of_sent sent
    rw [shape, chunked.sumChunks_take]
    exact ⟨rfl, rfl⟩
  · rw [chunked.length_sent]
    exact (chunked.keys key).1
  · rw [chunked.sumChunks_take]
    exact (chunked.keys key).2
  · have bound := bounded (run.irob.nullIndexIfSingleSending csock)
    rw [numReadyBytes, getIrobOffset]
    omega
  · intro first firstSent second secondSent same
    obtain ⟨firstBytes, firstOffset⟩ := carried first firstSent
    obtain ⟨secondBytes, secondOffset⟩ := carried second secondSent
    rw [same] at firstBytes firstOffset
    exact ⟨firstOffset.trans secondOffset.symm,
      Option.some.inj (firstBytes.symm.trans secondBytes)⟩
  · intro calling allowed
    obtain ⟨after, stepped, -⟩ := consistent_of_reachable reached |>.step allowed
    exact ⟨after, stepped⟩

/-- Two csockets send an IROB of five bytes in two chunks, and the first chunk is
sent again after redundancy is switched on. -/
def stripedCalls : List SenderCall :=
  [.addChunk [1, 2], .addChunk [], .addChunk [3, 4, 5], .getReadyBytes 0 3, .getReadyBytes 1 0,
    .finish, .markNotReceived 0, .markSendOnAllNetworks, .getReadyBytes 1 1, .getReadyBytes 0 9]

theorem sent_chunks_tile_striped : ∃ run, machine.Reachable run ∧
    run.transmissions.map (fun sent => (sent.seqno, sent.bytes)) =
      [(0, [1, 2, 3]), (0, [1, 2, 3]), (1, [4, 5]), (0, [1, 2, 3])] ∧
    0 ≤ run.irob.numReadyBytes 1 := by
  have ran : ∃ run, machine.run ⟨.mk 7 [] [] 0, []⟩ stripedCalls = some run ∧
      run.transmissions.map (fun sent => (sent.seqno, sent.bytes)) =
        [(0, [1, 2, 3]), (0, [1, 2, 3]), (1, [4, 5]), (0, [1, 2, 3])] := ⟨_, rfl, rfl⟩
  obtain ⟨run, ran, sent⟩ := ran
  have start : machine.initial ⟨.mk 7 [] [] 0, []⟩ := ⟨7, [], [], 0, rfl⟩
  have reached := Machine.Reachable.run (.initial start) ran
  exact ⟨run, reached, sent, (sent_chunks_tile reached).2.2.1 1⟩

end SenderRun

end Libcmm
