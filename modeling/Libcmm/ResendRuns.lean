import Libcmm.Recovery

/-! # Resend requests of any peer

A `PendingSenderIROB` under the calls of the application and the csocket senders, and under
any `Resend_Request` that the peer sends for it: the sequence number and the drop point are
the peer's choice. The check of `mark_not_received` lets through the sequence number that is
one beyond the last sent chunk, and only that access leaves `sent_chunks`.
-/

namespace Libcmm

open Lib

/-- The calls by which `resend_request_received` marks chunks. -/
def SenderCall.marks : SenderCall → Bool
  | .markNotReceived _ | .markDropPoint _ => true
  | _ => false

/-- A call of the application or a sender, or a request of the peer. -/
inductive ResendCall where
  | call (calling : SenderCall)
  | peer (request : ResendRequest)

namespace SenderIrob

variable {irob : SenderIrob} {data : List Byte} {blocks : List (List Byte)}

/-- The chunk of a sequence number is looked up unless the number is beyond the check, and
is not there if it is the first that was not sent. -/
theorem markNotReceived_isSome_iff {seqno : Nat} :
    (irob.markNotReceived seqno).isSome = true ↔ seqno ≠ irob.own.sentChunks.length := by
  unfold markNotReceived
  split_ifs with beyond
  · exact iff_of_true rfl (ne_of_gt beyond)
  · rw [Option.isSome_map, isSome_getElem?]
    exact ⟨ne_of_lt, lt_of_le_of_ne (not_lt.mp beyond)⟩

/-- Only chunks that were sent are marked from a drop point on. -/
theorem markDropPoint_isSome (irob : SenderIrob) (nextChunk : Int) :
    (irob.markDropPoint nextChunk).isSome = true := by
  have loop : ∀ (seqnos : List Nat) (start : SenderIrob),
      (∀ seqno ∈ seqnos, seqno < start.own.sentChunks.length) →
        (seqnos.foldlM markNotReceived start).isSome = true := by
    intro seqnos
    induction seqnos with
    | nil => exact fun _ _ => rfl
    | cons seqno rest ih =>
        intro start bounds
        obtain ⟨next, marking⟩ := Option.isSome_iff_exists.mp
          (markNotReceived_isSome_iff.mpr (bounds seqno List.mem_cons_self).ne)
        obtain ⟨chunks, rfl⟩ := markNotReceived_eq marking
        rw [List.foldlM_cons, marking]
        exact ih _ fun other member => bounds other (List.mem_cons_of_mem _ member)
  refine loop _ irob fun seqno member => ?_
  obtain ⟨offset, small, rfl⟩ := List.mem_range'.mp member
  omega

/-- A resend request is handled within `sent_chunks` if and only if it does not ask for the
data of the first chunk that was not sent. -/
theorem resend_isSome_iff (irob : SenderIrob) (request : ResendRequest) :
    (irob.resend request).isSome = true ↔
      ¬(request.request.data = true ∧ request.seqno = irob.own.sentChunks.length) := by
  have marks : (if request.request.data then irob.markNotReceived request.seqno
      else some irob).isSome = true ↔
      ¬(request.request.data = true ∧ request.seqno = irob.own.sentChunks.length) := by
    split_ifs with asked
    · rw [markNotReceived_isSome_iff, asked, eq_self, true_and]
    · exact iff_of_true rfl fun both => asked both.1
  rw [← marks]
  unfold SenderIrob.resend
  cases marking : (if request.request.data then irob.markNotReceived request.seqno
    else some irob) with
  | none => exact Iff.rfl
  | some marked =>
      refine iff_of_true ?_ rfl
      simp only [Option.bind_eq_bind, Option.bind_some]
      split_ifs
      · obtain ⟨dropped, dropping⟩ := Option.isSome_iff_exists.mp
          (marked.markDropPoint_isSome request.nextChunk)
        rw [dropping]
        rfl
      · rfl

/-- A handled request keeps the chunking. -/
theorem Chunked.of_resend (chunked : Chunked data blocks irob) {request : ResendRequest}
    {result : SenderIrob × Rescheduled} (resent : irob.resend request = some result) :
    Chunked data blocks result.1 := by
  obtain ⟨marked, marking, onward⟩ := Option.bind_eq_some_iff.mp resent
  obtain ⟨dropped, dropping, finished⟩ := Option.bind_eq_some_iff.mp onward
  cases finished
  have kept : Chunked data blocks marked := by
    split_ifs at marking
    · exact (chunked.of_markNotReceived marking).1
    · cases marking
      exact chunked
  split_ifs at dropping
  · obtain ⟨other, same, keptToo, -⟩ := kept.markDropPoint request.nextChunk
    cases same.symm.trans dropping
    exact keptToo
  · cases dropping
    exact kept

end SenderIrob

namespace ResendCall

open SenderIrob

/-- One call. -/
def step (irob : SenderIrob) : ResendCall → Option SenderIrob
  | .call calling => (irob.call calling).map Prod.fst
  | .peer request => (irob.resend request).map Prod.fst

/-- Chunks are marked on request only; the numbers in a request are as wide as on the wire. -/
def Permitted (_ : SenderIrob) : ResendCall → Prop
  | .call calling => calling.marks = false
  | .peer request => request.seqno < 2 ^ 32 ∧
      -(2 ^ 31) ≤ request.nextChunk ∧ request.nextChunk < 2 ^ 31

instance : ∀ (irob : SenderIrob) call, Decidable (Permitted irob call)
  | _, .call calling => inferInstanceAs (Decidable (calling.marks = false))
  | _, .peer request => inferInstanceAs (Decidable (request.seqno < 2 ^ 32 ∧
      -(2 ^ 31) ≤ request.nextChunk ∧ request.nextChunk < 2 ^ 31))

/-- The IROB under every sequence of calls and requests, up to an access that leaves
`sent_chunks`. -/
def machine : Machine SenderIrob ResendCall where
  initial irob := ∃ id deps data sendLabels, irob = SenderIrob.mk id deps data sendLabels
  permitted := Permitted
  step := step

instance : ∀ (irob : SenderIrob) call, Decidable (machine.permitted irob call) :=
  fun irob call => inferInstanceAs (Decidable (Permitted irob call))

variable {irob after : SenderIrob}

/-- The calls that do not mark chunks are always allowed. -/
theorem allows_of_not_marks {calling : SenderCall} (quiet : calling.marks = false) :
    irob.Allows calling := by
  cases calling with
  | markNotReceived seqno => cases quiet
  | markDropPoint nextChunk => cases quiet
  | _ => exact trivial

theorem chunked_of_reachable (reached : machine.Reachable irob) :
    ∃ data blocks, Chunked data blocks irob := by
  apply reached.induct
  · rintro first ⟨id, deps, data, sendLabels, rfl⟩
    exact ⟨data, [], .initial id deps data sendLabels⟩
  · rintro before next call - ⟨data, blocks, chunked⟩ permitted moved
    cases call with
    | call calling =>
        obtain ⟨result, sent, laterData, laterBlocks, called, kept⟩ :=
          chunked.call (allows_of_not_marks permitted)
        obtain ⟨answer, calledToo, rfl⟩ := Option.map_eq_some_iff.mp moved
        cases called.symm.trans calledToo
        exact ⟨laterData, laterBlocks, kept.chunked⟩
    | peer request =>
        obtain ⟨result, resent, rfl⟩ := Option.map_eq_some_iff.mp moved
        exact ⟨data, blocks, chunked.of_resend resent⟩

/-- In every run the next resend request, whatever it asks for, is handled within the sent
chunks if and only if it does not ask for the data of the chunk that is one beyond them; a
drop point never leads outside. Up to then what is to be sent again was sent before, and no
call of the application or a sender fails an `ASSERT`. -/
theorem resend_in_bounds_iff (reached : machine.Reachable irob) :
    (∀ request : ResendRequest, (irob.resend request).isSome = true ↔
      ¬(request.request.data = true ∧ request.seqno = irob.numSenderChunks)) ∧
    (∀ seqno, (irob.markNotReceived seqno).isSome = true ↔ seqno ≠ irob.numSenderChunks) ∧
    (∀ nextChunk, (irob.markDropPoint nextChunk).isSome = true) ∧
    (∀ chunk ∈ irob.own.resendChunks, chunk ∈ irob.own.sentChunks) ∧
    ∀ calling : SenderCall, calling.marks = false → (irob.call calling).isSome = true := by
  obtain ⟨data, blocks, chunked⟩ := chunked_of_reachable reached
  refine ⟨irob.resend_isSome_iff, fun seqno => markNotReceived_isSome_iff,
    irob.markDropPoint_isSome, chunked.resend, fun calling quiet => ?_⟩
  · obtain ⟨result, sent, -, -, called, -⟩ := chunked.call (allows_of_not_marks quiet)
    exact Option.isSome_iff_exists.mpr ⟨_, called⟩

/-- Two of three bytes have been sent as chunk zero. -/
def oneSentCalls : List ResendCall :=
  [.call (.addChunk [1, 2, 3]), .call (.getReadyBytes 0 2), .peer ⟨4, .onlyData, 0, 0⟩]

theorem resend_in_bounds_iff_one_sent : ∃ irob : SenderIrob, machine.Reachable irob ∧
    irob.numSenderChunks = 1 ∧ (irob.resend ⟨4, .all, 7, -5⟩).isSome = true := by
  obtain ⟨irob, ran, count⟩ : ∃ irob : SenderIrob,
      machine.run (SenderIrob.mk 4 [] [] 0) oneSentCalls = some irob ∧ irob.numSenderChunks = 1 :=
    ⟨_, rfl, rfl⟩
  have start : machine.initial (SenderIrob.mk 4 [] [] 0) := ⟨4, [], [], 0, rfl⟩
  have reached := Machine.Reachable.run (.initial start) ran
  refine ⟨irob, reached, count, ((resend_in_bounds_iff reached).1 _).mpr ?_⟩
  rw [count]
  decide

/-- A request for chunk zero before anything was sent, and one for chunk one after chunk
zero was, read outside the sent chunks. -/
theorem resend_out_of_bounds : (∃ irob : SenderIrob, machine.Reachable irob ∧
      Permitted irob (.peer ⟨4, .onlyData, 0, 0⟩) ∧ irob.own.sentChunks = [] ∧
      irob.resend ⟨4, .onlyData, 0, 0⟩ = none) ∧
    ∃ irob : SenderIrob, machine.Reachable irob ∧
      Permitted irob (.peer ⟨4, .onlyData, 1, 0⟩) ∧ irob.own.sentChunks.length = 1 ∧
      irob.resend ⟨4, .onlyData, 1, 0⟩ = none := by
  have start : machine.initial (SenderIrob.mk 4 [] [] 0) := ⟨4, [], [], 0, rfl⟩
  refine ⟨⟨_, .initial start, by decide, rfl, rfl⟩, ?_⟩
  obtain ⟨irob, ran, count, fails⟩ : ∃ irob : SenderIrob,
      machine.run (SenderIrob.mk 4 [] [] 0) oneSentCalls = some irob ∧
      irob.own.sentChunks.length = 1 ∧ irob.resend ⟨4, .onlyData, 1, 0⟩ = none := ⟨_, rfl, rfl, rfl⟩
  have permitted : Permitted irob (.peer ⟨4, .onlyData, 1, 0⟩) := by
    refine ⟨?_, ?_, ?_⟩ <;> norm_num
  exact ⟨irob, Machine.Reachable.run (.initial start) ran, permitted, count, fails⟩

end ResendCall

end Libcmm
