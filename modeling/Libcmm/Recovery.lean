import Libcmm.Release
import Libcmm.Transfer

/-! # Recovery by data checks

After a csocket failed the sender asks about its IROBs with `Data_Check` messages.
The receiver answers each with an acknowledgment or with resend requests, assembled
in two places: `data_check_requested` computes the kind of request and
`resend_request` the headers, one for each missing chunk. The sender decodes the
headers in `resend_request_received`.

`Recovers` is what this exchange is for. The code tests `seen_end` the wrong way
round, so the exchange asks for the `End_IROB` exactly when it is there already and
meets its purpose for no IROB that is not fully received.
-/

namespace Libcmm

open Lib

/-- `struct resend_request_data`. -/
structure ResendRequest where
  id : IrobId
  request : ResendRequestType
  seqno : Nat
  nextChunk : Int
  deriving DecidableEq

/-- What `data_check_requested` schedules: an entry of `waiting_acks` or one of
`resend_requests`. -/
inductive DataCheckResponse where
  | ack
  | resend (request : ResendRequestType)
  deriving DecidableEq

namespace ReceiverLattice

/-- `CMMSocketImpl::data_check_requested`. -/
def dataCheckRequested (state : ReceiverLattice) (id : IrobId) : DataCheckResponse :=
  match state.irobs.find id with
  | none => if state.irobs.pastIrobExists id then .ack else .resend .all
  | some irob =>
      let request : ResendRequestType :=
        ⟨irob.placeholder, !(ReceiverIrob.getMissingChunks irob).isEmpty, ReceiverIrob.seenEnd irob⟩
      if request = .none then .ack else .resend request

/-- `CSocketSender::resend_request`, on a csocket that does not delegate it: the
headers it writes. -/
def resendRequest (state : ReceiverLattice) (id : IrobId) (scheduled : ResendRequestType) :
    List ResendRequest :=
  let prirob : Option ReceiverIrob := state.irobs.find id
  let missing := if scheduled.data then (prirob.map ReceiverIrob.getMissingChunks).getD [] else []
  let request := if missing.isEmpty then { scheduled with data := false } else scheduled
  if request = .none then []
  else
    let nextChunk : Int := if request.endIrob then
      (prirob.map fun irob => (ReceiverIrob.nextChunkSeqno irob : Int)).getD 0 else 0
    match missing with
    | [] => [⟨id, request, 0, nextChunk⟩]
    | first :: rest => ⟨id, request, first, nextChunk⟩ ::
        rest.map fun seqno => ⟨id, .onlyData, seqno, 0⟩

end ReceiverLattice

/-- What `resend_request_received` inserts into `new_irobs`, `new_chunks` and
`finished_irobs`. -/
structure Rescheduled where
  newIrobs : Bool
  newChunks : Bool
  finishedIrobs : Bool
  deriving DecidableEq

namespace SenderIrob

/-- The part of `CMMSocketImpl::resend_request_received` on an IROB found in
`outgoing_irobs`. -/
def resend (irob : SenderIrob) (request : ResendRequest) : Option (SenderIrob × Rescheduled) := do
  let marked ← (if request.request.data then irob.markNotReceived request.seqno else some irob)
  let dropped ← (if request.request.endIrob then marked.markDropPoint request.nextChunk
    else some marked)
  some (dropped, ⟨request.request.deps, request.request.data || request.request.endIrob,
    request.request.endIrob && irob.ends⟩)

/-- Only what is to be sent again changes. -/
theorem resend_eq {irob after : SenderIrob} {request : ResendRequest} {scheduled : Rescheduled}
    (resent : irob.resend request = some (after, scheduled)) :
    ∃ chunks, after = { irob with own := { irob.own with resendChunks := chunks } } := by
  obtain ⟨marked, marking, onward⟩ := Option.bind_eq_some_iff.mp resent
  obtain ⟨dropped, dropping, result⟩ := Option.bind_eq_some_iff.mp onward
  cases result
  have first : ∃ chunks, marked = { irob with own := { irob.own with resendChunks := chunks } } := by
    split_ifs at marking
    · exact markNotReceived_eq marking
    · cases marking
      exact ⟨_, rfl⟩
  obtain ⟨now, rfl⟩ := first
  split_ifs at dropping
  · obtain ⟨later, rfl⟩ := markDropPoint_eq dropping
    exact ⟨later, rfl⟩
  · cases dropping
    exact ⟨now, rfl⟩

theorem resend_links {irob : SenderIrob} {request : ResendRequest}
    {result : SenderIrob × Rescheduled} (resent : irob.resend request = some result) :
    PendingIrob.SameLinks result.1 irob := by
  obtain ⟨chunks, same⟩ := resend_eq resent
  rw [same]
  exact ⟨rfl, rfl, rfl, rfl, rfl, rfl⟩

/-- Whatever is asked for again, an IROB stands by the same content. -/
theorem Offers.resend {content : IrobContent} {irob changed : SenderIrob}
    (offers : Offers content irob) {request : ResendRequest} {scheduled : Rescheduled}
    (resent : irob.resend request = some (changed, scheduled)) :
    Offers content changed ∧ PendingIrob.SameLinks changed irob ∧
      changed.appData = irob.appData := by
  obtain ⟨marked, marking, onward⟩ := Option.bind_eq_some_iff.mp resent
  obtain ⟨dropped, dropping, result⟩ := Option.bind_eq_some_iff.mp onward
  cases result
  have first : Chunked irob.appData content.blocks marked ∧ PendingIrob.SameLinks marked irob ∧
      marked.complete = irob.complete := by
    split_ifs at marking
    · obtain ⟨chunked, links, complete, -⟩ := offers.chunked.of_markNotReceived marking
      exact ⟨chunked, links, complete⟩
    · cases marking
      exact ⟨offers.chunked, .refl _, rfl⟩
  obtain ⟨markedChunked, markedLinks, markedComplete⟩ := first
  have second : Chunked irob.appData content.blocks changed ∧
      PendingIrob.SameLinks changed marked ∧ changed.complete = marked.complete := by
    split_ifs at dropping
    · obtain ⟨other, same, chunked, links, complete, -⟩ :=
        markedChunked.markDropPoint request.nextChunk
      cases same.symm.trans dropping
      exact ⟨chunked, links, complete⟩
    · cases dropping
      exact ⟨markedChunked, .refl _, rfl⟩
  obtain ⟨chunked, links, complete⟩ := second
  obtain ⟨kept, sameData⟩ := offers.of_chunked chunked (links.trans markedLinks)
    (complete.trans markedComplete)
  exact ⟨kept, links.trans markedLinks, sameData⟩

/-- The requests of one answer, handled one after another. -/
def resendAll (irob : SenderIrob) : List ResendRequest → Option (SenderIrob × Rescheduled)
  | [] => some (irob, ⟨false, false, false⟩)
  | request :: rest => do
      let (marked, now) ← irob.resend request
      let (last, later) ← marked.resendAll rest
      some (last, ⟨now.newIrobs || later.newIrobs, now.newChunks || later.newChunks,
        now.finishedIrobs || later.finishedIrobs⟩)

end SenderIrob

namespace ReceiverIrob

/-- The chunk with a sequence number has arrived. -/
def Has (irob : ReceiverIrob) (seqno : Nat) : Prop :=
  (irob.chunks.getD seqno .zero).data.isSome = true

/-- The chunk is known to be missing: it is below the highest received one or, when
the `End_IROB` is here, below the expected number of chunks. -/
def Lacks (irob : ReceiverIrob) (seqno : Nat) : Prop :=
  ¬irob.Has seqno ∧ (seqno < irob.chunks.length ∨
    (irob.complete = true ∧ (seqno : Int) < irob.own.expectedChunks))

/-- Everything is here: the `Begin_IROB`, the `End_IROB` and all chunks. -/
def FullyReceived (irob : ReceiverIrob) : Prop :=
  irob.placeholder = false ∧ irob.isComplete = some true

end ReceiverIrob

namespace ReceiverLattice

open ReceiverIrob

/-- The headers that ask for data. -/
def dataRequests (requests : List ResendRequest) : List Nat :=
  (requests.filter (·.request.data)).map (·.seqno)

/-- What a data check for an IROB that is not fully received is for: it is answered
with requests for all that is missing and nothing else, and with these `sender`
schedules what it has sent and the receiver lacks. -/
def Recovers (state : ReceiverLattice) (id : IrobId) (irob : ReceiverIrob) (sender : SenderIrob) :
    Prop :=
  ∃ request, state.dataCheckRequested id = .resend request ∧
    ((∃ header ∈ state.resendRequest id request, header.request.deps = true) ↔
      irob.placeholder = true) ∧
    (dataRequests (state.resendRequest id request)).Nodup ∧
    (∀ seqno, seqno ∈ dataRequests (state.resendRequest id request) ↔ irob.Lacks seqno) ∧
    ((∃ header ∈ state.resendRequest id request, header.request.endIrob = true ∧
      header.nextChunk = irob.chunks.length) ↔ irob.complete = false) ∧
    ∃ after scheduled, sender.resendAll (state.resendRequest id request) =
        some (after, scheduled) ∧
      (∀ seqno < sender.own.sentChunks.length, ¬irob.Has seqno →
        ∃ chunk ∈ after.own.resendChunks, chunk.seqno = seqno) ∧
      (irob.placeholder = true → scheduled.newIrobs = true) ∧
      (irob.complete = false → sender.ends = true → scheduled.finishedIrobs = true)

/-! ### What the code asks for -/

/-- The sequence numbers that `get_missing_chunks` returns are those missing. -/
theorem mem_getMissingChunks {content : IrobContent} {irob : ReceiverIrob}
    (receiving : Receiving content irob) (seqno : Nat) :
    seqno ∈ getMissingChunks irob ↔ irob.Lacks seqno := by
  have absent : ∀ {index : Nat}, irob.chunks.length ≤ index → ¬irob.Has index := by
    intro index beyond
    rw [Has, List.getD_eq_default _ _ beyond]
    exact Bool.false_ne_true
  unfold getMissingChunks Lacks
  rw [List.mem_append, List.mem_filter, List.mem_range]
  have gap : (irob.chunks.getD seqno .zero).data.isNone = true ↔ ¬irob.Has seqno := by
    rw [Has, Option.isNone_iff_eq_none, Option.isSome_iff_ne_none, not_not]
  rw [gap]
  rcases receiving.ending with ⟨opened, -, noChunks⟩ | ⟨closed, -, -, allChunks⟩
  · rw [if_neg (by rw [noChunks]; exact fun both => both.1 rfl), opened]
    simp only [List.not_mem_nil, or_false, Bool.false_eq_true, false_and]
    exact and_comm
  · have nonneg : (0 : Int) ≤ irob.own.expectedChunks := by
      rw [allChunks]
      exact Int.natCast_nonneg _
    rw [toULong_of_nonneg nonneg, closed]
    simp only [true_and]
    split_ifs with beyond
    · rw [List.mem_range'_1]
      constructor
      · rintro (⟨inside, gap⟩ | ⟨outside, below⟩)
        · exact ⟨gap, .inl inside⟩
        · exact ⟨absent outside, .inr (by omega)⟩
      · rintro ⟨gap, inside | below⟩
        · exact .inl ⟨inside, gap⟩
        · by_cases inside : seqno < irob.chunks.length
          · exact .inl ⟨inside, gap⟩
          · exact .inr (by omega)
    · have short : irob.own.expectedChunks ≤ irob.chunks.length := by
        by_contra longer
        exact beyond ⟨by omega, by omega⟩
      simp only [List.not_mem_nil, or_false]
      constructor
      · rintro ⟨inside, gap⟩
        exact ⟨gap, .inl inside⟩
      · rintro ⟨gap, inside | below⟩
        · exact ⟨inside, gap⟩
        · exact ⟨by omega, gap⟩

/-- The headers for a known IROB carry the bits of the request, with data requests
for the missing chunks. -/
theorem resendRequest_spec {state : ReceiverLattice} {id : IrobId} {irob : ReceiverIrob}
    (found : state.irobs.find id = some irob) (scheduled : ResendRequestType) :
    ((∃ header ∈ state.resendRequest id scheduled, header.request.deps = true) ↔
      scheduled.deps = true) ∧
    dataRequests (state.resendRequest id scheduled) =
      (if scheduled.data then getMissingChunks irob else []) ∧
    ((∃ header ∈ state.resendRequest id scheduled, header.request.endIrob = true ∧
      header.nextChunk = irob.chunks.length) ↔ scheduled.endIrob = true) := by
  obtain ⟨deps, data, endIrob⟩ := scheduled
  unfold resendRequest dataRequests
  simp only [found, Option.map_some, Option.getD_some]
  generalize none : (if data = true then getMissingChunks irob else []) = missing
  cases missing with
  | nil =>
      simp only [List.isEmpty_nil, ↓reduceIte, ResendRequestType.none, ResendRequestType.mk.injEq,
        true_and]
      cases deps <;> cases endIrob <;> simp [nextChunkSeqno]
  | cons first rest =>
      have some' : data = true := by
        by_contra other
        rw [if_neg other] at none
        cases none
      subst some'
      -- all headers after the first ask for data only
      have others : ∀ (test : ResendRequest → Prop), (∀ seqno, ¬test ⟨id, .onlyData, seqno, 0⟩) →
          ¬∃ header ∈ rest.map fun seqno => (⟨id, .onlyData, seqno, 0⟩ : ResendRequest),
            test header := by
        rintro test never ⟨header, member, holds⟩
        obtain ⟨seqno, -, rfl⟩ := List.mem_map.mp member
        exact never seqno holds
      have noDeps := others (·.request.deps = true) fun _ => Bool.false_ne_true
      have noEnd := others (fun header => header.request.endIrob = true ∧
        header.nextChunk = irob.chunks.length) fun _ both => Bool.false_ne_true both.1
      have allData : (rest.map fun seqno => (⟨id, .onlyData, seqno, 0⟩ : ResendRequest)).filter
          (·.request.data) = rest.map fun seqno => ⟨id, .onlyData, seqno, 0⟩ := by
        apply List.filter_eq_self.mpr
        intro header member
        obtain ⟨seqno, -, rfl⟩ := List.mem_map.mp member
        rfl
      simp only [List.isEmpty_cons, Bool.false_eq_true, ↓reduceIte, ResendRequestType.none,
        ResendRequestType.mk.injEq, reduceCtorEq, false_and, and_false, List.filter_cons_of_pos,
        allData, List.map_cons, List.map_map]
      refine ⟨?_, ?_, ?_⟩
      · rw [List.exists_mem_cons_iff, or_iff_left noDeps]
      · rw [show (ResendRequest.seqno ∘ fun seqno => ⟨id, .onlyData, seqno, 0⟩) =
          fun seqno => seqno from rfl, List.map_id']
      · rw [List.exists_mem_cons_iff, or_iff_left noEnd]
        refine ⟨fun both => both.1, fun flag => ⟨flag, ?_⟩⟩
        rw [if_pos flag]
        rfl

/-- What an answer to a data check asks for. The test of `seen_end` makes it ask for
the `End_IROB` when that is here. -/
theorem asks_of_dataCheck {content : IrobContent} {state : ReceiverLattice} {id : IrobId}
    {irob : ReceiverIrob} (found : state.irobs.find id = some irob)
    (receiving : Receiving content irob) {request : ResendRequestType}
    (response : state.dataCheckRequested id = .resend request) :
    ((∃ header ∈ state.resendRequest id request, header.request.deps = true) ↔
      irob.placeholder = true) ∧
    (∀ seqno, seqno ∈ dataRequests (state.resendRequest id request) ↔ irob.Lacks seqno) ∧
    ((∃ header ∈ state.resendRequest id request, header.request.endIrob = true ∧
      header.nextChunk = irob.chunks.length) ↔ irob.complete = true) := by
  have bits : request =
      ⟨irob.placeholder, !(getMissingChunks irob).isEmpty, seenEnd irob⟩ := by
    unfold dataCheckRequested at response
    simp only [found] at response
    split_ifs at response
    exact (DataCheckResponse.resend.inj response).symm
  have ending : seenEnd irob = true ↔ irob.complete = true := by
    rw [seenEnd, bne_iff_ne]
    rcases receiving.ending with ⟨opened, noBytes, -⟩ | ⟨closed, -, allBytes, -⟩
    · rw [noBytes, opened]
      simp only [ne_eq, not_true_eq_false, Bool.false_eq_true]
    · rw [allBytes, closed]
      simp only [ne_eq, iff_true]
      omega
  obtain ⟨deps, data, ends⟩ := resendRequest_spec found request
  refine ⟨?_, fun seqno => ?_, ?_⟩
  · rw [deps, bits]
  · rw [data, bits, ← mem_getMissingChunks receiving]
    cases missing : getMissingChunks irob with
    | nil => rfl
    | cons first rest => rfl
  · rw [ends, bits, ← ending]

end ReceiverLattice

namespace Receiver

open ReceiverLattice ReceiverIrob

/-- The exchange recovers no IROB: whatever of a known IROB has arrived and is missing,
its data check is not answered with requests for all that is missing and nothing else. -/
theorem data_check_never_recovers {contents : Contents} (valid : contents.Valid)
    {receiver : Receiver} (reached : (conforming contents).Reachable receiver) {id : IrobId}
    (inRange : id.InRange) {irob : ReceiverIrob}
    (found : receiver.lattice.irobs.find id = some irob) (missing : ¬FullyReceived irob)
    (sender : SenderIrob) : ¬receiver.lattice.Recovers id irob sender := by
  have sound := sound_of_reachable valid reached
  have phase := (ReceiverLattice.Sound.pending sound id irob inRange found).2.phase
  have receiving : Receiving (contents id) irob := by
    cases phase with
    | receiving _ receiving => exact receiving
    | reading real reading _ _ => exact (missing ⟨real, reading.isComplete_eq⟩).elim
  rintro ⟨request, response, -, -, -, ends, -⟩
  obtain ⟨-, -, asks⟩ := asks_of_dataCheck found receiving response
  rw [asks] at ends
  cases closed : irob.complete <;> rw [closed] at ends <;> simp at ends

/-- The content of an IROB of two chunks. -/
def lossyContents : Contents := fun id =>
  if id = 0 then ⟨[], 0, [[1], [2]], true⟩ else ⟨[], 0, [], false⟩

theorem lossy_valid : lossyContents.Valid := by
  constructor <;> intro id <;> unfold lossyContents <;> split_ifs <;> simp

/-- Its `Begin_IROB` and first chunk have arrived when the csocket fails. -/
def lossyEvents : List ReceiverEvent :=
  [.message (.beginIrob 0 [] 0), .message (.irobChunk 0 0 0 [1])]

/-- The sender of this IROB, which has sent all of it. -/
def lossySender : SenderIrob :=
  { SenderIrob.mk 0 [] [1, 2] 0 with
    own := { SenderPart.initial 2 with
      sentChunks := [⟨0, 0, 0, 1, none⟩, ⟨0, 1, 1, 1, none⟩]
      nextSeqnosToSend := fun _ => 2
      irobOffsets := fun _ => 2 } }

theorem lossy_run : ∃ receiver irob, (conforming lossyContents).run empty lossyEvents = some receiver ∧
    receiver.lattice.irobs.find 0 = some irob ∧ isComplete irob = some false ∧
    receiver.lattice.dataCheckRequested 0 = .ack := ⟨_, _, rfl, rfl, rfl, rfl⟩

theorem data_check_never_recovers_lossy : ∃ receiver irob,
    (conforming lossyContents).Reachable receiver ∧ receiver.lattice.irobs.find 0 = some irob ∧
    ¬FullyReceived irob ∧ ¬receiver.lattice.Recovers 0 irob lossySender := by
  obtain ⟨receiver, irob, ran, found, incomplete, -⟩ := lossy_run
  have reached := Machine.Reachable.run (.initial rfl) ran
  have missing : ¬FullyReceived irob := by
    rintro ⟨-, complete⟩
    cases incomplete.symm.trans complete
  exact ⟨receiver, irob, reached, found, missing,
    data_check_never_recovers lossy_valid reached (by decide) found missing lossySender⟩

/-- The second chunk and the `End_IROB` are lost, and the data check is answered with
an acknowledgment. -/
theorem lossy_not_recovered : ∃ receiver irob, (conforming lossyContents).Reachable receiver ∧
    receiver.lattice.irobs.find 0 = some irob ∧ isComplete irob = some false ∧
    receiver.lattice.dataCheckRequested 0 = .ack ∧
    ¬receiver.lattice.Recovers 0 irob lossySender := by
  obtain ⟨receiver, irob, ran, found, incomplete, response⟩ := lossy_run
  refine ⟨receiver, irob, Machine.Reachable.run (.initial rfl) ran, found, incomplete, response, ?_⟩
  rintro ⟨request, asked, -⟩
  cases response.symm.trans asked

end Receiver

end Libcmm
