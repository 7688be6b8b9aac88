import Libcmm.Wire

/-! # What is written is what is read

The messages of one write are a prefix of what the receiver reads, whatever follows
(`Reads`), so that the messages of all writes are read one after the other. The one thing
that can go wrong is an array of dependencies of 2^31 bytes or more: its `Begin_IROB` is
not read, and nothing behind it is.
-/

namespace Libcmm

open Lib

/-- Numbers that fit a positive `int`. -/
def Transmission.InRange (chunk : Transmission) : Prop :=
  chunk.seqno < 2 ^ 31 ∧ chunk.offset < 2 ^ 31 ∧ 0 < chunk.bytes.length ∧
    chunk.bytes.length < 2 ^ 31

/-- Labels and the numbers of an interface fit a word. -/
def LabelsInRange (labels : Int) : Prop := 0 ≤ labels ∧ labels < 2 ^ 32

/-- The numbers of an interface; its type is an `int`. -/
def NetInterface.InRange (iface : NetInterface) : Prop :=
  LabelsInRange iface.bandwidthDown ∧ LabelsInRange iface.bandwidthUp ∧ LabelsInRange iface.rtt ∧
    -(2 ^ 31) ≤ iface.type ∧ iface.type < 2 ^ 31

/-- An array of identifiers whose length is an `int`. -/
def IdsInRange (ids : List IrobId) : Prop := ids.length < 2 ^ 31 ∧ ∀ id ∈ ids, id.InRange

namespace Composite

/-- The dependencies a write carries. -/
def deps : Composite → List IrobId
  | beginIrob _ _ deps _ => deps
  | sendDataCheck _ (some irob) => irob.deps
  | _ => []

/-- The chunk message of a transmission. -/
def chunkMessage (sendLabels : Int) (id : IrobId) (chunk : Transmission) : WireMessage :=
  ⟨sendLabels, .irobChunk id chunk.seqno chunk.offset chunk.bytes⟩

/-- The messages of a resend request: one for each missing chunk if data is asked for, the
first with the whole request, or one for what else is asked for. -/
def requestMessages (id : IrobId) (request : ResendRequestType) (missing : List Nat) (next : Nat) :
    List WireMessage :=
  if request.data = true ∧ missing ≠ [] then
    ⟨0, .resendRequest id request (missing.headD 0) next⟩ ::
      missing.tail.map fun (seqno : Nat) => ⟨0, .resendRequest id .onlyData seqno 0⟩
  else if request.deps = true ∨ request.endIrob = true then
    [⟨0, .resendRequest id { request with data := false } 0 next⟩]
  else []

/-- The messages a write is meant to carry. -/
def messages : Composite → List WireMessage
  | beginIrob sendLabels id deps none => [⟨sendLabels, .beginIrob id deps⟩]
  | beginIrob sendLabels id deps (some (chunk, expectedBytes, numSenderChunks)) =>
      [⟨sendLabels, .beginIrob id deps⟩, chunkMessage sendLabels id chunk,
        ⟨sendLabels, .endIrob id expectedBytes numSenderChunks⟩]
  | irobChunk waitingAckIrob qdelay sendLabels id chunk =>
      (if waitingAckIrob = -1 then [] else [⟨0, .ack waitingAckIrob [] ⟨0, 0⟩ qdelay.words⟩]) ++
        [chunkMessage sendLabels id chunk]
  | sendAcks id ackedIrobs srvTime qdelay => [⟨0, .ack id ackedIrobs srvTime.words qdelay.words⟩]
  | resendRequest id request missing nextChunk => requestMessages id request missing
      (if request.endIrob = true then nextChunk.getD 0 else 0)
  | sendDataCheck id none => [⟨0, .dataCheck id⟩]
  | sendDataCheck id (some irob) =>
      [⟨irob.sendLabels, .beginIrob id irob.deps⟩] ++
        (irob.chunk.map (chunkMessage irob.sendLabels id)).toList ++
        (irob.finished.map fun totals => WireMessage.mk irob.sendLabels
          (.endIrob id totals.1 totals.2)).toList ++
        [⟨irob.sendLabels, .dataCheck id⟩]
  | endIrob sendLabels id expectedBytes numSenderChunks =>
      [⟨sendLabels, .endIrob id expectedBytes numSenderChunks⟩]
  | newInterface iface => [⟨0, .newInterface iface⟩]
  | downInterface iface => [⟨0, .downInterface iface.ipAddr⟩]
  | goodbye => [⟨0, .goodbye⟩]

/-- The numbers of a write are in range, and `send_acks` takes at most 150 acknowledgments
beside the first. -/
def InRange : Composite → Prop
  | beginIrob sendLabels id deps whole =>
      LabelsInRange sendLabels ∧ id.InRange ∧ IdsInRange deps ∧
        ∀ chunk expectedBytes numSenderChunks, whole = some (chunk, expectedBytes, numSenderChunks) →
          chunk.InRange ∧ expectedBytes < 2 ^ 31 ∧ numSenderChunks < 2 ^ 31
  | irobChunk waitingAckIrob _ sendLabels id chunk =>
      (waitingAckIrob = -1 ∨ waitingAckIrob.InRange) ∧ LabelsInRange sendLabels ∧ id.InRange ∧
        chunk.InRange
  | sendAcks id ackedIrobs _ _ => id.InRange ∧ ackedIrobs.length ≤ 150 ∧ IdsInRange ackedIrobs
  | resendRequest id _ missing nextChunk =>
      id.InRange ∧ (∀ seqno ∈ missing, seqno < 2 ^ 31) ∧ ∀ next, nextChunk = some next → next < 2 ^ 31
  | sendDataCheck id irob =>
      id.InRange ∧ ∀ probed, irob = some probed → LabelsInRange probed.sendLabels ∧
        IdsInRange probed.deps ∧ (∀ chunk, probed.chunk = some chunk → chunk.InRange) ∧
        ∀ totals, probed.finished = some totals → totals.1 < 2 ^ 31 ∧ totals.2 < 2 ^ 31
  | endIrob sendLabels id expectedBytes numSenderChunks =>
      LabelsInRange sendLabels ∧ id.InRange ∧ expectedBytes < 2 ^ 31 ∧ numSenderChunks < 2 ^ 31
  | newInterface iface => iface.InRange
  | downInterface _ => True
  | goodbye => True

end Composite

namespace Platform

variable {platform : Platform} {rest : List Byte}

/-! ### Words and arrays -/

theorem host_net (value : Int) : platform.host (platform.net value) = value % 2 ^ 32 := by
  rw [host, net, platform.ntohl_htonl, toNat_toWord]

theorem host_net_of_range {value : Int} (lower : 0 ≤ value) (upper : value < 2 ^ 32) :
    platform.host (platform.net value) = value := by
  rw [host_net, Int.emod_eq_of_lt lower upper]

theorem host_net_id {id : IrobId} (inRange : id.InRange) : platform.host (platform.net id) = id :=
  host_net_of_range inRange.1 (lt_trans inRange.2 (by norm_num))

theorem host_net_nat {value : Nat} (small : value < 2 ^ 31) :
    platform.host (platform.net value) = value :=
  host_net_of_range (Int.natCast_nonneg value) (by omega)

theorem toInt_host_net {value : Int} (lower : -(2 ^ 31) ≤ value) (upper : value < 2 ^ 31) :
    toInt (platform.host (platform.net value)) = value := by
  have wrapped : toInt (value % 2 ^ 32) = toInt value := Int.emod_bmod value (2 ^ 32)
  rw [host_net, wrapped, toInt_of_fits lower upper]

theorem toInt_host_net_nat {value : Nat} (small : value < 2 ^ 31) :
    toInt (platform.host (platform.net value)) = value :=
  toInt_host_net (by omega) (by omega)

theorem host_zero : platform.host 0 = 0 := by
  have zero : platform.ntohl 0 = 0 := by
    have back := platform.ntohl_htonl 0
    rwa [platform.htonl_zero] at back
  rw [host, zero]
  rfl

/-- Reading as many bytes as were written. -/
theorem readBytes_append (bytes rest : List Byte) :
    readBytes bytes.length (bytes ++ rest) = some (bytes, rest) := by
  rw [readBytes, Int.toNat_natCast, if_pos, List.take_left, List.drop_left]
  exact ⟨Int.natCast_nonneg _, by rw [List.length_append]; exact Nat.le_add_right _ _⟩

theorem length_idArray (ids : List IrobId) :
    (platform.idArray ids).length = ids.length * platform.idSize := by
  induction ids with
  | nil => exact (Nat.zero_mul _).symm
  | cons id rest ih =>
      rw [idArray, List.flatMap_cons, List.length_append, platform.length_storeId, ← idArray, ih,
        List.length_cons, Nat.succ_mul, Nat.add_comm]

theorem loadIds_idArray {ids : List IrobId} (inRange : ∀ id ∈ ids, id.InRange) :
    platform.loadIds ids.length (platform.idArray ids) = some ids := by
  induction ids with
  | nil => rfl
  | cons id rest ih =>
      have size := platform.length_storeId (platform.net id)
      have later := ih fun other member => inRange other (List.mem_cons_of_mem _ member)
      have own : platform.host (platform.net id) = id := host_net_id (inRange id List.mem_cons_self)
      rw [idArray, List.flatMap_cons, ← idArray, List.length_cons, loadIds, if_pos]
      · rw [List.take_left' size, List.drop_left' size, platform.loadId_storeId, later, own]
        rfl
      · rw [List.length_append, size]
        exact Nat.le_add_right _ _

/-- An array whose size is an `int` is read as it was written. -/
theorem readArray_idArray {ids : List IrobId} (inRange : ∀ id ∈ ids, id.InRange)
    (fits : ids.length * platform.idSize < 2 ^ 31) (rest : List Byte) :
    platform.readArray ids.length (platform.arraySize ids.length) (platform.idArray ids ++ rest) =
      .ok (ids, rest) := by
  have size : platform.arraySize ids.length = (platform.idArray ids).length := by
    rw [length_idArray, arraySize, ← Int.natCast_mul]
    exact toInt_of_fits (by omega) (by omega)
  rw [size, readArray, readBytes_append]
  simp only [loadIds_idArray inRange]

/-- Fewer bytes than the identifiers take are not enough. -/
theorem loadIds_short {count : Nat} {bytes : List Byte}
    (short : bytes.length < count * platform.idSize) : platform.loadIds count bytes = none := by
  induction count generalizing bytes with
  | zero => exact absurd short (by rw [Nat.zero_mul]; exact Nat.not_lt_zero _)
  | succ count ih =>
      rw [loadIds]
      split_ifs with enough
      · rw [ih]
        · rfl
        · rw [Nat.succ_mul] at short
          rw [List.length_drop]
          omega
      · rfl

theorem readBytes_taken {count : Int} {stream bytes later : List Byte}
    (reading : readBytes count stream = some (bytes, later)) : (bytes.length : Int) = count := by
  unfold readBytes at reading
  split_ifs at reading with enough
  cases reading
  rw [List.length_take]
  omega

theorem toInt_lt (value : Int) : toInt value < 2 ^ 31 :=
  Int.bmod_lt (by norm_num)

/-- An array is not read if less than its size is. -/
theorem readArray_short {count : Nat} {datalen : Int} (short : datalen < count * platform.idSize)
    (stream : List Byte) : ∃ stop, platform.readArray count datalen stream = .error stop := by
  unfold readArray
  cases taken : readBytes datalen stream with
  | none => exact ⟨_, rfl⟩
  | some result =>
      obtain ⟨bytes, later⟩ := result
      have length := readBytes_taken taken
      have few : bytes.length < count * platform.idSize := by
        rw [← Int.ofNat_lt, length]
        push_cast
        exact short
      exact ⟨.indeterminate, by simp only [loadIds_short few]⟩

/-- The size of a large array is not its `int`. -/
theorem arraySize_lt {count : Nat} (large : 2 ^ 31 ≤ count * platform.idSize) :
    platform.arraySize count < count * platform.idSize := by
  have small : platform.arraySize count < 2 ^ 31 := toInt_lt _
  have size : (2 ^ 31 : Int) ≤ count * platform.idSize := by exact_mod_cast large
  exact lt_of_lt_of_le small size

/-! ### One header after the other -/

/-- Whatever follows these bytes, the receiver reads these messages and then goes on. -/
def Reads (platform : Platform) (bytes : List Byte) (messages : List WireMessage) : Prop :=
  ∀ rest, platform.receive (bytes ++ rest) =
    (messages ++ (platform.receive rest).1, (platform.receive rest).2)

theorem Reads.nil : platform.Reads [] [] := fun _ => rfl

theorem Reads.append {first second : List Byte} {before after : List WireMessage}
    (left : platform.Reads first before) (right : platform.Reads second after) :
    platform.Reads (first ++ second) (before ++ after) := by
  intro rest
  rw [List.append_assoc, left, right, List.append_assoc]

/-- A header is taken off the stream and dispatched. -/
theorem receive_store (hdr : WireHdr) (rest : List Byte) :
    platform.receive (platform.store hdr ++ rest) =
      match platform.dispatch rest (.known hdr) with
      | .error stop => ([], stop)
      | .ok (message, later) =>
          (message :: (platform.receive later).1, (platform.receive later).2) := by
  have size := platform.length_store hdr
  rw [receive, dif_pos]
  · rw [List.take_left' size, List.drop_left' size, platform.load_store]
    split
    · next stop thrown => rw [thrown]
    · next message later dispatched => rw [dispatched]
  · rw [List.length_append, size]
    exact Nat.le_add_right _ _

/-- A handler that takes what belongs to its header. -/
theorem Reads.of_content {sendLabels : UInt32} {op : Op} {extra : List Byte} {message : WireMessage}
    (labels : platform.host sendLabels = message.sendLabels)
    (reading : ∀ rest, platform.readContent (extra ++ rest) op = .ok (message.content, rest)) :
    platform.Reads (platform.store ⟨sendLabels, op⟩ ++ extra) [message] := by
  intro rest
  rw [List.append_assoc, receive_store, dispatch, reading]
  simp only [labels]
  rfl

/-- A handler that reads no more than the header. -/
theorem Reads.of_header {sendLabels : UInt32} {op : Op} {message : WireMessage}
    (labels : platform.host sendLabels = message.sendLabels)
    (reading : ∀ rest, platform.readContent rest op = .ok (message.content, rest)) :
    platform.Reads (platform.store ⟨sendLabels, op⟩) [message] := by
  have whole : platform.Reads (platform.store ⟨sendLabels, op⟩ ++ []) [message] :=
    .of_content labels reading
  rwa [List.append_nil] at whole

theorem host_net_labels {labels : Int} (inRange : LabelsInRange labels) :
    platform.host (platform.net labels) = labels :=
  host_net_of_range inRange.1 inRange.2

theorem readDepsArray_idArray {deps : List IrobId} (inRange : ∀ id ∈ deps, id.InRange)
    (fits : deps.length * platform.idSize < 2 ^ 31) (rest : List Byte) :
    platform.readDepsArray deps.length (platform.idArray deps ++ rest) = .ok (deps, rest) := by
  unfold readDepsArray
  split_ifs with some'
  · rw [Int.toNat_natCast]
    exact readArray_idArray inRange fits rest
  · have none' : deps = [] := List.length_eq_zero_iff.mp (by omega)
    rw [none']
    rfl

theorem readAckedIrobs_idArray {ids : List IrobId} (inRange : ∀ id ∈ ids, id.InRange)
    (fits : ids.length * platform.idSize < 2 ^ 31) (rest : List Byte) :
    platform.readAckedIrobs ids.length (platform.idArray ids ++ rest) = .ok (ids, rest) := by
  unfold readAckedIrobs
  split_ifs with some'
  · exact readArray_idArray inRange fits rest
  · have none' : ids = [] := List.length_eq_zero_iff.mp (by omega)
    rw [none']
    rfl

theorem reads_begin {sendLabels : Int} {id : IrobId} {deps : List IrobId}
    (labels : LabelsInRange sendLabels) (named : id.InRange) (inRange : IdsInRange deps)
    (fits : deps.length * platform.idSize < 2 ^ 31) :
    platform.Reads (platform.beginHdr sendLabels id deps.length ++ platform.idArray deps)
      [⟨sendLabels, .beginIrob id deps⟩] := by
  refine Reads.of_content (host_net_labels labels) ?_
  intro rest
  rw [readContent, toInt_host_net_nat inRange.1, readDepsArray_idArray inRange.2 fits,
    host_net_id named]
  rfl

theorem reads_chunk {sendLabels : Int} {id : IrobId} {chunk : Transmission}
    (labels : LabelsInRange sendLabels) (named : id.InRange) (inRange : chunk.InRange) :
    platform.Reads (platform.chunkHdr sendLabels id chunk ++ chunk.bytes)
      [Composite.chunkMessage sendLabels id chunk] := by
  obtain ⟨seqno, offset, positive, length⟩ := inRange
  refine Reads.of_content (host_net_labels labels) ?_
  intro rest
  have data : readDataBuffer chunk.bytes.length (chunk.bytes ++ rest) = .ok (chunk.bytes, rest) := by
    rw [readDataBuffer, if_neg (by omega), readBytes_append]
  rw [readContent, toInt_host_net_nat length, data, host_net_id named, host_net_nat seqno,
    host_net_nat offset]
  rfl

theorem reads_end {sendLabels : Int} {id : IrobId} {expectedBytes numSenderChunks : Nat}
    (labels : LabelsInRange sendLabels) (named : id.InRange) (bytes : expectedBytes < 2 ^ 31)
    (chunks : numSenderChunks < 2 ^ 31) :
    platform.Reads (platform.endHdr sendLabels id expectedBytes numSenderChunks)
      [⟨sendLabels, .endIrob id expectedBytes numSenderChunks⟩] := by
  refine Reads.of_header (host_net_labels labels) ?_
  intro rest
  rw [readContent, host_net_id named, host_net_nat bytes, toInt_host_net_nat chunks]
  rfl

theorem reads_ack {id : IrobId} {ackedIrobs : List IrobId} (named : id.InRange)
    (few : ackedIrobs.length ≤ 150) (inRange : IdsInRange ackedIrobs) (srvTime qdelay : Timeval) :
    platform.Reads (platform.ackHdr id ackedIrobs.length srvTime qdelay ++
        platform.idArray ackedIrobs) [⟨0, .ack id ackedIrobs srvTime.words qdelay.words⟩] := by
  have fits : ackedIrobs.length * platform.idSize < 2 ^ 31 := by
    rcases platform.idSize_cases with four | eight
    · rw [four]
      omega
    · rw [eight]
      omega
  apply Reads.of_content host_zero
  intro rest
  rw [readContent, host_net_nat inRange.1, Int.toNat_natCast,
    readAckedIrobs_idArray inRange.2 fits, host_net_id named]
  simp only [net, platform.ntohl_htonl]
  rfl

theorem reads_request {id : IrobId} {seqno nextChunk : Nat} (named : id.InRange)
    (request : ResendRequestType) (first : seqno < 2 ^ 31) (next : nextChunk < 2 ^ 31) :
    platform.Reads (platform.requestHdr id request seqno nextChunk)
      [⟨0, .resendRequest id request seqno nextChunk⟩] := by
  apply Reads.of_header host_zero
  intro rest
  rw [readContent, host_net_id named, host_net_nat first, toInt_host_net_nat next, host_net,
    ResendRequestType.ofNumber_number]
  rfl

theorem reads_check {id : IrobId} {sendLabels : UInt32} {labels : Int} (named : id.InRange)
    (same : platform.host sendLabels = labels) :
    platform.Reads (platform.store ⟨sendLabels, .dataCheck (platform.net id)⟩)
      [⟨labels, .dataCheck id⟩] := by
  apply Reads.of_header same
  intro rest
  rw [readContent, host_net_id named]
  rfl

/-! ### One write after the other -/

theorem Reads.list {ι : Type} {items : List ι} {bytes : ι → List Byte} {message : ι → WireMessage}
    (each : ∀ item ∈ items, platform.Reads (bytes item) [message item]) :
    platform.Reads (items.map bytes).flatten (items.map message) := by
  induction items with
  | nil => exact .nil
  | cons item rest ih =>
      have first := each item List.mem_cons_self
      have others := ih fun other member => each other (List.mem_cons_of_mem _ member)
      exact first.append others

/-- All vectors are written where the count is right. -/
theorem writev_all {vecs : List (List Byte)} {count : Nat} (all : vecs.length = count) :
    writev (vecs, count) = vecs.flatten := by
  rw [writev, ← all, List.take_length]

theorem reads_beginIrob {sendLabels : Int} {id : IrobId} {deps : List IrobId}
    {whole : Option (Transmission × Nat × Nat)}
    (inRange : (Composite.beginIrob sendLabels id deps whole).InRange)
    (fits : deps.length * platform.idSize < 2 ^ 31) :
    platform.Reads (writev (platform.beginVecs sendLabels id deps whole))
      (Composite.beginIrob sendLabels id deps whole).messages := by
  obtain ⟨labels, named, ids, numbers⟩ := inRange
  have begun := reads_begin labels named ids fits
  cases whole with
  | none =>
      have bytes : writev (platform.beginVecs sendLabels id deps none) =
          platform.beginHdr sendLabels id deps.length ++ platform.idArray deps := by
        simp [writev, beginVecs]
      rw [bytes]
      exact begun
  | some all =>
      obtain ⟨chunk, expectedBytes, numSenderChunks⟩ := all
      obtain ⟨sized, total, count⟩ := numbers _ _ _ rfl
      have bytes : writev (platform.beginVecs sendLabels id deps
            (some (chunk, expectedBytes, numSenderChunks))) =
          (platform.beginHdr sendLabels id deps.length ++ platform.idArray deps) ++
            ((platform.chunkHdr sendLabels id chunk ++ chunk.bytes) ++
              platform.endHdr sendLabels id expectedBytes numSenderChunks) := by
        rw [beginVecs, writev_all (by simp; omega)]
        simp [Transmission.bytes]
      rw [bytes]
      exact begun.append ((reads_chunk labels named sized).append
        (reads_end labels named total count))

theorem reads_irobChunk {waitingAckIrob : IrobId} {qdelay : Timeval} {sendLabels : Int}
    {id : IrobId} {chunk : Transmission}
    (inRange : (Composite.irobChunk waitingAckIrob qdelay sendLabels id chunk).InRange) :
    platform.Reads (writev (platform.chunkVecs waitingAckIrob qdelay sendLabels id chunk))
      (Composite.irobChunk waitingAckIrob qdelay sendLabels id chunk).messages := by
  obtain ⟨acked, labels, named, sized⟩ := inRange
  have own : platform.Reads (platform.chunkHdr sendLabels id chunk ++ chunk.bytes)
      [Composite.chunkMessage sendLabels id chunk] := reads_chunk labels named sized
  unfold chunkVecs Composite.messages
  by_cases alone : waitingAckIrob = -1
  · simp only [alone, ↓reduceIte]
    rw [writev_all (by simp; omega)]
    exact own
  · simp only [alone, ↓reduceIte]
    rw [writev_all (by simp; omega)]
    have none' : IdsInRange [] := ⟨by norm_num, fun _ member => (List.not_mem_nil member).elim⟩
    have ack : platform.Reads (platform.ackHdr waitingAckIrob 0 ⟨0, 0⟩ qdelay ++ [])
        [⟨0, .ack waitingAckIrob [] ⟨0, 0⟩ qdelay.words⟩] :=
      reads_ack (acked.resolve_left alone) (Nat.zero_le _) none' ⟨0, 0⟩ qdelay
    have both := ack.append own
    simpa [Transmission.bytes] using both

theorem reads_sendAcks {id : IrobId} {ackedIrobs : List IrobId} {srvTime qdelay : Timeval}
    (inRange : (Composite.sendAcks id ackedIrobs srvTime qdelay).InRange) :
    platform.Reads (writev (platform.ackVecs id ackedIrobs srvTime qdelay))
      (Composite.sendAcks id ackedIrobs srvTime qdelay).messages := by
  obtain ⟨named, few, ids⟩ := inRange
  have bytes : writev (platform.ackVecs id ackedIrobs srvTime qdelay) =
      platform.ackHdr id ackedIrobs.length srvTime qdelay ++ platform.idArray ackedIrobs := by
    unfold ackVecs writev
    cases ackedIrobs with
    | nil => simp [idArray]
    | cons first rest => simp
  rw [bytes]
  exact reads_ack named few ids srvTime qdelay

theorem reads_resendRequest {id : IrobId} {request : ResendRequestType} {missing : List Nat}
    {nextChunk : Option Nat}
    (inRange : (Composite.resendRequest id request missing nextChunk).InRange) :
    platform.Reads (platform.requestHdrs id request missing nextChunk).flatten
      (Composite.resendRequest id request missing nextChunk).messages := by
  obtain ⟨named, seqnos, next⟩ := inRange
  have bound : (if request.endIrob then nextChunk.getD 0 else 0) < 2 ^ 31 := by
    split_ifs
    · cases nextChunk with
      | none => norm_num
      | some chunk => exact next chunk rfl
    · norm_num
  unfold Composite.messages Composite.requestMessages requestHdrs
  by_cases lacking : request.data = true ∧ missing ≠ []
  · obtain ⟨seqno, rest, rfl⟩ := List.exists_cons_of_ne_nil lacking.2
    have asked : request ≠ .none := fun same => by
      rw [same] at lacking
      exact Bool.false_ne_true lacking.1
    simp only [lacking.1, ↓reduceIte, List.isEmpty_cons, Bool.false_eq_true, asked, ne_eq,
      reduceCtorEq, not_false_eq_true, and_self, List.headD_cons, List.tail_cons]
    have others : platform.Reads
        (rest.map fun seqno => platform.requestHdr id .onlyData seqno 0).flatten
        (rest.map fun (seqno : Nat) => ⟨0, .resendRequest id .onlyData seqno 0⟩) :=
      Reads.list fun seqno member => reads_request named .onlyData
        (seqnos seqno (List.mem_cons_of_mem _ member)) (by norm_num)
    exact (reads_request named request (seqnos seqno List.mem_cons_self) bound).append others
  · have nothing : (if request.data = true then missing else []) = [] := by
      split_ifs with data
      · exact not_not.mp (not_and.mp lacking data)
      · rfl
    simp only [nothing, lacking, List.isEmpty_nil, ↓reduceIte]
    by_cases asked : request.deps = true ∨ request.endIrob = true
    · have some' : ({ request with data := false } : ResendRequestType) ≠ .none := fun same => by
        have flags := (ResendRequestType.mk.injEq ..).mp same
        rw [flags.1, flags.2.2] at asked
        exact asked.elim Bool.false_ne_true Bool.false_ne_true
      rw [if_neg some', if_pos asked]
      have single : platform.Reads (platform.requestHdr id { request with data := false } 0
            (if request.endIrob = true then nextChunk.getD 0 else 0))
          [⟨0, .resendRequest id { request with data := false } 0
            (if request.endIrob = true then nextChunk.getD 0 else 0 : Nat)⟩] :=
        reads_request named _ (by norm_num) bound
      simpa using single
    · have none' : ({ request with data := false } : ResendRequestType) = .none := by
        rw [not_or, Bool.not_eq_true, Bool.not_eq_true] at asked
        rw [asked.1, asked.2]
        rfl
      rw [if_pos none', if_neg asked]
      exact .nil

theorem reads_sendDataCheck {id : IrobId} {irob : Option Probed}
    (inRange : (Composite.sendDataCheck id irob).InRange)
    (fits : (Composite.sendDataCheck id irob).deps.length * platform.idSize < 2 ^ 31) :
    platform.Reads (platform.checkVecs id irob).flatten
      (Composite.sendDataCheck id irob).messages := by
  obtain ⟨named, numbers⟩ := inRange
  cases irob with
  | none =>
      have alone : platform.Reads (platform.store ⟨0, .dataCheck (platform.net id)⟩)
          [⟨0, .dataCheck id⟩] := reads_check named host_zero
      simpa [checkVecs, Composite.messages] using alone
  | some irob =>
      obtain ⟨labels, ids, chunks, totals⟩ := numbers irob rfl
      have begun : platform.Reads ([platform.beginHdr irob.sendLabels id irob.deps.length] ++
            (if irob.deps.isEmpty then [] else [platform.idArray irob.deps])).flatten
          [⟨irob.sendLabels, .beginIrob id irob.deps⟩] := by
        have bytes := reads_begin labels named ids fits
        split_ifs with empty
        · rw [List.isEmpty_iff.mp empty] at bytes ⊢
          simpa [idArray] using bytes
        · simpa using bytes
      have check : platform.Reads
          [platform.store ⟨platform.net irob.sendLabels, .dataCheck (platform.net id)⟩].flatten
          [⟨irob.sendLabels, .dataCheck id⟩] := by
        rw [List.flatten_singleton]
        exact reads_check named (host_net_labels labels)
      rw [checkVecs, Composite.messages, List.flatten_append, List.flatten_append,
        List.flatten_append]
      refine ((begun.append ?_).append ?_).append check
      · cases sent : irob.chunk with
        | none => exact .nil
        | some chunk => exact reads_chunk labels named (chunks chunk sent)
      · cases done : irob.finished with
        | none => exact .nil
        | some numbers =>
            obtain ⟨bytes, count⟩ := totals numbers done
            rw [List.flatten_singleton]
            exact reads_end labels named bytes count

/-- A write whose dependencies take less than 2^31 bytes is read. -/
theorem reads_written {composite : Composite} (inRange : composite.InRange)
    (fits : composite.deps.length * platform.idSize < 2 ^ 31) :
    platform.Reads (platform.written composite) composite.messages := by
  cases composite with
  | beginIrob sendLabels id deps whole => exact reads_beginIrob inRange fits
  | irobChunk waitingAckIrob qdelay sendLabels id chunk => exact reads_irobChunk inRange
  | sendAcks id ackedIrobs srvTime qdelay => exact reads_sendAcks inRange
  | resendRequest id request missing nextChunk => exact reads_resendRequest inRange
  | sendDataCheck id irob => exact reads_sendDataCheck inRange fits
  | endIrob sendLabels id expectedBytes numSenderChunks =>
      obtain ⟨labels, named, bytes, count⟩ := inRange
      exact reads_end labels named bytes count
  | newInterface iface =>
      obtain ⟨down, up, rtt, lower, upper⟩ := inRange
      refine Reads.of_header (host_net_of_range (le_refl 0) (by norm_num)) ?_
      intro rest
      rw [readContent, host_net_labels down, host_net_labels up, host_net_labels rtt,
        toInt_host_net lower upper]
      rfl
  | downInterface iface =>
      exact Reads.of_header (host_net_of_range (le_refl 0) (by norm_num)) fun _ => rfl
  | goodbye => exact Reads.of_header host_zero fun _ => rfl

/-- A handler that throws ends the reading. -/
theorem receive_of_error {sendLabels : UInt32} {op : Op} {stop : Stop} {rest : List Byte}
    (thrown : platform.readContent rest op = .error stop) :
    platform.receive (platform.store ⟨sendLabels, op⟩ ++ rest) = ([], stop) := by
  rw [receive_store, dispatch, thrown]
  rfl

theorem readContent_begin_error {id numdeps : UInt32} {stop : Stop}
    (thrown : platform.readDepsArray (toInt (platform.host numdeps)) rest = .error stop) :
    platform.readContent rest (.beginIrob id numdeps) = .error stop := by
  rw [readContent, thrown]
  rfl

/-- A `Begin_IROB` with too many dependencies ends the reading. -/
theorem receive_begin_large {sendLabels : Int} {id : IrobId} {deps : List IrobId}
    (inRange : IdsInRange deps) (large : 2 ^ 31 ≤ deps.length * platform.idSize) (rest : List Byte) :
    ∃ stop, platform.receive (platform.beginHdr sendLabels id deps.length ++ rest) = ([], stop) := by
  obtain ⟨stop, thrown⟩ := readArray_short (arraySize_lt large) rest
  have positive : (0 : Int) < deps.length := by
    rcases Nat.eq_zero_or_pos deps.length with zero | positive
    · rw [zero, Nat.zero_mul] at large
      exact absurd large (by norm_num)
    · exact Int.natCast_pos.mpr positive
  refine ⟨stop, receive_of_error (readContent_begin_error ?_)⟩
  rw [toInt_host_net_nat inRange.1, readDepsArray, if_pos positive, Int.toNat_natCast, thrown]

theorem written_begin (sendLabels : Int) (id : IrobId) (deps : List IrobId)
    (whole : Option (Transmission × Nat × Nat)) :
    ∃ more, platform.written (.beginIrob sendLabels id deps whole) =
      platform.beginHdr sendLabels id deps.length ++ more := by
  cases whole with
  | none => exact ⟨_, rfl⟩
  | some all => exact ⟨_, rfl⟩

theorem messages_begin (sendLabels : Int) (id : IrobId) (deps : List IrobId)
    (whole : Option (Transmission × Nat × Nat)) :
    (Composite.beginIrob sendLabels id deps whole).messages ≠ [] := by
  cases whole with
  | none => exact List.cons_ne_nil _ _
  | some all => exact List.cons_ne_nil _ _

/-- A write with too many dependencies starts with their `Begin_IROB`, so nothing of it is
read. -/
theorem receive_large {composite : Composite} (inRange : composite.InRange)
    (large : 2 ^ 31 ≤ composite.deps.length * platform.idSize) (rest : List Byte) :
    composite.messages ≠ [] ∧
      ∃ stop, platform.receive (platform.written composite ++ rest) = ([], stop) := by
  have without : ¬ 2 ^ 31 ≤ ([] : List IrobId).length * platform.idSize := by
    rw [List.length_nil, Nat.zero_mul]
    norm_num
  cases composite with
  | beginIrob sendLabels id deps whole =>
      obtain ⟨more, bytes⟩ := platform.written_begin sendLabels id deps whole
      refine ⟨messages_begin sendLabels id deps whole, ?_⟩
      rw [bytes, List.append_assoc]
      exact receive_begin_large inRange.2.2.1 large _
  | sendDataCheck id irob =>
      cases irob with
      | none => exact absurd large without
      | some probed =>
          obtain ⟨-, ids, -⟩ := inRange.2 probed rfl
          refine ⟨List.cons_ne_nil _ _, ?_⟩
          rw [written, checkVecs, List.append_assoc, List.append_assoc, List.append_assoc,
            List.singleton_append, List.flatten_cons, List.append_assoc]
          exact receive_begin_large ids large _
  | _ => exact absurd large without

/-! ### The whole stream -/

/-- The bytes of a sequence of writes. -/
def stream (platform : Platform) (composites : List Composite) : List Byte :=
  composites.flatMap platform.written

/-- The writes are read as they were meant: the same messages in the same order, and the
receiver is back at the start of a header when the stream ends. -/
def RoundTrips (platform : Platform) (composites : List Composite) : Prop :=
  platform.receive (platform.stream composites) = (composites.flatMap Composite.messages, .noHeader [])

theorem receive_nil : platform.receive [] = ([], .noHeader []) := by
  rw [receive, dif_neg]
  exact Nat.not_le.mpr platform.hdrSize_pos

theorem roundTrips_cons {composite : Composite} {composites : List Composite}
    (reads : platform.Reads (platform.written composite) composite.messages) :
    platform.RoundTrips (composite :: composites) ↔ platform.RoundTrips composites := by
  unfold RoundTrips stream
  rw [List.flatMap_cons, List.flatMap_cons, reads, Prod.ext_iff, Prod.ext_iff]
  exact and_congr_left' (List.append_right_inj _)

/-- **Framing.** The receiver reads the messages of a sequence of writes, whatever writes
they are, if and only if every array of dependencies takes less than 2^31 bytes. -/
theorem framing_round_trip (platform : Platform) (composites : List Composite)
    (inRange : ∀ composite ∈ composites, composite.InRange) :
    platform.RoundTrips composites ↔
      ∀ composite ∈ composites, composite.deps.length * platform.idSize < 2 ^ 31 := by
  induction composites with
  | nil => exact iff_of_true receive_nil fun _ member => (List.not_mem_nil member).elim
  | cons composite rest ih =>
      have own := inRange composite List.mem_cons_self
      have others := ih fun other member => inRange other (List.mem_cons_of_mem _ member)
      rw [List.forall_mem_cons]
      by_cases fits : composite.deps.length * platform.idSize < 2 ^ 31
      · rw [roundTrips_cons (reads_written own fits), others]
        exact ⟨fun all => ⟨fits, all⟩, And.right⟩
      · refine iff_of_false ?_ fun all => fits all.1
        intro trip
        obtain ⟨some', stop, ended⟩ := receive_large own (Nat.not_lt.mp fits) (platform.stream rest)
        unfold RoundTrips stream at trip
        rw [List.flatMap_cons, List.flatMap_cons] at trip
        have nothing := congrArg Prod.fst (ended.symm.trans trip)
        exact some' (List.append_eq_nil_iff.mp nothing.symm).1

/-- A small IROB sent whole, two acknowledgments, and the end. -/
def framedWrites : List Composite :=
  [.beginIrob 4 7 [3, 5] (some (⟨[[1, 2], [3]], 0, 0⟩, 3, 1)), .sendAcks 2 [6] ⟨0, -1⟩ ⟨0, 0⟩, .goodbye]

theorem framing_round_trip_whole : (∀ composite ∈ framedWrites, composite.InRange) ∧
    lp64.RoundTrips framedWrites := by
  have inRange : ∀ composite ∈ framedWrites, composite.InRange := by
    simp [framedWrites, Composite.InRange, LabelsInRange, IrobId.InRange, IdsInRange,
      Transmission.InRange, Transmission.bytes]
  refine ⟨inRange, (framing_round_trip lp64 framedWrites inRange).mpr ?_⟩
  simp [framedWrites, Composite.deps, lp64]

/-- The identifiers below 2^28. -/
def crowd : List IrobId := (List.range (2 ^ 28)).map Int.ofNat

theorem length_crowd : crowd.length = 2 ^ 28 := by rw [crowd, List.length_map, List.length_range]

/-- An IROB that depends on all those before it, with 2^28 dependencies. -/
def crowdedWrites : List Composite := [.beginIrob 4 (2 ^ 28) crowd none]

theorem dependencies_unread : (∀ composite ∈ crowdedWrites, composite.InRange) ∧
    ¬ lp64.RoundTrips crowdedWrites := by
  have inRange : (Composite.beginIrob 4 (2 ^ 28) crowd none).InRange := by
    refine ⟨⟨by norm_num, by norm_num⟩, ⟨by norm_num, by norm_num⟩, ⟨?_, fun id member => ?_⟩, nofun⟩
    · rw [length_crowd]
      norm_num
    · obtain ⟨number, below, rfl⟩ := List.mem_map.mp member
      have bound := List.mem_range.mp below
      unfold IrobId.InRange
      simp only [Int.ofNat_eq_natCast]
      omega
  have large : 2 ^ 31 ≤ (Composite.beginIrob 4 (2 ^ 28) crowd none).deps.length * lp64.idSize := by
    rw [Composite.deps, length_crowd]
    change 2 ^ 31 ≤ 2 ^ 28 * 8
    norm_num
  refine ⟨fun composite member => List.mem_singleton.mp member ▸ inRange, fun trip => ?_⟩
  obtain ⟨some', stop, ended⟩ := receive_large inRange large []
  rw [RoundTrips, stream, crowdedWrites, List.flatMap_cons, List.flatMap_cons, List.flatMap_nil,
    List.flatMap_nil, ended, List.append_nil] at trip
  exact some' (congrArg Prod.fst trip).symm

end Platform

end Libcmm
