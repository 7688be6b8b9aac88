import Libcmm.Framing

/-! # Bytes under way

The receiver takes one message after the other off the bytes that have arrived, while the
sender goes on writing behind them. What has been taken does not depend on what comes later
(`receiveOne_append`), and a write that is cut off spoils nothing that was written before it
(`Carries.cut`).
-/

namespace Libcmm

/-! ### The numbers of a write -/

instance (labels : Int) : Decidable (LabelsInRange labels) :=
  inferInstanceAs (Decidable (0 ≤ labels ∧ labels < 2 ^ 32))

instance (ids : List IrobId) : Decidable (IdsInRange ids) :=
  inferInstanceAs (Decidable (ids.length < 2 ^ 31 ∧ ∀ id ∈ ids, id.InRange))

instance (chunk : Transmission) : Decidable chunk.InRange :=
  inferInstanceAs (Decidable (chunk.seqno < 2 ^ 31 ∧ chunk.offset < 2 ^ 31 ∧
    0 < chunk.bytes.length ∧ chunk.bytes.length < 2 ^ 31))

instance (iface : NetInterface) : Decidable iface.InRange :=
  inferInstanceAs (Decidable (LabelsInRange iface.bandwidthDown ∧ LabelsInRange iface.bandwidthUp ∧
    LabelsInRange iface.rtt ∧ -(2 ^ 31) ≤ iface.type ∧ iface.type < 2 ^ 31))

namespace Composite

theorem wholeInRange_iff {whole : Option (Transmission × Nat × Nat)} :
    (∀ all ∈ whole, all.1.InRange ∧ all.2.1 < 2 ^ 31 ∧ all.2.2 < 2 ^ 31) ↔
      ∀ chunk expectedBytes numSenderChunks, whole = some (chunk, expectedBytes, numSenderChunks) →
        chunk.InRange ∧ expectedBytes < 2 ^ 31 ∧ numSenderChunks < 2 ^ 31 :=
  ⟨fun all _ _ _ same => all _ same, fun all _ same => all _ _ _ same⟩

instance (probed : Probed) : Decidable (LabelsInRange probed.sendLabels ∧ IdsInRange probed.deps ∧
    (∀ chunk, probed.chunk = some chunk → chunk.InRange) ∧
    ∀ totals, probed.finished = some totals → totals.1 < 2 ^ 31 ∧ totals.2 < 2 ^ 31) :=
  inferInstanceAs (Decidable (LabelsInRange probed.sendLabels ∧ IdsInRange probed.deps ∧
    (∀ chunk ∈ probed.chunk, chunk.InRange) ∧
    ∀ totals ∈ probed.finished, totals.1 < 2 ^ 31 ∧ totals.2 < 2 ^ 31))

instance : DecidablePred Composite.InRange
  | beginIrob sendLabels id deps whole => decidable_of_iff (LabelsInRange sendLabels ∧ id.InRange ∧
      IdsInRange deps ∧ ∀ all ∈ whole, all.1.InRange ∧ all.2.1 < 2 ^ 31 ∧ all.2.2 < 2 ^ 31)
      (and_congr_right' (and_congr_right' (and_congr_right' wholeInRange_iff)))
  | irobChunk waitingAckIrob _ sendLabels id chunk => inferInstanceAs (Decidable
      ((waitingAckIrob = -1 ∨ waitingAckIrob.InRange) ∧ LabelsInRange sendLabels ∧ id.InRange ∧
        chunk.InRange))
  | sendAcks id ackedIrobs _ _ => inferInstanceAs (Decidable
      (id.InRange ∧ ackedIrobs.length ≤ 150 ∧ IdsInRange ackedIrobs))
  | resendRequest id _ missing nextChunk => inferInstanceAs (Decidable
      (id.InRange ∧ (∀ seqno ∈ missing, seqno < 2 ^ 31) ∧ ∀ next ∈ nextChunk, next < 2 ^ 31))
  | sendDataCheck id irob => inferInstanceAs (Decidable (id.InRange ∧ ∀ probed ∈ irob,
      LabelsInRange probed.sendLabels ∧ IdsInRange probed.deps ∧
      (∀ chunk, probed.chunk = some chunk → chunk.InRange) ∧
      ∀ totals, probed.finished = some totals → totals.1 < 2 ^ 31 ∧ totals.2 < 2 ^ 31))
  | endIrob sendLabels id expectedBytes numSenderChunks => inferInstanceAs (Decidable
      (LabelsInRange sendLabels ∧ id.InRange ∧ expectedBytes < 2 ^ 31 ∧ numSenderChunks < 2 ^ 31))
  | newInterface iface => inferInstanceAs (Decidable iface.InRange)
  | downInterface _ => .isTrue trivial
  | goodbye => .isTrue trivial

end Composite

namespace Platform

variable {platform : Platform} {stream later : List Byte}

variable (platform) in
/-- One turn of the loop of `CSocketReceiver::Run`: a header and what belongs to it. -/
def receiveOne (stream : List Byte) : Except Stop (WireMessage × List Byte) :=
  if platform.hdrSize ≤ stream.length then
    platform.dispatch (stream.drop platform.hdrSize) (platform.load (stream.take platform.hdrSize))
  else .error (.noHeader stream)

/-- The loop is its first turn and the turns that follow. -/
theorem receive_of_receiveOne {message : WireMessage}
    (taken : platform.receiveOne stream = .ok (message, later)) :
    platform.receive stream = (message :: (platform.receive later).1, (platform.receive later).2) := by
  unfold receiveOne at taken
  split_ifs at taken with enough
  rw [receive, dif_pos enough]
  split
  · next stop thrown => cases thrown.symm.trans taken
  · next first rest dispatched =>
      cases dispatched.symm.trans taken
      rfl

/-! ### More bytes behind -/

theorem readBytes_extend {count : Int} {bytes : List Byte} (more : List Byte)
    (reading : readBytes count stream = some (bytes, later)) :
    readBytes count (stream ++ more) = some (bytes, later ++ more) := by
  unfold readBytes at reading ⊢
  split_ifs at reading with enough
  cases reading
  have room : count.toNat ≤ (stream ++ more).length := by
    rw [List.length_append]
    exact Nat.le_add_right_of_le enough.2
  rw [if_pos ⟨enough.1, room⟩, List.take_append_of_le_length enough.2,
    List.drop_append_of_le_length enough.2]

theorem readArray_extend {count : Nat} {datalen : Int} {ids : List IrobId} (more : List Byte)
    (reading : platform.readArray count datalen stream = .ok (ids, later)) :
    platform.readArray count datalen (stream ++ more) = .ok (ids, later ++ more) := by
  unfold readArray at reading ⊢
  split at reading
  · cases reading
  · next bytes after taken =>
      rw [readBytes_extend more taken]
      dsimp only
      split at reading
      · cases reading
      · cases reading
        rfl

theorem readDepsArray_extend {numdeps : Int} {deps : List IrobId} (more : List Byte)
    (reading : platform.readDepsArray numdeps stream = .ok (deps, later)) :
    platform.readDepsArray numdeps (stream ++ more) = .ok (deps, later ++ more) := by
  unfold readDepsArray at reading ⊢
  split_ifs at reading ⊢ with some'
  · exact readArray_extend more reading
  · cases reading
    rfl

theorem readAckedIrobs_extend {numAcks : Nat} {ids : List IrobId} (more : List Byte)
    (reading : platform.readAckedIrobs numAcks stream = .ok (ids, later)) :
    platform.readAckedIrobs numAcks (stream ++ more) = .ok (ids, later ++ more) := by
  unfold readAckedIrobs at reading ⊢
  split_ifs at reading ⊢ with some'
  · exact readArray_extend more reading
  · cases reading
    rfl

theorem readDataBuffer_extend {datalen : Int} {data : List Byte} (more : List Byte)
    (reading : readDataBuffer datalen stream = .ok (data, later)) :
    readDataBuffer datalen (stream ++ more) = .ok (data, later ++ more) := by
  unfold readDataBuffer at reading ⊢
  split_ifs at reading ⊢ with none'
  split at reading
  · cases reading
  · next result taken =>
      cases reading
      rw [readBytes_extend more taken]

theorem readContent_extend {op : Op} {content : Content} (more : List Byte)
    (reading : platform.readContent stream op = .ok (content, later)) :
    platform.readContent (stream ++ more) op = .ok (content, later ++ more) := by
  cases op with
  | beginIrob id numdeps =>
      obtain ⟨⟨deps, after⟩, array, done⟩ := bind_eq_ok.mp reading
      cases done
      exact bind_eq_ok.mpr ⟨_, readDepsArray_extend more array, rfl⟩
  | irobChunk id seqno offset datalen =>
      obtain ⟨⟨data, after⟩, buffer, done⟩ := bind_eq_ok.mp reading
      cases done
      exact bind_eq_ok.mpr ⟨_, readDataBuffer_extend more buffer, rfl⟩
  | ack numAcks id srvSec srvUsec qdelaySec qdelayUsec =>
      obtain ⟨⟨ackedIrobs, after⟩, array, done⟩ := bind_eq_ok.mp reading
      cases done
      exact bind_eq_ok.mpr ⟨_, readAckedIrobs_extend more array, rfl⟩
  | _ =>
      cases reading
      rfl

/-- A message that is here as a whole is read in the same way when more has arrived. -/
theorem receiveOne_append {message : WireMessage} (more : List Byte)
    (taken : platform.receiveOne stream = .ok (message, later)) :
    platform.receiveOne (stream ++ more) = .ok (message, later ++ more) := by
  unfold receiveOne at taken ⊢
  split_ifs at taken with enough
  have room : platform.hdrSize ≤ (stream ++ more).length := by
    rw [List.length_append]
    exact Nat.le_add_right_of_le enough
  rw [if_pos room, List.take_append_of_le_length enough, List.drop_append_of_le_length enough]
  cases loaded : platform.load (stream.take platform.hdrSize) with
  | known hdr =>
      rw [loaded] at taken
      obtain ⟨⟨content, after⟩, reading, done⟩ := bind_eq_ok.mp taken
      cases done
      exact bind_eq_ok.mpr ⟨_, readContent_extend more reading, rfl⟩
  | other type =>
      rw [loaded] at taken
      simp only [dispatch] at taken
      split at taken <;> cases taken

/-! ### Messages under way -/

/-- The bytes under way to a receiver, of which the last may be missing, are those of these
messages. -/
def Carries (platform : Platform) (stream : List Byte) (whole : Bool) (messages : List WireMessage) :
    Prop :=
  ∃ missing, platform.Reads (stream ++ missing) messages ∧ (whole = true → missing = [])

namespace Carries

variable {messages sent : List WireMessage} {whole : Bool}

theorem nil (platform : Platform) (whole : Bool) : platform.Carries [] whole [] :=
  ⟨[], Reads.nil, fun _ => rfl⟩

/-- A write is done in full. -/
theorem write (carries : platform.Carries stream true messages) {bytes : List Byte}
    (reads : platform.Reads bytes sent) : platform.Carries (stream ++ bytes) true (messages ++ sent) := by
  obtain ⟨missing, before, none'⟩ := carries
  rw [none' rfl, List.append_nil] at before
  refine ⟨[], ?_, fun _ => rfl⟩
  rw [List.append_nil]
  exact before.append reads

/-- Only the beginning of a write is accepted; nothing may follow it. -/
theorem cut (carries : platform.Carries stream true messages) {bytes : List Byte}
    (reads : platform.Reads bytes sent) (accepted : Nat) :
    platform.Carries (stream ++ bytes.take accepted) false (messages ++ sent) := by
  obtain ⟨missing, before, none'⟩ := carries
  rw [none' rfl, List.append_nil] at before
  refine ⟨bytes.drop accepted, ?_, nofun⟩
  rw [List.append_assoc, List.take_append_drop]
  exact before.append reads

/-- What is read is the first message, and the others are still under way. -/
theorem receiveOne (carries : platform.Carries stream whole messages) {message : WireMessage}
    (taken : platform.receiveOne stream = .ok (message, later)) :
    ∃ others, messages = message :: others ∧ platform.Carries later whole others := by
  obtain ⟨missing, reads, complete⟩ := carries
  have turn : ∀ rest, platform.receive (stream ++ missing ++ rest) =
      (message :: (platform.receive (later ++ missing ++ rest)).1,
        (platform.receive (later ++ missing ++ rest)).2) := fun rest => by
    rw [List.append_assoc, List.append_assoc]
    exact receive_of_receiveOne (receiveOne_append (missing ++ rest) taken)
  cases messages with
  | nil =>
      have none' := congrArg Prod.fst ((turn []).symm.trans (reads []))
      rw [receive_nil] at none'
      cases none'
  | cons first others =>
      have same : ∀ rest, message :: (platform.receive (later ++ missing ++ rest)).1 =
          first :: (others ++ (platform.receive rest).1) ∧
          (platform.receive (later ++ missing ++ rest)).2 = (platform.receive rest).2 :=
        fun rest => Prod.ext_iff.mp ((turn rest).symm.trans (reads rest))
      obtain ⟨head, -⟩ := List.cons_eq_cons.mp (same []).1
      refine ⟨others, by rw [head], missing, fun rest => ?_, complete⟩
      exact Prod.ext (List.cons_eq_cons.mp (same rest).1).2 (same rest).2

end Carries

end Platform

end Libcmm
