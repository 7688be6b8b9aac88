import Libcmm.Transfers
import Libcmm.Lib.Coverage

/-! # Which acknowledgments are measured (`net_stats.cpp`)

An IROB that was striped over networks is not to be measured, since its round trip says nothing
about any one of them. The filter compares the bytes that a network carried with the total of the
IROB. Retransmissions and data checks count as well, so that they can make up for messages that
went on another network.
-/

namespace Libcmm

open Lib

namespace SenderIrob

variable (platform : Platform) (irob : SenderIrob)

theorem nodup_messages : irob.messages.Nodup := by
  unfold messages
  rw [List.nodup_cons, List.nodup_cons]
  refine ⟨?_, ?_, List.nodup_range.map fun _ _ same => IrobMessage.chunk.inj same⟩
  · simp
  · simp

/-- The total is that of the messages. -/
theorem sum_messages : irob.messages.toFinset.sum (irob.messageBytes platform) =
    irob.getTotalNetworkBytes platform := by
  have chunks : ((List.range irob.own.sentChunks.length).map
      fun seqno => irob.messageBytes platform (.chunk seqno)) =
      irob.own.sentChunks.map fun chunk => chunk.datalen + platform.hdrSize := by
    apply List.ext_getElem
    · simp
    · intro seqno _ inside
      rw [List.length_map] at inside
      simp [messageBytes, inside, Nat.add_comm]
  rw [List.sum_toFinset _ irob.nodup_messages]
  unfold messages
  rw [List.map_cons, List.map_cons, List.map_map, List.sum_cons, List.sum_cons]
  rw [show (irob.messageBytes platform ∘ IrobMessage.chunk) =
    fun seqno => irob.messageBytes platform (.chunk seqno) from rfl, chunks, getTotalNetworkBytes]
  dsimp only [messageBytes]
  omega

end SenderIrob

namespace TransferStats

variable {stats : TransferStats} {id : IrobId} {network : Network} {srvTime : Timeval}

/-- What passes the filter. -/
theorem reportAck_passes_iff : (∃ after, stats.reportAck id network srvTime = some (true, after)) ↔
    srvTime.tvUsec ≠ -1 ∧ stats.stripedIrobs.contains id = false ∧
      0 < (stats.record id).totalBytes ∧
      (stats.record id).totalBytes ≤ (stats.record id).bytes network := by
  unfold reportAck
  split_ifs with marked striped
  · simp [marked]
  · simp [striped]
  · unfold IrobTransfersPerNetwork.hasAllBytes
    split_ifs with known
    · by_cases all : (stats.record id).totalBytes ≤ (stats.record id).bytes network
      · simp [marked, striped, known, all]
      · simp [all]
    · simp [known]

end TransferStats

namespace StatsRun

variable (platform : Platform) (irobs : IrobId → SenderIrob)

/-- The messages of an IROB that were sent on a network, with every copy. -/
def sentOn (id : IrobId) (network : Network) : List StatsEvent → List IrobMessage
  | [] => []
  | .send sender sent messages :: earlier =>
      if sender = network ∧ sent = id then messages ++ sentOn id network earlier
      else sentOn id network earlier
  | _ :: earlier => sentOn id network earlier

/-- The statistics of no network are destroyed. -/
def Standing (_ : StatsRun) : StatsEvent → Prop
  | .destroy _ => False
  | _ => True

instance (run : StatsRun) : ∀ event, Decidable (run.Standing event)
  | .destroy _ => inferInstanceAs (Decidable False)
  | .construct _ | .send _ _ _ | .reportTotal _ | .ack _ _ _ => inferInstanceAs (Decidable True)

/-- An acknowledgment that is measured is of an IROB all of whose chunks were sent on the network
on which it came. -/
def MeasuredWhole (run : StatsRun) (id : IrobId) (network : Network) (srvTime : Timeval) : Prop :=
  (∃ after, run.stats.reportAck id network srvTime = some (true, after)) →
    ∀ seqno < (irobs id).own.sentChunks.length,
      .chunk seqno ∈ sentOn id network run.history

/-- The bytes of retransmissions and data checks of an IROB on a network. -/
def surplusOn (run : StatsRun) (id : IrobId) (network : Network) : Nat :=
  surplus (irobs id).messages.toFinset ((irobs id).messageBytes platform)
    (sentOn id network run.history)

/-- The bytes of the messages of an IROB that were not sent on a network. -/
def missingOn (run : StatsRun) (id : IrobId) (network : Network) : Nat :=
  missing (irobs id).messages.toFinset ((irobs id).messageBytes platform)
    (sentOn id network run.history)

/-- The bytes that the record of an IROB that is not striped has for a network. -/
def Counted (run : StatsRun) : Prop :=
  ∀ id, run.stats.stripedIrobs.contains id = false → ∀ network,
    (run.stats.record id).bytes network =
      writeBytes platform irobs id (sentOn id network run.history)

variable {platform irobs} {run after : StatsRun} {id : IrobId} {network : Network}
  {srvTime : Timeval}

/-- Records with the same bytes count the same messages. -/
theorem Counted.of_same (counted : run.Counted platform irobs)
    (fewer : ∀ id, after.stats.stripedIrobs.contains id = false →
      run.stats.stripedIrobs.contains id = false)
    (bytes : ∀ id, after.stats.stripedIrobs.contains id = false → ∀ network,
      (after.stats.record id).bytes network = (run.stats.record id).bytes network)
    (sent : ∀ id network, sentOn id network after.history = sentOn id network run.history) :
    after.Counted platform irobs := by
  intro id single network
  rw [bytes id single, sent]
  exact counted id (fewer id single) network

theorem Counted.send (counted : run.Counted platform irobs) (sender : Network) (sent : IrobId)
    (messages : List IrobMessage) : Counted platform irobs
      ⟨run.stats.reportIrobSendEvent sent sender (writeBytes platform irobs sent messages),
        run.networks, .send sender sent messages :: run.history⟩ := by
  intro id single network
  dsimp only [TransferStats.reportIrobSendEvent, sentOn] at single ⊢
  by_cases striped : run.stats.stripedIrobs.contains sent = true
  · rw [if_pos striped] at single ⊢
    have other : sent ≠ id := fun same => Bool.false_ne_true (single.symm.trans (same ▸ striped))
    rw [if_neg fun both => other both.2]
    exact counted id single network
  · rw [if_neg striped] at single ⊢
    have before := counted id single network
    by_cases same : sent = id
    · subst same
      rw [TransferStats.record_setRecord, IrobTransfersPerNetwork.addTransfer,
        IrobTransfersPerNetwork.bytes_setBytes]
      by_cases here : sender = network
      · subst here
        rw [if_pos rfl, if_pos ⟨rfl, rfl⟩, before, writeBytes, writeBytes, writeBytes,
          List.map_append, List.sum_append]
        omega
      · rw [if_neg (Ne.symm here), if_neg fun both => here both.1]
        exact before
    · rw [TransferStats.record_setRecord_of_ne (Ne.symm same), if_neg fun both => same both.2]
      exact before

/-- An acknowledgment leaves the bytes of what is not striped as they were. -/
theorem reportAck_bytes {stats : TransferStats} {acked : IrobId} {acker : Network} {passes : Bool}
    (result : run.stats.reportAck acked acker srvTime = some (passes, stats))
    (single : stats.stripedIrobs.contains id = false) (network : Network) :
    run.stats.stripedIrobs.contains id = false ∧
      (stats.record id).bytes network = (run.stats.record id).bytes network := by
  unfold TransferStats.reportAck at result
  split_ifs at result with marked striped
  · cases result
    exact ⟨single, rfl⟩
  · cases result
    exact ⟨single, rfl⟩
  · obtain ⟨⟨all, record⟩, looked, shape⟩ := Option.map_eq_some_iff.mp result
    unfold IrobTransfersPerNetwork.hasAllBytes at looked
    split_ifs at looked
    obtain ⟨-, rfl⟩ := Prod.mk.inj (Option.some.inj looked)
    dsimp only at shape
    have kept : ((run.stats.setRecord acked ((run.stats.record acked).setBytes acker
        ((run.stats.record acked).bytes acker))).record id).bytes network =
        (run.stats.record id).bytes network := by
      by_cases same : acked = id
      · subst same
        rw [TransferStats.record_setRecord, IrobTransfersPerNetwork.bytes_setBytes]
        split_ifs with here
        · rw [here]
        · rfl
      · rw [TransferStats.record_setRecord_of_ne (Ne.symm same)]
    split_ifs at shape
    · cases shape
      exact ⟨single, kept⟩
    · cases shape
      rw [IntSet.contains_insert, Bool.or_eq_false_iff] at single
      exact ⟨single.2, kept⟩

theorem Counted.step (counted : run.Counted platform irobs) {event : StatsEvent}
    (standing : run.Standing event) (moved : run.step platform irobs event = some after) :
    after.Counted platform irobs := by
  cases event with
  | construct network =>
      cases moved
      exact counted.of_same (fun _ single => single) (fun _ _ _ => rfl) fun _ _ => rfl
  | destroy network => exact standing.elim
  | send network sent messages =>
      cases moved
      exact counted.send network sent messages
  | reportTotal reported =>
      obtain ⟨stats, result, rfl⟩ := Option.map_eq_some_iff.mp moved
      obtain ⟨record, assigned, rfl⟩ := Option.map_eq_some_iff.mp result
      have bytes : ∀ network, record.bytes network = (run.stats.record reported).bytes network := by
        intro network
        unfold IrobTransfersPerNetwork.reportTotalBytes at assigned
        dsimp only at assigned
        split_ifs at assigned
        all_goals
          cases assigned
          rfl
      refine counted.of_same (fun _ single => single) (fun id _ network => ?_) fun _ _ => rfl
      by_cases same : id = reported
      · subst same
        rw [TransferStats.record_setRecord]
        exact bytes network
      · rw [TransferStats.record_setRecord_of_ne same]
  | ack network acked srvTime =>
      obtain ⟨⟨passes, stats⟩, result, rfl⟩ := Option.map_eq_some_iff.mp moved
      exact counted.of_same (fun id single => (reportAck_bytes result single network).1)
        (fun id single other => (reportAck_bytes result single other).2) fun _ _ => rfl

theorem counted_of_reachable
    (reached : ((machine platform irobs).restrict Standing).Reachable run) :
    run.Counted platform irobs := by
  apply reached.induct
  · rintro first rfl
    exact fun _ _ _ => rfl
  · intro before after event _ counted permitted moved
    exact counted.step permitted.2 moved

/-- In every run without teardown and for every acknowledgment: if it is measured then all chunks
were sent on its network, unless a chunk was not, the IROB is not known to be striped, and the
bytes of retransmissions and data checks there make up for those of what was not sent. -/
theorem measuredWhole_iff (reached : ((machine platform irobs).restrict Standing).Reachable run)
    (id : IrobId) (network : Network) (srvTime : Timeval) :
    run.MeasuredWhole irobs id network srvTime ↔
      srvTime.tvUsec = -1 ∨ run.stats.stripedIrobs.contains id = true ∨
      ¬TotalKnown id run.history ∨
      (∀ seqno < (irobs id).own.sentChunks.length,
        .chunk seqno ∈ sentOn id network run.history) ∨
      run.surplusOn platform irobs id network < run.missingOn platform irobs id network := by
  unfold MeasuredWhole
  rw [TransferStats.reportAck_passes_iff]
  by_cases marked : srvTime.tvUsec = -1
  · exact iff_of_true (fun passes => absurd marked passes.1) (.inl marked)
  rw [or_iff_right marked]
  cases striped : run.stats.stripedIrobs.contains id with
  | true => exact iff_of_true (fun passes => Bool.noConfusion passes.2.1) (.inl rfl)
  | false =>
      have sound := sound_of_reachable reached.of_restrict
      have known := TransferStats.record_total.trans (sound.kept id striped).known
      rw [known, counted_of_reachable reached id striped network, or_iff_right Bool.false_ne_true]
      by_cases isKnown : TotalKnown id run.history
      · have total : (run.stats.record id).totalBytes = (irobs id).getTotalNetworkBytes platform :=
          (sound.ownTotals id).resolve_left (Nat.ne_of_gt (known.mpr isKnown))
        rw [or_iff_right (not_not_intro isKnown), total, ← SenderIrob.sum_messages, surplusOn,
          missingOn, ← sum_lt_iff, writeBytes]
        simp only [ne_eq, marked, not_false_eq_true, isKnown, true_and]
        rw [← not_le, or_comm]
        exact Decidable.imp_iff_not_or
      · exact iff_of_true (fun passes => absurd passes.2.2.1 isKnown) (.inl isKnown)

/-- An IROB with two chunks of one size. -/
def twoChunks : SenderIrob :=
  { SenderIrob.mk 3 [] [] 0 with
    own := { SenderPart.initial 0 with
      sentChunks := [⟨3, 0, 0, 100, none⟩, ⟨3, 1, 100, 100, none⟩] } }

/-- One chunk goes on each of two networks, and these messages on the first besides. -/
def stripedWith (again : List IrobMessage) : List StatsEvent :=
  [.construct (1, 2), .construct (5, 6), .send (1, 2) 3 [.beginIrob], .send (1, 2) 3 [.chunk 0],
    .send (5, 6) 3 [.chunk 1], .send (1, 2) 3 again, .send (1, 2) 3 [.endIrob], .reportTotal 3]

/-- The first chunk is sent again on the first network, and the acknowledgment is measured. -/
theorem retransmission_measured : ∃ run : StatsRun,
    ((machine .lp64 fun _ => twoChunks).restrict Standing).Reachable run ∧
    .chunk 1 ∉ sentOn 3 (1, 2) run.history ∧
    ¬run.MeasuredWhole (fun _ => twoChunks) 3 (1, 2) ⟨0, 50⟩ := by
  obtain ⟨run, ran, passes, history⟩ : ∃ run : StatsRun,
      ((machine .lp64 fun _ => twoChunks).restrict Standing).run initial
        (stripedWith [.chunk 0]) = some run ∧
      (∃ after, run.stats.reportAck 3 (1, 2) ⟨0, 50⟩ = some (true, after)) ∧
      run.history = (stripedWith [.chunk 0]).reverse := ⟨_, rfl, ⟨_, rfl⟩, rfl⟩
  have absent : .chunk 1 ∉ sentOn 3 (1, 2) run.history := by
    rw [history]
    decide
  exact ⟨run, .run (.initial rfl) ran, absent, fun whole => absent (whole passes 1 (by decide))⟩

theorem measuredWhole_iff_striped : ∃ run : StatsRun,
    ((machine .lp64 fun _ => twoChunks).restrict Standing).Reachable run ∧
    run.MeasuredWhole (fun _ => twoChunks) 3 (1, 2) ⟨0, 50⟩ := by
  obtain ⟨run, ran, history⟩ : ∃ run : StatsRun,
      ((machine .lp64 fun _ => twoChunks).restrict Standing).run initial
        (stripedWith [.dataCheck]) = some run ∧
      run.history = (stripedWith [.dataCheck]).reverse := ⟨_, rfl, rfl⟩
  have reached := Machine.Reachable.run (.initial rfl) ran
  refine ⟨run, reached, (measuredWhole_iff reached 3 (1, 2) ⟨0, 50⟩).mpr ?_⟩
  refine .inr (.inr (.inr (.inr ?_)))
  unfold surplusOn missingOn
  rw [history]
  decide

end StatsRun

end Libcmm
