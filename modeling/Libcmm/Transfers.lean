import Libcmm.Timeops
import Libcmm.SenderIrob
import Libcmm.IntSet
import Mathlib.Data.List.AList

/-! # How many bytes of an IROB went where (`net_stats.cpp`)

All networks share one record for an IROB: its total number of bytes, once that was reported, and
the number of bytes that were sent on each network. An acknowledgment is measured if the network
it came on carried the total. A record is made when it is first looked up, and it goes when the
statistics of the last network in it are destroyed; acknowledgments may still come after that.
-/

namespace Libcmm

open Lib

/-- The local and the remote address of a network. -/
abbrev Network := UInt32 × UInt32

/-- `class IROBTransfersPerNetwork`. -/
structure IrobTransfersPerNetwork where
  totalBytes : Nat
  transfersByNetwork : AList fun _ : Network => Nat

namespace IrobTransfersPerNetwork

/-- `IROBTransfersPerNetwork::IROBTransfersPerNetwork`. -/
def empty : IrobTransfersPerNetwork := ⟨0, ∅⟩

variable (record : IrobTransfersPerNetwork) (network : Network)

/-- The bytes that were sent on a network. -/
def bytes : Nat := (record.transfersByNetwork.lookup network).getD 0

/-- `getValueRef` makes the entry that it returns. -/
def setBytes (bytes : Nat) : IrobTransfersPerNetwork :=
  { record with transfersByNetwork := record.transfersByNetwork.insert network bytes }

/-- `IROBTransfersPerNetwork::addTransfer`. -/
def addTransfer (bytes : Nat) : IrobTransfersPerNetwork :=
  record.setBytes network (record.bytes network + bytes)

/-- `IROBTransfersPerNetwork::hasAllBytes`, with `ASSERT(total_bytes > 0)`. -/
def hasAllBytes : Option (Bool × IrobTransfersPerNetwork) :=
  if 0 < record.totalBytes then
    some (decide (record.totalBytes ≤ record.bytes network),
      record.setBytes network (record.bytes network))
  else none

/-- `IROBTransfersPerNetwork::reportTotalBytes`, with `ASSERT(total_bytes == total_bytes_)`. -/
def reportTotalBytes (totalBytes : Nat) : Option IrobTransfersPerNetwork :=
  let total := if record.totalBytes = 0 then totalBytes else record.totalBytes
  if total = totalBytes then some { record with totalBytes := total } else none

/-- `IROBTransfersPerNetwork::remove`; without networks the record is to be erased. -/
def remove : Option IrobTransfersPerNetwork :=
  let left := record.transfersByNetwork.erase network
  if left.keys.isEmpty then none else some { record with transfersByNetwork := left }

end IrobTransfersPerNetwork

namespace IrobTransfersPerNetwork

variable {record : IrobTransfersPerNetwork} {network other : Network} {bytes : Nat}

@[simp] theorem mem_setBytes : network ∈ (record.setBytes other bytes).transfersByNetwork ↔
    network = other ∨ network ∈ record.transfersByNetwork := AList.mem_insert _

@[simp] theorem totalBytes_setBytes :
    (record.setBytes other bytes).totalBytes = record.totalBytes := rfl

theorem bytes_setBytes : (record.setBytes other bytes).bytes network =
    if network = other then bytes else record.bytes network := by
  unfold setBytes IrobTransfersPerNetwork.bytes
  split_ifs with same
  · rw [same, AList.lookup_insert]
    rfl
  · rw [AList.lookup_insert_ne same]

/-- A network that carried something is in the record. -/
theorem mem_of_bytes_pos (carried : 0 < record.bytes network) :
    network ∈ record.transfersByNetwork := by
  by_contra absent
  rw [IrobTransfersPerNetwork.bytes, AList.lookup_eq_none.mpr absent] at carried
  exact Nat.lt_irrefl 0 carried

/-- Whether a record goes with a network. -/
theorem remove_cases (record : IrobTransfersPerNetwork) (network : Network) :
    (record.remove network = none ∧ ∀ other ∈ record.transfersByNetwork, other = network) ∨
      (∃ other ∈ record.transfersByNetwork, other ≠ network) ∧
        ∃ left, record.remove network = some left ∧ left.totalBytes = record.totalBytes ∧
          ∀ other, other ∈ left.transfersByNetwork ↔
            other ≠ network ∧ other ∈ record.transfersByNetwork := by
  unfold remove
  dsimp only
  split_ifs with empty
  · refine .inl ⟨rfl, fun other member => ?_⟩
    by_contra apart
    have left : other ∈ (record.transfersByNetwork.erase network).keys :=
      AList.mem_erase.mpr ⟨apart, member⟩
    rw [List.isEmpty_iff.mp empty] at left
    exact List.not_mem_nil left
  · obtain ⟨other, member⟩ :=
      List.exists_mem_of_ne_nil _ fun none => empty (List.isEmpty_iff.mpr none)
    obtain ⟨apart, old⟩ := AList.mem_erase.mp member
    exact .inr ⟨⟨other, old, apart⟩, _, rfl, rfl, fun other => AList.mem_erase⟩

/-- A record that may have gone has an entry for a network. -/
def Holding (record : Option IrobTransfersPerNetwork) (network : Network) : Prop :=
  ∃ present ∈ record, network ∈ present.transfersByNetwork

/-- A record that may have gone has a total. -/
def Totalled (record : Option IrobTransfersPerNetwork) : Prop :=
  ∃ present ∈ record, 0 < present.totalBytes

@[simp] theorem holding_none : ¬Holding none network := fun ⟨_, absent, _⟩ => nomatch absent

@[simp] theorem holding_some : Holding (some record) network ↔
    network ∈ record.transfersByNetwork := by
  simp only [Holding, Option.mem_some_iff, exists_eq_left']

@[simp] theorem totalled_none : ¬Totalled none := fun ⟨_, absent, _⟩ => nomatch absent

@[simp] theorem totalled_some : Totalled (some record) ↔ 0 < record.totalBytes := by
  simp only [Totalled, Option.mem_some_iff, exists_eq_left']

/-- Only the network that goes leaves the record. -/
theorem holding_remove (record : Option IrobTransfersPerNetwork) (gone network : Network) :
    Holding (record.bind fun record => record.remove gone) network ↔
      gone ≠ network ∧ Holding record network := by
  rcases record with _ | record
  · exact iff_of_false holding_none fun both => holding_none both.2
  · rw [Option.bind_some, holding_some]
    rcases record.remove_cases gone with ⟨removed, all⟩ | ⟨-, left, removed, -, members⟩
    · rw [removed]
      exact iff_of_false holding_none fun both => both.1 (all network both.2).symm
    · rw [removed, holding_some, members]
      exact and_congr_left fun _ => ne_comm

/-- The total goes with the last network. -/
theorem totalled_remove (record : Option IrobTransfersPerNetwork) (gone : Network) :
    Totalled (record.bind fun record => record.remove gone) ↔
      Totalled record ∧ ∃ network, network ≠ gone ∧ Holding record network := by
  rcases record with _ | record
  · exact iff_of_false totalled_none fun both => totalled_none both.1
  · simp only [Option.bind_some, totalled_some, holding_some]
    rcases record.remove_cases gone with ⟨removed, all⟩ | ⟨⟨other, member, apart⟩, left, removed,
      total, -⟩
    · rw [removed]
      exact iff_of_false totalled_none fun both =>
        both.2.elim fun network ⟨apart, member⟩ => apart (all network member)
    · rw [removed, totalled_some, total]
      exact (and_iff_left ⟨other, apart, member⟩).symm

end IrobTransfersPerNetwork

/-- The statistics that the networks share: `irob_transfers` and `striped_irobs`. -/
structure TransferStats where
  irobIfaceTransfers : IrobId → Option IrobTransfersPerNetwork
  stripedIrobs : IntSet

namespace TransferStats

/-- `NetStats::resetAll`. -/
def initial : TransferStats := ⟨fun _ => none, .empty⟩

variable (stats : TransferStats) (id : IrobId) (network : Network)

/-- `irob_iface_transfers[id]`. -/
def record : IrobTransfersPerNetwork := (stats.irobIfaceTransfers id).getD .empty

/-- An assignment to `irob_iface_transfers[id]`. -/
def setRecord (record : IrobTransfersPerNetwork) : TransferStats :=
  { stats with irobIfaceTransfers := Function.update stats.irobIfaceTransfers id (some record) }

/-- What `NetStats::report_irob_send_event` does to the shared statistics. -/
def reportIrobSendEvent (bytes : Nat) : TransferStats :=
  if stats.stripedIrobs.contains id then stats
  else stats.setRecord id ((stats.record id).addTransfer network bytes)

/-- `NetStats::report_total_irob_bytes`. -/
def reportTotalIrobBytes (totalBytes : Nat) : Option TransferStats :=
  ((stats.record id).reportTotalBytes totalBytes).map (stats.setRecord id)

/-- The beginning of `NetStats::report_ack`: whether the IROB passes the filter for striping. -/
def reportAck (srvTime : Timeval) : Option (Bool × TransferStats) :=
  if srvTime.tvUsec = -1 then some (false, stats)
  else if stats.stripedIrobs.contains id then some (false, stats)
  else
    ((stats.record id).hasAllBytes network).map fun (all, record) =>
      if all then (true, stats.setRecord id record)
      else (false, { stats.setRecord id record with
        stripedIrobs := stats.stripedIrobs.insert id })

/-- `IROBTransfers::removeAll`, in the destructor of `NetStats`. -/
def removeAll : TransferStats :=
  { stats with irobIfaceTransfers := fun id =>
      (stats.irobIfaceTransfers id).bind fun record => record.remove network }

end TransferStats

namespace TransferStats

open IrobTransfersPerNetwork

variable {stats : TransferStats} {id other : IrobId} {record : IrobTransfersPerNetwork}
  {network : Network}

@[simp] theorem setRecord_self :
    (stats.setRecord id record).irobIfaceTransfers id = some record := Function.update_self ..

theorem setRecord_of_ne (apart : other ≠ id) :
    (stats.setRecord id record).irobIfaceTransfers other = stats.irobIfaceTransfers other :=
  Function.update_of_ne apart ..

@[simp] theorem record_setRecord : (stats.setRecord id record).record id = record :=
  congrArg (fun found => Option.getD found empty) setRecord_self

theorem record_setRecord_of_ne (apart : other ≠ id) :
    (stats.setRecord id record).record other = stats.record other :=
  congrArg (fun found => Option.getD found empty) (setRecord_of_ne apart)

/-- The record that a look-up makes has no networks. -/
theorem mem_record : network ∈ (stats.record id).transfersByNetwork ↔
    Holding (stats.irobIfaceTransfers id) network := by
  unfold record
  rcases stats.irobIfaceTransfers id with _ | present
  · exact iff_of_false (AList.notMem_empty network) holding_none
  · exact holding_some.symm

/-- The record that a look-up makes has no total. -/
theorem record_total : 0 < (stats.record id).totalBytes ↔
    Totalled (stats.irobIfaceTransfers id) := by
  unfold record
  rcases stats.irobIfaceTransfers id with _ | present
  · exact iff_of_false (Nat.lt_irrefl 0) totalled_none
  · exact totalled_some.symm

end TransferStats

/-! ### Messages -/

/-- The messages that carry an IROB, and the data check that asks about it. -/
inductive IrobMessage where
  | beginIrob
  | chunk (seqno : Nat)
  | endIrob
  | dataCheck
  deriving DecidableEq

namespace SenderIrob

variable (platform : Platform) (irob : SenderIrob)

/-- The bytes with which a message is reported. -/
def messageBytes : IrobMessage → Nat
  | .beginIrob => platform.hdrSize + irob.deps.toList.length * platform.idSize
  | .chunk seqno =>
      platform.hdrSize + ((irob.own.sentChunks[seqno]?).map fun chunk => chunk.datalen).getD 0
  | .endIrob | .dataCheck => platform.hdrSize

/-- `PendingSenderIROB::get_total_network_bytes`. -/
def getTotalNetworkBytes : Nat :=
  platform.hdrSize * 2 + irob.deps.toList.length * platform.idSize +
    (irob.own.sentChunks.map fun chunk => chunk.datalen + platform.hdrSize).sum

/-- The messages that the peer needs. -/
def messages : List IrobMessage :=
  .beginIrob :: .endIrob :: (List.range irob.own.sentChunks.length).map .chunk

theorem getTotalNetworkBytes_pos : 0 < irob.getTotalNetworkBytes platform := by
  have header := platform.hdrSize_pos
  unfold getTotalNetworkBytes
  omega

end SenderIrob

/-! ### Runs -/

/-- Calls of the statistics. The IROBs are those that are complete and chunked. -/
inductive StatsEvent where
  /-- a `NetStats` is constructed for a network -/
  | construct (network : Network)
  /-- a `NetStats` is destroyed -/
  | destroy (network : Network)
  /-- `report_irob_send_event` for a write with these messages -/
  | send (network : Network) (id : IrobId) (messages : List IrobMessage)
  | reportTotal (id : IrobId)
  /-- `report_ack` -/
  | ack (network : Network) (id : IrobId) (srvTime : Timeval)

/-- The shared statistics, the networks with a `NetStats`, and the calls so far, the last one
first. -/
structure StatsRun where
  stats : TransferStats
  networks : List Network
  history : List StatsEvent

namespace StatsRun

open IrobTransfersPerNetwork

variable (platform : Platform) (irobs : IrobId → SenderIrob)

/-- The bytes of a write. -/
def writeBytes (id : IrobId) (messages : List IrobMessage) : Nat :=
  (messages.map ((irobs id).messageBytes platform)).sum

/-- A network has one `NetStats` at a time, which reports what it sends and receives; a message of
an IROB is one of its own. -/
def Permitted (run : StatsRun) : StatsEvent → Prop
  | .construct network => network ∉ run.networks
  | .destroy network => network ∈ run.networks
  | .send network id messages => network ∈ run.networks ∧
      ∀ message ∈ messages, message = .dataCheck ∨ message ∈ (irobs id).messages
  | .reportTotal _ => True
  | .ack network _ _ => network ∈ run.networks

instance (run : StatsRun) : ∀ event, Decidable (run.Permitted irobs event)
  | .construct network => inferInstanceAs (Decidable (network ∉ run.networks))
  | .destroy network => inferInstanceAs (Decidable (network ∈ run.networks))
  | .send network id messages => inferInstanceAs (Decidable (network ∈ run.networks ∧
      ∀ message ∈ messages, message = .dataCheck ∨ message ∈ (irobs id).messages))
  | .reportTotal _ => inferInstanceAs (Decidable True)
  | .ack network _ _ => inferInstanceAs (Decidable (network ∈ run.networks))

/-- One call; an assertion that fails ends the run. -/
def step (run : StatsRun) (event : StatsEvent) : Option StatsRun :=
  let record (stats : TransferStats) (networks : List Network) : StatsRun :=
    ⟨stats, networks, event :: run.history⟩
  match event with
  | .construct network => some (record run.stats (network :: run.networks))
  | .destroy network => some (record (run.stats.removeAll network) (run.networks.erase network))
  | .send network id messages =>
      some (record (run.stats.reportIrobSendEvent id network (writeBytes platform irobs id messages))
        run.networks)
  | .reportTotal id =>
      (run.stats.reportTotalIrobBytes id ((irobs id).getTotalNetworkBytes platform)).map
        (record · run.networks)
  | .ack network id srvTime =>
      (run.stats.reportAck id network srvTime).map fun result => record result.2 run.networks

/-- Nothing was sent yet. -/
def initial : StatsRun := ⟨.initial, [], []⟩

/-- The runs of the statistics. -/
def machine : Machine StatsRun StatsEvent where
  initial run := run = initial
  permitted := Permitted irobs
  step := step platform irobs

instance (run : StatsRun) (event : StatsEvent) :
    Decidable ((machine platform irobs).permitted run event) :=
  inferInstanceAs (Decidable (run.Permitted irobs event))

/-! ### What the history says of a record -/

/-- Something of the IROB was sent on the network, and its `NetStats` is still there. -/
def Holds (id : IrobId) (network : Network) : List StatsEvent → Prop
  | [] => False
  | .send sender sent _ :: earlier => (sender = network ∧ sent = id) ∨ Holds id network earlier
  | .destroy gone :: earlier => gone ≠ network ∧ Holds id network earlier
  | _ :: earlier => Holds id network earlier

/-- The total of the IROB was reported, and since then there has been a network that holds some
of it whenever a `NetStats` was destroyed. -/
def TotalKnown (id : IrobId) : List StatsEvent → Prop
  | [] => False
  | .reportTotal reported :: earlier => reported = id ∨ TotalKnown id earlier
  | .destroy gone :: earlier =>
      TotalKnown id earlier ∧ ∃ network, network ≠ gone ∧ Holds id network earlier
  | _ :: earlier => TotalKnown id earlier

/-- An acknowledgment that is ignored for its service time, or is for an IROB that was found to be
striped or whose total is known. -/
def Accountable (run : StatsRun) : StatsEvent → Prop
  | .ack _ id srvTime =>
      srvTime.tvUsec = -1 ∨ run.stats.stripedIrobs.contains id = true ∨ TotalKnown id run.history
  | _ => True

/-- The record of an IROB that is not striped is what the history says. -/
structure Kept (run : StatsRun) (id : IrobId) : Prop where
  holds : ∀ network, Holding (run.stats.irobIfaceTransfers id) network ↔
    Holds id network run.history
  known : Totalled (run.stats.irobIfaceTransfers id) ↔ TotalKnown id run.history

/-- No record has a total but that of its IROB. -/
def OwnTotals (stats : TransferStats) : Prop :=
  ∀ id, (stats.record id).totalBytes = 0 ∨
    (stats.record id).totalBytes = (irobs id).getTotalNetworkBytes platform

/-- Every record that is not striped is kept, and no total but that of the IROB is reported. -/
structure Sound (run : StatsRun) : Prop where
  kept : ∀ id, run.stats.stripedIrobs.contains id = false → run.Kept id
  ownTotals : OwnTotals platform irobs run.stats

variable {platform irobs} {run : StatsRun} {id : IrobId}

/-- What a call does not touch stays kept. -/
theorem Kept.of_same (kept : run.Kept id) {after : StatsRun}
    (record : after.stats.irobIfaceTransfers id = run.stats.irobIfaceTransfers id)
    (holds : ∀ network, Holds id network after.history ↔ Holds id network run.history)
    (known : TotalKnown id after.history ↔ TotalKnown id run.history) : after.Kept id := by
  constructor
  · intro network
    rw [record, holds]
    exact kept.holds network
  · rw [record, known]
    exact kept.known

theorem Kept.destroy (kept : run.Kept id) (gone : Network) (networks : List Network) :
    Kept ⟨run.stats.removeAll gone, networks, .destroy gone :: run.history⟩ id := by
  constructor
  · intro network
    exact (holding_remove _ gone network).trans (and_congr_right fun _ => kept.holds network)
  · refine (totalled_remove _ gone).trans (and_congr kept.known (exists_congr fun network => ?_))
    exact and_congr_right fun _ => kept.holds network

/-- A message was sent, of this IROB or of another. -/
theorem Kept.send (kept : run.Kept id) (network : Network) (sent : IrobId)
    (messages : List IrobMessage) (bytes : Nat)
    (single : run.stats.stripedIrobs.contains id = false) :
    Kept ⟨run.stats.reportIrobSendEvent sent network bytes, run.networks,
      .send network sent messages :: run.history⟩ id := by
  unfold TransferStats.reportIrobSendEvent
  by_cases same : sent = id
  · subst same
    rw [single, if_neg Bool.false_ne_true]
    constructor
    · intro other
      rw [TransferStats.setRecord_self, holding_some, addTransfer, mem_setBytes,
        TransferStats.mem_record, kept.holds]
      exact or_congr_left ⟨fun equal => ⟨equal.symm, rfl⟩, fun equal => equal.1.symm⟩
    · rw [TransferStats.setRecord_self, totalled_some, addTransfer, totalBytes_setBytes,
        TransferStats.record_total]
      exact kept.known
  · apply kept.of_same
    · split_ifs
      · rfl
      · exact TransferStats.setRecord_of_ne fun equal => same equal.symm
    · exact fun other => or_iff_right fun equal => same equal.2
    · exact Iff.rfl

/-- The total of an IROB was reported. -/
theorem Kept.reportTotal (kept : run.Kept id) {reported : IrobId} {total : Nat} (pos : 0 < total)
    {stats : TransferStats} (result : run.stats.reportTotalIrobBytes reported total = some stats) :
    Kept ⟨stats, run.networks, .reportTotal reported :: run.history⟩ id := by
  obtain ⟨record, assigned, rfl⟩ := Option.map_eq_some_iff.mp result
  unfold reportTotalBytes at assigned
  dsimp only at assigned
  generalize (if (run.stats.record reported).totalBytes = 0 then total
    else (run.stats.record reported).totalBytes) = now at assigned
  split_ifs at assigned with equal
  cases assigned
  by_cases same : reported = id
  · subst same
    constructor
    · intro network
      rw [TransferStats.setRecord_self, holding_some]
      exact TransferStats.mem_record.trans (kept.holds network)
    · rw [TransferStats.setRecord_self, totalled_some]
      exact iff_of_true (equal ▸ pos) (.inl rfl)
  · apply kept.of_same
    · exact TransferStats.setRecord_of_ne fun equal => same equal.symm
    · exact fun _ => Iff.rfl
    · exact or_iff_right same

/-- An acknowledgment that does not show the IROB to be striped leaves its record as it was. -/
theorem Kept.ack (kept : run.Kept id) {network : Network} {acked : IrobId} {srvTime : Timeval}
    {passes : Bool} {stats : TransferStats}
    (result : run.stats.reportAck acked network srvTime = some (passes, stats))
    (single : stats.stripedIrobs.contains id = false) :
    Kept ⟨stats, run.networks, .ack network acked srvTime :: run.history⟩ id := by
  have same : stats.irobIfaceTransfers id = run.stats.irobIfaceTransfers id → Kept ⟨stats,
      run.networks, .ack network acked srvTime :: run.history⟩ id :=
    fun record => kept.of_same record (fun _ => Iff.rfl) Iff.rfl
  unfold TransferStats.reportAck at result
  split_ifs at result with marked striped
  · cases result
    exact same rfl
  · cases result
    exact same rfl
  · obtain ⟨⟨all, record⟩, looked, shape⟩ := Option.map_eq_some_iff.mp result
    unfold hasAllBytes at looked
    split_ifs at looked with known
    obtain ⟨isAll, rfl⟩ := Prod.mk.inj (Option.some.inj looked)
    dsimp only at shape
    cases all with
    | false =>
        rw [if_neg Bool.false_ne_true] at shape
        obtain ⟨-, rfl⟩ := Prod.mk.inj shape
        rw [IntSet.contains_insert, Bool.or_eq_false_iff, decide_eq_false_iff_not] at single
        exact same (TransferStats.setRecord_of_ne single.1)
    | true =>
        rw [if_pos rfl] at shape
        obtain ⟨-, rfl⟩ := Prod.mk.inj shape
        by_cases own : acked = id
        · subst own
          -- the network carried the total, so it was in the record already
          have there : network ∈ (run.stats.record acked).transfersByNetwork :=
            mem_of_bytes_pos (known.trans_le (of_decide_eq_true isAll))
          constructor
          · intro other
            rw [TransferStats.setRecord_self, holding_some, mem_setBytes]
            refine (or_iff_right_of_imp fun equal => equal ▸ there).trans ?_
            exact TransferStats.mem_record.trans (kept.holds other)
          · rw [TransferStats.setRecord_self, totalled_some, totalBytes_setBytes]
            exact TransferStats.record_total.trans kept.known
        · exact same (TransferStats.setRecord_of_ne fun equal => own equal.symm)

theorem OwnTotals.setRecord {stats : TransferStats} (own : OwnTotals platform irobs stats)
    {record : IrobTransfersPerNetwork} (total : record.totalBytes = 0 ∨
      record.totalBytes = (irobs id).getTotalNetworkBytes platform) :
    OwnTotals platform irobs (stats.setRecord id record) := by
  intro other
  by_cases same : other = id
  · subst same
    rw [TransferStats.record_setRecord]
    exact total
  · rw [TransferStats.record_setRecord_of_ne same]
    exact own other

theorem OwnTotals.removeAll {stats : TransferStats} (own : OwnTotals platform irobs stats)
    (gone : Network) : OwnTotals platform irobs (stats.removeAll gone) := by
  intro id
  have before := own id
  have after : (stats.removeAll gone).record id =
      ((stats.irobIfaceTransfers id).bind fun record => record.remove gone).getD empty := rfl
  rw [after]
  unfold TransferStats.record at before
  rcases found : stats.irobIfaceTransfers id with _ | record
  · exact .inl rfl
  · rw [found, Option.getD_some] at before
    rw [Option.bind_some]
    rcases record.remove_cases gone with ⟨removed, -⟩ | ⟨-, left, removed, total, -⟩
    · rw [removed]
      exact .inl rfl
    · rw [removed, Option.getD_some, total]
      exact before

/-- The assertion on a total that is reported again holds. -/
theorem OwnTotals.reportTotalIrobBytes {stats : TransferStats}
    (own : OwnTotals platform irobs stats) (id : IrobId) :
    ∃ after, stats.reportTotalIrobBytes id ((irobs id).getTotalNetworkBytes platform) = some after ∧
      OwnTotals platform irobs after := by
  have total : (if (stats.record id).totalBytes = 0 then (irobs id).getTotalNetworkBytes platform
      else (stats.record id).totalBytes) = (irobs id).getTotalNetworkBytes platform := by
    split_ifs with unknown
    · rfl
    · exact (own id).resolve_left unknown
  unfold TransferStats.reportTotalIrobBytes IrobTransfersPerNetwork.reportTotalBytes
  dsimp only
  rw [total, if_pos rfl, Option.map_some]
  exact ⟨_, rfl, own.setRecord (.inr rfl)⟩

theorem OwnTotals.reportAck {stats after : TransferStats} (own : OwnTotals platform irobs stats)
    {network : Network} {srvTime : Timeval} {passes : Bool}
    (result : stats.reportAck id network srvTime = some (passes, after)) :
    OwnTotals platform irobs after ∧ ∀ other, after.stripedIrobs.contains other = false →
      stats.stripedIrobs.contains other = false := by
  unfold TransferStats.reportAck at result
  split_ifs at result with marked striped
  · cases result
    exact ⟨own, fun _ single => single⟩
  · cases result
    exact ⟨own, fun _ single => single⟩
  · obtain ⟨⟨all, record⟩, looked, shape⟩ := Option.map_eq_some_iff.mp result
    unfold hasAllBytes at looked
    split_ifs at looked
    obtain ⟨-, rfl⟩ := Prod.mk.inj (Option.some.inj looked)
    dsimp only at shape
    split_ifs at shape
    · cases shape
      exact ⟨own.setRecord (own id), fun _ single => single⟩
    · cases shape
      refine ⟨own.setRecord (own id), fun other single => ?_⟩
      rw [IntSet.contains_insert, Bool.or_eq_false_iff] at single
      exact single.2

/-- Every call keeps the records sound. -/
theorem Sound.step (sound : run.Sound platform irobs) {event : StatsEvent} {after : StatsRun}
    (moved : run.step platform irobs event = some after) : after.Sound platform irobs := by
  cases event with
  | construct network =>
      cases moved
      exact ⟨fun id single => (sound.kept id single).of_same rfl (fun _ => Iff.rfl) Iff.rfl,
        sound.ownTotals⟩
  | destroy network =>
      cases moved
      exact ⟨fun id single => (sound.kept id single).destroy network _,
        sound.ownTotals.removeAll network⟩
  | send network sent messages =>
      cases moved
      constructor
      · intro id single
        have before : run.stats.stripedIrobs.contains id = false := by
          dsimp only [TransferStats.reportIrobSendEvent] at single
          split_ifs at single
          · exact single
          · exact single
        exact (sound.kept id before).send network sent messages _ before
      · dsimp only [TransferStats.reportIrobSendEvent]
        split_ifs
        · exact sound.ownTotals
        · exact sound.ownTotals.setRecord (sound.ownTotals sent)
  | reportTotal reported =>
      obtain ⟨stats, result, own⟩ := sound.ownTotals.reportTotalIrobBytes reported
      have shape : some (StatsRun.mk stats run.networks (.reportTotal reported :: run.history)) =
          some after := by
        rw [← moved]
        dsimp only [StatsRun.step]
        rw [result]
        rfl
      cases shape
      refine ⟨fun id single => ?_, own⟩
      have same : stats.stripedIrobs = run.stats.stripedIrobs := by
        obtain ⟨record, -, rfl⟩ := Option.map_eq_some_iff.mp result
        rfl
      exact (sound.kept id (same ▸ single)).reportTotal
        (SenderIrob.getTotalNetworkBytes_pos platform (irobs reported)) result
  | ack network acked srvTime =>
      obtain ⟨⟨passes, stats⟩, result, rfl⟩ := Option.map_eq_some_iff.mp moved
      obtain ⟨own, fewer⟩ := sound.ownTotals.reportAck result
      exact ⟨fun id single => (sound.kept id (fewer id single)).ack result single, own⟩

theorem sound_of_reachable (reached : (machine platform irobs).Reachable run) :
    run.Sound platform irobs := by
  apply reached.induct
  · rintro first rfl
    exact ⟨fun _ _ => ⟨fun _ => iff_of_false holding_none fun absent => absent,
      iff_of_false totalled_none fun absent => absent⟩, fun _ => .inl rfl⟩
  · intro before after event _ sound _ moved
    exact sound.step moved

/-- The assertion on the total of an acknowledged IROB. -/
theorem Sound.reportAck_iff (sound : run.Sound platform irobs) (network : Network) (acked : IrobId)
    (srvTime : Timeval) : run.stats.reportAck acked network srvTime ≠ none ↔
      run.Accountable (.ack network acked srvTime) := by
  unfold TransferStats.reportAck
  dsimp only [Accountable]
  split_ifs with marked striped
  · exact iff_of_true (Option.some_ne_none _) (.inl marked)
  · exact iff_of_true (Option.some_ne_none _) (.inr (.inl striped))
  · have known := (sound.kept acked (Bool.eq_false_iff.mpr striped)).known
    rw [or_iff_right marked, or_iff_right striped, ← known, ← TransferStats.record_total, ne_eq,
      Option.map_eq_none_iff]
    unfold hasAllBytes
    split_ifs with total
    · exact iff_of_true (fun absent => absent) total
    · exact iff_of_false (fun holds => holds rfl) total

/-- In every run, and for every call that may come next: the assertions hold if and only if it is
not an acknowledgment of an IROB that is not striped and whose total is not known, and the one on
a total that is reported again always holds. In runs without such acknowledgments none fails. -/
theorem assertions_iff : ((machine platform irobs).restrict Accountable).Total ∧
    ∀ run : StatsRun, (machine platform irobs).Reachable run →
      (∀ event, run.Permitted irobs event →
        (run.step platform irobs event ≠ none ↔ run.Accountable event)) ∧
      ∀ id, run.stats.reportTotalIrobBytes id ((irobs id).getTotalNetworkBytes platform) ≠ none := by
  have exact' : ∀ run : StatsRun, (machine platform irobs).Reachable run → ∀ event,
      run.step platform irobs event ≠ none ↔ run.Accountable event := by
    intro run reached event
    have sound := sound_of_reachable reached
    cases event with
    | construct network | destroy network | send network sent messages =>
        exact iff_of_true (Option.some_ne_none _) trivial
    | reportTotal reported =>
        obtain ⟨stats, result, -⟩ := sound.ownTotals.reportTotalIrobBytes reported
        refine iff_of_true (fun absent => ?_) trivial
        rw [step, result] at absent
        exact Option.some_ne_none _ absent
    | ack network acked srvTime =>
        rw [← sound.reportAck_iff network acked srvTime]
        exact not_congr Option.map_eq_none_iff
  constructor
  · intro run event reached permitted
    exact Option.ne_none_iff_exists'.mp ((exact' run reached.of_restrict event).mpr permitted.2)
  · intro run reached
    refine ⟨fun event _ => exact' run reached event, fun id => ?_⟩
    obtain ⟨stats, result, -⟩ := (sound_of_reachable reached).ownTotals.reportTotalIrobBytes id
    rw [result]
    exact Option.some_ne_none _

/-- An IROB with one chunk. -/
def oneChunk : SenderIrob :=
  { SenderIrob.mk 3 [] [] 0 with
    own := { SenderPart.initial 0 with sentChunks := [⟨3, 0, 0, 100, none⟩] } }

/-- An IROB is sent on a network, which goes; then another network comes up. -/
def resent : List StatsEvent :=
  [.construct (1, 2), .send (1, 2) 3 [.beginIrob, .chunk 0, .endIrob], .reportTotal 3,
    .destroy (1, 2), .construct (5, 6)]

/-- The acknowledgment comes on the other network, and there is no total any more. -/
theorem late_ack_fails : ∃ run : StatsRun,
    (machine .lp64 fun _ => oneChunk).Reachable run ∧
    run.Permitted (fun _ => oneChunk) (.ack (5, 6) 3 ⟨0, 50⟩) ∧
    run.step .lp64 (fun _ => oneChunk) (.ack (5, 6) 3 ⟨0, 50⟩) = none := by
  obtain ⟨run, ran, permitted, failed⟩ : ∃ run : StatsRun,
      (machine .lp64 fun _ => oneChunk).run initial resent = some run ∧
      run.Permitted (fun _ => oneChunk) (.ack (5, 6) 3 ⟨0, 50⟩) ∧
      run.step .lp64 (fun _ => oneChunk) (.ack (5, 6) 3 ⟨0, 50⟩) = none :=
    ⟨_, rfl, List.mem_cons_self, rfl⟩
  exact ⟨run, .run (.initial rfl) ran, permitted, failed⟩

/-- Another network sends the IROB again before the first goes. -/
def overlapping : List StatsEvent :=
  [.construct (1, 2), .construct (5, 6), .send (1, 2) 3 [.beginIrob, .chunk 0, .endIrob],
    .reportTotal 3, .send (5, 6) 3 [.dataCheck], .destroy (1, 2)]

theorem assertions_iff_overlapping : ∃ run : StatsRun,
    (machine .lp64 fun _ => oneChunk).Reachable run ∧
    run.step .lp64 (fun _ => oneChunk) (.ack (5, 6) 3 ⟨0, 50⟩) ≠ none := by
  obtain ⟨run, ran, permitted, history⟩ : ∃ run : StatsRun,
      (machine .lp64 fun _ => oneChunk).run initial overlapping = some run ∧
      run.Permitted (fun _ => oneChunk) (.ack (5, 6) 3 ⟨0, 50⟩) ∧
      run.history = overlapping.reverse := ⟨_, rfl, List.mem_cons_self, rfl⟩
  have reached := Machine.Reachable.run (.initial rfl) ran
  have holds := (assertions_iff.2 run reached).1 (.ack (5, 6) 3 ⟨0, 50⟩) permitted
  refine ⟨run, reached, holds.mpr (.inr (.inr ?_))⟩
  rw [history]
  exact ⟨.inl rfl, (5, 6), by decide, .inl ⟨rfl, rfl⟩⟩

end StatsRun

end Libcmm
