import Mathlib.Data.List.Forall2
import Libcmm.Framing
import Libcmm.Scheduling

/-! # Service times of acknowledgments

An acknowledgment carries the time since the IROB was complete, and the peer subtracts it
from the round trip it has measured. The time is read when the acknowledgment is scheduled,
which happens again for a duplicate of a chunk or of the end. Some acknowledgments are not to be measured: those of
a duplicate `End_IROB` are scheduled with a completion time of zero, and those that answer
a data check with -1 microseconds, which `report_ack` looks for.

A header has room for one time, so that a batch has that of its head, and an
acknowledgment in front of a chunk has none. The time goes through `htonl` and comes out of
`ntohl` as an unsigned word: on a platform where `suseconds_t` is wider than that, -1
arrives as 2^32 - 1.
-/

namespace Libcmm

open Lib

/-- A reading of the clock (`TIME`): a time since the Epoch, not in its first second. -/
structure ClockReading where
  time : Timeval
  sec_pos : 0 < time.tvSec
  usec_nonneg : 0 ≤ time.tvUsec
  usec_lt : time.tvUsec < 1000000

/-- `TIMEDIFF`, with its assertion. -/
def timediff (start stop : Timeval) : Option Timeval :=
  if stop.before start then none
  else if stop.tvUsec < start.tvUsec then
    some ⟨stop.tvSec - start.tvSec - 1, 1000000 + stop.tvUsec - start.tvUsec⟩
  else some ⟨stop.tvSec - start.tvSec, stop.tvUsec - start.tvUsec⟩

/-! ### Scheduling and sending -/

/-- `CSocketReceiver::schedule_ack`. -/
def scheduleAck (id : IrobId) (validForMeasurement : Bool) (now : ClockReading) : IrobSchedulingData :=
  .ack id (if validForMeasurement then now.time else ⟨0, 0⟩) 0

/-- The acknowledgment `CMMSocketImpl::data_check_requested` schedules. -/
def dataCheckAck (id : IrobId) : IrobSchedulingData := .ack id ⟨0, -1⟩ 0

/-- Why an acknowledgment was scheduled, and when: the IROB is complete, its end came again
after it was read, or it was asked for by a data check. A duplicate that comes before the IROB
is read finds it complete since an earlier time. -/
inductive AckOrigin where
  | complete (since now : ClockReading)
  | duplicateEnd (now : ClockReading)
  | dataCheck

/-- When the IROB was complete, for an acknowledgment that is valid for measurement. -/
def AckOrigin.completion : AckOrigin → Option ClockReading
  | complete since _ => some since
  | duplicateEnd _ | dataCheck => none

/-- An acknowledgment that waits. `putBack` says that it was taken to go with a chunk and the
write failed. -/
structure WaitingAck where
  id : IrobId
  inRange : id.InRange
  origin : AckOrigin
  putBack : Bool

namespace WaitingAck

/-- Its entry in `waiting_acks`. `irob_chunk` puts it back with the constructor for work. -/
def data (ack : WaitingAck) : IrobSchedulingData :=
  if ack.putBack then .work ack.id false 0
  else match ack.origin with
    | .complete _ now => scheduleAck ack.id true now
    | .duplicateEnd now => scheduleAck ack.id false now
    | .dataCheck => dataCheckAck ack.id

end WaitingAck

/-- The service time in `send_acks`. -/
def serviceTime (completionTime now : Timeval) : Option Timeval :=
  if completionTime.tvSec = 0 ∨ completionTime.tvUsec = -1 then some completionTime
  else timediff completionTime now

/-- A message with acknowledgments: one on its own or the head of a batch, or one in front
of a chunk. -/
inductive AckMessage where
  | sendAcks (head : WaitingAck) (rest : List WaitingAck) (few : rest.length ≤ 150)
  | irobChunk (ack : WaitingAck) (sendLabels : Int) (id : IrobId) (chunk : Transmission)
      (inRange : LabelsInRange sendLabels ∧ id.InRange ∧ chunk.InRange)

namespace AckMessage

/-- The acknowledgments in the order in which the peer takes them. -/
def acks : AckMessage → List WaitingAck
  | sendAcks head rest _ => head :: rest
  | irobChunk ack _ _ _ _ => [ack]

/-- The write, unless the assertion of `TIMEDIFF` fails. -/
def composite (now : ClockReading) (qdelay : Timeval) : AckMessage → Option Composite
  | sendAcks head rest _ => (serviceTime head.data.completionTime now.time).map fun srvTime =>
      .sendAcks head.data.id (rest.map fun ack => ack.data.id) srvTime qdelay
  | irobChunk ack sendLabels id chunk _ =>
      some (.irobChunk ack.data.id qdelay sendLabels id chunk)

end AckMessage

/-! ### Receiving -/

/-- The words of a time as 64-bit `time_t` and `suseconds_t`. -/
def WireTime.timeval (time : WireTime) : Timeval := ⟨time.sec.toNat, time.usec.toNat⟩

/-- The calls of `report_ack` that `do_ack` makes. -/
def doAck : Content → List (IrobId × Timeval)
  | .ack id ackedIrobs srvTime _ => (id, srvTime.timeval) :: ackedIrobs.map (·, srvTime.timeval)
  | _ => []

/-- The calls of `report_ack` for what a write carries. -/
def Platform.reports (platform : Platform) (composite : Composite) : List (IrobId × Timeval) :=
  (platform.receive (platform.written composite)).1.flatMap fun message => doAck message.content

/-- What `NetStats::report_ack` reads and writes: what was striped, whether all bytes went one
way, the measurements under way, and the last round trip with the estimates. -/
structure NetStats (Measurement Estimates : Type) where
  stripedIrobs : IrobId → Bool
  hasAllBytes : IrobId → Bool
  irobMeasurements : IrobId → Option Measurement
  estimates : Estimates

namespace NetStats

variable {Measurement Estimates : Type}

/-- `NetStats::report_ack`. How a measurement changes the estimates is a parameter. -/
def reportAck (measure : Measurement → Timeval → Estimates → Estimates × Bool)
    (stats : NetStats Measurement Estimates) (id : IrobId) (srvTime : Timeval) :
    NetStats Measurement Estimates × Bool :=
  if srvTime.tvUsec = -1 then (stats, false)
  else if stats.stripedIrobs id then (stats, false)
  else if !stats.hasAllBytes id then
    ({ stats with stripedIrobs := Function.update stats.stripedIrobs id true }, false)
  else match stats.irobMeasurements id with
    | none => (stats, false)
    | some measurement =>
        let measured := measure measurement srvTime stats.estimates
        ({ stats with
          irobMeasurements := Function.update stats.irobMeasurements id none
          estimates := measured.1 }, measured.2)

/-- A service time with which nothing is measured, whatever is under way. -/
def Ignored (measure : Measurement → Timeval → Estimates → Estimates × Bool) (srvTime : Timeval) :
    Prop :=
  ∀ (stats : NetStats Measurement Estimates) (id : IrobId),
    (stats.reportAck measure id srvTime).2 = false ∧
      (stats.reportAck measure id srvTime).1.irobMeasurements = stats.irobMeasurements ∧
      (stats.reportAck measure id srvTime).1.estimates = stats.estimates

/-- Only the mark makes `report_ack` ignore a service time. -/
theorem ignored_iff [Nonempty Measurement] [Nonempty Estimates]
    {measure : Measurement → Timeval → Estimates → Estimates × Bool} {srvTime : Timeval} :
    Ignored measure srvTime ↔ srvTime.tvUsec = -1 := by
  constructor
  · intro ignored
    by_contra unmarked
    obtain ⟨measurement⟩ := ‹Nonempty Measurement›
    obtain ⟨estimates⟩ := ‹Nonempty Estimates›
    let stats : NetStats Measurement Estimates :=
      ⟨fun _ => false, fun _ => true, fun _ => some measurement, estimates⟩
    have kept := congrFun (ignored stats 0).2.1 0
    simp [reportAck, unmarked, stats] at kept
  · intro marked stats id
    simp [reportAck, marked]

end NetStats

/-! ### What arrives -/

theorem Timeval.ext_iff {first second : Timeval} : first = second ↔
    first.tvSec = second.tvSec ∧ first.tvUsec = second.tvUsec := by
  cases first
  cases second
  exact Timeval.mk.injEq .. ▸ Iff.rfl

theorem Timeval.before_iff {first second : Timeval} : first.before second = true ↔
    first.tvSec < second.tvSec ∨ first.tvSec = second.tvSec ∧ first.tvUsec < second.tvUsec := by
  unfold before
  split_ifs with same <;> rw [decide_eq_true_eq] <;> omega

/-- The time the peer gets for a time: the low words. -/
def Timeval.delivered (time : Timeval) : Timeval := time.words.timeval

theorem Timeval.delivered_eq (time : Timeval) :
    time.delivered = ⟨time.tvSec % 2 ^ 32, time.tvUsec % 2 ^ 32⟩ := by
  rw [delivered, WireTime.timeval, words, toNat_toWord, toNat_toWord]

/-- No time arrives with the mark. -/
theorem Timeval.delivered_unmarked (time : Timeval) : time.delivered.tvUsec ≠ -1 := by
  have nonneg : 0 ≤ time.tvUsec % 2 ^ 32 := Int.emod_nonneg _ (by norm_num)
  rw [delivered_eq]
  change time.tvUsec % 2 ^ 32 ≠ -1
  omega

namespace WaitingAck

@[simp] theorem data_id (ack : WaitingAck) : ack.data.id = ack.id := by
  unfold data
  split_ifs
  · rfl
  · cases ack.origin <;> rfl

/-- Only an acknowledgment that is not valid for measurement has no seconds. -/
theorem completion_of_sec_zero {ack : WaitingAck} (zero : ack.data.completionTime.tvSec = 0) :
    ack.origin.completion = none := by
  unfold data at zero
  split_ifs at zero with again
  · exact absurd zero (by norm_num [IrobSchedulingData.work])
  · cases origin : ack.origin with
    | complete since now =>
        rw [origin] at zero
        exact absurd zero (ne_of_gt now.sec_pos)
    | duplicateEnd now => rfl
    | dataCheck => rfl

/-- An entry with seconds has microseconds in their range. -/
theorem usec_range {ack : WaitingAck} (some' : ack.data.completionTime.tvSec ≠ 0) :
    0 ≤ ack.data.completionTime.tvUsec ∧ ack.data.completionTime.tvUsec < 1000000 := by
  unfold data at some' ⊢
  split_ifs at some' ⊢ with again
  · exact ⟨le_refl 0, by norm_num [IrobSchedulingData.work]⟩
  · cases origin : ack.origin with
    | complete since now => exact ⟨now.usec_nonneg, now.usec_lt⟩
    | duplicateEnd now =>
        rw [origin] at some'
        exact absurd rfl some'
    | dataCheck =>
        rw [origin] at some'
        exact absurd rfl some'

end WaitingAck

/-- The time an entry holds stands for the completion of an IROB: the microseconds are the
same, the seconds are the same modulo 2^32, and fewer than 2^32 seconds have passed. -/
def StandsFor (stored completed now : Timeval) : Prop :=
  completed.tvUsec = stored.tvUsec ∧ (completed.tvSec - stored.tvSec) % 2 ^ 32 = 0 ∧
    now.before completed = false ∧
    now.before ⟨completed.tvSec + 2 ^ 32, completed.tvUsec⟩ = true

theorem timediff_eq_some_iff {start stop elapsed : Timeval} :
    timediff start stop = some elapsed ↔ stop.before start = false ∧
      ((stop.tvUsec < start.tvUsec ∧ elapsed.tvSec = stop.tvSec - start.tvSec - 1 ∧
          elapsed.tvUsec = 1000000 + stop.tvUsec - start.tvUsec) ∨
        (start.tvUsec ≤ stop.tvUsec ∧ elapsed.tvSec = stop.tvSec - start.tvSec ∧
          elapsed.tvUsec = stop.tvUsec - start.tvUsec)) := by
  obtain ⟨sec, usec⟩ := elapsed
  unfold timediff
  split_ifs with back carry
  · simp [back]
  · rw [Bool.not_eq_true] at back
    simp only [Option.some.injEq, Timeval.mk.injEq, back, true_and]
    omega
  · rw [Bool.not_eq_true] at back
    simp only [Option.some.injEq, Timeval.mk.injEq, back, true_and]
    omega

instance (stored completed now : Timeval) : Decidable (StandsFor stored completed now) :=
  inferInstanceAs (Decidable (_ ∧ _ ∧ _ ∧ _))

/-- The time that arrives is that since the completion of an IROB exactly if the time it was
computed from stands for that completion. -/
theorem timediff_delivered_iff {stored elapsed : Timeval} {completed now : ClockReading}
    (lower : 0 ≤ stored.tvUsec) (upper : stored.tvUsec < 1000000)
    (computed : timediff stored now.time = some elapsed) :
    timediff completed.time now.time = some elapsed.delivered ↔
      StandsFor stored completed.time now.time := by
  have completedLower := completed.usec_nonneg
  have completedUpper := completed.usec_lt
  have nowLower := now.usec_nonneg
  have nowUpper := now.usec_lt
  rw [timediff_eq_some_iff] at computed
  rw [timediff_eq_some_iff, StandsFor, Timeval.delivered_eq]
  simp only [← Bool.not_eq_true, Timeval.before_iff] at computed ⊢
  omega

/-! ### The claim of a message -/

/-- `report_ack` is called as it should be: an acknowledgment that is not valid for
measurement is ignored, and a valid one comes with the time since its own completion. -/
def ReportedWell {Measurement Estimates : Type}
    (measure : Measurement → Timeval → Estimates → Estimates × Bool) (now : ClockReading)
    (ack : WaitingAck) (report : IrobId × Timeval) : Prop :=
  report.1 = ack.id ∧ match ack.origin.completion with
    | none => NetStats.Ignored measure report.2
    | some completed => timediff completed.time now.time = some report.2

namespace AckMessage

variable {platform : Platform} {message : AckMessage} {now : ClockReading} {qdelay : Timeval}
  {composite : Composite}

/-- Every acknowledgment of the message is valid for measurement. In a batch, the time that
the entry of the head was scheduled at stands for the completion of all; in front of a chunk, no time
has passed. -/
def Punctual (now : ClockReading) : AckMessage → Prop
  | sendAcks head rest _ => ∀ ack ∈ head :: rest, ∃ completed,
      ack.origin.completion = some completed ∧
        StandsFor head.data.completionTime completed.time now.time
  | irobChunk ack _ _ _ _ => ∃ completed,
      ack.origin.completion = some completed ∧ completed.time = now.time

/-- The one service time all acknowledgments of a message arrive with. -/
def srvTime (now : ClockReading) : AckMessage → Option Timeval
  | sendAcks head _ _ => serviceTime head.data.completionTime now.time
  | irobChunk _ _ _ _ _ => some ⟨0, 0⟩

theorem composite_inRange (sent : message.composite now qdelay = some composite) :
    composite.InRange ∧ composite.deps = [] := by
  cases message with
  | sendAcks head rest few =>
      obtain ⟨srvTime, -, rfl⟩ := Option.map_eq_some_iff.mp sent
      refine ⟨⟨?_, ?_, ?_, ?_⟩, rfl⟩
      · rw [WaitingAck.data_id]
        exact head.inRange
      · rw [List.length_map]
        exact few
      · rw [List.length_map]
        omega
      · intro id member
        obtain ⟨ack, -, rfl⟩ := List.mem_map.mp member
        rw [WaitingAck.data_id]
        exact ack.inRange
  | irobChunk ack sendLabels id chunk inRange =>
      cases sent
      rw [WaitingAck.data_id]
      exact ⟨⟨.inr ack.inRange, inRange⟩, rfl⟩

/-- All acknowledgments of a message arrive, with one time. -/
theorem reports_eq (sent : message.composite now qdelay = some composite) :
    ∃ srvTime, message.srvTime now = some srvTime ∧
      platform.reports composite = message.acks.map fun ack => (ack.id, srvTime.delivered) := by
  obtain ⟨inRange, deps⟩ := composite_inRange sent
  have fits : composite.deps.length * platform.idSize < 2 ^ 31 := by
    rw [deps, List.length_nil, Nat.zero_mul]
    norm_num
  have read : (platform.receive (platform.written composite)).1 = composite.messages := by
    have reads := Platform.reads_written inRange fits []
    rw [List.append_nil, Platform.receive_nil, List.append_nil] at reads
    rw [reads]
  unfold Platform.reports
  rw [read]
  cases message with
  | sendAcks head rest few =>
      obtain ⟨srvTime, computed, rfl⟩ := Option.map_eq_some_iff.mp sent
      refine ⟨srvTime, computed, ?_⟩
      simp [Composite.messages, doAck, acks, Timeval.delivered]
  | irobChunk ack sendLabels id chunk inRange =>
      cases sent
      refine ⟨⟨0, 0⟩, rfl, ?_⟩
      have own : ack.id ≠ -1 := fun same => absurd (same ▸ ack.inRange) (by decide)
      have zero : (⟨0, 0⟩ : WireTime).timeval = Timeval.delivered ⟨0, 0⟩ := by
        simp [Timeval.delivered_eq, WireTime.timeval]
      simp [Composite.messages, Composite.chunkMessage, doAck, acks, own, zero]

variable {Measurement Estimates : Type} [Nonempty Measurement] [Nonempty Estimates]
  {measure : Measurement → Timeval → Estimates → Estimates × Bool}

/-- An acknowledgment is reported well exactly if it is valid and the time that arrives is
that since its completion. -/
theorem reportedWell_iff (now : ClockReading) (ack : WaitingAck) (srvTime : Timeval) :
    ReportedWell measure now ack (ack.id, srvTime.delivered) ↔
      ∃ completed, ack.origin.completion = some completed ∧
        timediff completed.time now.time = some srvTime.delivered := by
  unfold ReportedWell
  cases ack.origin.completion with
  | none =>
      refine iff_of_false (fun well => ?_) fun found => ?_
      · exact srvTime.delivered_unmarked (NetStats.ignored_iff.mp well.2)
      · obtain ⟨completed, valid, -⟩ := found
        cases valid
  | some completed =>
      simp only [true_and, Option.some.injEq, exists_eq_left']

theorem timediff_zero_iff {completed now : ClockReading} :
    timediff completed.time now.time = some (Timeval.delivered ⟨0, 0⟩) ↔
      completed.time = now.time := by
  have completedLower := completed.usec_nonneg
  have completedUpper := completed.usec_lt
  have nowLower := now.usec_nonneg
  have nowUpper := now.usec_lt
  have same : completed.time = now.time ↔ completed.time.tvSec = now.time.tvSec ∧
      completed.time.tvUsec = now.time.tvUsec := Timeval.ext_iff
  rw [timediff_eq_some_iff, Timeval.delivered_eq, same]
  simp only [← Bool.not_eq_true, Timeval.before_iff]
  omega

/-- **Service times.** However acknowledgments are sent, all of a message are reported well
if and only if the message is punctual. In particular one that is not valid for measurement
never is. -/
theorem reported_well (platform : Platform)
    (measure : Measurement → Timeval → Estimates → Estimates × Bool) (message : AckMessage)
    (now : ClockReading) (qdelay : Timeval) (composite : Composite)
    (sent : message.composite now qdelay = some composite) :
    List.Forall₂ (ReportedWell measure now) message.acks (platform.reports composite) ↔
      message.Punctual now := by
  obtain ⟨srvTime, computed, reports⟩ := reports_eq sent
  rw [reports, List.forall₂_map_right_iff, List.forall₂_same]
  simp only [reportedWell_iff]
  cases message with
  | sendAcks head rest few =>
      change serviceTime head.data.completionTime now.time = some srvTime at computed
      by_cases zero : head.data.completionTime.tvSec = 0
      · have invalid := WaitingAck.completion_of_sec_zero zero
        refine iff_of_false (fun all => ?_) fun all => ?_
        · obtain ⟨completed, valid, -⟩ := all head List.mem_cons_self
          cases invalid.symm.trans valid
        · obtain ⟨completed, valid, -⟩ := all head List.mem_cons_self
          cases invalid.symm.trans valid
      · obtain ⟨lower, upper⟩ := WaitingAck.usec_range zero
        rw [serviceTime, if_neg (by omega)] at computed
        simp only [timediff_delivered_iff lower upper computed]
        rfl
  | irobChunk ack sendLabels id chunk inRange =>
      cases computed
      simp only [timediff_zero_iff, acks, List.mem_singleton, forall_eq]
      rfl

/-! ### Messages -/

/-- The clock at a given second. -/
def clockAt (sec : Nat) : ClockReading where
  time := ⟨sec + 1, 0⟩
  sec_pos := by
    change (0 : Int) < sec + 1
    omega
  usec_nonneg := le_refl 0
  usec_lt := by norm_num

/-- A valid acknowledgment of an IROB that was complete at one second, scheduled at another. -/
def valid (id : Nat) (small : id < 2 ^ 31) (since now : Nat) : WaitingAck :=
  ⟨id, ⟨Int.natCast_nonneg id, by omega⟩, .complete (clockAt since) (clockAt now), false⟩

/-- Two IROBs that were complete in the same microsecond. -/
def together : AckMessage :=
  .sendAcks (valid 1 (by norm_num) 100 100) [valid 2 (by norm_num) 100 100] (by simp)

/-- The write of a message at 105 seconds. -/
def writeAt105 (message : AckMessage) : Option Composite := message.composite (clockAt 105) ⟨0, 0⟩

/-- The estimates count measurements. -/
def counting (_ : Unit) (_ : Timeval) (estimates : Nat) : Nat × Bool := (estimates + 1, true)

theorem reported_well_together : ∃ composite, together.writeAt105 = some composite ∧
    List.Forall₂ (ReportedWell counting (clockAt 105)) together.acks
      (Platform.lp64.reports composite) := by
  refine ⟨.sendAcks 1 [2] ⟨5, 0⟩ ⟨0, 0⟩, rfl, ?_⟩
  refine (reported_well Platform.lp64 counting together (clockAt 105) ⟨0, 0⟩ _ rfl).mpr ?_
  have stands : StandsFor (clockAt 100).time (clockAt 100).time (clockAt 105).time := by
    decide
  intro ack member
  refine ⟨clockAt 100, ?_, stands⟩
  rcases List.mem_pair.mp member with rfl | rfl
  · rfl
  · rfl

/-- An acknowledgment that answers a data check, on its own. -/
def answer : AckMessage := .sendAcks ⟨5, by decide, .dataCheck, false⟩ [] (by simp)

/-- Two IROBs that were complete two seconds after one another. -/
def apart : AckMessage :=
  .sendAcks (valid 1 (by norm_num) 100 100) [valid 2 (by norm_num) 102 102] (by simp)

/-- An IROB whose last chunk came again three seconds after it was complete. -/
def again : AckMessage := .sendAcks (valid 1 (by norm_num) 100 103) [] (by simp)

/-- The mark does not arrive, the second of two acknowledgments has the time of the first, and
an acknowledgment that was scheduled again has the time since that. -/
theorem reported_badly :
    (∃ composite, answer.writeAt105 = some composite ∧
      Platform.lp64.reports composite = [(5, ⟨0, 4294967295⟩)] ∧
      ¬ List.Forall₂ (ReportedWell counting (clockAt 105)) answer.acks
        (Platform.lp64.reports composite)) ∧
    (∃ composite, apart.writeAt105 = some composite ∧
      Platform.lp64.reports composite = [(1, ⟨5, 0⟩), (2, ⟨5, 0⟩)] ∧
      timediff (clockAt 102).time (clockAt 105).time = some ⟨3, 0⟩ ∧
      ¬ List.Forall₂ (ReportedWell counting (clockAt 105)) apart.acks
        (Platform.lp64.reports composite)) ∧
    ∃ composite, again.writeAt105 = some composite ∧
      Platform.lp64.reports composite = [(1, ⟨2, 0⟩)] ∧
      timediff (clockAt 100).time (clockAt 105).time = some ⟨5, 0⟩ ∧
      ¬ List.Forall₂ (ReportedWell counting (clockAt 105)) again.acks
        (Platform.lp64.reports composite) := by
  refine ⟨?_, ?_, ?_⟩
  · obtain ⟨srvTime, computed, reports⟩ := @reports_eq Platform.lp64 answer (clockAt 105) ⟨0, 0⟩ _ rfl
    cases Option.some.inj computed
    have read : Platform.lp64.reports (.sendAcks 5 [] ⟨0, -1⟩ ⟨0, 0⟩) = [(5, ⟨0, 4294967295⟩)] := by
      refine reports.trans ?_
      simp only [Timeval.delivered_eq]
      decide
    refine ⟨.sendAcks 5 [] ⟨0, -1⟩ ⟨0, 0⟩, rfl, read, ?_⟩
    rw [read]
    intro well
    obtain ⟨-, ignored⟩ := (List.forall₂_cons.mp well).1
    exact absurd (NetStats.ignored_iff.mp ignored) (by decide)
  · obtain ⟨srvTime, computed, reports⟩ := @reports_eq Platform.lp64 apart (clockAt 105) ⟨0, 0⟩ _ rfl
    cases Option.some.inj computed
    have read : Platform.lp64.reports (.sendAcks 1 [2] ⟨5, 0⟩ ⟨0, 0⟩) =
        [(1, ⟨5, 0⟩), (2, ⟨5, 0⟩)] := by
      refine reports.trans ?_
      simp only [Timeval.delivered_eq]
      decide
    refine ⟨.sendAcks 1 [2] ⟨5, 0⟩ ⟨0, 0⟩, rfl, read, by decide, ?_⟩
    rw [read]
    intro well
    obtain ⟨-, elapsed⟩ := (List.forall₂_cons.mp (List.forall₂_cons.mp well).2).1
    change timediff (clockAt 102).time (clockAt 105).time = some ⟨5, 0⟩ at elapsed
    exact absurd elapsed (by decide)
  · obtain ⟨srvTime, computed, reports⟩ := @reports_eq Platform.lp64 again (clockAt 105) ⟨0, 0⟩ _ rfl
    cases Option.some.inj computed
    have read : Platform.lp64.reports (.sendAcks 1 [] ⟨2, 0⟩ ⟨0, 0⟩) = [(1, ⟨2, 0⟩)] := by
      refine reports.trans ?_
      simp only [Timeval.delivered_eq]
      decide
    refine ⟨.sendAcks 1 [] ⟨2, 0⟩ ⟨0, 0⟩, rfl, read, by decide, ?_⟩
    rw [read]
    intro well
    obtain ⟨-, elapsed⟩ := (List.forall₂_cons.mp well).1
    change timediff (clockAt 100).time (clockAt 105).time = some ⟨2, 0⟩ at elapsed
    exact absurd elapsed (by decide)

end AckMessage

end Libcmm
