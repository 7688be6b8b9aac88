import Libcmm.Timeops
import Libcmm.IntSet

/-! # Queuing delay of what is sent (`net_stats.cpp`)

Every message that is sent adds to an estimate of how long the next one has to wait: the size of
the last message over the bandwidth that was estimated then. `time_to_send` computes that quotient
and is to be called with an estimate, but there may be none, and then the estimate is zero. Each
function here returns the estimates with which it calls `time_to_send` besides its result; the
quotient itself is a parameter.
-/

namespace Libcmm

/-- `class QueuingDelay`. -/
structure QueuingDelay where
  lastMsgTime : Timeval
  lastMsgQdelay : Timeval
  lastMsgSize : Nat
  lastBwEstimate : Nat
  lastIrob : IrobId
  deriving DecidableEq

namespace QueuingDelay

/-- `QueuingDelay::QueuingDelay`. -/
def initial : QueuingDelay := ⟨⟨0, 0⟩, ⟨-1, 0⟩, 0, 0, -1⟩

variable (timeToSend : Nat → Nat → Timeval) (qdelay : QueuingDelay)

/-- `QueuingDelay::get_queuable_time`. -/
def getQueuableTime (id : IrobId) : Timeval × List Nat :=
  if id ≠ qdelay.lastIrob then (⟨0, 0⟩, [])
  else
    let bwTime := timeToSend qdelay.lastMsgSize qdelay.lastBwEstimate
    ((qdelay.lastMsgTime.add qdelay.lastMsgQdelay).add bwTime, [qdelay.lastBwEstimate])

/-- `QueuingDelay::add_message`, at the time `now`; the second component is the delay. -/
def addMessage (now : Timeval) (msgSize bwEstimate : Nat) (id : IrobId) :
    QueuingDelay × Timeval × List Nat :=
  if qdelay.lastMsgQdelay.tvSec = -1 then
    -- base case; first message has no qdelay
    let delay : Timeval := { qdelay.lastMsgQdelay with tvSec := 0 }
    (⟨now, delay, msgSize, bwEstimate, id⟩, delay, [])
  else if bwEstimate = 0 then (qdelay, ⟨0, 0⟩, [])
  else if id = qdelay.lastIrob ∧ id ≠ -1 then
    ({ qdelay with
      lastMsgSize := qdelay.lastMsgSize + msgSize
      lastBwEstimate := bwEstimate }, ⟨0, 0⟩, [])
  else
    let prevBwTime := timeToSend qdelay.lastMsgSize qdelay.lastBwEstimate
    let qdelayCalc := qdelay.lastMsgQdelay.add prevBwTime
    -- the assertion of `TIMEDIFF` holds for the times that are compared before
    let diff := if qdelay.lastMsgTime.before now then (timediff qdelay.lastMsgTime now).getD ⟨0, 0⟩
      else ⟨0, 0⟩
    let delay := if diff.before qdelayCalc then qdelayCalc.sub diff else ⟨0, 0⟩
    (⟨now, delay, msgSize, bwEstimate, id⟩, delay, [qdelay.lastBwEstimate])

end QueuingDelay

namespace QueuingDelay

variable {timeToSend : Nat → Nat → Timeval} {qdelay : QueuingDelay} {id : IrobId}

theorem zero_mem_getQueuableTime : 0 ∈ (qdelay.getQueuableTime timeToSend id).2 ↔
    id = qdelay.lastIrob ∧ qdelay.lastBwEstimate = 0 := by
  unfold getQueuableTime
  split_ifs with other
  · exact iff_of_false List.not_mem_nil fun both => other both.1
  · rw [List.mem_singleton, and_iff_right (not_not.mp other)]
    exact eq_comm

theorem zero_mem_addMessage {now : Timeval} {msgSize bwEstimate : Nat} :
    0 ∈ (qdelay.addMessage timeToSend now msgSize bwEstimate id).2.2 ↔
      qdelay.lastMsgQdelay.tvSec ≠ -1 ∧ bwEstimate ≠ 0 ∧ ¬(id = qdelay.lastIrob ∧ id ≠ -1) ∧
        qdelay.lastBwEstimate = 0 := by
  unfold addMessage
  split_ifs with first none same
  · exact iff_of_false List.not_mem_nil fun all => all.1 first
  · exact iff_of_false List.not_mem_nil fun all => all.2.1 none
  · exact iff_of_false List.not_mem_nil fun all => all.2.2.1 same
  all_goals
    rw [List.mem_singleton, and_iff_right first, and_iff_right none, and_iff_right same]
    exact eq_comm

end QueuingDelay

/-- `class IROBMeasurement`, up to its acknowledgment. -/
structure IrobMeasurement where
  id : IrobId
  totalSize : Nat
  arrivalTime : Timeval
  lastActivity : Timeval
  totalDelay : Timeval
  finished : Bool
  deriving DecidableEq

namespace IrobMeasurement

/-- `IROBMeasurement::IROBMeasurement`. -/
def initial : IrobMeasurement := ⟨-1, 0, ⟨-1, -1⟩, ⟨-1, -1⟩, ⟨0, 0⟩, false⟩

variable (measurement : IrobMeasurement)

/-- `IROBMeasurement::finish`. -/
def finish : IrobMeasurement := { measurement with finished := true }

/-- `IROBMeasurement::add_bytes`, at the time `now`. What it computes from the quotient and the
queuable time is the scheduling delay, which it only prints. -/
def addBytes (now : Timeval) (bytes : Nat) (_queuableTime : Timeval) (bwEst : Nat) :
    IrobMeasurement × List Nat :=
  let arrived := if measurement.arrivalTime.tvSec = -1 then now else measurement.arrivalTime
  ({ measurement with
    arrivalTime := arrived
    lastActivity := now
    totalSize := measurement.totalSize + bytes },
    if measurement.arrivalTime.tvSec = -1 then [] else [bwEst])

/-- `IROBMeasurement::add_delay`. -/
def addDelay (delay : Timeval) : IrobMeasurement :=
  { measurement with totalDelay := measurement.totalDelay.add delay }

end IrobMeasurement

/-- What the send events of a `NetStats` read and write. -/
structure SendStats where
  irobMeasurements : IrobId → Option IrobMeasurement
  pastIrobs : IntSet
  lastIrob : IrobId
  outgoingQdelay : QueuingDelay

/-- A send event: `report_irob_send_event`, with what the shared statistics say about striping,
the estimate if there is one, and the readings of the clock in `add_bytes` and `add_message`; or
`report_non_irob_send_event`. -/
inductive SendEvent where
  | irob (id : IrobId) (bytes : Nat) (wasStriped : Bool) (estimate : Option Nat)
      (activity message : Timeval)
  | nonIrob (bytes : Nat) (estimate : Option Nat) (message : Timeval)
  deriving DecidableEq

namespace SendStats

/-- `NetStats::NetStats`. -/
def initial : SendStats := ⟨fun _ => none, .empty, -1, .initial⟩

variable (timeToSend : Nat → Nat → Timeval) (stats : SendStats)

/-- The measurement of another IROB ends when a message of a new one is sent. -/
def switchIrob (id : IrobId) : SendStats :=
  if id ≠ stats.lastIrob then
    { stats with
      irobMeasurements := Function.update stats.irobMeasurements stats.lastIrob
        ((stats.irobMeasurements stats.lastIrob).map .finish)
      lastIrob := id }
  else stats

/-- `irob_measurements[id]`, with its identifier in case it is new. -/
def current (id : IrobId) : IrobMeasurement :=
  { (stats.irobMeasurements id).getD .initial with id := id }

/-- An assignment to `irob_measurements[id]`, or its `erase`. -/
def setMeasurement (id : IrobId) (measurement : Option IrobMeasurement) : SendStats :=
  { stats with irobMeasurements := Function.update stats.irobMeasurements id measurement }

/-- `NetStats::report_irob_send_event`. -/
def reportIrobSendEvent (id : IrobId) (bytes : Nat) (wasStriped : Bool) (estimate : Option Nat)
    (activity message : Timeval) : SendStats × List Nat :=
  if stats.pastIrobs.contains id then (stats, [])
  else if wasStriped then (stats.setMeasurement id none, [])
  else
    let bwEst := estimate.getD 0
    let stats := stats.switchIrob id
    let measurement := stats.current id
    if measurement.finished then
      ({ stats.setMeasurement id none with pastIrobs := stats.pastIrobs.insert id }, [])
    else
      let (queuableTime, queuable) := stats.outgoingQdelay.getQueuableTime timeToSend id
      let (measurement, added) := measurement.addBytes activity bytes queuableTime bwEst
      let (outgoingQdelay, delay, queued) :=
        stats.outgoingQdelay.addMessage timeToSend message bytes bwEst id
      ({ stats.setMeasurement id (some (measurement.addDelay delay)) with outgoingQdelay },
        queuable ++ added ++ queued)

/-- `NetStats::report_non_irob_send_event`. -/
def reportNonIrobSendEvent (bytes : Nat) (estimate : Option Nat) (message : Timeval) :
    SendStats × List Nat :=
  let (outgoingQdelay, _, queued) :=
    stats.outgoingQdelay.addMessage timeToSend message bytes (estimate.getD 0) (-1)
  ({ stats with outgoingQdelay }, queued)

/-- A send event: the statistics afterwards, and the estimates passed to `time_to_send`. -/
def report : SendEvent → SendStats × List Nat
  | .irob id bytes wasStriped estimate activity message =>
      stats.reportIrobSendEvent timeToSend id bytes wasStriped estimate activity message
  | .nonIrob bytes estimate message =>
      stats.reportNonIrobSendEvent timeToSend bytes estimate message

/-- A sequence of send events. -/
def reportAll (stats : SendStats) : List SendEvent → SendStats × List Nat
  | [] => (stats, [])
  | event :: rest =>
      let (next, passed) := stats.report timeToSend event
      let (last, later) := reportAll next rest
      (last, passed ++ later)

/-! ### Where an estimate is needed -/

/-- A message of the IROB is ignored: an earlier one was, it is striped, or messages of others came
in between. -/
def Ignores (id : IrobId) (wasStriped : Bool) : Prop :=
  stats.pastIrobs.contains id = true ∨ wasStriped = true ∨
    ∃ measurement ∈ stats.irobMeasurements id, measurement.finished = true

/-- A message of the IROB was sent before. -/
def Arrived (id : IrobId) : Prop :=
  ∃ measurement ∈ stats.irobMeasurements id, measurement.arrivalTime.tvSec ≠ -1

/-- There is an estimate where one is needed. A further message of an IROB comes with one. As long
as there was none with the messages that were queued, no message is of the same IROB as the last
one, and none comes with an estimate after the first. -/
def Estimated : SendEvent → Prop
  | .irob id _ wasStriped estimate _ _ => stats.Ignores id wasStriped ∨
      (stats.Arrived id → estimate.getD 0 ≠ 0) ∧
      (stats.outgoingQdelay.lastBwEstimate = 0 → id ≠ stats.outgoingQdelay.lastIrob ∧
        (stats.outgoingQdelay.lastMsgQdelay.tvSec ≠ -1 → estimate.getD 0 = 0))
  | .nonIrob _ estimate _ => stats.outgoingQdelay.lastBwEstimate = 0 →
      stats.outgoingQdelay.lastMsgQdelay.tvSec ≠ -1 → estimate.getD 0 = 0

/-- Every event of a sequence finds an estimate where one is needed. -/
def AllEstimated (stats : SendStats) : List SendEvent → Prop
  | [] => True
  | event :: rest =>
      stats.Estimated event ∧ AllEstimated (stats.report timeToSend event).1 rest

variable {timeToSend stats} {id : IrobId}

/-- A switch of IROBs leaves the measurement of the new one. -/
theorem switchIrob_current : (stats.switchIrob id).current id = stats.current id := by
  unfold current switchIrob
  split_ifs with other
  · dsimp only
    rw [Function.update_of_ne other]
  · rfl

@[simp] theorem switchIrob_outgoingQdelay :
    (stats.switchIrob id).outgoingQdelay = stats.outgoingQdelay := by
  unfold switchIrob
  split_ifs <;> rfl

theorem current_finished : (stats.current id).finished = true ↔
    ∃ measurement ∈ stats.irobMeasurements id, measurement.finished = true := by
  unfold current
  rcases stats.irobMeasurements id with _ | measurement
  · exact iff_of_false Bool.false_ne_true fun ⟨_, absent, _⟩ => nomatch absent
  · simp only [Option.getD_some, Option.mem_some_iff, exists_eq_left']

theorem current_arrived : (stats.current id).arrivalTime.tvSec ≠ -1 ↔ stats.Arrived id := by
  unfold current Arrived
  rcases stats.irobMeasurements id with _ | measurement
  · exact iff_of_false (fun other => other rfl) fun ⟨_, absent, _⟩ => nomatch absent
  · simp only [Option.getD_some, Option.mem_some_iff, exists_eq_left']

/-- A message of an IROB passes zero to `time_to_send` in one of three places. -/
theorem zero_mem_irob {bytes : Nat} {wasStriped : Bool} {estimate : Option Nat}
    {activity message : Timeval} :
    0 ∈ (stats.reportIrobSendEvent timeToSend id bytes wasStriped estimate activity message).2 ↔
      ¬stats.Ignores id wasStriped ∧
        ((id = stats.outgoingQdelay.lastIrob ∧ stats.outgoingQdelay.lastBwEstimate = 0) ∨
        (stats.Arrived id ∧ estimate.getD 0 = 0) ∨
        (stats.outgoingQdelay.lastMsgQdelay.tvSec ≠ -1 ∧ estimate.getD 0 ≠ 0 ∧
          ¬(id = stats.outgoingQdelay.lastIrob ∧ id ≠ -1) ∧
          stats.outgoingQdelay.lastBwEstimate = 0)) := by
  unfold reportIrobSendEvent Ignores
  rw [← current_finished]
  dsimp only
  rw [switchIrob_current]
  split_ifs with past striped finished
  · exact iff_of_false List.not_mem_nil fun all => all.1 (.inl past)
  · exact iff_of_false List.not_mem_nil fun all => all.1 (.inr (.inl striped))
  · exact iff_of_false List.not_mem_nil fun all => all.1 (.inr (.inr finished))
  · have notIgnored : ¬(stats.pastIrobs.contains id = true ∨ wasStriped = true ∨
        (stats.current id).finished = true) :=
      not_or.mpr ⟨past, not_or.mpr ⟨striped, finished⟩⟩
    rw [List.append_assoc, List.mem_append, List.mem_append, and_iff_right notIgnored,
      switchIrob_outgoingQdelay]
    refine or_congr QueuingDelay.zero_mem_getQueuableTime
      (or_congr ?_ QueuingDelay.zero_mem_addMessage)
    rw [← current_arrived]
    unfold IrobMeasurement.addBytes
    dsimp only
    split_ifs with new
    · exact iff_of_false List.not_mem_nil fun both => both.1 new
    · rw [List.mem_singleton, and_iff_right new]
      exact eq_comm

/-- The three places, as one condition on the estimates. -/
theorem zero_notMem_report_iff (event : SendEvent) :
    0 ∉ (stats.report timeToSend event).2 ↔ stats.Estimated event := by
  cases event with
  | irob id bytes wasStriped estimate activity message =>
      change 0 ∉ (stats.reportIrobSendEvent timeToSend id bytes wasStriped estimate activity
        message).2 ↔ _
      rw [zero_mem_irob]
      dsimp only [Estimated]
      tauto
  | nonIrob bytes estimate message =>
      change 0 ∉ (stats.outgoingQdelay.addMessage timeToSend message bytes
        (estimate.getD 0) (-1)).2.2 ↔ _
      rw [QueuingDelay.zero_mem_addMessage]
      dsimp only [Estimated]
      tauto

/-- For every sequence of send events: `time_to_send` is never called with an estimate of zero if
and only if every event finds an estimate where one is needed. -/
theorem zero_notMem_reportAll_iff (timeToSend : Nat → Nat → Timeval) (stats : SendStats)
    (events : List SendEvent) :
    0 ∉ (stats.reportAll timeToSend events).2 ↔ stats.AllEstimated timeToSend events := by
  induction events generalizing stats with
  | nil => exact iff_of_true List.not_mem_nil trivial
  | cons event rest ih =>
      unfold reportAll AllEstimated
      dsimp only
      rw [List.mem_append, not_or, zero_notMem_report_iff, ih]

/-- A message is sent before there is an estimate, and another when there is one. -/
theorem first_without_estimate :
    0 ∈ (initial.reportAll (fun _ _ => ⟨0, 0⟩)
      [.nonIrob 100 none ⟨1, 0⟩, .nonIrob 100 (some 5000) ⟨2, 0⟩]).2 := by
  decide

end SendStats

end Libcmm
