import Libcmm.AckTimes

/-! # Time arithmetic (`timeops.h`) and the bandwidth equation (`net_stats.cpp`)

A time is seconds and microseconds; normal times are not negative and have less than a second of
microseconds. `TIMEDIFF`, `timeradd` and `timersub` are exact in microseconds. Signed differences
are kept as a magnitude and a sign, and `report_ack` combines two of them for the denominator of
its bandwidth equation: it adds the magnitudes where the signs are the same, although the equation
has the difference there.
-/

namespace Libcmm

namespace Timeval

/-- A time that is not negative, with microseconds in their range. -/
structure Normal (time : Timeval) : Prop where
  sec_nonneg : 0 ≤ time.tvSec
  usec_nonneg : 0 ≤ time.tvUsec
  usec_lt : time.tvUsec < 1000000

instance (time : Timeval) : Decidable time.Normal :=
  decidable_of_iff (0 ≤ time.tvSec ∧ 0 ≤ time.tvUsec ∧ time.tvUsec < 1000000)
    ⟨fun ⟨sec, usec, small⟩ => ⟨sec, usec, small⟩,
      fun normal => ⟨normal.sec_nonneg, normal.usec_nonneg, normal.usec_lt⟩⟩

/-- A time in microseconds. -/
def usecs (time : Timeval) : Int := time.tvSec * 1000000 + time.tvUsec

/-- `timeradd`. -/
def add (first second : Timeval) : Timeval :=
  let sec := first.tvSec + second.tvSec
  let usec := first.tvUsec + second.tvUsec
  if 1000000 ≤ usec then ⟨sec + 1, usec - 1000000⟩ else ⟨sec, usec⟩

/-- `timersub`. -/
def sub (first second : Timeval) : Timeval :=
  let sec := first.tvSec - second.tvSec
  let usec := first.tvUsec - second.tvUsec
  if usec < 0 then ⟨sec - 1, usec + 1000000⟩ else ⟨sec, usec⟩

variable {first second start stop elapsed : Timeval}

theorem usecs_add (first second : Timeval) :
    (first.add second).usecs = first.usecs + second.usecs := by
  dsimp only [add, usecs]
  split_ifs <;> dsimp only <;> omega

theorem usecs_sub (first second : Timeval) :
    (first.sub second).usecs = first.usecs - second.usecs := by
  dsimp only [sub, usecs]
  split_ifs <;> dsimp only <;> omega

theorem Normal.add (normal : first.Normal) (normalToo : second.Normal) :
    (first.add second).Normal := by
  obtain ⟨sec, usec, small⟩ := normal
  obtain ⟨sec', usec', small'⟩ := normalToo
  dsimp only [Timeval.add]
  split_ifs
  · constructor <;> dsimp only <;> omega
  · constructor <;> dsimp only <;> omega

theorem Normal.usecs_nonneg (normal : first.Normal) : 0 ≤ first.usecs := by
  obtain ⟨sec, usec, -⟩ := normal
  unfold usecs
  omega

/-- Normal times are compared like their microseconds. -/
theorem Normal.before_iff (normal : first.Normal) (normalToo : second.Normal) :
    first.before second = true ↔ first.usecs < second.usecs := by
  obtain ⟨-, usec, small⟩ := normal
  obtain ⟨-, usec', small'⟩ := normalToo
  rw [Timeval.before_iff]
  unfold usecs
  omega

theorem Normal.eq_iff (normal : first.Normal) (normalToo : second.Normal) :
    first = second ↔ first.usecs = second.usecs := by
  obtain ⟨-, usec, small⟩ := normal
  obtain ⟨-, usec', small'⟩ := normalToo
  rw [Timeval.ext_iff]
  unfold usecs
  omega

/-- `timersub` of a time from a later one is normal. -/
theorem Normal.sub_iff (normal : first.Normal) (normalToo : second.Normal) :
    (first.sub second).Normal ↔ second.usecs ≤ first.usecs := by
  obtain ⟨sec, usec, small⟩ := normal
  obtain ⟨sec', usec', small'⟩ := normalToo
  constructor
  · intro result
    have nonneg := result.usecs_nonneg
    rw [usecs_sub] at nonneg
    omega
  · unfold usecs
    intro le
    dsimp only [Timeval.sub]
    split_ifs
    · constructor <;> dsimp only <;> omega
    · constructor <;> dsimp only <;> omega

/-- `TIMEDIFF` of a time and one that is not earlier. -/
theorem Normal.timediff (normal : start.Normal) (normalToo : stop.Normal)
    (le : start.usecs ≤ stop.usecs) :
    ∃ elapsed, timediff start stop = some elapsed ∧ elapsed.Normal ∧
      elapsed.usecs = stop.usecs - start.usecs := by
  have forward : stop.before start = false :=
    Bool.eq_false_iff.mpr fun back => absurd ((normalToo.before_iff normal).mp back) (by omega)
  obtain ⟨sec, usec, small⟩ := normal
  obtain ⟨sec', usec', small'⟩ := normalToo
  unfold usecs at le
  unfold Libcmm.timediff
  rw [forward, if_neg Bool.false_ne_true]
  split_ifs
  · exact ⟨_, rfl, by constructor <;> dsimp only <;> omega, by dsimp only [usecs]; omega⟩
  · exact ⟨_, rfl, by constructor <;> dsimp only <;> omega, by dsimp only [usecs]; omega⟩

end Timeval

/-! ### The denominator -/

/-- The magnitude of a signed difference, and whether it is positive, as `report_ack` computes
`RTT_diff` and `srv_time_diff`. -/
def signedDiff (last current : Timeval) : Option (Timeval × Bool) :=
  let positive := last.before current
  (if positive then timediff last current else timediff current last).map (·, positive)

/-- The denominator in `report_ack` where both requests are large. -/
def denominator (rtt lastRtt srvTime lastSrvTime : Timeval) : Option Timeval := do
  let (rttDiff, rttDiffPos) ← signedDiff lastRtt rtt
  let (srvTimeDiff, srvTimeDiffPos) ← signedDiff lastSrvTime srvTime
  if (rttDiffPos && srvTimeDiffPos) || !(rttDiffPos || srvTimeDiffPos) then
    some (rttDiff.add srvTimeDiff)
  else if rttDiffPos then some (rttDiff.sub srvTimeDiff)
  else if srvTimeDiffPos then some (rttDiff.sub srvTimeDiff)
  else none

/-- The denominator of the bandwidth equation, in microseconds. -/
def equationDenominator (rtt lastRtt srvTime lastSrvTime : Timeval) : Int :=
  |(rtt.usecs - lastRtt.usecs) + (lastSrvTime.usecs - srvTime.usecs)|

/-- The denominator is that of the equation, as a normal time. -/
def DenominatorRight (rtt lastRtt srvTime lastSrvTime : Timeval) : Prop :=
  ∃ result, denominator rtt lastRtt srvTime lastSrvTime = some result ∧ result.Normal ∧
    result.usecs = equationDenominator rtt lastRtt srvTime lastSrvTime

section Denominator

variable {last current rtt lastRtt srvTime lastSrvTime : Timeval}

/-- The magnitude and the sign of a difference of normal times. -/
theorem signedDiff_eq (lastNormal : last.Normal) (normal : current.Normal) :
    ∃ magnitude : Timeval, signedDiff last current =
        some (magnitude, decide (last.usecs < current.usecs)) ∧
      magnitude.Normal ∧ magnitude.usecs = |current.usecs - last.usecs| := by
  have sign : last.before current = decide (last.usecs < current.usecs) := by
    rw [Bool.eq_iff_iff, decide_eq_true_eq]
    exact lastNormal.before_iff normal
  unfold signedDiff
  rw [sign]
  by_cases positive : last.usecs < current.usecs
  · obtain ⟨magnitude, computed, result, value⟩ := lastNormal.timediff normal positive.le
    refine ⟨magnitude, ?_, result, ?_⟩
    · simp only [positive, decide_true, ↓reduceIte, computed, Option.map_some]
    · rw [value, abs_of_pos (by omega)]
  · obtain ⟨magnitude, computed, result, value⟩ := normal.timediff lastNormal (not_lt.mp positive)
    refine ⟨magnitude, ?_, result, ?_⟩
    · simp only [positive, decide_false, Bool.false_eq_true, ↓reduceIte, computed, Option.map_some]
    · rw [value, abs_of_nonpos (by omega)]
      omega

/-- A sum of normal times is right if its value is. -/
theorem exists_add_iff {first second : Timeval} {value : Int} (normal : first.Normal)
    (normalToo : second.Normal) :
    (∃ result, some (first.add second) = some result ∧ result.Normal ∧ result.usecs = value) ↔
      first.usecs + second.usecs = value := by
  simp only [Option.some.injEq, exists_eq_left', Timeval.usecs_add, normal.add normalToo, true_and]

/-- A difference of normal times is right if its value is and is not negative. -/
theorem exists_sub_iff {first second : Timeval} {value : Int} (normal : first.Normal)
    (normalToo : second.Normal) :
    (∃ result, some (first.sub second) = some result ∧ result.Normal ∧ result.usecs = value) ↔
      second.usecs ≤ first.usecs ∧ first.usecs - second.usecs = value := by
  simp only [Option.some.injEq, exists_eq_left', Timeval.usecs_sub, normal.sub_iff normalToo]

/-- For all normal times: the denominator is that of the equation if and only if the service
times are equal, or the round trips are and the service time has become shorter. -/
theorem denominatorRight_iff (rttNormal : rtt.Normal) (lastRttNormal : lastRtt.Normal)
    (srvTimeNormal : srvTime.Normal) (lastSrvTimeNormal : lastSrvTime.Normal) :
    DenominatorRight rtt lastRtt srvTime lastSrvTime ↔
      srvTime = lastSrvTime ∨ (rtt = lastRtt ∧ srvTime.before lastSrvTime = true) := by
  obtain ⟨rttDiff, rttComputed, rttDiffNormal, rttValue⟩ := signedDiff_eq lastRttNormal rttNormal
  obtain ⟨srvTimeDiff, srvTimeComputed, srvTimeDiffNormal, srvTimeValue⟩ :=
    signedDiff_eq lastSrvTimeNormal srvTimeNormal
  rw [srvTimeNormal.eq_iff lastSrvTimeNormal, rttNormal.eq_iff lastRttNormal,
    srvTimeNormal.before_iff lastSrvTimeNormal]
  unfold DenominatorRight denominator equationDenominator
  rw [rttComputed, srvTimeComputed]
  simp only [Option.bind_eq_bind, Option.bind_some]
  generalize rtt.usecs = now, lastRtt.usecs = before, srvTime.usecs = served,
    lastSrvTime.usecs = servedBefore at *
  by_cases longer : before < now <;> by_cases servedLonger : servedBefore < served <;>
    simp only [longer, servedLonger, decide_true, decide_false, Bool.and_self, Bool.or_self,
      Bool.not_false, Bool.not_true, Bool.or_false, Bool.or_true, Bool.and_false, Bool.and_true,
      Bool.false_eq_true, ↓reduceIte]
  · -- both grew: the equation has the difference of the magnitudes
    rw [exists_add_iff rttDiffNormal srvTimeDiffNormal, rttValue, srvTimeValue]
    rw [abs_of_pos (sub_pos.mpr longer), abs_of_pos (sub_pos.mpr servedLonger)]
    rcases abs_cases (now - before + (servedBefore - served)) with ⟨value, _⟩ | ⟨value, _⟩
    · omega
    · omega
  · rw [exists_sub_iff rttDiffNormal srvTimeDiffNormal, rttValue, srvTimeValue]
    rw [abs_of_pos (sub_pos.mpr longer), abs_of_nonpos (sub_nonpos.mpr (not_lt.mp servedLonger)),
      abs_of_pos (by omega)]
    omega
  · rw [exists_sub_iff rttDiffNormal srvTimeDiffNormal, rttValue, srvTimeValue]
    rw [abs_of_nonpos (sub_nonpos.mpr (not_lt.mp longer)), abs_of_pos (sub_pos.mpr servedLonger),
      abs_of_neg (by omega)]
    omega
  · -- neither grew: again the difference
    rw [exists_add_iff rttDiffNormal srvTimeDiffNormal, rttValue, srvTimeValue]
    rw [abs_of_nonpos (sub_nonpos.mpr (not_lt.mp longer)),
      abs_of_nonpos (sub_nonpos.mpr (not_lt.mp servedLonger))]
    rcases abs_cases (now - before + (servedBefore - served)) with ⟨value, _⟩ | ⟨value, _⟩
    · omega
    · omega

/-- Both the round trip and the service time grew by 100 microseconds: the equation has zero. -/
theorem denominator_doubled :
    denominator ⟨1, 100⟩ ⟨1, 0⟩ ⟨0, 300⟩ ⟨0, 200⟩ = some ⟨0, 200⟩ ∧
    equationDenominator ⟨1, 100⟩ ⟨1, 0⟩ ⟨0, 300⟩ ⟨0, 200⟩ = 0 ∧
    ¬DenominatorRight ⟨1, 100⟩ ⟨1, 0⟩ ⟨0, 300⟩ ⟨0, 200⟩ := by
  have computed : denominator ⟨1, 100⟩ ⟨1, 0⟩ ⟨0, 300⟩ ⟨0, 200⟩ = some ⟨0, 200⟩ := by decide
  have equation : equationDenominator ⟨1, 100⟩ ⟨1, 0⟩ ⟨0, 300⟩ ⟨0, 200⟩ = 0 := by
    norm_num [equationDenominator, Timeval.usecs]
  refine ⟨computed, equation, ?_⟩
  rintro ⟨result, found, -, value⟩
  rw [computed, Option.some.injEq] at found
  rw [← found, equation] at value
  exact absurd value (by decide)

theorem denominatorRight_iff_equal_service :
    DenominatorRight ⟨2, 100⟩ ⟨1, 900000⟩ ⟨0, 300⟩ ⟨0, 300⟩ :=
  (denominatorRight_iff (by decide) (by decide) (by decide) (by decide)).mpr (.inl rfl)

end Denominator

end Libcmm
