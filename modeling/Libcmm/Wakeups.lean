import Libcmm.Lib.Transition
import Libcmm.Scheduling

/-! # Waking up a selecting thread (`cmm_socket_impl.cpp`, `pending_receiver_irob.cpp`)

A thread that selects on a multisocket for reading, or polls it, sleeps on `select_pipe`. It
empties the pipe first, then looks for data, and writes into the pipe itself if there is some.
The threads that release IROBs write into it only when no other IROB is ready, and they write
before they insert. They hold `scheduling_state_lock`, but the selecting thread accesses the pipe
without it. When it was woken up the thread empties the pipe again, and `mc_select` fails with
`EINTR` if there is no data after all.

The steps of the selecting thread and of all others are interleaved. It misses no data
(`Wakeups.no_lost_wakeup`), and nothing but `mc_interrupt_waiters` makes it fail
(`Wakeups.no_false_interrupt`).
-/

namespace Libcmm

open Lib

/-- Where the selecting thread is: outside of a call, in `get_fds_for_select` (`clearing`,
`checking` and `announcing`), in `select` (`waiting`), in `clear_select_pipe` (`emptying`), and
in the two halves of `will_block_on_read`. -/
inductive SelectStage where
  | outside
  | clearing
  | checking
  | announcing
  | waiting
  | emptying
  | judging
  | doubting
  deriving DecidableEq

/-- What a multisocket has for its reader, and `select_pipe`: the bytes in it, and whether it was
shut down. `releasing` and `hand` belong to the thread that holds the scheduling lock: an entry
that it has announced and not yet inserted, and an IROB that `recv` has taken. `interrupted`
records that a call failed with `EINTR`. -/
structure Wakeups where
  readyIrobs : IrobPrioritySet
  partiallyReadIrob : Option IrobId
  shuttingDown : Bool
  schedulingLock : Bool
  releasing : Option IrobSchedulingData
  hand : Option IrobId
  selectPipe : Nat
  pipeShut : Bool
  selector : SelectStage
  interrupted : Bool

/-- A step of the selecting thread, or of a thread that holds the scheduling lock. -/
inductive WakeupEvent where
  | enter
  /-- one `read` of `clear_select_pipe` -/
  | read
  | check
  | announce
  /-- `select` returns without the pipe -/
  | leave
  | wake
  /-- `mc_poll` returns -/
  | finish
  | judge
  | doubt
  | lock
  | release (id : IrobId) (sendLabels : Nat)
  | insert
  | take
  | takePartial
  | keep
  | discard
  /-- `shutting_down` is set -/
  | goodbye
  | shut
  | unlock
  /-- `mc_interrupt_waiters` -/
  | interrupt
  deriving DecidableEq

namespace Wakeups

variable (wakeups : Wakeups)

/-- `PendingReceiverIROBLattice::data_is_ready`. -/
def dataIsReady : Bool := wakeups.partiallyReadIrob.isSome || !wakeups.readyIrobs.tasks.isEmpty

/-- Whether `select` returns the pipe: there are bytes, or it was shut down. -/
def readable : Bool := decide (0 < wakeups.selectPipe) || wakeups.pipeShut

/-- The selecting thread has `my_lock`. -/
def holdsMyLock : Bool :=
  match wakeups.selector with
  | .clearing | .checking | .announcing | .emptying => true
  | .outside | .waiting | .judging | .doubting => false

/-- A byte for the pipe. It is lost if there is no room or the pipe was shut down. -/
def send (capacity : Nat) : Wakeups :=
  if wakeups.pipeShut = false ∧ wakeups.selectPipe < capacity then
    { wakeups with selectPipe := wakeups.selectPipe + 1 }
  else wakeups

/-- One `read` of up to 64 bytes. The last one finds nothing. -/
def readSome (next : SelectStage) : Wakeups :=
  if wakeups.selectPipe = 0 then { wakeups with selector := next }
  else { wakeups with selectPipe := wakeups.selectPipe - 64 }

/-- One step; a thread waits (`none`) for a lock that is taken. -/
def step (capacity : Nat) : WakeupEvent → Option Wakeups
  | .enter =>
      if wakeups.selector = .outside then some { wakeups with selector := .clearing } else none
  | .read =>
      match wakeups.selector with
      | .clearing => some (wakeups.readSome .checking)
      | .emptying => some (wakeups.readSome .judging)
      | _ => none
  | .check =>
      if wakeups.selector = .checking ∧ wakeups.schedulingLock = false then
        some { wakeups with selector := if wakeups.dataIsReady then .announcing else .waiting }
      else none
  | .announce =>
      if wakeups.selector = .announcing then
        some { wakeups.send capacity with selector := .waiting }
      else none
  | .leave =>
      if wakeups.selector = .waiting then some { wakeups with selector := .outside } else none
  | .wake =>
      if wakeups.selector = .waiting ∧ wakeups.readable = true then
        some { wakeups with selector := .emptying }
      else none
  | .finish =>
      if wakeups.selector = .judging then some { wakeups with selector := .outside } else none
  | .judge =>
      if wakeups.selector = .judging ∧ wakeups.schedulingLock = false then
        some { wakeups with selector := if wakeups.dataIsReady then .outside else .doubting }
      else none
  | .doubt =>
      -- `is_shutting_down` does not lock
      if wakeups.selector = .doubting then
        some { wakeups with
          selector := .outside
          interrupted := wakeups.interrupted || !wakeups.shuttingDown }
      else none
  | .lock =>
      if wakeups.schedulingLock = false then some { wakeups with schedulingLock := true } else none
  | .release id sendLabels =>
      if wakeups.schedulingLock = true ∧ wakeups.releasing = none then
        let announced :=
          if wakeups.readyIrobs.tasks.isEmpty then wakeups.send capacity else wakeups
        some { announced with releasing := some (.work id false sendLabels) }
      else none
  | .insert =>
      wakeups.releasing.map fun task =>
        { wakeups with readyIrobs := wakeups.readyIrobs.insert task, releasing := none }
  | .take =>
      if wakeups.schedulingLock = true ∧ wakeups.releasing = none ∧ wakeups.hand = none ∧
          wakeups.partiallyReadIrob = none then
        wakeups.readyIrobs.pop.map fun popped =>
          { wakeups with readyIrobs := popped.2, hand := some popped.1.id }
      else none
  | .takePartial =>
      if wakeups.schedulingLock = true ∧ wakeups.releasing = none ∧ wakeups.hand = none ∧
          wakeups.partiallyReadIrob.isSome = true then
        some { wakeups with partiallyReadIrob := none, hand := wakeups.partiallyReadIrob }
      else none
  | .keep =>
      -- ASSERT(!partially_read_irob)
      if wakeups.hand.isSome = true ∧ wakeups.releasing = none ∧
          wakeups.partiallyReadIrob = none then
        some { wakeups with partiallyReadIrob := wakeups.hand, hand := none }
      else none
  | .discard =>
      if wakeups.hand.isSome = true then some { wakeups with hand := none } else none
  | .goodbye =>
      if wakeups.schedulingLock = true then some { wakeups with shuttingDown := true } else none
  | .shut =>
      -- a sender shuts the pipe down under the lock, and then sets `shutting_down`
      if wakeups.schedulingLock = true ∨ wakeups.shuttingDown = true then
        some { wakeups with pipeShut := true }
      else none
  | .unlock =>
      if wakeups.schedulingLock = true ∧ wakeups.releasing = none ∧ wakeups.hand = none ∧
          (wakeups.pipeShut = true → wakeups.shuttingDown = true) then
        some { wakeups with schedulingLock := false }
      else none
  | .interrupt =>
      if wakeups.holdsMyLock = true then none else some (wakeups.send capacity)

/-- A multisocket without data, and one thread that selects on it. -/
def initial : Wakeups := ⟨.empty, none, false, false, none, none, 0, false, .outside, false⟩

/-- Any interleaving of the threads, for a pipe that takes a number of bytes. -/
def machine (capacity : Nat) : Machine Wakeups WakeupEvent where
  initial wakeups := wakeups = initial
  permitted _ _ := True
  step wakeups := wakeups.step capacity

instance (capacity : Nat) (wakeups : Wakeups) (event : WakeupEvent) :
    Decidable ((machine capacity).permitted wakeups event) := inferInstanceAs (Decidable True)

/-- Only the selecting thread reads, between its calls, and nobody calls
`mc_interrupt_waiters`. -/
def SoleReader (wakeups : Wakeups) : WakeupEvent → Prop
  | .take | .takePartial => wakeups.selector = .outside
  | .enter => wakeups.hand = none
  | .interrupt => False
  | _ => True

instance (wakeups : Wakeups) : DecidablePred wakeups.SoleReader
  | .take | .takePartial => inferInstanceAs (Decidable (wakeups.selector = .outside))
  | .enter => inferInstanceAs (Decidable (wakeups.hand = none))
  | .interrupt => instDecidableFalse
  | .read | .check | .announce | .leave | .wake | .finish | .judge | .doubt | .lock | .release _ _
  | .insert | .keep | .discard | .goodbye | .shut | .unlock => instDecidableTrue

end Wakeups

namespace Wakeups

variable {wakeups before after : Wakeups} {capacity : Nat} {event : WakeupEvent}
  {next : SelectStage}

/-! ### The pipe -/

/-- A byte for the pipe changes nothing else. -/
theorem send_eq (wakeups : Wakeups) (capacity : Nat) :
    ∃ selectPipe, wakeups.selectPipe ≤ selectPipe ∧
      wakeups.send capacity = { wakeups with selectPipe := selectPipe } := by
  unfold send
  split_ifs
  · exact ⟨_, Nat.le_succ _, rfl⟩
  · exact ⟨_, Nat.le_refl _, rfl⟩

theorem readable_iff :
    wakeups.readable = true ↔ 0 < wakeups.selectPipe ∨ wakeups.pipeShut = true := by
  unfold readable
  rw [Bool.or_eq_true, decide_eq_true_eq]

/-- After a byte was sent `select` returns the pipe, also if the byte was lost. -/
theorem readable_send (wakeups : Wakeups) (room : 0 < capacity) :
    (wakeups.send capacity).readable = true := by
  rw [readable_iff]
  unfold send
  split_ifs with kept
  · exact .inl (Nat.succ_pos _)
  · by_cases shut : wakeups.pipeShut = true
    · exact .inr shut
    · have full := fun less => kept ⟨Bool.eq_false_iff.mpr shut, less⟩
      exact .inl (room.trans_le (Nat.le_of_not_lt full))

theorem dataIsReady_iff : wakeups.dataIsReady = true ↔
    wakeups.partiallyReadIrob.isSome = true ∨ wakeups.readyIrobs.tasks ≠ [] := by
  unfold dataIsReady
  rw [Bool.or_eq_true, Bool.not_eq_true', List.isEmpty_eq_false_iff]

/-- Nobody is between two halves of a step while the scheduling lock is free. -/
def Tidy (wakeups : Wakeups) : Prop :=
  wakeups.schedulingLock = false → wakeups.releasing = none ∧ wakeups.hand = none

theorem Tidy.same (tidy : before.Tidy) (lock : after.schedulingLock = before.schedulingLock)
    (releasing : after.releasing = before.releasing) (hand : after.hand = before.hand) :
    after.Tidy := by
  unfold Tidy
  rw [lock, releasing, hand]
  exact tidy

theorem tidy_of_locked (held : wakeups.schedulingLock = true) : wakeups.Tidy :=
  fun free => nomatch held.symm.trans free

theorem tidy_step (tidy : before.Tidy) (moved : before.step capacity event = some after) :
    after.Tidy := by
  obtain ⟨selectPipe, -, sent⟩ := before.send_eq capacity
  cases event with
  | enter | leave | wake | finish | judge | doubt | check | goodbye | shut =>
      simp only [step] at moved
      split_ifs at moved <;> cases moved <;> exact tidy.same rfl rfl rfl
  | announce | interrupt =>
      simp only [step, sent] at moved
      split_ifs at moved
      cases moved
      exact tidy.same rfl rfl rfl
  | read =>
      simp only [step, readSome] at moved
      split at moved
      · split_ifs at moved <;> cases moved <;> exact tidy.same rfl rfl rfl
      · split_ifs at moved <;> cases moved <;> exact tidy.same rfl rfl rfl
      · cases moved
  | lock =>
      simp only [step] at moved
      split_ifs at moved
      cases moved
      exact tidy_of_locked rfl
  | release irob sendLabels =>
      simp only [step, sent] at moved
      split_ifs at moved with held
      · cases moved
        exact tidy_of_locked held.1
      · cases moved
        exact tidy_of_locked held.1
  | insert =>
      obtain ⟨task, releasing, rfl⟩ := Option.map_eq_some_iff.mp moved
      exact fun free => nomatch releasing.symm.trans (tidy free).1
  | take =>
      simp only [step] at moved
      split_ifs at moved with held
      obtain ⟨popped, found, rfl⟩ := Option.map_eq_some_iff.mp moved
      exact tidy_of_locked held.1
  | takePartial =>
      simp only [step] at moved
      split_ifs at moved with held
      cases moved
      exact tidy_of_locked held.1
  | keep =>
      simp only [step] at moved
      split_ifs at moved with held
      cases moved
      exact fun _ => ⟨held.2.1, rfl⟩
  | discard =>
      simp only [step] at moved
      split_ifs at moved
      cases moved
      exact fun free => ⟨(tidy free).1, rfl⟩
  | unlock =>
      simp only [step] at moved
      split_ifs at moved with held
      cases moved
      exact fun _ => ⟨held.2.1, held.2.2.1⟩

/-! ### Missed data -/

/-- There is data, or the thread that holds the scheduling lock may add some without another
byte. -/
def Coming (wakeups : Wakeups) : Prop :=
  wakeups.dataIsReady = true ∨ wakeups.releasing.isSome = true ∨ wakeups.hand.isSome = true

/-- While the selecting thread waits for data that is coming, `select` returns the pipe. -/
def Awake (wakeups : Wakeups) : Prop :=
  wakeups.selector = .waiting → wakeups.Coming → wakeups.readable = true

theorem awake_of_elsewhere (elsewhere : wakeups.selector ≠ .waiting) : wakeups.Awake :=
  fun waiting => absurd waiting elsewhere

/-- Another thread may take data, and may leave more bytes in the pipe. -/
theorem Awake.other (awake : before.Awake) (selector : after.selector = before.selector)
    (coming : after.Coming → before.Coming ∨ after.readable = true)
    (pipe : before.readable = true → after.readable = true) : after.Awake := by
  intro waiting more
  rcases coming more with old | told
  · exact pipe (awake (selector.symm.trans waiting) old)
  · exact told

/-- One read of the selecting thread. -/
theorem awake_readSome (emptying : wakeups.selector ≠ .waiting) (elsewhere : next ≠ .waiting) :
    (wakeups.readSome next).Awake := by
  unfold readSome
  split_ifs
  · exact awake_of_elsewhere elsewhere
  · exact awake_of_elsewhere emptying

theorem awake_step (room : 0 < capacity) (tidy : before.Tidy) (awake : before.Awake)
    (moved : before.step capacity event = some after) : after.Awake := by
  obtain ⟨selectPipe, more, sent⟩ := before.send_eq capacity
  have told := before.readable_send room
  rw [sent] at told
  have louder (readable : before.readable = true) :
      { before with selectPipe := selectPipe }.readable = true :=
    readable_iff.mpr ((readable_iff.mp readable).imp_left (Nat.lt_of_lt_of_le · more))
  cases event with
  | enter | leave | wake | finish | judge | doubt =>
      simp only [step] at moved
      split_ifs at moved <;> cases moved <;> exact awake_of_elsewhere SelectStage.noConfusion
  | read =>
      simp only [step] at moved
      split at moved
      case h_1 stage =>
        cases moved
        exact awake_readSome (stage ▸ SelectStage.noConfusion) SelectStage.noConfusion
      case h_2 stage =>
        cases moved
        exact awake_readSome (stage ▸ SelectStage.noConfusion) SelectStage.noConfusion
      case h_3 => cases moved
  | check =>
      simp only [step] at moved
      split_ifs at moved with free ready
      · cases moved
        exact awake_of_elsewhere SelectStage.noConfusion
      · cases moved
        obtain ⟨releasing, hand⟩ := tidy free.2
        intro _ coming
        rcases coming with data | coming | coming
        · exact absurd data ready
        · exact nomatch coming.symm.trans (congrArg Option.isSome releasing)
        · exact nomatch coming.symm.trans (congrArg Option.isSome hand)
  | announce =>
      simp only [step, sent] at moved
      split_ifs at moved
      cases moved
      exact fun _ _ => told
  | lock | goodbye | unlock =>
      simp only [step] at moved
      split_ifs at moved
      cases moved
      exact awake.other rfl .inl id
  | release irob sendLabels =>
      simp only [step, sent] at moved
      split_ifs at moved with held none'
      · cases moved
        exact awake.other rfl (fun _ => .inr told) louder
      · -- the bytes of an earlier IROB are still there
        cases moved
        refine awake.other rfl (fun _ => .inl (.inl ?_)) id
        rw [Bool.not_eq_true, List.isEmpty_eq_false_iff] at none'
        exact dataIsReady_iff.mpr (.inr none')
  | insert =>
      obtain ⟨task, releasing, rfl⟩ := Option.map_eq_some_iff.mp moved
      refine awake.other rfl (fun _ => .inl (.inr (.inl ?_))) id
      rw [releasing]
      rfl
  | take =>
      simp only [step] at moved
      split_ifs at moved
      obtain ⟨popped, found, rfl⟩ := Option.map_eq_some_iff.mp moved
      refine awake.other rfl (fun _ => .inl (.inl ?_)) id
      rw [dataIsReady_iff]
      right
      intro none'
      simp only [IrobPrioritySet.pop, none'] at found
      cases found
  | takePartial =>
      simp only [step] at moved
      split_ifs at moved with held
      cases moved
      exact awake.other rfl (fun _ => .inl (.inl (dataIsReady_iff.mpr (.inl held.2.2.2)))) id
  | keep =>
      simp only [step] at moved
      split_ifs at moved with held
      cases moved
      exact awake.other rfl (fun _ => .inl (.inr (.inr held.1))) id
  | discard =>
      simp only [step] at moved
      split_ifs at moved with held
      cases moved
      exact awake.other rfl (fun _ => .inl (.inr (.inr held))) id
  | shut =>
      simp only [step] at moved
      split_ifs at moved
      cases moved
      exact awake.other rfl .inl fun _ => readable_iff.mpr (.inr rfl)
  | interrupt =>
      simp only [step, sent] at moved
      split_ifs at moved
      cases moved
      exact awake.other rfl .inl louder

theorem tidy_of_reachable (reached : (machine capacity).Reachable wakeups) : wakeups.Tidy :=
  reached.induct (fun _ start => start ▸ fun _ => ⟨rfl, rfl⟩)
    fun _ _ _ _ tidy _ moved => tidy_step tidy moved

/-- While the selecting thread waits and there is data, `select` returns the pipe. -/
theorem no_lost_wakeup (room : 0 < capacity) (reached : (machine capacity).Reachable wakeups)
    (waiting : wakeups.selector = .waiting) (ready : wakeups.dataIsReady = true) :
    wakeups.readable = true := by
  have awake : wakeups.Awake :=
    reached.induct (fun _ start => start ▸ awake_of_elsewhere SelectStage.noConfusion)
      fun _ _ _ earlier awake _ moved => awake_step room (tidy_of_reachable earlier) awake moved
  exact awake waiting (.inl ready)

/-- The byte comes before the IROB, and the thread went to sleep before both. -/
theorem no_lost_wakeup_asleep : ∃ wakeups : Wakeups, (machine 1).Reachable wakeups ∧
    wakeups.dataIsReady = true ∧ wakeups.readable = true := by
  obtain ⟨wakeups, run, known⟩ := (Option.any_eq_true _ _).mp (show (((machine 1).run initial
    [.enter, .read, .check, .lock, .release 7 0, .insert]).any fun wakeups => decide
      (wakeups.selector = .waiting ∧ wakeups.dataIsReady = true)) = true by decide +kernel)
  have reached : (machine 1).Reachable wakeups := .run (.initial rfl) run
  have ⟨waiting, ready⟩ := of_decide_eq_true known
  exact ⟨wakeups, reached, ready, no_lost_wakeup Nat.one_pos reached waiting ready⟩

/-! ### Interruptions -/

/-- There is data, or there will be when the scheduling lock is free. -/
def Promised (wakeups : Wakeups) : Prop :=
  wakeups.dataIsReady = true ∨ wakeups.releasing.isSome = true

/-- What the selecting thread can rely on at its stage. -/
def Expected (wakeups : Wakeups) : SelectStage → Prop
  | .outside | .clearing => True
  | .checking | .waiting => 0 < wakeups.selectPipe → wakeups.Promised
  | .announcing => wakeups.Promised
  | .emptying | .judging => wakeups.Promised ∨ wakeups.pipeShut = true
  | .doubting => wakeups.shuttingDown = true

/-- If only the selecting thread reads, data stays until its call is over. -/
structure Honest (wakeups : Wakeups) : Prop where
  shut : wakeups.schedulingLock = false → wakeups.pipeShut = true → wakeups.shuttingDown = true
  alone : wakeups.selector ≠ .outside → wakeups.hand = none
  expected : wakeups.Expected wakeups.selector
  calm : wakeups.interrupted = false

/-- Another thread only adds data while a call is going on. -/
theorem Honest.other (honest : before.Honest) (selector : after.selector = before.selector)
    (interrupted : after.interrupted = before.interrupted)
    (shut : after.schedulingLock = false → after.pipeShut = true → after.shuttingDown = true)
    (alone : after.selector ≠ .outside → after.hand = none)
    (promised : before.Promised → after.Promised)
    (pipe : 0 < after.selectPipe → 0 < before.selectPipe ∨ after.Promised)
    (pipeShut : before.pipeShut = true → after.pipeShut = true)
    (shuttingDown : before.shuttingDown = true → after.shuttingDown = true) : after.Honest where
  shut := shut
  alone := alone
  expected := by
    have expected := honest.expected
    rw [selector]
    cases stage : before.selector with
    | outside | clearing => trivial
    | checking | waiting =>
        rw [stage] at expected
        intro some'
        rcases pipe some' with old | more
        · exact promised (expected old)
        · exact more
    | announcing =>
        rw [stage] at expected
        exact promised expected
    | emptying | judging =>
        rw [stage] at expected
        exact expected.imp promised pipeShut
    | doubting =>
        rw [stage] at expected
        exact shuttingDown expected
  calm := interrupted.trans honest.calm

/-- The selecting thread goes on. -/
theorem Honest.own (honest : before.Honest) (stage : before.selector ≠ .outside)
    (expected : { before with selector := next }.Expected next) :
    { before with selector := next }.Honest :=
  ⟨honest.shut, fun _ => honest.alone stage, expected, honest.calm⟩

/-- While no call goes on, data may be taken. -/
theorem Honest.outside (honest : before.Honest) (idle : after.selector = .outside)
    (interrupted : after.interrupted = before.interrupted)
    (shut : after.schedulingLock = false → after.pipeShut = true → after.shuttingDown = true) :
    after.Honest where
  shut := shut
  alone going := absurd idle going
  expected := by
    rw [idle]
    trivial
  calm := interrupted.trans honest.calm

/-- While `recv` has an IROB in its hand no call goes on. -/
theorem Honest.idle (honest : before.Honest) (busy : before.hand.isSome = true) :
    before.selector = .outside := by
  by_contra going
  exact nomatch busy.symm.trans (congrArg Option.isSome (honest.alone going))

theorem Honest.step_enter (honest : before.Honest) (permitted : before.SoleReader .enter)
    (moved : before.step capacity .enter = some after) : after.Honest := by
  simp only [step] at moved
  split_ifs at moved with stage
  cases moved
  exact ⟨honest.shut, fun _ => permitted, trivial, honest.calm⟩

theorem Honest.step_read (honest : before.Honest)
    (moved : before.step capacity .read = some after) : after.Honest := by
  have expected := honest.expected
  simp only [step, readSome] at moved
  split at moved
  case h_1 stage =>
    split_ifs at moved with nothing
    · cases moved
      refine honest.own (stage ▸ SelectStage.noConfusion) fun some' => ?_
      exact absurd nothing some'.ne'
    · cases moved
      refine ⟨honest.shut, honest.alone, ?_, honest.calm⟩
      simp only [stage]
      trivial
  case h_2 stage =>
    rw [stage] at expected
    split_ifs at moved
    · cases moved
      exact honest.own (stage ▸ SelectStage.noConfusion) expected
    · cases moved
      refine ⟨honest.shut, honest.alone, ?_, honest.calm⟩
      simp only [stage]
      exact expected
  case h_3 => cases moved

theorem Honest.step_check (honest : before.Honest)
    (moved : before.step capacity .check = some after) : after.Honest := by
  have expected := honest.expected
  simp only [step] at moved
  split_ifs at moved with free ready
  · cases moved
    exact honest.own (free.1 ▸ SelectStage.noConfusion) (.inl ready)
  · cases moved
    rw [free.1] at expected
    exact honest.own (free.1 ▸ SelectStage.noConfusion) expected

theorem Honest.step_announce (honest : before.Honest)
    (moved : before.step capacity .announce = some after) : after.Honest := by
  have expected := honest.expected
  obtain ⟨selectPipe, -, sent⟩ := before.send_eq capacity
  simp only [step, sent] at moved
  split_ifs at moved with stage
  cases moved
  rw [stage] at expected
  exact ⟨honest.shut, fun _ => honest.alone (stage ▸ SelectStage.noConfusion), fun _ => expected,
    honest.calm⟩

theorem Honest.step_wake (honest : before.Honest)
    (moved : before.step capacity .wake = some after) : after.Honest := by
  have expected := honest.expected
  simp only [step] at moved
  split_ifs at moved with stage
  cases moved
  rw [stage.1] at expected
  exact honest.own (stage.1 ▸ SelectStage.noConfusion)
    ((readable_iff.mp stage.2).imp_left expected)

theorem Honest.step_judge (honest : before.Honest) (tidy : before.Tidy)
    (moved : before.step capacity .judge = some after) : after.Honest := by
  have expected := honest.expected
  simp only [step] at moved
  split_ifs at moved with stage ready
  · cases moved
    exact honest.outside rfl rfl honest.shut
  · -- there is no data, so the pipe was shut down
    cases moved
    rw [stage.1] at expected
    refine honest.own (stage.1 ▸ SelectStage.noConfusion) ?_
    rcases expected with (data | coming) | pipeShut
    · exact absurd data ready
    · exact nomatch coming.symm.trans (congrArg Option.isSome (tidy stage.2).1)
    · exact honest.shut stage.2 pipeShut

theorem Honest.step_doubt (honest : before.Honest)
    (moved : before.step capacity .doubt = some after) : after.Honest := by
  have expected := honest.expected
  simp only [step] at moved
  split_ifs at moved with stage
  cases moved
  rw [stage] at expected
  refine honest.outside rfl ?_ honest.shut
  simp only [show before.shuttingDown = true from expected, Bool.not_true, Bool.or_false]

theorem Honest.step_lock (honest : before.Honest)
    (moved : before.step capacity .lock = some after) : after.Honest := by
  simp only [step] at moved
  split_ifs at moved
  cases moved
  exact honest.other rfl rfl Bool.noConfusion honest.alone id .inl id id

theorem Honest.step_release {irob : IrobId} {sendLabels : Nat} (honest : before.Honest)
    (moved : before.step capacity (.release irob sendLabels) = some after) : after.Honest := by
  obtain ⟨selectPipe, -, sent⟩ := before.send_eq capacity
  simp only [step, sent] at moved
  split_ifs at moved with held none'
  · cases moved
    exact honest.other rfl rfl honest.shut honest.alone (fun _ => .inr rfl)
      (fun _ => .inr (.inr rfl)) id id
  · cases moved
    exact honest.other rfl rfl honest.shut honest.alone (fun _ => .inr rfl) .inl id id

theorem Honest.step_insert (honest : before.Honest)
    (moved : before.step capacity .insert = some after) : after.Honest := by
  obtain ⟨task, -, rfl⟩ := Option.map_eq_some_iff.mp moved
  refine honest.other rfl rfl honest.shut honest.alone (fun _ => .inl ?_) .inl id id
  obtain ⟨placed, member, -⟩ := IrobPrioritySet.exists_mem_place task before.readyIrobs.tasks
  exact dataIsReady_iff.mpr (.inr (List.ne_nil_of_mem member))

theorem Honest.step_take (honest : before.Honest) (permitted : before.SoleReader .take)
    (moved : before.step capacity .take = some after) : after.Honest := by
  simp only [step] at moved
  split_ifs at moved
  obtain ⟨popped, -, rfl⟩ := Option.map_eq_some_iff.mp moved
  exact honest.outside permitted rfl honest.shut

theorem Honest.step_takePartial (honest : before.Honest)
    (permitted : before.SoleReader .takePartial)
    (moved : before.step capacity .takePartial = some after) : after.Honest := by
  simp only [step] at moved
  split_ifs at moved
  cases moved
  exact honest.outside permitted rfl honest.shut

theorem Honest.step_keep (honest : before.Honest)
    (moved : before.step capacity .keep = some after) : after.Honest := by
  simp only [step] at moved
  split_ifs at moved with held
  cases moved
  exact honest.outside (honest.idle held.1) rfl honest.shut

theorem Honest.step_discard (honest : before.Honest)
    (moved : before.step capacity .discard = some after) : after.Honest := by
  simp only [step] at moved
  split_ifs at moved with held
  cases moved
  exact honest.outside (honest.idle held) rfl honest.shut

theorem Honest.step_goodbye (honest : before.Honest)
    (moved : before.step capacity .goodbye = some after) : after.Honest := by
  simp only [step] at moved
  split_ifs at moved
  cases moved
  exact honest.other rfl rfl (fun _ _ => rfl) honest.alone id .inl id fun _ => rfl

theorem Honest.step_shut (honest : before.Honest)
    (moved : before.step capacity .shut = some after) : after.Honest := by
  simp only [step] at moved
  split_ifs at moved with ordered
  cases moved
  refine honest.other rfl rfl (fun free _ => ?_) honest.alone id .inl (fun _ => rfl) id
  exact ordered.resolve_left fun held => nomatch held.symm.trans free

theorem Honest.step_unlock (honest : before.Honest)
    (moved : before.step capacity .unlock = some after) : after.Honest := by
  simp only [step] at moved
  split_ifs at moved with held
  cases moved
  exact honest.other rfl rfl (fun _ => held.2.2.2) honest.alone id .inl id id

theorem honest_step (tidy : before.Tidy) (honest : before.Honest)
    (permitted : before.SoleReader event) (moved : before.step capacity event = some after) :
    after.Honest := by
  cases event with
  | enter => exact honest.step_enter permitted moved
  | read => exact honest.step_read moved
  | check => exact honest.step_check moved
  | announce => exact honest.step_announce moved
  | leave | finish =>
      simp only [step] at moved
      split_ifs at moved
      cases moved
      exact honest.outside rfl rfl honest.shut
  | wake => exact honest.step_wake moved
  | judge => exact honest.step_judge tidy moved
  | doubt => exact honest.step_doubt moved
  | lock => exact honest.step_lock moved
  | release irob sendLabels => exact honest.step_release moved
  | insert => exact honest.step_insert moved
  | take => exact honest.step_take permitted moved
  | takePartial => exact honest.step_takePartial permitted moved
  | keep => exact honest.step_keep moved
  | discard => exact honest.step_discard moved
  | goodbye => exact honest.step_goodbye moved
  | shut => exact honest.step_shut moved
  | unlock => exact honest.step_unlock moved
  | interrupt => exact permitted.elim

/-- If only the selecting thread reads, `mc_select` does not fail with `EINTR`, unless
`mc_interrupt_waiters` is called. -/
theorem no_false_interrupt (reached : ((machine capacity).restrict SoleReader).Reachable wakeups) :
    wakeups.interrupted = false := by
  have honest : wakeups.Honest :=
    reached.induct (fun _ start => start ▸ ⟨fun _ => Bool.noConfusion, fun _ => rfl, trivial, rfl⟩)
      fun _ _ _ earlier honest permitted moved =>
        honest_step (tidy_of_reachable earlier.of_restrict) honest permitted.2 moved
  exact honest.calm

/-- The selecting thread wakes up before the IROB is there, and waits for the scheduling lock. -/
theorem no_false_interrupt_early : ∃ wakeups : Wakeups,
    ((machine 1).restrict SoleReader).Reachable wakeups ∧ wakeups.dataIsReady = true ∧
      wakeups.interrupted = false := by
  obtain ⟨wakeups, run, known⟩ := (Option.any_eq_true _ _).mp (show
    ((((machine 1).restrict SoleReader).run initial
      [.enter, .read, .check, .lock, .release 7 0, .wake, .read, .read, .insert, .unlock,
        .judge]).any fun wakeups => wakeups.dataIsReady) = true by decide +kernel)
  have reached : ((machine 1).restrict SoleReader).Reachable wakeups := .run (.initial rfl) run
  exact ⟨wakeups, reached, known, no_false_interrupt reached⟩

end Wakeups

end Libcmm
