import Libcmm.Lib.Transition
import Libcmm.Scheduling
import Libcmm.SenderIrob

/-! # Readers that wait for data (`pending_receiver_irob.cpp`, `csocket_sender.cpp`)

A blocking `recv` waits on `scheduling_state_cv` until an IROB is ready, or the peer has shut
down and no connection is left. IROBs and `remote_shutdown` are guarded by
`scheduling_state_lock`, but the set of connections is not. A connection can be taken out of
it between the test of a reader and its `pthread_cond_wait`. The sender thread of the connection
wakes up all readers when it ends, so no reader sleeps for good (`Readers.no_stuck_reader`).

Any number of readers and any number of connections are interleaved. A section of another thread
under the scheduling lock is one step.
-/

namespace Libcmm

open Lib

/-- Where a reader is. It holds the scheduling lock from `starting` to `reading`. -/
inductive ReaderStage where
  | outside
  /-- `get_ready_irob` -/
  | starting
  /-- its inner loop -/
  | looking
  /-- no IROB is ready -/
  | testing
  | deciding
  /-- the rest of `recv`, with an IROB -/
  | reading
  | asleep
  | woken
  deriving DecidableEq

/-- What the readers of a multisocket wait for. `senders` are the connections whose sender thread
has not ended. With the IROB that is partially read stands the reader that left it. -/
structure Readers where
  readyIrobs : IrobPrioritySet
  partiallyReadIrob : Option (IrobId × Nat)
  remoteShutdown : Bool
  availableCsocks : List CSocketId
  senders : List CSocketId
  schedulingLock : Option Nat
  readers : Nat → ReaderStage

/-- A step of a reader, or of another thread. -/
inductive ReaderEvent where
  | enter (reader : Nat)
  | start (reader : Nat)
  /-- an IROB is popped, and found or not -/
  | look (reader : Nat) (found : Bool)
  | test (reader : Nat)
  /-- a reader that may not block, or has waited long enough -/
  | giveUp (reader : Nat)
  | sleep (reader : Nat)
  /-- `pthread_cond_wait` may return at any time -/
  | wake (reader : Nat)
  | resume (reader : Nat)
  /-- an IROB is put back -/
  | keep (reader : Nat) (id : IrobId)
  | again (reader : Nat)
  | leave (reader : Nat)
  | release (id : IrobId) (sendLabels : Nat)
  /-- `remote_shutdown` is set -/
  | shutDown
  /-- `make_new_csocket` -/
  | connect (csock : CSocketId)
  /-- a connection is torn down, replaced, or given up by its sender -/
  | disconnect (csock : CSocketId)
  /-- `CSocketSender::Finish` -/
  | finish (csock : CSocketId)
  deriving DecidableEq

namespace Readers

variable (state : Readers)

/-- A reader goes on, and holds the scheduling lock or not. -/
def goes (reader : Nat) (stage : ReaderStage) (holds : Bool) : Readers :=
  { state with
    readers := Function.update state.readers reader stage
    schedulingLock := if holds then some reader else none }

/-- `pthread_cond_broadcast`. -/
def broadcast : Readers :=
  { state with readers := fun reader => match state.readers reader with
      | .asleep => .woken
      | stage => stage }

/-- The scheduling lock is free, or a reader that holds it releases dependents. -/
def mayRelease : Bool :=
  match state.schedulingLock with
  | none => true
  | some reader => decide (state.readers reader = .reading)

/-- One step; a thread waits (`none`) for a lock that is taken. -/
def step : ReaderEvent → Option Readers
  | .enter reader =>
      if state.schedulingLock = none ∧ state.readers reader = .outside then
        some (state.goes reader .starting true)
      else none
  | .start reader =>
      if state.readers reader = .starting then
        if state.partiallyReadIrob.isSome then
          some ({ state with partiallyReadIrob := none }.goes reader .reading true)
        else some (state.goes reader .looking true)
      else none
  | .look reader found =>
      if state.readers reader = .looking then
        match state.readyIrobs.pop with
        | none => some (state.goes reader .testing true)
        | some (_, rest) => some ({ state with readyIrobs := rest }.goes reader
            (if found then .reading else .looking) true)
      else none
  | .test reader =>
      if state.readers reader = .testing then
        if state.remoteShutdown = true ∧ state.availableCsocks = [] then
          some (state.goes reader .outside false)
        else some (state.goes reader .deciding true)
      else none
  | .giveUp reader =>
      if state.readers reader = .deciding then some (state.goes reader .outside false) else none
  | .sleep reader =>
      if state.readers reader = .deciding then some (state.goes reader .asleep false) else none
  | .wake reader =>
      if state.readers reader = .asleep then
        some { state with readers := Function.update state.readers reader .woken }
      else none
  | .resume reader =>
      -- a partially read IROB is not looked for again
      if state.schedulingLock = none ∧ state.readers reader = .woken then
        some (state.goes reader .looking true)
      else none
  | .keep reader id =>
      -- ASSERT(!partially_read_irob)
      if state.readers reader = .reading ∧ state.partiallyReadIrob = none then
        some { state with partiallyReadIrob := some (id, reader) }
      else none
  | .again reader =>
      if state.readers reader = .reading then some (state.goes reader .starting true) else none
  | .leave reader =>
      if state.readers reader = .reading then some (state.goes reader .outside false) else none
  | .release id sendLabels =>
      if state.mayRelease then
        some { state with
          readyIrobs := state.readyIrobs.insert (.work id false sendLabels) }.broadcast
      else none
  | .shutDown =>
      if state.schedulingLock = none then some { state with remoteShutdown := true }.broadcast
      else none
  | .connect csock =>
      if csock ∈ state.senders then none
      else some { state with
        availableCsocks := csock :: state.availableCsocks
        senders := csock :: state.senders }
  | .disconnect csock =>
      some { state with availableCsocks := state.availableCsocks.filter (· ≠ csock) }
  | .finish csock =>
      if state.schedulingLock = none ∧ csock ∈ state.senders then
        some { state with
          availableCsocks := state.availableCsocks.filter (· ≠ csock)
          senders := state.senders.filter (· ≠ csock) }.broadcast
      else none

/-- A multisocket without connections, and readers that have not called `recv`. -/
def initial : Readers := ⟨.empty, none, false, [], [], none, fun _ => .outside⟩

/-- Any interleaving of the readers and the other threads. -/
def machine : Machine Readers ReaderEvent where
  initial state := state = initial
  permitted _ _ := True
  step := step

instance : ∀ event, Decidable (machine.permitted state event) := fun _ => instDecidableTrue

end Readers

namespace Readers

variable {state before after : Readers} {event : ReaderEvent} {reader other : Nat}
  {stage : ReaderStage} {holds : Bool}

/-! ### What a reader relies on -/

/-- The partially read IROB, if any, was left by another reader. -/
def NotMine (state : Readers) (reader : Nat) : Prop :=
  ∀ kept ∈ state.partiallyReadIrob, kept.2 ≠ reader

/-- A sender thread will end, and wake up the readers, if the peer has shut down. -/
def Alive (state : Readers) : Prop := state.remoteShutdown = true → state.senders ≠ []

/-- What a reader relies on at its stage. -/
def Fits (state : Readers) (reader : Nat) : ReaderStage → Prop
  | .outside => True
  | .starting | .reading => state.schedulingLock = some reader
  | .looking => state.schedulingLock = some reader ∧ state.NotMine reader
  | .testing => state.schedulingLock = some reader ∧ state.NotMine reader ∧
      state.readyIrobs.tasks = []
  | .deciding => state.schedulingLock = some reader ∧ state.NotMine reader ∧
      state.readyIrobs.tasks = [] ∧ state.Alive
  | .asleep => state.NotMine reader ∧ state.readyIrobs.tasks = [] ∧ state.Alive
  | .woken => state.NotMine reader

/-- A connection is in use only while its sender thread runs, and every reader is right. -/
structure Sound (state : Readers) : Prop where
  connected : ∀ csock ∈ state.availableCsocks, csock ∈ state.senders
  fits : ∀ reader, state.Fits reader (state.readers reader)

/-- What a reader relies on stays. -/
theorem Fits.kept (fits : before.Fits reader stage)
    (lock : after.schedulingLock = before.schedulingLock)
    (notMine : before.NotMine reader → after.NotMine reader)
    (nothing : before.readyIrobs.tasks = [] → after.readyIrobs.tasks = [])
    (alive : before.Alive → after.Alive) : after.Fits reader stage := by
  cases stage with
  | outside => trivial
  | starting | reading => exact lock.trans fits
  | looking => exact ⟨lock.trans fits.1, notMine fits.2⟩
  | testing => exact ⟨lock.trans fits.1, notMine fits.2.1, nothing fits.2.2⟩
  | deciding => exact ⟨lock.trans fits.1, notMine fits.2.1, nothing fits.2.2.1, alive fits.2.2.2⟩
  | asleep => exact ⟨notMine fits.1, nothing fits.2.1, alive fits.2.2⟩
  | woken => exact notMine fits

/-- A reader that does not hold the scheduling lock does not rely on it. -/
theorem Fits.unlocked (fits : before.Fits reader stage) (free : before.schedulingLock ≠ some reader)
    (partially : after.partiallyReadIrob = before.partiallyReadIrob)
    (ready : after.readyIrobs = before.readyIrobs)
    (shutdown : after.remoteShutdown = before.remoteShutdown)
    (senders : after.senders = before.senders) : after.Fits reader stage := by
  have notMine : before.NotMine reader → after.NotMine reader := by
    unfold NotMine
    rw [partially]
    exact id
  have alive : before.Alive → after.Alive := by
    unfold Alive
    rw [shutdown, senders]
    exact id
  cases stage with
  | outside => trivial
  | starting | reading => exact absurd fits free
  | looking | testing | deciding => exact absurd fits.1 free
  | asleep => exact ⟨notMine fits.1, ready ▸ fits.2.1, alive fits.2.2⟩
  | woken => exact notMine fits

/-- What readers wait for changes in a way that concerns nobody. -/
theorem Sound.shared (sound : before.Sound)
    (lock : after.schedulingLock = before.schedulingLock)
    (readers : after.readers = before.readers)
    (connected : ∀ csock ∈ after.availableCsocks, csock ∈ after.senders)
    (notMine : ∀ reader, before.NotMine reader → after.NotMine reader)
    (nothing : before.readyIrobs.tasks = [] → after.readyIrobs.tasks = [])
    (alive : before.Alive → after.Alive) : after.Sound where
  connected := connected
  fits reader := by
    rw [readers]
    exact (sound.fits reader).kept lock (notMine reader) nothing alive

/-- A reader goes on, with the scheduling lock in its hand. -/
theorem Sound.goes (sound : state.Sound)
    (mine : state.schedulingLock = none ∨ state.schedulingLock = some reader)
    (fits : (state.goes reader stage holds).Fits reader stage) :
    (state.goes reader stage holds).Sound where
  connected := sound.connected
  fits other := by
    dsimp only [Readers.goes]
    by_cases same : other = reader
    · subst same
      rw [Function.update_self]
      exact fits
    · rw [Function.update_of_ne same]
      refine (sound.fits other).unlocked (fun taken => ?_) rfl rfl rfl rfl
      rcases mine with free | held
      · cases free.symm.trans taken
      · exact same (Option.some.inj (taken.symm.trans held))

/-- Another thread changes what readers wait for, and wakes them up. -/
theorem Sound.broadcast (sound : before.Sound) (free : before.mayRelease = true)
    (lock : after.schedulingLock = before.schedulingLock)
    (readers : after.readers = before.readers)
    (partially : after.partiallyReadIrob = before.partiallyReadIrob)
    (connected : ∀ csock ∈ after.availableCsocks, csock ∈ after.senders) :
    after.broadcast.Sound where
  connected := connected
  fits reader := by
    have fits := sound.fits reader
    have held (taken : before.schedulingLock = some reader) :
        before.readers reader = .reading := by
      unfold mayRelease at free
      rw [taken] at free
      exact of_decide_eq_true free
    have notMine : before.NotMine reader → after.broadcast.NotMine reader := by
      unfold NotMine
      rw [show after.broadcast.partiallyReadIrob = after.partiallyReadIrob from rfl, partially]
      exact id
    dsimp only [Readers.broadcast]
    rw [readers]
    cases stage : before.readers reader with
    | outside => trivial
    | reading =>
        rw [stage] at fits
        exact lock.trans fits
    | starting =>
        rw [stage] at fits
        exact nomatch stage.symm.trans (held fits)
    | looking | testing | deciding =>
        rw [stage] at fits
        exact nomatch stage.symm.trans (held fits.1)
    | asleep =>
        rw [stage] at fits
        exact notMine fits.1
    | woken =>
        rw [stage] at fits
        exact notMine fits

theorem tasks_of_pop_none (nothing : state.readyIrobs.pop = none) :
    state.readyIrobs.tasks = [] := by
  unfold IrobPrioritySet.pop at nothing
  split at nothing
  · assumption
  · cases nothing

theorem mayRelease_of_free (free : state.schedulingLock = none) : state.mayRelease = true := by
  unfold mayRelease
  rw [free]

theorem Sound.step_enter (sound : before.Sound)
    (moved : before.step (.enter reader) = some after) : after.Sound := by
  dsimp only [step] at moved
  split_ifs at moved with free
  cases moved
  exact sound.goes (.inl free.1) rfl

theorem Sound.step_start (sound : before.Sound)
    (moved : before.step (.start reader) = some after) : after.Sound := by
  dsimp only [step] at moved
  split_ifs at moved with stage partially
  · cases moved
    have held : before.Fits reader .starting := stage ▸ sound.fits reader
    have taken : Sound { before with partiallyReadIrob := none } :=
      sound.shared rfl rfl sound.connected (fun _ _ _ none' => nomatch none') id id
    exact taken.goes (.inr held) rfl
  · cases moved
    have held : before.Fits reader .starting := stage ▸ sound.fits reader
    have none' : before.partiallyReadIrob = none := Option.not_isSome_iff_eq_none.mp partially
    exact sound.goes (.inr held) ⟨rfl, fun kept left => nomatch none'.symm.trans left⟩

theorem Sound.step_look {found : Bool} (sound : before.Sound)
    (moved : before.step (.look reader found) = some after) : after.Sound := by
  dsimp only [step] at moved
  rw [ite_eq_iff] at moved
  obtain ⟨stage, moved⟩ | ⟨-, moved⟩ := moved
  swap
  · cases moved
  have fits : before.Fits reader .looking := stage ▸ sound.fits reader
  split at moved
  next nothing =>
    cases moved
    refine sound.goes (.inr fits.1) ⟨rfl, fits.2, ?_⟩
    exact tasks_of_pop_none nothing
  next task rest popped =>
    cases moved
    have taken : Sound { before with readyIrobs := rest } := by
      refine sound.shared rfl rfl sound.connected (fun _ => id) (fun nothing => ?_) id
      unfold IrobPrioritySet.pop at popped
      rw [nothing] at popped
      cases popped
    cases found with
    | true => exact taken.goes (.inr fits.1) rfl
    | false => exact taken.goes (.inr fits.1) ⟨rfl, fits.2⟩

theorem Sound.step_test (sound : before.Sound) (moved : before.step (.test reader) = some after) :
    after.Sound := by
  dsimp only [step] at moved
  split_ifs at moved with stage stopped
  · cases moved
    have fits : before.Fits reader .testing := stage ▸ sound.fits reader
    exact sound.goes (.inr fits.1) trivial
  · -- a connection is left, so its sender thread has not ended
    cases moved
    have fits : before.Fits reader .testing := stage ▸ sound.fits reader
    refine sound.goes (.inr fits.1) ⟨rfl, fits.2.1, fits.2.2, fun shutdown => ?_⟩
    obtain ⟨csock, available⟩ :=
      List.exists_mem_of_ne_nil _ fun none' => stopped ⟨shutdown, none'⟩
    exact List.ne_nil_of_mem (sound.connected csock available)

theorem Sound.step_giveUp (sound : before.Sound)
    (moved : before.step (.giveUp reader) = some after) : after.Sound := by
  dsimp only [step] at moved
  split_ifs at moved with stage
  cases moved
  have fits : before.Fits reader .deciding := stage ▸ sound.fits reader
  exact sound.goes (.inr fits.1) trivial

theorem Sound.step_sleep (sound : before.Sound)
    (moved : before.step (.sleep reader) = some after) : after.Sound := by
  dsimp only [step] at moved
  split_ifs at moved with stage
  cases moved
  have fits : before.Fits reader .deciding := stage ▸ sound.fits reader
  exact sound.goes (.inr fits.1) fits.2

theorem Sound.step_wake (sound : before.Sound) (moved : before.step (.wake reader) = some after) :
    after.Sound := by
  dsimp only [step] at moved
  split_ifs at moved with stage
  cases moved
  have fits : before.Fits reader .asleep := stage ▸ sound.fits reader
  refine ⟨sound.connected, fun other => ?_⟩
  dsimp only
  by_cases same : other = reader
  · subst same
    rw [Function.update_self]
    exact fits.1
  · rw [Function.update_of_ne same]
    exact (sound.fits other).kept rfl id id id

theorem Sound.step_resume (sound : before.Sound)
    (moved : before.step (.resume reader) = some after) : after.Sound := by
  dsimp only [step] at moved
  split_ifs at moved with free
  cases moved
  have fits : before.Fits reader .woken := free.2 ▸ sound.fits reader
  exact sound.goes (.inl free.1) ⟨rfl, fits⟩

theorem Sound.step_keep {id : IrobId} (sound : before.Sound)
    (moved : before.step (.keep reader id) = some after) : after.Sound := by
  dsimp only [step] at moved
  split_ifs at moved with stage
  cases moved
  refine ⟨sound.connected, fun other => ?_⟩
  by_cases same : other = reader
  · subst same
    have held : before.Fits other .reading := stage.1 ▸ sound.fits other
    dsimp only
    rw [stage.1]
    exact held
  · refine (sound.fits other).kept rfl (fun _ kept left => ?_) (fun nothing => nothing)
      (fun alive => alive)
    cases left
    exact fun mine => same mine.symm

theorem Sound.step_again (sound : before.Sound)
    (moved : before.step (.again reader) = some after) : after.Sound := by
  dsimp only [step] at moved
  split_ifs at moved with stage
  cases moved
  have held : before.Fits reader .reading := stage ▸ sound.fits reader
  exact sound.goes (.inr held) rfl

theorem Sound.step_leave (sound : before.Sound)
    (moved : before.step (.leave reader) = some after) : after.Sound := by
  dsimp only [step] at moved
  split_ifs at moved with stage
  cases moved
  have held : before.Fits reader .reading := stage ▸ sound.fits reader
  exact sound.goes (.inr held) trivial

theorem Sound.step_release {id : IrobId} {sendLabels : Nat} (sound : before.Sound)
    (moved : before.step (.release id sendLabels) = some after) : after.Sound := by
  dsimp only [step] at moved
  split_ifs at moved with free
  cases moved
  exact sound.broadcast free rfl rfl rfl sound.connected

theorem Sound.step_shutDown (sound : before.Sound) (moved : before.step .shutDown = some after) :
    after.Sound := by
  dsimp only [step] at moved
  split_ifs at moved with free
  cases moved
  exact sound.broadcast (mayRelease_of_free free) rfl rfl rfl sound.connected

theorem Sound.step_connect {csock : CSocketId} (sound : before.Sound)
    (moved : before.step (.connect csock) = some after) : after.Sound := by
  dsimp only [step] at moved
  split_ifs at moved
  cases moved
  refine sound.shared rfl rfl (fun other member => ?_) (fun _ => id) id fun _ _ =>
    List.cons_ne_nil _ _
  exact (List.mem_cons.mp member).elim (fun same => same ▸ List.mem_cons_self) fun old =>
    List.mem_cons_of_mem _ (sound.connected other old)

theorem Sound.step_disconnect {csock : CSocketId} (sound : before.Sound)
    (moved : before.step (.disconnect csock) = some after) : after.Sound := by
  cases moved
  exact sound.shared rfl rfl (fun other member =>
    sound.connected other (List.mem_filter.mp member).1) (fun _ => id) id id

theorem Sound.step_finish {csock : CSocketId} (sound : before.Sound)
    (moved : before.step (.finish csock) = some after) : after.Sound := by
  dsimp only [step] at moved
  split_ifs at moved with free
  cases moved
  refine sound.broadcast (mayRelease_of_free free.1) rfl rfl rfl fun kept member => ?_
  obtain ⟨available, apart⟩ := List.mem_filter.mp member
  exact List.mem_filter.mpr ⟨sound.connected kept available, apart⟩

theorem sound_step (sound : before.Sound) (moved : before.step event = some after) :
    after.Sound := by
  cases event with
  | enter reader => exact sound.step_enter moved
  | start reader => exact sound.step_start moved
  | look reader found => exact sound.step_look moved
  | test reader => exact sound.step_test moved
  | giveUp reader => exact sound.step_giveUp moved
  | sleep reader => exact sound.step_sleep moved
  | wake reader => exact sound.step_wake moved
  | resume reader => exact sound.step_resume moved
  | keep reader id => exact sound.step_keep moved
  | again reader => exact sound.step_again moved
  | leave reader => exact sound.step_leave moved
  | release id sendLabels => exact sound.step_release moved
  | shutDown => exact sound.step_shutDown moved
  | connect csock => exact sound.step_connect moved
  | disconnect csock => exact sound.step_disconnect moved
  | finish csock => exact sound.step_finish moved

/-- A reader sleeps only while no IROB is ready and none is left partially read, unless by another
reader. If the peer has shut down, a sender thread will end and wake it up. -/
theorem no_stuck_reader (reached : machine.Reachable state)
    (asleep : state.readers reader = .asleep) :
    state.readyIrobs.tasks = [] ∧ (∀ kept ∈ state.partiallyReadIrob, kept.2 ≠ reader) ∧
      (state.remoteShutdown = true → state.senders ≠ []) := by
  have sound : state.Sound := by
    refine reached.induct (fun first start => ?_) fun _ _ _ _ sound _ moved => sound_step sound moved
    cases start
    exact ⟨fun _ member => (List.not_mem_nil member).elim, fun _ => trivial⟩
  have fits : state.Fits reader .asleep := asleep ▸ sound.fits reader
  exact ⟨fits.2.1, fits.1, fits.2.2⟩

/-- The last connection is taken away after the reader has tested for it. -/
theorem no_stuck_reader_torn : ∃ state : Readers, state.remoteShutdown = true ∧
    state.availableCsocks = [] ∧ state.readers 1 = .asleep ∧ state.senders ≠ [] := by
  obtain ⟨state, run, known⟩ := (Option.any_eq_true _ _).mp (show
    ((machine.run initial [.connect 5, .shutDown, .enter 1, .start 1, .look 1 false, .test 1,
      .disconnect 5, .sleep 1]).any fun state => decide (state.remoteShutdown = true ∧
        state.availableCsocks = [] ∧ state.readers 1 = .asleep)) = true by decide +kernel)
  obtain ⟨shutdown, none', asleep⟩ := of_decide_eq_true known
  have reached : machine.Reachable state := .run (.initial rfl) run
  exact ⟨state, shutdown, none', asleep, (no_stuck_reader reached asleep).2.2 shutdown⟩

end Readers

end Libcmm
