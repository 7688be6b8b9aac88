import Libcmm.Attending
import Libcmm.Lib.Simulation

/-! # The end is slept on only by a thread that fires thunks

A sender thread looks whether the multisocket is shutting down, and whether its receiver is
there, at the beginning of the loop. It gives up the lock to fire thunks, and looks at the index
sets again after that, but not at these.
-/

namespace Libcmm

open Lib

namespace SenderLoops

variable {state before after : SenderLoops} {event : LoopEvent} {csock other : CSocketId}
  {stage : LoopStage} {level : Level} {part : WorkPart} {item : WorkItem} {again did holds : Bool}

/-! ### What a thread has looked at -/

/-- No thread fires thunks. -/
def Unfiring (state : SenderLoops) : Prop := ∀ csock ∈ state.created, state.stages csock ≠ .firing

instance : Decidable state.Unfiring :=
  inferInstanceAs (Decidable (∀ csock ∈ state.created, state.stages csock ≠ .firing))

/-- While a thread fires thunks the multisocket does not begin to shut down, and does not lose an
IROB after that, and the receiver of the thread stays. An IROB that `end_irob` erases is erased
before the multisocket shuts down. -/
def Heard (state : SenderLoops) : LoopEvent → Prop
  | .goodbye _ _ | .connectFails _ true | .handOver _ (.nobody _) =>
      state.shuttingDown = false → state.Unfiring
  | .acked _ | .drop _ _ => state.shuttingDown = true → state.Unfiring
  | .endFails _ => state.shuttingDown = false
  | .receiverFinishes csock => state.stages csock ≠ .firing
  | _ => True

instance : ∀ event, Decidable (state.Heard event)
  | .goodbye _ _ | .connectFails _ true | .handOver _ (.nobody _) =>
      inferInstanceAs (Decidable (state.shuttingDown = false → state.Unfiring))
  | .acked _ | .drop _ _ => inferInstanceAs (Decidable (state.shuttingDown = true → state.Unfiring))
  | .endFails _ => inferInstanceAs (Decidable (state.shuttingDown = false))
  | .receiverFinishes csock => inferInstanceAs (Decidable (state.stages csock ≠ .firing))
  | .connectFails _ false | .handOver _ .multisocket | .handOver _ (.csocket _) | .create _
  | .connected _ | .test _ | .goodbyeWritten _ _ | .part _ | .partingTimesOut _ | .look _
  | .unlock _ | .lock _ | .hand _ _ _ _ | .sent _ | .refused _ | .unsent _ | .fire _ _ | .fired _
  | .rest _ _ | .wake _ | .resume _ | .finish _ | .post _ _ _ | .update _ _ | .insertIrob _ _
  | .goodbyeAcked => instDecidableTrue

/-- The multisocket has something to send before it ends. -/
def Unended (state : SenderLoops) : Prop := state.shuttingDown = true → state.outgoing ≠ []

/-- A thread goes into `schedule_work`. -/
def Continues (state : SenderLoops) (csock : CSocketId) : Prop :=
  state.receivers csock = true ∧ (state.shuttingDown = true → state.nothingToSend csock = false)

/-- What a thread has looked at, at its stage. -/
def Minds (state : SenderLoops) (csock : CSocketId) : LoopStage → Prop
  | .scheduling _ _ _ did => did = false → state.trickles csock = false → state.Continues csock
  | .idle | .firing | .resting =>
      state.trickles csock = false → state.receivers csock = true ∧ state.Unended
  | .asleep false => state.receivers csock = true
  | _ => True

/-- Every thread has looked, and if one waits then the multisocket has not come to its end, or
another attends to it. -/
structure Heeding (state : SenderLoops) : Prop where
  minds : ∀ csock, state.Minds csock (state.stages csock)
  attended : (∃ csock, state.stages csock = .asleep false) → state.Unended ∨ state.Attended
  created : ∀ csock, state.stages csock ≠ .absent → csock ∈ state.created

/-- There is something to send while there are IROBs. -/
theorem Unended.sends (unended : state.Unended) (csock : CSocketId)
    (ends : state.shuttingDown = true) : state.nothingToSend csock = false := by
  have outgoing : state.outgoing.isEmpty = false := List.isEmpty_eq_false_iff.mpr (unended ends)
  unfold nothingToSend
  simp only [outgoing, Bool.and_false, Bool.false_and]

/-- With nothing scheduled, only IROBs are left to send. -/
theorem nothingToSend_of_unscheduled (csocket : (state.csockets csock).Unscheduled)
    (shared : state.SharedNothing) (outgoing : state.outgoing = []) :
    state.nothingToSend csock = true := by
  have sets (indexes : IrobSchedulingIndexes) (none' : indexes.Unscheduled) :
      indexes.waitingAcks.tasks = [] ∧ indexes.resendRequests.tasks = [] ∧
        indexes.waitingDataChecks.tasks = [] :=
    ⟨none' .waitingAcks, none' .resendRequests, none' .waitingDataChecks⟩
  obtain ⟨acks, requests, checks⟩ := sets _ csocket
  obtain ⟨acks', requests', checks'⟩ := sets _ shared.multisocket
  unfold nothingToSend
  simp only [acks, requests, checks, acks', requests', checks', outgoing, shared.down,
    List.isEmpty_nil, Bool.and_self]

/-- A thread that has found nothing has IROBs to wait for, if the multisocket shuts down. -/
theorem Continues.unended (continues : state.Continues csock)
    (csocket : (state.csockets csock).Unscheduled) (shared : state.SharedNothing) :
    state.Unended := fun ends nothing =>
  Bool.noConfusion ((nothingToSend_of_unscheduled csocket shared nothing).symm.trans
    (continues.2 ends))

/-! ### Steps of one thread -/

/-- Another thread does not notice a step. -/
structure Unnoticed (before after : SenderLoops) (other : CSocketId) : Prop where
  receivers : after.receivers other = before.receivers other
  trickles : after.trickles other = before.trickles other
  ends : before.stages other = .firing → before.Unended → after.Unended

/-- A thread that does not hold the lock has looked before it fires thunks, or waits. -/
theorem Minds.unlocked (minds : before.Minds other stage) (fits : before.Fits other stage)
    (free : before.schedulingLock ≠ some other) (here : before.stages other = stage)
    (unnoticed : before.Unnoticed after other) : after.Minds other stage := by
  cases stage with
  | scheduling | idle | resting => exact absurd fits.1 free
  | firing =>
      intro calm
      obtain ⟨receiver, unended⟩ := minds (unnoticed.trickles ▸ calm)
      exact ⟨unnoticed.receivers ▸ receiver, unnoticed.ends here unended⟩
  | asleep timed =>
      cases timed with
      | true => trivial
      | false => exact unnoticed.receivers.trans minds
  | _ => trivial

/-- One thread goes on. -/
theorem Heeding.advance (heeding : before.Heeding) (sound : before.Sound)
    (mine : before.schedulingLock = none ∨ before.schedulingLock = some csock)
    (present : before.stages csock ≠ .absent)
    (stages : after.stages = Function.update before.stages csock stage)
    (created : after.created = before.created)
    (unnoticed : ∀ other ≠ csock, before.Unnoticed after other)
    (minds : after.Minds csock stage) (attends : stage.attends = true ∨ after.Unended) :
    after.Heeding where
  minds other := by
    rw [stages]
    by_cases same : other = csock
    · subst same
      rw [Function.update_self]
      exact minds
    · rw [Function.update_of_ne same]
      exact (heeding.minds other).unlocked (sound.fits other) (lock_ne_of_mine mine same) rfl
        (unnoticed other same)
  attended _ := by
    refine attends.symm.imp id fun attends => ⟨csock, ?_⟩
    rw [stages, Function.update_self]
    exact attends
  created other there := by
    rw [created]
    by_cases same : other = csock
    · exact same ▸ heeding.created csock present
    · rw [stages, Function.update_of_ne same] at there
      exact heeding.created other there

/-- One thread goes on, and does nothing else. -/
theorem Heeding.goes (heeding : state.Heeding) (sound : state.Sound)
    (mine : state.schedulingLock = none ∨ state.schedulingLock = some csock)
    (present : state.stages csock ≠ .absent)
    (minds : (state.goes csock stage holds).Minds csock stage) (attends : stage.attends = true) :
    (state.goes csock stage holds).Heeding :=
  heeding.advance sound mine present rfl rfl (fun _ _ => ⟨rfl, rfl, fun _ => id⟩) minds
    (.inl attends)

/-- All threads are told. -/
theorem Heeding.told (minds : ∀ csock, after.broadcast.Minds csock (after.stages csock).signalled)
    (created : ∀ csock, after.stages csock ≠ .absent → csock ∈ after.created) :
    after.broadcast.Heeding where
  minds := minds
  attended waits :=
    have ⟨_, asleep⟩ := waits
    absurd asleep broadcast_stages_ne_asleep
  created csock there := created csock fun absent => there (by
    dsimp only [broadcast]
    rw [absent]
    rfl)

/-- A signal finds a thread that fires thunks. -/
theorem Minds.signalled (minds : before.Minds other stage) (fits : before.Fits other stage)
    (free : before.schedulingLock ≠ some other) (here : before.stages other = stage)
    (unnoticed : stage = .firing → before.Unnoticed after other) :
    after.broadcast.Minds other stage.signalled := by
  cases stage with
  | scheduling | idle | resting => exact absurd fits.1 free
  | firing =>
      have kept := unnoticed rfl
      exact minds.unlocked fits free here ⟨kept.receivers, kept.trickles, kept.ends⟩
  | _ => trivial

/-- Another thread has done something. -/
theorem Heeding.posted (heeding : before.Heeding) (sound : before.Sound)
    (free : before.schedulingLock = none) (stages : after.stages = before.stages)
    (created : after.created = before.created)
    (unnoticed : ∀ other, before.stages other = .firing → before.Unnoticed after other) :
    after.broadcast.Heeding := by
  refine .told (fun other => ?_) fun other there => ?_
  · rw [stages]
    exact (heeding.minds other).signalled (sound.fits other)
      (fun held => nomatch free.symm.trans held) rfl (unnoticed other)
  · rw [created]
    exact heeding.created other (stages ▸ there)

/-- One thread goes on, and tells the others. -/
theorem Heeding.tells (heeding : before.Heeding) (sound : before.Sound)
    (mine : before.schedulingLock = none ∨ before.schedulingLock = some csock)
    (present : before.stages csock ≠ .absent)
    (stages : after.stages = Function.update before.stages csock stage)
    (created : after.created = before.created)
    (unnoticed : ∀ other ≠ csock, before.stages other = .firing → before.Unnoticed after other)
    (minds : after.broadcast.Minds csock stage.signalled) : after.broadcast.Heeding := by
  refine .told (fun other => ?_) fun other there => ?_
  · rw [stages]
    by_cases same : other = csock
    · subst same
      rw [Function.update_self]
      exact minds
    · rw [Function.update_of_ne same]
      exact (heeding.minds other).signalled (sound.fits other) (lock_ne_of_mine mine same) rfl
        (unnoticed other same)
  · rw [created]
    by_cases same : other = csock
    · exact same ▸ heeding.created csock present
    · rw [stages, Function.update_of_ne same] at there
      exact heeding.created other there

/-- A thread goes on that has nothing to do with the lock. -/
theorem Heeding.moves (heeding : state.Heeding) (csock : CSocketId) (next : LoopStage)
    (attends : next.attends = true ∨
      next ≠ .asleep false ∧ (state.stages csock).attends = false)
    (minds : ∀ after : SenderLoops, after.Minds csock next)
    {receivers : CSocketId → Bool} {created : List CSocketId}
    (others : ∀ other ≠ csock, receivers other = state.receivers other)
    (known : csock ∈ created) (kept : ∀ other ∈ state.created, other ∈ created) :
    Heeding { state with
      receivers := receivers
      created := created
      stages := Function.update state.stages csock next } where
  minds other := by
    dsimp only
    by_cases same : other = csock
    · subst same
      rw [Function.update_self]
      exact minds _
    · rw [Function.update_of_ne same]
      have minds := heeding.minds other
      cases here : state.stages other with
      | scheduling again level part did =>
          rw [here] at minds
          exact fun undone calm =>
            ⟨(others other same).trans (minds undone calm).1, (minds undone calm).2⟩
      | idle | firing | resting =>
          rw [here] at minds
          exact fun calm => ⟨(others other same).trans (minds calm).1, (minds calm).2⟩
      | asleep timed =>
          rw [here] at minds
          cases timed with
          | true => trivial
          | false => exact (others other same).trans minds
      | _ => trivial
  attended waits := attended_update attends heeding.attended waits
  created other there := by
    dsimp only at there ⊢
    by_cases same : other = csock
    · exact same ▸ known
    · rw [Function.update_of_ne same] at there
      exact kept other (heeding.created other there)

/-! ### What a step leaves alone -/

/-- Sets change, but not what a thread looks at at the beginning of the loop. -/
structure KeepsEnds (before after : SenderLoops) : Prop where
  created : after.created = before.created
  receivers : after.receivers = before.receivers
  trickles : after.trickles = before.trickles
  shuttingDown : after.shuttingDown = before.shuttingDown
  outgoing : after.outgoing = before.outgoing

theorem KeepsEnds.unnoticed (kept : KeepsEnds before after) (other : CSocketId) :
    before.Unnoticed after other where
  receivers := congrFun kept.receivers other
  trickles := congrFun kept.trickles other
  ends _ unended ends := by
    rw [kept.outgoing]
    exact unended (kept.shuttingDown ▸ ends)

theorem keepsEnds_setIndexes (state : SenderLoops) (csock : CSocketId) (level : Level)
    (indexes : IrobSchedulingIndexes) : KeepsEnds state (state.setIndexes csock level indexes) := by
  cases level with
  | csocket => exact ⟨rfl, rfl, rfl, rfl, rfl⟩
  | multisocket => exact ⟨rfl, rfl, rfl, rfl, rfl⟩

theorem take_keepsEnds (taken : state.take csock level part = some (after, item)) :
    KeepsEnds state after := by
  unfold take at taken
  cases part with
  | chunksOf | newChunks =>
      obtain ⟨⟨data, rest⟩, -, same⟩ := Option.map_eq_some_iff.mp taken
      unfold takeChunk at same
      dsimp only at same
      split at same
      · cases same
        exact keepsEnds_setIndexes ..
      · cases same
        exact keepsEnds_setIndexes ..
  | changedIfaces | downIfaces =>
      obtain ⟨popped, -, same⟩ := Option.map_eq_some_iff.mp taken
      cases same
      exact ⟨rfl, rfl, rfl, rfl, rfl⟩
  | _ =>
      obtain ⟨popped, -, same⟩ := Option.map_eq_some_iff.mp taken
      cases same
      exact keepsEnds_setIndexes ..

theorem putBack_keepsEnds (state : SenderLoops) (csock : CSocketId) (level : Level)
    (item : WorkItem) : KeepsEnds state (state.putBack csock level item) := by
  cases item with
  | newIrob | chunk => exact keepsEnds_setIndexes ..
  | _ => exact ⟨rfl, rfl, rfl, rfl, rfl⟩

theorem giveBack_keepsEnds (state : SenderLoops) (item : WorkItem) :
    KeepsEnds state (state.giveBack item) := by
  cases item with
  | chunk data ack =>
      unfold giveBack
      dsimp only
      split
      · split
        · exact ⟨rfl, rfl, rfl, rfl, rfl⟩
        · exact ⟨rfl, rfl, rfl, rfl, rfl⟩
      · exact ⟨rfl, rfl, rfl, rfl, rfl⟩
  | _ => exact ⟨rfl, rfl, rfl, rfl, rfl⟩

theorem schedule_keepsEnds (state : SenderLoops) (target : Option CSocketId)
    (data : IrobSchedulingData) (type : IndexType) :
    KeepsEnds state (state.schedule target data type) := by
  cases target with
  | none => exact ⟨rfl, rfl, rfl, rfl, rfl⟩
  | some target => exact ⟨rfl, rfl, rfl, rfl, rfl⟩

theorem Heeding.not_firing (heeding : state.Heeding) (unfiring : state.Unfiring)
    (csock : CSocketId) : state.stages csock ≠ .firing := fun here =>
  unfiring csock (heeding.created csock (here ▸ LoopStage.noConfusion)) here

/-- The multisocket shuts down. -/
theorem Heeding.ends (heeding : before.Heeding)
    (heard : before.shuttingDown = false → before.Unfiring)
    (outgoing : after.outgoing = before.outgoing) (here : before.stages other = .firing)
    (unended : before.Unended) : after.Unended := by
  intro _
  cases ends : before.shuttingDown with
  | true =>
      rw [outgoing]
      exact unended ends
  | false => exact absurd here (heeding.not_firing (heard ends) other)

/-- An IROB is removed. -/
theorem Heeding.loses (heeding : before.Heeding)
    (heard : before.shuttingDown = true → before.Unfiring)
    (shuttingDown : after.shuttingDown = before.shuttingDown)
    (here : before.stages other = .firing) : after.Unended := fun ends =>
  absurd here (heeding.not_firing (heard (shuttingDown ▸ ends)) other)

/-- An IROB is removed, and nobody is told, with others left to send. -/
theorem Heeding.removed (heeding : state.Heeding) (sound : state.Sound)
    (free : state.schedulingLock = none) (outgoing : List IrobId)
    (unended : Unended { state with outgoing := outgoing }) :
    Heeding { state with outgoing := outgoing } where
  minds csock := (heeding.minds csock).unlocked (sound.fits csock)
    (fun held => nomatch free.symm.trans held) rfl ⟨rfl, rfl, fun _ _ => unended⟩
  attended _ := .inl unended
  created := heeding.created

/-! ### The parts of a step -/

/-- A thread that goes on in `schedule_work` has looked when it entered it. -/
theorem minds_proceeds {part : Option WorkPart}
    (continues : did = false → state.trickles csock = false → state.Continues csock)
    (fits : state.Fits csock (.proceeds again level did part)) :
    state.Minds csock (.proceeds again level did part) := by
  cases part with
  | some part => exact continues
  | none =>
      unfold LoopStage.proceeds at fits ⊢
      cases did with
      | true => trivial
      | false =>
          cases level with
          | csocket => exact continues
          | multisocket =>
              cases again with
              | false =>
                  intro calm
                  have continues := continues rfl calm
                  obtain ⟨csocket, shared⟩ := fits.2 calm
                  exact ⟨continues.1, continues.unended csocket shared⟩
              | true =>
                  intro calm
                  have continues := continues rfl calm
                  obtain ⟨csocket, shared⟩ := fits.2 calm
                  exact ⟨continues.1, continues.unended csocket shared⟩

/-- A thread in `schedule_work` goes on. -/
theorem Heeding.worked (heeding : before.Heeding) (sound : before.Sound)
    (here : before.stages csock = stage) (present : stage ≠ .absent)
    (mine : before.schedulingLock = some csock) {part : Option WorkPart}
    (stages : after.stages = before.stages) (created : after.created = before.created)
    (unnoticed : ∀ other ≠ csock, before.Unnoticed after other)
    (later : (after.proceeds csock again level did part).Sound)
    (continues : did = false → after.trickles csock = false → after.Continues csock) :
    (after.proceeds csock again level did part).Heeding := by
  have next : (after.proceeds csock again level did part).stages =
      Function.update before.stages csock (.proceeds again level did part) := by
    rw [← stages]
    rfl
  have fits := later.fits csock
  rw [next, Function.update_self] at fits
  refine heeding.advance sound (.inr mine) (here ▸ present) next created
    (fun other apart => ?_) (minds_proceeds continues fits) (.inl (attends_proceeds ..))
  have kept := unnoticed other apart
  exact ⟨kept.receivers, kept.trickles, kept.ends⟩

/-- A thread looks for an item, and takes it or passes the part. -/
theorem Heeding.look (heeding : state.Heeding) (sound : state.Sound)
    (here : state.stages csock = .scheduling again level part did)
    (later : (state.look csock again level part did).Sound) :
    (state.look csock again level part did).Heeding := by
  have fits : state.Fits csock (.scheduling again level part did) := here ▸ sound.fits csock
  have minds : state.Minds csock (.scheduling again level part did) := here ▸ heeding.minds csock
  unfold SenderLoops.look at later ⊢
  split at later
  next after item taken =>
    have kept := take_keepsEnds taken
    have stages : (after.goes csock (.handling again level part did item true) true).stages =
        Function.update state.stages csock (.handling again level part did item true) := by
      rw [← (take_keepsOthers taken).stages]
      rfl
    refine heeding.advance sound (.inr fits.1) (here ▸ LoopStage.noConfusion) stages kept.created
      (fun other _ => ?_) trivial (.inl rfl)
    have kept := kept.unnoticed other
    exact ⟨kept.receivers, kept.trickles, kept.ends⟩
  next nothing =>
    exact heeding.worked sound here LoopStage.noConfusion fits.1 rfl rfl
      (fun _ _ => ⟨rfl, rfl, fun _ => id⟩) later minds

/-- A thread at the beginning of the loop. -/
theorem Heeding.test (heeding : state.Heeding) (sound : state.Sound)
    (here : state.stages csock = .testing) : (state.test csock).Heeding := by
  have held : state.Fits csock .testing := here ▸ sound.fits csock
  have present : state.stages csock ≠ .absent := here ▸ LoopStage.noConfusion
  unfold SenderLoops.test
  split_ifs with ends written receives
  · exact heeding.advance sound (.inr held) present rfl rfl (fun _ _ => ⟨rfl, rfl, fun _ => id⟩)
      trivial (.inl rfl)
  · exact heeding.goes sound (.inr held) present trivial rfl
  · refine heeding.goes sound (.inr held) present (fun _ _ => ⟨receives, fun ending => ?_⟩) rfl
    refine Bool.eq_false_of_not_eq_true fun nothing => ends ?_
    exact Bool.and_eq_true_iff.mpr ⟨ending, nothing⟩
  · exact heeding.goes sound (.inr held) present trivial rfl
  · exact heeding.goes sound (.inr held) present trivial rfl

/-- A thread that handles an item schedules work. -/
theorem Heeding.hand (heeding : state.Heeding) (sound : state.Sound)
    (here : state.stages csock = .handling again level part did item true)
    (target : Option CSocketId) (data : IrobSchedulingData) (type : IndexType) :
    (state.hand csock target data type).Heeding := by
  have held : state.schedulingLock = some csock :=
    (show state.Fits csock (.handling again level part did item true) from
      here ▸ sound.fits csock).1 rfl
  have present : state.stages csock ≠ .absent := here ▸ LoopStage.noConfusion
  unfold SenderLoops.hand
  cases target with
  | none =>
      exact heeding.tells sound (.inr held) present (stages_eq_update here) rfl
        (fun _ _ _ => ⟨rfl, rfl, fun _ => id⟩) trivial
  | some target =>
      dsimp only
      split_ifs with own request
      · exact heeding.advance sound (.inr held) present (stages_eq_update here) rfl
          (fun _ _ => ⟨rfl, rfl, fun _ => id⟩) trivial (.inl rfl)
      · exact heeding.advance sound (.inr held) present (stages_eq_update here) rfl
          (fun _ _ => ⟨rfl, rfl, fun _ => id⟩) trivial (.inl rfl)
      · exact heeding.tells sound (.inr held) present (stages_eq_update here) rfl
          (fun _ _ _ => ⟨rfl, rfl, fun _ => id⟩) trivial

/-- A thread that has found nothing waits. -/
theorem Heeding.rest (heeding : state.Heeding) (sound : state.Sound)
    (here : state.stages csock = .resting) (polls : Bool) :
    Heeding ({ state with
      trickles := Function.update state.trickles csock (polls && state.trickles csock)
      delegated := Function.update state.delegated csock [] }.goes csock
        (.asleep (polls || state.trickles csock)) false) := by
  have fits : state.Fits csock .resting := here ▸ sound.fits csock
  have minds : state.Minds csock .resting := here ▸ heeding.minds csock
  have present : state.stages csock ≠ .absent := here ▸ LoopStage.noConfusion
  have unnoticed : ∀ other ≠ csock, state.Unnoticed ({ state with
      trickles := Function.update state.trickles csock (polls && state.trickles csock)
      delegated := Function.update state.delegated csock [] }.goes csock
        (.asleep (polls || state.trickles csock)) false) other :=
    fun _ apart => ⟨rfl, Function.update_of_ne apart .., fun _ => id⟩
  cases timed : polls || state.trickles csock with
  | true =>
      rw [timed] at unnoticed
      exact heeding.advance sound (.inr fits.1) present rfl rfl unnoticed trivial (.inl rfl)
  | false =>
      obtain ⟨receiver, unended⟩ := minds (Bool.or_eq_false_iff.mp timed).2
      rw [timed] at unnoticed
      exact heeding.advance sound (.inr fits.1) present rfl rfl unnoticed receiver (.inr unended)

/-! ### Steps -/

theorem Heeding.step_create (heeding : before.Heeding)
    (moved : before.step (.create csock) = some after) : after.Heeding := by
  dsimp only [step] at moved
  split_ifs at moved with absent
  cases moved
  refine heeding.moves csock .connecting (.inr ⟨LoopStage.noConfusion, ?_⟩) (fun _ => trivial)
    (fun _ apart => Function.update_of_ne apart ..) List.mem_cons_self
    fun _ => List.mem_cons_of_mem _
  rw [absent]
  rfl

theorem Heeding.step_connected (heeding : before.Heeding) (sound : before.Sound)
    (moved : before.step (.connected csock) = some after) : after.Heeding := by
  dsimp only [step] at moved
  split_ifs at moved with enabled
  cases moved
  exact heeding.goes sound (.inl enabled.1) (enabled.2 ▸ LoopStage.noConfusion) trivial rfl

theorem Heeding.step_connectFails {refused : Bool} (heeding : before.Heeding)
    (sound : before.Sound) (heard : before.Heard (.connectFails csock refused))
    (moved : before.step (.connectFails csock refused) = some after) : after.Heeding := by
  dsimp only [step] at moved
  split_ifs at moved with enabled refuses
  · cases moved
    subst refuses
    exact heeding.tells sound (.inl enabled.1) (enabled.2 ▸ LoopStage.noConfusion) rfl rfl
      (fun _ _ here => ⟨rfl, rfl, fun _ => heeding.ends heard rfl here⟩) trivial
  · cases moved
    exact heeding.goes sound (.inl enabled.1) (enabled.2 ▸ LoopStage.noConfusion) trivial rfl

theorem Heeding.step_test (heeding : before.Heeding) (sound : before.Sound)
    (moved : before.step (.test csock) = some after) : after.Heeding := by
  dsimp only [step] at moved
  split_ifs at moved with here
  cases moved
  exact heeding.test sound here

theorem Heeding.step_goodbyeWritten {ok : Bool} (heeding : before.Heeding)
    (sound : before.Sound) (moved : before.step (.goodbyeWritten csock ok) = some after) :
    after.Heeding := by
  dsimp only [step] at moved
  split_ifs at moved with enabled
  · cases moved
    exact heeding.tells sound (.inl enabled.1) (enabled.2 ▸ LoopStage.noConfusion) rfl rfl
      (fun _ _ _ => ⟨rfl, rfl, fun _ => id⟩) trivial
  · cases moved
    exact heeding.tells sound (.inl enabled.1) (enabled.2 ▸ LoopStage.noConfusion) rfl rfl
      (fun _ _ _ => ⟨rfl, rfl, fun _ => id⟩) trivial

theorem Heeding.step_part (heeding : before.Heeding) (sound : before.Sound)
    (moved : before.step (.part csock) = some after) : after.Heeding := by
  dsimp only [step] at moved
  split_ifs at moved with here
  · cases moved
    have held : before.Fits csock .parting := here ▸ sound.fits csock
    exact heeding.goes sound (.inr held) (here ▸ LoopStage.noConfusion) trivial rfl
  · cases moved
    have held : before.Fits csock .parting := here ▸ sound.fits csock
    exact heeding.goes sound (.inr held) (here ▸ LoopStage.noConfusion) trivial rfl

theorem Heeding.step_partingTimesOut (heeding : before.Heeding) (sound : before.Sound)
    (moved : before.step (.partingTimesOut csock) = some after) : after.Heeding := by
  dsimp only [step] at moved
  split_ifs at moved with enabled
  cases moved
  exact heeding.goes sound (.inl enabled.1) (enabled.2 ▸ LoopStage.noConfusion) trivial rfl

theorem Heeding.step_look (heeding : before.Heeding) (sound : before.Sound)
    (moved : before.step (.look csock) = some after) : after.Heeding := by
  have later : after.Sound := sound_step sound moved
  dsimp only [step] at moved
  split at moved
  next here =>
    cases moved
    exact heeding.look sound here later
  next => cases moved

theorem Heeding.step_unlock (heeding : before.Heeding) (sound : before.Sound)
    (moved : before.step (.unlock csock) = some after) : after.Heeding := by
  dsimp only [step] at moved
  split at moved
  next here =>
    cases moved
    have fits : before.Fits csock (.handling _ _ _ _ _ true) := here ▸ sound.fits csock
    exact heeding.goes sound (.inr (fits.1 rfl)) (here ▸ LoopStage.noConfusion) trivial rfl
  next => cases moved

theorem Heeding.step_lock (heeding : before.Heeding) (sound : before.Sound)
    (moved : before.step (.lock csock) = some after) : after.Heeding := by
  dsimp only [step] at moved
  split at moved
  next here =>
    split_ifs at moved with free
    cases moved
    exact heeding.goes sound (.inl free) (here ▸ LoopStage.noConfusion) trivial rfl
  next => cases moved

theorem Heeding.step_hand {target : Option CSocketId} {data : IrobSchedulingData}
    {type : IndexType} (heeding : before.Heeding) (sound : before.Sound)
    (moved : before.step (.hand csock target data type) = some after) : after.Heeding := by
  dsimp only [step] at moved
  split at moved
  next here =>
    cases moved
    exact heeding.hand sound here target data type
  next => cases moved

theorem Heeding.step_drop {ids : List IrobId} (heeding : before.Heeding) (sound : before.Sound)
    (heard : before.Heard (.drop csock ids))
    (moved : before.step (.drop csock ids) = some after) : after.Heeding := by
  dsimp only [step] at moved
  split at moved
  next here =>
    cases moved
    have fits : before.Fits csock (.handling _ _ _ _ _ true) := here ▸ sound.fits csock
    exact heeding.advance sound (.inr (fits.1 rfl)) (here ▸ LoopStage.noConfusion)
      (stages_eq_update here) rfl
      (fun _ _ => ⟨rfl, rfl, fun here _ => heeding.loses heard rfl here⟩) trivial (.inl rfl)
  next => cases moved

theorem Heeding.step_sent (heeding : before.Heeding) (sound : before.Sound)
    (moved : before.step (.sent csock) = some after) : after.Heeding := by
  have later : after.Sound := sound_step sound moved
  dsimp only [step] at moved
  split at moved
  next here =>
    cases moved
    have fits : before.Fits csock (.handling _ _ _ _ _ true) := here ▸ sound.fits csock
    exact heeding.worked sound here LoopStage.noConfusion (fits.1 rfl) rfl rfl
      (fun _ _ => ⟨rfl, rfl, fun _ => id⟩) later fun undone => Bool.noConfusion undone
  next => cases moved

theorem Heeding.step_refused (heeding : before.Heeding) (sound : before.Sound)
    (moved : before.step (.refused csock) = some after) : after.Heeding := by
  have later : after.Sound := sound_step sound moved
  dsimp only [step] at moved
  split at moved
  next again level part did item here =>
    split_ifs at moved
    cases moved
    have fits : before.Fits csock (.handling again level part did item true) :=
      here ▸ sound.fits csock
    have kept := putBack_keepsEnds before csock level item
    refine heeding.worked sound here LoopStage.noConfusion (fits.1 rfl)
      (putBack_keepsOthers before csock level item).stages kept.created
      (fun other apart => ?_) later fun _ calm => ?_
    · exact ⟨congrFun kept.receivers other, Function.update_of_ne apart ..,
        fun here unended => (kept.unnoticed other).ends here unended⟩
    · exact Bool.noConfusion ((Function.update_self ..).symm.trans calm)
  next => cases moved

theorem Heeding.step_unsent (heeding : before.Heeding) (sound : before.Sound)
    (moved : before.step (.unsent csock) = some after) : after.Heeding := by
  dsimp only [step] at moved
  split at moved
  next item here =>
    cases moved
    have fits : before.Fits csock (.handling _ _ _ _ _ true) := here ▸ sound.fits csock
    have stages := congrArg (Function.update · csock LoopStage.thrown)
      (giveBack_stages before item)
    have kept := giveBack_keepsEnds before item
    refine heeding.tells sound (.inr (fits.1 rfl)) (here ▸ LoopStage.noConfusion) stages
      kept.created (fun other _ _ => ?_) trivial
    have kept := kept.unnoticed other
    exact ⟨kept.receivers, kept.trickles, kept.ends⟩
  next => cases moved

theorem Heeding.step_fire {unsentBytes : Bool} (heeding : before.Heeding) (sound : before.Sound)
    (moved : before.step (.fire csock unsentBytes) = some after) : after.Heeding := by
  dsimp only [step] at moved
  split_ifs at moved with here
  · cases moved
    have fits : before.Fits csock .idle := here ▸ sound.fits csock
    have minds : before.Minds csock .idle := here ▸ heeding.minds csock
    exact heeding.goes sound (.inr fits.1) (here ▸ LoopStage.noConfusion) minds rfl
  · cases moved
    have fits : before.Fits csock .idle := here ▸ sound.fits csock
    have minds : before.Minds csock .idle := here ▸ heeding.minds csock
    exact heeding.goes sound (.inr fits.1) (here ▸ LoopStage.noConfusion) minds rfl

theorem Heeding.step_fired (heeding : before.Heeding) (sound : before.Sound)
    (moved : before.step (.fired csock) = some after) : after.Heeding := by
  dsimp only [step] at moved
  split_ifs at moved with enabled
  cases moved
  have minds : before.Minds csock .firing := enabled.2 ▸ heeding.minds csock
  exact heeding.goes sound (.inl enabled.1) (enabled.2 ▸ LoopStage.noConfusion)
    (fun _ calm => ⟨(minds calm).1, (minds calm).2.sends csock⟩) rfl

theorem Heeding.step_rest {polls : Bool} (heeding : before.Heeding) (sound : before.Sound)
    (moved : before.step (.rest csock polls) = some after) : after.Heeding := by
  dsimp only [step] at moved
  split_ifs at moved with here
  cases moved
  exact heeding.rest sound here polls

theorem Heeding.step_wake (heeding : before.Heeding)
    (moved : before.step (.wake csock) = some after) : after.Heeding := by
  dsimp only [step] at moved
  split at moved
  next here =>
    cases moved
    exact heeding.moves csock .woken (.inl rfl) (fun _ => trivial) (fun _ _ => rfl)
      (heeding.created csock (here ▸ LoopStage.noConfusion)) fun _ => id
  next here =>
    cases moved
    exact heeding.moves csock .woken (.inl rfl) (fun _ => trivial) (fun _ _ => rfl)
      (heeding.created csock (here ▸ LoopStage.noConfusion)) fun _ => id
  next => cases moved

theorem Heeding.step_resume (heeding : before.Heeding) (sound : before.Sound)
    (moved : before.step (.resume csock) = some after) : after.Heeding := by
  dsimp only [step] at moved
  split_ifs at moved with enabled
  cases moved
  exact heeding.goes sound (.inl enabled.1) (enabled.2 ▸ LoopStage.noConfusion) trivial rfl

theorem Heeding.step_handOver {successor : Successor} (heeding : before.Heeding)
    (sound : before.Sound) (heard : before.Heard (.handOver csock successor))
    (moved : before.step (.handOver csock successor) = some after) : after.Heeding := by
  dsimp only [step] at moved
  split_ifs at moved with enabled
  cases moved
  have stages := congrArg (Function.update · csock LoopStage.leaving)
    (handOver_stages before csock successor)
  have present : before.stages csock ≠ .absent := enabled.2 ▸ LoopStage.noConfusion
  cases successor with
  | multisocket | csocket =>
      exact heeding.tells sound (.inl enabled.1) present stages rfl
        (fun _ _ _ => ⟨rfl, rfl, fun _ => id⟩) trivial
  | nobody accepting =>
      cases accepting with
      | true | false =>
          exact heeding.tells sound (.inl enabled.1) present stages rfl
            (fun _ _ here => ⟨rfl, rfl, fun _ => heeding.ends heard rfl here⟩) trivial

theorem Heeding.step_finish (heeding : before.Heeding) (sound : before.Sound)
    (moved : before.step (.finish csock) = some after) : after.Heeding := by
  dsimp only [step] at moved
  split_ifs at moved with enabled
  cases moved
  exact heeding.tells sound (.inl enabled.1) (enabled.2 ▸ LoopStage.noConfusion) rfl rfl
    (fun _ _ _ => ⟨rfl, rfl, fun _ => id⟩) trivial

theorem Heeding.step_post {target : Option CSocketId} {data : IrobSchedulingData}
    {type : IndexType} (heeding : before.Heeding) (sound : before.Sound)
    (moved : before.step (.post target data type) = some after) : after.Heeding := by
  dsimp only [step] at moved
  split_ifs at moved with free
  cases moved
  have kept := schedule_keepsEnds before target data type
  refine heeding.posted sound free ?_ kept.created fun other _ => kept.unnoticed other
  cases target <;> rfl

theorem Heeding.step_update {iface : NetInterface} {down : Bool} (heeding : before.Heeding)
    (sound : before.Sound) (moved : before.step (.update iface down) = some after) :
    after.Heeding := by
  dsimp only [step] at moved
  split_ifs at moved with free
  · cases moved
    exact heeding.posted sound free rfl rfl fun _ _ => ⟨rfl, rfl, fun _ => id⟩
  · cases moved
    exact heeding.posted sound free rfl rfl fun _ _ => ⟨rfl, rfl, fun _ => id⟩

theorem Heeding.step_insertIrob {target : Option CSocketId} {data : IrobSchedulingData}
    (heeding : before.Heeding) (sound : before.Sound)
    (moved : before.step (.insertIrob target data) = some after) : after.Heeding := by
  dsimp only [step] at moved
  split_ifs at moved with free
  cases moved
  refine heeding.posted sound free ?_ ?_ fun other _ => ?_
  · cases target <;> rfl
  · cases target <;> rfl
  · cases target with
    | none | some => exact ⟨rfl, rfl, fun _ _ _ => List.cons_ne_nil _ _⟩

theorem Heeding.step_acked {id : IrobId} (heeding : before.Heeding) (sound : before.Sound)
    (heard : before.Heard (.acked id)) (moved : before.step (.acked id) = some after) :
    after.Heeding := by
  dsimp only [step] at moved
  split_ifs at moved with free empties
  · cases moved
    exact heeding.posted sound free rfl rfl fun _ here =>
      ⟨rfl, rfl, fun here _ => heeding.loses heard rfl here⟩
  · cases moved
    refine heeding.removed sound free _ fun ends nothing => empties ?_
    exact Bool.and_eq_true_iff.mpr ⟨List.isEmpty_iff.mpr nothing, ends⟩

theorem Heeding.step_endFails {id : IrobId} (heeding : before.Heeding) (sound : before.Sound)
    (heard : before.Heard (.endFails id)) (moved : before.step (.endFails id) = some after) :
    after.Heeding := by
  dsimp only [step] at moved
  split_ifs at moved with free
  cases moved
  exact heeding.removed sound free _ fun ends => Bool.noConfusion (ends.symm.trans heard)

theorem Heeding.step_goodbye {remoteInitiated : Bool} {hosed : Bool} (heeding : before.Heeding)
    (sound : before.Sound) (heard : before.Heard (.goodbye remoteInitiated hosed))
    (moved : before.step (.goodbye remoteInitiated hosed) = some after) : after.Heeding := by
  dsimp only [step] at moved
  split_ifs at moved with free
  cases moved
  unfold SenderLoops.goodbye
  split_ifs with ends
  · exact heeding.posted sound free rfl rfl fun _ _ => ⟨rfl, rfl, fun _ => id⟩
  · exact heeding.posted sound free rfl rfl fun _ here =>
      ⟨rfl, rfl, fun _ => heeding.ends heard rfl here⟩

theorem Heeding.step_goodbyeAcked (heeding : before.Heeding) (sound : before.Sound)
    (moved : before.step .goodbyeAcked = some after) : after.Heeding := by
  dsimp only [step] at moved
  split_ifs at moved with enabled
  cases moved
  exact heeding.posted sound enabled.1 rfl rfl fun _ _ => ⟨rfl, rfl, fun _ => id⟩

theorem Heeding.step_receiverFinishes (heeding : before.Heeding) (sound : before.Sound)
    (heard : before.Heard (.receiverFinishes csock))
    (moved : before.step (.receiverFinishes csock) = some after) : after.Heeding := by
  dsimp only [step] at moved
  split_ifs at moved with free
  cases moved
  refine heeding.posted sound free rfl rfl fun other here => ⟨?_, rfl, fun _ => id⟩
  refine Function.update_of_ne (fun same => ?_) ..
  subst same
  exact heard here

theorem heeding_step (heeding : before.Heeding) (sound : before.Sound) (heard : before.Heard event)
    (moved : before.step event = some after) : after.Heeding := by
  cases event with
  | create csock => exact heeding.step_create moved
  | connected csock => exact heeding.step_connected sound moved
  | connectFails csock refused => exact heeding.step_connectFails sound heard moved
  | test csock => exact heeding.step_test sound moved
  | goodbyeWritten csock ok => exact heeding.step_goodbyeWritten sound moved
  | part csock => exact heeding.step_part sound moved
  | partingTimesOut csock => exact heeding.step_partingTimesOut sound moved
  | look csock => exact heeding.step_look sound moved
  | unlock csock => exact heeding.step_unlock sound moved
  | lock csock => exact heeding.step_lock sound moved
  | hand csock target data type => exact heeding.step_hand sound moved
  | drop csock ids => exact heeding.step_drop sound heard moved
  | sent csock => exact heeding.step_sent sound moved
  | refused csock => exact heeding.step_refused sound moved
  | unsent csock => exact heeding.step_unsent sound moved
  | fire csock unsentBytes => exact heeding.step_fire sound moved
  | fired csock => exact heeding.step_fired sound moved
  | rest csock polls => exact heeding.step_rest sound moved
  | wake csock => exact heeding.step_wake moved
  | resume csock => exact heeding.step_resume sound moved
  | handOver csock successor => exact heeding.step_handOver sound heard moved
  | finish csock => exact heeding.step_finish sound moved
  | post target data type => exact heeding.step_post sound moved
  | update iface down => exact heeding.step_update sound moved
  | insertIrob target data => exact heeding.step_insertIrob sound moved
  | acked id => exact heeding.step_acked sound heard moved
  | endFails id => exact heeding.step_endFails sound heard moved
  | goodbye remoteInitiated hosed => exact heeding.step_goodbye sound heard moved
  | goodbyeAcked => exact heeding.step_goodbyeAcked sound moved
  | receiverFinishes csock => exact heeding.step_receiverFinishes sound heard moved

theorem heeding_of_reachable (reached : (machine.restrict Heard).Reachable state) :
    state.Heeding := by
  refine reached.induct (fun first start => ?_) fun _ _ _ earlier heeding permitted moved =>
    heeding_step heeding (sound_of_reachable earlier.of_restrict) permitted.2 moved
  cases start
  exact {
    minds := fun _ => trivial
    attended := fun ⟨_, asleep⟩ => nomatch asleep
    created := fun _ there => absurd rfl there }

/-- If the end always comes while no thread fires thunks, a thread that waits without a timeout,
and was not told since, has a receiver, and the multisocket goes on or has IROBs to send, or
another thread goes on. -/
theorem no_end_slept_on (reached : (machine.restrict Heard).Reachable state)
    (asleep : state.stages csock = .asleep false) :
    state.receivers csock = true ∧
      (state.shuttingDown = true →
        state.outgoing ≠ [] ∨ ∃ other ≠ csock, (state.stages other).attends = true) := by
  have heeding := heeding_of_reachable reached
  have minds : state.Minds csock (.asleep false) := asleep ▸ heeding.minds csock
  refine ⟨minds, fun ends => ?_⟩
  rcases heeding.attended ⟨csock, asleep⟩ with unended | ⟨other, attends⟩
  · exact .inl (unended ends)
  · refine .inr ⟨other, fun same => ?_, attends⟩
    rw [same, asleep] at attends
    cases attends

theorem no_end_slept_on_closing : ∃ state : SenderLoops, (machine.restrict Heard).Reachable state ∧
    state.stages 1 = .asleep false ∧ state.shuttingDown = true ∧ state.receivers 1 = true := by
  obtain ⟨state, run, known⟩ := (Option.any_eq_true _ _).mp (show
    (((machine.restrict Heard).run initial ([.create 1, .insertIrob none (.work 7 false 0),
      .connected 1, .test 1] ++ List.replicate 11 (.look 1) ++ [.sent 1] ++
      List.replicate 7 (.look 1) ++ [.test 1] ++ List.replicate 16 (.look 1) ++
      [.fire 1 false, .fired 1] ++ List.replicate 16 (.look 1) ++ [.rest 1 false,
      .goodbye false false, .resume 1, .test 1] ++ List.replicate 16 (.look 1) ++
      [.fire 1 false, .fired 1] ++ List.replicate 16 (.look 1) ++
      [.rest 1 false])).any fun state =>
        decide (state.stages 1 = .asleep false ∧ state.shuttingDown = true)) = true
    by decide +kernel)
  obtain ⟨asleep, ends⟩ := of_decide_eq_true known
  have reached : (machine.restrict Heard).Reachable state := .run (.initial rfl) run
  exact ⟨state, reached, asleep, ends, (no_end_slept_on reached asleep).1⟩

/-! ### A goodbye that is missed -/

theorem pop_of_tasks_nil {set : IrobPrioritySet} (nothing : set.tasks = []) : set.pop = none := by
  unfold IrobPrioritySet.pop
  rw [nothing]

theorem goes_goes (state : SenderLoops) (csock : CSocketId) (first second : LoopStage)
    (holds holds' : Bool) :
    (state.goes csock first holds).goes csock second holds' = state.goes csock second holds' := by
  unfold goes
  rw [Function.update_idem]

/-- A part finds nothing where nothing is scheduled. -/
theorem take_none_of_unscheduled (indexes : (state.indexes csock level).Unscheduled)
    (changed : state.changedLocalIfaces.toList = []) (down : state.downLocalIfaces.toList = [])
    (straight : part.loops = false) : state.take csock level part = none := by
  unfold take
  cases part with
  | chunksOf => cases straight
  | endOf => cases straight
  | acks => exact Option.map_eq_none_iff.mpr (pop_of_tasks_nil (indexes .waitingAcks))
  | dataChecks => exact Option.map_eq_none_iff.mpr (pop_of_tasks_nil (indexes .waitingDataChecks))
  | newIrobs => exact Option.map_eq_none_iff.mpr (pop_of_tasks_nil (indexes .newIrobs))
  | newChunks => exact Option.map_eq_none_iff.mpr (pop_of_tasks_nil (indexes .newChunks))
  | finishedIrobs => exact Option.map_eq_none_iff.mpr (pop_of_tasks_nil (indexes .finishedIrobs))
  | resendRequests => exact Option.map_eq_none_iff.mpr (pop_of_tasks_nil (indexes .resendRequests))
  | changedIfaces => exact Option.map_eq_none_iff.mpr (KeyedSet.pop_eq_none.mpr changed)
  | downIfaces => exact Option.map_eq_none_iff.mpr (KeyedSet.pop_eq_none.mpr down)

/-- A thread that finds nothing passes all parts of a level. -/
theorem leads_level (indexes : (state.indexes csock level).Unscheduled)
    (changed : state.changedLocalIfaces.toList = []) (down : state.downLocalIfaces.toList = [])
    (again : Bool) :
    machine.Leads (state.goes csock (.scheduling again level .acks false) true)
      (state.goes csock (.proceeds again level false none) true) := by
  have one (part : WorkPart) (straight : part.loops = false) :
      machine.Leads (state.goes csock (.scheduling again level part false) true)
        (state.goes csock (.proceeds again level false part.next) true) := by
    have here : (state.goes csock (.scheduling again level part false) true).stages csock =
        .scheduling again level part false := Function.update_self ..
    have nothing : (state.goes csock (.scheduling again level part false) true).take csock level
        part = none := by
      refine take_none_of_unscheduled ?_ changed down straight
      cases level <;> exact indexes
    have moved : machine.step (state.goes csock (.scheduling again level part false) true)
        (.look csock) = some (state.goes csock (.proceeds again level false part.next) true) := by
      simp only [machine, step, here, SenderLoops.look, nothing, proceeds, goes_goes]
    exact .one trivial moved
  have last := one .downIfaces rfl
  have changed := (one .changedIfaces rfl).trans last
  have requests := (one .resendRequests rfl).trans changed
  have finished := (one .finishedIrobs rfl).trans requests
  have chunks := (one .newChunks rfl).trans finished
  have irobs := (one .newIrobs rfl).trans chunks
  have checks := (one .dataChecks rfl).trans irobs
  exact (one .acks rfl).trans checks

/-- A goodbye that is called while a thread fires thunks, with nothing scheduled and no IROBs, is
missed by the thread: it may wait then, with the goodbye unwritten. -/
theorem goodbye_slept_on (firing : state.stages csock = .firing)
    (free : state.schedulingLock = none) (calm : state.trickles csock = false)
    (csocket : (state.csockets csock).Unscheduled) (shared : state.SharedNothing)
    (outgoing : state.outgoing = []) (goesOn : state.shuttingDown = false) :
    ∃ after, machine.Leads state after ∧ after.stages csock = .asleep false ∧
      after.shuttingDown = true ∧ after.nothingToSend csock = true ∧
      after.goodbyeSent = state.goodbyeSent ∧
      ∀ other ≠ csock, after.stages other = (state.stages other).signalled := by
  let told := { state with shuttingDown := true }.broadcast
  have said : state.goodbye false false = { state with shuttingDown := true } := by
    unfold SenderLoops.goodbye
    rw [if_neg (by rw [goesOn]; exact Bool.false_ne_true)]
    simp only [Bool.or_false]
  have calls : machine.step state (.goodbye false false) = some told :=
    (if_pos free).trans (congrArg (some <| broadcast ·) said)
  have fires : machine.step told (.fired csock) =
      some (told.goes csock (.scheduling true .csocket .acks false) true) :=
    if_pos ⟨free, congrArg LoopStage.signalled firing⟩
  have own : (told.indexes csock .csocket).Unscheduled := csocket
  have all : (told.indexes csock .multisocket).Unscheduled := shared.multisocket
  have looks := (leads_level own shared.changed shared.down true).trans
    (leads_level all shared.changed shared.down true)
  have resting : (told.goes csock .resting true).stages csock = .resting :=
    Function.update_self ..
  let last := { told.goes csock .resting true with
    trickles := Function.update told.trickles csock (false && told.trickles csock)
    delegated := Function.update told.delegated csock [] }.goes csock
      (.asleep (false || told.trickles csock)) false
  have waits : machine.step (told.goes csock .resting true) (.rest csock false) = some last :=
    if_pos resting
  have leads : machine.Leads state last :=
    .tail ((Machine.Leads.tail (.one trivial calls) trivial fires).trans looks) trivial waits
  have nothing : last.SharedNothing := ⟨shared.multisocket, shared.changed, shared.down⟩
  have unwritten : last.nothingToSend csock = true :=
    nothingToSend_of_unscheduled csocket nothing outgoing
  have stage : last.stages csock = .asleep false :=
    (Function.update_self ..).trans (congrArg LoopStage.asleep calm)
  refine ⟨last, leads, stage, rfl, unwritten, rfl, fun other apart => ?_⟩
  exact (Function.update_of_ne apart ..).trans (Function.update_of_ne apart ..)

theorem goodbye_slept_on_alone : ∃ state : SenderLoops, machine.Reachable state ∧
    state.stages 1 = .asleep false ∧ state.shuttingDown = true ∧ state.nothingToSend 1 = true ∧
    state.goodbyeSent = false ∧ ∀ other ≠ 1, (state.stages other).attends = false := by
  obtain ⟨state, run, known⟩ := (Option.any_eq_true _ _).mp (show
    (((machine.restrict Heard).run initial ([.create 1, .connected 1, .test 1] ++
      List.replicate 16 (.look 1) ++ [.fire 1 false])).any fun state =>
        decide ((state.stages 1 = .firing ∧ state.schedulingLock = none ∧
          state.trickles 1 = false ∧ state.outgoing = [] ∧ state.shuttingDown = false ∧
          state.goodbyeSent = false ∧ state.created = [1]) ∧
          state.changedLocalIfaces.toList = [] ∧ state.downLocalIfaces.toList = [] ∧
          ∀ type ∈ WorkPart.passed .downIfaces, ((state.csockets 1).get type).tasks = [] ∧
            (state.multisocket.get type).tasks = [])) = true by decide +kernel)
  obtain ⟨⟨firing, free, calm, outgoing, goesOn, unwritten, created⟩, changed, down, sets⟩ :=
    of_decide_eq_true known
  have reached : (machine.restrict Heard).Reachable state := .run (.initial rfl) run
  have sets (type : IndexType) := sets type (WorkPart.mem_passed_downIfaces type)
  obtain ⟨after, leads, asleep, ends, nothing, goodbyeSent, others⟩ :=
    goodbye_slept_on firing free calm (fun type => (sets type).1)
      ⟨fun type => (sets type).2, changed, down⟩ outgoing goesOn
  refine ⟨after, leads.reachable reached.of_restrict, asleep, ends, nothing,
    goodbyeSent.trans unwritten, fun other apart => ?_⟩
  have absent : state.stages other = .absent := by
    by_contra there
    have member := (heeding_of_reachable reached).created other there
    rw [created] at member
    exact apart (List.mem_singleton.mp member)
  rw [others other apart, absent]
  rfl

end SenderLoops

end Libcmm
