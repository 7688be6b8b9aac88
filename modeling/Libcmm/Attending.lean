import Libcmm.SenderLoops

/-! # No work is slept on

A sender thread waits without a timeout only when it has found every index set empty without
giving up the lock. Whoever schedules work later tells it, apart from a thread that hands it a
resend request.
-/

namespace Libcmm

open Lib

/-! ### What a part has passed -/

/-- The set of a type. -/
def IrobSchedulingIndexes.get (indexes : IrobSchedulingIndexes) : IndexType → IrobPrioritySet
  | .newIrobs => indexes.newIrobs
  | .newChunks => indexes.newChunks
  | .finishedIrobs => indexes.finishedIrobs
  | .waitingAcks => indexes.waitingAcks
  | .resendRequests => indexes.resendRequests
  | .waitingDataChecks => indexes.waitingDataChecks

/-- Nothing is scheduled. -/
def IrobSchedulingIndexes.Unscheduled (indexes : IrobSchedulingIndexes) : Prop :=
  ∀ type, (indexes.get type).tasks = []

namespace WorkPart

/-- The part sends more of an IROB. -/
def loops : WorkPart → Bool
  | .chunksOf _ _ | .endOf _ _ => true
  | _ => false

/-- The set a part looks into first. -/
def set : WorkPart → Option IndexType
  | .acks => some .waitingAcks
  | .dataChecks => some .waitingDataChecks
  | .newIrobs => some .newIrobs
  | .newChunks => some .newChunks
  | .finishedIrobs => some .finishedIrobs
  | .resendRequests => some .resendRequests
  | .chunksOf _ _ | .endOf _ _ | .changedIfaces | .downIfaces => none

/-- The sets that come before a part. -/
def passed : WorkPart → List IndexType
  | .acks | .chunksOf _ _ | .endOf _ _ => []
  | .dataChecks => [.waitingAcks]
  | .newIrobs => [.waitingDataChecks, .waitingAcks]
  | .newChunks => [.newIrobs, .waitingDataChecks, .waitingAcks]
  | .finishedIrobs => [.newChunks, .newIrobs, .waitingDataChecks, .waitingAcks]
  | .resendRequests => [.finishedIrobs, .newChunks, .newIrobs, .waitingDataChecks, .waitingAcks]
  | .changedIfaces | .downIfaces =>
      [.resendRequests, .finishedIrobs, .newChunks, .newIrobs, .waitingDataChecks, .waitingAcks]

variable {part next : WorkPart} {type : IndexType}

/-- A set that is passed next is that of the part, or is passed. -/
theorem passed_next (straight : part.loops = false) (onward : part.next = some next)
    (member : type ∈ next.passed) : part.set = some type ∨ type ∈ part.passed := by
  cases part with
  | chunksOf => cases straight
  | endOf => cases straight
  | downIfaces => cases onward
  | changedIfaces =>
      cases onward
      exact .inr member
  | _ =>
      cases onward
      exact (List.mem_cons.mp member).imp (fun same => congrArg some same.symm) id

/-- At the end all sets are passed. -/
theorem passed_last (straight : part.loops = false) (onward : part.next = none) :
    part = .downIfaces := by
  cases part with
  | downIfaces => rfl
  | chunksOf => cases straight
  | endOf => cases straight
  | _ => cases onward

theorem mem_passed_downIfaces (type : IndexType) : type ∈ passed .downIfaces := by
  cases type <;> decide

theorem next_loops (straight : part.loops = false) (onward : part.next = some next) :
    next.loops = false := by
  cases part with
  | chunksOf => cases straight
  | endOf => cases straight
  | downIfaces => cases onward
  | _ =>
      cases onward
      rfl

end WorkPart

namespace SenderLoops

variable {state before after : SenderLoops} {event : LoopEvent} {csock other : CSocketId}
  {stage : LoopStage} {level : Level} {part : WorkPart} {item : WorkItem} {again did holds : Bool}

/-! ### What a thread relies on -/

/-- Nothing is scheduled for the multisocket. -/
structure SharedNothing (state : SenderLoops) : Prop where
  multisocket : state.multisocket.Unscheduled
  changed : state.changedLocalIfaces.toList = []
  down : state.downLocalIfaces.toList = []

/-- What a thread has found empty before it comes to a part, or to the end. -/
structure Past (state : SenderLoops) (csock : CSocketId) (level : Level)
    (part : Option WorkPart) : Prop where
  csocket : level = .multisocket → (state.csockets csock).Unscheduled
  sets : ∀ type, (∀ here ∈ part, type ∈ here.passed) →
    ((state.indexes csock level).get type).tasks = []
  changed : (∀ here ∈ part, here = .downIfaces) → state.changedLocalIfaces.toList = []
  down : part = none → state.downLocalIfaces.toList = []

/-- What a thread relies on at its stage. -/
def Fits (state : SenderLoops) (csock : CSocketId) : LoopStage → Prop
  | .testing | .parting => state.schedulingLock = some csock
  | .scheduling _ level part did =>
      state.schedulingLock = some csock ∧ (part.loops = true → did = true) ∧
        (did = false → state.trickles csock = false → state.Past csock level (some part))
  | .handling _ _ part did _ holds =>
      (holds = true → state.schedulingLock = some csock) ∧ (part.loops = true → did = true)
  | .idle | .resting =>
      state.schedulingLock = some csock ∧
        (state.trickles csock = false → (state.csockets csock).Unscheduled ∧ state.SharedNothing)
  | .asleep false =>
      (∀ type ≠ .resendRequests, ((state.csockets csock).get type).tasks = []) ∧
        ∀ request ∈ (state.csockets csock).resendRequests.tasks, request ∈ state.delegated csock
  | _ => True

/-- Some thread goes on without a signal. -/
def Attended (state : SenderLoops) : Prop := ∃ csock, (state.stages csock).attends = true

/-- Every thread is right, and if one waits then another attends to the work of the multisocket. -/
structure Sound (state : SenderLoops) : Prop where
  fits : ∀ csock, state.Fits csock (state.stages csock)
  attended : (∃ csock, state.stages csock = .asleep false) → state.SharedNothing ∨ state.Attended

/-- A thread that does not hold the lock relies on its own sets, while it waits. -/
theorem Fits.unlocked (fits : before.Fits other stage)
    (free : before.schedulingLock ≠ some other)
    (waits : before.Fits other (.asleep false) → after.Fits other (.asleep false)) :
    after.Fits other stage := by
  cases stage with
  | testing | parting => exact absurd fits free
  | scheduling | idle | resting => exact absurd fits.1 free
  | handling => exact ⟨fun held => absurd (fits.1 held) free, fits.2⟩
  | asleep timed =>
      cases timed with
      | false => exact waits fits
      | true => trivial
  | _ => trivial

/-- A signal finds a thread where it does not rely on its sets. -/
theorem Fits.signalled (fits : before.Fits other stage)
    (free : before.schedulingLock ≠ some other) : after.Fits other stage.signalled := by
  cases stage with
  | testing | parting => exact absurd fits free
  | scheduling | idle | resting => exact absurd fits.1 free
  | handling => exact ⟨fun held => absurd (fits.1 held) free, fits.2⟩
  | _ => trivial

/-- A thread that can take the lock, or has it, keeps others from it. -/
theorem lock_ne_of_mine
    (mine : state.schedulingLock = none ∨ state.schedulingLock = some csock)
    (apart : other ≠ csock) : state.schedulingLock ≠ some other := by
  intro held
  rcases mine with free | mine
  · cases free.symm.trans held
  · exact apart (Option.some.inj (held.symm.trans mine))

/-- One thread goes on. -/
theorem Sound.advance (sound : before.Sound)
    (mine : before.schedulingLock = none ∨ before.schedulingLock = some csock)
    (stages : after.stages = Function.update before.stages csock stage)
    (fits : after.Fits csock stage) (attends : stage.attends = true ∨ after.SharedNothing)
    (waits : ∀ other ≠ csock, before.Fits other (.asleep false) →
      after.Fits other (.asleep false)) :
    after.Sound where
  fits other := by
    rw [stages]
    by_cases same : other = csock
    · subst same
      rw [Function.update_self]
      exact fits
    · rw [Function.update_of_ne same]
      exact (sound.fits other).unlocked (lock_ne_of_mine mine same) (waits other same)
  attended _ := by
    refine attends.symm.imp id fun attends => ⟨csock, ?_⟩
    rw [stages, Function.update_self]
    exact attends

/-- One thread goes on, and does nothing else. -/
theorem Sound.goes (sound : state.Sound)
    (mine : state.schedulingLock = none ∨ state.schedulingLock = some csock)
    (fits : (state.goes csock stage holds).Fits csock stage) (attends : stage.attends = true) :
    (state.goes csock stage holds).Sound :=
  sound.advance mine rfl fits (.inl attends) fun _ _ => id

theorem broadcast_stages_ne_asleep {timed : Bool} :
    state.broadcast.stages csock ≠ .asleep timed := by
  dsimp only [broadcast]
  cases state.stages csock with
  | asleep | waitsGoodbye => exact LoopStage.noConfusion
  | _ => exact LoopStage.noConfusion

/-- All threads are told. -/
theorem Sound.told (fits : ∀ csock, after.broadcast.Fits csock (after.stages csock).signalled) :
    after.broadcast.Sound where
  fits := fits
  attended waits :=
    have ⟨_, asleep⟩ := waits
    absurd asleep broadcast_stages_ne_asleep

/-- Work is scheduled by another thread. -/
theorem Sound.posted (sound : before.Sound) (free : before.schedulingLock = none)
    (stages : after.stages = before.stages) : after.broadcast.Sound :=
  .told fun csock => by
    rw [stages]
    exact (sound.fits csock).signalled fun held => nomatch free.symm.trans held

/-- One thread goes on, and tells the others. -/
theorem Sound.tells (sound : before.Sound)
    (mine : before.schedulingLock = none ∨ before.schedulingLock = some csock)
    (stages : after.stages = Function.update before.stages csock stage)
    (fits : after.broadcast.Fits csock stage.signalled) : after.broadcast.Sound :=
  .told fun other => by
    rw [stages]
    by_cases same : other = csock
    · subst same
      rw [Function.update_self]
      exact fits
    · rw [Function.update_of_ne same]
      exact (sound.fits other).signalled (lock_ne_of_mine mine same)

/-! ### The parts of `schedule_work` -/

theorem tasks_of_pop_eq_none {set : IrobPrioritySet} (nothing : set.pop = none) :
    set.tasks = [] := by
  unfold IrobPrioritySet.pop at nothing
  split at nothing
  · assumption
  · cases nothing

/-- A part that takes nothing has found its set empty. -/
theorem tasks_of_take_none (nothing : state.take csock level part = none)
    (straight : part.loops = false) :
    (∀ type, part.set = some type → ((state.indexes csock level).get type).tasks = []) ∧
      (part = .changedIfaces → state.changedLocalIfaces.toList = []) ∧
      (part = .downIfaces → state.downLocalIfaces.toList = []) := by
  unfold take at nothing
  cases part with
  | chunksOf => cases straight
  | endOf => cases straight
  | changedIfaces =>
      exact ⟨nofun, fun _ => KeyedSet.pop_eq_none.mp (Option.map_eq_none_iff.mp nothing), nofun⟩
  | downIfaces =>
      exact ⟨nofun, nofun, fun _ => KeyedSet.pop_eq_none.mp (Option.map_eq_none_iff.mp nothing)⟩
  | _ =>
      refine ⟨fun type same => ?_, nofun, nofun⟩
      cases same
      exact tasks_of_pop_eq_none (Option.map_eq_none_iff.mp nothing)

/-- A part that has found nothing is passed. -/
theorem Past.next (past : state.Past csock level (some part)) (straight : part.loops = false)
    (nothing : state.take csock level part = none) : state.Past csock level part.next := by
  obtain ⟨own, changed, down⟩ := tasks_of_take_none nothing straight
  refine ⟨past.csocket, fun type member => ?_, fun last => ?_, fun last => ?_⟩
  · cases onward : part.next with
    | none =>
        cases WorkPart.passed_last straight onward
        exact past.sets type fun _ same =>
          Option.some.inj same ▸ WorkPart.mem_passed_downIfaces type
    | some next =>
        rcases WorkPart.passed_next straight onward (member next onward) with mine | passed
        · exact own type mine
        · exact past.sets type fun _ same => Option.some.inj same ▸ passed
  · cases onward : part.next with
    | none =>
        cases WorkPart.passed_last straight onward
        exact past.changed fun _ same => (Option.some.inj same).symm
    | some next =>
        refine changed ?_
        cases last next onward
        cases part with
        | changedIfaces => rfl
        | endOf _ begun => cases straight
        | _ => cases onward
  · exact down (WorkPart.passed_last straight last)

/-- A thread relies on what it has passed when it goes on in `schedule_work`. -/
theorem fits_proceeds {part : Option WorkPart} (held : state.schedulingLock = some csock)
    (looping : ∀ next ∈ part, next.loops = true → did = true)
    (past : did = false → state.trickles csock = false → state.Past csock level part) :
    state.Fits csock (.proceeds again level did part) := by
  cases part with
  | some part => exact ⟨held, looping part rfl, past⟩
  | none =>
      unfold LoopStage.proceeds
      cases did with
      | true => exact held
      | false =>
          cases level with
          | csocket =>
              refine ⟨held, nofun, fun _ calm => ⟨fun _ type => ?_, fun type here => ?_, ?_, nofun⟩⟩
              · exact (past rfl calm).sets type nofun
              · exact (List.not_mem_nil (here _ rfl)).elim
              · exact fun last => nomatch last _ rfl
          | multisocket =>
              have clear (calm : state.trickles csock = false) :
                  (state.csockets csock).Unscheduled ∧ state.SharedNothing :=
                have past := past rfl calm
                ⟨past.csocket rfl, fun type => past.sets type nofun, past.changed nofun,
                  past.down rfl⟩
              cases again with
              | false => exact ⟨held, clear⟩
              | true => exact ⟨held, clear⟩

/-- A thread changes sets, but not those of another csocket. -/
structure KeepsOthers (before after : SenderLoops) (csock : CSocketId) : Prop where
  stages : after.stages = before.stages
  schedulingLock : after.schedulingLock = before.schedulingLock
  csockets : ∀ other ≠ csock, after.csockets other = before.csockets other
  delegated : after.delegated = before.delegated

theorem keepsOthers_setIndexes (state : SenderLoops) (csock : CSocketId) (level : Level)
    (indexes : IrobSchedulingIndexes) :
    KeepsOthers state (state.setIndexes csock level indexes) csock := by
  cases level with
  | csocket => exact ⟨rfl, rfl, fun _ apart => Function.update_of_ne apart .., rfl⟩
  | multisocket => exact ⟨rfl, rfl, fun _ _ => rfl, rfl⟩

theorem keepsOthers_takeChunk (state : SenderLoops) (csock : CSocketId) (level : Level)
    (data : IrobSchedulingData) (rest : IrobPrioritySet) :
    KeepsOthers state (state.takeChunk csock level data rest).1 csock := by
  unfold takeChunk
  dsimp only
  split
  · exact keepsOthers_setIndexes ..
  · exact keepsOthers_setIndexes ..

theorem take_keepsOthers (taken : state.take csock level part = some (after, item)) :
    KeepsOthers state after csock := by
  unfold take at taken
  cases part with
  | chunksOf | newChunks =>
      obtain ⟨⟨data, rest⟩, -, same⟩ := Option.map_eq_some_iff.mp taken
      have kept := keepsOthers_takeChunk state csock level data rest
      dsimp only at same
      rwa [same] at kept
  | changedIfaces | downIfaces =>
      obtain ⟨popped, -, same⟩ := Option.map_eq_some_iff.mp taken
      cases same
      exact ⟨rfl, rfl, fun _ _ => rfl, rfl⟩
  | _ =>
      obtain ⟨popped, -, same⟩ := Option.map_eq_some_iff.mp taken
      cases same
      exact keepsOthers_setIndexes ..

theorem putBack_keepsOthers (state : SenderLoops) (csock : CSocketId) (level : Level)
    (item : WorkItem) : KeepsOthers state (state.putBack csock level item) csock := by
  cases item with
  | newIrob | chunk => exact keepsOthers_setIndexes ..
  | _ => exact ⟨rfl, rfl, fun _ _ => rfl, rfl⟩

theorem giveBack_stages (state : SenderLoops) (item : WorkItem) :
    (state.giveBack item).stages = state.stages := by
  cases item with
  | chunk data ack =>
      unfold giveBack
      dsimp only
      split
      · split
        · rfl
        · rfl
      · rfl
  | _ => rfl

theorem handOver_stages (state : SenderLoops) (csock : CSocketId) (successor : Successor) :
    (state.handOver csock successor).stages = state.stages := by
  cases successor with
  | nobody accepting => cases accepting <;> rfl
  | _ => rfl

/-- A thread waits with the sets it has. -/
theorem Fits.waits (fits : before.Fits other (.asleep false))
    (csockets : after.csockets other = before.csockets other)
    (delegated : after.delegated other = before.delegated other) :
    after.Fits other (.asleep false) := by
  unfold Fits at fits ⊢
  rw [csockets, delegated]
  exact fits

/-- A thread in `schedule_work` goes on. -/
theorem Sound.worked (sound : before.Sound) (kept : KeepsOthers before after csock)
    (mine : before.schedulingLock = some csock) (attends : stage.attends = true)
    (fits : (after.goes csock stage true).Fits csock stage) :
    (after.goes csock stage true).Sound := by
  have stages : (after.goes csock stage true).stages =
      Function.update before.stages csock stage := by
    rw [← kept.stages]
    rfl
  exact sound.advance (.inr mine) stages fits (.inl attends) fun other apart waits =>
    waits.waits (kept.csockets other apart) (congrFun kept.delegated other)

theorem attends_proceeds (again : Bool) (level : Level) (did : Bool) (part : Option WorkPart) :
    (LoopStage.proceeds again level did part).attends = true := by
  cases part with
  | some part => rfl
  | none =>
      cases did with
      | true => rfl
      | false =>
          cases level with
          | csocket => rfl
          | multisocket => cases again <;> rfl

/-- A thread looks for an item, and takes it or passes the part. -/
theorem Sound.look (sound : state.Sound)
    (here : state.stages csock = .scheduling again level part did) :
    (state.look csock again level part did).Sound := by
  obtain ⟨held, looping, past⟩ : state.Fits csock (.scheduling again level part did) :=
    here ▸ sound.fits csock
  unfold SenderLoops.look
  split
  next after item taken =>
    exact sound.worked (take_keepsOthers taken) held rfl ⟨fun _ => rfl, looping⟩
  next nothing =>
    have straight (undone : did = false) : part.loops = false := by
      by_contra loops
      exact nomatch undone.symm.trans (looping (Bool.eq_true_of_not_eq_false loops))
    refine sound.worked ⟨rfl, rfl, fun _ _ => rfl, rfl⟩ held (attends_proceeds ..)
      (fits_proceeds rfl (fun next onward loops => ?_) fun undone calm => ?_)
    · cases did with
      | true => rfl
      | false => exact nomatch (WorkPart.next_loops (straight rfl) onward).symm.trans loops
    · obtain ⟨csocket, sets, changed, down⟩ := (past undone calm).next (straight undone) nothing
      exact ⟨csocket, sets, changed, down⟩

/-! ### Steps -/

/-- A thread begins with the first part. -/
theorem past_first (state : SenderLoops) (csock : CSocketId) :
    state.Past csock .csocket (some .acks) where
  csocket := nofun
  sets _ here := (List.not_mem_nil (here _ rfl)).elim
  changed here := nomatch here _ rfl
  down := nofun

/-- What no thread relies on. -/
theorem Fits.keep (fits : state.Fits other stage) (receivers : CSocketId → Bool)
    (created : List CSocketId) (stages : CSocketId → LoopStage) :
    Fits { state with receivers := receivers, created := created, stages := stages }
      other stage := by
  cases stage with
  | scheduling =>
      exact ⟨fits.1, fits.2.1, fun undone calm =>
        have past := fits.2.2 undone calm
        ⟨past.csocket, past.sets, past.changed, past.down⟩⟩
  | idle | resting =>
      exact ⟨fits.1, fun calm =>
        have ⟨csocket, shared⟩ := fits.2 calm
        ⟨csocket, shared.multisocket, shared.changed, shared.down⟩⟩
  | asleep timed => cases timed <;> exact fits
  | _ => exact fits

/-- A thread goes on, and attends then, or it neither did so before nor waits. -/
theorem attended_update {next : LoopStage} {calm : Prop}
    (attends : next.attends = true ∨
      next ≠ .asleep false ∧ (state.stages csock).attends = false)
    (attended : (∃ other, state.stages other = .asleep false) → calm ∨ state.Attended)
    (waits : ∃ other, Function.update state.stages csock next other = .asleep false) :
    calm ∨ ∃ other, (Function.update state.stages csock next other).attends = true := by
  rcases attends with attends | ⟨awake, idle⟩
  · refine .inr ⟨csock, ?_⟩
    rw [Function.update_self]
    exact attends
  · obtain ⟨other, asleep⟩ := waits
    have apart : other ≠ csock := by
      rintro rfl
      rw [Function.update_self] at asleep
      exact awake asleep
    rw [Function.update_of_ne apart] at asleep
    refine (attended ⟨other, asleep⟩).imp id fun ⟨third, attends⟩ => ⟨third, ?_⟩
    rw [Function.update_of_ne]
    · exact attends
    · rintro rfl
      exact Bool.noConfusion (idle.symm.trans attends)

/-- A thread goes on that has nothing to do with the lock. -/
theorem Sound.moves (sound : state.Sound) (csock : CSocketId) (next : LoopStage)
    (attends : next.attends = true ∨
      next ≠ .asleep false ∧ (state.stages csock).attends = false)
    (fits : ∀ after : SenderLoops, after.Fits csock next)
    (receivers : CSocketId → Bool) (created : List CSocketId) :
    Sound { state with
      receivers := receivers
      created := created
      stages := Function.update state.stages csock next } where
  fits other := by
    dsimp only
    by_cases same : other = csock
    · subst same
      rw [Function.update_self]
      exact fits _
    · rw [Function.update_of_ne same]
      exact (sound.fits other).keep ..
  attended waits := (attended_update attends sound.attended waits).imp
    (fun shared => ⟨shared.multisocket, shared.changed, shared.down⟩) id

/-- An IROB is removed, and nobody is told. -/
theorem Sound.removed (sound : state.Sound) (free : state.schedulingLock = none)
    (outgoing : List IrobId) : Sound { state with outgoing := outgoing } where
  fits csock := (sound.fits csock).unlocked (fun held => nomatch free.symm.trans held) id
  attended waits := (sound.attended waits).imp
    (fun shared => ⟨shared.multisocket, shared.changed, shared.down⟩) id

theorem stages_eq_update (here : state.stages csock = stage) :
    state.stages = Function.update state.stages csock stage := by
  rw [← here, Function.update_eq_self]

/-- A thread at the beginning of the loop. -/
theorem Sound.test (sound : state.Sound) (here : state.stages csock = .testing) :
    (state.test csock).Sound := by
  have held : state.Fits csock .testing := here ▸ sound.fits csock
  unfold SenderLoops.test
  split_ifs
  · exact sound.advance (.inr held) rfl trivial (.inl rfl) fun _ _ => id
  · exact sound.goes (.inr held) rfl rfl
  · exact sound.goes (.inr held) ⟨rfl, nofun, fun _ _ => past_first _ csock⟩ rfl
  · exact sound.goes (.inr held) trivial rfl
  · exact sound.goes (.inr held) trivial rfl

/-- A request that is delegated is recorded. -/
theorem Fits.delegate (fits : before.Fits other (.asleep false)) (data : IrobSchedulingData) :
    Fits { before with
      csockets := Function.update before.csockets other
        ((before.csockets other).insert data .resendRequests)
      delegated := Function.update before.delegated other (data :: before.delegated other) }
        other (.asleep false) := by
  unfold Fits at fits ⊢
  dsimp only
  rw [Function.update_self, Function.update_self]
  refine ⟨fun type apart => ?_, fun request member => ?_⟩
  · have empty := fits.1 type apart
    cases type with
    | resendRequests => exact absurd rfl apart
    | _ => exact empty
  · rcases IrobPrioritySet.mem_place member with rfl | old
    · exact List.mem_cons_self
    · exact List.mem_cons_of_mem _ (fits.2 request old)

/-- A thread that handles an item schedules work. -/
theorem Sound.hand (sound : state.Sound)
    (here : state.stages csock = .handling again level part did item true)
    (target : Option CSocketId) (data : IrobSchedulingData) (type : IndexType) :
    (state.hand csock target data type).Sound := by
  have fits : state.Fits csock (.handling again level part did item true) :=
    here ▸ sound.fits csock
  unfold SenderLoops.hand
  cases target with
  | none => exact sound.tells (.inr (fits.1 rfl)) (stages_eq_update here) fits
  | some target =>
      dsimp only
      split_ifs with own request
      · subst own
        exact sound.advance (.inr (fits.1 rfl)) (stages_eq_update here) fits (.inl rfl)
          fun other apart waits => waits.waits (Function.update_of_ne apart ..) rfl
      · subst request
        refine sound.advance (.inr (fits.1 rfl)) (stages_eq_update here) fits (.inl rfl)
          fun other apart waits => ?_
        by_cases same : other = target
        · subst same
          exact waits.delegate data
        · exact waits.waits (Function.update_of_ne same ..) (Function.update_of_ne same ..)
      · exact sound.tells (.inr (fits.1 rfl)) (stages_eq_update here) fits

/-- An item was sent, or refused. -/
theorem Sound.handled (sound : before.Sound)
    (here : before.stages csock = .handling again level part did item true)
    (kept : KeepsOthers before after csock) {now : Bool} {next : Option WorkPart}
    (looping : ∀ part ∈ next, part.loops = true → now = true)
    (busy : now = true ∨ after.trickles csock = true) :
    (after.proceeds csock again level now next).Sound := by
  have fits : before.Fits csock (.handling again level part did item true) :=
    here ▸ sound.fits csock
  refine sound.worked kept (fits.1 rfl) (attends_proceeds ..)
    (fits_proceeds rfl looping fun undone calm => ?_)
  rcases busy with done | trickles
  · exact nomatch undone.symm.trans done
  · exact nomatch calm.symm.trans trickles

/-- A thread that has found nothing waits. -/
theorem Sound.rest (sound : state.Sound) (here : state.stages csock = .resting) (polls : Bool) :
    Sound ({ state with
      trickles := Function.update state.trickles csock (polls && state.trickles csock)
      delegated := Function.update state.delegated csock [] }.goes csock
        (.asleep (polls || state.trickles csock)) false) := by
  obtain ⟨held, clear⟩ : state.Fits csock .resting := here ▸ sound.fits csock
  have waits : ∀ other ≠ csock, state.Fits other (.asleep false) →
      Fits ({ state with
        trickles := Function.update state.trickles csock (polls && state.trickles csock)
        delegated := Function.update state.delegated csock [] }.goes csock
          (.asleep (polls || state.trickles csock)) false) other (.asleep false) :=
    fun other apart waits => waits.waits rfl (Function.update_of_ne apart ..)
  cases timed : polls || state.trickles csock with
  | true =>
      rw [timed] at waits
      exact sound.advance (.inr held) rfl trivial (.inl rfl) waits
  | false =>
      obtain ⟨csocket, shared⟩ := clear (Bool.or_eq_false_iff.mp timed).2
      rw [timed] at waits
      refine sound.advance (.inr held) rfl ⟨fun type _ => csocket type, fun request member => ?_⟩
        (.inr ⟨shared.multisocket, shared.changed, shared.down⟩) waits
      have none' : (state.csockets csock).resendRequests.tasks = [] := csocket .resendRequests
      exact (List.not_mem_nil (none' ▸ member)).elim

theorem Sound.step_create (sound : before.Sound)
    (moved : before.step (.create csock) = some after) : after.Sound := by
  dsimp only [step] at moved
  split_ifs at moved with absent
  cases moved
  refine sound.moves csock .connecting (.inr ⟨LoopStage.noConfusion, ?_⟩) (fun _ => trivial) _ _
  rw [absent]
  rfl

theorem Sound.step_connected (sound : before.Sound)
    (moved : before.step (.connected csock) = some after) : after.Sound := by
  dsimp only [step] at moved
  split_ifs at moved with enabled
  cases moved
  exact sound.goes (.inl enabled.1) rfl rfl

theorem Sound.step_connectFails {refused : Bool} (sound : before.Sound)
    (moved : before.step (.connectFails csock refused) = some after) : after.Sound := by
  dsimp only [step] at moved
  split_ifs at moved with enabled
  · cases moved
    exact sound.tells (.inl enabled.1) rfl trivial
  · cases moved
    exact sound.goes (.inl enabled.1) trivial rfl

theorem Sound.step_test (sound : before.Sound) (moved : before.step (.test csock) = some after) :
    after.Sound := by
  dsimp only [step] at moved
  split_ifs at moved with here
  cases moved
  exact sound.test here

theorem Sound.step_goodbyeWritten {ok : Bool} (sound : before.Sound)
    (moved : before.step (.goodbyeWritten csock ok) = some after) : after.Sound := by
  dsimp only [step] at moved
  split_ifs at moved with enabled
  · cases moved
    exact sound.tells (.inl enabled.1) rfl rfl
  · cases moved
    exact sound.tells (.inl enabled.1) rfl trivial

theorem Sound.step_part (sound : before.Sound) (moved : before.step (.part csock) = some after) :
    after.Sound := by
  dsimp only [step] at moved
  split_ifs at moved with here
  · cases moved
    have held : before.Fits csock .parting := here ▸ sound.fits csock
    exact sound.goes (.inr held) trivial rfl
  · cases moved
    have held : before.Fits csock .parting := here ▸ sound.fits csock
    exact sound.goes (.inr held) trivial rfl

theorem Sound.step_partingTimesOut (sound : before.Sound)
    (moved : before.step (.partingTimesOut csock) = some after) : after.Sound := by
  dsimp only [step] at moved
  split_ifs at moved with enabled
  cases moved
  exact sound.goes (.inl enabled.1) trivial rfl

theorem Sound.step_look (sound : before.Sound) (moved : before.step (.look csock) = some after) :
    after.Sound := by
  dsimp only [step] at moved
  split at moved
  next here =>
    cases moved
    exact sound.look here
  next => cases moved

theorem Sound.step_unlock (sound : before.Sound)
    (moved : before.step (.unlock csock) = some after) : after.Sound := by
  dsimp only [step] at moved
  split at moved
  next here =>
    cases moved
    have fits : before.Fits csock (.handling _ _ _ _ _ true) := here ▸ sound.fits csock
    exact sound.goes (.inr (fits.1 rfl)) ⟨nofun, fits.2⟩ rfl
  next => cases moved

theorem Sound.step_lock (sound : before.Sound) (moved : before.step (.lock csock) = some after) :
    after.Sound := by
  dsimp only [step] at moved
  split at moved
  next here =>
    split_ifs at moved with free
    cases moved
    have fits : before.Fits csock (.handling _ _ _ _ _ false) := here ▸ sound.fits csock
    exact sound.goes (.inl free) ⟨fun _ => rfl, fits.2⟩ rfl
  next => cases moved

theorem Sound.step_hand {target : Option CSocketId} {data : IrobSchedulingData}
    {type : IndexType} (sound : before.Sound)
    (moved : before.step (.hand csock target data type) = some after) : after.Sound := by
  dsimp only [step] at moved
  split at moved
  next here =>
    cases moved
    exact sound.hand here target data type
  next => cases moved

theorem Sound.step_drop {ids : List IrobId} (sound : before.Sound)
    (moved : before.step (.drop csock ids) = some after) : after.Sound := by
  dsimp only [step] at moved
  split at moved
  next here =>
    cases moved
    have fits : before.Fits csock (.handling _ _ _ _ _ true) := here ▸ sound.fits csock
    exact sound.advance (.inr (fits.1 rfl)) (stages_eq_update here) fits (.inl rfl)
      fun _ _ => id
  next => cases moved

theorem Sound.step_sent (sound : before.Sound) (moved : before.step (.sent csock) = some after) :
    after.Sound := by
  dsimp only [step] at moved
  split at moved
  next here =>
    cases moved
    exact sound.handled here ⟨rfl, rfl, fun _ _ => rfl, rfl⟩ (fun _ _ _ => rfl) (.inl rfl)
  next => cases moved

theorem Sound.step_refused (sound : before.Sound)
    (moved : before.step (.refused csock) = some after) : after.Sound := by
  dsimp only [step] at moved
  split at moved
  next again level part did item here =>
    split_ifs at moved
    cases moved
    have fits : before.Fits csock (.handling again level part did item true) :=
      here ▸ sound.fits csock
    have back := putBack_keepsOthers before csock level item
    have kept : KeepsOthers before { before.putBack csock level item with
        trickles := Function.update before.trickles csock true } csock :=
      ⟨back.stages, back.schedulingLock, back.csockets, back.delegated⟩
    refine sound.handled here kept (fun next onward loops => ?_)
      (.inr (Function.update_self ..))
    refine fits.2 (Bool.eq_true_of_not_eq_false fun straight => ?_)
    exact nomatch (WorkPart.next_loops straight onward).symm.trans loops
  next => cases moved

theorem Sound.step_unsent (sound : before.Sound)
    (moved : before.step (.unsent csock) = some after) : after.Sound := by
  dsimp only [step] at moved
  split at moved
  next here =>
    cases moved
    have fits : before.Fits csock (.handling _ _ _ _ _ true) := here ▸ sound.fits csock
    have stages := congrArg (Function.update · csock LoopStage.thrown)
      (giveBack_stages before ‹WorkItem›)
    exact sound.tells (.inr (fits.1 rfl)) stages trivial
  next => cases moved

theorem Sound.step_fire {unsentBytes : Bool} (sound : before.Sound)
    (moved : before.step (.fire csock unsentBytes) = some after) : after.Sound := by
  dsimp only [step] at moved
  split_ifs at moved with here
  · cases moved
    have fits : before.Fits csock .idle := here ▸ sound.fits csock
    exact sound.goes (.inr fits.1) trivial rfl
  · cases moved
    obtain ⟨held, clear⟩ : before.Fits csock .idle := here ▸ sound.fits csock
    exact sound.goes (.inr held) ⟨rfl, fun calm =>
      have ⟨csocket, shared⟩ := clear calm
      ⟨csocket, shared.multisocket, shared.changed, shared.down⟩⟩ rfl

theorem Sound.step_fired (sound : before.Sound)
    (moved : before.step (.fired csock) = some after) : after.Sound := by
  dsimp only [step] at moved
  split_ifs at moved with enabled
  cases moved
  exact sound.goes (.inl enabled.1) ⟨rfl, nofun, fun _ _ => past_first _ csock⟩ rfl

theorem Sound.step_rest {polls : Bool} (sound : before.Sound)
    (moved : before.step (.rest csock polls) = some after) : after.Sound := by
  dsimp only [step] at moved
  split_ifs at moved with here
  cases moved
  exact sound.rest here polls

theorem Sound.step_wake (sound : before.Sound) (moved : before.step (.wake csock) = some after) :
    after.Sound := by
  dsimp only [step] at moved
  split at moved
  · cases moved
    exact sound.moves csock .woken (.inl rfl) (fun _ => trivial) _ _
  · cases moved
    exact sound.moves csock .woken (.inl rfl) (fun _ => trivial) _ _
  · cases moved

theorem Sound.step_resume (sound : before.Sound)
    (moved : before.step (.resume csock) = some after) : after.Sound := by
  dsimp only [step] at moved
  split_ifs at moved with enabled
  cases moved
  exact sound.goes (.inl enabled.1) rfl rfl

theorem Sound.step_handOver {successor : Successor} (sound : before.Sound)
    (moved : before.step (.handOver csock successor) = some after) : after.Sound := by
  dsimp only [step] at moved
  split_ifs at moved with enabled
  cases moved
  have stages := congrArg (Function.update · csock LoopStage.leaving)
    (handOver_stages before csock successor)
  exact sound.tells (.inl enabled.1) stages trivial

theorem Sound.step_finish (sound : before.Sound)
    (moved : before.step (.finish csock) = some after) : after.Sound := by
  dsimp only [step] at moved
  split_ifs at moved with enabled
  cases moved
  exact sound.tells (.inl enabled.1) rfl trivial

theorem Sound.step_post {target : Option CSocketId} {data : IrobSchedulingData}
    {type : IndexType} (sound : before.Sound)
    (moved : before.step (.post target data type) = some after) : after.Sound := by
  dsimp only [step] at moved
  split_ifs at moved with free
  cases moved
  refine sound.posted free ?_
  cases target <;> rfl

theorem Sound.step_update {iface : NetInterface} {down : Bool} (sound : before.Sound)
    (moved : before.step (.update iface down) = some after) : after.Sound := by
  dsimp only [step] at moved
  split_ifs at moved with free
  · cases moved
    exact sound.posted free rfl
  · cases moved
    exact sound.posted free rfl

theorem Sound.step_insertIrob {target : Option CSocketId} {data : IrobSchedulingData}
    (sound : before.Sound) (moved : before.step (.insertIrob target data) = some after) :
    after.Sound := by
  dsimp only [step] at moved
  split_ifs at moved with free
  cases moved
  refine sound.posted free ?_
  cases target <;> rfl

theorem Sound.step_acked {id : IrobId} (sound : before.Sound)
    (moved : before.step (.acked id) = some after) : after.Sound := by
  dsimp only [step] at moved
  split_ifs at moved with free
  · cases moved
    exact sound.posted free rfl
  · cases moved
    exact sound.removed free _

theorem Sound.step_endFails {id : IrobId} (sound : before.Sound)
    (moved : before.step (.endFails id) = some after) : after.Sound := by
  dsimp only [step] at moved
  split_ifs at moved with free
  cases moved
  exact sound.removed free _

theorem Sound.step_goodbye {remoteInitiated : Bool} {hosed : Bool} (sound : before.Sound)
    (moved : before.step (.goodbye remoteInitiated hosed) = some after) : after.Sound := by
  dsimp only [step] at moved
  split_ifs at moved with free
  cases moved
  refine sound.posted free ?_
  unfold SenderLoops.goodbye
  split_ifs <;> rfl

theorem Sound.step_goodbyeAcked (sound : before.Sound)
    (moved : before.step .goodbyeAcked = some after) : after.Sound := by
  dsimp only [step] at moved
  split_ifs at moved with enabled
  cases moved
  exact sound.posted enabled.1 rfl

theorem Sound.step_receiverFinishes (sound : before.Sound)
    (moved : before.step (.receiverFinishes csock) = some after) : after.Sound := by
  dsimp only [step] at moved
  split_ifs at moved with free
  cases moved
  exact sound.posted free rfl

theorem sound_step (sound : before.Sound) (moved : before.step event = some after) :
    after.Sound := by
  cases event with
  | create csock => exact sound.step_create moved
  | connected csock => exact sound.step_connected moved
  | connectFails csock refused => exact sound.step_connectFails moved
  | test csock => exact sound.step_test moved
  | goodbyeWritten csock ok => exact sound.step_goodbyeWritten moved
  | part csock => exact sound.step_part moved
  | partingTimesOut csock => exact sound.step_partingTimesOut moved
  | look csock => exact sound.step_look moved
  | unlock csock => exact sound.step_unlock moved
  | lock csock => exact sound.step_lock moved
  | hand csock target data type => exact sound.step_hand moved
  | drop csock ids => exact sound.step_drop moved
  | sent csock => exact sound.step_sent moved
  | refused csock => exact sound.step_refused moved
  | unsent csock => exact sound.step_unsent moved
  | fire csock unsentBytes => exact sound.step_fire moved
  | fired csock => exact sound.step_fired moved
  | rest csock polls => exact sound.step_rest moved
  | wake csock => exact sound.step_wake moved
  | resume csock => exact sound.step_resume moved
  | handOver csock successor => exact sound.step_handOver moved
  | finish csock => exact sound.step_finish moved
  | post target data type => exact sound.step_post moved
  | update iface down => exact sound.step_update moved
  | insertIrob target data => exact sound.step_insertIrob moved
  | acked id => exact sound.step_acked moved
  | endFails id => exact sound.step_endFails moved
  | goodbye remoteInitiated hosed => exact sound.step_goodbye moved
  | goodbyeAcked => exact sound.step_goodbyeAcked moved
  | receiverFinishes csock => exact sound.step_receiverFinishes moved

theorem sound_of_reachable (reached : machine.Reachable state) : state.Sound := by
  refine reached.induct (fun first start => ?_) fun _ _ _ _ sound _ moved => sound_step sound moved
  cases start
  exact ⟨fun _ => trivial, fun ⟨_, asleep⟩ => nomatch asleep⟩

/-- A thread that waits without a timeout, and was not told since, has nothing to do: the sets of
its csocket are empty, apart from resend requests that were handed to it while it waits, and the
sets of the multisocket are empty, or another thread goes on. -/
theorem nothing_slept_on (reached : machine.Reachable state)
    (asleep : state.stages csock = .asleep false) :
    (∀ type ≠ .resendRequests, ((state.csockets csock).get type).tasks = []) ∧
      (∀ request ∈ (state.csockets csock).resendRequests.tasks,
        request ∈ state.delegated csock) ∧
      ((∀ type, (state.multisocket.get type).tasks = []) ∧
          state.changedLocalIfaces.toList = [] ∧ state.downLocalIfaces.toList = [] ∨
        ∃ other ≠ csock, (state.stages other).attends = true) := by
  have sound := sound_of_reachable reached
  have fits : state.Fits csock (.asleep false) := asleep ▸ sound.fits csock
  refine ⟨fits.1, fits.2, (sound.attended ⟨csock, asleep⟩).imp
    (fun shared => ⟨shared.multisocket, shared.changed, shared.down⟩) fun attended => ?_⟩
  obtain ⟨other, attends⟩ := attended
  refine ⟨other, fun same => ?_, attends⟩
  rw [same, asleep] at attends
  cases attends

theorem nothing_slept_on_fired : ∃ state : SenderLoops, machine.Reachable state ∧
    state.stages 1 = .asleep false ∧ state.outgoing = [7] ∧
    (∀ type ≠ .resendRequests, ((state.csockets 1).get type).tasks = []) := by
  -- work that comes while the thread fires thunks is found when it looks again
  obtain ⟨state, run, known⟩ := (Option.any_eq_true _ _).mp (show
    ((machine.run initial ([.create 1, .connected 1, .test 1] ++ List.replicate 16 (.look 1) ++
      [.fire 1 false, .insertIrob (some 1) (.work 7 false 0), .fired 1] ++
      List.replicate 3 (.look 1) ++ [.sent 1] ++ List.replicate 7 (.look 1) ++ [.test 1] ++
      List.replicate 16 (.look 1) ++ [.fire 1 false, .fired 1] ++ List.replicate 16 (.look 1) ++
      [.rest 1 false])).any fun state =>
        decide (state.stages 1 = .asleep false ∧ state.outgoing = [7])) = true by decide +kernel)
  obtain ⟨asleep, outgoing⟩ := of_decide_eq_true known
  have reached : machine.Reachable state := .run (.initial rfl) run
  exact ⟨state, reached, asleep, outgoing, (nothing_slept_on reached asleep).1⟩

end SenderLoops

end Libcmm
