import Libcmm.Arrivals
import Libcmm.ReceiverRuns
import Libcmm.Release

/-! # The receiving side under any messages

Messages about identifiers in range arrive whether or not they fit together. A handler either
fails an `ASSERT`, which ends the run, or leaves a lattice in which `recv` finds its way: every
pending IROB is stored as it arrived or is being read from the front, the ready ones are
released, and the released ones are in `ready_irobs` or partially read.
-/

namespace Libcmm

open Lib

/-- The identifiers that a message names are in range, and its sequence number is a word. -/
def Message.OnWire (message : Message) : Prop :=
  message.IdsInRange ∧ match message with
    | .irobChunk _ seqno _ _ => seqno < 2 ^ 32
    | _ => True

instance : DecidablePred Message.OnWire
  | .beginIrob _ _ _ => inferInstanceAs (Decidable (Message.IdsInRange _ ∧ True))
  | .irobChunk _ seqno _ _ => inferInstanceAs (Decidable (Message.IdsInRange _ ∧ seqno < 2 ^ 32))
  | .endIrob _ _ _ => inferInstanceAs (Decidable (Message.IdsInRange _ ∧ True))

namespace ReceiverIrob

/-- Nothing has been read of an IROB, or it is real and is read from the front. -/
inductive Stored (irob : ReceiverIrob) : Prop where
  | gathering {received : List Nat} : Gathering received irob → Stored irob
  | reading {content : IrobContent} {taken : List Byte} : irob.placeholder = false →
      Reading content taken irob → Stored irob

variable {irob next : ReceiverIrob} {message : Message}

namespace Stored

theorem holder (id : IrobId) : Stored (makePlaceholder id : ReceiverIrob) :=
  .gathering (.fresh rfl rfl)

theorem congr (stored : Stored irob) (same : SameData next irob) : Stored next := by
  cases stored with
  | gathering gathering =>
      refine .gathering (gathering.congr same.chunks ?_)
      rw [same.own]
  | reading real reading =>
      exact .reading (same.placeholder.trans real)
        (reading.congr same.chunks same.complete same.own)

/-- A complete IROB is read as a stream. -/
theorem toReading (stored : Stored irob) (complete : irob.isComplete = some true) :
    ∃ content taken, Reading content taken irob := by
  cases stored with
  | gathering gathering => exact ⟨_, _, (gathering.reading complete).1⟩
  | reading _ reading => exact ⟨_, _, reading⟩

/-- An IROB that takes a message has not been read, or stays as it is. -/
theorem takes {past : IntSet} (stored : Stored irob) (onWire : message.OnWire)
    (taking : Takes past irob message next) : Stored next := by
  cases stored with
  | reading real reading =>
      have complete := reading.isComplete_eq
      cases taking with
      | begun holder _ => cases real.symm.trans holder
      | chunk _ added =>
          rcases addChunk_cases added with same | ⟨-, incomplete, -⟩
          · rw [show next = irob from same]
            exact .reading real reading
          · cases complete.symm.trans incomplete
      | ended finished =>
          rcases finish_cases finished with same | ⟨incomplete, -⟩
          · rw [show next = irob from same]
            exact .reading real reading
          · cases complete.symm.trans incomplete
  | gathering gathering =>
      cases taking with
      | @begun id deps sendLabels merged _ merging =>
          obtain ⟨dependents, shape⟩ := linked_cases past merged
          rw [shape]
          exact .gathering ((gathering.subsume merging).congr rfl rfl)
      | chunk nonempty added =>
          exact .gathering (gathering.addChunk rfl rfl nonempty onWire.2 added)
      | ended finished => exact .gathering (gathering.finish finished)

end Stored

/-- A ready IROB ignores what still arrives of it. -/
theorem Takes.eq_of_ready {past : IntSet} (taking : Takes past irob message next)
    (ready : Ready irob) : next = irob := by
  cases taking with
  | begun holder _ => cases ready.1.symm.trans holder
  | chunk _ added =>
      rcases addChunk_cases added with same | ⟨-, incomplete, -⟩
      · exact same
      · cases ready.2.1.symm.trans incomplete
  | ended finished =>
      rcases finish_cases finished with same | ⟨incomplete, -⟩
      · exact same
      · cases ready.2.1.symm.trans incomplete

/-- No message releases an IROB by itself. -/
theorem Stored.released_of_takes {past : IntSet} (stored : Stored irob)
    (taking : Takes past irob message next) (flag : next.own.released = true) :
    irob.own.released = true := by
  cases taking with
  | @begun id deps sendLabels merged holder merging =>
      obtain ⟨dependents, shape⟩ := linked_cases past merged
      rw [shape] at flag
      cases stored with
      | reading real _ => cases real.symm.trans holder
      | gathering gathering =>
          obtain ⟨filled, filling, -, -, -, own⟩ :=
            @subsume_begun irob id deps sendLabels gathering.holes gathering.last
              fun seqno chunk held => (gathering.placed seqno chunk held).1
          cases filling.symm.trans merging
          simp only at flag
          rw [own] at flag
          cases flag
  | chunk _ added =>
      rcases addChunk_cases added with same | ⟨-, -, -, shape⟩
      · rwa [show next = irob from same] at flag
      · rwa [show next = _ from shape] at flag
  | ended finished => rwa [finish_released finished] at flag

end ReceiverIrob

namespace ReceiverLattice

open ReceiverIrob

/-- A task names an IROB that is ready and released, or that has been delivered. -/
def Serves (irobs : IrobLattice ReceiverPart) (id : IrobId) : Prop :=
  (irobs.find id = none ∧ irobs.pastIrobs.contains id = true) ∨
    ∃ irob, irobs.find id = some irob ∧ Ready irob ∧ irob.own.released = true

/-- The invariant of the receiving side: `unsettled` are the IROBs that may have become ready
without having been released, and `hand` is the one that `recv` has taken. -/
structure Steady (unsettled : IrobId → Prop) (hand : Option IrobId) (state : ReceiverLattice) :
    Prop where
  wf : state.irobs.WellFormed
  stored : ∀ (id : IrobId) (irob : ReceiverIrob), id.InRange → state.irobs.find id = some irob →
    Stored irob ∧ irob.isComplete.isSome = true
  tasks : ∀ task ∈ state.readyIrobs.tasks, task.id.InRange ∧ Serves state.irobs task.id
  half : ∀ id, state.partiallyReadIrob = some id → id.InRange ∧
    ∃ irob, state.irobs.find id = some irob ∧ Ready irob
  queued : ∀ (id : IrobId) (irob : ReceiverIrob), id.InRange → state.irobs.find id = some irob →
    irob.own.released = true →
      id ∈ state.readyIds ∨ state.partiallyReadIrob = some id ∨ hand = some id
  settled : ∀ (id : IrobId) (irob : ReceiverIrob), id.InRange →
    state.irobs.find id = some irob → Ready irob →
    irob.own.released = true ∨ unsettled id

/-- The pending IROBs change, and none that is ready is lost. -/
structure Carries (before after : IrobLattice ReceiverPart) : Prop where
  wf : after.WellFormed
  stored : ∀ (id : IrobId) (irob : ReceiverIrob), id.InRange → after.find id = some irob →
    Stored irob ∧ irob.isComplete.isSome = true
  past : after.pastIrobs = before.pastIrobs
  gone : ∀ id : IrobId, id.InRange → before.find id = none →
    before.pastIrobs.contains id = true → after.find id = none
  kept : ∀ (id : IrobId) (irob : ReceiverIrob), id.InRange →
    before.find id = some irob → Ready irob →
    ∃ later, after.find id = some later ∧ Ready later ∧
      (irob.own.released = true → later.own.released = true)
  flagged : ∀ (id : IrobId) (irob : ReceiverIrob), id.InRange → after.find id = some irob →
    irob.own.released = true → ∃ earlier, before.find id = some earlier ∧
      earlier.own.released = true

variable {state next : ReceiverLattice} {unsettled settling : IrobId → Prop}
  {hand : Option IrobId} {id : IrobId} {irob : ReceiverIrob} {irobs : IrobLattice ReceiverPart}

namespace Steady

theorem weaken (steady : Steady unsettled hand state)
    (implies : ∀ id, unsettled id → settling id) : Steady settling hand state :=
  ⟨steady.wf, steady.stored, steady.tasks, steady.half, steady.queued,
    fun id irob inRange found ready =>
      (steady.settled id irob inRange found ready).imp_right (implies id)⟩

/-- The IROBs change under the same tasks. -/
theorem carry (steady : Steady unsettled hand state) (carries : Carries state.irobs irobs)
    (settled : ∀ (id : IrobId) (irob : ReceiverIrob), id.InRange →
      irobs.find id = some irob → Ready irob →
      irob.own.released = true ∨ settling id) :
    Steady settling hand { state with irobs := irobs } := by
  refine ⟨carries.wf, carries.stored, fun task member => ?_, fun id half => ?_,
    fun id irob inRange found flag => ?_, settled⟩
  · obtain ⟨inRange, serves⟩ := steady.tasks task member
    refine ⟨inRange, ?_⟩
    rcases serves with ⟨absent, past⟩ | ⟨irob, found, ready, flag⟩
    · exact .inl ⟨carries.gone task.id inRange absent past, carries.past ▸ past⟩
    · obtain ⟨later, laterFound, laterReady, still⟩ := carries.kept _ irob inRange found ready
      exact .inr ⟨later, laterFound, laterReady, still flag⟩
  · obtain ⟨inRange, irob, found, ready⟩ := steady.half id half
    obtain ⟨later, laterFound, laterReady, -⟩ := carries.kept id irob inRange found ready
    exact ⟨inRange, later, laterFound, laterReady⟩
  · obtain ⟨earlier, earlierFound, earlierFlag⟩ := carries.flagged id irob inRange found flag
    exact steady.queued id earlier inRange earlierFound earlierFlag

/-- A ready IROB is released: it gets a task. -/
theorem release (steady : Steady unsettled hand state) (inRange : id.InRange)
    (found : state.irobs.find id = some irob) (ready : Ready irob) :
    Steady (fun query => query ≠ id ∧ unsettled query) hand { state with
      irobs := state.irobs.update id ReceiverIrob.release
      readyIrobs := state.readyIrobs.insert (.work irob.id false irob.sendLabels) } := by
  have named := steady.wf.find_id inRange found
  have readyAfter : Ready irob.release := ready
  have finds : ∀ query : IrobId, query.InRange →
      (state.irobs.update id ReceiverIrob.release).find query =
        if query = id then some irob.release else state.irobs.find query :=
    fun query queryRange => steady.wf.find_write inRange found _ queryRange
  have carries : ∀ query, query.InRange → Serves state.irobs query →
      Serves (state.irobs.update id ReceiverIrob.release) query := by
    intro query queryRange serves
    unfold Serves
    rw [finds query queryRange]
    split_ifs with same
    · exact .inr ⟨_, rfl, readyAfter, rfl⟩
    · exact serves
  refine ⟨?_, fun query other queryRange held => ?_, fun task member => ?_, fun query half => ?_,
    fun query other queryRange held flag => ?_, fun query other queryRange held isReady => ?_⟩
  · exact steady.wf.update fun held heldFound =>
      ⟨rfl, fun other member => steady.wf.find_dependents inRange heldFound other member⟩
  · rw [finds query queryRange] at held
    split_ifs at held
    · cases held
      obtain ⟨stored, counted⟩ := steady.stored id irob inRange found
      exact ⟨stored.congr ⟨rfl, rfl, rfl, rfl, rfl⟩, counted⟩
    · exact steady.stored query other queryRange held
  · rcases IrobPrioritySet.mem_place member with rfl | old
    · change irob.id.InRange ∧ Serves _ irob.id
      rw [named]
      exact ⟨inRange, .inr ⟨_, (finds id inRange).trans (if_pos rfl), readyAfter, rfl⟩⟩
    · obtain ⟨taskRange, serves⟩ := steady.tasks task old
      exact ⟨taskRange, carries task.id taskRange serves⟩
  · obtain ⟨queryRange, other, held, isReady⟩ := steady.half query half
    refine ⟨queryRange, ?_⟩
    simp only
    rw [finds query queryRange]
    split_ifs
    · exact ⟨_, rfl, readyAfter⟩
    · exact ⟨other, held, isReady⟩
  · unfold readyIds
    by_cases same : query = id
    · obtain ⟨task, member, taskId⟩ := IrobPrioritySet.exists_mem_place
        (.work irob.id false irob.sendLabels) state.readyIrobs.tasks
      exact .inl (List.mem_map.mpr ⟨task, member, taskId.trans (named.trans same.symm)⟩)
    · simp only at held
      rw [finds query queryRange, if_neg same] at held
      refine (steady.queued query other queryRange held flag).imp_left fun listed => ?_
      obtain ⟨task, member, taskId⟩ := List.mem_map.mp listed
      exact List.mem_map.mpr ⟨task, IrobPrioritySet.mem_insert_of_mem member, taskId⟩
  · simp only at held
    rw [finds query queryRange] at held
    split_ifs at held with same
    · cases held
      exact .inl rfl
    · exact (steady.settled query other queryRange held isReady).imp_right fun open' =>
        ⟨same, open'⟩

/-- What `ReadyIROB` says. -/
theorem readyIrob_iff {ready : Bool} (decided : readyIrob irob = some ready) :
    ready = true ↔ Ready irob ∧ irob.own.released = false := by
  obtain ⟨complete, isComplete', shape⟩ := Option.map_eq_some_iff.mp decided
  rw [← shape, Ready, isComplete', isReady]
  simp only [Bool.and_eq_true, Bool.not_eq_eq_eq_not, Bool.not_true, Option.some.injEq]
  tauto

/-- An IROB is released if it is ready and was not before. -/
theorem releasing (steady : Steady unsettled hand { state with irobs := irobs })
    (inRange : id.InRange) (found : irobs.find id = some irob) {ready : Bool}
    (decided : readyIrob irob = some ready) :
    Steady (fun query => query ≠ id ∧ unsettled query) hand
      (state.releasing irobs id irob ready) := by
  unfold ReceiverLattice.releasing
  split_ifs with isReady
  · exact steady.release inRange found ((readyIrob_iff decided).mp isReady).1
  · refine ⟨steady.wf, steady.stored, steady.tasks, steady.half, steady.queued,
      fun query other queryRange held otherReady => ?_⟩
    by_cases same : query = id
    · subst same
      cases found.symm.trans held
      refine .inl ?_
      by_contra unreleased
      rw [Bool.not_eq_true] at unreleased
      exact isReady ((readyIrob_iff decided).mpr ⟨otherReady, unreleased⟩)
    · exact (steady.settled query other queryRange held otherReady).imp_right fun open' =>
        ⟨same, open'⟩

/-- What a handler stores before it releases its IROB. -/
theorem carries_of_stores {message : Message} (steady : Steady (fun _ => False) hand state)
    (onWire : message.OnWire) (stores : state.Stores message irobs irob) {ready : Bool}
    (decided : readyIrob irob = some ready) : Carries state.irobs irobs := by
  have inRange := onWire.1.id
  have old : Stored ((state.irobs.find message.id).getD (makePlaceholder message.id)) := by
    cases found : state.irobs.find message.id with
    | none => exact .holder message.id
    | some present => exact (steady.stored message.id present inRange found).1
  have counted : irob.isComplete.isSome = true := by
    obtain ⟨complete, isComplete', -⟩ := Option.map_eq_some_iff.mp decided
    rw [isComplete']
    rfl
  refine ⟨stores.wf, fun query other queryRange held => ?_, stores.past,
    fun query queryRange absent past => ?_, fun query other queryRange held isReady => ?_,
    fun query other queryRange held flag => ?_⟩
  · by_cases same : query = message.id
    · subst same
      cases stores.found.symm.trans held
      exact ⟨old.takes onWire stores.takes, counted⟩
    · rcases stores.others query queryRange same with equal | ⟨-, -, grown⟩
      · exact steady.stored query other queryRange (equal ▸ held)
      · cases grown.symm.trans held
        cases found : state.irobs.find query with
        | none => exact ⟨(Stored.holder query).congr ⟨rfl, rfl, rfl, rfl, rfl⟩, rfl⟩
        | some present =>
            obtain ⟨stored, isSome⟩ := steady.stored query present queryRange found
            exact ⟨stored.congr ⟨rfl, rfl, rfl, rfl, rfl⟩, isSome⟩
  · by_cases same : query = message.id
    · subst same
      cases past.symm.trans (stores.fresh absent)
    · rcases stores.others query queryRange same with equal | ⟨-, notPast, -⟩
      · exact equal.trans absent
      · cases past.symm.trans notPast
  · by_cases same : query = message.id
    · subst same
      have taking := stores.takes
      rw [held] at taking
      have same : irob = other := taking.eq_of_ready isReady
      exact ⟨other, same ▸ stores.found, isReady, fun flag => flag⟩
    · rcases stores.others query queryRange same with equal | ⟨-, -, grown⟩
      · exact ⟨other, equal.trans held, isReady, fun flag => flag⟩
      · rw [held] at grown
        exact ⟨_, grown, isReady, fun flag => flag⟩
  · by_cases same : query = message.id
    · subst same
      cases stores.found.symm.trans held
      have before := old.released_of_takes stores.takes flag
      cases found : state.irobs.find message.id with
      | none =>
          rw [found] at before
          cases before
      | some present =>
          rw [found] at before
          exact ⟨present, rfl, before⟩
    · rcases stores.others query queryRange same with equal | ⟨-, -, grown⟩
      · exact ⟨other, equal ▸ held, flag⟩
      · cases grown.symm.trans held
        cases found : state.irobs.find query with
        | none =>
            rw [found] at flag
            cases flag
        | some present =>
            rw [found] at flag
            exact ⟨present, rfl, flag⟩

/-- Any message that does not end the run. -/
theorem dispatch {message : Message} {handling : Handled}
    (steady : Steady (fun _ => False) hand state) (onWire : message.OnWire)
    (dispatched : state.dispatch message = some handling) :
    Steady (fun _ => False) hand handling.after := by
  rcases dispatch_effect steady.wf onWire.1 dispatched with
    ⟨-, same⟩ | ⟨irobs, irob, ready, stores, decided, after⟩
  · rw [same]
    exact steady
  · have carries := steady.carries_of_stores onWire stores decided
    have stored : Steady (fun query => query = message.id) hand { state with irobs := irobs } := by
      refine steady.carry carries fun query other queryRange held isReady => ?_
      by_cases same : query = message.id
      · exact .inr same
      · refine .inl ?_
        rcases stores.others query queryRange same with equal | ⟨-, -, grown⟩
        · exact (steady.settled query other queryRange (equal ▸ held) isReady).resolve_right
            not_false
        · cases grown.symm.trans held
          cases found : state.irobs.find query with
          | none =>
              rw [found] at isReady
              cases isReady.1
          | some present =>
              rw [found] at isReady
              exact (steady.settled query present queryRange found isReady).resolve_right not_false
    rw [after]
    exact (stored.releasing onWire.1.id stores.found decided).weaken
      fun query open' => open'.1 open'.2

/-- `release_if_ready` returns, and settles its IROB. -/
theorem releaseIfReady (steady : Steady unsettled hand state) (inRange : id.InRange) :
    ∃ next, state.releaseIfReady id = some next ∧
      Steady (fun query => query ≠ id ∧ unsettled query) hand next := by
  unfold ReceiverLattice.releaseIfReady
  cases found : state.irobs.find id with
  | none =>
      refine ⟨state, rfl, steady.wf, steady.stored, steady.tasks, steady.half, steady.queued,
        fun query other queryRange held isReady => ?_⟩
      refine (steady.settled query other queryRange held isReady).imp_right fun open' => ⟨?_, open'⟩
      rintro rfl
      cases found.symm.trans held
  | some irob =>
      obtain ⟨complete, isComplete'⟩ :=
        Option.isSome_iff_exists.mp (steady.stored id irob inRange found).2
      have decided : readyIrob irob = some (complete && isReady irob && !irob.own.released) := by
        rw [readyIrob, isComplete', Option.map_some]
      simp only [decided, Option.map_some]
      exact ⟨_, rfl, steady.releasing inRange found decided⟩

/-- `release_dependents` returns, and settles all the dependents. -/
theorem releaseDependents {dependents : List IrobId} (steady : Steady unsettled hand state)
    (ranged : ∀ dependent ∈ dependents, dependent.InRange) :
    ∃ next, state.releaseDependents dependents = some next ∧
      Steady (fun query => query ∉ dependents ∧ unsettled query) hand next := by
  induction dependents generalizing state unsettled with
  | nil => exact ⟨state, rfl, steady.weaken fun _ open' => ⟨List.not_mem_nil, open'⟩⟩
  | cons dependent rest ih =>
      obtain ⟨middle, releasing, middleSteady⟩ :=
        steady.releaseIfReady (ranged dependent List.mem_cons_self)
      obtain ⟨last, onward, lastSteady⟩ := ih middleSteady
        fun other member => ranged other (List.mem_cons_of_mem _ member)
      refine ⟨last, Option.bind_eq_some_iff.mpr ⟨middle, releasing, onward⟩,
        lastSteady.weaken ?_⟩
      rintro query ⟨notLater, other, open'⟩
      refine ⟨fun member => ?_, open'⟩
      rcases List.mem_cons.mp member with same | later
      · exact other same
      · exact notLater later

/-! ### Reading -/

/-- `get_ready_irob` takes a ready IROB in hand, or there is none. -/
theorem getReadyIrob (steady : Steady (fun _ => False) none state) :
    ∃ taken popped, state.getReadyIrob = some (taken, popped) ∧ popped.irobs = state.irobs ∧
      popped.partiallyReadIrob = none ∧ match taken with
        | none => Steady (fun _ => False) none popped ∧
            ∀ (id : IrobId) (irob : ReceiverIrob), id.InRange →
              state.irobs.find id = some irob → ¬Ready irob
        | some (id, irob) => id.InRange ∧ state.irobs.find id = some irob ∧ Ready irob ∧
            Steady (fun _ => False) (some id) popped := by
  unfold ReceiverLattice.getReadyIrob
  cases half : state.partiallyReadIrob with
  | some id =>
      obtain ⟨inRange, irob, found, ready⟩ := steady.half id half
      simp only [found, Option.bind_eq_bind, Option.bind_some, ready.2.1, ↓reduceIte]
      refine ⟨_, _, rfl, rfl, rfl, inRange, found, ready, steady.wf, steady.stored, steady.tasks,
        (fun query none => nomatch none), fun query other queryRange held flag => ?_, steady.settled⟩
      rcases steady.queued query other queryRange held flag with listed | same | none
      · exact .inl listed
      · exact .inr (.inr (half.symm.trans same))
      · cases none
  | none =>
      simp only
      have listed : ∀ (query : IrobId) (other : ReceiverIrob), query.InRange →
          state.irobs.find query = some other → other.own.released = true →
            ∃ task ∈ state.readyIrobs.tasks, task.id = query := by
        intro query other queryRange held flag
        rcases steady.queued query other queryRange held flag with listed | same | none
        · exact List.mem_map.mp listed
        · cases half.symm.trans same
        · cases none
      rcases popReady_cases state.irobs state.readyIrobs.tasks with
        ⟨drained, absent⟩ | ⟨skipped, task, rest, irob, shape, absent, found, popped⟩
      · rw [drained]
        have unlisted : ∀ (query : IrobId) (other : ReceiverIrob), query.InRange →
            state.irobs.find query = some other → other.own.released = true → False := by
          intro query other queryRange held flag
          obtain ⟨task, member, rfl⟩ := listed query other queryRange held flag
          cases (absent task member).symm.trans held
        refine ⟨_, _, rfl, rfl, rfl, ⟨steady.wf, steady.stored,
          fun _ member => (List.not_mem_nil member).elim, (fun query none => nomatch none),
          fun query other queryRange held flag =>
            (unlisted query other queryRange held flag).elim, steady.settled⟩, ?_⟩
        intro query other queryRange held ready
        exact unlisted query other queryRange held
          ((steady.settled query other queryRange held ready).resolve_right not_false)
      · rw [popped]
        obtain ⟨inRange, serves⟩ := steady.tasks task (by
          rw [shape]
          exact List.mem_append_right _ List.mem_cons_self)
        have ready : Ready irob := by
          rcases serves with ⟨none, -⟩ | ⟨other, held, ready, -⟩
          · cases found.symm.trans none
          · cases found.symm.trans held
            exact ready
        refine ⟨_, _, rfl, rfl, rfl, inRange, found, ready, steady.wf, steady.stored,
          fun other member => steady.tasks other ?_, (fun query none => nomatch none),
          fun query other queryRange held flag => ?_, steady.settled⟩
        · rw [shape]
          exact List.mem_append_right _ (List.mem_cons_of_mem _ member)
        · obtain ⟨named, member, rfl⟩ := listed query other queryRange held flag
          rw [shape] at member
          rcases List.mem_append.mp member with before | later
          · cases (absent named before).symm.trans held
          · rcases List.mem_cons.mp later with rfl | after
            · exact .inr (.inr rfl)
            · exact .inl (List.mem_map.mpr ⟨named, after, rfl⟩)

/-- The IROB in hand is put back. -/
theorem putBack (steady : Steady (fun _ => False) (some id) state) (inRange : id.InRange)
    (found : state.irobs.find id = some irob) (ready : Ready irob)
    (noHalf : state.partiallyReadIrob = none) :
    Steady (fun _ => False) none { state with partiallyReadIrob := some id } := by
  refine ⟨steady.wf, steady.stored, steady.tasks, fun query half => ?_,
    fun query other queryRange held flag => ?_, steady.settled⟩
  · cases half
    exact ⟨inRange, irob, found, ready⟩
  · rcases steady.queued query other queryRange held flag with listed | half | same
    · exact .inl listed
    · cases noHalf.symm.trans half
    · exact .inr (.inl same)

/-- Bytes are taken from the IROB in hand, and some are left. -/
theorem store (steady : Steady (fun _ => False) (some id) state) (inRange : id.InRange)
    (found : state.irobs.find id = some irob) {after : ReceiverIrob} (ready : Ready after)
    (stored : Stored after) (links : PendingIrob.SameLinks after irob)
    (flag : after.own.released = true) (released : irob.own.released = true) :
    Steady (fun _ => False) (some id)
      { state with irobs := state.irobs.update id fun _ => after } := by
  have finds : ∀ query : IrobId, query.InRange →
      (state.irobs.update id fun _ => after).find query =
        if query = id then some after else state.irobs.find query :=
    fun query queryRange => steady.wf.find_write inRange found _ queryRange
  have carries : Carries state.irobs (state.irobs.update id fun _ => after) := by
    refine ⟨steady.wf.write found links, fun query other queryRange held => ?_, rfl,
      fun query queryRange absent _ => ?_, fun query other queryRange held isReady => ?_,
      fun query other queryRange held otherFlag => ?_⟩
    · rw [finds query queryRange] at held
      split_ifs at held
      · cases held
        exact ⟨stored, by rw [ready.2.1]; rfl⟩
      · exact steady.stored query other queryRange held
    · rw [finds query queryRange]
      split_ifs with same
      · rw [same, found] at absent
        cases absent
      · exact absent
    · rw [finds query queryRange]
      split_ifs
      · exact ⟨after, rfl, ready, fun _ => flag⟩
      · exact ⟨other, held, isReady, fun kept => kept⟩
    · rw [finds query queryRange] at held
      split_ifs at held with same
      · exact ⟨irob, same ▸ found, released⟩
      · exact ⟨other, held, otherFlag⟩
  refine steady.carry carries fun query other queryRange held isReady => ?_
  rw [finds query queryRange] at held
  split_ifs at held
  · cases held
    exact .inl flag
  · exact steady.settled query other queryRange held isReady

/-- The IROB in hand is used up: its dependents may have become ready. -/
theorem erase (steady : Steady (fun _ => False) (some id) state) (inRange : id.InRange)
    (found : state.irobs.find id = some irob) {after : ReceiverIrob}
    (links : PendingIrob.SameLinks after irob) (noHalf : state.partiallyReadIrob = none) :
    Steady (fun query => query ∈ after.dependents) none
      { state with irobs := ((state.irobs.update id fun _ => after).erase id true).1 } := by
  obtain ⟨erasedWf, past, erasedFind⟩ := steady.wf.find_write_erase inRange found links
  have pastIff : ∀ query,
      ((state.irobs.update id fun _ => after).erase id true).1.pastIrobs.contains query =
        (decide (query = id) || state.irobs.pastIrobs.contains query) := by
    intro query
    rw [past, IntSet.contains_insert]
  -- an IROB that is left, and what it was before
  have left : ∀ (query : IrobId) (irob : ReceiverIrob), query.InRange →
      ((state.irobs.update id fun _ => after).erase id true).1.find query = some irob →
        query ≠ id ∧ ((query ∈ after.dependents ∧ ∃ before,
          state.irobs.find query = some before ∧ irob = before.depSatisfied id) ∨
            state.irobs.find query = some irob) := by
    intro query irob queryRange held
    rw [erasedFind query queryRange] at held
    split_ifs at held with same dependent
    · obtain ⟨before, beforeFound, rfl⟩ := Option.map_eq_some_iff.mp held
      exact ⟨same, .inl ⟨dependent, before, beforeFound, rfl⟩⟩
    · exact ⟨same, .inr held⟩
  refine ⟨erasedWf, fun query other queryRange held => ?_, fun task member => ?_,
    fun query half => ?_, fun query other queryRange held flag => ?_,
    fun query other queryRange held ready => ?_⟩
  · rcases (left query other queryRange held).2 with ⟨-, before, beforeFound, rfl⟩ | same
    · obtain ⟨stored, counted⟩ := steady.stored query before queryRange beforeFound
      exact ⟨stored.congr ⟨rfl, rfl, rfl, rfl, rfl⟩, counted⟩
    · exact steady.stored query other queryRange same
  · obtain ⟨taskRange, serves⟩ := steady.tasks task member
    refine ⟨taskRange, ?_⟩
    unfold Serves
    rw [erasedFind task.id taskRange, pastIff]
    by_cases same : task.id = id
    · simp only [same, ↓reduceIte, decide_true, Bool.true_or, and_self, true_or]
    · simp only [same, ↓reduceIte, decide_false, Bool.false_or]
      rcases serves with ⟨absent, isPast⟩ | ⟨other, held, ready, flag⟩
      · rw [absent, Option.map_none, ite_self]
        exact .inl ⟨rfl, isPast⟩
      · rw [held]
        split_ifs
        · refine .inr ⟨other.depSatisfied id, rfl, ⟨ready.1, ready.2.1, ?_⟩, flag⟩
          rw [OrderedSet.isEmpty_iff]
          exact fun dep listed => OrderedSet.isEmpty_iff.mp ready.2.2 dep
            (OrderedSet.mem_erase.mp listed).1
        · exact .inr ⟨other, rfl, ready, flag⟩
  · cases noHalf.symm.trans half
  · obtain ⟨differ, either⟩ := left query other queryRange held
    have listed : ∃ earlier : ReceiverIrob, state.irobs.find query = some earlier ∧
        earlier.own.released = true := by
      rcases either with ⟨-, before, beforeFound, rfl⟩ | same
      · exact ⟨before, beforeFound, flag⟩
      · exact ⟨other, same, flag⟩
    obtain ⟨earlier, earlierFound, earlierFlag⟩ := listed
    rcases steady.queued query earlier queryRange earlierFound earlierFlag with
      listed | half | same
    · exact .inl listed
    · exact .inr (.inl half)
    · exact (differ (Option.some.inj same).symm).elim
  · rcases (left query other queryRange held).2 with ⟨dependent, -⟩ | same
    · exact .inr dependent
    · exact .inl ((steady.settled query other queryRange same ready).resolve_right not_false)

/-- What a turn of the loop of `recv` does with the IROB in hand. -/
structure Turn (state : ReceiverLattice) (id : IrobId) (irob : ReceiverIrob) (len : Nat)
    (flags : RecvFlags) (next : ReceiverLattice) (delivery : Delivery) (done : Bool) : Prop where
  steady : Steady (fun _ => False) none next
  bytes : delivery.bytes = irob.unread.take len
  sendLabels : delivery.sendLabels = irob.sendLabels
  peeked : flags.peek = true → next = { state with partiallyReadIrob := some id } ∧ done = false
  consumed : flags.peek = false → (done = true ↔ irob.unread.length ≤ len)

/-- A turn of the loop of `recv` hands over the next bytes of the IROB in hand, if it has any. -/
theorem passBytes (steady : Steady (fun _ => False) (some id) state) (inRange : id.InRange)
    (found : state.irobs.find id = some irob) (ready : Ready irob)
    (noHalf : state.partiallyReadIrob = none) (someBytes : irob.own.numBytes ≠ 0) {len : Nat}
    (wanted : 0 < len) (flags : RecvFlags) :
    ∃ next delivery done, state.passBytes id irob len flags = some (next, delivery, done) ∧
      Turn state id irob len flags next delivery done := by
  have named := steady.wf.find_id inRange found
  subst named
  have stored := (steady.stored irob.id irob inRange found).1
  have flag := (steady.settled irob.id irob inRange found ready).resolve_right not_false
  obtain ⟨content, taken, reading⟩ := stored.toReading ready.2.1
  have unread : irob.unread ≠ [] := by
    intro none
    rw [reading.counted, none] at someBytes
    exact someBytes rfl
  by_cases peek : flags.peek = true
  · refine ⟨_, _, _, passBytes_peek reading ready unread found noHalf wanted peek,
      steady.putBack inRange found ready noHalf, rfl, rfl, fun _ => ⟨rfl, rfl⟩, fun plain => ?_⟩
    cases peek.symm.trans plain
  · obtain ⟨after, removed, turn⟩ :=
      passBytes_taken reading ready unread noHalf wanted (Bool.eq_false_iff.mpr peek)
    have left := removed.left
    by_cases usedUp : after.own.numBytes = 0
    · rw [if_pos usedUp] at turn
      have erased := steady.erase inRange found removed.links noHalf
      have ranged : ∀ dependent ∈ after.dependents.toList, dependent.InRange := by
        rw [removed.links.dependents]
        exact steady.wf.find_dependents inRange found
      obtain ⟨last, releasing, lastSteady⟩ := erased.releaseDependents ranged
      rw [releasing] at turn
      refine ⟨_, _, _, turn, lastSteady.weaken fun query open' => open'.1 open'.2, rfl, rfl,
        fun isPeek => (peek isPeek).elim, fun _ => iff_of_true rfl ?_⟩
      omega
    · rw [if_neg usedUp] at turn
      have still := removed.ready ready
      have written := steady.store inRange found still
        (.reading still.1 removed.reading) removed.links (removed.released.trans flag) flag
      refine ⟨_, _, _, turn, written.putBack inRange (steady.wf.find_write_self inRange found _)
        still noHalf, rfl, rfl, fun isPeek => (peek isPeek).elim, fun _ => ?_⟩
      exact iff_of_false Bool.false_ne_true (by omega)

/-- A call of `recv` that returns. -/
theorem recvLoop {flags : RecvFlags} {turns len : Nat} {deliveries : List Delivery}
    (steady : Steady (fun _ => False) none state)
    (looping : ReceiverLattice.recvLoop turns state len flags = some (next, deliveries)) :
    Steady (fun _ => False) none next := by
  induction turns generalizing state len deliveries with
  | zero =>
      cases len with
      | zero =>
          cases looping
          exact steady
      | succ len => cases looping
  | succ turns ih =>
      cases len with
      | zero =>
          cases looping
          exact steady
      | succ len =>
          unfold ReceiverLattice.recvLoop at looping
          obtain ⟨taken, popped, getting, same, noHalf, held⟩ := steady.getReadyIrob
          simp only [getting, Option.bind_eq_bind, Option.bind_some] at looping
          cases taken with
          | none =>
              cases looping
              exact held.1
          | some pair =>
              obtain ⟨id, irob⟩ := pair
              obtain ⟨inRange, found, ready, inHand⟩ := held
              obtain ⟨⟨middle, delivery, done⟩, passing, onward⟩ :=
                Option.bind_eq_some_iff.mp looping
              have someBytes : irob.own.numBytes ≠ 0 := by
                intro none
                obtain ⟨complete, -, refused⟩ := Option.bind_eq_some_iff.mp passing
                rw [if_pos (.inl none)] at refused
                cases refused
              obtain ⟨other, otherDelivery, otherDone, passes, turn⟩ := inHand.passBytes inRange
                (same ▸ found) ready noHalf someBytes (Nat.succ_pos len) flags
              cases passes.symm.trans passing
              simp only at onward
              split_ifs at onward
              · cases onward
                exact turn.steady
              · obtain ⟨⟨last, others⟩, rest, finished⟩ := Option.bind_eq_some_iff.mp onward
                cases finished
                exact ih turn.steady rest

theorem empty : Steady (fun _ => False) none ReceiverLattice.empty := by
  have absent : ∀ (query : IrobId) (irob : ReceiverIrob),
      ReceiverLattice.empty.irobs.find query ≠ some irob := fun query irob found =>
    nomatch found.symm.trans (IrobLattice.find_empty query)
  exact ⟨.empty, fun query irob _ found => (absent query irob found).elim,
    fun _ member => (List.not_mem_nil member).elim, (fun _ none => nomatch none),
    fun query irob _ found => (absent query irob found).elim,
    fun query irob _ found => (absent query irob found).elim⟩

end Steady

end ReceiverLattice

namespace Receiver

/-- The receiver in an environment in which any messages arrive, and the application calls
`recv` with any flags. -/
def unscripted : Machine Receiver ReceiverEvent where
  initial receiver := receiver = empty
  permitted _ event := match event with
    | .message message => message.OnWire
    | .recv _ _ => True
  step := step

instance : ∀ receiver event, Decidable (unscripted.permitted receiver event)
  | _, .message message => inferInstanceAs (Decidable message.OnWire)
  | _, .recv _ _ => inferInstanceAs (Decidable True)

theorem steady_of_reachable {receiver : Receiver} (reached : unscripted.Reachable receiver) :
    ReceiverLattice.Steady (fun _ => False) none receiver.lattice := by
  apply reached.induct (motive := fun receiver =>
    ReceiverLattice.Steady (fun _ => False) none receiver.lattice)
  · rintro first rfl
    exact .empty
  · intro before after event _ steady permitted moved
    cases event with
    | message message =>
        obtain ⟨result, receiving, rfl⟩ := Option.map_eq_some_iff.mp moved
        obtain ⟨handled, handling, rfl⟩ := Option.map_eq_some_iff.mp receiving
        exact steady.dispatch permitted handling
    | recv len flags =>
        obtain ⟨result, reading, rfl⟩ := Option.map_eq_some_iff.mp moved
        exact steady.recvLoop reading

end Receiver

end Libcmm
