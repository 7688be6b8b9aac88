import Libcmm.Reassembly
import Libcmm.ReceiverSteps

/-! # The receiving side under conforming messages

`Contents` says what every IROB consists of, and a message conforms to it when it
announces the dependencies, a chunk or the end of its IROB truthfully. `Sound` is
the invariant of the receiving side under conforming messages: every pending IROB
is in one of the two phases of reassembly, it is released exactly when it is
ready, the released IROBs are those in `ready_irobs` and `partially_read_irob`,
and what has been delivered of an IROB is the beginning of its bytes.

Two parameters describe states inside a handler: `unsettled` are the IROBs that
may have become ready without having been released yet, and `hand` is the IROB
that `recv` has taken from the ready ones and not yet put back or erased.
-/

namespace Libcmm

open Lib

/-- What every IROB consists of. -/
abbrev Contents := IrobId → IrobContent

namespace Contents

/-- Chunks are not empty and dependencies have identifiers in range. -/
structure Valid (contents : Contents) : Prop where
  blocks : ∀ id, ∀ block ∈ (contents id).blocks, block ≠ []
  deps : ∀ id, ∀ dep ∈ (contents id).deps, dep.InRange

/-- An IROB that has ended is not empty. -/
def Nonempty (contents : Contents) : Prop :=
  ∀ id, (contents id).final = true → (contents id).blocks ≠ []

/-- A message says of its IROB what the contents say. -/
def Conforms (contents : Contents) : Message → Prop
  | .beginIrob id deps sendLabels =>
      deps = (contents id).deps ∧ sendLabels = (contents id).sendLabels
  | .irobChunk id seqno offset data => (contents id).blocks[seqno]? = some data ∧
      offset = ((contents id).blocks.take seqno).flatten.length
  | .endIrob id expectedBytes expectedChunks => (contents id).final = true ∧
      expectedBytes = (contents id).bytes.length ∧ expectedChunks = (contents id).blocks.length

instance (contents : Contents) : DecidablePred contents.Conforms
  | .beginIrob _ _ _ => instDecidableAnd
  | .irobChunk _ _ _ _ => instDecidableAnd
  | .endIrob _ _ _ => instDecidableAnd

end Contents

/-- The bytes of one IROB that have been handed to the application, in order. -/
def deliveredBytes : List Observation → IrobId → List Byte
  | [], _ => []
  | .delivered delivery :: older, id =>
      if delivery.id = id then deliveredBytes older id ++ delivery.bytes
      else deliveredBytes older id
  | .begun _ _ :: older, id => deliveredBytes older id
  | .acknowledged _ :: older, id => deliveredBytes older id

/-- A delivery adds its bytes to those of its IROB. -/
theorem deliveredBytes_own (delivery : Delivery) (history : List Observation) {id : IrobId}
    (own : delivery.id = id) :
    deliveredBytes (.delivered delivery :: history) id =
      deliveredBytes history id ++ delivery.bytes := by
  rw [deliveredBytes, if_pos own]

/-- A delivery of another IROB. -/
theorem deliveredBytes_other (delivery : Delivery) (history : List Observation) {id : IrobId}
    (other : id ≠ delivery.id) :
    deliveredBytes (.delivered delivery :: history) id = deliveredBytes history id := by
  rw [deliveredBytes, if_neg (Ne.symm other)]

/-- What is observed of a message is no delivery. -/
theorem deliveredBytes_observed (message : Message) (handled : Handled)
    (history : List Observation) :
    deliveredBytes (Receiver.observed message handled ++ history) = deliveredBytes history := by
  funext id
  unfold Receiver.observed
  split_ifs <;> split <;> rfl

namespace ReceiverIrob

/-- Complete, with its `Begin_IROB` here and all dependencies satisfied. -/
def Ready (irob : ReceiverIrob) : Prop :=
  irob.placeholder = false ∧ irob.isComplete = some true ∧ irob.deps.isEmpty = true

/-- The phase of a pending IROB of which the bytes `taken` have been delivered. Only
real IROBs are read, and only as long as they have bytes. -/
inductive Phase (content : IrobContent) (taken : List Byte) (irob : ReceiverIrob) : Prop where
  | receiving : taken = [] → Receiving content irob → Phase content taken irob
  | reading : irob.placeholder = false → Reading content taken irob → taken ≠ [] →
      irob.unread ≠ [] → Phase content taken irob

/-- A pending IROB is in a phase, and it has been released if and only if it is
ready; `unsettled` ones may still have to be released. -/
structure Pending (content : IrobContent) (taken : List Byte) (unsettled : Prop)
    (irob : ReceiverIrob) : Prop where
  phase : Phase content taken irob
  ready : irob.own.released = true → irob.Ready
  released : irob.Ready → irob.own.released = true ∨ unsettled

variable {content : IrobContent} {taken : List Byte} {irob : ReceiverIrob} {unsettled : Prop}

theorem Phase.isComplete_eq (phase : Phase content taken irob) :
    ∃ whole, irob.isComplete = some whole := by
  cases phase with
  | receiving _ receiving =>
      obtain ⟨whole, complete, -⟩ := receiving.isComplete_eq
      exact ⟨whole, complete⟩
  | reading _ reading _ _ => exact ⟨true, reading.isComplete_eq⟩

/-- A complete IROB is being read, if only from its beginning. -/
theorem Phase.toReading (phase : Phase content taken irob)
    (complete : irob.isComplete = some true) :
    Reading content taken irob ∧ (content.bytes = [] ∨ irob.unread ≠ []) := by
  cases phase with
  | receiving start receiving =>
      have reading := receiving.reading complete
      rw [start]
      refine ⟨reading, ?_⟩
      have bytes := reading.bytes
      rw [List.nil_append] at bytes
      rw [bytes]
      exact em _
  | reading _ reading _ left => exact ⟨reading, .inr left⟩

/-- An incomplete IROB is being received. -/
theorem Phase.toReceiving (phase : Phase content taken irob)
    (incomplete : irob.isComplete = some false) : taken = [] ∧ Receiving content irob := by
  cases phase with
  | receiving start receiving => exact ⟨start, receiving⟩
  | reading _ reading _ _ =>
      rw [reading.isComplete_eq] at incomplete
      cases incomplete

/-- An IROB of which nothing has been delivered is being received. -/
theorem Phase.of_undelivered (phase : Phase content [] irob) : Receiving content irob := by
  cases phase with
  | receiving _ receiving => exact receiving
  | reading _ _ begun _ => exact (begun rfl).elim

/-- A placeholder is being received. -/
theorem Phase.of_placeholder (phase : Phase content taken irob)
    (holder : irob.placeholder = true) : taken = [] ∧ Receiving content irob := by
  cases phase with
  | receiving start receiving => exact ⟨start, receiving⟩
  | reading real _ _ _ =>
      rw [real] at holder
      cases holder

theorem Phase.extend {later : IrobContent} (phase : Phase content taken irob)
    (extends' : later.Extends content) : Phase later taken irob := by
  cases phase with
  | receiving start receiving => exact .receiving start (receiving.extend extends')
  | reading real reading begun left =>
      exact .reading real (reading.extend extends') begun left

/-- Two IROBs with the same data, whatever their links. -/
structure SameData (first second : ReceiverIrob) : Prop where
  id : first.id = second.id
  chunks : first.chunks = second.chunks
  complete : first.complete = second.complete
  own : first.own = { second.own with released := first.own.released }
  placeholder : first.placeholder = second.placeholder

theorem SameData.isComplete_eq {other : ReceiverIrob} (same : SameData other irob) :
    other.isComplete = irob.isComplete := by
  unfold isComplete allChunksComplete
  rw [same.own, same.chunks, same.complete]

theorem Phase.congr {other : ReceiverIrob} (phase : Phase content taken irob)
    (same : SameData other irob) : Phase content taken other := by
  cases phase with
  | receiving start receiving =>
      exact .receiving start (receiving.congr same.id same.chunks same.complete same.own)
  | reading real reading begun left =>
      refine .reading (same.placeholder.trans real)
        (reading.congr same.chunks same.complete same.own) begun ?_
      rwa [unread, same.chunks, same.own]

end ReceiverIrob

namespace ReceiverLattice

open ReceiverIrob

/-- Whether the lattice holds a released IROB under an identifier. -/
def ReleasedAt (irobs : IrobLattice ReceiverPart) (id : IrobId) : Prop :=
  ∃ irob, irobs.find id = some irob ∧ irob.own.released = true

/-- The identifiers in `ready_irobs`. -/
def readyIds (state : ReceiverLattice) : List IrobId := state.readyIrobs.tasks.map (·.id)

/-- The released IROBs are those in `ready_irobs`, the one partially read and the
one in hand, and no IROB is in two of these places. -/
structure Queued (hand : Option IrobId) (state : ReceiverLattice) : Prop where
  places : ∀ id, (id ∈ state.readyIds ∨ state.partiallyReadIrob = some id ∨ hand = some id) ↔
    id.InRange ∧ ReleasedAt state.irobs id
  nodup : state.readyIds.Nodup
  apart : ∀ id, state.partiallyReadIrob = some id ∨ hand = some id → id ∉ state.readyIds

/-- The released IROBs stay where they are while no released flag changes. -/
theorem Queued.congr {hand : Option IrobId} {state other : ReceiverLattice}
    (queued : Queued hand state)
    (ready : other.readyIrobs = state.readyIrobs)
    (half : other.partiallyReadIrob = state.partiallyReadIrob)
    (released : ∀ id : IrobId, id.InRange →
      (ReleasedAt other.irobs id ↔ ReleasedAt state.irobs id)) : Queued hand other := by
  have sameIds : other.readyIds = state.readyIds := by rw [readyIds, ready, readyIds]
  refine ⟨fun id => ?_, ?_, ?_⟩
  · rw [sameIds, half, queued.places id]
    exact and_congr_right fun inRange => (released id inRange).symm
  · rw [sameIds]
    exact queued.nodup
  · rw [sameIds, half]
    exact queued.apart

/-- The invariant of the receiving side. -/
structure Sound (contents : Contents) (unsettled : IrobId → Prop) (hand : Option IrobId)
    (state : ReceiverLattice) (history : List Observation) : Prop where
  wf : state.irobs.WellFormed
  pending : ∀ id irob, id.InRange → state.irobs.find id = some irob →
    state.irobs.pastIrobs.contains id = false ∧
      Pending (contents id) (deliveredBytes history id) (unsettled id) irob
  unseen : ∀ id, (id.InRange → state.irobs.find id = none) →
    state.irobs.pastIrobs.contains id = false → deliveredBytes history id = []
  past : ∀ id, state.irobs.pastIrobs.contains id = true → (contents id).final = true ∧
    deliveredBytes history id = (contents id).bytes
  queued : Queued hand state

namespace Sound

variable {contents : Contents} {unsettled : IrobId → Prop} {hand : Option IrobId}
  {state : ReceiverLattice} {history : List Observation} {id : IrobId}

theorem empty (contents : Contents) :
    Sound contents (fun _ => False) none ReceiverLattice.empty [] where
  wf := .empty
  pending := by
    intro id irob inRange found
    cases found.symm.trans (IrobLattice.find_empty id)
  unseen := fun _ _ _ => rfl
  past := by
    intro id contained
    rw [show ReceiverLattice.empty.irobs.pastIrobs = IntSet.empty from rfl,
      IntSet.contains_empty] at contained
    cases contained
  queued := by
    refine ⟨fun id => ⟨?_, ?_⟩, List.nodup_nil, fun id _ => List.not_mem_nil⟩
    · rintro (listed | held | held)
      · cases listed
      · cases held
      · cases held
    · rintro ⟨-, irob, found, -⟩
      cases found.symm.trans (IrobLattice.find_empty id)

theorem history_congr {other : List Observation} (sound : Sound contents unsettled hand state history)
    (same : deliveredBytes other = deliveredBytes history) :
    Sound contents unsettled hand state other :=
  ⟨sound.wf, same ▸ sound.pending, same ▸ sound.unseen, same ▸ sound.past, sound.queued⟩

theorem weaken {more : IrobId → Prop} (sound : Sound contents unsettled hand state history)
    (implies : ∀ id, unsettled id → more id) : Sound contents more hand state history := by
  refine ⟨sound.wf, fun id irob inRange found => ?_, sound.unseen, sound.past, sound.queued⟩
  obtain ⟨fresh, pending⟩ := sound.pending id irob inRange found
  exact ⟨fresh, pending.phase, pending.ready, fun ready => (pending.released ready).imp_right
    (implies id)⟩

/-- The contents of IROBs may grow. -/
theorem extend {later : Contents} (sound : Sound contents unsettled hand state history)
    (extends' : ∀ id, (later id).Extends (contents id)) :
    Sound later unsettled hand state history := by
  refine ⟨sound.wf, fun id irob inRange found => ?_, sound.unseen, fun id contained => ?_,
    sound.queued⟩
  · obtain ⟨fresh, pending⟩ := sound.pending id irob inRange found
    exact ⟨fresh, pending.phase.extend (extends' id), pending.ready, pending.released⟩
  · obtain ⟨ended, delivered⟩ := sound.past id contained
    obtain ⟨final, same⟩ := (extends' id).final ended
    refine ⟨final, ?_⟩
    rw [IrobContent.bytes, same]
    exact delivered

/-! ### Writing one IROB -/

/-- A pending IROB is replaced by one with the same links, in a phase that may
account for a delivery of its bytes. -/
theorem update {settled : IrobId → Prop}
    (sound : Sound contents unsettled hand state history) (later : List Observation)
    (inRange : id.InRange) {irob after : ReceiverIrob} (found : state.irobs.find id = some irob)
    (links : PendingIrob.SameLinks after irob)
    (released : after.own.released = irob.own.released)
    (pending : Pending (contents id) (deliveredBytes later id) (settled id) after)
    (others : ∀ query, query ≠ id → unsettled query → settled query)
    (undelivered : ∀ query, query ≠ id → deliveredBytes later query = deliveredBytes history query) :
    Sound contents settled hand
      { state with irobs := state.irobs.update id fun _ => after } later := by
  have finds : ∀ query : IrobId, query.InRange →
      (state.irobs.update id fun _ => after).find query =
        if query = id then some after else state.irobs.find query :=
    fun query queryRange => sound.wf.find_write inRange found _ queryRange
  have fresh := (sound.pending id irob inRange found).1
  refine ⟨sound.wf.write found links, ?_, ?_, ?_, ?_⟩
  · intro query other queryRange held
    rw [finds query queryRange] at held
    split_ifs at held with same
    · cases held
      subst same
      exact ⟨fresh, pending⟩
    · obtain ⟨queryFresh, kept⟩ := sound.pending query other queryRange held
      rw [undelivered query same]
      exact ⟨queryFresh, kept.phase, kept.ready, fun ready =>
        (kept.released ready).imp_right (others query same)⟩
  · intro query absent queryFresh
    by_cases same : query = id
    · have none := absent (same ▸ inRange)
      rw [same, finds id inRange, if_pos rfl] at none
      cases none
    · rw [undelivered query same]
      refine sound.unseen query (fun queryRange => ?_) queryFresh
      have none := absent queryRange
      rwa [finds query queryRange, if_neg same] at none
  · intro query contained
    have other : query ≠ id := by
      rintro rfl
      rw [show state.irobs.pastIrobs.contains query = true from contained] at fresh
      cases fresh
    rw [undelivered query other]
    exact sound.past query contained
  · refine sound.queued.congr rfl rfl fun query queryRange => ?_
    unfold ReleasedAt
    rw [finds query queryRange]
    split_ifs with same
    · subst same
      rw [found]
      constructor
      · rintro ⟨held, heldEq, flag⟩
        cases heldEq
        exact ⟨irob, rfl, released ▸ flag⟩
      · rintro ⟨held, heldEq, flag⟩
        cases heldEq
        exact ⟨after, rfl, released.trans flag⟩
    · exact Iff.rfl

/-! ### Releasing -/

/-- An IROB that is absent, not ready or released already is settled. -/
theorem settled (sound : Sound contents unsettled hand state history)
    (done : ∀ irob, state.irobs.find id = some irob → Ready irob → irob.own.released = true) :
    Sound contents (fun query => query ≠ id ∧ unsettled query) hand state history := by
  refine ⟨sound.wf, ?_, sound.unseen, sound.past, sound.queued⟩
  intro query irob queryRange held
  obtain ⟨fresh, kept⟩ := sound.pending query irob queryRange held
  refine ⟨fresh, kept.phase, kept.ready, fun ready => ?_⟩
  by_cases same : query = id
  · subst same
    exact .inl (done irob held ready)
  · exact (kept.released ready).imp_right fun open' => ⟨same, open'⟩

/-- A released IROB is queued, under an identifier that was not queued before. -/
theorem queued_release (queued : Queued hand state) (wf : state.irobs.WellFormed)
    (inRange : id.InRange) {irob : ReceiverIrob} (found : state.irobs.find id = some irob)
    (unreleased : irob.own.released = false) :
    Queued hand { state with
      irobs := state.irobs.update id ReceiverIrob.release
      readyIrobs := state.readyIrobs.insert (.work irob.id false irob.sendLabels) } := by
  have named := wf.find_id inRange found
  have notReleased : ¬ReleasedAt state.irobs id := by
    rintro ⟨held, heldEq, flag⟩
    rw [found] at heldEq
    cases heldEq
    rw [unreleased] at flag
    cases flag
  have unlisted : ¬(id ∈ state.readyIds ∨ state.partiallyReadIrob = some id ∨ hand = some id) :=
    fun listed => notReleased ((queued.places id).mp listed).2
  have perm : (IrobPrioritySet.place (.work irob.id false irob.sendLabels)
      state.readyIrobs.tasks).Perm
      (.work irob.id false irob.sendLabels :: state.readyIrobs.tasks) := by
    apply IrobPrioritySet.place_perm
    intro task member same
    exact unlisted (.inl (List.mem_map.mpr ⟨task, member, same.trans named⟩))
  have ids := perm.map (·.id)
  rw [List.map_cons] at ids
  refine ⟨fun query => ?_, ?_, fun query held listed => ?_⟩
  · have releasedIff : query.InRange → (ReleasedAt
        (state.irobs.update id ReceiverIrob.release) query ↔
          query = id ∨ ReleasedAt state.irobs query) := by
      intro queryRange
      unfold ReleasedAt
      rw [wf.find_write inRange found _ queryRange]
      split_ifs with same
      · exact iff_of_true ⟨_, rfl, rfl⟩ (.inl same)
      · simp only [same, false_or]
    have listed : query ∈ (IrobPrioritySet.place (.work irob.id false irob.sendLabels)
        state.readyIrobs.tasks).map (·.id) ↔ query = id ∨ query ∈ state.readyIds := by
      rw [ids.mem_iff, List.mem_cons]
      exact or_congr_left (by rw [← named]; rfl)
    refine (or_congr_left listed).trans ?_
    rw [or_assoc, queued.places query]
    constructor
    · rintro (same | ⟨queryRange, flag⟩)
      · exact ⟨same ▸ inRange, (releasedIff (same ▸ inRange)).mpr (.inl same)⟩
      · exact ⟨queryRange, (releasedIff queryRange).mpr (.inr flag)⟩
    · rintro ⟨queryRange, flag⟩
      rcases (releasedIff queryRange).mp flag with same | before
      · exact .inl same
      · exact .inr ⟨queryRange, before⟩
  · apply ids.nodup_iff.mpr
    apply List.nodup_cons.mpr
    exact ⟨fun listed => unlisted (.inl (named ▸ listed)), queued.nodup⟩
  · rcases List.mem_cons.mp (ids.mem_iff.mp listed) with same | before
    · have queryId : query = id := same.trans named
      rw [queryId] at held
      exact unlisted (.inr held)
    · exact queued.apart query held before

/-- A ready IROB is released. -/
theorem release (sound : Sound contents unsettled hand state history) (inRange : id.InRange)
    {irob : ReceiverIrob} (found : state.irobs.find id = some irob) (ready : Ready irob)
    (unreleased : irob.own.released = false) :
    Sound contents (fun query => query ≠ id ∧ unsettled query) hand { state with
      irobs := state.irobs.update id ReceiverIrob.release
      readyIrobs := state.readyIrobs.insert (.work irob.id false irob.sendLabels) } history where
  wf := sound.wf.update fun held heldFound =>
    ⟨rfl, fun other member => sound.wf.find_dependents inRange heldFound other member⟩
  pending := by
    intro query other queryRange held
    simp only at held
    rw [sound.wf.find_write inRange found _ queryRange] at held
    split_ifs at held with same
    · cases held
      subst same
      obtain ⟨fresh, pending⟩ := sound.pending query irob queryRange found
      have data : SameData (ReceiverIrob.release irob) irob := ⟨rfl, rfl, rfl, rfl, rfl⟩
      refine ⟨fresh, pending.phase.congr data, fun _ => ?_, fun _ => .inl rfl⟩
      obtain ⟨real, done, satisfied⟩ := ready
      exact ⟨real, data.isComplete_eq.trans done, satisfied⟩
    · obtain ⟨otherFresh, kept⟩ := sound.pending query other queryRange held
      exact ⟨otherFresh, kept.phase, kept.ready, fun isReady =>
        (kept.released isReady).imp_right fun open' => ⟨same, open'⟩⟩
  unseen := by
    intro query absent queryFresh
    refine sound.unseen query (fun queryRange => ?_) queryFresh
    have none := absent queryRange
    simp only at none
    rw [sound.wf.find_write inRange found _ queryRange] at none
    split_ifs at none
    exact none
  past := sound.past
  queued := queued_release sound.queued sound.wf inRange found unreleased

/-- `release_if_ready` settles its IROB. -/
theorem releaseIfReady (sound : Sound contents unsettled hand state history)
    (inRange : id.InRange) :
    ∃ next, state.releaseIfReady id = some next ∧
      Sound contents (fun query => query ≠ id ∧ unsettled query) hand next history ∧
      ∀ query : IrobId, query.InRange → (next.irobs.find query).isSome =
        (state.irobs.find query).isSome := by
  unfold ReceiverLattice.releaseIfReady
  cases found : state.irobs.find id with
  | none =>
      refine ⟨state, rfl, sound.settled fun irob held => ?_, fun _ _ => rfl⟩
      cases found.symm.trans held
  | some irob =>
      obtain ⟨-, pending⟩ := sound.pending id irob inRange found
      obtain ⟨whole, complete⟩ := pending.phase.isComplete_eq
      have decision : ReceiverIrob.readyIrob irob =
          some (whole && isReady irob && !irob.own.released) := by
        rw [readyIrob, complete, Option.map_some]
      have readyIff : (whole && isReady irob) = true ↔ Ready irob := by
        rw [Ready, complete, isReady]
        simp only [Bool.and_eq_true, Bool.not_eq_eq_eq_not, Bool.not_true, Option.some.injEq]
        tauto
      simp only [decision, Option.map_some]
      by_cases ready : (whole && isReady irob && !irob.own.released) = true
      · rw [if_pos ready]
        obtain ⟨isReady, unreleased⟩ := Bool.and_eq_true_iff.mp ready
        have released := sound.release inRange found (readyIff.mp isReady)
          (by simpa using unreleased)
        refine ⟨_, rfl, released, fun query queryRange => ?_⟩
        simp only
        rw [sound.wf.find_write inRange found _ queryRange]
        split_ifs with same
        · rw [same, found]
          rfl
        · rfl
      · rw [if_neg ready]
        refine ⟨state, rfl, sound.settled fun held heldFound isReady => ?_, fun _ _ => rfl⟩
        cases found.symm.trans heldFound
        by_contra unreleased
        apply ready
        exact Bool.and_eq_true_iff.mpr ⟨readyIff.mpr isReady, by simpa using unreleased⟩

/-- `release_dependents` settles all the dependents. -/
theorem releaseDependents {dependents : List IrobId}
    (sound : Sound contents unsettled hand state history)
    (ranged : ∀ dependent ∈ dependents, dependent.InRange) :
    ∃ next, state.releaseDependents dependents = some next ∧
      Sound contents (fun query => query ∉ dependents ∧ unsettled query) hand next history := by
  induction dependents generalizing state unsettled with
  | nil => exact ⟨state, rfl, sound.weaken fun _ open' => ⟨List.not_mem_nil, open'⟩⟩
  | cons dependent rest ih =>
      obtain ⟨middle, releasing, middleSound, -⟩ :=
        sound.releaseIfReady (ranged dependent List.mem_cons_self)
      obtain ⟨last, onward, lastSound⟩ := ih middleSound
        fun other member => ranged other (List.mem_cons_of_mem _ member)
      refine ⟨last, Option.bind_eq_some_iff.mpr ⟨middle, releasing, onward⟩,
        lastSound.weaken ?_⟩
      rintro query ⟨notLater, other, open'⟩
      refine ⟨fun member => ?_, open'⟩
      rcases List.mem_cons.mp member with same | later
      · exact other same
      · exact notLater later

/-! ### Messages -/

/-- The receiver holds an IROB with its `Begin_IROB`, all of its chunks and its
end, or has delivered it. -/
def Holds (state : ReceiverLattice) (id : IrobId) : Prop :=
  state.irobs.pastIrobs.contains id = true ∨
    ∃ irob, state.irobs.find id = some irob ∧ isComplete irob = some true ∧
      irob.placeholder = false

/-- What handling a conforming message about an IROB does. -/
structure Handles (contents : Contents) (hand : Option IrobId) (history : List Observation)
    (id : IrobId) (handled : Handled) : Prop where
  sound : Sound contents (fun _ => False) hand handled.after history
  clean : handled.verdict = .taken ∨ handled.verdict = .duplicate
  ack : handled.ack.isSome = true → Holds handled.after id

/-- The common end of the handlers. -/
theorem settle (sound : Sound contents (fun query => query = id) hand state history)
    (inRange : id.InRange) {irob : ReceiverIrob} (found : state.irobs.find id = some irob)
    {verdict : Verdict} (clean : verdict = .taken ∨ verdict = .duplicate) :
    ∃ handled, state.settle id verdict = some handled ∧
      Handles contents hand history id handled := by
  obtain ⟨next, releasing, nextSound, present⟩ := sound.releaseIfReady inRange
  have still : (next.irobs.find id).isSome = true := by
    rw [present id inRange, found]
    rfl
  obtain ⟨after, afterFound⟩ := Option.isSome_iff_exists.mp still
  obtain ⟨whole, complete⟩ := (nextSound.pending id after inRange afterFound).2.phase.isComplete_eq
  refine ⟨⟨next, verdict, if whole && !after.placeholder then some true else none⟩, ?_,
    nextSound.weaken fun query open' => open'.1 open'.2, clean, ?_⟩
  · unfold ReceiverLattice.settle
    simp only [releasing, Option.bind_eq_bind, Option.bind_some, afterFound, complete]
  · intro acked
    simp only at acked
    split_ifs at acked with done
    · obtain ⟨isWhole, real⟩ := Bool.and_eq_true_iff.mp done
      exact .inr ⟨after, afterFound, by rw [complete, isWhole], by simpa using real⟩
    · cases acked

/-- A placeholder is made for an IROB not seen before. -/
theorem findOrHold (sound : Sound contents unsettled hand state history) (inRange : id.InRange)
    (known : ¬((state.irobs.find id).isNone && state.irobs.pastIrobExists id) = true) :
    ∃ held irob, state.findOrHold id = some (held, irob) ∧
      Sound contents unsettled hand held history ∧ held.irobs.find id = some irob := by
  cases found : state.irobs.find id with
  | some irob =>
      refine ⟨state, irob, ?_, sound, found⟩
      rw [ReceiverLattice.findOrHold_def, found]
  | none =>
      have fresh : state.irobs.pastIrobs.contains id = false := by
        simpa [found, IrobLattice.pastIrobExists] using known
      obtain ⟨placed, -, holding, placedWf, placedRest, finds⟩ :=
        findOrHold_placeholder sound.wf inRange found fresh
      have placedFind : placed.find id = some (makePlaceholder id) := by
        rw [finds id inRange, if_pos rfl]
      refine ⟨{ state with irobs := placed }, makePlaceholder id, holding, ?_, placedFind⟩
      refine ⟨placedWf, ?_, ?_, ?_, ?_⟩
      · intro query irob queryRange held
        simp only [placedRest.past]
        rw [finds query queryRange] at held
        split_ifs at held with same
        · cases held
          subst same
          refine ⟨fresh, .receiving ?_ (receiving_makePlaceholder _ _), fun flag => ?_,
            fun ready => ?_⟩
          · exact sound.unseen query (fun _ => found) fresh
          · cases flag
          · cases ready.1
        · exact sound.pending query irob queryRange held
      · intro query absent queryFresh
        simp only [placedRest.past] at queryFresh
        refine sound.unseen query (fun queryRange => ?_) queryFresh
        have none := absent queryRange
        rw [finds query queryRange] at none
        split_ifs at none
        exact none
      · intro query contained
        simp only [placedRest.past] at contained
        exact sound.past query contained
      · refine sound.queued.congr rfl rfl fun query queryRange => ?_
        unfold ReleasedAt
        rw [finds query queryRange]
        split_ifs with same
        · rw [same, found]
          refine iff_of_false ?_ ?_
          · rintro ⟨held, heldEq, flag⟩
            cases heldEq
            cases flag
          · rintro ⟨held, heldEq, -⟩
            cases heldEq
        · exact Iff.rfl

/-- An IROB whose data changed in a handler is settled next. -/
theorem settle_after (sound : Sound contents (fun _ => False) hand state history)
    (inRange : id.InRange) {irob after : ReceiverIrob} (found : state.irobs.find id = some irob)
    (links : PendingIrob.SameLinks after irob)
    (released : after.own.released = irob.own.released)
    (phase : Phase (contents id) (deliveredBytes history id) after)
    (ready : irob.own.released = true → Ready after) {verdict : Verdict}
    (clean : verdict = .taken ∨ verdict = .duplicate) :
    ∃ handled, ReceiverLattice.settle
        { state with irobs := state.irobs.update id fun _ => after } id verdict = some handled ∧
      Handles contents hand history id handled := by
  have updated : Sound contents (fun query => query = id) hand
      { state with irobs := state.irobs.update id fun _ => after } history :=
    sound.update history inRange found links released
      ⟨phase, fun flag => ready (released ▸ flag), fun _ => .inr rfl⟩ (fun _ _ => False.elim)
      fun _ _ => rfl
  exact updated.settle inRange (sound.wf.find_write_self inRange found _) clean

/-- A duplicate about a delivered IROB is ignored. -/
theorem ignored (sound : Sound contents (fun _ => False) hand state history) {ack : Option Bool}
    (past : ack.isSome = true → state.irobs.pastIrobs.contains id = true) :
    Handles contents hand history id ⟨state, .duplicate, ack⟩ :=
  ⟨sound, .inr rfl, fun acked => .inl (past acked)⟩

/-- A chunk of the contents arrives. -/
theorem doIrobChunk (sound : Sound contents (fun _ => False) hand state history)
    (valid : contents.Valid) (inRange : id.InRange) {seqno offset : Nat} {data : List Byte}
    (conforms : contents.Conforms (.irobChunk id seqno offset data)) :
    ∃ handled, state.doIrobChunk id seqno offset data = some handled ∧
      Handles contents hand history id handled := by
  obtain ⟨listed, placed⟩ := conforms
  have nonempty : data ≠ [] := valid.blocks id data (List.mem_of_getElem? listed)
  rw [ReceiverLattice.doIrobChunk_def]
  rw [if_neg (by simpa using nonempty)]
  split_ifs with past
  · exact ⟨_, rfl, sound.ignored fun acked => (Bool.false_ne_true acked).elim⟩
  · obtain ⟨held, irob, holding, heldSound, found⟩ := sound.findOrHold inRange past
    obtain ⟨fresh, pending⟩ := heldSound.pending id irob inRange found
    obtain ⟨whole, complete⟩ := pending.phase.isComplete_eq
    simp only [holding, Option.bind_some]
    cases whole with
    | true =>
        have adding : irob.addChunk ⟨id, seqno, offset, data.length, some data⟩ =
            some (irob, false) := by
          unfold ReceiverIrob.addChunk
          rw [complete]
        simp only [adding, Option.bind_some, Bool.false_eq_true, ↓reduceIte, complete]
        exact heldSound.settle_after inRange found (.refl irob)
          rfl pending.phase pending.ready (.inr rfl)
    | false =>
        obtain ⟨start, receiving⟩ := pending.phase.toReceiving complete
        have named := heldSound.wf.find_id inRange found
        obtain ⟨added, adding, receiving'⟩ := receiving.addChunk complete
          ⟨id, seqno, offset, data.length, some data⟩ (by
            rw [IrobContent.chunks, getElem?_tile, listed, named, placed]
            simp only [Option.map_some, Nat.zero_add])
        simp only [adding, Option.bind_some, ↓reduceIte]
        have unreleased : irob.own.released = true → Ready added := fun flag => by
          have done := (pending.ready flag).2.1
          rw [complete] at done
          cases done
        have sameFlag : added.own.released = irob.own.released := by
          rcases addChunk_cases adding with same | ⟨-, -, -, same⟩
          · exact congrArg (·.own.released) same
          · exact congrArg (·.own.released) same
        exact heldSound.settle_after inRange found
          (addChunk_kept adding).links sameFlag (.receiving start receiving') unreleased (.inl rfl)

/-- The end of an IROB of the contents arrives. -/
theorem doEndIrob (sound : Sound contents (fun _ => False) hand state history)
    (inRange : id.InRange) {expectedBytes expectedChunks : Int}
    (conforms : contents.Conforms (.endIrob id expectedBytes expectedChunks)) :
    ∃ handled, state.doEndIrob id expectedBytes expectedChunks = some handled ∧
      Handles contents hand history id handled := by
  obtain ⟨final, allBytes, allChunks⟩ := conforms
  rw [ReceiverLattice.doEndIrob_def]
  split_ifs with past
  · exact ⟨_, rfl, sound.ignored fun _ => (Bool.and_eq_true_iff.mp past).2⟩
  · obtain ⟨held, irob, holding, heldSound, found⟩ := sound.findOrHold inRange past
    obtain ⟨fresh, pending⟩ := heldSound.pending id irob inRange found
    obtain ⟨whole, complete⟩ := pending.phase.isComplete_eq
    simp only [holding, Option.bind_some]
    cases whole with
    | true =>
        have finishing : irob.finish expectedBytes expectedChunks = some (irob, false) := by
          unfold ReceiverIrob.finish
          rw [complete]
        simp only [finishing, Option.bind_some, Bool.false_eq_true, ↓reduceIte]
        exact heldSound.settle_after inRange found (.refl irob)
          rfl pending.phase pending.ready (.inr rfl)
    | false =>
        obtain ⟨start, receiving⟩ := pending.phase.toReceiving complete
        obtain ⟨finished, opened, finishing, receiving'⟩ := receiving.finish complete final
        rw [← allBytes, ← allChunks] at finishing
        simp only [finishing, Option.bind_some]
        have unreleased : irob.own.released = true → Ready finished := fun flag => by
          have done := (pending.ready flag).2.1
          rw [complete] at done
          cases done
        have clean : (if opened then Verdict.taken else .duplicate) = .taken ∨
            (if opened then Verdict.taken else .duplicate) = .duplicate := by
          cases opened
          · exact .inr rfl
          · exact .inl rfl
        exact heldSound.settle_after inRange found (finish_kept finishing).links
          (finish_released finishing) (.receiving start receiving') unreleased clean

/-- An IROB whose `Begin_IROB` is accepted was here as a placeholder, if at all. -/
theorem unbegun (sound : Sound contents unsettled hand state history) (inRange : id.InRange)
    {begun : ReceiverIrob} (named : begun.id = id) (accepted : state.irobs.rejects begun = false) :
    state.irobs.pastIrobs.contains id = false ∧ ¬ReleasedAt state.irobs id ∧
      deliveredBytes history id = [] ∧
      ∀ present, state.irobs.find id = some present → Receiving (contents id) present := by
  unfold IrobLattice.rejects at accepted
  rw [named] at accepted
  obtain ⟨fresh, replaces⟩ := Bool.or_eq_false_iff.mp accepted
  have holder : ∀ present, state.irobs.find id = some present →
      present.placeholder = true ∧ deliveredBytes history id = [] ∧
        Receiving (contents id) present := by
    intro present found
    have placeholder : present.placeholder = true := by
      rw [found] at replaces
      simpa using replaces
    exact ⟨placeholder, (sound.pending id present inRange found).2.phase.of_placeholder placeholder⟩
  refine ⟨fresh, ?_, ?_, fun present found => (holder present found).2.2⟩
  · rintro ⟨present, found, flag⟩
    have real := ((sound.pending id present inRange found).2.ready flag).1
    rw [(holder present found).1] at real
    cases real
  · cases found : state.irobs.find id with
    | none => exact sound.unseen id (fun _ => found) fresh
    | some present => exact (holder present found).2.1

/-- What the insertion of a `Begin_IROB` does to the lattice: the IROB is received from now
on, and any other entry has the data it had, or is a new placeholder. -/
structure Begins (content : IrobContent) (id : IrobId) (before after : IrobLattice ReceiverPart) :
    Prop where
  wf : after.WellFormed
  past : after.pastIrobs = before.pastIrobs
  itself : ∃ irob, after.find id = some irob ∧ Receiving content irob ∧ irob.own.released = false
  others : ∀ query : IrobId, query.InRange → query ≠ id → ∀ irob, after.find query = some irob →
    (∃ old, before.find query = some old ∧ SameData irob old ∧ irob.deps = old.deps ∧
      irob.own.released = old.own.released) ∨
    (before.find query = none ∧ before.pastIrobs.contains query = false ∧
      irob = (makePlaceholder query).addDependent id)
  stays : ∀ query : IrobId, query.InRange → query ≠ id → ∀ old, before.find query = some old →
    ∃ irob, after.find query = some irob ∧ irob.own.released = old.own.released

/-- The IROB replaces its placeholder, and its unsatisfied dependencies get placeholders
where they are not here yet. -/
theorem begins (sound : Sound contents unsettled hand state history)
    (valid : contents.Valid) (inRange : id.InRange) {begun : ReceiverIrob}
    (shape : begun = mkBegun id (contents id).deps (contents id).sendLabels)
    (accepted : state.irobs.rejects begun = false) :
    ∃ irobs kept, state.irobs.insert begun false = some (irobs, some kept) ∧
      Begins (contents id) id state.irobs irobs := by
  have named : begun.id = id := by rw [shape]; rfl
  obtain ⟨-, -, -, holders⟩ := sound.unbegun inRange named accepted
  have merges : ∀ present, state.irobs.find id = some present →
      ∃ merged, begun.subsume present = some merged ∧ Receiving (contents id) merged ∧
        merged.own.released = false := by
    intro present found
    rw [shape]
    exact (holders present found).subsume (sound.wf.find_id inRange found)
  obtain ⟨placed, placing⟩ := IrobLattice.place_isSome accepted (by
    intro present found
    rw [named] at found
    obtain ⟨merged, merging, -⟩ := merges present found
    refine ⟨by rw [shape]; rfl, (sound.wf.find_id inRange found).trans named.symm, ?_⟩
    rw [show IrobClass.subsume begun present = begun.subsume present from rfl, merging]
    rfl)
  have stored : Receiving (contents id) placed.2 ∧ placed.2.own.released = false := by
    rcases (IrobLattice.place_cases placing).2 with ⟨-, same⟩ | ⟨present, found, -, -, merging⟩
    · rw [same, shape]
      exact ⟨receiving_mkBegun _ _ _ _, rfl⟩
    · rw [named] at found
      obtain ⟨merged, merging', receiving, flag⟩ := merges present found
      cases merging.symm.trans merging'
      exact ⟨receiving, flag⟩
  have keptEq : (placed.1.correctDeps placed.2 false).2 =
      placed.2.removeDepsIf placed.1.pastIrobs.contains := rfl
  obtain ⟨linked, inserting, linkedWf, linkedRest, finds⟩ := sound.wf.insert_placed
    (named.symm ▸ inRange) (by
      rw [shape]
      exact fun other member => (OrderedSet.not_mem_empty other member).elim)
    (by rw [shape]; rfl) accepted false placing (by
      intro dep member
      rw [keptEq] at member
      have own := (OrderedSet.mem_filter.mp member).1
      rw [(IrobLattice.place_links placing).2.2.1, shape] at own
      exact valid.deps id dep (OrderedSet.mem_ofList.mp own))
  generalize (placed.1.correctDeps placed.2 false).2 = kept at *
  rw [named] at finds
  refine ⟨linked, kept, inserting, ⟨linkedWf, ?_, ?_, ?_, ?_⟩⟩
  · obtain ⟨placedShape, -⟩ := IrobLattice.place_cases placing
    rw [linkedRest.past, (IrobLattice.correctDeps_lattice placed.1 placed.2 false).2.1, placedShape]
  · rw [finds id inRange]
    simp only [↓reduceIte, Option.getD_some, keptEq]
    split_ifs
    · exact ⟨_, rfl, stored.1.congr rfl rfl rfl rfl, stored.2⟩
    · exact ⟨_, rfl, stored.1.congr rfl rfl rfl rfl, stored.2⟩
  · intro query queryRange other irob found
    rw [finds query queryRange] at found
    simp only [other, ↓reduceIte] at found
    split_ifs at found with linksTo
    · cases found
      cases before : state.irobs.find query with
      | none => exact .inr ⟨rfl, linksTo.2, rfl⟩
      | some irob => exact .inl ⟨irob, rfl, ⟨rfl, rfl, rfl, rfl, rfl⟩, rfl, rfl⟩
    · exact .inl ⟨irob, found, ⟨rfl, rfl, rfl, rfl, rfl⟩, rfl, rfl⟩
  · intro query queryRange other old held
    rw [finds query queryRange]
    simp only [other, ↓reduceIte, held, Option.getD_some]
    split_ifs
    · exact ⟨_, rfl, rfl⟩
    · exact ⟨_, rfl, rfl⟩

/-- The released IROBs are the same after the insertion of a `Begin_IROB`. -/
theorem Begins.queued {content : IrobContent} {irobs : IrobLattice ReceiverPart}
    (begins : Begins content id state.irobs irobs) (queued : Queued hand state)
    (unreleased : ¬ReleasedAt state.irobs id) : Queued hand { state with irobs := irobs } := by
  refine queued.congr rfl rfl fun query queryRange => ?_
  by_cases same : query = id
  · subst same
    refine iff_of_false ?_ unreleased
    rintro ⟨irob, found, flag⟩
    obtain ⟨now, nowFound, -, nowFlag⟩ := begins.itself
    cases nowFound.symm.trans found
    cases nowFlag.symm.trans flag
  · constructor
    · rintro ⟨irob, found, flag⟩
      rcases begins.others query queryRange same irob found with
        ⟨before, held, -, -, sameFlag⟩ | ⟨-, -, rfl⟩
      · exact ⟨before, held, sameFlag ▸ flag⟩
      · cases flag
    · rintro ⟨before, held, flag⟩
      obtain ⟨irob, found, sameFlag⟩ := begins.stays query queryRange same before held
      exact ⟨irob, found, sameFlag.trans flag⟩

/-- The `Begin_IROB` of an IROB of the contents is inserted. -/
theorem insertBegun (sound : Sound contents (fun _ => False) hand state history)
    (valid : contents.Valid) (inRange : id.InRange) {begun : ReceiverIrob}
    (shape : begun = mkBegun id (contents id).deps (contents id).sendLabels)
    (accepted : state.irobs.rejects begun = false) :
    ∃ irobs kept, state.irobs.insert begun false = some (irobs, some kept) ∧
      Sound contents (fun query => query = id) hand { state with irobs := irobs } history ∧
      (irobs.find id).isSome = true := by
  obtain ⟨irobs, kept, inserting, begins⟩ := sound.begins valid inRange shape accepted
  obtain ⟨fresh, unreleased, nothing, -⟩ := sound.unbegun inRange (by rw [shape]; rfl) accepted
  obtain ⟨now, nowFound, receiving, nowFlag⟩ := begins.itself
  refine ⟨irobs, kept, inserting, ⟨begins.wf, ?_, ?_, ?_, begins.queued sound.queued unreleased⟩,
    by rw [nowFound]; rfl⟩
  · intro query irob queryRange found
    simp only [begins.past]
    by_cases same : query = id
    · subst same
      cases nowFound.symm.trans found
      refine ⟨fresh, .receiving nothing receiving, fun flag => ?_, fun _ => .inr rfl⟩
      cases nowFlag.symm.trans flag
    · rcases begins.others query queryRange same irob found with
        ⟨before, held, data, sameDeps, flag⟩ | ⟨absent, queryFresh, rfl⟩
      · obtain ⟨queryFresh, pending⟩ := sound.pending query before queryRange held
        have readyIff : Ready irob ↔ Ready before := by
          unfold Ready
          rw [data.placeholder, data.isComplete_eq, sameDeps]
        refine ⟨queryFresh, pending.phase.congr data, ?_, ?_⟩
        · rw [flag, readyIff]
          exact pending.ready
        · rw [flag, readyIff]
          exact fun ready => (pending.released ready).imp_right False.elim
      · refine ⟨queryFresh, .receiving (sound.unseen query (fun _ => absent) queryFresh)
          ((receiving_makePlaceholder _ _).congr rfl rfl rfl rfl), fun flag => ?_,
          fun ready => ?_⟩
        · cases flag
        · cases ready.1
  · intro query absent queryFresh
    simp only [begins.past] at queryFresh
    refine sound.unseen query (fun queryRange => ?_) queryFresh
    by_contra present
    obtain ⟨old, held⟩ := Option.ne_none_iff_exists'.mp present
    have none := absent queryRange
    simp only at none
    by_cases same : query = id
    · subst same
      cases nowFound.symm.trans none
    · obtain ⟨irob, found, -⟩ := begins.stays query queryRange same old held
      cases found.symm.trans none
  · intro query contained
    simp only [begins.past] at contained
    exact sound.past query contained

/-- The `Begin_IROB` of an IROB of the contents arrives. -/
theorem doBeginIrob (sound : Sound contents (fun _ => False) hand state history)
    (valid : contents.Valid) (inRange : id.InRange) {deps : List IrobId} {sendLabels : Nat}
    (conforms : contents.Conforms (.beginIrob id deps sendLabels)) :
    ∃ handled, state.doBeginIrob id deps sendLabels = some handled ∧
      Handles contents hand history id handled := by
  obtain ⟨rfl, rfl⟩ := conforms
  rw [ReceiverLattice.doBeginIrob_def]
  cases rejected : state.irobs.rejects
      (mkBegun id (contents id).deps (contents id).sendLabels) with
  | true =>
      have inserting : state.irobs.insert
          (mkBegun id (contents id).deps (contents id).sendLabels) false =
            some (state.irobs, none) := by
        rw [IrobLattice.insert_def]
        rw [if_pos rejected]
      simp only [inserting, Option.bind_some]
      exact ⟨_, rfl, sound.ignored fun acked => (Bool.false_ne_true acked).elim⟩
  | false =>
      obtain ⟨irobs, kept, inserting, insertedSound, present⟩ :=
        sound.insertBegun valid inRange rfl rejected
      obtain ⟨irob, found⟩ := Option.isSome_iff_exists.mp present
      simp only [inserting, Option.bind_some]
      exact insertedSound.settle inRange found (.inl rfl)

/-- A conforming message is handled without a failed `ASSERT` and without an
exception. -/
theorem dispatch (sound : Sound contents (fun _ => False) hand state history)
    (valid : contents.Valid) {message : Message} (inRange : message.id.InRange)
    (conforms : contents.Conforms message) :
    ∃ handled, state.dispatch message = some handled ∧
      Handles contents hand history message.id handled := by
  cases message with
  | beginIrob id deps sendLabels => exact sound.doBeginIrob valid inRange conforms
  | irobChunk id seqno offset data => exact sound.doIrobChunk valid inRange conforms
  | endIrob id expectedBytes expectedChunks => exact sound.doEndIrob inRange conforms

end Sound

end ReceiverLattice

end Libcmm
