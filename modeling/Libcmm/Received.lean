import Libcmm.Arrivals
import Libcmm.Insertion
import Libcmm.Robustness

/-! # Messages and the bound of the deque

The handlers insert into `incoming_irobs` with `insert_locked`, which throws where its `int`
index overflows. It also returns with an IROB that it has cut off again; then the handler goes on
with a pointer to freed memory. A message of which neither happens is handled as if the deque had
room for every index. That may take a deque that is empty: an IROB under the first identifier cuts
off whatever reaches up to the last one.
-/

namespace Libcmm

open Lib

namespace ReceiverLattice

open ReceiverIrob

/-- `incoming_irobs.insert`, and the use that is made of the IROB afterwards. None stands for an
exception or a failed assertion, and for an IROB that does not exist any more. -/
def insertReceived (irobs : IrobLattice ReceiverPart) (irob : ReceiverIrob) :
    Option (IrobLattice ReceiverPart × Option ReceiverIrob) :=
  match irobs.insertLocked irob false with
  | .error _ => none
  | .ok (after, none) => some (after, none)
  | .ok (after, some kept) =>
      if (after.find irob.id).any fun stored => stored.placeholder == irob.placeholder then
        some (after, some kept)
      else none

/-- The handlers. -/
def dispatchReceived (state : ReceiverLattice) (message : Message) : Option Handled :=
  state.dispatchWith insertReceived message

/-- The placeholder that is made for an IROB that is neither here nor past. -/
def newPlaceholder (state : ReceiverLattice) (id : IrobId) : Option ReceiverIrob :=
  if (state.irobs.find id).isNone && !state.irobs.pastIrobExists id then some (makePlaceholder id)
  else none

/-- The IROB that a handler inserts. -/
def inserts (state : ReceiverLattice) : Message → Option ReceiverIrob
  | .beginIrob id deps sendLabels => some (mkBegun id deps sendLabels)
  | .irobChunk id _ _ data => if data.isEmpty then none else state.newPlaceholder id
  | .endIrob id _ _ => state.newPlaceholder id

/-- The deque has room for the IROB that a message inserts. -/
def HasRoom (state : ReceiverLattice) (message : Message) : Prop :=
  ∀ irob ∈ state.inserts message, state.irobs.Insertable irob false

/-- A lattice of sane IROBs, the deque of which does not reach from the first identifier to the
last. -/
structure Bounded (state : ReceiverLattice) : Prop extends state.Orderly where
  apart : ¬state.irobs.Spans []

variable {state next : ReceiverLattice} {id : IrobId} {irob : ReceiverIrob} {message : Message}

theorem Bounded.empty : ReceiverLattice.empty.Bounded := by
  refine ⟨⟨.empty, .empty⟩, fun spans => ?_⟩
  exact (IrobLattice.spans_nil.mp spans).1.ne_nil rfl

/-! ### What the handlers insert -/

theorem newPlaceholder_cases (made : state.newPlaceholder id = some irob) :
    state.irobs.find id = none ∧ state.irobs.pastIrobs.contains id = false ∧
      irob = makePlaceholder id := by
  unfold newPlaceholder at made
  split_ifs at made with unseen
  rw [Bool.and_eq_true, Option.isNone_iff_eq_none, Bool.not_eq_true'] at unseen
  exact ⟨unseen.1, unseen.2, (Option.some.inj made).symm⟩

/-- Without a placeholder to make, the IROB is here or past. -/
theorem newPlaceholder_none (unmade : state.newPlaceholder id = none) :
    state.isPast id = true ∨ ∃ irob, state.irobs.find id = some irob := by
  unfold newPlaceholder at unmade
  unfold isPast
  cases found : state.irobs.find id with
  | some irob => exact .inr ⟨irob, rfl⟩
  | none =>
      rw [found] at unmade
      left
      cases past : state.irobs.pastIrobExists id with
      | true => rfl
      | false =>
          rw [past] at unmade
          cases unmade

theorem newPlaceholder_past
    (past : ((state.irobs.find id).isNone && state.irobs.pastIrobExists id) = true) :
    state.newPlaceholder id = none := by
  rw [Bool.and_eq_true] at past
  rw [newPlaceholder, past.2, Bool.not_true, Bool.and_false]
  rfl

section Congruence

variable {insert : IrobLattice ReceiverPart → ReceiverIrob →
  Option (IrobLattice ReceiverPart × Option ReceiverIrob)}

theorem findOrHoldWith_found (found : state.irobs.find id = some irob) :
    state.findOrHoldWith insert id = some (state, irob) := by
  unfold findOrHoldWith
  rw [found]

/-- How IROBs are inserted does not matter to a handler that inserts none. -/
theorem dispatchWith_inserts_none (inserted : state.inserts message = none) :
    state.dispatchWith insert message = state.dispatch message := by
  cases message with
  | beginIrob id deps sendLabels => cases inserted
  | irobChunk id seqno offset data =>
      change state.doIrobChunkWith insert id seqno offset data =
        state.doIrobChunkWith insertRoomy id seqno offset data
      unfold doIrobChunkWith
      unfold inserts at inserted
      dsimp only at inserted
      split_ifs at inserted ⊢ with empty past
      · rfl
      · rfl
      · rcases newPlaceholder_none inserted with isPast | ⟨irob, found⟩
        · exact (past isPast).elim
        · rw [findOrHoldWith_found found, findOrHoldWith_found found]
  | endIrob id expectedBytes expectedChunks =>
      change state.doEndIrobWith insert id expectedBytes expectedChunks =
        state.doEndIrobWith insertRoomy id expectedBytes expectedChunks
      unfold doEndIrobWith
      split_ifs with past
      · rfl
      · rcases newPlaceholder_none inserted with isPast | ⟨irob, found⟩
        · exact (past isPast).elim
        · rw [findOrHoldWith_found found, findOrHoldWith_found found]

/-- A handler that inserts an IROB depends on nothing else of how IROBs are inserted, nor of the
deque. -/
theorem dispatchWith_inserts_some (inserted : state.inserts message = some irob)
    {before : IrobLattice ReceiverPart} (same : insert state.irobs irob = insertRoomy before irob)
    (finds : state.irobs.find irob.id = none → before.find irob.id = none)
    (past : before.pastIrobs = state.irobs.pastIrobs) :
    state.dispatchWith insert message = ({ state with irobs := before } : ReceiverLattice).dispatch
      message := by
  have holds : ∀ id, state.newPlaceholder id = some irob →
      state.findOrHoldWith insert id =
        ({ state with irobs := before } : ReceiverLattice).findOrHoldWith insertRoomy id ∧
      ((state.irobs.find id).isNone && state.irobs.pastIrobExists id) = false ∧
      ((before.find id).isNone && before.pastIrobExists id) = false := by
    intro id made
    obtain ⟨absent, unsatisfied, rfl⟩ := newPlaceholder_cases made
    have beforeAbsent := finds absent
    rw [IrobLattice.makePlaceholder_id] at beforeAbsent
    refine ⟨?_, ?_, ?_⟩
    · unfold findOrHoldWith
      dsimp only
      rw [absent, beforeAbsent]
      dsimp only
      rw [same]
    · rw [IrobLattice.pastIrobExists, unsatisfied, Bool.and_false]
    · rw [IrobLattice.pastIrobExists, past, unsatisfied, Bool.and_false]
  cases message with
  | beginIrob id deps sendLabels =>
      cases inserted
      change state.doBeginIrobWith insert id deps sendLabels =
        ({ state with irobs := before } : ReceiverLattice).doBeginIrobWith insertRoomy id deps
          sendLabels
      unfold doBeginIrobWith
      rw [same]
  | irobChunk id seqno offset data =>
      change state.doIrobChunkWith insert id seqno offset data =
        ({ state with irobs := before } : ReceiverLattice).doIrobChunkWith insertRoomy id seqno
          offset data
      unfold inserts at inserted
      dsimp only at inserted
      split_ifs at inserted with empty
      obtain ⟨held, here, there⟩ := holds id inserted
      unfold doIrobChunkWith
      rw [if_neg empty, if_neg empty, if_neg (Bool.eq_false_iff.mp here),
        if_neg (Bool.eq_false_iff.mp there), held]
  | endIrob id expectedBytes expectedChunks =>
      change state.doEndIrobWith insert id expectedBytes expectedChunks =
        ({ state with irobs := before } : ReceiverLattice).doEndIrobWith insertRoomy id
          expectedBytes expectedChunks
      obtain ⟨held, here, there⟩ := holds id inserted
      unfold doEndIrobWith
      rw [if_neg (Bool.eq_false_iff.mp here), if_neg (Bool.eq_false_iff.mp there), held]

/-- A handler goes no further than its insertion. -/
theorem dispatchWith_none (inserted : state.inserts message = some irob)
    (fails : insert state.irobs irob = none) : state.dispatchWith insert message = none := by
  have holds : ∀ id, state.newPlaceholder id = some irob →
      state.findOrHoldWith insert id = none ∧
        ((state.irobs.find id).isNone && state.irobs.pastIrobExists id) = false := by
    intro id made
    obtain ⟨absent, unsatisfied, rfl⟩ := newPlaceholder_cases made
    constructor
    · unfold findOrHoldWith
      rw [absent]
      dsimp only
      rw [fails]
      rfl
    · rw [IrobLattice.pastIrobExists, unsatisfied, Bool.and_false]
  cases message with
  | beginIrob id deps sendLabels =>
      cases inserted
      change state.doBeginIrobWith insert id deps sendLabels = none
      unfold doBeginIrobWith
      rw [fails]
      rfl
  | irobChunk id seqno offset data =>
      change state.doIrobChunkWith insert id seqno offset data = none
      unfold inserts at inserted
      dsimp only at inserted
      split_ifs at inserted with empty
      obtain ⟨held, here⟩ := holds id inserted
      unfold doIrobChunkWith
      rw [if_neg empty, if_neg (Bool.eq_false_iff.mp here), held]
      rfl
  | endIrob id expectedBytes expectedChunks =>
      change state.doEndIrobWith insert id expectedBytes expectedChunks = none
      obtain ⟨held, here⟩ := holds id inserted
      unfold doEndIrobWith
      rw [if_neg (Bool.eq_false_iff.mp here), held]
      rfl

end Congruence

/-! ### The deque of a handled message -/

theorem releaseIfReady_hasSlot (released : state.releaseIfReady id = some next) {key : Int} :
    next.irobs.HasSlot key ↔ state.irobs.HasSlot key := by
  unfold releaseIfReady at released
  cases found : state.irobs.find id with
  | none =>
      rw [found] at released
      cases released
      exact Iff.rfl
  | some irob =>
      rw [found] at released
      obtain ⟨ready, -, rfl⟩ := Option.map_eq_some_iff.mp released
      split_ifs
      · exact IrobLattice.hasSlot_update
      · exact Iff.rfl

theorem releaseDependents_hasSlot {dependents : List IrobId}
    (released : state.releaseDependents dependents = some next) {key : Int} :
    next.irobs.HasSlot key ↔ state.irobs.HasSlot key := by
  induction dependents generalizing state with
  | nil =>
      cases released
      exact Iff.rfl
  | cons dependent rest ih =>
      obtain ⟨middle, releasing, onward⟩ := Option.bind_eq_some_iff.mp released
      exact (ih onward).trans (releaseIfReady_hasSlot releasing)

theorem settle_hasSlot {verdict : Verdict} {handled : Handled}
    (settled : state.settle id verdict = some handled) {key : Int} :
    handled.after.irobs.HasSlot key ↔ state.irobs.HasSlot key := by
  obtain ⟨released, releasing, onward⟩ := Option.bind_eq_some_iff.mp settled
  obtain ⟨irob, -, onward⟩ := Option.bind_eq_some_iff.mp onward
  obtain ⟨complete, -, finished⟩ := Option.bind_eq_some_iff.mp onward
  cases finished
  exact releaseIfReady_hasSlot releasing

/-- What a handler makes of the lattice before it takes the message. -/
def Prepares (state : ReceiverLattice) (inserted : Option ReceiverIrob)
    (irobs : IrobLattice ReceiverPart) : Prop :=
  match inserted with
  | none => irobs = state.irobs
  | some irob => ∃ kept, state.irobs.insert irob false = some (irobs, kept)

theorem findOrHold_prepares {held : ReceiverLattice × ReceiverIrob}
    (holding : state.findOrHold id = some held)
    (notPast : ((state.irobs.find id).isNone && state.irobs.pastIrobExists id) = false) :
    state.Prepares (state.newPlaceholder id) held.1.irobs := by
  rw [findOrHold_def] at holding
  unfold newPlaceholder
  cases found : state.irobs.find id with
  | some irob =>
      rw [found] at holding
      cases holding
      rfl
  | none =>
      rw [found] at holding notPast
      obtain ⟨result, inserting, onward⟩ := Option.bind_eq_some_iff.mp holding
      obtain ⟨kept, -, onward⟩ := Option.bind_eq_some_iff.mp onward
      obtain ⟨irob, -, finished⟩ := Option.bind_eq_some_iff.mp onward
      cases finished
      rw [if_pos (by simpa using notPast)]
      exact ⟨result.2, inserting⟩

/-- Apart from its insertion a handler adds no slot. -/
theorem dispatch_hasSlot {handled : Handled} (handling : state.dispatch message = some handled) :
    ∃ irobs, state.Prepares (state.inserts message) irobs ∧
      ∀ key : Int, handled.after.irobs.HasSlot key → irobs.HasSlot key := by
  cases message with
  | beginIrob id deps sendLabels =>
      change state.doBeginIrob id deps sendLabels = some handled at handling
      rw [doBeginIrob_def] at handling
      obtain ⟨result, inserting, onward⟩ := Option.bind_eq_some_iff.mp handling
      refine ⟨result.1, ⟨result.2, inserting⟩, fun key has => ?_⟩
      split at onward
      · cases onward
        exact has
      · exact (settle_hasSlot onward).mp has
  | irobChunk id seqno offset data =>
      change state.doIrobChunk id seqno offset data = some handled at handling
      rw [doIrobChunk_def] at handling
      by_cases empty : data.isEmpty = true
      · rw [if_pos empty] at handling
        cases handling
        have nothing : state.inserts (.irobChunk id seqno offset data) = none := if_pos empty
        rw [nothing]
        exact ⟨state.irobs, rfl, fun _ has => has⟩
      have asked : state.inserts (.irobChunk id seqno offset data) = state.newPlaceholder id :=
        if_neg empty
      rw [if_neg empty] at handling
      rw [asked]
      by_cases past : ((state.irobs.find id).isNone && state.irobs.pastIrobExists id) = true
      · rw [if_pos past] at handling
        cases handling
        exact ⟨state.irobs, newPlaceholder_past past ▸ rfl, fun _ has => has⟩
      rw [if_neg past] at handling
      obtain ⟨held, holding, onward⟩ := Option.bind_eq_some_iff.mp handling
      obtain ⟨added, -, onward⟩ := Option.bind_eq_some_iff.mp onward
      refine ⟨_, findOrHold_prepares holding (Bool.not_eq_true _ ▸ past), fun key has => ?_⟩
      dsimp only at onward
      split_ifs at onward
      · exact IrobLattice.hasSlot_update.mp ((settle_hasSlot onward).mp has)
      · obtain ⟨complete, -, onward⟩ := Option.bind_eq_some_iff.mp onward
        split_ifs at onward
        · exact IrobLattice.hasSlot_update.mp ((settle_hasSlot onward).mp has)
        · cases onward
          exact IrobLattice.hasSlot_update.mp has
  | endIrob id expectedBytes expectedChunks =>
      change state.doEndIrob id expectedBytes expectedChunks = some handled at handling
      rw [doEndIrob_def] at handling
      change ∃ irobs, state.Prepares (state.newPlaceholder id) irobs ∧ _
      split_ifs at handling with past
      · cases handling
        exact ⟨state.irobs, newPlaceholder_past past ▸ rfl, fun _ has => has⟩
      · obtain ⟨held, holding, onward⟩ := Option.bind_eq_some_iff.mp handling
        obtain ⟨finished, -, onward⟩ := Option.bind_eq_some_iff.mp onward
        exact ⟨_, findOrHold_prepares holding (Bool.not_eq_true _ ▸ past), fun key has =>
          IrobLattice.hasSlot_update.mp ((settle_hasSlot onward).mp has)⟩

/-! ### What is handled -/

theorem insertReceived_none {irobs : IrobLattice ReceiverPart} (wf : irobs.WellFormed)
    (apart : ¬irobs.Spans []) (inRange : irob.id.InRange)
    (ranged : ∀ dependent ∈ irob.dependents, dependent.InRange)
    (depsRange : ∀ dep ∈ irobs.requested irob false, dep.InRange)
    (unfit : ¬irobs.Insertable irob false) : insertReceived irobs irob = none := by
  unfold insertReceived
  cases inserted : irobs.insertLocked irob false with
  | error interruption => rfl
  | ok result =>
      obtain ⟨after, kept⟩ := result
      cases kept with
      | none => exact (unfit (.inl (IrobLattice.rejects_of_insertLocked inserted))).elim
      | some kept =>
          -- the IROB is gone, and at most a placeholder is there in its place
          obtain ⟨real, holders⟩ := wf.lost_of_not_insertable apart inRange ranged depsRange unfit
            inserted
          refine if_neg ?_
          cases found : after.find irob.id with
          | none => exact Bool.false_ne_true
          | some stored =>
              rw [Option.any_some, real, holders.find found]
              decide

theorem insertReceived_some {irobs : IrobLattice ReceiverPart} (wf : irobs.WellFormed)
    (apart : ¬irobs.Spans []) (inRange : irob.id.InRange)
    (ranged : ∀ dependent ∈ irob.dependents, dependent.InRange)
    (depsRange : ∀ dep ∈ irobs.requested irob false, dep.InRange)
    (fits : irobs.Insertable irob false) :
    ∃ before : IrobLattice ReceiverPart, (before = irobs ∨
        before = irobs.cutOff ∧ irob.id = (0 : Int) ∧ irobs.HasSlot IrobId.last) ∧
      insertReceived irobs irob = insertRoomy before irob ∧
      ∀ result ∈ before.insert irob false, ¬result.1.Spans [] := by
  obtain ⟨before, origin, inserting, after⟩ := wf.insertLocked_of_insertable apart inRange ranged
    depsRange fits
  have beforeWf : before.WellFormed ∧ ∀ dep ∈ before.requested irob false, dep.InRange := by
    rcases origin with rfl | ⟨rfl, -⟩
    · exact ⟨wf, depsRange⟩
    · exact ⟨.cutOff irobs, IrobLattice.requested_cutOff false ▸ depsRange⟩
  refine ⟨before, origin.imp_right fun cut => ⟨cut.1, cut.2.1, cut.2.2.1⟩, ?_, after⟩
  rw [insertReceived, inserting, insertRoomy]
  cases inserted : before.insert irob false with
  | none => rfl
  | some result =>
      obtain ⟨stored, kept⟩ := result
      cases kept with
      | none => rfl
      | some kept =>
          obtain ⟨own, found, kind⟩ := beforeWf.1.find_inserted inRange ranged beforeWf.2 inserted
          refine if_pos ?_
          rw [found, Option.any_some, kind]
          exact beq_self_eq_true _

/-- A message in range has an IROB inserted that is in range. -/
theorem inserts_ranged (ranged : message.Ranged) (inserted : state.inserts message = some irob) :
    irob.id = message.id ∧ (∀ dependent ∈ irob.dependents, dependent.InRange) ∧
      ∀ dep ∈ state.irobs.requested irob false, dep.InRange := by
  have placeholder : ∀ id, id.InRange → state.newPlaceholder id = some irob → irob.id = id ∧
      (∀ dependent ∈ irob.dependents, dependent.InRange) ∧
        ∀ dep ∈ state.irobs.requested irob false, dep.InRange := by
    intro id inRange made
    obtain ⟨-, -, rfl⟩ := newPlaceholder_cases made
    refine ⟨rfl, fun other member => (OrderedSet.not_mem_empty other member).elim, ?_⟩
    rw [IrobLattice.requested_placeholder rfl]
    intro dep asked
    cases List.mem_singleton.mp asked
    exact inRange
  cases message with
  | beginIrob id deps sendLabels =>
      cases inserted
      refine ⟨rfl, fun other member => (OrderedSet.not_mem_empty other member).elim, ?_⟩
      intro dep asked
      rcases List.mem_cons.mp asked with rfl | linked
      · exact ranged.1
      · have own := (OrderedSet.mem_filter.mp (OrderedSet.mem_toList.mp linked)).1
        exact ranged.2 dep (OrderedSet.mem_ofList.mp own)
  | irobChunk id seqno offset data =>
      unfold inserts at inserted
      dsimp only at inserted
      split_ifs at inserted
      exact placeholder id ranged inserted
  | endIrob id expectedBytes expectedChunks => exact placeholder id ranged.1 inserted

/-- Without a slot for the first identifier it does not matter to a message about it whether the
deque was cut off. -/
theorem cutOff_same (absent : state.irobs.find message.id = none) :
    let cut : ReceiverLattice := { state with irobs := state.irobs.cutOff }
    cut.inserts message = state.inserts message ∧ (cut.Fits message ↔ state.Fits message) := by
  have cutAbsent : state.irobs.cutOff.find message.id = none := Window.get_of_empty rfl _
  cases message with
  | beginIrob id deps sendLabels => exact ⟨rfl, Iff.rfl⟩
  | irobChunk id seqno offset data =>
      change state.irobs.find id = none at absent
      change state.irobs.cutOff.find id = none at cutAbsent
      unfold inserts newPlaceholder Fits isPast heldIrob
      dsimp only
      rw [absent, cutAbsent]
      exact ⟨rfl, Iff.rfl⟩
  | endIrob id expectedBytes expectedChunks =>
      change state.irobs.find id = none at absent
      change state.irobs.cutOff.find id = none at cutAbsent
      unfold inserts newPlaceholder Fits isPast heldIrob
      dsimp only
      rw [absent, cutAbsent]
      exact ⟨rfl, Iff.rfl⟩

/-- A message is handled where it fits and has room, and leaves the lattice bounded. -/
theorem dispatchReceived_decides (bounded : state.Bounded) (ranged : message.Ranged) :
    (state.Fits message ∧ state.HasRoom message →
      ∃ handled, state.dispatchReceived message = some handled ∧ handled.after.Bounded) ∧
    (¬(state.Fits message ∧ state.HasRoom message) → state.dispatchReceived message = none) := by
  unfold HasRoom
  cases inserted : state.inserts message with
  | none =>
      obtain ⟨fitting, unfitting⟩ := dispatch_decides bounded.toOrderly ranged
      rw [dispatchReceived, dispatchWith_inserts_none inserted]
      refine ⟨fun both => ?_, fun unfit => unfitting fun fits => unfit ⟨fits, fun irob asked => ?_⟩⟩
      · obtain ⟨handled, handling, orderly⟩ := fitting both.1
        refine ⟨handled, handling, orderly, fun spans => bounded.apart ?_⟩
        obtain ⟨irobs, prepared, slots⟩ := dispatch_hasSlot handling
        rw [inserted] at prepared
        cases prepared
        rw [IrobLattice.spans_nil] at spans ⊢
        exact spans.imp (slots _) (slots _)
      · cases asked
  | some irob =>
      obtain ⟨named, dependents, asked⟩ := inserts_ranged ranged inserted
      have inRange : irob.id.InRange := named ▸ ranged.id
      by_cases room : state.irobs.Insertable irob false
      · obtain ⟨before, origin, inserting, after⟩ := insertReceived_some bounded.wf bounded.apart
          inRange dependents asked room
        have same : ({ state with irobs := before } : ReceiverLattice).Orderly ∧
            ({ state with irobs := before } : ReceiverLattice).inserts message = some irob ∧
            (({ state with irobs := before } : ReceiverLattice).Fits message ↔
              state.Fits message) ∧
            (state.irobs.find irob.id = none → before.find irob.id = none) ∧
            before.pastIrobs = state.irobs.pastIrobs := by
          rcases origin with rfl | ⟨rfl, first, last⟩
          · exact ⟨bounded.toOrderly, inserted, Iff.rfl, id, rfl⟩
          · have absent : state.irobs.find irob.id = none := by
              cases found : state.irobs.find irob.id with
              | none => rfl
              | some present =>
                  refine (bounded.apart (IrobLattice.spans_nil.mpr ⟨?_, last⟩)).elim
                  exact first ▸ bounded.wf.hasSlot_of_find inRange found
            obtain ⟨cutInserts, cutFits⟩ := cutOff_same (named ▸ absent)
            refine ⟨⟨.cutOff state.irobs, fun key other used => ?_⟩, cutInserts.trans inserted,
              cutFits, fun _ => Window.get_of_empty rfl _, rfl⟩
            rw [Window.get_of_empty rfl] at used
            cases used
        obtain ⟨orderly, sameInserted, sameFits, finds, past⟩ := same
        obtain ⟨fitting, unfitting⟩ := dispatch_decides orderly ranged
        rw [dispatchReceived, dispatchWith_inserts_some inserted inserting finds past]
        refine ⟨fun both => ?_, fun unfit => unfitting fun fits => unfit ⟨sameFits.mp fits, ?_⟩⟩
        · obtain ⟨handled, handling, afterOrderly⟩ := fitting (sameFits.mpr both.1)
          refine ⟨handled, handling, afterOrderly, fun spans => ?_⟩
          obtain ⟨irobs, prepared, slots⟩ := dispatch_hasSlot handling
          rw [sameInserted] at prepared
          obtain ⟨kept, result⟩ := prepared
          refine after _ result ?_
          rw [IrobLattice.spans_nil] at spans ⊢
          exact spans.imp (slots _) (slots _)
        · intro other named
          cases named
          exact room
      · refine ⟨fun both => (room (both.2 irob rfl)).elim, fun _ => ?_⟩
        rw [dispatchReceived, dispatchWith_none inserted
          (insertReceived_none bounded.wf bounded.apart inRange dependents asked room)]

/-! ### Reading -/

theorem passBytes_hasSlot {len : Nat} {flags : RecvFlags} {delivery : Delivery} {done : Bool}
    (passing : state.passBytes id irob len flags = some (next, delivery, done)) {key : Int}
    (has : next.irobs.HasSlot key) : state.irobs.HasSlot key := by
  obtain ⟨complete, -, onward⟩ := Option.bind_eq_some_iff.mp passing
  by_cases refused : irob.own.numBytes = 0 ∨ irob.isReady = false ∨ complete = false
  · rw [if_pos refused] at onward
    cases onward
  rw [if_neg refused] at onward
  obtain ⟨bytes, -, onward⟩ := Option.bind_eq_some_iff.mp onward
  obtain ⟨after, -, onward⟩ := Option.bind_eq_some_iff.mp onward
  obtain ⟨still, -, onward⟩ := Option.bind_eq_some_iff.mp onward
  simp only at onward
  split_ifs at onward
  · obtain ⟨last, releasing, finished⟩ := Option.bind_eq_some_iff.mp onward
    cases finished
    exact IrobLattice.hasSlot_update.mp
      (IrobLattice.hasSlot_erase ((releaseDependents_hasSlot releasing).mp has))
  · cases onward
    exact IrobLattice.hasSlot_update.mp has

theorem recv_bounded {len : Nat} {flags : RecvFlags} {deliveries : List Delivery}
    (bounded : state.Bounded) (reading : state.recv len flags = some (next, deliveries)) :
    next.Bounded := by
  refine ⟨recv_orderly bounded.toOrderly reading, ?_⟩
  refine recvLoop_keeps (motive := fun irobs _ => ¬irobs.Spans []) ?_ [] reading bounded.apart
  intro before after id irob len delivery done _ apart _ passing spans
  rw [IrobLattice.spans_nil] at apart spans
  exact apart (spans.imp (passBytes_hasSlot passing) (passBytes_hasSlot passing))

end ReceiverLattice

end Libcmm
