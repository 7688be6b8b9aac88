import Libcmm.DependencyOrder
import Libcmm.Incoming

/-! # Headers of any peer

The receiver takes the fields of a header as they come. Two things can go wrong. The
type of a header is compared with the size of the handler table in bytes, so that a type
beyond the last handler is looked up in the table as well. And the counters of an IROB
are related by assertions, which a peer breaks with an `End_IROB` that announces less
than has arrived or something else than before, or with chunks that exceed what was
announced. `Fits` says which headers go wrong in neither way.
-/

namespace Libcmm

open Lib

namespace ReceiverIrob

variable {irob : ReceiverIrob}

/-- The assertions of `is_complete` hold, and the bytes that have arrived are still there
unless the IROB is complete and begun. -/
structure Sane (irob : ReceiverIrob) : Prop where
  counted : irob.isComplete.isSome = true
  stored : irob.isComplete = some false ∨ irob.placeholder = true →
    irob.own.numBytes = irob.own.recvdBytes

theorem isComplete_isSome_iff : irob.isComplete.isSome = true ↔
    (irob.own.recvdBytes ≤ irob.own.expectedBytes ∨ irob.own.expectedBytes = -1) ∧
      (irob.own.expectedChunks = -1 ∨ irob.own.recvdChunks ≤ irob.own.expectedChunks) := by
  unfold isComplete
  split_ifs with bytes chunks
  · exact iff_of_true rfl ⟨bytes, chunks⟩
  · exact iff_of_false Bool.false_ne_true fun both => chunks both.2
  · exact iff_of_false Bool.false_ne_true fun both => bytes both.1

theorem Sane.complete_or (sane : irob.Sane) :
    irob.isComplete = some true ∨ irob.isComplete = some false := by
  obtain ⟨whole, complete⟩ := Option.isSome_iff_exists.mp sane.counted
  cases whole with
  | true => exact .inl complete
  | false => exact .inr complete

/-- Only the data matters. -/
theorem Sane.congr {other : ReceiverIrob} (sane : irob.Sane) (same : SameData other irob) :
    other.Sane := by
  have complete := same.isComplete_eq
  refine ⟨complete ▸ sane.counted, fun unread => ?_⟩
  rw [complete, same.placeholder] at unread
  rw [same.own]
  exact sane.stored unread

theorem sane_makePlaceholder (id : IrobId) : Sane (makePlaceholder id : ReceiverIrob) :=
  ⟨rfl, fun _ => rfl⟩

/-- The chunk is not stored, or it exceeds nothing that was announced. -/
def FitsChunk (irob : ReceiverIrob) (seqno datalen : Nat) : Prop :=
  irob.isComplete = some false →
    ¬(irob.own.expectedChunks ≠ -1 ∧ toULong irob.own.expectedChunks ≤ seqno) →
    (irob.chunks.getD seqno .zero).data = none →
      (irob.own.recvdBytes + datalen ≤ irob.own.expectedBytes ∨ irob.own.expectedBytes = -1) ∧
      (irob.own.expectedChunks = -1 ∨ irob.own.recvdChunks + 1 ≤ irob.own.expectedChunks)

/-- The IROB is complete already, or the first `End_IROB` announces at least what has
arrived, or a further one announces the same as the first. -/
def FitsEnd (irob : ReceiverIrob) (expectedBytes expectedChunks : Int) : Prop :=
  irob.isComplete = some false →
    (irob.own.expectedBytes = -1 ∧ irob.own.expectedChunks = -1 ∧
      irob.own.recvdBytes ≤ expectedBytes ∧
      (expectedChunks = -1 ∨ irob.own.recvdChunks ≤ expectedChunks)) ∨
    (irob.own.expectedBytes ≠ -1 ∧ irob.own.expectedChunks ≠ -1 ∧
      irob.own.expectedBytes = expectedBytes ∧ irob.own.expectedChunks = expectedChunks)

/-- `add_chunk` itself never traps, and its result is sound where the chunk fits. -/
theorem Sane.addChunk (sane : irob.Sane) (chunk : IrobChunk) :
    ∃ added fresh, irob.addChunk chunk = some (added, fresh) ∧
      (irob.FitsChunk chunk.seqno chunk.datalen → added.Sane) ∧
      (¬irob.FitsChunk chunk.seqno chunk.datalen → fresh = true ∧ added.isComplete = none) := by
  have ignored : ∀ fresh, irob.FitsChunk chunk.seqno chunk.datalen →
      irob.addChunk chunk = some (irob, fresh) →
      ∃ added fresh, irob.addChunk chunk = some (added, fresh) ∧
        (irob.FitsChunk chunk.seqno chunk.datalen → added.Sane) ∧
        (¬irob.FitsChunk chunk.seqno chunk.datalen → fresh = true ∧ added.isComplete = none) :=
    fun fresh fits added => ⟨irob, fresh, added, fun _ => sane, fun unfit => (unfit fits).elim⟩
  rcases sane.complete_or with complete | incomplete
  · refine ignored false (fun open' => ?_) ?_
    · cases complete.symm.trans open'
    · rw [ReceiverIrob.addChunk, complete]
  by_cases beyond : irob.own.expectedChunks ≠ -1 ∧ toULong irob.own.expectedChunks ≤ chunk.seqno
  · refine ignored false (fun _ within => (within beyond).elim) ?_
    rw [ReceiverIrob.addChunk, incomplete]
    simp only [sane.stored (.inl incomplete), ne_eq, not_true_eq_false, ↓reduceIte]
    rw [if_pos beyond]
  by_cases present : (irob.chunks.getD chunk.seqno .zero).data.isSome = true
  · have skips : ∃ fresh, irob.addChunk chunk = some (irob, fresh) := by
      rw [ReceiverIrob.addChunk, incomplete]
      simp only [sane.stored (.inl incomplete), ne_eq, not_true_eq_false, ↓reduceIte]
      rw [if_neg beyond, if_pos present]
      exact ⟨_, rfl⟩
    obtain ⟨fresh, skipping⟩ := skips
    refine ignored fresh (fun _ _ free => ?_) skipping
    rw [free] at present
    cases present
  -- the chunk is stored and counted
  have free : (irob.chunks.getD chunk.seqno .zero).data = none := by simpa using present
  refine ⟨{ irob with
    chunks := storeChunk irob.chunks chunk
    own := { irob.own with
      recvdChunks := irob.own.recvdChunks + 1
      numBytes := irob.own.numBytes + chunk.datalen
      recvdBytes := irob.own.recvdBytes + chunk.datalen } }, true, ?_, fun fits => ⟨?_, fun _ => ?_⟩,
    fun unfit => ⟨rfl, ?_⟩⟩
  · rw [ReceiverIrob.addChunk, incomplete]
    simp only [sane.stored (.inl incomplete), ne_eq, not_true_eq_false, ↓reduceIte]
    rw [if_neg beyond, if_neg present]
  · exact isComplete_isSome_iff.mpr (fits incomplete beyond free)
  · exact congrArg (· + (chunk.datalen : Int)) (sane.stored (.inl incomplete))
  · rw [← Option.not_isSome_iff_eq_none, isComplete_isSome_iff]
    exact fun counted => unfit fun _ _ _ => counted

/-- `finish` traps, or its result does at the next `is_complete`, unless the end fits. -/
theorem Sane.finish (sane : irob.Sane) {expectedBytes : Int} (nonneg : 0 ≤ expectedBytes)
    (expectedChunks : Int) :
    (irob.FitsEnd expectedBytes expectedChunks → ∃ finished fresh,
      irob.finish expectedBytes expectedChunks = some (finished, fresh) ∧ finished.Sane) ∧
    (¬irob.FitsEnd expectedBytes expectedChunks →
      ∀ result ∈ irob.finish expectedBytes expectedChunks, result.1.isComplete = none) := by
  rcases sane.complete_or with complete | incomplete
  · refine ⟨fun _ => ⟨irob, false, ?_, sane⟩, fun unfit => (unfit fun open' => ?_).elim⟩
    · rw [ReceiverIrob.finish, complete]
    · cases complete.symm.trans open'
  have stored := sane.stored (.inl incomplete)
  have counted := isComplete_isSome_iff.mp sane.counted
  rw [FitsEnd, ReceiverIrob.finish, incomplete]
  simp only [forall_const]
  split_ifs with opened both again
  · refine ⟨fun fits => ⟨_, _, rfl, isComplete_isSome_iff.mpr ?_, fun _ => stored⟩,
      fun unfit result same => ?_⟩
    · simp only
      omega
    · cases same
      rw [← Option.not_isSome_iff_eq_none, isComplete_isSome_iff]
      simp only
      omega
  · exact ⟨fun fits => by omega, fun _ result none => by cases none⟩
  · refine ⟨fun _ => ⟨_, _, rfl, isComplete_isSome_iff.mpr counted, fun _ => stored⟩,
      fun unfit => ?_⟩
    omega
  · exact ⟨fun fits => by omega, fun _ result none => by cases none⟩

/-- A begun IROB takes over what its placeholder has, whatever that is. -/
theorem Sane.subsume {id : IrobId} {deps : List IrobId} {sendLabels : Nat}
    (sane : irob.Sane) (holder : irob.placeholder = true) :
    ∃ merged, (mkBegun id deps sendLabels).subsume irob = some merged ∧ merged.Sane := by
  -- while it is filled the new IROB expects nothing, so nothing is exceeded
  have fills : ∀ (chunks : List IrobChunk) (start : ReceiverIrob), start.complete = false →
      start.own.expectedBytes = -1 → start.own.expectedChunks = -1 →
      start.own.numBytes = start.own.recvdBytes →
        ∃ filled, chunks.foldlM (fun sofar chunk =>
          (ReceiverIrob.addChunk sofar chunk).map Prod.fst) start = some filled := by
    intro chunks
    induction chunks with
    | nil => exact fun start _ _ _ _ => ⟨start, rfl⟩
    | cons chunk rest ih =>
        intro start opened noBytes noChunks stored
        have counted : start.isComplete.isSome = true :=
          isComplete_isSome_iff.mpr ⟨.inr noBytes, .inl noChunks⟩
        obtain ⟨added, fresh, adding, -, -⟩ := Sane.addChunk ⟨counted, fun _ => stored⟩ chunk
        have next : added.complete = false ∧ added.own.expectedBytes = -1 ∧
            added.own.expectedChunks = -1 ∧ added.own.numBytes = added.own.recvdBytes := by
          rcases addChunk_cases adding with same | ⟨-, -, -, same⟩
          · rw [show added = start from same]
            exact ⟨opened, noBytes, noChunks, stored⟩
          · rw [show added = _ from same]
            exact ⟨opened, noBytes, noChunks, congrArg (· + (chunk.datalen : Int)) stored⟩
        obtain ⟨filled, filling⟩ := ih added next.1 next.2.1 next.2.2.1 next.2.2.2
        refine ⟨filled, ?_⟩
        rw [List.foldlM_cons, adding]
        exact filling
  obtain ⟨filled, filling⟩ := fills irob.chunks
    { mkBegun id deps sendLabels with
      dependents := (mkBegun id deps sendLabels).dependents.insertAll irob.dependents.toList }
    rfl rfl rfl rfl
  refine ⟨{ filled with
    complete := irob.complete
    own := { irob.own with released := filled.own.released } }, ?_, ?_⟩
  · rw [ReceiverIrob.subsume, PendingIrob.subsume, filling]
    rfl
  · have counted := isComplete_isSome_iff.mp sane.counted
    exact ⟨isComplete_isSome_iff.mpr counted, fun _ => sane.stored (.inr holder)⟩

end ReceiverIrob

/-- The identifiers a message names are in range, and an end announces no negative
number of bytes. -/
def Message.Ranged : Message → Prop
  | .beginIrob id deps _ => id.InRange ∧ ∀ dep ∈ deps, dep.InRange
  | .irobChunk id _ _ _ => id.InRange
  | .endIrob id expectedBytes _ => id.InRange ∧ 0 ≤ expectedBytes

theorem Message.Ranged.id {message : Message} (ranged : message.Ranged) : message.id.InRange := by
  cases message with
  | beginIrob id deps sendLabels => exact ranged.1
  | irobChunk id seqno offset data => exact ranged
  | endIrob id expectedBytes expectedChunks => exact ranged.1

namespace ReceiverLattice

open ReceiverIrob

variable {state next : ReceiverLattice} {id : IrobId} {irob : ReceiverIrob}

/-- The IROB a chunk or an end belongs to, also when it is not here yet. -/
def heldIrob (state : ReceiverLattice) (id : IrobId) : ReceiverIrob :=
  (state.irobs.find id).getD (makePlaceholder id)

/-- A message about an IROB that was delivered already. -/
def isPast (state : ReceiverLattice) (id : IrobId) : Bool :=
  (state.irobs.find id).isNone && state.irobs.pastIrobExists id

/-- The message agrees with what was received and announced of its IROB. -/
def Fits (state : ReceiverLattice) : Message → Prop
  | .beginIrob _ _ _ => True
  | .irobChunk id seqno _ data => data ≠ [] → state.isPast id = false →
      (state.heldIrob id).FitsChunk seqno data.length
  | .endIrob id expectedBytes expectedChunks => state.isPast id = false →
      (state.heldIrob id).FitsEnd expectedBytes expectedChunks

/-- A well-formed lattice of sane IROBs. -/
structure Orderly (state : ReceiverLattice) : Prop where
  wf : state.irobs.WellFormed
  sane : state.irobs.Every Sane

/-- Handling a message leaves an orderly lattice where the message fits, and traps where it
does not. -/
def Decides (handling : Option Handled) (fits : Prop) : Prop :=
  (fits → ∃ handled, handling = some handled ∧ handled.after.irobs.Every Sane) ∧
    (¬fits → handling = none)

/-- Releasing an IROB needs its assertions only. -/
theorem releaseIfReady_some (sane : state.irobs.Every Sane) (id : IrobId) :
    ∃ next, state.releaseIfReady id = some next ∧ next.irobs.Every Sane := by
  unfold releaseIfReady
  cases found : state.irobs.find id with
  | none => exact ⟨state, rfl, sane⟩
  | some irob =>
      obtain ⟨whole, complete⟩ := Option.isSome_iff_exists.mp (sane.find found).counted
      simp only [readyIrob, complete, Option.map_some]
      split_ifs
      · refine ⟨_, rfl, sane.update fun other _ otherSane => ?_⟩
        exact otherSane.congr ⟨rfl, rfl, rfl, rfl, rfl⟩
      · exact ⟨_, rfl, sane⟩

theorem releaseDependents_sane {dependents : List IrobId} (sane : state.irobs.Every Sane)
    (released : state.releaseDependents dependents = some next) : next.irobs.Every Sane := by
  induction dependents generalizing state with
  | nil =>
      cases released
      exact sane
  | cons dependent rest ih =>
      obtain ⟨middle, releasing, onward⟩ := Option.bind_eq_some_iff.mp released
      obtain ⟨same, releasingSame, middleSane⟩ := releaseIfReady_some sane dependent
      cases releasing.symm.trans releasingSame
      exact ih middleSane onward

/-- The common end of the handlers traps in `is_complete` or not at all. -/
theorem settle_some (wf : state.irobs.WellFormed) (sane : state.irobs.Every Sane)
    (inRange : id.InRange) (found : state.irobs.find id = some irob) (verdict : Verdict) :
    ∃ handled, state.settle id verdict = some handled ∧ handled.after.irobs.Every Sane := by
  obtain ⟨released, releasing, releasedSane⟩ := releaseIfReady_some sane id
  have still : ∃ now, released.irobs.find id = some now := by
    unfold releaseIfReady at releasing
    simp only [found] at releasing
    obtain ⟨ready, -, rfl⟩ := Option.map_eq_some_iff.mp releasing
    split_ifs
    · exact ⟨_, wf.find_write_self inRange found _⟩
    · exact ⟨irob, found⟩
  obtain ⟨now, held⟩ := still
  obtain ⟨whole, complete⟩ := Option.isSome_iff_exists.mp (releasedSane.find held).counted
  refine ⟨⟨released, verdict, if whole && !now.placeholder then some true else none⟩, ?_,
    releasedSane⟩
  unfold settle
  simp only [releasing, Option.bind_eq_bind, Option.bind_some, held, complete]

theorem settle_none (found : state.irobs.find id = some irob) (broken : irob.isComplete = none)
    (verdict : Verdict) : state.settle id verdict = none := by
  unfold settle releaseIfReady
  simp only [found, readyIrob, broken, Option.map_none, Option.bind_eq_bind, Option.bind_none]

/-- A placeholder is made for an IROB not seen before. -/
theorem findOrHold_some (orderly : state.Orderly) (inRange : id.InRange)
    (present : state.isPast id = false) :
    ∃ held, state.findOrHold id = some (held, state.heldIrob id) ∧ held.Orderly ∧
      held.irobs.find id = some (state.heldIrob id) := by
  unfold heldIrob
  cases found : state.irobs.find id with
  | some irob =>
      refine ⟨state, ?_, orderly, found⟩
      rw [findOrHold_def, found]
      rfl
  | none =>
      have fresh : state.irobs.pastIrobs.contains id = false := by
        rw [isPast, found] at present
        exact present
      obtain ⟨placed, placing, holding, placedWf, -, finds⟩ :=
        findOrHold_placeholder orderly.wf inRange found fresh
      have placedFind : placed.find id = some (makePlaceholder id) := by
        rw [finds id inRange, if_pos rfl]
      refine ⟨{ state with irobs := placed }, holding, ⟨placedWf, ?_⟩, placedFind⟩
      exact orderly.sane.place placing (sane_makePlaceholder id)

/-- An IROB is written back before its handler ends. -/
theorem settle_update (orderly : state.Orderly) (inRange : id.InRange)
    (found : state.irobs.find id = some irob) {after : ReceiverIrob}
    (links : PendingIrob.SameLinks after irob) (sane : after.Sane) (verdict : Verdict) :
    ∃ handled, ReceiverLattice.settle
        { state with irobs := state.irobs.update id fun _ => after } id verdict = some handled ∧
      handled.after.irobs.Every Sane := by
  have wf : (state.irobs.update id fun _ => after).WellFormed := orderly.wf.write found links
  have stored := orderly.wf.find_write_self inRange found fun _ => after
  exact settle_some wf (orderly.sane.update fun _ _ _ => sane) inRange stored verdict

theorem settle_update_none (wf : state.irobs.WellFormed) (inRange : id.InRange)
    (found : state.irobs.find id = some irob) {after : ReceiverIrob}
    (broken : after.isComplete = none) (verdict : Verdict) :
    ReceiverLattice.settle { state with irobs := state.irobs.update id fun _ => after } id verdict =
      none := by
  exact settle_none (wf.find_write_self inRange found _) broken verdict

theorem doEndIrob_decides (orderly : state.Orderly) (inRange : id.InRange)
    {expectedBytes expectedChunks : Int} (nonneg : 0 ≤ expectedBytes) :
    Decides (state.doEndIrob id expectedBytes expectedChunks)
      (state.Fits (.endIrob id expectedBytes expectedChunks)) := by
  rw [doEndIrob_def]
  change Decides (if state.isPast id = true then _ else _) _
  cases past : state.isPast id with
  | true =>
      rw [if_pos rfl]
      refine ⟨fun _ => ⟨_, rfl, orderly.sane⟩, fun unfit => (unfit fun present => ?_).elim⟩
      cases past.symm.trans present
  | false =>
      rw [if_neg Bool.false_ne_true]
      obtain ⟨held, holding, heldOrderly, found⟩ := findOrHold_some orderly inRange past
      simp only [holding, Option.bind_some]
      obtain ⟨fitting, unfitting⟩ :=
        (heldOrderly.sane.find found).finish nonneg expectedChunks
      refine ⟨fun fits => ?_, fun unfit => ?_⟩
      · obtain ⟨finished, fresh, finishing, sane⟩ := fitting (fits past)
        simp only [finishing, Option.bind_some]
        exact settle_update heldOrderly inRange found (finish_kept finishing).links sane _
      · cases finishing : (state.heldIrob id).finish expectedBytes expectedChunks with
        | none => rfl
        | some result =>
            have broken := unfitting (fun fits => unfit fun _ => fits) result finishing
            simp only [Option.bind_some]
            exact settle_update_none heldOrderly.wf inRange found broken _

theorem doIrobChunk_decides (orderly : state.Orderly) (inRange : id.InRange) {seqno offset : Nat}
    {data : List Byte} : Decides (state.doIrobChunk id seqno offset data)
      (state.Fits (.irobChunk id seqno offset data)) := by
  rw [doIrobChunk_def]
  by_cases empty : data = []
  · rw [if_pos (List.isEmpty_iff.mpr empty)]
    exact ⟨fun _ => ⟨_, rfl, orderly.sane⟩, fun unfit => (unfit fun some' => (some' empty).elim).elim⟩
  rw [if_neg (fun none => empty (List.isEmpty_iff.mp none))]
  change Decides (if state.isPast id = true then _ else _) _
  cases past : state.isPast id with
  | true =>
      rw [if_pos rfl]
      refine ⟨fun _ => ⟨_, rfl, orderly.sane⟩, fun unfit => (unfit fun _ present => ?_).elim⟩
      cases past.symm.trans present
  | false =>
      rw [if_neg Bool.false_ne_true]
      obtain ⟨held, holding, heldOrderly, found⟩ := findOrHold_some orderly inRange past
      obtain ⟨added, fresh, adding, fitting, unfitting⟩ :=
        (heldOrderly.sane.find found).addChunk ⟨id, seqno, offset, data.length, some data⟩
      simp only [holding, Option.bind_some, adding]
      refine ⟨fun fits => ?_, fun unfit => ?_⟩
      · have sane := fitting (fits empty past)
        have links := (addChunk_kept adding).links
        obtain ⟨whole, complete⟩ := Option.isSome_iff_exists.mp sane.counted
        split_ifs
        · exact settle_update heldOrderly inRange found links sane _
        · simp only [complete, Option.bind_some]
          split_ifs
          · exact settle_update heldOrderly inRange found links sane _
          · exact ⟨_, rfl, heldOrderly.sane.update fun _ _ _ => sane⟩
      · obtain ⟨rfl, broken⟩ := unfitting fun fits => unfit fun _ _ => fits
        rw [if_pos rfl]
        exact settle_update_none heldOrderly.wf inRange found broken _

/-- A `Begin_IROB` is always handled. -/
theorem doBeginIrob_decides (orderly : state.Orderly) (inRange : id.InRange) {deps : List IrobId}
    (depsRange : ∀ dep ∈ deps, dep.InRange) {sendLabels : Nat} :
    Decides (state.doBeginIrob id deps sendLabels)
      (state.Fits (.beginIrob id deps sendLabels)) := by
  refine ⟨fun _ => ?_, fun unfit => (unfit trivial).elim⟩
  rw [doBeginIrob_def]
  cases rejected : state.irobs.rejects (mkBegun id deps sendLabels) with
  | true =>
      have inserting : state.irobs.insert (mkBegun id deps sendLabels) false =
          some (state.irobs, none) := by
        rw [IrobLattice.insert_def]
        rw [if_pos rejected]
      simp only [inserting, Option.bind_some]
      exact ⟨_, rfl, orderly.sane⟩
  | false =>
      have merges : ∀ present, state.irobs.find id = some present → ∃ merged,
          (mkBegun id deps sendLabels).subsume present = some merged ∧ merged.Sane := by
        intro present found
        refine (orderly.sane.find found).subsume ?_
        unfold IrobLattice.rejects at rejected
        rw [show (mkBegun id deps sendLabels).id = id from rfl, found] at rejected
        simpa using (Bool.or_eq_false_iff.mp rejected).2
      obtain ⟨placed, placing⟩ := IrobLattice.place_isSome rejected (by
        intro present found
        obtain ⟨merged, merging, -⟩ := merges present found
        refine ⟨rfl, orderly.wf.find_id inRange found, ?_⟩
        rw [show IrobClass.subsume _ present = (mkBegun id deps sendLabels).subsume present from rfl,
          merging]
        rfl)
      have stored : Sane placed.2 := by
        rcases (IrobLattice.place_cases placing).2 with ⟨-, same⟩ | ⟨present, found, -, -, merging⟩
        · rw [same]
          exact ⟨rfl, fun _ => rfl⟩
        · obtain ⟨merged, merging', sane⟩ := merges present found
          cases merging.symm.trans merging'
          exact sane
      obtain ⟨linked, inserting, linkedWf, -, finds⟩ := orderly.wf.insert_placed inRange
        (fun other member => (OrderedSet.not_mem_empty other member).elim) rfl rejected false placing
        (by
          intro dep member
          have own := (OrderedSet.mem_filter.mp member).1
          rw [(IrobLattice.place_links placing).2.2.1] at own
          exact depsRange dep (OrderedSet.mem_ofList.mp own))
      have sane : linked.Every Sane := by
        apply orderly.sane.insert inserting sane_makePlaceholder
        · exact fun other held => held.congr ⟨rfl, rfl, rfl, rfl, rfl⟩
        · intro other placingOther _
          cases placing.symm.trans placingOther
          exact ⟨stored, stored.congr ⟨rfl, rfl, rfl, rfl, rfl⟩⟩
      have present : ∃ irob, linked.find id = some irob := by
        rw [finds id inRange]
        simp only [show (mkBegun id deps sendLabels).id = id from rfl, ↓reduceIte]
        split_ifs
        · exact ⟨_, rfl⟩
        · exact ⟨_, rfl⟩
      obtain ⟨irob, found⟩ := present
      simp only [inserting, Option.bind_some]
      exact settle_some linkedWf sane inRange found .taken

/-- A message that fits is handled, and leaves the lattice orderly; one that does not traps. -/
theorem dispatch_decides (orderly : state.Orderly) {message : Message} (ranged : message.Ranged) :
    (state.Fits message → ∃ handled, state.dispatch message = some handled ∧ handled.after.Orderly) ∧
      (¬state.Fits message → state.dispatch message = none) := by
  have decides : Decides (state.dispatch message) (state.Fits message) := by
    cases message with
    | beginIrob id deps sendLabels => exact doBeginIrob_decides orderly ranged.1 ranged.2
    | irobChunk id seqno offset data => exact doIrobChunk_decides orderly ranged
    | endIrob id expectedBytes expectedChunks => exact doEndIrob_decides orderly ranged.1 ranged.2
  refine ⟨fun fits => ?_, decides.2⟩
  obtain ⟨handled, handling, sane⟩ := decides.1 fits
  refine ⟨handled, handling, (Keeps.dispatch orderly.wf ranged.id ?_ handling).wf, sane⟩
  rintro id deps sendLabels rfl
  exact ranged.2

/-- A turn of `recv` reads an IROB that is complete and begun. -/
theorem passBytes_sane {len : Nat} {flags : RecvFlags} {delivery : Delivery} {done : Bool}
    (sane : state.irobs.Every Sane)
    (passing : state.passBytes id irob len flags = some (next, delivery, done)) :
    next.irobs.Every Sane := by
  obtain ⟨complete, whole, onward⟩ := Option.bind_eq_some_iff.mp passing
  by_cases refused : irob.own.numBytes = 0 ∨ irob.isReady = false ∨ complete = false
  · rw [if_pos refused] at onward
    cases onward
  rw [if_neg refused] at onward
  rw [not_or, not_or, Bool.not_eq_false, Bool.not_eq_false] at refused
  obtain ⟨bytes, -, onward⟩ := Option.bind_eq_some_iff.mp onward
  obtain ⟨after, removing, onward⟩ := Option.bind_eq_some_iff.mp onward
  obtain ⟨still, -, onward⟩ := Option.bind_eq_some_iff.mp onward
  have kept : Kept after irob := by
    split_ifs at removing
    · cases removing
      exact .refl _
    · exact (removeBytes_sameButRead removing).kept
  have afterWhole : after.isComplete = some true := by
    apply kept.complete
    rw [whole, refused.2.2]
  have afterReal : after.placeholder = false := by
    rw [kept.links.placeholder]
    exact Bool.not_eq_true' _ ▸ (Bool.and_eq_true_iff.mp refused.2.1).1
  have afterSane : after.Sane := by
    refine ⟨by rw [afterWhole]; rfl, fun unread => ?_⟩
    rw [afterWhole, afterReal] at unread
    rcases unread with open' | holder
    · cases open'
    · cases holder
  have stored : (state.irobs.update id fun _ => after).Every Sane :=
    sane.update fun _ _ _ => afterSane
  simp only at onward
  split_ifs at onward
  · obtain ⟨last, releasing, finished⟩ := Option.bind_eq_some_iff.mp onward
    cases finished
    refine releaseDependents_sane (stored.erase (fun other held => ?_) true) releasing
    exact held.congr ⟨rfl, rfl, rfl, rfl, rfl⟩
  · cases onward
    exact stored

theorem recv_orderly {len : Nat} {flags : RecvFlags} {deliveries : List Delivery}
    (orderly : state.Orderly) (reading : state.recv len flags = some (next, deliveries)) :
    next.Orderly := by
  refine ⟨(Keeps.recv orderly.wf reading).wf, ?_⟩
  exact recvLoop_keeps (motive := fun irobs _ => irobs.Every Sane)
    (fun _ _ _ _ _ _ _ _ sane _ passing => passBytes_sane sane passing) [] reading
    orderly.sane

end ReceiverLattice

/-! ### Headers -/

/-- The handlers of `CSocketReceiver`. -/
inductive Handler where
  | unrecognizedControlMsg
  | doBeginIrob
  | doEndIrob
  | doIrobChunk
  | doNewInterface
  | doDownInterface
  | doAck
  | doGoodbye
  | doRequestResend
  | doDataCheck
  deriving DecidableEq

/-- `CSocketReceiver::handlers`. -/
def handlers : List Handler :=
  [.unrecognizedControlMsg, .doBeginIrob, .doEndIrob, .doIrobChunk, .unrecognizedControlMsg,
    .doNewInterface, .doDownInterface, .doAck, .doGoodbye, .doRequestResend, .doDataCheck]

/-- `sizeof(handlers)`; a pointer to a member function takes two words of eight bytes. -/
def sizeofHandlers : Int := 16 * handlers.length

/-- The choice of a handler in `CSocketReceiver::dispatch`, by the type as a `short`. None
stands for what is found beyond the end of the table. -/
def dispatchType (type : BitVec 16) : Option Handler :=
  if type.toInt < 0 ∨ sizeofHandlers ≤ type.toInt then some .unrecognizedControlMsg
  else handlers[type.toInt.toNat]?

end Libcmm
