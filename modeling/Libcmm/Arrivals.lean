import Libcmm.Reassembly
import Libcmm.ReceiverSteps

/-! # What a handled message leaves

The handlers of `Begin_IROB`, `IROB_Chunk` and `End_IROB` change one IROB, or a placeholder
made for it, and release it if that made it ready. A `Begin_IROB` besides names the IROB to
those it depends on. Nothing is assumed of the messages but that their identifiers are in
range: whether they fit together is the concern of the results built on this.
-/

namespace Libcmm

open Lib

/-- The identifiers that a message names are in range. -/
def Message.IdsInRange : Message → Prop
  | .beginIrob id deps _ => id.InRange ∧ ∀ dep ∈ deps, dep.InRange
  | .irobChunk id _ _ _ => id.InRange
  | .endIrob id _ _ => id.InRange

instance : DecidablePred Message.IdsInRange
  | .beginIrob _ _ _ => instDecidableAnd
  | .irobChunk id _ _ _ => inferInstanceAs (Decidable id.InRange)
  | .endIrob id _ _ => inferInstanceAs (Decidable id.InRange)

theorem Message.IdsInRange.id {message : Message} (ranged : message.IdsInRange) :
    message.id.InRange := by
  cases message with
  | beginIrob _ _ _ => exact ranged.1
  | irobChunk _ _ _ _ => exact ranged
  | endIrob _ _ _ => exact ranged

namespace ReceiverIrob

/-- What `insert_locked` stores of a begun IROB: without its past dependencies, and with
itself as a dependent if it depends on itself. -/
def linked (past : IntSet) (merged : ReceiverIrob) : ReceiverIrob :=
  let kept := merged.removeDepsIf past.contains
  if merged.id ∈ kept.deps then kept.addDependent merged.id else kept

/-- What a message makes of the IROB it is about, which is a fresh placeholder if the IROB
was not here. -/
inductive Takes (past : IntSet) (old : ReceiverIrob) : Message → ReceiverIrob → Prop where
  | begun {id : IrobId} {deps : List IrobId} {sendLabels : Nat} {merged : ReceiverIrob} :
      old.placeholder = true → (mkBegun id deps sendLabels).subsume old = some merged →
      Takes past old (.beginIrob id deps sendLabels) (linked past merged)
  | chunk {id : IrobId} {seqno offset : Nat} {data : List Byte} {irob : ReceiverIrob}
      {fresh : Bool} : data ≠ [] →
      old.addChunk ⟨id, seqno, offset, data.length, some data⟩ = some (irob, fresh) →
      Takes past old (.irobChunk id seqno offset data) irob
  | ended {id : IrobId} {expectedBytes expectedChunks : Int} {irob : ReceiverIrob} {fresh : Bool} :
      old.finish expectedBytes expectedChunks = some (irob, fresh) →
      Takes past old (.endIrob id expectedBytes expectedChunks) irob

theorem linked_cases (past : IntSet) (merged : ReceiverIrob) : ∃ dependents,
    linked past merged =
      { merged with deps := (merged.removeDepsIf past.contains).deps, dependents := dependents } := by
  unfold linked
  simp only
  split_ifs
  · exact ⟨_, rfl⟩
  · exact ⟨_, rfl⟩

end ReceiverIrob

namespace ReceiverLattice

open ReceiverIrob

/-- The messages that a handler returns from at once. -/
def Ignores (state : ReceiverLattice) (message : Message) : Prop :=
  state.irobs.pastIrobs.contains message.id = true ∨
    (∃ id deps sendLabels irob, message = .beginIrob id deps sendLabels ∧
      state.irobs.find id = some irob ∧ irob.placeholder = false) ∨
    ∃ id seqno offset, message = .irobChunk id seqno offset []

/-- What a handled message leaves before its IROB is released: the IROB with the message
taken, and the IROBs that a `Begin_IROB` names, each with a new dependent. -/
structure Stores (state : ReceiverLattice) (message : Message) (irobs : IrobLattice ReceiverPart)
    (irob : ReceiverIrob) : Prop where
  wf : irobs.WellFormed
  past : irobs.pastIrobs = state.irobs.pastIrobs
  fresh : state.irobs.find message.id = none →
    state.irobs.pastIrobs.contains message.id = false
  found : irobs.find message.id = some irob
  takes : Takes state.irobs.pastIrobs
    ((state.irobs.find message.id).getD (makePlaceholder message.id)) message irob
  others : ∀ query : IrobId, query.InRange → query ≠ message.id →
    irobs.find query = state.irobs.find query ∨
      (∃ id deps sendLabels, message = .beginIrob id deps sendLabels ∧ query ∈ irob.deps) ∧
        state.irobs.pastIrobs.contains query = false ∧
        irobs.find query = some (((state.irobs.find query).getD
          (makePlaceholder query)).addDependent message.id)

/-- The lattice with an IROB released if it is ready. -/
def releasing (state : ReceiverLattice) (irobs : IrobLattice ReceiverPart) (id : IrobId)
    (irob : ReceiverIrob) (ready : Bool) : ReceiverLattice :=
  if ready then ⟨irobs.update id ReceiverIrob.release,
    state.readyIrobs.insert (.work irob.id false irob.sendLabels), state.partiallyReadIrob⟩
  else { state with irobs := irobs }

variable {state : ReceiverLattice} {message : Message} {id : IrobId} {handled : Handled}

theorem settle_effect {verdict : Verdict} {irob : ReceiverIrob}
    (found : state.irobs.find id = some irob) (settled : state.settle id verdict = some handled) :
    ∃ ready, readyIrob irob = some ready ∧
      handled.after = state.releasing state.irobs id irob ready := by
  obtain ⟨next, released, onward⟩ := Option.bind_eq_some_iff.mp settled
  obtain ⟨last, -, onward⟩ := Option.bind_eq_some_iff.mp onward
  obtain ⟨complete, -, finished⟩ := Option.bind_eq_some_iff.mp onward
  cases finished
  unfold releaseIfReady at released
  simp only [found] at released
  obtain ⟨ready, isReady, rfl⟩ := Option.map_eq_some_iff.mp released
  exact ⟨ready, isReady, rfl⟩

/-- A chunk or an end finds its IROB or makes a placeholder for it. -/
theorem findOrHold_effect (wf : state.irobs.WellFormed) (inRange : id.InRange)
    (known : ¬((state.irobs.find id).isNone && state.irobs.pastIrobExists id) = true)
    {held : ReceiverLattice} {irob : ReceiverIrob}
    (holding : state.findOrHold id = some (held, irob)) :
    held.irobs.WellFormed ∧ held = { state with irobs := held.irobs } ∧
      held.irobs.pastIrobs = state.irobs.pastIrobs ∧
      irob = (state.irobs.find id).getD (makePlaceholder id) ∧
      held.irobs.find id = some irob ∧
      ∀ query : IrobId, query.InRange → query ≠ id →
        held.irobs.find query = state.irobs.find query := by
  cases found : state.irobs.find id with
  | some present =>
      rw [findOrHold_def] at holding
      rw [found] at holding
      cases holding
      exact ⟨wf, rfl, rfl, rfl, found, fun _ _ _ => rfl⟩
  | none =>
      have fresh : state.irobs.pastIrobs.contains id = false := by
        simpa [found, IrobLattice.pastIrobExists] using known
      obtain ⟨placed, -, holds, placedWf, rest, finds⟩ :=
        findOrHold_placeholder wf inRange found fresh
      cases holds.symm.trans holding
      refine ⟨placedWf, rfl, rest.past, rfl, ?_, fun query queryRange other => ?_⟩
      · rw [finds id inRange, if_pos rfl]
      · rw [finds query queryRange, if_neg other]

/-- The IROB of an accepted `Begin_IROB` is stored. -/
theorem insert_effect (wf : state.irobs.WellFormed) {deps : List IrobId} {sendLabels : Nat}
    (inRange : id.InRange) (depsRange : ∀ dep ∈ deps, dep.InRange)
    {irobs : IrobLattice ReceiverPart} {kept : ReceiverIrob}
    (inserted : state.irobs.insert (mkBegun id deps sendLabels) false = some (irobs, some kept)) :
    ∃ irob, state.Stores (.beginIrob id deps sendLabels) irobs irob := by
  rcases IrobLattice.insert_cases inserted with ⟨-, shape⟩ | ⟨placed, accepted, placing, -⟩
  · cases shape
  have fresh : state.irobs.pastIrobs.contains id = false := by
    unfold IrobLattice.rejects at accepted
    exact (Bool.or_eq_false_iff.mp accepted).1
  have merging : ((state.irobs.find id).getD (makePlaceholder id)).placeholder = true ∧
      (mkBegun id deps sendLabels).subsume ((state.irobs.find id).getD (makePlaceholder id)) =
        some placed.2 := by
    rcases (IrobLattice.place_cases placing).2 with ⟨absent, same⟩ | ⟨old, found, holder, -, merged⟩
    · rw [show state.irobs.find id = none from absent, same]
      exact ⟨rfl, rfl⟩
    · rw [show state.irobs.find id = some old from found]
      exact ⟨holder, merged⟩
  have named : placed.2.id = id := (receiver_subsume_links merging.2).id
  obtain ⟨irobs', inserting, wf', rest, finds⟩ := wf.insert_placed inRange
    (fun other member => (OrderedSet.not_mem_empty other member).elim) rfl accepted false placing (by
      intro dep member
      have own := (OrderedSet.mem_filter.mp member).1
      rw [(IrobLattice.place_links placing).2.2.1] at own
      exact depsRange dep (OrderedSet.mem_ofList.mp own))
  cases inserting.symm.trans inserted
  have keptEq : (placed.1.correctDeps placed.2 false).2 =
      placed.2.removeDepsIf placed.1.pastIrobs.contains := rfl
  have past : placed.1.pastIrobs = state.irobs.pastIrobs := (IrobLattice.place_rest placing).past
  rw [keptEq, past] at finds
  have itself : irobs.find id = some (linked state.irobs.pastIrobs placed.2) := by
    rw [finds id inRange, linked, named]
    simp only [mkBegun, PendingIrob.mkReal, ↓reduceIte, Option.getD_some, fresh, and_true]
    split_ifs <;> rfl
  refine ⟨_, wf', ?_, fun _ => fresh, itself, .begun merging.1 merging.2,
    fun query queryRange other => ?_⟩
  · exact (rest.past.trans (IrobLattice.correctDeps_lattice placed.1 placed.2 false).2.1).trans past
  · have notOwn : ¬query = (mkBegun id deps sendLabels).id := other
    rw [finds query queryRange]
    simp only [notOwn, ↓reduceIte]
    split_ifs with links
    · refine .inr ⟨⟨id, deps, sendLabels, rfl, ?_⟩, links.2, rfl⟩
      obtain ⟨dependents, shape⟩ := linked_cases state.irobs.pastIrobs placed.2
      rw [shape]
      exact links.1
    · exact .inl rfl

/-- A chunk or an end is stored in the IROB that was found. -/
theorem Stores.write (message : Message) (wf : state.irobs.WellFormed) (inRange : message.id.InRange)
    (known : ¬((state.irobs.find message.id).isNone && state.irobs.pastIrobExists message.id) = true)
    {held : ReceiverLattice} {irob after : ReceiverIrob}
    (holding : state.findOrHold message.id = some (held, irob))
    (links : PendingIrob.SameLinks after irob)
    (takes : Takes state.irobs.pastIrobs irob message after) :
    { held with irobs := held.irobs.update message.id fun _ => after } =
        { state with irobs := held.irobs.update message.id fun _ => after } ∧
      state.Stores message (held.irobs.update message.id fun _ => after) after := by
  obtain ⟨heldWf, shape, past, same, found, others⟩ := findOrHold_effect wf inRange known holding
  refine ⟨by rw [shape], heldWf.write found links, past, fun absent => ?_, ?_, same ▸ takes, ?_⟩
  · simpa [absent, IrobLattice.pastIrobExists] using known
  · exact heldWf.find_write_self inRange found _
  · intro query queryRange other
    rw [heldWf.find_write inRange found _ queryRange, if_neg other]
    exact .inl (others query queryRange other)

/-- A handler returns at once, or its IROB takes the message and is released if it is then
ready. -/
theorem dispatch_effect (wf : state.irobs.WellFormed) (ranged : message.IdsInRange)
    (handling : state.dispatch message = some handled) :
    (state.Ignores message ∧ handled.after = state) ∨
      ∃ irobs irob ready, state.Stores message irobs irob ∧ readyIrob irob = some ready ∧
        handled.after = state.releasing irobs message.id irob ready := by
  cases message with
  | beginIrob id deps sendLabels =>
      obtain ⟨⟨irobs, inserted⟩, inserting, onward⟩ := Option.bind_eq_some_iff.mp handling
      cases inserted with
      | some kept =>
          obtain ⟨irob, stores⟩ := insert_effect wf ranged.1 ranged.2 inserting
          obtain ⟨ready, isReady, after⟩ := settle_effect stores.found onward
          exact .inr ⟨irobs, irob, ready, stores, isReady, after⟩
      | none =>
          cases onward
          rcases IrobLattice.insert_cases inserting with ⟨rejected, shape⟩ | ⟨placed, -, -, holds⟩
          · cases shape
            refine .inl ⟨?_, rfl⟩
            unfold IrobLattice.rejects at rejected
            rcases Bool.or_eq_true_iff.mp rejected with past | real
            · exact .inl past
            · cases found : state.irobs.find id with
              | none =>
                  rw [show (mkBegun id deps sendLabels).id = id from rfl, found] at real
                  cases real
              | some irob =>
                  rw [show (mkBegun id deps sendLabels).id = id from rfl, found] at real
                  exact .inr (.inl ⟨id, deps, sendLabels, irob, rfl, found, by simpa using real⟩)
          · rcases holds with ⟨-, shape⟩ | ⟨-, shape, -⟩
            · cases shape
            · cases shape
  | irobChunk id seqno offset data =>
      change state.doIrobChunk id seqno offset data = some handled at handling
      rw [doIrobChunk_def] at handling
      split_ifs at handling with empty known
      · cases handling
        cases List.isEmpty_iff.mp empty
        exact .inl ⟨.inr (.inr ⟨id, seqno, offset, rfl⟩), rfl⟩
      · cases handling
        exact .inl ⟨.inl (Bool.and_eq_true_iff.mp known).2, rfl⟩
      · obtain ⟨⟨held, irob⟩, holding, onward⟩ := Option.bind_eq_some_iff.mp handling
        obtain ⟨⟨added, fresh⟩, adding, onward⟩ := Option.bind_eq_some_iff.mp onward
        have nonempty : data ≠ [] := fun none => empty (by rw [none]; rfl)
        obtain ⟨shape, stores⟩ := Stores.write (.irobChunk id seqno offset data) wf
          ranged known holding (addChunk_kept adding).links (.chunk nonempty adding)
        simp only at onward
        change (if fresh then settle { held with irobs := held.irobs.update id fun _ => added } id _
          else _) = _ at onward
        rw [show ({ held with irobs := held.irobs.update id fun _ => added } : ReceiverLattice) =
          _ from shape] at onward
        refine .inr ?_
        split_ifs at onward
        · obtain ⟨ready, isReady, after⟩ := settle_effect stores.found onward
          exact ⟨_, added, ready, stores, isReady, after⟩
        · obtain ⟨complete, isComplete', onward⟩ := Option.bind_eq_some_iff.mp onward
          split_ifs at onward with whole
          · obtain ⟨ready, isReady, after⟩ := settle_effect stores.found onward
            exact ⟨_, added, ready, stores, isReady, after⟩
          · cases onward
            rw [Bool.not_eq_true] at whole
            rw [whole] at isComplete'
            exact ⟨_, added, false, stores, by rw [readyIrob, isComplete']; rfl, rfl⟩
  | endIrob id expectedBytes expectedChunks =>
      change state.doEndIrob id expectedBytes expectedChunks = some handled at handling
      rw [doEndIrob_def] at handling
      split_ifs at handling with known
      · cases handling
        exact .inl ⟨.inl (Bool.and_eq_true_iff.mp known).2, rfl⟩
      · obtain ⟨⟨held, irob⟩, holding, onward⟩ := Option.bind_eq_some_iff.mp handling
        obtain ⟨⟨finished, fresh⟩, finishing, onward⟩ := Option.bind_eq_some_iff.mp onward
        obtain ⟨shape, stores⟩ :=
          Stores.write (.endIrob id expectedBytes expectedChunks) wf ranged known
            holding (finish_kept finishing).links (.ended finishing)
        change settle { held with irobs := held.irobs.update id fun _ => finished } id _ = _ at onward
        rw [show ({ held with irobs := held.irobs.update id fun _ => finished } : ReceiverLattice) =
          _ from shape] at onward
        obtain ⟨ready, isReady, after⟩ := settle_effect stores.found onward
        exact .inr ⟨_, finished, ready, stores, isReady, after⟩

end ReceiverLattice

end Libcmm
