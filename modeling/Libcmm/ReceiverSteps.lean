import Libcmm.ReceiverLattice

/-! # What a step of the receiver changes

Whatever messages arrive, a handler changes the lattice in few ways: it writes
through pointers without touching links or undoing a completion, it makes a placeholder, and it inserts
the IROB of an accepted `Begin_IROB`. A turn of `recv` writes through a pointer,
and erases the IROB it has emptied. `Quiet` collects the changes that neither
insert a real IROB nor erase one; the two inversion lemmas say where the others
occur.
-/

namespace Libcmm

open Lib

/-- Changes that keep every real IROB, its links and its completion. -/
inductive Quiet : IrobLattice ReceiverPart → IrobLattice ReceiverPart → Prop where
  | refl (lattice : IrobLattice ReceiverPart) : Quiet lattice lattice
  | write {before lattice : IrobLattice ReceiverPart} (id : IrobId)
      (write : ReceiverIrob → ReceiverIrob) : Quiet before lattice →
      (∀ irob, lattice.find id = some irob → ReceiverIrob.Kept (write irob) irob) →
      Quiet before (lattice.update id write)
  | hold {before lattice after : IrobLattice ReceiverPart} {id : IrobId} {kept : ReceiverIrob} :
      Quiet before lattice → id.InRange →
      lattice.insert (makePlaceholder id) false = some (after, some kept) → Quiet before after

namespace Quiet

variable {first second third : IrobLattice ReceiverPart}

theorem trans (left : Quiet first second) (right : Quiet second third) : Quiet first third := by
  induction right with
  | refl => exact left
  | write id write _ links ih => exact .write id write ih links
  | hold _ inRange inserted ih => exact .hold ih inRange inserted

end Quiet

namespace ReceiverLattice

variable {state next : ReceiverLattice} {id : IrobId}

theorem releaseIfReady_quiet (released : state.releaseIfReady id = some next) :
    Quiet state.irobs next.irobs := by
  unfold releaseIfReady at released
  cases found : state.irobs.find id with
  | none =>
      simp only [found, Option.some.injEq] at released
      rw [released]
      exact .refl _
  | some irob =>
      simp only [found] at released
      obtain ⟨ready, -, rfl⟩ := Option.map_eq_some_iff.mp released
      split_ifs
      · exact .write id _ (.refl _) fun irob _ => ReceiverIrob.release_kept irob
      · exact .refl _

theorem releaseDependents_quiet {dependents : List IrobId}
    (released : state.releaseDependents dependents = some next) :
    Quiet state.irobs next.irobs := by
  induction dependents generalizing state with
  | nil =>
      cases released
      exact .refl _
  | cons dependent rest ih =>
      obtain ⟨middle, releasing, onward⟩ := Option.bind_eq_some_iff.mp released
      exact (releaseIfReady_quiet releasing).trans (ih onward)

theorem settle_quiet {verdict : Verdict} {handled : Handled}
    (settled : state.settle id verdict = some handled) :
    Quiet state.irobs handled.after.irobs ∧ handled.verdict = verdict := by
  obtain ⟨released, releasing, onward⟩ := Option.bind_eq_some_iff.mp settled
  obtain ⟨irob, -, onward⟩ := Option.bind_eq_some_iff.mp onward
  obtain ⟨complete, -, finished⟩ := Option.bind_eq_some_iff.mp onward
  cases finished
  exact ⟨releaseIfReady_quiet releasing, rfl⟩

/-- A placeholder is made for an IROB not seen before. -/
theorem findOrHold_placeholder {state : ReceiverLattice} {id : IrobId}
    (wf : state.irobs.WellFormed) (inRange : id.InRange) (absent : state.irobs.find id = none)
    (fresh : state.irobs.pastIrobs.contains id = false) :
    ∃ placed, state.irobs.place (makePlaceholder id) = some (placed, makePlaceholder id) ∧
      state.findOrHold id = some ({ state with irobs := placed }, makePlaceholder id) ∧
      placed.WellFormed ∧ placed.SameRest state.irobs ∧
      ∀ query : IrobId, query.InRange → placed.find query =
        if query = id then some (makePlaceholder id) else state.irobs.find query := by
  obtain ⟨accepted, placed, placing, placedWf, rest, finds⟩ :=
    wf.place_placeholder inRange absent fresh
  have inserting : state.irobs.insert (makePlaceholder id) false =
      some (placed, some (makePlaceholder id)) := by
    rw [IrobLattice.insert_def]
    simp only [accepted, Bool.false_eq_true, ↓reduceIte, placing, Option.bind_some]
    rfl
  have placedFind : placed.find id = some (makePlaceholder id) := by
    rw [finds id inRange, if_pos rfl]
  refine ⟨placed, placing, ?_, placedWf, rest, finds⟩
  rw [findOrHold_def]
  simp only [absent, inserting, Option.bind_some, placedFind]

theorem findOrHold_quiet (id : IrobId) {held : ReceiverLattice} {irob : ReceiverIrob} (inRange : id.InRange)
    (holding : state.findOrHold id = some (held, irob)) :
    Quiet state.irobs held.irobs ∧ held.irobs.find id = some irob := by
  rw [findOrHold_def] at holding
  cases found : state.irobs.find id with
  | some present =>
      simp only [found] at holding
      cases holding
      exact ⟨.refl _, found⟩
  | none =>
      simp only [found] at holding
      obtain ⟨⟨irobs, inserted⟩, inserting, onward⟩ := Option.bind_eq_some_iff.mp holding
      obtain ⟨kept, accepted, onward⟩ := Option.bind_eq_some_iff.mp onward
      obtain ⟨present, presentFound, finished⟩ := Option.bind_eq_some_iff.mp onward
      cases finished
      simp only at accepted
      rw [accepted] at inserting
      exact ⟨.hold (.refl _) inRange inserting, presentFound⟩

/-- A handler inserts the IROB of an accepted `Begin_IROB` and is quiet otherwise. -/
theorem dispatch_cases {message : Message} {handled : Handled} (inRange : message.id.InRange)
    (handling : state.dispatch message = some handled) :
    (∃ id deps sendLabels irobs kept, message = .beginIrob id deps sendLabels ∧
      handled.verdict = .taken ∧
      state.irobs.insert (ReceiverIrob.mkBegun id deps sendLabels) false =
        some (irobs, some kept) ∧ Quiet irobs handled.after.irobs) ∨
    (Quiet state.irobs handled.after.irobs ∧
      ∀ id deps, .begun id deps ∉ Receiver.observed message handled) := by
  have unheard : ∀ (message : Message) (handled : Handled),
      (∀ id deps sendLabels, message = .beginIrob id deps sendLabels → handled.verdict ≠ .taken) →
        ∀ id deps, .begun id deps ∉ Receiver.observed message handled := by
    intro message handled other id deps member
    rcases Receiver.mem_observed member with ⟨acked, -⟩ | ⟨_, _, _, begins, taken, -⟩
    · cases acked
    · exact other _ _ _ begins taken
  cases message with
  | beginIrob id deps sendLabels =>
      obtain ⟨⟨irobs, inserted⟩, inserting, onward⟩ := Option.bind_eq_some_iff.mp handling
      cases inserted with
      | none =>
          simp only [Option.some.injEq] at onward
          rw [← onward]
          refine .inr ⟨?_, unheard _ _ fun _ _ _ _ taken => nomatch taken⟩
          have same : irobs = state.irobs := by
            rcases IrobLattice.insert_cases inserting with ⟨-, shape⟩ | ⟨placed, -, -, holds⟩
            · exact (Prod.mk.inj shape).1
            · rcases holds with ⟨-, shape⟩ | ⟨-, shape, -⟩
              · cases shape
              · cases shape
          rw [same]
          exact .refl _
      | some kept =>
          obtain ⟨quiet, verdict⟩ := settle_quiet onward
          exact .inl ⟨id, deps, sendLabels, irobs, kept, rfl, verdict, inserting, quiet⟩
  | irobChunk id seqno offset data =>
      refine .inr ⟨?_, unheard _ _ fun _ _ _ other => nomatch other⟩
      change state.doIrobChunk id seqno offset data = some handled at handling
      rw [doIrobChunk_def] at handling
      split_ifs at handling
      · cases handling
        exact .refl _
      · cases handling
        exact .refl _
      · obtain ⟨⟨held, irob⟩, holding, onward⟩ := Option.bind_eq_some_iff.mp handling
        obtain ⟨⟨added, fresh⟩, adding, onward⟩ := Option.bind_eq_some_iff.mp onward
        obtain ⟨quiet, found⟩ := findOrHold_quiet id inRange holding
        have stored : Quiet state.irobs (held.irobs.update id fun _ => added) :=
          .write id _ quiet fun present presentFound => by
            rw [found] at presentFound
            cases presentFound
            exact ReceiverIrob.addChunk_kept adding
        simp only at onward
        split_ifs at onward
        · exact stored.trans (settle_quiet onward).1
        · obtain ⟨complete, -, onward⟩ := Option.bind_eq_some_iff.mp onward
          split_ifs at onward
          · exact stored.trans (settle_quiet onward).1
          · cases onward
            exact stored
  | endIrob id expectedBytes expectedChunks =>
      refine .inr ⟨?_, unheard _ _ fun _ _ _ other => nomatch other⟩
      change state.doEndIrob id expectedBytes expectedChunks = some handled at handling
      rw [doEndIrob_def] at handling
      split_ifs at handling
      · cases handling
        exact .refl _
      · obtain ⟨⟨held, irob⟩, holding, onward⟩ := Option.bind_eq_some_iff.mp handling
        obtain ⟨⟨finished, fresh⟩, finishing, onward⟩ := Option.bind_eq_some_iff.mp onward
        obtain ⟨quiet, found⟩ := findOrHold_quiet id inRange holding
        refine (Quiet.write id _ quiet fun present presentFound => ?_).trans
          (settle_quiet onward).1
        rw [found] at presentFound
        cases presentFound
        exact ReceiverIrob.finish_kept finishing

/-- The loop of `get_ready_irob` stops at the first entry with an IROB. -/
theorem popReady_cases (irobs : IrobLattice ReceiverPart) (tasks : List IrobSchedulingData) :
    (popReady irobs tasks = (none, []) ∧ ∀ task ∈ tasks, irobs.find task.id = none) ∨
    ∃ skipped task rest irob, tasks = skipped ++ task :: rest ∧
      (∀ other ∈ skipped, irobs.find other.id = none) ∧ irobs.find task.id = some irob ∧
      popReady irobs tasks = (some (task.id, irob), rest) := by
  induction tasks with
  | nil => exact .inl ⟨rfl, fun _ member => (List.not_mem_nil member).elim⟩
  | cons first rest ih =>
      unfold popReady
      cases found : irobs.find first.id with
      | some irob =>
          exact .inr ⟨[], first, rest, irob, rfl, fun _ member => (List.not_mem_nil member).elim,
            found, rfl⟩
      | none =>
          rcases ih with ⟨drained, absent⟩ | ⟨skipped, task, after, irob, shape, absent, here, popped⟩
          · refine .inl ⟨drained, fun task member => ?_⟩
            rcases List.mem_cons.mp member with rfl | later
            · exact found
            · exact absent task later
          · refine .inr ⟨first :: skipped, task, after, irob, by rw [shape, List.cons_append],
              fun other member => ?_, here, popped⟩
            rcases List.mem_cons.mp member with rfl | later
            · exact found
            · exact absent other later

/-- The IROB that `get_ready_irob` returns is a pending one. -/
theorem getReadyIrob_cases {ready : Option (IrobId × ReceiverIrob)}
    (getting : state.getReadyIrob = some (ready, next)) :
    next.irobs = state.irobs ∧
      ∀ id irob, ready = some (id, irob) → state.irobs.find id = some irob := by
  unfold getReadyIrob at getting
  cases half : state.partiallyReadIrob with
  | some id =>
      simp only [half] at getting
      obtain ⟨irob, found, onward⟩ := Option.bind_eq_some_iff.mp getting
      obtain ⟨complete, -, onward⟩ := Option.bind_eq_some_iff.mp onward
      split_ifs at onward
      cases onward
      refine ⟨rfl, fun _ _ same => ?_⟩
      cases same
      exact found
  | none =>
      simp only [half, Option.some.injEq, Prod.mk.injEq] at getting
      obtain ⟨rfl, rfl⟩ := getting
      refine ⟨rfl, fun id irob same => ?_⟩
      rcases popReady_cases state.irobs state.readyIrobs.tasks with
        ⟨drained, -⟩ | ⟨_, _, _, _, -, -, found, popped⟩
      · rw [drained] at same
        cases same
      · rw [popped] at same
        cases same
        exact found

/-- `get_ready_irob` returns none when nothing is partially read, and empties `ready_irobs`. -/
theorem getReadyIrob_none (getting : state.getReadyIrob = some (none, next)) :
    next.readyIrobs.tasks = [] ∧ next.partiallyReadIrob = none := by
  unfold getReadyIrob at getting
  cases half : state.partiallyReadIrob with
  | some id =>
      simp only [half] at getting
      obtain ⟨irob, -, onward⟩ := Option.bind_eq_some_iff.mp getting
      obtain ⟨complete, -, onward⟩ := Option.bind_eq_some_iff.mp onward
      split_ifs at onward
      cases onward
  | none =>
      simp only [half, Option.some.injEq, Prod.mk.injEq] at getting
      obtain ⟨absent, rfl⟩ := getting
      rcases popReady_cases state.irobs state.readyIrobs.tasks with
        ⟨drained, -⟩ | ⟨_, _, _, _, -, -, -, popped⟩
      · rw [drained]
        exact ⟨rfl, rfl⟩
      · rw [popped] at absent
        cases absent

/-- A turn of `recv` reads a ready IROB, and erases it once nothing is left. -/
theorem passBytes_cases {irob : ReceiverIrob} {len : Nat} {flags : RecvFlags}
    {delivery : Delivery} {done : Bool} (found : state.irobs.find id = some irob)
    (passing : state.passBytes id irob len flags = some (next, delivery, done)) :
    irob.placeholder = false ∧ irob.deps.isEmpty = true ∧ delivery.id = irob.id ∧
      delivery.past = state.irobs.pastIrobs ∧
      (Quiet state.irobs next.irobs ∨
        ∃ stored, Quiet state.irobs stored ∧ Quiet (stored.erase irob.id true).1 next.irobs ∧
          delivery.left = 0) := by
  obtain ⟨complete, -, onward⟩ := Option.bind_eq_some_iff.mp passing
  by_cases refused : irob.own.numBytes = 0 ∨ irob.isReady = false ∨ complete = false
  · rw [if_pos refused] at onward
    cases onward
  rw [if_neg refused] at onward
  rw [not_or, not_or, Bool.not_eq_false] at refused
  obtain ⟨real, satisfied⟩ := Bool.and_eq_true_iff.mp refused.2.1
  obtain ⟨bytes, -, onward⟩ := Option.bind_eq_some_iff.mp onward
  obtain ⟨after, removing, onward⟩ := Option.bind_eq_some_iff.mp onward
  obtain ⟨still, -, onward⟩ := Option.bind_eq_some_iff.mp onward
  have unchanged : ReceiverIrob.Kept after irob := by
    split_ifs at removing
    · cases removing
      exact .refl _
    · exact (ReceiverIrob.removeBytes_sameButRead removing).kept
  have stored : Quiet state.irobs (state.irobs.update id fun _ => after) :=
    .write id _ (.refl _) fun present presentFound => by
      rw [found] at presentFound
      cases presentFound
      exact unchanged
  simp only at onward
  refine ⟨by simpa using real, satisfied, ?_⟩
  split_ifs at onward with usedUp half
  · obtain ⟨last, releasing, finished⟩ := Option.bind_eq_some_iff.mp onward
    cases finished
    refine ⟨rfl, rfl, .inr ⟨_, stored, releaseDependents_quiet releasing, ?_⟩⟩
    exact of_decide_eq_true (Bool.and_eq_true_iff.mp usedUp).2
  · cases onward
    exact ⟨rfl, rfl, .inl stored⟩

/-- A turn hands over what `read_data` copies, with the labels of its IROB. -/
theorem passBytes_delivery {irob : ReceiverIrob} {len : Nat} {flags : RecvFlags}
    {delivery : Delivery} {done : Bool}
    (passing : state.passBytes id irob len flags = some (next, delivery, done)) :
    irob.readData len = some delivery.bytes ∧ delivery.sendLabels = irob.sendLabels := by
  obtain ⟨complete, -, onward⟩ := Option.bind_eq_some_iff.mp passing
  by_cases refused : irob.own.numBytes = 0 ∨ irob.isReady = false ∨ complete = false
  · rw [if_pos refused] at onward
    cases onward
  rw [if_neg refused] at onward
  obtain ⟨bytes, copied, onward⟩ := Option.bind_eq_some_iff.mp onward
  obtain ⟨after, -, onward⟩ := Option.bind_eq_some_iff.mp onward
  obtain ⟨still, -, onward⟩ := Option.bind_eq_some_iff.mp onward
  simp only at onward
  split_ifs at onward
  · obtain ⟨last, -, finished⟩ := Option.bind_eq_some_iff.mp onward
    cases finished
    exact ⟨copied, rfl⟩
  · cases onward
    exact ⟨copied, rfl⟩

/-- What every turn of the loop keeps, a whole call of `recv` keeps. -/
theorem recvLoop_keeps {motive : IrobLattice ReceiverPart → List Observation → Prop}
    {flags : RecvFlags}
    (turn : ∀ (state next : ReceiverLattice) (id : IrobId) (irob : ReceiverIrob) (len : Nat)
      (delivery : Delivery) (done : Bool) (history : List Observation),
      motive state.irobs history → state.irobs.find id = some irob →
      state.passBytes id irob len flags = some (next, delivery, done) →
        motive next.irobs (Receiver.handed flags [delivery] ++ history))
    {turns len : Nat} {deliveries : List Delivery} (history : List Observation)
    (looping : recvLoop turns state len flags = some (next, deliveries))
    (start : motive state.irobs history) :
    motive next.irobs (Receiver.handed flags deliveries ++ history) := by
  induction turns generalizing state history len deliveries with
  | zero =>
      cases len with
      | zero =>
          cases looping
          rwa [Receiver.handed_nil, List.nil_append]
      | succ len => cases looping
  | succ turns ih =>
      cases len with
      | zero =>
          cases looping
          rwa [Receiver.handed_nil, List.nil_append]
      | succ len =>
          obtain ⟨⟨ready, popped⟩, getting, onward⟩ := Option.bind_eq_some_iff.mp looping
          obtain ⟨same, pending⟩ := getReadyIrob_cases getting
          have poppedStart : motive popped.irobs history := same ▸ start
          cases ready with
          | none =>
              cases onward
              rwa [Receiver.handed_nil, List.nil_append]
          | some found =>
              obtain ⟨id, irob⟩ := found
              obtain ⟨⟨middle, delivery, done⟩, passing, onward⟩ :=
                Option.bind_eq_some_iff.mp onward
              have moved := turn popped middle id irob _ delivery done history poppedStart
                (same ▸ pending id irob rfl) passing
              simp only at onward
              split_ifs at onward
              · cases onward
                exact moved
              · obtain ⟨⟨last, others⟩, rest, finished⟩ := Option.bind_eq_some_iff.mp onward
                cases finished
                rw [Receiver.handed_cons]
                exact ih _ rest moved

end ReceiverLattice

end Libcmm
