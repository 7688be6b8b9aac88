import Libcmm.Thunks
import Mathlib.Data.List.GetD
import Mathlib.Data.List.Nodup

/-! # The thread that fires a queue (`thunks.cpp`)

The thread takes the whole queue and calls the handlers one after another, as long as a network is
available after each. Where none is, it returns, and what it took and did not yet fire is neither
called nor put back. Handlers may register further thunks under the same labels; these are in the
queue for the next run, behind everything that was taken before.
-/

namespace Libcmm

open Lib

/-- What happens during a run of the thread, turn by turn: the handlers and arguments that are
registered under the same labels, and the answer of `net_available` after the turn. -/
structure Turns where
  registers : Nat → List (Nat × Nat)
  available : Nat → Bool

namespace ThunkHash

variable (hash : ThunkHash)

/-- What `enqueue_handler` does after it found the node. -/
def register (node fn arg : Nat) : Option ThunkHash :=
  (hash.nodes node).bind fun queue => hash.push node ⟨fn, arg, queue.sendLabels, queue.sock⟩

/-- The registrations of a turn. -/
def registerAll (node : Nat) : List (Nat × Nat) → ThunkHash → Option ThunkHash
  | [], hash => some hash
  | first :: rest, hash => (hash.register node first.1 first.2).bind (registerAll node rest)

/-- The call of `fire_one_thunk`; a thunk without a handler was cancelled. -/
def fireOneThunk (pointer : Nat) (thunk : Thunk) : List Invocation :=
  if thunk.fn = 0 then [] else [⟨pointer, thunk.fn, thunk.arg⟩]

/-- The second loop of `ThunkThreadFn`: the queues afterwards, and the handlers that were called. -/
def fireTurns (turns : Turns) (node : Nat) :
    List Nat → Nat → ThunkHash → Option (ThunkHash × List Invocation)
  | [], _, hash => some (hash, [])
  | pointer :: rest, turn, hash =>
      (hash.thunks[pointer]?).bind fun thunk =>
        (hash.registerAll node (turns.registers turn)).bind fun after =>
          if turns.available turn then
            (fireTurns turns node rest (turn + 1) after).map fun result =>
              (result.1, fireOneThunk pointer thunk ++ result.2)
          else some (after, fireOneThunk pointer thunk)

/-- `ThunkThreadFn`. -/
def threadFn (turns : Turns) (node : Nat) : Option (ThunkHash × List Invocation) :=
  (hash.nodes node).bind fun queue =>
    (hash.takeQueue node queue).fireTurns turns node queue.thunkQueue 0

/-- The thunks that wait in the queue of a node. -/
def pending (node : Nat) : List Nat := (hash.nodes node).elim [] LabeledThunkQueue.thunkQueue

/-- A thunk has no handler. -/
def cancelled (pointer : Nat) : Bool := (hash.thunks[pointer]?).any (·.fn = 0)

/-- After each turn that has a thunk with a handler behind it, a network is available. -/
def Answered (turns : Turns) (node : Nat) : Prop :=
  ∀ later < (hash.pending node).length, hash.cancelled ((hash.pending node).getD later 0) = true ∨
    ∀ turn < later, turns.available turn = true

instance (turns : Turns) (node : Nat) : Decidable (hash.Answered turns node) :=
  inferInstanceAs (Decidable (∀ _ < _, _))

end ThunkHash

/-! ### What a run of the thread does -/

/-- Thunks were registered in the queue of a node, and nothing else happened. -/
structure Grown (node : Nat) (before after : ThunkHash) (added : List Thunk) : Prop where
  thunks : after.thunks = before.thunks ++ added
  here : ∀ queue, before.nodes node = some queue → after.nodes node = some { queue with
    thunkQueue := queue.thunkQueue ++ List.range' before.thunks.length added.length }
  elsewhere : ∀ other ≠ node, after.nodes other = before.nodes other

namespace Grown

variable {node : Nat} {before after last : ThunkHash} {added more : List Thunk}

theorem refl : Grown node before before [] where
  thunks := (List.append_nil _).symm
  here queue held := by
    rw [List.length_nil, List.range'_zero, List.append_nil]
    exact held
  elsewhere _ _ := rfl

theorem trans (first : Grown node before after added) (second : Grown node after last more) :
    Grown node before last (added ++ more) where
  thunks := by rw [second.thunks, first.thunks, List.append_assoc]
  here queue held := by
    rw [second.here _ (first.here queue held), first.thunks, List.length_append, List.length_append,
      List.append_assoc, ← List.range'_append_1]
  elsewhere other different := (second.elsewhere other different).trans
    (first.elsewhere other different)

theorem push {thunk : Thunk} (pushed : before.push node thunk = some after) :
    Grown node before after [thunk] := by
  obtain ⟨queue, held, rfl⟩ := Option.map_eq_some_iff.mp pushed
  refine ⟨rfl, fun other heldToo => ?_, fun other different => Function.update_of_ne different ..⟩
  cases held.symm.trans heldToo
  exact Function.update_self ..

theorem length_le (grown : Grown node before after added) :
    before.thunks.length ≤ after.thunks.length := by
  rw [grown.thunks, List.length_append]
  exact Nat.le_add_right _ _

theorem isSome (grown : Grown node before after added) (present : (before.nodes node).isSome) :
    (after.nodes node).isSome := by
  obtain ⟨queue, held⟩ := Option.isSome_iff_exists.mp present
  rw [grown.here queue held]
  rfl

end Grown

namespace ThunkHash

variable {hash after : ThunkHash} {node : Nat} {turns : Turns} {fired : List Invocation}

theorem register_grown {fn arg : Nat} (present : (hash.nodes node).isSome) :
    ∃ after added, hash.register node fn arg = some after ∧ Grown node hash after added := by
  obtain ⟨queue, held⟩ := Option.isSome_iff_exists.mp present
  have pushed : hash.push node ⟨fn, arg, queue.sendLabels, queue.sock⟩ =
      some _ := Option.map_eq_some_iff.mpr ⟨queue, held, rfl⟩
  refine ⟨_, _, ?_, Grown.push pushed⟩
  rw [register, held]
  exact pushed

theorem registerAll_grown (calls : List (Nat × Nat)) (present : (hash.nodes node).isSome) :
    ∃ after added, hash.registerAll node calls = some after ∧ Grown node hash after added := by
  induction calls generalizing hash with
  | nil => exact ⟨hash, [], rfl, Grown.refl⟩
  | cons first rest ih =>
      obtain ⟨next, added, moved, grown⟩ := @register_grown hash node first.1 first.2 present
      obtain ⟨after, more, ran, grownToo⟩ := ih (grown.isSome present)
      refine ⟨after, added ++ more, ?_, grown.trans grownToo⟩
      rw [registerAll, moved]
      exact ran

/-- The pointers among some that lead to a thunk with a handler. -/
def callable (hash : ThunkHash) (pointers : List Nat) : List Nat :=
  pointers.filter (!hash.cancelled ·)

theorem map_fireOneThunk {pointer : Nat} {thunk : Thunk}
    (held : hash.thunks[pointer]? = some thunk) :
    (fireOneThunk pointer thunk).map Invocation.thunk = hash.callable [pointer] := by
  rw [callable, List.filter_singleton, cancelled, held, Option.any_some, fireOneThunk]
  by_cases none : thunk.fn = 0
  · rw [if_pos none, decide_eq_true none]
    rfl
  · rw [if_neg none, decide_eq_false none]
    rfl

theorem callable_append (first second : List Nat) :
    hash.callable (first ++ second) = hash.callable first ++ hash.callable second :=
  List.filter_append ..

/-- New thunks leave the others as they are. -/
theorem cancelled_of_append {added : List Thunk} {pointer : Nat}
    (thunks : after.thunks = hash.thunks ++ added) (inside : pointer < hash.thunks.length) :
    after.cancelled pointer = hash.cancelled pointer := by
  rw [cancelled, cancelled, thunks, List.getElem?_append_left inside]

theorem callable_of_append {added : List Thunk} {pointers : List Nat}
    (thunks : after.thunks = hash.thunks ++ added)
    (valid : ∀ pointer ∈ pointers, pointer < hash.thunks.length) :
    after.callable pointers = hash.callable pointers :=
  List.filter_congr fun pointer member => by
    rw [cancelled_of_append thunks (valid pointer member)]

/-- The loop calls the handlers of a first part of what it has, in order: of all of it, or of what
comes before the first turn with no network after it, that turn included. -/
structure Fires (turns : Turns) (node : Nat) (pointers : List Nat) (turn : Nat)
    (before after : ThunkHash) (fired : List Invocation) (added : List Thunk) (count : Nat) :
    Prop where
  grown : Grown node before after added
  order : fired.map Invocation.thunk = before.callable (pointers.take count)
  good : ∀ index, index + 1 < count → turns.available (turn + index) = true
  stopped : count < pointers.length → ∃ index, index + 1 = count ∧
    turns.available (turn + index) = false

theorem fireTurns_fires (turns : Turns) (pointers : List Nat) (turn : Nat)
    (present : (hash.nodes node).isSome)
    (valid : ∀ pointer ∈ pointers, pointer < hash.thunks.length) :
    ∃ after fired added count, hash.fireTurns turns node pointers turn = some (after, fired) ∧
      Fires turns node pointers turn hash after fired added count := by
  induction pointers generalizing hash turn with
  | nil =>
      refine ⟨hash, [], [], 0, rfl, Grown.refl, rfl, fun index few => ?_, fun more => ?_⟩
      · exact absurd few (Nat.not_lt_zero _)
      · exact absurd more (Nat.lt_irrefl _)
  | cons pointer rest ih =>
      have held := List.getElem?_eq_getElem (valid pointer List.mem_cons_self)
      have inside : ∀ other ∈ rest, other < hash.thunks.length := fun other member =>
        valid other (List.mem_cons_of_mem _ member)
      obtain ⟨next, added, moved, grown⟩ := registerAll_grown (turns.registers turn) present
      rw [fireTurns, held, Option.bind_some, moved, Option.bind_some]
      cases answer : turns.available turn with
      | false =>
          rw [if_neg Bool.false_ne_true]
          refine ⟨next, _, added, 1, rfl, grown, map_fireOneThunk held, fun index few => ?_, ?_⟩
          · exact absurd (Nat.lt_of_succ_lt_succ few) (Nat.not_lt_zero _)
          · exact fun _ => ⟨0, rfl, answer⟩
      | true =>
          obtain ⟨after, fired, more, count, ran, fires⟩ :=
            ih (turn + 1) (grown.isSome present) fun other member =>
              Nat.lt_of_lt_of_le (inside other member) grown.length_le
          rw [if_pos rfl, ran]
          refine ⟨after, _, added ++ more, count + 1, rfl, grown.trans fires.grown, ?_, ?_, ?_⟩
          · have taken : (pointer :: rest).take (count + 1) = [pointer] ++ rest.take count := rfl
            rw [List.map_append, map_fireOneThunk held, fires.order, taken, callable_append,
              callable_of_append grown.thunks fun other member =>
                inside other (List.mem_of_mem_take member)]
          · intro index few
            cases index with
            | zero => exact answer
            | succ index =>
                rw [← Nat.add_assoc, Nat.add_right_comm]
                exact fires.good index (Nat.lt_of_succ_lt_succ few)
          · intro less
            obtain ⟨index, last, away⟩ := fires.stopped (Nat.lt_of_succ_lt_succ less)
            refine ⟨index + 1, congrArg Nat.succ last, ?_⟩
            rw [← Nat.add_assoc, Nat.add_right_comm]
            exact away

/-- No thunk with a handler is left behind if and only if a network was available after each turn
in front of one. -/
theorem Fires.left_behind_iff {pointers : List Nat} {before : ThunkHash} {added : List Thunk}
    {count : Nat} (fires : Fires turns node pointers 0 before after fired added count) :
    before.callable (pointers.drop count) = [] ↔
      ∀ later < pointers.length, before.cancelled (pointers.getD later 0) = true ∨
        ∀ turn < later, turns.available turn = true := by
  rw [callable, List.filter_eq_nil_iff]
  constructor
  · intro left later inside
    by_cases taken : later < count
    · exact .inr fun turn earlier => by
        have answer := fires.good turn (by omega)
        rwa [Nat.zero_add] at answer
    · have behind : pointers.getD later 0 ∈ pointers.drop count := by
        rw [List.getD_eq_getElem _ _ inside, List.mem_drop_iff_getElem]
        exact ⟨later - count, by omega, by simp only [Nat.add_sub_of_le (Nat.le_of_not_lt taken)]⟩
      have handled := left _ behind
      rw [Bool.not_eq_true', Bool.not_eq_false] at handled
      exact .inl handled
  · intro answered pointer member
    obtain ⟨further, within, rfl⟩ := List.mem_drop_iff_getElem.mp member
    have inside : count + further < pointers.length := by omega
    obtain ⟨index, last, away⟩ := fires.stopped (by omega)
    rw [Nat.zero_add] at away
    rcases answered (count + further) inside with handled | answers
    · rw [List.getD_eq_getElem _ _ inside] at handled
      rw [handled]
      exact Bool.false_ne_true
    · exact absurd ((answers index (by omega)).symm.trans away) Bool.true_eq_false.mp

/-- A run of the thread on a queue that is there. -/
structure Ran (turns : Turns) (node : Nat) (before after : ThunkHash) (fired : List Invocation)
    (added : List Thunk) (count : Nat) : Prop where
  thunks : after.thunks = before.thunks ++ added
  pending : after.pending node = List.range' before.thunks.length added.length
  present : (after.nodes node).isSome
  elsewhere : ∀ other ≠ node, after.nodes other = before.nodes other
  order : fired.map Invocation.thunk = before.callable ((before.pending node).take count)
  left : before.callable ((before.pending node).drop count) = [] ↔ before.Answered turns node

theorem threadFn_ran (turns : Turns) (present : (hash.nodes node).isSome)
    (valid : ∀ pointer ∈ hash.pending node, pointer < hash.thunks.length) :
    ∃ after fired added count, hash.threadFn turns node = some (after, fired) ∧
      Ran turns node hash after fired added count := by
  obtain ⟨queue, held⟩ := Option.isSome_iff_exists.mp present
  have waits : hash.pending node = queue.thunkQueue := by
    rw [pending, held]
    rfl
  have taken : (hash.takeQueue node queue).nodes node = some { queue with thunkQueue := [] } :=
    Function.update_self ..
  rw [waits] at valid
  obtain ⟨after, fired, added, count, ran, fires⟩ :=
    @fireTurns_fires (hash.takeQueue node queue) node turns queue.thunkQueue 0
      (Option.isSome_iff_exists.mpr ⟨_, taken⟩) valid
  have here := fires.grown.here _ taken
  refine ⟨after, fired, added, count, ?_, fires.grown.thunks, ?_, ?_, ?_, ?_, ?_⟩
  · rw [threadFn, held]
    exact ran
  · rw [pending, here]
    rfl
  · rw [here]
    rfl
  · intro other different
    rw [fires.grown.elsewhere other different]
    exact Function.update_of_ne different ..
  · rw [waits]
    exact fires.order
  · rw [Answered, waits]
    exact fires.left_behind_iff

end ThunkHash

/-! ### Runs of the thread one after another -/

/-- What happens to the queues: a handler is registered, or the thread of a queue runs. -/
inductive ThreadEvent where
  | register (node fn arg : Nat)
  | run (node : Nat) (turns : Turns)

/-- The queues, and for each of them the thunks that were registered in it and the calls of their
handlers, in order. -/
structure ThreadRuns where
  hash : ThunkHash
  registered : Nat → List Nat
  invoked : Nat → List ThunkHash.Invocation

namespace ThreadRuns

open ThunkHash

/-- One event. The thunks that a run allocates are registered in its queue. -/
def step (runs : ThreadRuns) : ThreadEvent → Option ThreadRuns
  | .register node fn arg => (runs.hash.register node fn arg).map fun hash =>
      ⟨hash, Function.update runs.registered node
        (runs.registered node ++ [runs.hash.thunks.length]), runs.invoked⟩
  | .run node turns => (runs.hash.threadFn turns node).map fun result =>
      ⟨result.1, Function.update runs.registered node (runs.registered node ++
        List.range' runs.hash.thunks.length (result.1.thunks.length - runs.hash.thunks.length)),
        Function.update runs.invoked node (runs.invoked node ++ result.2)⟩

/-- The queue of an event is there. -/
def permitted (runs : ThreadRuns) : ThreadEvent → Prop
  | .register node _ _ => (runs.hash.nodes node).isSome = true
  | .run node _ => (runs.hash.nodes node).isSome = true

instance (runs : ThreadRuns) : ∀ event, Decidable (runs.permitted event)
  | .register node _ _ => inferInstanceAs (Decidable ((runs.hash.nodes node).isSome = true))
  | .run node _ => inferInstanceAs (Decidable ((runs.hash.nodes node).isSome = true))

/-- The runs that start with empty queues. -/
def machine : Machine ThreadRuns ThreadEvent where
  initial runs := (∀ node, runs.hash.pending node = []) ∧ runs.registered = (fun _ => []) ∧
    runs.invoked = fun _ => []
  permitted := permitted
  step := step

instance (runs : ThreadRuns) (event : ThreadEvent) : Decidable (machine.permitted runs event) :=
  inferInstanceAs (Decidable (runs.permitted event))

/-- In a run of the thread a network is available after each turn that has a thunk with a handler
behind it. -/
def Answered (runs : ThreadRuns) : ThreadEvent → Prop
  | .register _ _ _ => True
  | .run node turns => runs.hash.Answered turns node

instance (runs : ThreadRuns) : ∀ event, Decidable (runs.Answered event)
  | .register _ _ _ => inferInstanceAs (Decidable True)
  | .run node turns => inferInstanceAs (Decidable (runs.hash.Answered turns node))

/-- The handlers of a queue are called in the order of their registration, each at most once, and
what waits was registered after all of them. -/
def InOrder (runs : ThreadRuns) : Prop :=
  ∀ node, (runs.registered node).Nodup ∧
    ((runs.invoked node).map Invocation.thunk ++ runs.hash.pending node).Sublist
      (runs.registered node)

/-- Every thunk that was registered is cancelled, was invoked exactly once, or is in the queue. -/
def Accounted (runs : ThreadRuns) : Prop :=
  ∀ node, ∀ pointer ∈ runs.registered node, runs.hash.cancelled pointer = true ∨
    ((runs.invoked node).map Invocation.thunk).count pointer = 1 ∨
    pointer ∈ runs.hash.pending node

/-- The thunks that were taken from a queue are the first that were registered in it; those whose
handlers were called are among them. -/
structure Keeps (runs : ThreadRuns) (node : Nat) (past : List Nat) : Prop where
  registered : runs.registered node = past ++ runs.hash.pending node
  increasing : (runs.registered node).Pairwise (· < ·)
  valid : ∀ pointer ∈ runs.registered node, pointer < runs.hash.thunks.length
  called : ((runs.invoked node).map Invocation.thunk).Sublist (runs.hash.callable past)

/-- All that were taken and have a handler were called. -/
def Complete (runs : ThreadRuns) (node : Nat) (past : List Nat) : Prop :=
  (runs.invoked node).map Invocation.thunk = runs.hash.callable past

namespace Keeps

variable {runs after : ThreadRuns} {node : Nat} {past : List Nat}

theorem nodup (keeps : runs.Keeps node past) : (runs.registered node).Nodup :=
  keeps.increasing.imp fun less => Nat.ne_of_lt less

theorem valid_past (keeps : runs.Keeps node past) :
    ∀ pointer ∈ past, pointer < runs.hash.thunks.length := fun pointer member =>
  keeps.valid pointer (keeps.registered ▸ List.mem_append_left _ member)

theorem valid_pending (keeps : runs.Keeps node past) :
    ∀ pointer ∈ runs.hash.pending node, pointer < runs.hash.thunks.length := fun pointer member =>
  keeps.valid pointer (keeps.registered ▸ List.mem_append_right _ member)

/-- Every thunk of a queue is accounted for if and only if all that were taken were called. -/
theorem accounted_iff (keeps : runs.Keeps node past) :
    (∀ pointer ∈ runs.registered node, runs.hash.cancelled pointer = true ∨
      ((runs.invoked node).map Invocation.thunk).count pointer = 1 ∨
      pointer ∈ runs.hash.pending node) ↔ runs.Complete node past := by
  have distinct := keeps.nodup
  rw [keeps.registered] at distinct ⊢
  obtain ⟨pastDistinct, -, apart⟩ := List.nodup_append.mp distinct
  have callableDistinct : (runs.hash.callable past).Nodup := pastDistinct.filter _
  constructor
  · intro accounted
    have called : runs.hash.callable past ⊆ (runs.invoked node).map Invocation.thunk := by
      intro pointer member
      obtain ⟨taken, handler⟩ := List.mem_filter.mp member
      rcases accounted pointer (List.mem_append_left _ taken) with none | once | waits
      · rw [none] at handler
        exact absurd handler Bool.false_ne_true
      · exact List.count_pos_iff.mp (once ▸ Nat.one_pos)
      · exact absurd rfl (apart pointer taken pointer waits)
    exact keeps.called.eq_of_length_le (callableDistinct.length_le_of_subset called)
  · intro complete pointer member
    rcases List.mem_append.mp member with taken | waits
    · cases none : runs.hash.cancelled pointer with
      | true => exact .inl rfl
      | false =>
          right
          left
          rw [complete]
          apply List.count_eq_one_of_mem callableDistinct
          rw [ThunkHash.callable, List.mem_filter, none]
          exact ⟨taken, rfl⟩
    · exact .inr (.inr waits)

/-- What happens to other queues only allocates thunks. -/
theorem elsewhere {added : List Thunk} (keeps : runs.Keeps node past)
    (thunks : after.hash.thunks = runs.hash.thunks ++ added)
    (nodes : after.hash.nodes node = runs.hash.nodes node)
    (registered : after.registered node = runs.registered node)
    (invoked : after.invoked node = runs.invoked node) :
    after.Keeps node past ∧ (after.Complete node past ↔ runs.Complete node past) := by
  have same := ThunkHash.callable_of_append thunks keeps.valid_past
  refine ⟨⟨?_, ?_, ?_, ?_⟩, ?_⟩
  · rw [registered, keeps.registered, pending, pending, nodes]
  · rw [registered]
    exact keeps.increasing
  · rw [registered, thunks, List.length_append]
    exact fun pointer member => Nat.lt_add_right _ (keeps.valid pointer member)
  · rw [invoked, same]
    exact keeps.called
  · rw [Complete, Complete, invoked, same]

/-- New thunks are registered behind the others. -/
theorem registered_append (keeps : runs.Keeps node past) (count : Nat) :
    (runs.registered node ++ List.range' runs.hash.thunks.length count).Pairwise (· < ·) ∧
    ∀ pointer ∈ runs.registered node ++ List.range' runs.hash.thunks.length count,
      pointer < runs.hash.thunks.length + count := by
  constructor
  · apply List.pairwise_append.mpr
    refine ⟨keeps.increasing, List.pairwise_lt_range', fun old member new memberToo => ?_⟩
    exact Nat.lt_of_lt_of_le (keeps.valid old member) (List.mem_range'_1.mp memberToo).1
  · intro pointer member
    rcases List.mem_append.mp member with old | new
    · exact Nat.lt_add_right _ (keeps.valid pointer old)
    · exact (List.mem_range'_1.mp new).2

end Keeps

variable {runs after : ThreadRuns}

/-- A handler that is registered waits behind the others. -/
theorem register_keeps {node fn arg : Nat}
    (stepped : runs.step (.register node fn arg) = some after) (queue : Nat) {past : List Nat}
    (keeps : runs.Keeps queue past) :
    after.Keeps queue past ∧ (after.Complete queue past ↔ runs.Complete queue past) := by
  obtain ⟨hash, registered, rfl⟩ := Option.map_eq_some_iff.mp stepped
  obtain ⟨held, found, pushed⟩ := Option.bind_eq_some_iff.mp registered
  have grown := Grown.push pushed
  by_cases here : queue = node
  · subst here
    have same := ThunkHash.callable_of_append grown.thunks keeps.valid_past
    obtain ⟨increasing, valid⟩ := keeps.registered_append 1
    refine ⟨⟨?_, ?_, ?_, ?_⟩, ?_⟩
    · simp only [Function.update_self]
      rw [keeps.registered, pending, pending, found, grown.here held found, List.append_assoc]
      rfl
    · simp only [Function.update_self]
      exact increasing
    · simp only [Function.update_self]
      rw [grown.thunks, List.length_append]
      exact valid
    · exact same ▸ keeps.called
    · exact Eq.congr_right same
  · exact keeps.elsewhere grown.thunks (grown.elsewhere queue here)
      (Function.update_of_ne here ..) rfl

/-- A run takes all that waits. -/
theorem run_keeps {node : Nat} {turns : Turns} {past : List Nat}
    (present : (runs.hash.nodes node).isSome) (keeps : runs.Keeps node past) :
    ∃ after, runs.step (.run node turns) = some after ∧
      after.Keeps node (past ++ runs.hash.pending node) ∧
      (runs.Complete node past → (after.Complete node (past ++ runs.hash.pending node) ↔
        runs.hash.Answered turns node)) ∧
      ∀ queue ≠ node, ∀ past, runs.Keeps queue past →
        after.Keeps queue past ∧ (after.Complete queue past ↔ runs.Complete queue past) := by
  obtain ⟨hash, fired, added, count, moved, ran⟩ :=
    threadFn_ran turns present keeps.valid_pending
  have grown : hash.thunks.length - runs.hash.thunks.length = added.length := by
    rw [ran.thunks, List.length_append, Nat.add_sub_cancel_left]
  have calls : ∀ pointers, (∀ pointer ∈ pointers, pointer ∈ runs.registered node) →
      hash.callable pointers = runs.hash.callable pointers := fun pointers members =>
    callable_of_append ran.thunks fun pointer member => keeps.valid pointer (members pointer member)
  have called : hash.callable (past ++ runs.hash.pending node) = runs.hash.callable past ++
      (runs.hash.callable ((runs.hash.pending node).take count) ++
        runs.hash.callable ((runs.hash.pending node).drop count)) := by
    rw [calls _ fun _ => keeps.registered ▸ id, callable_append, ← callable_append (List.take ..),
      List.take_append_drop]
  refine ⟨_, Option.map_eq_some_iff.mpr ⟨(hash, fired), moved, rfl⟩, ⟨?_, ?_, ?_, ?_⟩, ?_, ?_⟩
  · simp only [Function.update_self]
    rw [grown, ran.pending, keeps.registered]
  · simp only [Function.update_self]
    rw [grown]
    exact (keeps.registered_append _).1
  · simp only [Function.update_self]
    rw [grown, ran.thunks, List.length_append]
    exact (keeps.registered_append _).2
  · simp only [Function.update_self]
    rw [List.map_append, ran.order, called]
    exact keeps.called.append (List.sublist_append_left _ _)
  · intro complete
    simp only [Complete, Function.update_self]
    rw [← ran.left, List.map_append, ran.order, called, complete, List.append_right_inj,
      List.self_eq_append_right]
  · intro queue different past keepsToo
    exact keepsToo.elsewhere ran.thunks (ran.elsewhere queue different)
      (Function.update_of_ne different ..) (Function.update_of_ne different ..)

/-- A step that is permitted does not trap and keeps the order. It keeps every thunk accounted for
if and only if, where it is a run, a network is available for as long as the run needs it. -/
theorem step_keeps {event : ThreadEvent} (permitted : runs.permitted event)
    (keeps : ∀ node, ∃ past, runs.Keeps node past) :
    ∃ after, runs.step event = some after ∧ (∀ node, ∃ past, after.Keeps node past) ∧
      (runs.Accounted → (after.Accounted ↔ runs.Answered event)) := by
  cases event with
  | register node fn arg =>
      obtain ⟨hash, added, moved, -⟩ := @register_grown runs.hash node fn arg permitted
      have stepped : runs.step (.register node fn arg) = some _ :=
        Option.map_eq_some_iff.mpr ⟨hash, moved, rfl⟩
      have kept : ∀ queue past, runs.Keeps queue past → _ := fun queue past =>
        register_keeps stepped queue
      refine ⟨_, stepped, fun queue => ?_, fun accounted => ?_⟩
      · obtain ⟨past, keepsHere⟩ := keeps queue
        exact ⟨past, (kept queue past keepsHere).1⟩
      · refine iff_of_true (fun queue => ?_) trivial
        obtain ⟨past, keepsHere⟩ := keeps queue
        obtain ⟨keepsAfter, complete⟩ := kept queue past keepsHere
        exact keepsAfter.accounted_iff.mpr (complete.mpr
          (keepsHere.accounted_iff.mp (accounted queue)))
  | run node turns =>
      obtain ⟨past, keepsHere⟩ := keeps node
      obtain ⟨after, stepped, keepsAfter, completeHere, others⟩ :=
        @run_keeps runs node turns past permitted keepsHere
      refine ⟨after, stepped, fun queue => ?_, fun accounted => ?_⟩
      · by_cases here : queue = node
        · exact here ▸ ⟨_, keepsAfter⟩
        · obtain ⟨pastToo, keepsToo⟩ := keeps queue
          exact ⟨pastToo, (others queue here pastToo keepsToo).1⟩
      · have before := completeHere (keepsHere.accounted_iff.mp (accounted node))
        constructor
        · exact fun accountedAfter => before.mp (keepsAfter.accounted_iff.mp (accountedAfter node))
        · intro answered queue
          by_cases here : queue = node
          · exact here ▸ keepsAfter.accounted_iff.mpr (before.mpr answered)
          · obtain ⟨pastToo, keepsToo⟩ := keeps queue
            obtain ⟨keepsTooAfter, complete⟩ := others queue here pastToo keepsToo
            exact keepsTooAfter.accounted_iff.mpr (complete.mpr
              (keepsToo.accounted_iff.mp (accounted queue)))

theorem keeps_of_initial (initial : machine.initial runs) (node : Nat) :
    runs.Keeps node [] := by
  obtain ⟨pending, registered, invoked⟩ := initial
  refine ⟨?_, ?_, ?_, ?_⟩
  · rw [registered, pending, List.append_nil]
  · rw [registered]
    exact List.Pairwise.nil
  · rw [registered]
    exact fun pointer member => absurd member List.not_mem_nil
  · rw [invoked]
    exact List.nil_sublist _

theorem keeps_of_reachable (reached : machine.Reachable runs) (node : Nat) :
    ∃ past, runs.Keeps node past := by
  revert node
  apply reached.induct
  · exact fun first initial node => ⟨[], keeps_of_initial initial node⟩
  · intro before after event _ keeps permitted moved
    obtain ⟨next, stepped, kept, -⟩ := step_keeps permitted keeps
    cases moved.symm.trans stepped
    exact kept

theorem accounted_of_reachable (reached : (machine.restrict Answered).Reachable runs) :
    runs.Accounted := by
  apply reached.induct
  · intro first initial node pointer member
    rw [initial.2.1] at member
    exact absurd member List.not_mem_nil
  · intro before after event reached accounted permitted moved
    obtain ⟨next, stepped, -, iff⟩ :=
      step_keeps permitted.1 (keeps_of_reachable reached.of_restrict)
    cases moved.symm.trans stepped
    exact (iff accounted).mpr permitted.2

theorem inOrder_of_reachable (reached : machine.Reachable runs) : runs.InOrder := by
  intro node
  obtain ⟨past, keeps⟩ := keeps_of_reachable reached node
  refine ⟨keeps.nodup, ?_⟩
  rw [keeps.registered]
  exact (keeps.called.trans List.filter_sublist).append (List.Sublist.refl _)

/-- Handlers are called in the order of their registration, run after run. As long as in each run a
network is available after every turn that has a thunk with a handler behind it, every thunk that
was registered is cancelled, invoked exactly once or in its queue; and so it is after one more
event if and only if that is so in this one too. -/
theorem accounted_iff_answered (reached : machine.Reachable runs) :
    runs.InOrder ∧ (∀ event, machine.permitted runs event → (machine.step runs event).isSome) ∧
    ((machine.restrict Answered).Reachable runs → runs.Accounted ∧
      ∀ event after, machine.permitted runs event → machine.step runs event = some after →
        (after.Accounted ↔ runs.Answered event)) := by
  have keeps := keeps_of_reachable reached
  refine ⟨inOrder_of_reachable reached, ?_, ?_⟩
  · intro event permitted
    obtain ⟨after, stepped, -⟩ := step_keeps permitted keeps
    exact Option.isSome_iff_exists.mpr ⟨after, stepped⟩
  · intro answered
    have accounted := accounted_of_reachable answered
    refine ⟨accounted, fun event after permitted moved => ?_⟩
    obtain ⟨next, stepped, -, iff⟩ := step_keeps permitted keeps
    cases moved.symm.trans stepped
    exact iff accounted

/-- One queue, of a socket and one of its labels. -/
def oneQueue : ThreadRuns :=
  ⟨⟨.leaf, Function.update (fun _ => none) 0 (some (.new ⟨3, 1⟩)), 1, []⟩, fun _ => [], fun _ => []⟩

theorem initial_oneQueue : machine.initial oneQueue := by
  refine ⟨fun node => ?_, rfl, rfl⟩
  by_cases here : node = 0
  · subst here
    rfl
  · have away : oneQueue.hash.nodes node = none := dif_neg here
    rw [pending, away]
    rfl

/-- Two handlers, and a run during which the network goes away while the first one is called, which
registers another. -/
def flap : List ThreadEvent :=
  [.register 0 7 10, .register 0 7 11, .run 0 ⟨fun _ => [(7, 12)], fun _ => false⟩]

/-- The second handler was not called, and it is in no queue. -/
theorem lost_thunk : ∃ runs : ThreadRuns, machine.Reachable runs ∧ ¬runs.Accounted ∧
    runs.registered 0 = [0, 1, 2] ∧ runs.invoked 0 = [⟨0, 7, 10⟩] ∧ runs.hash.pending 0 = [2] := by
  obtain ⟨runs, ran, registered, invoked, waits, handler⟩ : ∃ runs : ThreadRuns,
      machine.run oneQueue flap = some runs ∧ runs.registered 0 = [0, 1, 2] ∧
      runs.invoked 0 = [⟨0, 7, 10⟩] ∧ runs.hash.pending 0 = [2] ∧
      runs.hash.cancelled 1 = false := ⟨_, rfl, rfl, rfl, rfl, rfl⟩
  refine ⟨runs, .run (.initial initial_oneQueue) ran, fun accounted => ?_, registered, invoked,
    waits⟩
  have lost := accounted 0 1 (by rw [registered]; decide)
  rw [handler, invoked, waits] at lost
  exact absurd lost (by decide)

/-- Three handlers, the last of them null, and two runs. -/
def noFlap : List ThreadEvent :=
  [.register 0 7 10, .register 0 7 11, .register 0 0 12,
    .run 0 ⟨fun turn => if turn = 0 then [(7, 13)] else [], fun turn => turn = 0⟩,
    .run 0 ⟨fun _ => [], fun _ => false⟩]

theorem accounted_iff_answered_no_flap : ∃ runs : ThreadRuns, machine.Reachable runs ∧
    runs.Accounted ∧ runs.invoked 0 = [⟨0, 7, 10⟩, ⟨1, 7, 11⟩, ⟨3, 7, 13⟩] := by
  obtain ⟨runs, ran, invoked⟩ : ∃ runs : ThreadRuns,
      (machine.restrict Answered).run oneQueue noFlap = some runs ∧
      runs.invoked 0 = [⟨0, 7, 10⟩, ⟨1, 7, 11⟩, ⟨3, 7, 13⟩] := ⟨_, rfl, rfl⟩
  have answered : (machine.restrict Answered).Reachable runs :=
    .run (.initial initial_oneQueue) ran
  have reached := answered.of_restrict
  exact ⟨runs, reached, ((accounted_iff_answered reached).2.2 answered).1, invoked⟩

end ThreadRuns

end Libcmm
