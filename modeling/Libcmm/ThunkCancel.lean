import Libcmm.ThunkRuns

/-! # Cancelling a thunk (`thunks.cpp`)

`cancel_thunk` looks for the thunks in a second index of the queue, a multiset by their fields,
into which `enqueue_handler` never puts any. So it finds none: it tells its caller that there was
nothing to cancel, and the handlers are called later as if it had not been called.
-/

namespace Libcmm

open Lib

/-- What `cancel_thunk` returns, the arguments that its deleter was called on, and what is left. -/
structure Cancellation where
  cancelled : Nat
  deleted : List Nat
  hash : ThunkHash

/-- The loop of `cancel_thunks`: the number of victims, the calls of the deleter, and the thunks
afterwards. -/
def cancelVictims (deleter : Bool) : List Nat → List Thunk → Option (Nat × List Nat × List Thunk)
  | [], thunks => some (0, [], thunks)
  | victim :: rest, thunks =>
      (thunks[victim]?).bind fun thunk =>
        (cancelVictims deleter rest (thunks.set victim ⟨0, 0, 0, -1⟩)).map fun result =>
          (result.1 + 1, if deleter then thunk.arg :: result.2.1 else result.2.1, result.2.2)

/-- The thunks of a queue that are neither less nor greater than a dummy, as positions in its
multiset. -/
def LabeledThunkQueue.cancelRange (queue : LabeledThunkQueue) (thunks : List Thunk) (fn arg : Nat) :
    Nat × Nat :=
  let dummy : Thunk := ⟨fn, arg, queue.sendLabels, queue.sock⟩
  queue.thunkMap.equalRange (fun pointer => thunks[pointer]?.any (thunkLess · dummy))
    fun pointer => thunks[pointer]?.any (thunkLess dummy ·)

namespace ThunkHash

variable (hash : ThunkHash)

/-- `labeled_thunk_queue::cancel_thunks`, on the queue of a node. -/
def cancelThunks (balance : Balance Nat) (node fn arg : Nat) (deleter : Bool) :
    Option Cancellation :=
  (hash.nodes node).bind fun queue =>
    let range := queue.cancelRange hash.thunks fn arg
    let victims := (queue.thunkMap.toList.take range.2).drop range.1
    (cancelVictims deleter victims hash.thunks).map fun result =>
      { cancelled := result.1
        deleted := result.2.1
        hash := { hash with
          nodes := Function.update hash.nodes node (some { queue with
            thunkMap := balance.tree
              (queue.thunkMap.toList.take range.1 ++ queue.thunkMap.toList.drop range.2) })
          thunks := result.2.2 } }

/-- `cancel_thunk`. -/
def cancelThunk (balance : Balance Nat) (sock : Int) (sendLabels fn arg : Nat) (deleter : Bool) :
    Option Cancellation :=
  match hash.find ⟨sock, sendLabels⟩ with
  | none => some ⟨0, [], hash⟩
  | some entry => hash.cancelThunks balance entry.2 fn arg deleter

/-- The handlers that some calls invoke. -/
def invoked (hash : ThunkHash) : List ThunkCall → Option (List Invocation)
  | [] => some []
  | .enqueue balance sock sendLabels fn arg :: rest =>
      (hash.enqueueHandler balance sock sendLabels fn arg).bind (invoked · rest)
  | .cancelAll balance sock :: rest => (hash.cancelAllThunks balance sock).bind (invoked · rest)
  | .fire available :: rest =>
      (hash.fireThunks available).bind fun result =>
        (invoked result.1 rest).map (result.2 ++ ·)

end ThunkHash

namespace ThunkRun

/-- The waiting thunks that a cancellation is for. -/
def matching (run : ThunkRun) (thunk : Thunk) : List (Nat × Thunk) :=
  run.waiting.filter fun waits => waits.2 = thunk

/-- The number of waiting thunks with this handler and argument is returned, and the deleter, if
any, is called for each. Whatever is called later, these thunks are not invoked, and the others
are as they would have been. -/
def CancelsExactly (run : ThunkRun) (sock : Int) (sendLabels fn arg : Nat) (deleter : Bool) :
    Prop :=
  ∀ balance, ∃ result, run.hash.cancelThunk balance sock sendLabels fn arg deleter = some result ∧
    result.cancelled = (run.matching ⟨fn, arg, sendLabels, sock⟩).length ∧
    result.deleted = (if deleter then
      (run.matching ⟨fn, arg, sendLabels, sock⟩).map fun waits => waits.2.arg else []) ∧
    ∀ calls, result.hash.invoked calls = (run.hash.invoked calls).map fun invocations =>
      invocations.filter fun invocation =>
        invocation.thunk ∉ (run.matching ⟨fn, arg, sendLabels, sock⟩).map Prod.fst

variable {run : ThunkRun} {sock : Int} {sendLabels fn arg : Nat} {deleter : Bool}

/-- Nothing is cancelled, whatever waits. -/
theorem cancelThunk_eq (mirrors : Mirrors run.hash run.waiting) (balance : Balance Nat) :
    run.hash.cancelThunk balance sock sendLabels fn arg deleter = some ⟨0, [], run.hash⟩ := by
  unfold ThunkHash.cancelThunk
  rcases found : run.hash.find ⟨sock, sendLabels⟩ with _ | entry
  · rfl
  · obtain ⟨member, -⟩ := ThunkHash.mem_of_find found
    have queue := mirrors.queue entry member
    -- the index of the queue is empty, so it has no range of victims
    have none : (queueOf run.waiting entry.1).thunkMap = .leaf := rfl
    have still : { queueOf run.waiting entry.1 with thunkMap := balance.tree [] } =
        queueOf run.waiting entry.1 := by
      rw [SearchTree.eq_leaf (balance.toList_tree [])]
      rfl
    calc run.hash.cancelThunks balance entry.2 fn arg deleter
        = some ⟨0, [], ⟨run.hash.map, Function.update run.hash.nodes entry.2
            (some { queueOf run.waiting entry.1 with thunkMap := balance.tree [] }),
            run.hash.nextNode, run.hash.thunks⟩⟩ := by
          rw [ThunkHash.cancelThunks, queue, Option.bind_some, LabeledThunkQueue.cancelRange, none]
          rfl
      _ = some ⟨0, [], run.hash⟩ := by rw [still, ← queue, Function.update_eq_self]

/-- A call that registers a thunk under a key leaves no other key in the map. -/
theorem entries_of_enqueue {hash after : ThunkHash} {balance : Balance (TqKey × Nat)}
    (keys : ∀ entry ∈ hash.entries, entry.1 = ⟨sock, sendLabels⟩)
    (result : hash.enqueueHandler balance sock sendLabels fn arg = some after) :
    ∀ entry ∈ after.entries, entry.1 = ⟨sock, sendLabels⟩ := by
  rcases found : hash.find ⟨sock, sendLabels⟩ with _ | present
  · intro entry member
    obtain ⟨front, back, hung, sub, -⟩ := SearchTree.hang_split tqLess hash.map
      ⟨sock, sendLabels⟩ hash.nextNode
    rw [ThunkHash.entries, map_of_enqueueHandler found result, SearchTree.insertEntry,
      balance.toList_tree, hung, List.perm_middle.mem_iff] at member
    rcases List.mem_cons.mp member with rfl | old
    · rfl
    · exact keys entry (sub.subset old)
  · rw [ThunkHash.enqueueHandler, found] at result
    obtain ⟨queue, _, rfl⟩ := Option.map_eq_some_iff.mp result
    exact keys

/-- Calls that register thunks under one key make a run without crossed keys. -/
theorem reachable_of_enqueues (sock : Int) (sendLabels : Nat)
    (handlers : List (Balance (TqKey × Nat) × Nat × Nat))
    (reached : (machine.restrict Straight).Reachable run)
    (keys : ∀ entry ∈ run.hash.entries, entry.1 = ⟨sock, sendLabels⟩) :
    ∃ after, machine.run run (handlers.map fun handler =>
        .enqueue handler.1 sock sendLabels handler.2.1 handler.2.2) = some after ∧
      (machine.restrict Straight).Reachable after ∧
      after.waiting.map Prod.snd = run.waiting.map Prod.snd ++
        handlers.map fun handler => ⟨handler.2.1, handler.2.2, sendLabels, sock⟩ := by
  induction handlers generalizing run with
  | nil => exact ⟨run, rfl, reached, (List.append_nil _).symm⟩
  | cons handler rest ih =>
      let call : ThunkCall := .enqueue handler.1 sock sendLabels handler.2.1 handler.2.2
      have straight : run.Straight call := by
        intro entry member crossed
        rw [keys entry member] at crossed
        obtain ⟨less, -⟩ := TqKey.crossed_iff.mp crossed
        rw [TqKey.tqLess_irrefl] at less
        exact Bool.noConfusion less
      obtain ⟨next, stepped, -⟩ := step_mirrors (mirrors_of_reachable reached) straight
      obtain ⟨hash, result, rfl⟩ := Option.map_eq_some_iff.mp stepped
      obtain ⟨after, ran, reachedToo, waiting⟩ :=
        ih (reached.step ⟨trivial, straight⟩ stepped) (entries_of_enqueue keys result)
      refine ⟨after, ?_, reachedToo, ?_⟩
      · rw [List.map_cons, Machine.run, if_pos (show machine.permitted run _ from trivial)]
        exact Option.bind_eq_some_iff.mpr ⟨_, stepped, ran⟩
      · rw [waiting, List.map_append, List.map_cons, List.append_assoc]
        rfl

/-- Where no registered key was crossed with one in the map, as after any calls that register
thunks under one key: a cancellation does what it is for if and only if there is nothing to
cancel. -/
theorem cancelsExactly_iff (sock : Int) (sendLabels fn arg : Nat) (deleter : Bool) :
    (∀ run, (machine.restrict Straight).Reachable run →
      (run.CancelsExactly sock sendLabels fn arg deleter ↔
        ∀ waits ∈ run.waiting, waits.2 ≠ ⟨fn, arg, sendLabels, sock⟩)) ∧
    ∀ handlers : List (Balance (TqKey × Nat) × Nat × Nat), ∃ run,
      machine.run initial (handlers.map fun handler =>
        .enqueue handler.1 sock sendLabels handler.2.1 handler.2.2) = some run ∧
      (machine.restrict Straight).Reachable run ∧ run.waiting.map Prod.snd =
        handlers.map fun handler => ⟨handler.2.1, handler.2.2, sendLabels, sock⟩ := by
  constructor
  · intro run reached
    have mirrors := mirrors_of_reachable reached
    have nothing : (∀ waits ∈ run.waiting, waits.2 ≠ ⟨fn, arg, sendLabels, sock⟩) ↔
        run.matching ⟨fn, arg, sendLabels, sock⟩ = [] := by
      rw [matching, List.filter_eq_nil_iff]
      simp only [decide_eq_true_eq, ne_eq]
    rw [nothing]
    constructor
    · intro exactly
      obtain ⟨result, cancelled, count, -⟩ := exactly ⟨.spine, SearchTree.toList_spine⟩
      rw [cancelThunk_eq mirrors] at cancelled
      cases cancelled
      exact List.length_eq_zero_iff.mp count.symm
    · intro none balance
      refine ⟨_, cancelThunk_eq mirrors balance, ?_, ?_, fun calls => ?_⟩
      · rw [none]
        rfl
      · rw [none]
        exact (ite_self []).symm
      · rw [none]
        simp only [List.map_nil, List.not_mem_nil, not_false_eq_true, decide_true,
          List.filter_true, Option.map_id']
  · intro handlers
    exact reachable_of_enqueues sock sendLabels handlers (.initial rfl)
      fun _ member => absurd member List.not_mem_nil

/-- One thunk. -/
def oneThunk : List ThunkCall := [.enqueue rotated 1 2 7 10]

/-- The thunk is there, and its cancellation returns zero; its handler is invoked afterwards. -/
theorem cancelled_handler_invoked : ∃ run : ThunkRun, machine.Reachable run ∧
    run.waiting = [(0, ⟨7, 10, 2, 1⟩)] ∧ ¬run.CancelsExactly 1 2 7 10 true ∧
    ∀ balance, ∃ result, run.hash.cancelThunk balance 1 2 7 10 true = some result ∧
      result.cancelled = 0 ∧ result.deleted = [] ∧
      result.hash.invoked [.fire fun _ _ _ => true] = some [⟨0, 7, 10⟩] := by
  obtain ⟨run, ran, waiting, fired⟩ : ∃ run : ThunkRun,
      (machine.restrict Straight).run initial oneThunk = some run ∧
      run.waiting = [(0, ⟨7, 10, 2, 1⟩)] ∧
      run.hash.invoked [.fire fun _ _ _ => true] = some [⟨0, 7, 10⟩] := ⟨_, rfl, rfl, rfl⟩
  have reached := Machine.Reachable.run (.initial rfl) ran
  have mirrors := mirrors_of_reachable reached
  refine ⟨run, reached.of_restrict, waiting, fun exactly => ?_,
    fun balance => ⟨_, cancelThunk_eq mirrors balance, rfl, rfl, fired⟩⟩
  obtain ⟨result, cancelled, count, -⟩ := exactly ⟨.spine, SearchTree.toList_spine⟩
  rw [cancelThunk_eq mirrors] at cancelled
  cases cancelled
  rw [matching, waiting] at count
  cases count

theorem cancelsExactly_iff_other_argument : ∃ run : ThunkRun,
    (machine.restrict Straight).Reachable run ∧ run.waiting = [(0, ⟨7, 10, 2, 1⟩)] ∧
    run.CancelsExactly 1 2 7 11 true := by
  obtain ⟨run, ran, waiting⟩ : ∃ run : ThunkRun,
      (machine.restrict Straight).run initial oneThunk = some run ∧
      run.waiting = [(0, ⟨7, 10, 2, 1⟩)] := ⟨_, rfl, rfl⟩
  have reached := Machine.Reachable.run (.initial rfl) ran
  refine ⟨run, reached, waiting, ((cancelsExactly_iff 1 2 7 11 true).1 run reached).mpr ?_⟩
  rw [waiting]
  decide

end ThunkRun

end Libcmm
