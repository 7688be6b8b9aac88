import Libcmm.ThunkQueues

/-! # Thunks over a run

The calls that register thunks, cancel those of a socket and fire them, in any order, with trees of
any shape. As long as no key that is registered is crossed with one in the map, what was registered
under a key is found in one queue; and a key that is crossed with one in the map can make the map
lose one of the two.
-/

namespace Libcmm

open Lib

/-- The calls that change the queues; `count_thunks` changes nothing. -/
inductive ThunkCall where
  | enqueue (balance : Balance (TqKey × Nat)) (sock : Int) (sendLabels fn arg : Nat)
  | cancelAll (balance : Balance (TqKey × Nat)) (sock : Int)
  | fire (available : Int → Nat → Nat → Bool)

/-- The queues, and the thunks that were registered and neither fired nor removed, in the order of
their registration. -/
structure ThunkRun where
  hash : ThunkHash
  waiting : List (Nat × Thunk)

namespace ThunkRun

/-- One call. -/
def step (run : ThunkRun) : ThunkCall → Option ThunkRun
  | .enqueue balance sock sendLabels fn arg =>
      (run.hash.enqueueHandler balance sock sendLabels fn arg).map fun hash =>
        ⟨hash, run.waiting ++ [(run.hash.thunks.length, ⟨fn, arg, sendLabels, sock⟩)]⟩
  | .cancelAll balance sock =>
      (run.hash.cancelAllThunks balance sock).map fun hash =>
        ⟨hash, run.waiting.filter fun thunk => thunk.2.sock ≠ sock⟩
  | .fire available =>
      (run.hash.fireThunks available).map fun result =>
        ⟨result.1, run.waiting.filter fun thunk =>
          !available thunk.2.sock thunk.2.sendLabels 0⟩

/-- Nothing was registered yet. -/
def initial : ThunkRun := ⟨.empty, []⟩

/-- The runs of the calls. -/
def machine : Machine ThunkRun ThunkCall where
  initial run := run = initial
  permitted _ _ := True
  step := step

instance (run : ThunkRun) (call : ThunkCall) : Decidable (machine.permitted run call) :=
  inferInstanceAs (Decidable True)

/-- The key of a call that registers is crossed with none in the map. -/
def Straight (run : ThunkRun) : ThunkCall → Prop
  | .enqueue _ sock sendLabels _ _ =>
      ∀ entry ∈ run.hash.entries, ¬TqKey.Crossed ⟨sock, sendLabels⟩ entry.1
  | .cancelAll _ _ => True
  | .fire _ => True

instance (run : ThunkRun) : ∀ call, Decidable (run.Straight call)
  | .enqueue _ sock sendLabels _ _ => inferInstanceAs (Decidable
      (∀ entry ∈ run.hash.entries, ¬TqKey.Crossed ⟨sock, sendLabels⟩ entry.1))
  | .cancelAll _ _ => inferInstanceAs (Decidable True)
  | .fire _ => inferInstanceAs (Decidable True)

/-- Every entry is found by its key, and the thunks under a key are in one queue in their order.
Those of a socket are counted, and cancelling them removes its entries and no others. -/
structure FoundAgain (run : ThunkRun) : Prop where
  found : ∀ entry ∈ run.hash.entries, run.hash.find entry.1 = some entry
  oneQueue : ∀ thunk ∈ run.waiting, ∃ node queue,
    run.hash.find thunk.2.key = some (thunk.2.key, node) ∧
    (∀ entry ∈ run.hash.entries, entry.1 = thunk.2.key → entry.2 = node) ∧
    run.hash.nodes node = some queue ∧ queue.sock = thunk.2.sock ∧
    queue.sendLabels = thunk.2.sendLabels ∧
    queue.thunkQueue.map (run.hash.thunks[·]?) =
      (run.waiting.filter fun other => other.2.key = thunk.2.key).map (some ·.2)
  counted : ∀ sock, run.hash.countThunks sock =
    some (run.waiting.countP fun thunk => thunk.2.sock = sock)
  cancelled : ∀ balance sock, ∃ after, run.hash.cancelAllThunks balance sock = some after ∧
    after.entries = run.hash.entries.filter (·.1.sock ≠ sock) ∧
    ∀ entry ∈ after.entries, after.nodes entry.2 = run.hash.nodes entry.2

variable {run : ThunkRun}

theorem step_mirrors {call : ThunkCall} (mirrors : Mirrors run.hash run.waiting)
    (straight : run.Straight call) :
    ∃ after, run.step call = some after ∧ Mirrors after.hash after.waiting := by
  cases call with
  | enqueue balance sock sendLabels fn arg =>
      obtain ⟨after, result, kept⟩ := mirrors.enqueueHandler balance straight
      exact ⟨_, Option.map_eq_some_iff.mpr ⟨after, result, rfl⟩, kept⟩
  | cancelAll balance sock =>
      obtain ⟨after, result, -, -, kept⟩ := mirrors.cancelAllThunks balance sock
      exact ⟨_, Option.map_eq_some_iff.mpr ⟨after, result, rfl⟩, kept⟩
  | fire available =>
      obtain ⟨after, fired, result, kept⟩ := mirrors.fireThunks available
      exact ⟨_, Option.map_eq_some_iff.mpr ⟨(after, fired), result, rfl⟩, kept⟩

theorem mirrors_of_reachable (reached : (machine.restrict Straight).Reachable run) :
    Mirrors run.hash run.waiting := by
  apply reached.induct
  · rintro _ rfl
    exact Mirrors.empty
  · intro before after call _ mirrors permitted moved
    obtain ⟨next, stepped, kept⟩ := step_mirrors mirrors permitted.2
    cases moved.symm.trans stepped
    exact kept

theorem foundAgain_of_mirrors (mirrors : Mirrors run.hash run.waiting) : run.FoundAgain where
  found _ member := mirrors.find_eq member
  oneQueue thunk member := by
    obtain ⟨entry, present, same⟩ := mirrors.present thunk member
    refine ⟨entry.2, _, ?_, ?_, mirrors.queue entry present, ?_, ?_, ?_⟩
    · rw [← same]
      exact mirrors.find_eq present
    · intro other memberToo sameToo
      rw [mirrors.ordered.eq_of_key_eq memberToo present (sameToo.trans same.symm)]
    · rw [same]
      rfl
    · rw [same]
      rfl
    · rw [same, queueOf, List.map_map]
      exact List.map_congr_left fun other waits => mirrors.heap other (List.mem_filter.mp waits).1
  counted := mirrors.countThunks
  cancelled balance sock := by
    obtain ⟨after, result, entries, nodes, -⟩ := mirrors.cancelAllThunks balance sock
    exact ⟨after, result, entries, nodes⟩

/-- The map after a key was inserted. -/
theorem map_of_enqueueHandler {hash after : ThunkHash} {balance : Balance (TqKey × Nat)}
    {sock : Int} {labels fn arg : Nat} (absent : hash.find ⟨sock, labels⟩ = none)
    (result : hash.enqueueHandler balance sock labels fn arg = some after) :
    after.map = hash.map.insertEntry tqLess ⟨sock, labels⟩ balance hash.nextNode := by
  rw [ThunkHash.enqueueHandler, absent] at result
  obtain ⟨grown, inserted, pushed⟩ := Option.bind_eq_some_iff.mp result
  obtain ⟨target, _, rfl⟩ := Option.map_eq_some_iff.mp inserted
  obtain ⟨queue, _, rfl⟩ := Option.map_eq_some_iff.mp pushed
  rfl

/-- In some shape an entry is lost to a new one that is crossed with it, or the new one is. -/
theorem straight_of_foundAgain (mirrors : Mirrors run.hash run.waiting) {sock : Int}
    {labels fn arg : Nat}
    (again : ∀ balance, ∃ after, run.step (.enqueue balance sock labels fn arg) = some after ∧
      after.FoundAgain) {entry : TqKey × Nat} (member : entry ∈ run.hash.entries) :
    ¬TqKey.Crossed ⟨sock, labels⟩ entry.1 := by
  intro crossed
  obtain ⟨less, greater⟩ := TqKey.crossed_iff.mp crossed
  have absent : run.hash.find ⟨sock, labels⟩ = none := by
    rw [Option.eq_none_iff_forall_ne_some]
    intro present found
    obtain ⟨memberToo, same⟩ := ThunkHash.mem_of_find found
    exact mirrors.ordered.straight memberToo member (same ▸ crossed)
  let new : TqKey × Nat := (⟨sock, labels⟩, run.hash.nextNode)
  obtain ⟨front, back, hung, sub, stays⟩ := SearchTree.hang_split tqLess run.hash.map
    ⟨sock, labels⟩ run.hash.nextNode
  obtain ⟨old, memberToo, oldLess, newLess⟩ := stays entry member greater less
  have distinct : (front ++ new :: back).Nodup := by
    rw [List.nodup_middle]
    exact List.nodup_cons.mpr
      ⟨fun used => Nat.lt_irrefl _ (mirrors.fresh new (sub.subset used)),
        (List.Nodup.of_map _ mirrors.nodup).sublist sub⟩
  obtain ⟨tree, shape, lost, held, missed⟩ :=
    SearchTree.exists_lost_of_mutual tqLess distinct memberToo newLess oldLess
  obtain ⟨balance, balanced⟩ := Balance.exists_tree tree
  obtain ⟨after, stepped, found⟩ := again balance
  obtain ⟨hash, result, rfl⟩ := Option.map_eq_some_iff.mp stepped
  have map : hash.map = tree :=
    (map_of_enqueueHandler absent result).trans
      ((congrArg balance.tree (hung.trans shape.symm)).trans balanced)
  have there : lost ∈ hash.entries := by
    rw [ThunkHash.entries, map]
    exact held
  have again := found.found lost there
  rw [ThunkHash.find, map] at again
  exact missed again

/-- The comparison is a strict weak order on keys if and only if no two of them are crossed. In a
run where no key that was registered was crossed with one in the map, no call follows a dangling
pointer and everything is found again; and so it is after one more call that registers, whatever
shape the tree then has, if and only if its key is crossed with none in the map either. -/
theorem foundAgain_iff (keys : Set TqKey) :
    (IsStrictWeakOrder keys (fun first second => tqLess first.1 second.1 = true) ↔
      ∀ first ∈ keys, ∀ second ∈ keys, ¬first.Crossed second) ∧
    (machine.restrict Straight).Total ∧
    ∀ run, (machine.restrict Straight).Reachable run → run.FoundAgain ∧
      ∀ sock sendLabels fn arg,
        (∀ balance, ∃ after, run.step (.enqueue balance sock sendLabels fn arg) = some after ∧
          after.FoundAgain) ↔
        ∀ entry ∈ run.hash.entries, ¬TqKey.Crossed ⟨sock, sendLabels⟩ entry.1 := by
  refine ⟨TqKey.strictWeakOrder_iff keys, ?_, ?_⟩
  · intro run call reached permitted
    obtain ⟨after, stepped, -⟩ := step_mirrors (mirrors_of_reachable reached) permitted.2
    exact ⟨after, stepped⟩
  · intro run reached
    have mirrors := mirrors_of_reachable reached
    refine ⟨foundAgain_of_mirrors mirrors, fun sock sendLabels fn arg => ⟨?_, ?_⟩⟩
    · exact fun again entry member => straight_of_foundAgain mirrors again member
    · intro straight balance
      obtain ⟨after, stepped, kept⟩ :=
        @step_mirrors run (.enqueue balance sock sendLabels fn arg) mirrors straight
      exact ⟨after, stepped, foundAgain_of_mirrors kept⟩

/-- The shapes that a red-black tree gets from four insertions, the last two in its middle: the third
rotates it. -/
def rotated : Balance (TqKey × Nat) where
  tree
    | [first, second, third] => .node (.node .leaf first .leaf) second (.node .leaf third .leaf)
    | [first, second, third, fourth] =>
        .node (.node .leaf first .leaf) second (.node (.node .leaf third .leaf) fourth .leaf)
    | entries => .spine entries
  toList_tree items := by
    match items with
    | [] | [_] | [_, _] | [_, _, _] | [_, _, _, _] => rfl
    | first :: second :: third :: fourth :: fifth :: rest => exact SearchTree.toList_spine _

/-- The shape that a red-black tree gets from a second insertion to the left. -/
def leaning : Balance (TqKey × Nat) where
  tree
    | [first, second] => .node (.node .leaf first .leaf) second .leaf
    | entries => .spine entries
  toList_tree items := by
    match items with
    | [] | [_] | [_, _] => rfl
    | first :: second :: third :: rest => exact SearchTree.toList_spine _

/-- Three sockets with three labels, and the first of them again. -/
def fourThunks : List ThunkCall :=
  [.enqueue rotated 1 2 7 10, .enqueue rotated 5 5 7 11, .enqueue rotated 2 1 7 12,
    .enqueue rotated 1 2 7 13]

/-- The rotation hides the first queue behind a key that is crossed with its own. The socket gets a
second queue under its label, and cancelling its thunks leaves a pointer to a deleted one. Where
the two crossed keys are the only ones, the second is hung where it is not found again: the call
makes a null pointer and follows it. -/
theorem second_queue :
    ¬IsStrictWeakOrder TqKey (fun first second => tqLess first second = true) ∧
    (∃ run : ThunkRun, machine.Reachable run ∧ ¬run.FoundAgain ∧
      run.hash.entries = [(⟨1, 2⟩, 0), (⟨2, 1⟩, 2), (⟨1, 2⟩, 3), (⟨5, 5⟩, 1)] ∧
      run.hash.find ⟨1, 2⟩ = some (⟨1, 2⟩, 3) ∧
      ∃ after, run.hash.cancelAllThunks rotated 1 = some after ∧
        (⟨1, 2⟩, 0) ∈ after.entries ∧ (after.nodes 0).isNone) ∧
    ∃ run : ThunkRun, machine.Reachable run ∧ run.hash.entries = [(⟨1, 2⟩, 0)] ∧
      run.step (.enqueue leaning 2 1 7 11) = none := by
  refine ⟨?_, ?_, ?_⟩
  · intro weak
    have cycle := weak.toIsStrictOrder.trans ⟨1, 2⟩ ⟨2, 1⟩ ⟨1, 2⟩ rfl rfl
    cases cycle
  · obtain ⟨run, ran, entries, found, left⟩ : ∃ run : ThunkRun,
        machine.run initial fourThunks = some run ∧
        run.hash.entries = [(⟨1, 2⟩, 0), (⟨2, 1⟩, 2), (⟨1, 2⟩, 3), (⟨5, 5⟩, 1)] ∧
        run.hash.find ⟨1, 2⟩ = some (⟨1, 2⟩, 3) ∧
        ∃ after, run.hash.cancelAllThunks rotated 1 = some after ∧
          (⟨1, 2⟩, 0) ∈ after.entries ∧ (after.nodes 0).isNone :=
      ⟨_, rfl, rfl, rfl, _, rfl, List.mem_cons_self, rfl⟩
    refine ⟨run, .run (.initial rfl) ran, fun again => ?_, entries, found, left⟩
    have missed := again.found (⟨1, 2⟩, 0) (entries ▸ List.mem_cons_self)
    rw [found] at missed
    cases missed
  · obtain ⟨run, ran, entries, crashed⟩ : ∃ run : ThunkRun,
        machine.run initial (fourThunks.take 1) = some run ∧
        run.hash.entries = [(⟨1, 2⟩, 0)] ∧ run.step (.enqueue leaning 2 1 7 11) = none :=
      ⟨_, rfl, rfl, rfl⟩
    exact ⟨run, .run (.initial rfl) ran, entries, crashed⟩

/-- Two sockets with the same labels, one of them cancelled in between. -/
def threeThunks : List ThunkCall :=
  [.enqueue rotated 1 1 7 10, .enqueue rotated 2 1 7 11, .enqueue rotated 2 2 7 12,
    .cancelAll rotated 1, .enqueue rotated 2 1 7 13]

theorem foundAgain_iff_three_thunks : ∃ run : ThunkRun,
    (machine.restrict Straight).Reachable run ∧ run.FoundAgain ∧
    run.hash.countThunks 2 = some 3 := by
  obtain ⟨run, ran, counted⟩ : ∃ run : ThunkRun,
      (machine.restrict Straight).run initial threeThunks = some run ∧
      run.hash.countThunks 2 = some 3 := ⟨_, rfl, rfl⟩
  have reached := Machine.Reachable.run (.initial rfl) ran
  exact ⟨run, reached, ((foundAgain_iff ∅).2.2 run reached).1, counted⟩

end ThunkRun

end Libcmm
