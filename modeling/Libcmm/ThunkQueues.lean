import Libcmm.Thunks
import Mathlib.Data.List.Nodup

/-! # The queues of the waiting thunks

Thunks wait from the call that registers them until a firing takes them or all those of their
socket are cancelled. The map mirrors them if its entries are in order, one for each key, and the
queue of an entry holds the thunks that wait under its key. Each function of `thunks.cpp` keeps
this, as long as a key that is registered is crossed with none in the map.
-/

namespace Libcmm

open Lib

/-- The key under which a thunk is queued. -/
def Thunk.key (thunk : Thunk) : TqKey := ⟨thunk.sock, thunk.sendLabels⟩

/-- The queue of a key, given the waiting thunks by their numbers. -/
def queueOf (waiting : List (Nat × Thunk)) (key : TqKey) : LabeledThunkQueue :=
  { LabeledThunkQueue.new key with
    thunkQueue := (waiting.filter fun thunk => thunk.2.key = key).map Prod.fst }

section QueueOf

variable {waiting : List (Nat × Thunk)} {key : TqKey} {thunk : Nat × Thunk}

theorem queueOf_append (same : thunk.2.key = key) : queueOf (waiting ++ [thunk]) key =
    { queueOf waiting key with thunkQueue := (queueOf waiting key).thunkQueue ++ [thunk.1] } := by
  simp only [queueOf, List.filter_append, List.filter_cons, List.filter_nil, same, decide_true,
    ↓reduceIte, List.map_append, List.map_cons, List.map_nil]

theorem queueOf_append_of_ne (different : thunk.2.key ≠ key) :
    queueOf (waiting ++ [thunk]) key = queueOf waiting key := by
  simp only [queueOf, List.filter_append, List.filter_cons, List.filter_nil, different,
    decide_false, Bool.false_eq_true, ↓reduceIte, List.append_nil]

/-- Where nothing waits the queue is a new one. -/
theorem queueOf_eq_new (absent : ∀ thunk ∈ waiting, thunk.2.key ≠ key) :
    queueOf waiting key = .new key := by
  have none : (waiting.filter fun thunk => thunk.2.key = key) = [] :=
    List.filter_eq_nil_iff.mpr fun thunk member =>
      Bool.not_eq_true _ ▸ decide_eq_false (absent thunk member)
  rw [queueOf, none]
  rfl

/-- Where the thunks of some keys stay, so do their queues. -/
theorem queueOf_filter (stays : TqKey → Bool) (waiting : List (Nat × Thunk)) (key : TqKey) :
    queueOf (waiting.filter fun thunk => stays thunk.2.key) key =
      if stays key then queueOf waiting key else .new key := by
  split_ifs with stay
  · have same : (waiting.filter fun thunk => stays thunk.2.key).filter
        (fun thunk => thunk.2.key = key) = waiting.filter fun thunk => thunk.2.key = key := by
      rw [List.filter_filter]
      apply List.filter_congr
      intro thunk _
      by_cases here : thunk.2.key = key
      · rw [here, stay, Bool.and_true]
      · rw [decide_eq_false here, Bool.false_and]
    rw [queueOf, same]
    rfl
  · apply queueOf_eq_new
    intro thunk member same
    rw [List.mem_filter, same] at member
    exact stay member.2

end QueueOf

/-- The map has one entry for each key, and its queue holds what waits under that key. -/
structure Mirrors (hash : ThunkHash) (waiting : List (Nat × Thunk)) : Prop where
  ordered : InKeyOrder hash.entries
  nodup : (hash.entries.map Prod.snd).Nodup
  fresh : ∀ entry ∈ hash.entries, entry.2 < hash.nextNode
  queue : ∀ entry ∈ hash.entries, hash.nodes entry.2 = some (queueOf waiting entry.1)
  present : ∀ thunk ∈ waiting, ∃ entry ∈ hash.entries, entry.1 = thunk.2.key
  heap : ∀ thunk ∈ waiting, hash.thunks[thunk.1]? = some thunk.2

namespace ThunkHash

variable {hash : ThunkHash} {key : TqKey} {entry : TqKey × Nat}

/-- What is found has the key that was looked for. -/
theorem mem_of_find (found : hash.find key = some entry) :
    entry ∈ hash.entries ∧ entry.1 = key := by
  obtain ⟨held, notLess⟩ := Option.filter_eq_some_iff.mp found
  have notGreater := SearchTree.descend_stop held
  exact ⟨List.mem_of_getElem? held,
    TqKey.eq_of_not_tqLess notGreater ((Bool.not_eq_true' _).mp notLess)⟩

end ThunkHash

namespace Mirrors

open ThunkHash

variable {hash : ThunkHash} {waiting : List (Nat × Thunk)} {entry : TqKey × Nat} {key : TqKey}
  (balance : Balance (TqKey × Nat))

theorem empty : Mirrors ThunkHash.empty [] where
  ordered := List.Pairwise.nil
  nodup := List.nodup_nil
  fresh _ member := absurd member List.not_mem_nil
  queue _ member := absurd member List.not_mem_nil
  present _ member := absurd member List.not_mem_nil
  heap _ member := absurd member List.not_mem_nil

theorem find_eq (mirrors : Mirrors hash waiting) (member : entry ∈ hash.entries) :
    hash.find entry.1 = some entry := by
  obtain ⟨before, after, shape, around⟩ := mirrors.ordered.around_present member
  exact around.find_present shape (TqKey.tqLess_irrefl _)

theorem eq_of_node_eq (mirrors : Mirrors hash waiting) {other : TqKey × Nat}
    (member : entry ∈ hash.entries) (memberToo : other ∈ hash.entries) (same : entry.2 = other.2) :
    entry = other :=
  List.inj_on_of_nodup_map mirrors.nodup member memberToo same

/-- A new thunk goes to the end of its queue. -/
theorem push (mirrors : Mirrors hash waiting) (thunk : Thunk) (member : entry ∈ hash.entries)
    (same : thunk.key = entry.1) : ∃ after, hash.push entry.2 thunk = some after ∧
      after.map = hash.map ∧ Mirrors after (waiting ++ [(hash.thunks.length, thunk)]) := by
  refine ⟨_, Option.map_eq_some_iff.mpr ⟨_, mirrors.queue entry member, rfl⟩, rfl, ?_⟩
  refine ⟨mirrors.ordered, mirrors.nodup, mirrors.fresh, ?_, ?_, ?_⟩
  · intro other memberToo
    by_cases here : other.2 = entry.2
    · have equal := mirrors.eq_of_node_eq memberToo member here
      rw [equal, queueOf_append same]
      exact Function.update_self ..
    · have different : thunk.key ≠ other.1 := fun equal =>
        here (congrArg Prod.snd (mirrors.ordered.eq_of_key_eq memberToo member
          (equal.symm.trans same)))
      rw [queueOf_append_of_ne different]
      exact (Function.update_of_ne here ..).trans (mirrors.queue other memberToo)
  · intro waits memberToo
    rcases List.mem_append.mp memberToo with earlier | new
    · exact mirrors.present waits earlier
    · rw [List.mem_singleton.mp new]
      exact ⟨entry, member, same.symm⟩
  · intro waits memberToo
    rcases List.mem_append.mp memberToo with earlier | new
    · have held := mirrors.heap waits earlier
      exact (List.getElem?_append_left (List.getElem?_eq_some_iff.mp held).1).trans held
    · rw [List.mem_singleton.mp new]
      exact List.getElem?_concat_length

/-- A key that is crossed with none gets an entry of its own. -/
theorem insert (mirrors : Mirrors hash waiting) (absent : ∀ entry ∈ hash.entries, key ≠ entry.1)
    (straight : ∀ entry ∈ hash.entries, ¬key.Crossed entry.1) :
    ∃ after, hash.insert balance key = some (after, hash.nextNode) ∧
      (key, hash.nextNode) ∈ after.entries ∧ after.thunks = hash.thunks ∧
      Mirrors after waiting := by
  obtain ⟨before, behind, shape, around⟩ := mirrors.ordered.around_absent absent straight
  have grown : (hash.map.insertEntry tqLess key balance hash.nextNode).toList =
      before ++ (key, hash.nextNode) :: behind := around.toList_insertEntry shape
  have found := around.find_present grown (TqKey.tqLess_irrefl key)
  obtain ⟨after, inserted, entries, nodes, nextNode, thunks⟩ : ∃ after,
      hash.insert balance key = some (after, hash.nextNode) ∧
      after.entries = before ++ (key, hash.nextNode) :: behind ∧
      after.nodes = Function.update hash.nodes hash.nextNode (some (.new key)) ∧
      after.nextNode = hash.nextNode + 1 ∧ after.thunks = hash.thunks :=
    ⟨_, Option.map_eq_some_iff.mpr ⟨_, found, rfl⟩, grown, rfl, rfl, rfl⟩
  have members : ∀ other, other ∈ after.entries ↔
      other = (key, hash.nextNode) ∨ other ∈ hash.entries := by
    intro other
    rw [entries, List.mem_append, List.mem_cons,
      show hash.entries = before ++ behind from shape, List.mem_append]
    exact or_left_comm
  have ordered := mirrors.ordered
  have nodup := mirrors.nodup
  rw [show hash.entries = before ++ behind from shape] at ordered nodup
  refine ⟨after, inserted, (members _).mpr (.inl rfl), thunks, ?_, ?_, ?_, ?_, ?_, ?_⟩
  · rw [entries]
    exact ordered.insert around
  · rw [entries, List.map_append, List.map_cons, List.nodup_middle, List.nodup_cons,
      ← List.map_append]
    refine ⟨fun used => ?_, nodup⟩
    obtain ⟨other, member, same⟩ := List.mem_map.mp used
    exact Nat.ne_of_lt (mirrors.fresh other (shape ▸ member)) same
  · intro other member
    rw [nextNode]
    rcases (members other).mp member with rfl | old
    · exact Nat.lt_succ_self _
    · exact Nat.lt_succ_of_lt (mirrors.fresh other old)
  · intro other member
    rw [nodes]
    rcases (members other).mp member with rfl | old
    · have unused : ∀ thunk ∈ waiting, thunk.2.key ≠ key := by
        intro thunk waits same
        obtain ⟨entry, present, equal⟩ := mirrors.present thunk waits
        exact absent entry present (equal.trans same).symm
      rw [queueOf_eq_new unused]
      exact Function.update_self ..
    · rw [Function.update_of_ne (Nat.ne_of_lt (mirrors.fresh other old))]
      exact mirrors.queue other old
  · intro thunk waits
    obtain ⟨entry, present, equal⟩ := mirrors.present thunk waits
    exact ⟨entry, (members entry).mpr (.inr present), equal⟩
  · rw [thunks]
    exact mirrors.heap

/-- A thunk is queued under a key that is crossed with none. -/
theorem enqueueHandler (mirrors : Mirrors hash waiting) {sock : Int} {labels fn arg : Nat}
    (straight : ∀ entry ∈ hash.entries, ¬TqKey.Crossed ⟨sock, labels⟩ entry.1) :
    ∃ after, hash.enqueueHandler balance sock labels fn arg = some after ∧
      Mirrors after (waiting ++ [(hash.thunks.length, ⟨fn, arg, labels, sock⟩)]) := by
  unfold ThunkHash.enqueueHandler
  rcases found : hash.find ⟨sock, labels⟩ with _ | entry
  · have absent : ∀ entry ∈ hash.entries, (⟨sock, labels⟩ : TqKey) ≠ entry.1 := by
      intro entry member same
      rw [same, mirrors.find_eq member] at found
      exact Option.some_ne_none _ found
    obtain ⟨grown, inserted, member, thunks, mirrorsToo⟩ :=
      mirrors.insert balance absent straight
    obtain ⟨after, pushed, -, result⟩ := mirrorsToo.push ⟨fn, arg, labels, sock⟩ member rfl
    refine ⟨after, ?_, thunks ▸ result⟩
    dsimp only
    rw [inserted, Option.bind_some]
    exact pushed
  · obtain ⟨member, same⟩ := mem_of_find found
    obtain ⟨after, pushed, -, result⟩ := mirrors.push ⟨fn, arg, labels, sock⟩ member same.symm
    exact ⟨after, pushed, result⟩

/-! ### Firing -/

/-- A thread finds every thunk of its copy. -/
theorem fireCopy (available : Nat → Bool) (pointers : List Nat) (turn : Nat)
    (allocated : ∀ pointer ∈ pointers, ∃ thunk, hash.thunks[pointer]? = some thunk) :
    ∃ fired, hash.fireCopy available pointers turn = some fired := by
  induction pointers generalizing turn with
  | nil => exact ⟨[], rfl⟩
  | cons pointer rest ih =>
      obtain ⟨⟨thunk, held⟩, allocatedRest⟩ := List.forall_mem_cons.mp allocated
      obtain ⟨fired, rests⟩ := ih (turn + 1) allocatedRest
      unfold ThunkHash.fireCopy
      rw [held, Option.bind_some, rests]
      dsimp only [Option.map_some]
      split_ifs
      all_goals exact ⟨_, rfl⟩

/-- The queue of a key is taken if its network is there. -/
theorem fireQueue (available : Int → Nat → Nat → Bool)
    (queue : hash.nodes entry.2 = some (queueOf waiting entry.1))
    (heap : ∀ thunk ∈ waiting, hash.thunks[thunk.1]? = some thunk.2) :
    ∃ after fired, hash.fireQueue available entry.2 = some (after, fired) ∧
      after.map = hash.map ∧ after.nextNode = hash.nextNode ∧ after.thunks = hash.thunks ∧
      after.nodes = Function.update hash.nodes entry.2 (some
        (if !available entry.1.sock entry.1.sendLabel 0 then queueOf waiting entry.1
          else .new entry.1)) := by
  unfold ThunkHash.fireQueue
  rw [queue, Option.bind_some]
  change ∃ after fired, (if (available entry.1.sock entry.1.sendLabel 0 &&
    !(queueOf waiting entry.1).thunkQueue.isEmpty) = true then _ else _) = _ ∧ _
  split_ifs with taken stays stays
  · rw [(Bool.not_eq_true' _).mp stays] at taken
    exact Bool.noConfusion taken
  · have allocated : ∀ pointer ∈ (queueOf waiting entry.1).thunkQueue,
        ∃ thunk, hash.thunks[pointer]? = some thunk := by
      intro pointer member
      obtain ⟨thunk, waits, rfl⟩ := List.mem_map.mp member
      exact ⟨thunk.2, heap thunk (List.mem_filter.mp waits).1⟩
    obtain ⟨fired, copied⟩ := fireCopy (available entry.1.sock entry.1.sendLabel) _ 1 allocated
    exact ⟨_, fired, Option.map_eq_some_iff.mpr ⟨fired, copied, rfl⟩, rfl, rfl, rfl, rfl⟩
  · exact ⟨hash, [], rfl, rfl, rfl, rfl, by rw [← queue, Function.update_eq_self]⟩
  · -- the network is there, so nothing was queued
    have there : available entry.1.sock entry.1.sendLabel 0 = true := by
      rwa [Bool.not_eq_true, Bool.not_eq_false'] at stays
    rw [there, Bool.true_and, Bool.not_eq_true, Bool.not_eq_false', List.isEmpty_iff] at taken
    have new : queueOf waiting entry.1 = .new entry.1 := by
      rw [LabeledThunkQueue.new, ← taken]
      rfl
    exact ⟨hash, [], rfl, rfl, rfl, rfl, by rw [← new, ← queue, Function.update_eq_self]⟩

/-- The loop takes the queues of the keys whose network is there. -/
theorem fireEntries (available : Int → Nat → Nat → Bool) {entries : List (TqKey × Nat)}
    (nodup : (entries.map Prod.snd).Nodup)
    (queues : ∀ entry ∈ entries, hash.nodes entry.2 = some (queueOf waiting entry.1))
    (heap : ∀ thunk ∈ waiting, hash.thunks[thunk.1]? = some thunk.2) :
    ∃ after fired, ThunkHash.fireEntries available entries hash = some (after, fired) ∧
      after.map = hash.map ∧ after.nextNode = hash.nextNode ∧ after.thunks = hash.thunks ∧
      (∀ entry ∈ entries, after.nodes entry.2 =
        some (if !available entry.1.sock entry.1.sendLabel 0 then queueOf waiting entry.1
          else .new entry.1)) ∧
      ∀ node ∉ entries.map Prod.snd, after.nodes node = hash.nodes node := by
  induction entries generalizing hash with
  | nil => exact ⟨hash, [], rfl, rfl, rfl, rfl, fun _ member => absurd member List.not_mem_nil,
      fun _ _ => rfl⟩
  | cons entry rest ih =>
      rw [List.map_cons] at nodup
      obtain ⟨apart, nodupRest⟩ := List.nodup_cons.mp nodup
      obtain ⟨here, there⟩ := List.forall_mem_cons.mp queues
      obtain ⟨next, fired, first, map, nextNode, thunks, nodes⟩ := fireQueue available here heap
      have unchanged : ∀ node, node ≠ entry.2 → next.nodes node = hash.nodes node :=
        fun node different => nodes ▸ Function.update_of_ne different ..
      have rests : ∀ other ∈ rest, next.nodes other.2 = some (queueOf waiting other.1) := by
        intro other member
        rw [unchanged other.2 fun same => apart (List.mem_map.mpr ⟨other, member, same⟩)]
        exact there other member
      obtain ⟨after, later, result, mapToo, nextNodeToo, thunksToo, inside, outside⟩ :=
        ih nodupRest rests (thunks ▸ heap)
      refine ⟨after, fired ++ later, ?_, mapToo.trans map, nextNodeToo.trans nextNode,
        thunksToo.trans thunks, ?_, ?_⟩
      · rw [ThunkHash.fireEntries, first, Option.bind_some, result, Option.map_some]
      · intro other member
        rcases List.mem_cons.mp member with rfl | later
        · rw [outside _ apart, nodes]
          exact Function.update_self ..
        · exact inside other later
      · intro node outsideAll
        rw [List.map_cons, List.mem_cons, not_or] at outsideAll
        exact (outside node outsideAll.2).trans (unchanged node outsideAll.1)

/-- A firing takes the thunks whose network is there. -/
theorem fireThunks (mirrors : Mirrors hash waiting) (available : Int → Nat → Nat → Bool) :
    ∃ after fired, hash.fireThunks available = some (after, fired) ∧ Mirrors after
      (waiting.filter fun thunk => !available thunk.2.key.sock thunk.2.key.sendLabel 0) := by
  obtain ⟨after, fired, result, map, nextNode, thunks, inside, -⟩ :=
    fireEntries available mirrors.nodup mirrors.queue mirrors.heap
  have entries : after.entries = hash.entries := congrArg SearchTree.toList map
  refine ⟨after, fired, result, ?_, ?_, ?_, ?_, ?_, ?_⟩
  · rw [entries]
    exact mirrors.ordered
  · rw [entries]
    exact mirrors.nodup
  · rw [entries, nextNode]
    exact mirrors.fresh
  · rw [entries]
    intro entry member
    rw [inside entry member,
      queueOf_filter (fun key => !available key.sock key.sendLabel 0) waiting entry.1]
  · rw [entries]
    exact fun thunk member => mirrors.present thunk (List.mem_filter.mp member).1
  · rw [thunks]
    exact fun thunk member => mirrors.heap thunk (List.mem_filter.mp member).1

/-! ### Counting -/

/-- Waiting under one key or under one of some others. -/
theorem countP_cons {keys : List TqKey} (apart : key ∉ keys) (sock : Int)
    (waiting : List (Nat × Thunk)) :
    (waiting.countP fun thunk => thunk.2.key.sock = sock ∧ thunk.2.key ∈ key :: keys) =
      (if key.sock = sock then (queueOf waiting key).thunkQueue.length else 0) +
        waiting.countP fun thunk => thunk.2.key.sock = sock ∧ thunk.2.key ∈ keys := by
  induction waiting with
  | nil => simp only [List.countP_nil, queueOf, List.filter_nil, List.map_nil, List.length_nil,
      ite_self]
  | cons thunk rest ih =>
      rw [List.countP_cons, List.countP_cons, ih]
      by_cases here : thunk.2.key = key
      · have other : thunk.2.key ∉ keys := here ▸ apart
        by_cases same : key.sock = sock
        · simp only [queueOf, List.filter_cons, List.mem_cons, here, same, apart, decide_true,
            true_or, and_true, and_false, ↓reduceIte, List.map_cons, List.length_cons,
            decide_false, Bool.false_eq_true]
          omega
        · simp only [here, same, false_and, decide_false, Bool.false_eq_true, ↓reduceIte,
            Nat.add_zero]
      · simp only [queueOf, List.filter_cons, List.mem_cons, here, false_or, decide_false,
          Bool.false_eq_true, ↓reduceIte, Nat.add_assoc]

/-- What the loop of `count_thunks` counts. -/
theorem countEntries {entries : List (TqKey × Nat)} (ordered : InKeyOrder entries)
    (queues : ∀ entry ∈ entries, hash.nodes entry.2 = some (queueOf waiting entry.1)) (sock : Int) :
    hash.countEntries sock entries = some (waiting.countP fun thunk =>
      thunk.2.key.sock = sock ∧ thunk.2.key ∈ entries.map Prod.fst) := by
  induction entries with
  | nil =>
      simp only [ThunkHash.countEntries, List.map_nil, List.not_mem_nil, and_false, decide_false,
        List.countP_false, Function.const_apply]
  | cons entry rest ih =>
      obtain ⟨later, orderedRest⟩ := List.pairwise_cons.mp ordered
      have apart : entry.1 ∉ rest.map Prod.fst := by
        intro used
        obtain ⟨other, member, same⟩ := List.mem_map.mp used
        have less := (later other member).1
        rw [same, TqKey.tqLess_irrefl] at less
        exact Bool.noConfusion less
      obtain ⟨here, rests⟩ := List.forall_mem_cons.mp queues
      rw [ThunkHash.countEntries, here, Option.bind_some, ih orderedRest rests, Option.map_some,
        List.map_cons, countP_cons apart]
      by_cases same : entry.1.sock = sock
      · rw [if_pos same, if_pos (show (queueOf waiting entry.1).sock = sock from same)]
      · rw [if_neg same, if_neg (show ¬(queueOf waiting entry.1).sock = sock from same),
          Nat.zero_add]

/-- `count_thunks` counts what waits for a socket. -/
theorem countThunks (mirrors : Mirrors hash waiting) (sock : Int) :
    hash.countThunks sock = some (waiting.countP fun thunk => thunk.2.sock = sock) := by
  rw [ThunkHash.countThunks, countEntries mirrors.ordered mirrors.queue]
  congr 1
  apply List.countP_congr
  intro thunk member
  rw [decide_eq_true_iff, decide_eq_true_iff]
  obtain ⟨entry, present, same⟩ := mirrors.present thunk member
  exact and_iff_left (List.mem_map.mpr ⟨entry, present, same⟩)

/-! ### Cancelling all -/

/-- The queues of a socket. -/
theorem victims {entries : List (TqKey × Nat)}
    (queues : ∀ entry ∈ entries, hash.nodes entry.2 = some (queueOf waiting entry.1)) (sock : Int) :
    hash.victims sock entries =
      some ((entries.filter fun entry => entry.1.sock = sock).map Prod.snd) := by
  induction entries with
  | nil => rfl
  | cons entry rest ih =>
      obtain ⟨here, rests⟩ := List.forall_mem_cons.mp queues
      rw [ThunkHash.victims, here, Option.bind_some, ih rests, Option.map_some]
      by_cases same : entry.1.sock = sock
      · rw [List.filter_cons, if_pos (decide_eq_true same), List.map_cons]
        exact congrArg some (if_pos same)
      · rw [List.filter_cons, if_neg (Bool.eq_false_iff.mp (decide_eq_false same))]
        exact congrArg some (if_neg same)

/-- One victim goes with its entry. -/
theorem erase (ordered : InKeyOrder hash.entries) (nodup : (hash.entries.map Prod.snd).Nodup)
    (member : entry ∈ hash.entries) :
    ∃ after, (hash.erase balance entry.1).deleteQueue entry.2 = after ∧
      after.entries = hash.entries.filter (· ≠ entry) ∧ after.nextNode = hash.nextNode ∧
      after.thunks = hash.thunks ∧ ∀ other ∈ hash.entries, other ≠ entry →
        after.nodes other.2 = hash.nodes other.2 := by
  obtain ⟨before, behind, shape, around⟩ := ordered.around_present member
  have erased : hash.erase balance entry.1 =
      { hash with map := hash.map.eraseKey tqLess entry.1 balance } := by
    rw [ThunkHash.erase, show hash.find entry.1 = some entry from
      around.find_present shape (TqKey.tqLess_irrefl _)]
    exact if_pos rfl
  have distinct : (before ++ entry :: behind).Nodup := shape ▸ List.Nodup.of_map _ nodup
  have notThere := (List.nodup_cons.mp (List.nodup_middle.mp distinct)).1
  have others : ∀ other ∈ before ++ behind, decide (other ≠ entry) = true :=
    fun other memberToo => decide_eq_true fun same => notThere (same ▸ memberToo)
  refine ⟨_, rfl, ?_, ?_, ?_, ?_⟩
  · calc ((hash.erase balance entry.1).deleteQueue entry.2).entries
        = before ++ behind := by
          rw [erased]
          exact around.toList_eraseKey shape (TqKey.tqLess_irrefl _)
      _ = (before ++ behind).filter (· ≠ entry) := (List.filter_eq_self.mpr others).symm
      _ = hash.entries.filter (· ≠ entry) := by
          rw [shape, List.filter_append, List.filter_append, List.filter_cons,
            if_neg (Bool.eq_false_iff.mp (decide_eq_false (not_not.mpr rfl)))]
  · rw [erased]
    rfl
  · rw [erased]
    rfl
  · intro other memberToo different
    rw [erased]
    exact Function.update_of_ne (fun same =>
      different (List.inj_on_of_nodup_map nodup memberToo member same)) ..

/-- The victims go with their entries, and nothing else does. -/
theorem eraseVictims {sock : Int} {targets : List (TqKey × Nat)}
    (ordered : InKeyOrder hash.entries) (nodup : (hash.entries.map Prod.snd).Nodup)
    (inside : ∀ entry ∈ targets, entry ∈ hash.entries)
    (socks : ∀ entry ∈ targets, entry.1.sock = sock) (distinct : targets.Nodup)
    (queues : ∀ entry ∈ targets, hash.nodes entry.2 = some (queueOf waiting entry.1)) :
    ∃ after, ThunkHash.eraseVictims balance sock (targets.map Prod.snd) hash = some after ∧
      after.entries = hash.entries.filter (· ∉ targets) ∧ after.nextNode = hash.nextNode ∧
      after.thunks = hash.thunks ∧
      ∀ entry ∈ after.entries, after.nodes entry.2 = hash.nodes entry.2 := by
  induction targets generalizing hash with
  | nil =>
      refine ⟨hash, rfl, ?_, rfl, rfl, fun _ _ => rfl⟩
      exact (List.filter_eq_self.mpr fun _ _ => decide_eq_true List.not_mem_nil).symm
  | cons entry rest ih =>
      obtain ⟨apart, distinctRest⟩ := List.nodup_cons.mp distinct
      obtain ⟨member, insideRest⟩ := List.forall_mem_cons.mp inside
      obtain ⟨ofSock, socksRest⟩ := List.forall_mem_cons.mp socks
      obtain ⟨queue, queuesRest⟩ := List.forall_mem_cons.mp queues
      obtain ⟨left, removed, entries, nextNode, thunks, nodes⟩ :=
        erase balance ordered nodup member
      have others : ∀ other, other ∈ left.entries ↔ other ∈ hash.entries ∧ other ≠ entry := by
        intro other
        rw [entries, List.mem_filter, decide_eq_true_iff]
      have sub : left.entries.Sublist hash.entries := entries ▸ List.filter_sublist
      have different : ∀ other ∈ rest, other ≠ entry :=
        fun other memberToo same => apart (same ▸ memberToo)
      obtain ⟨after, result, entriesToo, nextNodeToo, thunksToo, nodesToo⟩ :=
        ih (ordered.sublist sub) (nodup.sublist (sub.map _))
          (fun other memberToo => (others other).mpr
            ⟨insideRest other memberToo, different other memberToo⟩) socksRest distinctRest
          fun other memberToo => (nodes other (insideRest other memberToo)
            (different other memberToo)).trans (queuesRest other memberToo)
      refine ⟨after, ?_, ?_, nextNodeToo.trans nextNode, thunksToo.trans thunks, ?_⟩
      · have key : (⟨sock, (queueOf waiting entry.1).sendLabels⟩ : TqKey) = entry.1 := by
          rw [← ofSock]
          rfl
        rw [List.map_cons, ThunkHash.eraseVictims, queue, Option.bind_some, key, removed]
        exact result
      · rw [entriesToo, entries, List.filter_filter]
        apply List.filter_congr
        intro other _
        simp only [List.mem_cons, not_or, ne_eq, Bool.decide_and, Bool.and_comm]
      · intro other memberToo
        rw [nodesToo other memberToo]
        rw [entriesToo] at memberToo
        obtain ⟨old, unequal⟩ := (others other).mp (List.mem_filter.mp memberToo).1
        exact nodes other old unequal

/-- `cancel_all_thunks` removes the entries of a socket and no others. -/
theorem cancelAllThunks (mirrors : Mirrors hash waiting) (sock : Int) :
    ∃ after, hash.cancelAllThunks balance sock = some after ∧
      after.entries = hash.entries.filter (·.1.sock ≠ sock) ∧
      (∀ entry ∈ after.entries, after.nodes entry.2 = hash.nodes entry.2) ∧
      Mirrors after (waiting.filter fun thunk => decide (thunk.2.key.sock ≠ sock)) := by
  obtain ⟨after, result, entries, nextNode, thunks, nodes⟩ :=
    eraseVictims balance mirrors.ordered mirrors.nodup
      (fun entry member => (List.mem_filter.mp member).1)
      (fun entry member => of_decide_eq_true (List.mem_filter.mp member).2)
      ((List.Nodup.of_map _ mirrors.nodup).filter fun entry => decide (entry.1.sock = sock))
      fun entry member => mirrors.queue entry (List.mem_filter.mp member).1
  have others : after.entries = hash.entries.filter (·.1.sock ≠ sock) := by
    rw [entries]
    apply List.filter_congr
    intro entry member
    simp only [List.mem_filter, member, true_and, decide_eq_true_eq, ne_eq]
  have members : ∀ entry, entry ∈ after.entries ↔ entry ∈ hash.entries ∧ entry.1.sock ≠ sock := by
    intro entry
    rw [others, List.mem_filter, decide_eq_true_iff]
  have sub : after.entries.Sublist hash.entries := others ▸ List.filter_sublist
  refine ⟨after, ?_, others, nodes, ?_, ?_, ?_, ?_, ?_, ?_⟩
  · rw [ThunkHash.cancelAllThunks, victims mirrors.queue, Option.bind_some]
    exact result
  · exact mirrors.ordered.sublist sub
  · exact mirrors.nodup.sublist (sub.map _)
  · rw [nextNode]
    exact fun entry member => mirrors.fresh entry (sub.subset member)
  · intro entry member
    obtain ⟨old, different⟩ := (members entry).mp member
    rw [nodes entry member, mirrors.queue entry old,
      queueOf_filter (fun key => decide (key.sock ≠ sock)), if_pos (decide_eq_true different)]
  · intro thunk member
    obtain ⟨waits, different⟩ := List.mem_filter.mp member
    obtain ⟨entry, old, same⟩ := mirrors.present thunk waits
    exact ⟨entry, (members entry).mpr ⟨old, same ▸ of_decide_eq_true different⟩, same⟩
  · rw [thunks]
    exact fun thunk member => mirrors.heap thunk (List.mem_filter.mp member).1

end Mirrors

end Libcmm
