import Libcmm.Lib.EitherLess
import Libcmm.Lib.SearchTree
import Libcmm.Lib.Transition
import Mathlib.Data.List.Pairwise
import Mathlib.Data.Int.Order.Basic
import Mathlib.Logic.Function.Basic

/-! # Registered thunks (`thunks.cpp`)

A handler that waits for a network is queued with its argument under the multisocket and the
labels it was registered for. The queues are in a map, whose keys are compared by a disjunction:
two keys may each be less than the other, and then what a search finds depends on the shape that
the map's tree happens to have.
-/

namespace Libcmm

open Lib

/-- `struct thunk`. A handler of zero is `NULL`. -/
structure Thunk where
  fn : Nat
  arg : Nat
  sendLabels : Nat
  sock : Int
  deriving DecidableEq

/-- `struct tq_key`. -/
structure TqKey where
  sock : Int
  sendLabel : Nat
  deriving DecidableEq

/-- `thunk::operator<`. -/
def thunkLess (first second : Thunk) : Bool :=
  first.sock < second.sock || first.sendLabels < second.sendLabels || first.fn < second.fn ||
    first.arg < second.arg

/-- `tq_key::operator<`. -/
def tqLess (first second : TqKey) : Bool :=
  first.sock < second.sock || first.sendLabel < second.sendLabel

/-- `struct labeled_thunk_queue`; the thunks are pointers. -/
structure LabeledThunkQueue where
  sock : Int
  sendLabels : Nat
  thunkMap : SearchTree Nat
  thunkQueue : List Nat

/-- The constructor of `labeled_thunk_queue`. -/
def LabeledThunkQueue.new (key : TqKey) : LabeledThunkQueue := ⟨key.sock, key.sendLabel, .leaf, []⟩

/-- `thunk_hash` with what its pointers lead to: the `second` of a node is none while it is null,
and when the queue was deleted. Thunks are numbered as they are allocated; no pointer to one is
used after its `delete`. -/
structure ThunkHash where
  map : SearchTree (TqKey × Nat)
  nodes : Nat → Option LabeledThunkQueue
  nextNode : Nat
  thunks : List Thunk

namespace ThunkHash

/-- Nothing was registered yet. -/
def empty : ThunkHash := ⟨.leaf, fun _ => none, 0, []⟩

variable (hash : ThunkHash)

/-- The entries in the order of an iteration. -/
def entries : List (TqKey × Nat) := hash.map.toList

/-- `LockingMap::find`. -/
def find (key : TqKey) : Option (TqKey × Nat) := hash.map.find tqLess key

/-- `LockingMap::insert` of a key that is not found, and a new queue for the node that the last
`the_map[key]` gives. The first one inserts an entry; where the last one does not find an entry
it makes another with a null pointer, which is then followed. -/
def insert (balance : Balance (TqKey × Nat)) (key : TqKey) : Option (ThunkHash × Nat) :=
  let map := hash.map.insertEntry tqLess key balance hash.nextNode
  (map.find tqLess key).map fun target =>
    ({ hash with
        map
        nodes := Function.update hash.nodes target.2 (some (.new key))
        nextNode := hash.nextNode + 1 }, target.2)

/-- A new thunk for the queue of a node. -/
def push (node : Nat) (thunk : Thunk) : Option ThunkHash :=
  (hash.nodes node).map fun queue =>
    { hash with
      nodes := Function.update hash.nodes node
        (some { queue with thunkQueue := queue.thunkQueue ++ [hash.thunks.length] })
      thunks := hash.thunks ++ [thunk] }

/-- `enqueue_handler`. -/
def enqueueHandler (balance : Balance (TqKey × Nat)) (sock : Int) (sendLabels fn arg : Nat) :
    Option ThunkHash :=
  match hash.find ⟨sock, sendLabels⟩ with
  | some entry => hash.push entry.2 ⟨fn, arg, sendLabels, sock⟩
  | none => (hash.insert balance ⟨sock, sendLabels⟩).bind fun result =>
      result.1.push result.2 ⟨fn, arg, sendLabels, sock⟩

/-- The loop of `count_thunks`. -/
def countEntries (sock : Int) : List (TqKey × Nat) → Option Nat
  | [] => some 0
  | entry :: rest =>
      (hash.nodes entry.2).bind fun queue => (countEntries sock rest).map fun count =>
        if queue.sock = sock then queue.thunkQueue.length + count else count

/-- `count_thunks`. -/
def countThunks (sock : Int) : Option Nat := hash.countEntries sock hash.entries

/-- The first loop of `cancel_all_thunks`. -/
def victims (sock : Int) : List (TqKey × Nat) → Option (List Nat)
  | [] => some []
  | entry :: rest =>
      (hash.nodes entry.2).bind fun queue => (victims sock rest).map fun nodes =>
        if queue.sock = sock then entry.2 :: nodes else nodes

/-- `LockingMap::erase`. -/
def erase (balance : Balance (TqKey × Nat)) (key : TqKey) : ThunkHash :=
  if (hash.find key).isSome then { hash with map := hash.map.eraseKey tqLess key balance } else hash

/-- `delete` of the queue of a node. -/
def deleteQueue (node : Nat) : ThunkHash :=
  { hash with nodes := Function.update hash.nodes node none }

/-- The second loop of `cancel_all_thunks`. -/
def eraseVictims (balance : Balance (TqKey × Nat)) (sock : Int) :
    List Nat → ThunkHash → Option ThunkHash
  | [], hash => some hash
  | node :: rest, hash =>
      (hash.nodes node).bind fun queue =>
        eraseVictims balance sock rest
          ((hash.erase balance ⟨sock, queue.sendLabels⟩).deleteQueue node)

/-- `cancel_all_thunks`. -/
def cancelAllThunks (balance : Balance (TqKey × Nat)) (sock : Int) : Option ThunkHash :=
  (hash.victims sock hash.entries).bind fun nodes => eraseVictims balance sock nodes hash

/-- The call of a handler with its argument, and the thunk it came from. -/
structure Invocation where
  thunk : Nat
  fn : Nat
  arg : Nat
  deriving DecidableEq

/-- The second loop of `ThunkThreadFn`, with the answers of `net_available` after each thunk. -/
def fireCopy (available : Nat → Bool) : List Nat → Nat → Option (List Invocation)
  | [], _ => some []
  | pointer :: rest, turn =>
      (hash.thunks[pointer]?).bind fun thunk =>
        let fired := if thunk.fn = 0 then [] else [⟨pointer, thunk.fn, thunk.arg⟩]
        if available turn then (fireCopy available rest (turn + 1)).map (fired ++ ·) else some fired

/-- The queue of a node after the first loop of `ThunkThreadFn`. -/
def takeQueue (node : Nat) (queue : LabeledThunkQueue) : ThunkHash :=
  { hash with nodes := Function.update hash.nodes node (some { queue with thunkQueue := [] }) }

/-- The turn of one queue in the loop of `fire_thunks`, with a thread that takes the queue at once.
For each queue `fire_thunks` gets the first answer of `net_available`, its thread the others. -/
def fireQueue (available : Int → Nat → Nat → Bool) (node : Nat) :
    Option (ThunkHash × List Invocation) :=
  (hash.nodes node).bind fun queue =>
    if available queue.sock queue.sendLabels 0 && !queue.thunkQueue.isEmpty then
      (hash.fireCopy (available queue.sock queue.sendLabels) queue.thunkQueue 1).map fun fired =>
        (hash.takeQueue node queue, fired)
    else some (hash, [])

/-- The loop of `fire_thunks`. -/
def fireEntries (available : Int → Nat → Nat → Bool) :
    List (TqKey × Nat) → ThunkHash → Option (ThunkHash × List Invocation)
  | [], hash => some (hash, [])
  | entry :: rest, hash =>
      (hash.fireQueue available entry.2).bind fun first =>
        (fireEntries available rest first.1).map fun result => (result.1, first.2 ++ result.2)

/-- `fire_thunks`. -/
def fireThunks (available : Int → Nat → Nat → Bool) : Option (ThunkHash × List Invocation) :=
  fireEntries available hash.entries hash

end ThunkHash

/-! ### The comparison -/

namespace TqKey

/-- The components of a key. -/
def pair (key : TqKey) : Int × Nat := (key.sock, key.sendLabel)

/-- One component is less and the other one greater. -/
def Crossed (first second : TqKey) : Prop := Lib.Crossed first.pair second.pair

instance (first second : TqKey) : Decidable (first.Crossed second) :=
  inferInstanceAs (Decidable (_ ∨ _))

variable {first second third : TqKey}

theorem tqLess_iff : tqLess first second = true ↔ EitherLess first.pair second.pair := by
  unfold tqLess EitherLess
  rw [Bool.or_eq_true, decide_eq_true_iff, decide_eq_true_iff]
  rfl

theorem pair_injective : Function.Injective pair := by
  intro first second same
  obtain ⟨sock, label⟩ := Prod.mk.inj same
  cases first
  cases second
  exact congrArg₂ TqKey.mk sock label

@[simp] theorem tqLess_irrefl (key : TqKey) : tqLess key key = false :=
  Bool.eq_false_iff.mpr fun less => EitherLess.irrefl _ (tqLess_iff.mp less)

theorem crossed_iff :
    first.Crossed second ↔ tqLess first second = true ∧ tqLess second first = true := by
  rw [tqLess_iff, tqLess_iff]
  exact Lib.crossed_iff

theorem eq_of_not_tqLess (notLess : tqLess first second = false)
    (notGreater : tqLess second first = false) : first = second := by
  apply pair_injective
  rw [eq_iff_not_eitherLess, ← tqLess_iff, ← tqLess_iff, notLess, notGreater]
  exact ⟨Bool.false_ne_true, Bool.false_ne_true⟩

/-- The comparison is a strict weak order on keys if and only if no two of them are crossed. -/
theorem strictWeakOrder_iff (keys : Set TqKey) :
    IsStrictWeakOrder keys (fun first second => tqLess first.1 second.1 = true) ↔
      ∀ first ∈ keys, ∀ second ∈ keys, ¬first.Crossed second := by
  simp only [tqLess_iff]
  exact Lib.strictWeakOrder_iff pair keys

/-- First one key, then the other, and not the other way. -/
def Precedes (first second : TqKey) : Prop :=
  tqLess first second = true ∧ tqLess second first = false

/-- Different keys that are not crossed are in one order or the other. -/
theorem precedes_or (different : first ≠ second) (straight : ¬first.Crossed second) :
    first.Precedes second ∨ second.Precedes first := by
  rcases less : tqLess first second with _ | _
  · rcases greater : tqLess second first with _ | _
    · exact absurd (eq_of_not_tqLess less greater) different
    · exact .inr ⟨greater, less⟩
  · rcases greater : tqLess second first with _ | _
    · exact .inl ⟨less, greater⟩
    · exact absurd (crossed_iff.mpr ⟨less, greater⟩) straight

theorem Precedes.trans (before : first.Precedes second) (onward : second.Precedes third)
    (straight : ¬first.Crossed third) : first.Precedes third := by
  have less : tqLess first third = true :=
    tqLess_iff.mpr ((tqLess_iff.mp before.1).trans (tqLess_iff.mp onward.1)
      (fun crossed => Bool.noConfusion (before.2.symm.trans (crossed_iff.mp crossed).2))
      fun crossed => Bool.noConfusion (onward.2.symm.trans (crossed_iff.mp crossed).2))
  exact ⟨less, Bool.eq_false_iff.mpr fun greater => straight (crossed_iff.mpr ⟨less, greater⟩)⟩

end TqKey

/-! ### Entries in order -/

/-- Every entry precedes the later ones. -/
def InKeyOrder (entries : List (TqKey × Nat)) : Prop :=
  entries.Pairwise fun first second => first.1.Precedes second.1

namespace InKeyOrder

variable {entries : List (TqKey × Nat)} {entry : TqKey × Nat} {key : TqKey}

/-- The entries around one of them. -/
theorem around_present (ordered : InKeyOrder entries) (member : entry ∈ entries) :
    ∃ before after, entries = before ++ entry :: after ∧
      SearchTree.Around tqLess entry.1 before after := by
  obtain ⟨before, after, rfl⟩ := List.append_of_mem member
  obtain ⟨-, later, between⟩ := List.pairwise_append.mp ordered
  refine ⟨before, after, rfl, ?_, ?_⟩
  · exact fun other memberToo => between other memberToo entry List.mem_cons_self
  · intro other memberToo
    obtain ⟨less, notLess⟩ := (List.pairwise_cons.mp later).1 other memberToo
    exact ⟨notLess, less⟩

/-- The entries around a key that is not there. -/
theorem around_absent (ordered : InKeyOrder entries) (absent : ∀ entry ∈ entries, key ≠ entry.1)
    (straight : ∀ entry ∈ entries, ¬key.Crossed entry.1) :
    ∃ before after, entries = before ++ after ∧ SearchTree.Around tqLess key before after := by
  have sides : ∀ entry ∈ entries, key.Precedes entry.1 ∨ entry.1.Precedes key :=
    fun entry member => TqKey.precedes_or (absent entry member) (straight entry member)
  -- the key precedes an entry that is not less, and so it precedes those that this one precedes
  have fails : ∀ first ∈ entries, ∀ second ∈ entries, first.1.Precedes second.1 →
      tqLess first.1 key = false → tqLess second.1 key = false := by
    intro first member second memberToo follows fail
    rcases sides first member with later | earlier
    · exact (later.trans follows (straight second memberToo)).2
    · exact Bool.noConfusion (fail.symm.trans earlier.1)
  obtain ⟨before, after, rfl, passing, failing⟩ := exists_split ordered fails
  refine ⟨before, after, rfl, ?_, ?_⟩
  · intro entry member
    rcases sides entry (List.mem_append_left _ member) with later | earlier
    · exact Bool.noConfusion (later.2.symm.trans (passing entry member))
    · exact earlier
  · intro entry member
    rcases sides entry (List.mem_append_right _ member) with later | earlier
    · exact later.symm
    · exact Bool.noConfusion ((failing entry member).symm.trans earlier.1)

/-- A new entry in its place leaves the entries in order. -/
theorem insert {before after : List (TqKey × Nat)} (ordered : InKeyOrder (before ++ after))
    (around : SearchTree.Around tqLess entry.1 before after) :
    InKeyOrder (before ++ entry :: after) := by
  obtain ⟨first, second, between⟩ := List.pairwise_append.mp ordered
  apply List.pairwise_append.mpr
  constructor
  · exact first
  constructor
  · exact List.pairwise_cons.mpr ⟨fun other member => (around.after other member).symm, second⟩
  · intro one member other memberToo
    rcases List.mem_cons.mp memberToo with here | later
    · rw [here]
      exact around.before one member
    · exact between one member other later

/-- Entries in order have different keys. -/
theorem eq_of_key_eq (ordered : InKeyOrder entries) {other : TqKey × Nat} (member : entry ∈ entries)
    (memberToo : other ∈ entries) (same : entry.1 = other.1) : entry = other := by
  obtain ⟨before, after, rfl, around⟩ := ordered.around_present member
  rcases List.mem_append.mp memberToo with earlier | later
  · have less := (around.before other earlier).1
    rw [same, TqKey.tqLess_irrefl] at less
    exact Bool.noConfusion less
  · rcases List.mem_cons.mp later with here | later
    · exact here.symm
    · have less := (around.after other later).2
      rw [same, TqKey.tqLess_irrefl] at less
      exact Bool.noConfusion less

/-- No two entries in order are crossed. -/
theorem straight (ordered : InKeyOrder entries) {other : TqKey × Nat} (member : entry ∈ entries)
    (memberToo : other ∈ entries) : ¬entry.1.Crossed other.1 := by
  intro crossed
  obtain ⟨less, greater⟩ := TqKey.crossed_iff.mp crossed
  obtain ⟨before, after, rfl, around⟩ := ordered.around_present member
  rcases List.mem_append.mp memberToo with earlier | later
  · exact Bool.noConfusion ((around.before other earlier).2.symm.trans less)
  · rcases List.mem_cons.mp later with here | later
    · rw [here, TqKey.tqLess_irrefl] at less
      exact Bool.noConfusion less
    · exact Bool.noConfusion ((around.after other later).1.symm.trans greater)

end InKeyOrder

end Libcmm
