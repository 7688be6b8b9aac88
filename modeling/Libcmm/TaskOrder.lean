import Libcmm.Scheduling
import Libcmm.Lib.EitherLess
import Libcmm.Lib.Transition
import Mathlib.Order.Defs.Unbundled
import Mathlib.Data.List.Pairwise
import Mathlib.Data.Prod.Lex

/-! # The order of scheduling entries

`IROBSchedulingData::operator<` puts on-demand entries first and orders the others by a
disjunction: the earlier completion time or the smaller identifier. Two entries of one class
of which one has the earlier completion time and the other the smaller identifier are each
before the other. On entries without such a pair the comparison is a strict weak order, and
an `IROBPrioritySet` is then a set of keys that `pop` empties from the least one on.
-/

namespace Libcmm

open Lib

/-- A time as a pair ordered by seconds first. -/
def Timeval.lex (time : Timeval) : Int ×ₗ Int := toLex (time.tvSec, time.tvUsec)

theorem Timeval.lex_inj {first second : Timeval} : first.lex = second.lex ↔ first = second := by
  cases first
  cases second
  rw [lex, lex, toLex_inj, Prod.mk.injEq, mk.injEq]

theorem Timeval.before_iff_lex {first second : Timeval} :
    first.before second = true ↔ first.lex < second.lex := by
  unfold before lex
  rw [Prod.Lex.toLex_lt_toLex]
  split_ifs with same
  · rw [decide_eq_true_eq]
    constructor
    · exact fun less => .inr ⟨same, less⟩
    · exact fun less => (less.resolve_left fun earlier => ne_of_lt earlier same).2
  · rw [decide_eq_true_eq]
    exact ⟨.inl, fun less => less.resolve_right fun equal => same equal.1⟩

namespace IrobSchedulingData

/-- The class that the comparison looks at first. -/
def ondemand (data : IrobSchedulingData) : Bool := hasLabel data.sendLabels labelOndemand

/-- What the comparison reads of an entry apart from its class. -/
def rank (data : IrobSchedulingData) : (Int ×ₗ Int) × IrobId := (data.completionTime.lex, data.id)

/-- All that the comparison reads of an entry. -/
def key (data : IrobSchedulingData) : Bool × Timeval × IrobId :=
  (data.ondemand, data.completionTime, data.id)

/-- Two entries of one class of which one completed earlier and the other has the smaller
identifier. -/
def Crossed (first second : IrobSchedulingData) : Prop :=
  first.ondemand = second.ondemand ∧
    ((first.completionTime.before second.completionTime = true ∧ second.id < first.id) ∨
      (second.completionTime.before first.completionTime = true ∧ first.id < second.id))

instance (first second : IrobSchedulingData) : Decidable (first.Crossed second) :=
  inferInstanceAs (Decidable (_ ∧ _))

variable {first second third : IrobSchedulingData}

theorem crossed_rank : first.Crossed second ↔
    first.ondemand = second.ondemand ∧ Lib.Crossed first.rank second.rank := by
  rw [Crossed, Timeval.before_iff_lex, Timeval.before_iff_lex]
  rfl

theorem key_eq_rank : first.key = second.key ↔
    first.ondemand = second.ondemand ∧ first.rank = second.rank := by
  rw [key, key, rank, rank, Prod.mk.injEq, Prod.mk.injEq, Prod.mk.injEq, Timeval.lex_inj]

theorem before_iff : first.before second = true ↔
    (first.ondemand = true ∧ second.ondemand = false) ∨
      (first.ondemand = second.ondemand ∧ EitherLess first.rank second.rank) := by
  have ranks : EitherLess first.rank second.rank ↔
      first.completionTime.before second.completionTime = true ∨ first.id < second.id := by
    rw [Timeval.before_iff_lex]
    rfl
  rw [ranks]
  unfold before ondemand
  cases hasLabel first.sendLabels labelOndemand <;>
    cases hasLabel second.sendLabels labelOndemand <;>
    simp only [Bool.or_eq_true, decide_eq_true_eq, Bool.false_eq_true, Bool.true_eq_false,
      and_true, and_false, and_self, false_and, true_and, false_or, or_false, or_self]

theorem before_irrefl (data : IrobSchedulingData) : ¬data.before data = true := by
  rw [before_iff]
  rintro (⟨is, isNot⟩ | ⟨-, less⟩)
  · exact Bool.noConfusion (is.symm.trans isNot)
  · exact EitherLess.irrefl _ less

/-- Entries of one class are compared by their ranks. -/
theorem before_iff_of_same (same : first.ondemand = second.ondemand) :
    first.before second = true ↔ EitherLess first.rank second.rank := by
  rw [before_iff]
  constructor
  · rintro (⟨is, isNot⟩ | ⟨-, less⟩)
    · exact Bool.noConfusion (is.symm.trans (same.trans isNot))
    · exact less
  · exact fun less => .inr ⟨same, less⟩

/-- Entries of different classes are ordered one way, by the class. -/
theorem before_iff_of_differ (differ : first.ondemand ≠ second.ondemand) :
    first.before second = true ↔ first.ondemand = true ∧ second.ondemand = false := by
  rw [before_iff]
  exact or_iff_left fun both => differ both.1

/-- Crossed entries are those each of which is before the other. -/
theorem crossed_iff : first.Crossed second ↔
    first.before second = true ∧ second.before first = true := by
  rw [crossed_rank]
  by_cases same : first.ondemand = second.ondemand
  · rw [before_iff_of_same same, before_iff_of_same same.symm, ← Lib.crossed_iff]
    exact and_iff_right same
  · rw [before_iff_of_differ same, before_iff_of_differ (Ne.symm same)]
    refine iff_of_false (fun crossed => same crossed.1) ?_
    rintro ⟨⟨is, -⟩, -, isNot⟩
    exact Bool.noConfusion (is.symm.trans isNot)

/-- The comparison orders two entries unless they have the same key. -/
theorem key_eq_iff : first.key = second.key ↔
    ¬first.before second = true ∧ ¬second.before first = true := by
  rw [key_eq_rank]
  by_cases same : first.ondemand = second.ondemand
  · rw [before_iff_of_same same, before_iff_of_same same.symm, ← eq_iff_not_eitherLess]
    exact and_iff_right same
  · rw [before_iff_of_differ same, before_iff_of_differ (Ne.symm same)]
    refine iff_of_false (fun equal => same equal.1) ?_
    rintro ⟨notFirst, notSecond⟩
    cases is : first.ondemand with
    | true => exact notFirst ⟨is, Bool.eq_false_iff.mpr fun isToo => same (is.trans isToo.symm)⟩
    | false =>
        exact notSecond ⟨Bool.eq_true_of_not_eq_false fun isToo => same (is.trans isToo.symm), is⟩

/-- The comparison is transitive where it does not go both ways. -/
theorem before_trans (before : first.before second = true) (onward : second.before third = true)
    (straight : ¬first.Crossed second) (straightOn : ¬second.Crossed third) :
    first.before third = true := by
  rw [crossed_rank] at straight straightOn
  rw [before_iff] at before onward ⊢
  rcases before with ⟨is, isNot⟩ | ⟨same, less⟩
  · rcases onward with ⟨isOn, -⟩ | ⟨sameOn, -⟩
    · exact Bool.noConfusion (isOn.symm.trans isNot)
    · exact .inl ⟨is, sameOn.symm.trans isNot⟩
  · rcases onward with ⟨isOn, isNotOn⟩ | ⟨sameOn, lessOn⟩
    · exact .inl ⟨same.trans isOn, isNotOn⟩
    · exact .inr ⟨same.trans sameOn, less.trans lessOn (not_and.mp straight same)
        (not_and.mp straightOn sameOn)⟩

/-- The comparison is a strict weak order on entries if and only if no two of them are
crossed. -/
theorem strictWeakOrder_iff (entries : Set IrobSchedulingData) :
    IsStrictWeakOrder entries (fun first second => first.1.before second.1 = true) ↔
      ∀ first ∈ entries, ∀ second ∈ entries, ¬first.Crossed second := by
  simp only [crossed_iff]
  apply @strictWeakOrder_iff_of_key _ _ (fun first second => first.before second = true) key
    (fun before onward straight straightOn => ?_) key_eq_iff entries
  exact before_trans before onward (mt crossed_iff.mp straight) (mt crossed_iff.mp straightOn)

/-- First one entry, then the other, and not the other way. -/
def Precedes (first second : IrobSchedulingData) : Prop :=
  first.before second = true ∧ ¬second.before first = true

/-- An entry is placed after those before it, and so before those after it. -/
theorem Precedes.trans (before : first.Precedes second) (onward : second.Precedes third)
    (straight : ¬first.Crossed third) : first.Precedes third := by
  have less := before_trans before.1 onward.1 (fun crossed => before.2 (crossed_iff.mp crossed).2)
    fun crossed => onward.2 (crossed_iff.mp crossed).2
  exact ⟨less, fun after => straight (crossed_iff.mpr ⟨less, after⟩)⟩

end IrobSchedulingData

namespace IrobPrioritySet

open IrobSchedulingData

/-- `IROBPrioritySet::erase`, of the entries from one place of the iteration up to another. -/
def erase (set : IrobPrioritySet) (head tail : Nat) : IrobPrioritySet :=
  ⟨set.tasks.take head ++ set.tasks.drop tail⟩

/-- Every entry precedes the later ones: whatever two entries a search compares, it goes
the way where the entry it looks for is. -/
def Ordered (set : IrobPrioritySet) : Prop := set.tasks.Pairwise Precedes

/-- An entry with this key is pending. -/
def Holds (set : IrobPrioritySet) (data : IrobSchedulingData) : Prop :=
  ∃ task ∈ set.tasks, task.key = data.key

instance (set : IrobPrioritySet) (data : IrobSchedulingData) : Decidable (set.Holds data) :=
  inferInstanceAs (Decidable (∃ task ∈ set.tasks, task.key = data.key))

variable {set : IrobPrioritySet} {data : IrobSchedulingData}

/-- Erasing a range leaves the other entries where they are. -/
theorem erase_sublist (set : IrobPrioritySet) {head tail : Nat} (inside : head ≤ tail) :
    (set.erase head tail).tasks.Sublist set.tasks := by
  have onward : set.tasks.drop tail = (set.tasks.drop head).drop (tail - head) := by
    rw [List.drop_drop, Nat.add_sub_cancel' inside]
  calc (set.tasks.take head ++ set.tasks.drop tail).Sublist
        (set.tasks.take head ++ set.tasks.drop head) := by
          rw [onward]
          exact (List.drop_sublist _ _).append_left _
    _ = set.tasks := List.take_append_drop _ _

theorem pop_sublist {task : IrobSchedulingData} {rest : IrobPrioritySet}
    (popped : set.pop = some (task, rest)) : rest.tasks.Sublist set.tasks := by
  unfold IrobPrioritySet.pop at popped
  split at popped
  · cases popped
  · rename_i first others shape
    cases popped
    rw [shape]
    exact List.sublist_cons_self _ _

/-- An entry that is not crossed with the pending ones is placed in order, unless one with
its key is pending. -/
theorem place_ordered {tasks : List IrobSchedulingData} (ordered : tasks.Pairwise Precedes)
    (straight : ∀ task ∈ tasks, ¬data.Crossed task) :
    (place data tasks).Pairwise Precedes ∧
    ((∃ task ∈ tasks, task.key = data.key) → place data tasks = tasks) ∧
    ((∀ task ∈ tasks, task.key ≠ data.key) → (place data tasks).Perm (data :: tasks)) := by
  induction tasks with
  | nil =>
      exact ⟨List.pairwise_singleton _ _, fun ⟨_, member, _⟩ => absurd member List.not_mem_nil,
        fun _ => .refl _⟩
  | cons task rest ih =>
      obtain ⟨first, later⟩ := List.pairwise_cons.mp ordered
      have straightFirst := straight task List.mem_cons_self
      obtain ⟨sorted, found, placed⟩ :=
        ih later fun other member => straight other (List.mem_cons_of_mem _ member)
      unfold place
      split_ifs with before after
      · -- the entry goes in front of all of them
        have precedes : data.Precedes task :=
          ⟨before, fun after => straightFirst (crossed_iff.mpr ⟨before, after⟩)⟩
        have all : ∀ other ∈ task :: rest, data.Precedes other := by
          intro other member
          rcases List.mem_cons.mp member with rfl | member'
          · exact precedes
          · exact precedes.trans (first other member') (straight other member)
        refine ⟨List.pairwise_cons.mpr ⟨all, ordered⟩, ?_, fun _ => .refl _⟩
        rintro ⟨other, member, equal⟩
        exact absurd (all other member).1 (key_eq_iff.mp equal).2
      · have precedes : task.Precedes data := ⟨after, before⟩
        refine ⟨List.pairwise_cons.mpr ⟨fun other member => ?_, sorted⟩, ?_, fun fresh => ?_⟩
        · rcases mem_place member with rfl | member
          · exact precedes
          · exact first other member
        · rintro ⟨other, member, equal⟩
          rcases List.mem_cons.mp member with rfl | member
          · exact absurd after (key_eq_iff.mp equal).1
          · rw [found ⟨other, member, equal⟩]
        · exact ((placed fun other member => fresh other (List.mem_cons_of_mem _ member)).cons
            task).trans (.swap data task rest)
      · exact ⟨ordered, fun _ => rfl, fun fresh =>
          absurd (key_eq_iff.mpr ⟨after, before⟩) (fresh task List.mem_cons_self)⟩

end IrobPrioritySet

/-- A set of entries with those that were accepted, popped and erased, latest first. -/
structure SetRun where
  set : IrobPrioritySet
  accepted : List IrobSchedulingData
  popped : List IrobSchedulingData
  erased : List IrobSchedulingData

/-- A call on a set of entries. -/
inductive SetCall where
  | insert (data : IrobSchedulingData)
  | insertRange (range : List IrobSchedulingData)
  | pop
  | erase (head tail : Nat)

namespace SetRun

open IrobSchedulingData

/-- A set without entries. -/
def empty : SetRun := ⟨.empty, [], [], []⟩

/-- An insertion; the entry is accepted when none with its key is pending. -/
def insert (run : SetRun) (data : IrobSchedulingData) : SetRun :=
  { run with
    set := run.set.insert data
    accepted := if run.set.Holds data then run.accepted else data :: run.accepted }

/-- One call. -/
def step (run : SetRun) : SetCall → Option SetRun
  | .insert data => some (run.insert data)
  | .insertRange range => some (range.foldl insert run)
  | .pop =>
      match run.set.pop with
      | none => some run
      | some (task, rest) => some { run with set := rest, popped := task :: run.popped }
  | .erase head tail => some { run with
      set := run.set.erase head tail
      erased := (run.set.tasks.drop head).take (tail - head) ++ run.erased }

/-- The iterators are of the set and in order. -/
def Permitted (run : SetRun) : SetCall → Prop
  | .erase head tail => head ≤ tail ∧ tail ≤ run.set.tasks.length
  | _ => True

/-- An inserted entry is not crossed with a pending one, nor with another of its range. -/
def Straight (run : SetRun) : SetCall → Prop
  | .insert data => ∀ task ∈ run.set.tasks, ¬data.Crossed task
  | .insertRange range => ∀ data ∈ range,
      (∀ task ∈ run.set.tasks, ¬data.Crossed task) ∧ ∀ other ∈ range, ¬data.Crossed other
  | _ => True

instance : ∀ (run : SetRun) call, Decidable (run.Permitted call)
  | run, .erase head tail =>
      inferInstanceAs (Decidable (head ≤ tail ∧ tail ≤ run.set.tasks.length))
  | _, .insert _ | _, .insertRange _ | _, .pop => inferInstanceAs (Decidable True)

instance : ∀ (run : SetRun) call, Decidable (run.Straight call)
  | run, .insert data => inferInstanceAs (Decidable (∀ task ∈ run.set.tasks, ¬data.Crossed task))
  | run, .insertRange range => inferInstanceAs (Decidable (∀ data ∈ range,
      (∀ task ∈ run.set.tasks, ¬data.Crossed task) ∧ ∀ other ∈ range, ¬data.Crossed other))
  | _, .erase _ _ | _, .pop => inferInstanceAs (Decidable True)

/-- The set under every sequence of calls. -/
def machine : Machine SetRun SetCall where
  initial run := run = empty
  permitted := Permitted
  step := step

instance : ∀ (run : SetRun) call, Decidable (machine.permitted run call) :=
  fun run call => inferInstanceAs (Decidable (run.Permitted call))

variable {run after : SetRun}

/-- Inserting a range is inserting its entries one after another. -/
theorem set_insertRange (run : SetRun) (range : List IrobSchedulingData) :
    (range.foldl insert run).set = run.set.insertRange range := by
  induction range generalizing run with
  | nil => rfl
  | cons data rest ih => exact ih (run.insert data)

/-- What runs without crossed entries keep. -/
structure Sound (run : SetRun) : Prop where
  ordered : run.set.Ordered
  balanced : run.accepted.Perm (run.popped ++ run.erased ++ run.set.tasks)

theorem Sound.insert (sound : run.Sound) {data : IrobSchedulingData}
    (straight : ∀ task ∈ run.set.tasks, ¬data.Crossed task) : (run.insert data).Sound := by
  obtain ⟨sorted, found, placed⟩ := IrobPrioritySet.place_ordered sound.ordered straight
  refine ⟨sorted, ?_⟩
  by_cases held : run.set.Holds data
  · rw [show (run.insert data).accepted = run.accepted from if_pos held,
      show (run.insert data).set = run.set from
        congrArg IrobPrioritySet.mk (found held)]
    exact sound.balanced
  · rw [show (run.insert data).accepted = data :: run.accepted from if_neg held]
    have fresh : ∀ task ∈ run.set.tasks, task.key ≠ data.key :=
      fun task member equal => held ⟨task, member, equal⟩
    exact (sound.balanced.cons data).trans
      (List.perm_middle.symm.trans ((placed fresh).symm.append_left _))

theorem Sound.insertRange {range : List IrobSchedulingData} (sound : run.Sound)
    (straight : ∀ data ∈ range,
      (∀ task ∈ run.set.tasks, ¬data.Crossed task) ∧ ∀ other ∈ range, ¬data.Crossed other) :
    (range.foldl SetRun.insert run).Sound := by
  induction range generalizing run with
  | nil => exact sound
  | cons data rest ih =>
      apply ih (sound.insert (straight data List.mem_cons_self).1)
      intro later member
      obtain ⟨fromPending, fromRange⟩ := straight later (List.mem_cons_of_mem _ member)
      refine ⟨fun task inside => ?_, fun other among => fromRange other
        (List.mem_cons_of_mem _ among)⟩
      rcases IrobPrioritySet.mem_place inside with rfl | pending
      · exact fromRange task List.mem_cons_self
      · exact fromPending task pending

/-- Popping takes the first entry, which precedes all the others. -/
theorem Sound.pop (sound : run.Sound) {task : IrobSchedulingData} {rest : IrobPrioritySet}
    (popped : run.set.pop = some (task, rest)) :
    Sound { run with set := rest, popped := task :: run.popped } ∧
      ∀ other ∈ rest.tasks, task.Precedes other := by
  have ordered := sound.ordered
  have balanced := sound.balanced
  unfold IrobPrioritySet.Ordered at ordered
  unfold IrobPrioritySet.pop at popped
  split at popped
  · cases popped
  · rename_i first others tasks
    cases popped
    rw [tasks] at ordered balanced
    obtain ⟨first, later⟩ := List.pairwise_cons.mp ordered
    exact ⟨⟨later, balanced.trans List.perm_middle⟩, first⟩

theorem Sound.erase (sound : run.Sound) {head tail : Nat} (inside : head ≤ tail) :
    Sound { run with
      set := run.set.erase head tail
      erased := (run.set.tasks.drop head).take (tail - head) ++ run.erased } := by
  have onward : run.set.tasks.drop tail = (run.set.tasks.drop head).drop (tail - head) := by
    rw [List.drop_drop, Nat.add_sub_cancel' inside]
  have parts : (run.set.tasks.drop head).take (tail - head) ++ run.set.tasks.drop tail =
      run.set.tasks.drop head := by rw [onward, List.take_append_drop]
  constructor
  · exact sound.ordered.sublist (run.set.erase_sublist inside)
  · have moved : run.set.tasks.Perm ((run.set.tasks.drop head).take (tail - head) ++
        (run.set.tasks.take head ++ run.set.tasks.drop tail)) := by
      conv_lhs => rw [← List.take_append_drop head run.set.tasks, ← parts]
      exact List.perm_append_comm_assoc _ _ _
    have total := sound.balanced.trans (moved.append_left (run.popped ++ run.erased))
    refine total.trans ?_
    simp only [List.append_assoc]
    exact (List.perm_append_comm_assoc _ _ _).append_left _

theorem Sound.step {call : SetCall} (sound : run.Sound) (permitted : run.Permitted call)
    (straight : run.Straight call) (stepped : run.step call = some after) : after.Sound := by
  cases call with
  | insert data =>
      cases stepped
      exact sound.insert straight
  | insertRange range =>
      cases stepped
      exact sound.insertRange straight
  | pop =>
      rcases popped : run.set.pop with _ | ⟨task, rest⟩
      · simp only [SetRun.step, popped] at stepped
        cases stepped
        exact sound
      · simp only [SetRun.step, popped] at stepped
        cases stepped
        exact (sound.pop popped).1
  | erase head tail =>
      cases stepped
      exact sound.erase permitted.1

theorem sound_of_reachable (reached : (machine.restrict Straight).Reachable run) : run.Sound := by
  apply reached.induct
  · rintro first rfl
    exact ⟨.nil, .refl _⟩
  · intro before next call _ sound permitted moved
    exact sound.step permitted.1 permitted.2 moved

/-- Popping until the set is empty takes out every pending entry. -/
theorem Sound.drain (sound : run.Sound) : ∃ drained : SetRun,
    Relation.ReflTransGen (fun before after => SetRun.step before .pop = some after) run drained ∧
      drained.set.tasks = [] ∧ drained.Sound ∧ drained.accepted = run.accepted ∧
      drained.erased = run.erased := by
  rcases run with ⟨⟨tasks⟩, accepted, popped, erased⟩
  induction tasks generalizing popped with
  | nil => exact ⟨_, .refl, rfl, sound, rfl, rfl⟩
  | cons task rest ih =>
      obtain ⟨drained, pops, emptied, kept⟩ := ih (task :: popped) (sound.pop rfl).1
      exact ⟨drained, .head rfl pops, emptied, kept⟩

/-- No two entries of an ordered set are crossed. -/
theorem straight_of_ordered {set : IrobPrioritySet} (ordered : set.Ordered)
    {first second : IrobSchedulingData} (member : first ∈ set.tasks)
    (memberToo : second ∈ set.tasks) : ¬first.Crossed second := by
  intro crossed
  obtain ⟨before, after⟩ := crossed_iff.mp crossed
  by_cases same : first = second
  · rw [same] at before
    exact before_irrefl second before
  · have pairs : set.tasks.Pairwise fun first second => ¬first.Crossed second :=
      ordered.imp fun precedes crossed => precedes.2 (crossed_iff.mp crossed).2
    have symmetric : Std.Symm fun first second : IrobSchedulingData => ¬first.Crossed second :=
      ⟨fun _ _ straight crossed => straight (crossed_iff.mpr (crossed_iff.mp crossed).symm)⟩
    exact pairs.forall member memberToo same crossed

/-- An insertion leaves an entry with the key of the new one. -/
theorem holds_insert (run : SetRun) (data : IrobSchedulingData) :
    (run.insert data).set.Holds data := by
  unfold IrobPrioritySet.Holds SetRun.insert IrobPrioritySet.insert
  generalize run.set.tasks = tasks
  induction tasks with
  | nil => exact ⟨data, List.mem_cons_self, rfl⟩
  | cons task rest ih =>
      simp only [IrobPrioritySet.place]
      split_ifs with before after
      · exact ⟨data, List.mem_cons_self, rfl⟩
      · obtain ⟨found, member, equal⟩ := ih
        exact ⟨found, List.mem_cons_of_mem _ member, equal⟩
      · exact ⟨task, List.mem_cons_self, key_eq_iff.mpr ⟨after, before⟩⟩

/-- An entry with the key of another is crossed with the same ones. -/
theorem crossed_of_key_eq {first second third : IrobSchedulingData}
    (equal : first.key = second.key) (crossed : second.Crossed third) : first.Crossed third := by
  obtain ⟨classes, ranks⟩ := key_eq_rank.mp equal
  rw [crossed_rank, classes, ranks]
  exact crossed_rank.mp crossed

/-- The comparison is a strict weak order on entries if and only if no two of them are
crossed. In a run where no entry was crossed with a pending one when it was inserted, the
entries are in order, and an insertion leaves them in order if and only if the new entry is
crossed with none of them. What `pop` takes precedes the rest; an entry whose key is pending
is not inserted again; and once popping has emptied the set, those that were popped or erased
are those that were accepted, each as often. -/
theorem order_and_pops (entries : Set IrobSchedulingData)
    (reached : (machine.restrict Straight).Reachable run) :
    (IsStrictWeakOrder entries (fun first second => first.1.before second.1 = true) ↔
      ∀ first ∈ entries, ∀ second ∈ entries, ¬first.Crossed second) ∧
    run.set.Ordered ∧
    (∀ data, (run.insert data).set.Ordered ↔ ∀ task ∈ run.set.tasks, ¬data.Crossed task) ∧
    (∀ task rest, run.set.pop = some (task, rest) →
      ∀ other ∈ rest.tasks, task.Precedes other) ∧
    (∀ data, run.set.Holds data → run.insert data = run) ∧
    ∃ drained : SetRun,
      Relation.ReflTransGen (fun before after => SetRun.step before .pop = some after) run drained ∧
      drained.set.tasks = [] ∧ run.accepted.Perm (drained.popped ++ run.erased) := by
  have sound := sound_of_reachable reached
  have inserted : ∀ data, (run.insert data).set.Ordered → ∀ task ∈ run.set.tasks,
      ¬data.Crossed task := by
    intro data ordered task member crossed
    obtain ⟨found, there, equal⟩ := holds_insert run data
    exact straight_of_ordered ordered there (IrobPrioritySet.mem_place_of_mem member)
      (crossed_of_key_eq equal crossed)
  refine ⟨strictWeakOrder_iff entries, sound.ordered,
    fun data => ⟨inserted data, fun straight => (sound.insert straight).ordered⟩,
    fun task rest popped => (sound.pop popped).2, fun data held => ?_, ?_⟩
  · obtain ⟨pending, member, equal⟩ := held
    have straight : ∀ task ∈ run.set.tasks, ¬data.Crossed task := fun task memberToo crossed =>
      straight_of_ordered sound.ordered member memberToo (crossed_of_key_eq equal crossed)
    have found := (IrobPrioritySet.place_ordered sound.ordered straight).2.1 ⟨pending, member, equal⟩
    have same : run.set.insert data = run.set := congrArg IrobPrioritySet.mk found
    have noted : (run.insert data).accepted = run.accepted := if_pos ⟨pending, member, equal⟩
    calc run.insert data
        = ⟨run.set.insert data, (run.insert data).accepted, run.popped, run.erased⟩ := rfl
      _ = run := by rw [same, noted]
  · obtain ⟨drained, pops, emptied, left, accepted, erased⟩ := sound.drain
    have balanced := left.balanced
    rw [emptied, List.append_nil, accepted, erased] at balanced
    exact ⟨drained, pops, emptied, balanced⟩

/-- The acknowledgment of an IROB that was complete first, and of one with a smaller
identifier: each is before the other. -/
theorem crossed_acks : ∃ first second : IrobSchedulingData,
    first = .ack 5 ⟨1, 0⟩ 0 ∧ second = .ack 3 ⟨2, 0⟩ 0 ∧
    first.before second = true ∧ second.before first = true ∧
    ¬IsStrictWeakOrder IrobSchedulingData (fun first second => first.before second = true) := by
  refine ⟨_, _, rfl, rfl, rfl, rfl, fun weak => ?_⟩
  have cycle := weak.toIsStrictOrder.trans (.ack 5 ⟨1, 0⟩ 0) (.ack 3 ⟨2, 0⟩ 0) (.ack 5 ⟨1, 0⟩ 0)
    rfl rfl
  cases cycle

/-- Two acknowledgments in the order of their identifiers, one of them sent at once. -/
def twoAcks : List SetCall :=
  [.insertRange [.ack 5 ⟨2, 0⟩ 0, .ack 3 ⟨1, 0⟩ 0, .ack 5 ⟨2, 0⟩ 0], .pop]

theorem order_and_pops_two_acks : ∃ run : SetRun, (machine.restrict Straight).Reachable run ∧
    run.popped = [.ack 3 ⟨1, 0⟩ 0] ∧ run.set.tasks = [.ack 5 ⟨2, 0⟩ 0] ∧
    run.accepted.length = 2 ∧ ∃ drained : SetRun, drained.set.tasks = [] ∧
      run.accepted.Perm (drained.popped ++ run.erased) := by
  obtain ⟨run, ran, popped, pending, accepted⟩ : ∃ run : SetRun,
      (machine.restrict Straight).run empty twoAcks = some run ∧
      run.popped = [.ack 3 ⟨1, 0⟩ 0] ∧ run.set.tasks = [.ack 5 ⟨2, 0⟩ 0] ∧
      run.accepted.length = 2 := ⟨_, rfl, rfl, rfl, rfl⟩
  have reached := Machine.Reachable.run (.initial rfl) ran
  obtain ⟨-, -, -, -, -, drained, -, emptied, balanced⟩ := order_and_pops ∅ reached
  exact ⟨run, reached, popped, pending, accepted, drained, emptied, balanced⟩

end SetRun

end Libcmm
