import Libcmm.TaskOrder

/-! # Looking a task up by its identifier

`IROBPrioritySet::remove` looks for an entry equivalent to one with the identifier it is given
and no labels. Among entries with the default completion time those are the entries of that
identifier that are not on-demand: an on-demand task is never found in this way. The loops
of `schedule_work` that go on with the IROB just begun or sent, and `transfer`, pass over it.
-/

namespace Libcmm

open Lib

/-- The completion time of entries that are not acknowledgments. -/
def defaultTime : Timeval := ⟨-1, 0⟩

namespace IrobPrioritySet

open IrobSchedulingData

/-- `IROBPrioritySet::transfer`. Without another object the entry comes back to this one. -/
def transfer (set : IrobPrioritySet) (id : IrobId) (newLabels : Nat)
    (other : Option IrobPrioritySet) : IrobPrioritySet × Option IrobPrioritySet :=
  match set.remove id with
  | none => (set, other)
  | some (task, rest) =>
      let data := { task with sendLabels := newLabels }
      match other with
      | none => (rest.insert data, none)
      | some other => (rest, some (other.insert data))

/-- The loop of `schedule_work` over the further chunks of an IROB, when every `irob_chunk`
returns true. For each of these calls `scheduled` says what is inserted during it. -/
def followUps (id : IrobId) : IrobPrioritySet → List (List IrobSchedulingData) →
    Option (List IrobSchedulingData × IrobPrioritySet)
  | set, [] => match set.remove id with
      | none => some ([], set)
      | some _ => none
  | set, now :: later => match set.remove id with
      | none => none
      | some (data, rest) =>
          (followUps id (rest.insertRange now) later).map fun (handled, last) =>
            (data :: handled, last)

/-- A set of entries with the default completion time. -/
structure Untimed (set : IrobPrioritySet) : Prop where
  ordered : set.Ordered
  times : ∀ task ∈ set.tasks, task.completionTime = defaultTime

variable {set rest : IrobPrioritySet} {id : IrobId} {data task : IrobSchedulingData}

/-- Entries with one completion time are not crossed. -/
theorem not_crossed_of_times {first second : IrobSchedulingData}
    (firstTime : first.completionTime = defaultTime)
    (secondTime : second.completionTime = defaultTime) : ¬first.Crossed second := by
  rintro ⟨-, ⟨earlier, -⟩ | ⟨earlier, -⟩⟩
  · rw [firstTime, secondTime] at earlier
    cases earlier
  · rw [firstTime, secondTime] at earlier
    cases earlier

/-- An entry without labels is not on-demand. -/
theorem ondemand_work (id : IrobId) (chunksReady : Bool) :
    (work id chunksReady 0).ondemand = false := by
  simp only [ondemand, work, hasLabel, Nat.zero_and, bne_self_eq_false]

/-- An entry with the default completion time is equivalent to the one that is looked for if
and only if it has the identifier and is not on-demand. -/
theorem equivalent_iff (time : task.completionTime = defaultTime) :
    (!task.before (.work id false 0) && !(work id false 0).before task) = true ↔
      task.id = id ∧ task.ondemand = false := by
  rw [Bool.and_eq_true, Bool.not_eq_true', Bool.not_eq_true', ← Bool.not_eq_true,
    ← Bool.not_eq_true, ← key_eq_iff, key, key, Prod.mk.injEq, Prod.mk.injEq, time]
  constructor
  · rintro ⟨same, -, named⟩
    exact ⟨named, same.trans (ondemand_work id false)⟩
  · rintro ⟨named, same⟩
    exact ⟨same.trans (ondemand_work id false).symm, rfl, named⟩

namespace Untimed

theorem insert (untimed : set.Untimed) (time : data.completionTime = defaultTime) :
    (set.insert data).Untimed := by
  constructor
  · exact (place_ordered untimed.ordered fun task member =>
      not_crossed_of_times time (untimed.times task member)).1
  · intro task member
    rcases mem_place member with rfl | old
    · exact time
    · exact untimed.times task old

theorem insertRange (untimed : set.Untimed) {range : List IrobSchedulingData}
    (times : ∀ data ∈ range, data.completionTime = defaultTime) :
    (set.insertRange range).Untimed := by
  induction range generalizing set with
  | nil => exact untimed
  | cons data rest ih =>
      exact ih (untimed.insert (times data List.mem_cons_self)) fun later member =>
        times later (List.mem_cons_of_mem _ member)

theorem sublist (untimed : set.Untimed) (fewer : rest.tasks.Sublist set.tasks) : rest.Untimed :=
  ⟨untimed.ordered.sublist fewer, fun task member => untimed.times task (fewer.mem member)⟩

/-- What `remove` takes out, and from where. -/
theorem remove_eq_some (untimed : set.Untimed) (removed : set.remove id = some (task, rest)) :
    task.id = id ∧ task.ondemand = false ∧
      ∃ front back, set.tasks = front ++ task :: back ∧ rest.tasks = front ++ back := by
  obtain ⟨found, finding, same⟩ := Option.map_eq_some_iff.mp removed
  cases same
  have equivalent := List.find?_some finding
  have member := List.mem_of_find?_eq_some finding
  obtain ⟨named, plain⟩ := (equivalent_iff (untimed.times task member)).mp equivalent
  refine ⟨named, plain, ?_⟩
  obtain ⟨-, front, back, shape, before⟩ := List.find?_eq_some_iff_append.mp finding
  refine ⟨front, back, shape, ?_⟩
  have skipped : ∀ other ∈ front, ¬(!other.before (work id false 0) &&
      !(work id false 0).before other) = true := by
    intro other listed
    have passed := before other listed
    rwa [Bool.not_eq_true', ← Bool.not_eq_true] at passed
  simp only [shape, List.eraseP_append_right _ skipped]
  exact congrArg (front ++ ·) (List.eraseP_cons_of_pos equivalent)

/-- `remove` finds nothing if and only if every task of the IROB is on-demand. -/
theorem remove_eq_none_iff (untimed : set.Untimed) :
    set.remove id = none ↔ ∀ task ∈ set.tasks, task.id = id → task.ondemand = true := by
  unfold IrobPrioritySet.remove
  rw [Option.map_eq_none_iff, List.find?_eq_none]
  refine forall₂_congr fun task member => ?_
  rw [equivalent_iff (untimed.times task member), not_and, Bool.not_eq_false]

end Untimed

/-- `remove` does what its name says: it finds a task of the IROB if there is one, and takes
out just that. -/
def RemovesById (set : IrobPrioritySet) (id : IrobId) : Prop :=
  ((set.remove id).isSome = true ↔ ∃ task ∈ set.tasks, task.id = id) ∧
    ∀ task rest, set.remove id = some (task, rest) → task.id = id ∧
      ∃ front back, set.tasks = front ++ task :: back ∧ rest.tasks = front ++ back

/-- `transfer` gives a task of the IROB the new labels and moves it, if there is one. -/
def TransfersById (set : IrobPrioritySet) (id : IrobId) : Prop :=
  ∀ (newLabels : Nat) (other : IrobPrioritySet), (∃ task ∈ set.tasks, task.id = id) →
    ∃ task front back, task.id = id ∧ set.tasks = front ++ task :: back ∧
      set.transfer id newLabels (some other) =
        (⟨front ++ back⟩, some (other.insert { task with sendLabels := newLabels })) ∧
      set.transfer id newLabels none =
        ((⟨front ++ back⟩ : IrobPrioritySet).insert { task with sendLabels := newLabels }, none)

/-- A task of the IROB that is not on-demand is pending, if any task of it is. -/
def FoundById (set : IrobPrioritySet) (id : IrobId) : Prop :=
  (∃ task ∈ set.tasks, task.id = id) → ∃ task ∈ set.tasks, task.id = id ∧ task.ondemand = false

theorem Untimed.removesById_iff (untimed : set.Untimed) :
    set.RemovesById id ↔ set.FoundById id := by
  have taken : ∀ task rest, set.remove id = some (task, rest) → task.id = id ∧
      ∃ front back, set.tasks = front ++ task :: back ∧ rest.tasks = front ++ back := by
    intro task rest removed
    obtain ⟨named, -, parts⟩ := untimed.remove_eq_some removed
    exact ⟨named, parts⟩
  have missed : set.remove id = none ↔ ∀ task ∈ set.tasks, task.id = id → task.ondemand = true :=
    untimed.remove_eq_none_iff
  constructor
  · rintro ⟨found, -⟩ pending
    obtain ⟨⟨task, rest⟩, removed⟩ := Option.isSome_iff_exists.mp (found.mpr pending)
    obtain ⟨named, plain, front, back, shape, -⟩ := untimed.remove_eq_some removed
    exact ⟨task, shape ▸ List.mem_append_right _ List.mem_cons_self, named, plain⟩
  · intro found
    refine ⟨⟨fun some' => ?_, fun pending => ?_⟩, taken⟩
    · obtain ⟨⟨task, rest⟩, removed⟩ := Option.isSome_iff_exists.mp some'
      obtain ⟨named, front, back, shape, -⟩ := taken task rest removed
      exact ⟨task, shape ▸ List.mem_append_right _ List.mem_cons_self, named⟩
    · obtain ⟨task, member, named, plain⟩ := found pending
      rw [Option.isSome_iff_ne_none]
      intro none
      cases (missed.mp none task member named).symm.trans plain

theorem Untimed.transfersById_iff (untimed : set.Untimed) :
    set.TransfersById id ↔ set.FoundById id := by
  constructor
  · intro transfers pending
    cases removed : set.remove id with
    | none =>
        obtain ⟨task, front, back, -, shape, moved, -⟩ := transfers 0 .empty pending
        unfold IrobPrioritySet.transfer at moved
        rw [removed] at moved
        have short := congrArg (·.1.tasks.length) moved
        rw [show (set, some IrobPrioritySet.empty).1 = set from rfl, shape] at short
        simp only [List.length_append, List.length_cons] at short
        omega
    | some pair =>
        obtain ⟨task, rest⟩ := pair
        obtain ⟨named, plain, front, back, shape, -⟩ := untimed.remove_eq_some removed
        exact ⟨task, shape ▸ List.mem_append_right _ List.mem_cons_self, named, plain⟩
  · intro found newLabels other pending
    obtain ⟨task, member, named, plain⟩ := found pending
    cases removed : set.remove id with
    | none =>
        cases (untimed.remove_eq_none_iff.mp removed task member named).symm.trans plain
    | some pair =>
        obtain ⟨task, rest⟩ := pair
        obtain ⟨named, -, front, back, shape, left⟩ := untimed.remove_eq_some removed
        have same : rest = ⟨front ++ back⟩ := congrArg IrobPrioritySet.mk left
        refine ⟨task, front, back, named, shape, ?_, ?_⟩
        · unfold IrobPrioritySet.transfer
          rw [removed, same]
        · unfold IrobPrioritySet.transfer
          rw [removed, same]

/-- An on-demand task of the IROB is pending. -/
def OndemandPending (set : IrobPrioritySet) (id : IrobId) : Prop :=
  ∃ task ∈ set.tasks, task.id = id ∧ task.ondemand = true

theorem Untimed.ondemandPending_insert (untimed : set.Untimed)
    (time : data.completionTime = defaultTime) :
    (set.insert data).OndemandPending id ↔
      set.OndemandPending id ∨ data.id = id ∧ data.ondemand = true := by
  constructor
  · rintro ⟨task, member, asked⟩
    rcases mem_place member with rfl | old
    · exact .inr asked
    · exact .inl ⟨task, old, asked⟩
  · rintro (⟨task, member, asked⟩ | ⟨named, urgent⟩)
    · exact ⟨task, mem_insert_of_mem member, asked⟩
    · obtain ⟨-, found, placed⟩ := place_ordered untimed.ordered fun task member =>
        not_crossed_of_times time (untimed.times task member)
      by_cases held : ∃ task ∈ set.tasks, task.key = data.key
      · obtain ⟨task, member, equal⟩ := held
        obtain ⟨sameClass, -, sameId⟩ : task.ondemand = data.ondemand ∧
            task.completionTime = data.completionTime ∧ task.id = data.id := by
          simpa only [key, Prod.mk.injEq] using equal
        exact ⟨task, mem_insert_of_mem member, sameId.trans named, sameClass.trans urgent⟩
      · have fresh : ∀ task ∈ set.tasks, task.key ≠ data.key :=
          fun task member equal => held ⟨task, member, equal⟩
        exact ⟨data, (placed fresh).mem_iff.mpr List.mem_cons_self, named, urgent⟩

theorem Untimed.ondemandPending_insertRange (untimed : set.Untimed)
    {range : List IrobSchedulingData} (times : ∀ data ∈ range, data.completionTime = defaultTime) :
    (set.insertRange range).OndemandPending id ↔
      set.OndemandPending id ∨ ∃ data ∈ range, data.id = id ∧ data.ondemand = true := by
  induction range generalizing set with
  | nil =>
      rw [or_iff_left fun ⟨_, member, _⟩ => List.not_mem_nil member]
      rfl
  | cons data rest ih =>
      have time := times data List.mem_cons_self
      have step := ih (untimed.insert time) fun later member =>
        times later (List.mem_cons_of_mem _ member)
      rw [untimed.ondemandPending_insert time] at step
      rw [List.exists_mem_cons_iff, ← or_assoc]
      exact step

/-- `remove` leaves the on-demand tasks where they are. -/
theorem Untimed.ondemandPending_remove (untimed : set.Untimed)
    (removed : set.remove id = some (task, rest)) :
    rest.OndemandPending id ↔ set.OndemandPending id := by
  obtain ⟨-, plain, front, back, shape, left⟩ := untimed.remove_eq_some removed
  unfold OndemandPending
  rw [shape, left]
  constructor
  · rintro ⟨other, member, asked⟩
    exact ⟨other, (List.sublist_cons_self task back).append_left front |>.mem member, asked⟩
  · rintro ⟨other, member, named, urgent⟩
    rcases List.mem_append.mp member with before | after
    · exact ⟨other, List.mem_append_left _ before, named, urgent⟩
    · rcases List.mem_cons.mp after with rfl | later
      · cases plain.symm.trans urgent
      · exact ⟨other, List.mem_append_right _ later, named, urgent⟩

/-- The loop handles tasks of its IROB only. It leaves none of them pending if and only if no
on-demand one was pending or has been inserted. -/
theorem Untimed.followUps_iff (untimed : set.Untimed) {scheduled : List (List IrobSchedulingData)}
    (times : ∀ now ∈ scheduled, ∀ data ∈ now, data.completionTime = defaultTime)
    {handled : List IrobSchedulingData} {last : IrobPrioritySet}
    (looped : followUps id set scheduled = some (handled, last)) :
    (∀ task ∈ handled, task.id = id) ∧
    ((∀ task ∈ last.tasks, task.id ≠ id) ↔
      ¬set.OndemandPending id ∧
        ∀ now ∈ scheduled, ∀ data ∈ now, data.id = id → data.ondemand = false) := by
  induction scheduled generalizing set handled with
  | nil =>
      unfold followUps at looped
      split at looped
      · rename_i missed
        cases looped
        refine ⟨fun _ member => (List.not_mem_nil member).elim, ?_⟩
        rw [and_iff_left fun _ member => (List.not_mem_nil member).elim]
        constructor
        · rintro none ⟨task, member, named, -⟩
          exact none task member named
        · intro calm task member named
          exact calm ⟨task, member, named,
            untimed.remove_eq_none_iff.mp missed task member named⟩
      · cases looped
  | cons now later ih =>
      unfold followUps at looped
      split at looped
      · cases looped
      · rename_i task rest removed
        obtain ⟨⟨others, final⟩, onward, same⟩ := Option.map_eq_some_iff.mp looped
        cases same
        obtain ⟨named, -, front, back, shape, left⟩ := untimed.remove_eq_some removed
        have fewer : rest.tasks.Sublist set.tasks := by
          rw [shape, left]
          exact (List.sublist_cons_self task back).append_left front
        have nowTimes := times now List.mem_cons_self
        have restUntimed := untimed.sublist fewer
        obtain ⟨own, ends⟩ := ih (restUntimed.insertRange nowTimes)
          (fun now member => times now (List.mem_cons_of_mem _ member)) onward
        refine ⟨List.forall_mem_cons.mpr ⟨named, own⟩, ends.trans ?_⟩
        rw [restUntimed.ondemandPending_insertRange nowTimes,
          untimed.ondemandPending_remove removed, not_or, List.forall_mem_cons, and_assoc]
        refine and_congr_right fun _ => and_congr_left fun _ => ?_
        simp only [not_exists, not_and, Bool.not_eq_true]

end IrobPrioritySet

namespace SetRun

open IrobSchedulingData

/-- The inserted entries are not acknowledgments. -/
def Untimed (_ : SetRun) : SetCall → Prop
  | .insert data => data.completionTime = defaultTime
  | .insertRange range => ∀ data ∈ range, data.completionTime = defaultTime
  | _ => True

instance : ∀ (run : SetRun) call, Decidable (run.Untimed call)
  | _, .insert data => inferInstanceAs (Decidable (data.completionTime = defaultTime))
  | _, .insertRange range =>
      inferInstanceAs (Decidable (∀ data ∈ range, data.completionTime = defaultTime))
  | _, .pop | _, .erase _ _ => inferInstanceAs (Decidable True)

variable {run : SetRun} {id : IrobId}

theorem untimed_of_reachable (reached : (machine.restrict Untimed).Reachable run) :
    run.set.Untimed := by
  apply reached.induct
  · rintro first rfl
    exact ⟨.nil, fun _ member => (List.not_mem_nil member).elim⟩
  · intro before next call _ untimed permitted moved
    cases call with
    | insert data =>
        cases moved
        exact untimed.insert permitted.2
    | insertRange range =>
        cases moved
        rw [set_insertRange]
        exact untimed.insertRange permitted.2
    | pop =>
        have stepped : before.step .pop = some next := moved
        rcases popped : before.set.pop with _ | ⟨task, rest⟩
        · simp only [SetRun.step, popped] at stepped
          cases stepped
          exact untimed
        · simp only [SetRun.step, popped] at stepped
          cases stepped
          exact untimed.sublist (IrobPrioritySet.pop_sublist popped)
    | erase head tail =>
        cases moved
        exact untimed.sublist (before.set.erase_sublist permitted.1.1)

/-- In every run with tasks that are not acknowledgments, and for every identifier: `remove`
and `transfer` act on a task of the IROB if there is one if and only if one of them is not
on-demand; the loop over the further tasks of the IROB acts on no others, and it leaves none of
them pending if and only if none of them is on-demand. -/
theorem remove_by_id_iff (reached : (machine.restrict Untimed).Reachable run) (id : IrobId) :
    (run.set.RemovesById id ↔ run.set.FoundById id) ∧
    (run.set.TransfersById id ↔ run.set.FoundById id) ∧
    ∀ scheduled handled last, (∀ now ∈ scheduled, ∀ data ∈ now, data.completionTime = defaultTime) →
      IrobPrioritySet.followUps id run.set scheduled = some (handled, last) →
      (∀ task ∈ handled, task.id = id) ∧
      ((∀ task ∈ last.tasks, task.id ≠ id) ↔
        (∀ task ∈ run.set.tasks, task.id = id → task.ondemand = false) ∧
          ∀ now ∈ scheduled, ∀ data ∈ now, data.id = id → data.ondemand = false) := by
  have untimed := untimed_of_reachable reached
  refine ⟨untimed.removesById_iff, untimed.transfersById_iff, ?_⟩
  intro scheduled handled last times looped
  obtain ⟨own, ends⟩ := untimed.followUps_iff times looped
  refine ⟨own, ends.trans (and_congr_left fun _ => ?_)⟩
  unfold IrobPrioritySet.OndemandPending
  simp only [not_exists, not_and, Bool.not_eq_true]

/-- A task with the on-demand label is pending, and `remove` does not find it. -/
theorem ondemand_not_removed : ∃ run : SetRun, (machine.restrict Untimed).Reachable run ∧
    run.set.tasks = [.work 7 true labelOndemand] ∧ run.set.remove 7 = none ∧
    ¬run.set.RemovesById 7 := by
  obtain ⟨run, ran, pending, missed⟩ : ∃ run : SetRun,
      (machine.restrict Untimed).run empty [.insert (.work 7 true labelOndemand)] = some run ∧
      run.set.tasks = [.work 7 true labelOndemand] ∧ run.set.remove 7 = none :=
    ⟨_, rfl, rfl, rfl⟩
  refine ⟨run, .run (.initial rfl) ran, pending, missed, fun removes => ?_⟩
  have found := removes.1.mpr ⟨_, by rw [pending]; exact List.mem_cons_self, rfl⟩
  rw [missed] at found
  cases found

/-- Chunks of two IROBs, of which one has an on-demand task as well. -/
def twoClasses : List SetCall :=
  [.insertRange [.work 7 true labelOndemand, .work 7 true 0, .work 5 true 0]]

theorem remove_by_id_iff_two_classes : ∃ run : SetRun,
    (machine.restrict Untimed).Reachable run ∧ run.set.RemovesById 7 ∧ run.set.TransfersById 5 ∧
    ∃ handled last, IrobPrioritySet.followUps 7 run.set [[]] = some (handled, last) ∧
      ¬∀ task ∈ last.tasks, task.id ≠ 7 := by
  obtain ⟨run, ran, pending, handled, last, looped⟩ : ∃ run : SetRun,
      (machine.restrict Untimed).run empty twoClasses = some run ∧
      run.set.tasks = [.work 7 true labelOndemand, .work 5 true 0, .work 7 true 0] ∧
      ∃ handled last, IrobPrioritySet.followUps 7 run.set [[]] = some (handled, last) :=
    ⟨_, rfl, rfl, _, _, rfl⟩
  have reached := Machine.Reachable.run (.initial rfl) ran
  obtain ⟨removes, -, loops⟩ := remove_by_id_iff reached 7
  obtain ⟨-, transfers, -⟩ := remove_by_id_iff reached 5
  obtain ⟨-, ends⟩ := loops [[]] handled last (by decide) looped
  refine ⟨run, reached, removes.mpr fun _ => ⟨.work 7 true 0, ?_, rfl, rfl⟩,
    transfers.mpr fun _ => ⟨.work 5 true 0, ?_, rfl, rfl⟩, handled, last, looped, fun left => ?_⟩
  · rw [pending]
    decide
  · rw [pending]
    decide
  · have plain := (ends.mp left).1 (.work 7 true labelOndemand) (by rw [pending]; decide) rfl
    cases plain

end SetRun

end Libcmm
