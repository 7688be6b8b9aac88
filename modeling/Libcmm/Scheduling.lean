import Libcmm.Control

/-! # Scheduling entries (`irob_scheduling.cpp`)

A pending piece of work names an IROB, and the sets of pending work are
`std::set`s ordered by `IROBSchedulingData::operator<`. The comparison puts
on-demand entries first and then accepts an earlier completion time or a smaller
identifier. Among entries with equal completion times it is a strict total order
on label class and identifier; across different completion times it is not, and
the position of an entry is then not determined by the comparison. The set is
kept as its iteration order.
-/

namespace Libcmm

/-- `struct IROBSchedulingData`. -/
structure IrobSchedulingData where
  id : IrobId
  chunksReady : Bool
  resendRequest : ResendRequestType
  completionTime : Timeval
  dataCheck : Bool
  sendLabels : Nat
  deriving DecidableEq

namespace IrobSchedulingData

/-- The constructor for new, changed, finished or ready IROBs. -/
def work (id : IrobId) (chunksReady : Bool) (sendLabels : Nat) : IrobSchedulingData :=
  ⟨id, chunksReady, .none, ⟨-1, 0⟩, false, sendLabels⟩

/-- The constructor for resend requests. -/
def request (id : IrobId) (resendRequest : ResendRequestType) (sendLabels : Nat) : IrobSchedulingData :=
  ⟨id, false, resendRequest, ⟨-1, 0⟩, false, sendLabels⟩

/-- The constructor for acknowledgments. -/
def ack (id : IrobId) (completionTime : Timeval) (sendLabels : Nat) : IrobSchedulingData :=
  ⟨id, false, .none, completionTime, false, sendLabels⟩

/-- `IROBSchedulingData::operator<`. -/
def before (first second : IrobSchedulingData) : Bool :=
  match hasLabel first.sendLabels labelOndemand, hasLabel second.sendLabels labelOndemand with
  | true, false => true
  | false, true => false
  | _, _ => first.completionTime.before second.completionTime || decide (first.id < second.id)

/-- Entries the comparison orders neither way name the same IROB. -/
theorem id_eq_of_equivalent {first second : IrobSchedulingData}
    (notBefore : first.before second = false) (notAfter : second.before first = false) :
    first.id = second.id := by
  unfold before at notBefore notAfter
  revert notBefore notAfter
  cases hasLabel first.sendLabels labelOndemand <;>
    cases hasLabel second.sendLabels labelOndemand <;>
    simp only [Bool.or_eq_false_iff, decide_eq_false_iff_not, not_lt, reduceCtorEq,
      false_implies, implies_true, and_imp] <;>
    exact fun _ above _ below => le_antisymm below above

end IrobSchedulingData

/-- `class IROBPrioritySet`: its entries in iteration order. -/
structure IrobPrioritySet where
  tasks : List IrobSchedulingData
  deriving DecidableEq

namespace IrobPrioritySet

/-- `std::set::insert` as a search from the front. -/
def place (data : IrobSchedulingData) : List IrobSchedulingData → List IrobSchedulingData
  | [] => [data]
  | task :: rest =>
      if data.before task then data :: task :: rest
      else if task.before data then task :: place data rest
      else task :: rest

/-- A set without entries. -/
def empty : IrobPrioritySet := ⟨[]⟩

/-- `IROBPrioritySet::insert`. -/
def insert (set : IrobPrioritySet) (data : IrobSchedulingData) : IrobPrioritySet :=
  ⟨place data set.tasks⟩

/-- `IROBPrioritySet::insert_range`. -/
def insertRange (set : IrobPrioritySet) (range : List IrobSchedulingData) : IrobPrioritySet :=
  range.foldl insert set

/-- `IROBPrioritySet::pop`. -/
def pop (set : IrobPrioritySet) : Option (IrobSchedulingData × IrobPrioritySet) :=
  match set.tasks with
  | [] => none
  | task :: rest => some (task, ⟨rest⟩)

/-- `IROBPrioritySet::remove`: look up the entry equivalent to one with the same
identifier and no labels. -/
def remove (set : IrobPrioritySet) (id : IrobId) : Option (IrobSchedulingData × IrobPrioritySet) :=
  let dummy := IrobSchedulingData.work id false 0
  let same := fun task : IrobSchedulingData => !task.before dummy && !dummy.before task
  (set.tasks.find? same).map fun task => (task, ⟨set.tasks.eraseP same⟩)

/-- Every entry after an insertion was there before or is the new one. -/
theorem mem_place {data query : IrobSchedulingData} {tasks : List IrobSchedulingData}
    (member : query ∈ place data tasks) : query = data ∨ query ∈ tasks := by
  induction tasks with
  | nil => exact .inl (List.mem_singleton.mp member)
  | cons task rest ih =>
      unfold place at member
      split_ifs at member
      · exact List.mem_cons.mp member
      · rcases List.mem_cons.mp member with rfl | later
        · exact .inr List.mem_cons_self
        · exact (ih later).imp_right (List.mem_cons_of_mem _)
      · exact .inr member

/-- No entry is lost by an insertion. -/
theorem mem_place_of_mem {data query : IrobSchedulingData} {tasks : List IrobSchedulingData}
    (member : query ∈ tasks) : query ∈ place data tasks := by
  induction tasks with
  | nil => cases member
  | cons task rest ih =>
      unfold place
      split_ifs
      · exact List.mem_cons_of_mem _ member
      · rcases List.mem_cons.mp member with rfl | later
        · exact List.mem_cons_self
        · exact List.mem_cons_of_mem _ (ih later)
      · exact member

/-- After an insertion some entry names the IROB, the new one or an equivalent. -/
theorem exists_mem_place (data : IrobSchedulingData) (tasks : List IrobSchedulingData) :
    ∃ task ∈ place data tasks, task.id = data.id := by
  induction tasks with
  | nil => exact ⟨data, List.mem_singleton_self _, rfl⟩
  | cons task rest ih =>
      unfold place
      split_ifs with before after
      · exact ⟨data, List.mem_cons_self, rfl⟩
      · obtain ⟨found, member, named⟩ := ih
        exact ⟨found, List.mem_cons_of_mem _ member, named⟩
      · rw [Bool.not_eq_true] at before after
        exact ⟨task, List.mem_cons_self,
          IrobSchedulingData.id_eq_of_equivalent after before⟩

/-- The entry of an IROB not yet named is inserted and nothing else changes. -/
theorem place_perm {data : IrobSchedulingData} {tasks : List IrobSchedulingData}
    (fresh : ∀ task ∈ tasks, task.id ≠ data.id) : (place data tasks).Perm (data :: tasks) := by
  induction tasks with
  | nil => exact .refl _
  | cons task rest ih =>
      unfold place
      split_ifs with before after
      · exact .refl _
      · exact ((ih fun other member => fresh other (List.mem_cons_of_mem _ member)).cons
          task).trans (.swap data task rest)
      · rw [Bool.not_eq_true] at before after
        exact (fresh task List.mem_cons_self
          (IrobSchedulingData.id_eq_of_equivalent after before)).elim

theorem mem_insert_of_mem {set : IrobPrioritySet} {data query : IrobSchedulingData}
    (member : query ∈ set.tasks) : query ∈ (set.insert data).tasks :=
  mem_place_of_mem member

/-- Inserting a range keeps what was there and names every IROB of the range. -/
theorem exists_mem_insertRange {set : IrobPrioritySet} {range : List IrobSchedulingData}
    {query : IrobSchedulingData} (member : query ∈ set.tasks ∨ query ∈ range) :
    ∃ task ∈ (set.insertRange range).tasks, task.id = query.id := by
  induction range generalizing set query with
  | nil =>
      have own := member.resolve_right List.not_mem_nil
      exact ⟨query, own, rfl⟩
  | cons first rest ih =>
      rcases member with own | listed
      · exact ih (.inl (mem_insert_of_mem own))
      · rcases List.mem_cons.mp listed with rfl | later
        · obtain ⟨task, inserted, named⟩ := exists_mem_place query set.tasks
          obtain ⟨last, kept, same⟩ := @ih (set.insert query) task (.inl inserted)
          exact ⟨last, kept, same.trans named⟩
        · exact ih (.inr later)

end IrobPrioritySet

/-- `IROBSchedulingIndexes::type`. -/
inductive IndexType where
  | newIrobs
  | newChunks
  | finishedIrobs
  | waitingAcks
  | resendRequests
  | waitingDataChecks
  deriving DecidableEq

/-- `struct IROBSchedulingIndexes`. -/
structure IrobSchedulingIndexes where
  newIrobs : IrobPrioritySet
  newChunks : IrobPrioritySet
  finishedIrobs : IrobPrioritySet
  waitingAcks : IrobPrioritySet
  resendRequests : IrobPrioritySet
  waitingDataChecks : IrobPrioritySet

namespace IrobSchedulingIndexes

/-- `IROBSchedulingIndexes::IROBSchedulingIndexes`. -/
def empty : IrobSchedulingIndexes := ⟨.empty, .empty, .empty, .empty, .empty, .empty⟩

/-- `IROBSchedulingIndexes::add`. -/
def add (indexes other : IrobSchedulingIndexes) : IrobSchedulingIndexes where
  newIrobs := indexes.newIrobs.insertRange other.newIrobs.tasks
  newChunks := indexes.newChunks.insertRange other.newChunks.tasks
  finishedIrobs := indexes.finishedIrobs.insertRange other.finishedIrobs.tasks
  waitingAcks := indexes.waitingAcks.insertRange other.waitingAcks.tasks
  resendRequests := indexes.resendRequests.insertRange other.resendRequests.tasks
  waitingDataChecks := indexes.waitingDataChecks.insertRange other.waitingDataChecks.tasks

/-- `IROBSchedulingIndexes::insert`. -/
def insert (indexes : IrobSchedulingIndexes) (data : IrobSchedulingData) :
    IndexType → IrobSchedulingIndexes
  | .newIrobs => { indexes with newIrobs := indexes.newIrobs.insert data }
  | .newChunks => { indexes with newChunks := indexes.newChunks.insert data }
  | .finishedIrobs => { indexes with finishedIrobs := indexes.finishedIrobs.insert data }
  | .waitingAcks => { indexes with waitingAcks := indexes.waitingAcks.insert data }
  | .resendRequests => { indexes with resendRequests := indexes.resendRequests.insert data }
  | .waitingDataChecks => { indexes with waitingDataChecks := indexes.waitingDataChecks.insert data }

/-- Scheduling work loses no acknowledgment. -/
theorem mem_insert_of_mem {indexes : IrobSchedulingIndexes} {data query : IrobSchedulingData}
    {type : IndexType} (member : query ∈ indexes.waitingAcks.tasks) :
    query ∈ (indexes.insert data type).waitingAcks.tasks := by
  cases type with
  | waitingAcks => exact IrobPrioritySet.mem_insert_of_mem member
  | _ => exact member

end IrobSchedulingIndexes

end Libcmm
