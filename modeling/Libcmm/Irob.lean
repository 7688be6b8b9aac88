import Libcmm.Control

/-! # Pending IROBs (`PendingIROB`)

The members every pending IROB has, at the sender and at the receiver. The
derived classes add members of their own (`own`) and override `add_chunk` and
`subsume`; `IrobClass` holds the overrides, so that the lattice can call them
without knowing which side it is on. A failed `ASSERT` traps (`none`).
-/

namespace Libcmm

open Lib

/-- `class PendingIROB`, with the members `own` of a derived class. -/
structure PendingIrob (α : Type) where
  id : IrobId
  sendLabels : Nat
  deps : IrobIdSet
  dependents : IrobIdSet
  chunks : List IrobChunk
  anonymous : Bool
  complete : Bool
  placeholder : Bool
  status : Int
  own : α

namespace PendingIrob

variable {α : Type}

/-- `PendingIROB::PendingIROB(id)`. The constructor leaves the labels unset. -/
def mkPlaceholder (id : IrobId) (own : α) : PendingIrob α where
  id := id
  sendLabels := 0
  deps := ∅
  dependents := ∅
  chunks := []
  anonymous := false
  complete := false
  placeholder := true
  status := 0
  own := own

/-- `PendingIROB::PendingIROB(id, numdeps, deps_array, datalen, data, send_labels)`.
Data given at construction makes the IROB anonymous and complete. -/
def mkReal (id : IrobId) (depsArray : List IrobId) (data : List Byte) (sendLabels : Nat)
    (own : α) : PendingIrob α where
  id := id
  sendLabels := sendLabels
  deps := OrderedSet.ofList depsArray
  dependents := ∅
  chunks := if data.isEmpty then [] else [⟨id, 0, 0, data.length, some data⟩]
  anonymous := !data.isEmpty
  complete := !data.isEmpty
  placeholder := false
  status := 0
  own := own

/-- `PendingIROB::finish`; the result says whether the IROB was still open. -/
def finish (irob : PendingIrob α) : PendingIrob α × Bool :=
  if irob.complete then (irob, false) else ({ irob with complete := true }, true)

/-- `PendingIROB::add_dep`. -/
def addDep (irob : PendingIrob α) (id : IrobId) : PendingIrob α :=
  { irob with deps := irob.deps.insert id }

/-- `PendingIROB::dep_satisfied`. -/
def depSatisfied (irob : PendingIrob α) (id : IrobId) : PendingIrob α :=
  { irob with deps := irob.deps.erase id }

/-- `PendingIROB::add_dependent`. -/
def addDependent (irob : PendingIrob α) (id : IrobId) : PendingIrob α :=
  { irob with dependents := irob.dependents.insert id }

/-- `PendingIROB::remove_deps_if`. -/
def removeDepsIf (irob : PendingIrob α) (test : IrobId → Bool) : PendingIrob α :=
  { irob with deps := irob.deps.filter fun id => !test id }

/-- `PendingIROB::subsume`, given the `add_chunk` of the derived class. -/
def subsume (addChunk : PendingIrob α → IrobChunk → Option (PendingIrob α × Bool))
    (irob other : PendingIrob α) : Option (PendingIrob α) := do
  let merged := { irob with dependents := irob.dependents.insertAll other.dependents.toList }
  let filled ← other.chunks.foldlM (fun sofar chunk => (addChunk sofar chunk).map Prod.fst) merged
  some { filled with complete := other.complete }

/-- The members that only the dependency lattice reads and writes agree. -/
structure SameLinks (first second : PendingIrob α) : Prop where
  id : first.id = second.id
  sendLabels : first.sendLabels = second.sendLabels
  deps : first.deps = second.deps
  dependents : first.dependents = second.dependents
  anonymous : first.anonymous = second.anonymous
  placeholder : first.placeholder = second.placeholder

theorem SameLinks.refl (irob : PendingIrob α) : SameLinks irob irob := ⟨rfl, rfl, rfl, rfl, rfl, rfl⟩

theorem SameLinks.trans {first second third : PendingIrob α} (left : SameLinks first second)
    (right : SameLinks second third) : SameLinks first third :=
  ⟨left.id.trans right.id, left.sendLabels.trans right.sendLabels, left.deps.trans right.deps,
    left.dependents.trans right.dependents, left.anonymous.trans right.anonymous,
    left.placeholder.trans right.placeholder⟩

theorem SameLinks.symm {first second : PendingIrob α} (same : SameLinks first second) :
    SameLinks second first :=
  ⟨same.id.symm, same.sendLabels.symm, same.deps.symm, same.dependents.symm, same.anonymous.symm,
    same.placeholder.symm⟩

/-- An `add_chunk` that leaves the links alone makes `subsume` touch only the
dependents, which become those of both IROBs. -/
theorem subsume_links {addChunk : PendingIrob α → IrobChunk → Option (PendingIrob α × Bool)}
    (keeps : ∀ irob chunk result, addChunk irob chunk = some result → SameLinks result.1 irob)
    {irob other result : PendingIrob α} (merged : subsume addChunk irob other = some result) :
    SameLinks result
      { irob with dependents := irob.dependents.insertAll other.dependents.toList } := by
  obtain ⟨filled, folded, stored⟩ := Option.bind_eq_some_iff.mp merged
  cases stored
  suffices fold : ∀ (chunks : List IrobChunk) (start filled : PendingIrob α),
      chunks.foldlM (fun sofar chunk => (addChunk sofar chunk).map Prod.fst) start = some filled →
        SameLinks filled start by
    have links := fold _ _ _ folded
    exact ⟨links.id, links.sendLabels, links.deps, links.dependents, links.anonymous,
      links.placeholder⟩
  intro chunks
  induction chunks with
  | nil =>
      intro start filled folded
      cases folded
      exact .refl _
  | cons chunk rest ih =>
      intro start filled folded
      obtain ⟨next, added, onward⟩ := Option.bind_eq_some_iff.mp folded
      obtain ⟨result, actual, rfl⟩ := Option.map_eq_some_iff.mp added
      exact (ih _ _ onward).trans (keeps _ _ _ actual)

end PendingIrob

/-- What a derived class of `PendingIROB` overrides, and what its `subsume` keeps
of the links that the lattice maintains. -/
class IrobClass (α : Type) where
  placeholderOwn : α
  subsume : PendingIrob α → PendingIrob α → Option (PendingIrob α)
  subsume_links : ∀ {irob other result : PendingIrob α}, subsume irob other = some result →
    PendingIrob.SameLinks result
      { irob with dependents := irob.dependents.insertAll other.dependents.toList }

/-- `make_placeholder`. -/
def makePlaceholder {α : Type} [IrobClass α] (id : IrobId) : PendingIrob α :=
  .mkPlaceholder id IrobClass.placeholderOwn

end Libcmm
