import Mathlib.Logic.Relation
import Libcmm.Lattice
import Libcmm.SenderIrob
import Libcmm.Lib.Transition

/-! # Dependency inference at the sender

`correct_deps` gives an anonymous IROB edges to the dominators only: the last
anonymous IROB, or the elements of `min_dominator_set`. `Dominated` is the reason
this is enough. Every IROB ever inserted is one of these or below one of these, and
each element of the set is above the last anonymous IROB. Erasing an acknowledged
IROB changes neither.
-/

namespace Libcmm

open Lib

variable {α : Type}

/-- One IROB depends on another through the dependency sets recorded for all
inserted IROBs. -/
def Depends (inserted : List (PendingIrob α)) : IrobId → IrobId → Prop :=
  Relation.TransGen fun first second => ∃ irob ∈ inserted, irob.id = first ∧ second ∈ irob.deps

namespace Depends

variable {inserted more : List (PendingIrob α)} {first second : IrobId}

theorem mono (depends : Depends inserted first second)
    (subset : ∀ irob ∈ inserted, irob ∈ more) : Depends more first second := by
  have edges : ∀ above below, (∃ irob ∈ inserted, irob.id = above ∧ below ∈ irob.deps) →
      ∃ irob ∈ more, irob.id = above ∧ below ∈ irob.deps := by
    rintro above below ⟨irob, member, named, listed⟩
    exact ⟨irob, subset irob member, named, listed⟩
  exact Relation.TransGen.mono edges first second depends

theorem of_mem {irob : PendingIrob α} (member : irob ∈ inserted) (listed : second ∈ irob.deps) :
    Depends inserted irob.id second :=
  .single ⟨irob, member, rfl, listed⟩

/-- A further IROB takes no dependency away. -/
theorem cons (irob : PendingIrob α) (depends : Depends inserted first second) :
    Depends (irob :: inserted) first second :=
  depends.mono fun _ member => List.mem_cons_of_mem _ member

theorem head {irob : PendingIrob α} (listed : second ∈ irob.deps) :
    Depends (irob :: inserted) irob.id second :=
  of_mem List.mem_cons_self listed

/-- Only inserted IROBs have dependencies. -/
theorem exists_mem (depends : Depends inserted first second) :
    ∃ irob ∈ inserted, irob.id = first := by
  obtain ⟨middle, ⟨irob, member, named, -⟩, -⟩ := Relation.TransGen.head'_iff.mp depends
  exact ⟨irob, member, named⟩

end Depends

namespace IrobLattice

variable {lattice : IrobLattice α} {irob : PendingIrob α}

/-! ### What `correct_deps` infers -/

/-- Erasing elements one after another removes them all. -/
theorem mem_foldl_erase {set : IrobIdSet} {elements : List IrobId} {query : IrobId} :
    query ∈ elements.foldl OrderedSet.erase set ↔ query ∈ set ∧ query ∉ elements := by
  induction elements generalizing set with
  | nil => simp only [List.foldl_nil, List.not_mem_nil, not_false_eq_true, and_true]
  | cons element rest ih =>
      rw [List.foldl_cons, ih, OrderedSet.mem_erase, List.mem_cons, not_or]
      tauto

theorem correctDeps_subset {dep : IrobId} (listed : dep ∈ irob.deps) :
    dep ∈ (lattice.correctDeps irob true).2.deps := by
  unfold correctDeps PendingIrob.addDep
  simp only [Bool.not_true, Bool.false_eq_true, ↓reduceIte]
  split_ifs <;> simp only [OrderedSet.mem_insert, OrderedSet.mem_insertAll, listed, or_true]

/-- What holds of the identifiers an IROB comes with and of the dominators holds of
the identifiers it ends up with. -/
theorem correctDeps_forall {property : IrobId → Prop} (itself : property irob.id)
    (deps : ∀ dep ∈ irob.deps, property dep)
    (last : (0 : Int) ≤ lattice.lastAnonIrobId → property lattice.lastAnonIrobId)
    (dominators : ∀ dominator ∈ lattice.minDominatorSet, property dominator) :
    (∀ dep ∈ (lattice.correctDeps irob true).2.deps, property dep) ∧
    ((0 : Int) ≤ (lattice.correctDeps irob true).1.lastAnonIrobId →
      property (lattice.correctDeps irob true).1.lastAnonIrobId) ∧
    ∀ dominator ∈ (lattice.correctDeps irob true).1.minDominatorSet, property dominator := by
  have added : ∀ (id : IrobId), property id → ∀ dep ∈ (irob.addDep id).deps, property dep := by
    intro id holds dep member
    rcases OrderedSet.mem_insert.mp member with rfl | own
    · exact holds
    · exact deps dep own
  unfold correctDeps
  simp only [Bool.not_true, Bool.false_eq_true, ↓reduceIte]
  by_cases anonymous : irob.anonymous = true
  · rw [if_pos anonymous]
    split_ifs with alone
    · exact ⟨added _ (last alone.1), fun _ => itself, dominators⟩
    · refine ⟨fun dep member => ?_, fun _ => itself, fun _ none =>
        (OrderedSet.not_mem_empty _ none).elim⟩
      rcases OrderedSet.mem_insertAll.mp member with inherited | own
      · exact dominators dep (OrderedSet.mem_toList.mp inherited)
      · exact deps dep own
  · rw [if_neg anonymous]
    refine ⟨?_, last, fun dominator member => ?_⟩
    · split_ifs with apart
      · exact added _ (last apart.1)
      · exact deps
    · rcases OrderedSet.mem_insert.mp member with rfl | kept
      · exact itself
      · exact dominators dominator (mem_foldl_erase.mp kept).1

/-- An anonymous IROB depends on every dominator, becomes the last anonymous IROB
and leaves no other dominators. -/
theorem correctDeps_anonymous (lattice : IrobLattice α) (anonymous : irob.anonymous = true) :
    (lattice.correctDeps irob true).1.lastAnonIrobId = irob.id ∧
    (∀ query, query ∉ (lattice.correctDeps irob true).1.minDominatorSet) ∧
    (∀ dominator ∈ lattice.minDominatorSet,
      dominator ∈ (lattice.correctDeps irob true).2.deps) ∧
    ((0 : Int) ≤ lattice.lastAnonIrobId → (∀ query, query ∉ lattice.minDominatorSet) →
      lattice.lastAnonIrobId ∈ (lattice.correctDeps irob true).2.deps) := by
  unfold correctDeps PendingIrob.addDep
  simp only [Bool.not_true, Bool.false_eq_true, ↓reduceIte, anonymous]
  split_ifs with alone
  · have none := OrderedSet.isEmpty_iff.mp alone.2
    refine ⟨rfl, none, fun dominator member => (none dominator member).elim, fun _ _ => ?_⟩
    simp only [OrderedSet.mem_insert, true_or]
  · refine ⟨rfl, OrderedSet.not_mem_empty, fun dominator member => ?_, fun some' none => ?_⟩
    · simp only [OrderedSet.mem_insertAll, OrderedSet.mem_toList, member, true_or]
    · exact (alone ⟨some', OrderedSet.isEmpty_iff.mpr none⟩).elim

/-- A named IROB replaces the dominators it depends on. It depends on the last
anonymous IROB or on one of the dominators. -/
theorem correctDeps_named (lattice : IrobLattice α) (named : irob.anonymous = false) :
    (lattice.correctDeps irob true).1.lastAnonIrobId = lattice.lastAnonIrobId ∧
    (∀ query, query ∈ (lattice.correctDeps irob true).1.minDominatorSet ↔
      query = irob.id ∨ (query ∈ lattice.minDominatorSet ∧ query ∉ irob.deps)) ∧
    ((0 : Int) ≤ lattice.lastAnonIrobId →
      lattice.lastAnonIrobId ∈ (lattice.correctDeps irob true).2.deps ∨
        ∃ dominator ∈ lattice.minDominatorSet, dominator ∈ irob.deps) := by
  unfold correctDeps PendingIrob.addDep
  simp only [Bool.not_true, Bool.false_eq_true, ↓reduceIte, named]
  refine ⟨trivial, fun query => ?_, fun some' => ?_⟩
  · rw [OrderedSet.mem_insert, mem_foldl_erase, OrderedSet.mem_toList, OrderedSet.mem_inter]
    tauto
  · split_ifs with apart
    · simp only [OrderedSet.mem_insert, true_or]
    · have common : ¬∀ query, query ∉ irob.deps.inter lattice.minDominatorSet :=
        fun none => apart ⟨some', OrderedSet.isEmpty_iff.mpr none⟩
      obtain ⟨dominator, member⟩ := not_forall_not.mp common
      obtain ⟨listed, dominates⟩ := OrderedSet.mem_inter.mp member
      exact .inr ⟨dominator, dominates, listed⟩

/-- Erasing at the sender keeps the dominators. -/
theorem erase_sender (lattice : IrobLattice α) (id : IrobId) :
    (lattice.erase id false).1.lastAnonIrobId = lattice.lastAnonIrobId ∧
      (lattice.erase id false).1.minDominatorSet = lattice.minDominatorSet := by
  unfold IrobLattice.erase
  cases lattice.find id <;> exact ⟨rfl, rfl⟩

end IrobLattice

/-! ### The dominators -/

/-- The last anonymous IROB and the elements of `min_dominator_set`. -/
def IrobLattice.Dominator (lattice : IrobLattice α) (id : IrobId) : Prop :=
  id = lattice.lastAnonIrobId ∨ id ∈ lattice.minDominatorSet

/-- Every inserted IROB is a dominator or below one, the anonymous ones are below the
last of them, and so are they below every other dominator. -/
structure Dominated (lattice : IrobLattice α) (inserted : List (PendingIrob α)) : Prop where
  nonneg : ∀ irob ∈ inserted, (0 : Int) ≤ irob.id
  cover : ∀ irob ∈ inserted, ∃ top, lattice.Dominator top ∧
    (irob.id = top ∨ Depends inserted top irob.id)
  anonymous : ∀ irob ∈ inserted, irob.anonymous = true →
    irob.id = lattice.lastAnonIrobId ∨ Depends inserted lattice.lastAnonIrobId irob.id
  above : (0 : Int) ≤ lattice.lastAnonIrobId → ∀ dominator ∈ lattice.minDominatorSet,
    Depends inserted dominator lattice.lastAnonIrobId

/-- What the inference promises about one inserted IROB and those before it. -/
def Inferred (inserted : List (PendingIrob α)) (irob : PendingIrob α)
    (older : List (PendingIrob α)) : Prop :=
  ∀ other ∈ older, irob.anonymous = true ∨ other.anonymous = true →
    Depends inserted irob.id other.id

namespace Dominated

variable {lattice after : IrobLattice α} {inserted : List (PendingIrob α)} {irob : PendingIrob α}

/-- The fields the invariant reads are those `erase_locked` leaves alone at the
sender. -/
theorem congr (dominated : Dominated lattice inserted)
    (last : after.lastAnonIrobId = lattice.lastAnonIrobId)
    (dominators : after.minDominatorSet = lattice.minDominatorSet) :
    Dominated after inserted := by
  refine ⟨dominated.nonneg, ?_, ?_, ?_⟩
  · unfold IrobLattice.Dominator
    rw [last, dominators]
    exact dominated.cover
  · rw [last]
    exact dominated.anonymous
  · rw [last, dominators]
    exact dominated.above

/-- There is no anonymous IROB below a negative identifier. -/
theorem last_nonneg (dominated : Dominated lattice inserted) {query : IrobId}
    (below : query = lattice.lastAnonIrobId ∨ Depends inserted lattice.lastAnonIrobId query)
    (member : ∃ irob ∈ inserted, irob.id = query) : (0 : Int) ≤ lattice.lastAnonIrobId := by
  rcases below with same | depends
  · obtain ⟨irob, listed, named⟩ := member
    rw [← same, ← named]
    exact dominated.nonneg irob listed
  · obtain ⟨irob, listed, named⟩ := depends.exists_mem
    rw [← named]
    exact dominated.nonneg irob listed

/-- An anonymous IROB that depends on the dominators depends on everything, and is
the only dominator left. -/
theorem insert_anonymous (dominated : Dominated lattice inserted) (nonneg : (0 : Int) ≤ irob.id)
    (anonymous : irob.anonymous = true) (last : after.lastAnonIrobId = irob.id)
    (none : ∀ query, query ∉ after.minDominatorSet)
    (dominators : ∀ dominator ∈ lattice.minDominatorSet, dominator ∈ irob.deps)
    (alone : (0 : Int) ≤ lattice.lastAnonIrobId → (∀ query, query ∉ lattice.minDominatorSet) →
      lattice.lastAnonIrobId ∈ irob.deps) :
    Dominated after (irob :: inserted) ∧ Inferred (irob :: inserted) irob inserted := by
  -- a dominator that stands for an inserted IROB is a dependency
  have onTop : ∀ top, lattice.Dominator top → (∃ other ∈ inserted, other.id = top) →
      Depends (irob :: inserted) irob.id top := by
    rintro top (rfl | dominates) known
    · have some' := dominated.last_nonneg (.inl rfl) known
      by_cases empty : ∀ query, query ∉ lattice.minDominatorSet
      · exact .head (alone some' empty)
      · obtain ⟨dominator, member⟩ := not_forall_not.mp empty
        exact (Depends.head (dominators dominator member)).trans
          ((dominated.above some' dominator member).cons irob)
    · exact .head (dominators top dominates)
  have onAll : ∀ other ∈ inserted, Depends (irob :: inserted) irob.id other.id := by
    intro other member
    obtain ⟨top, dominates, same | depends⟩ := dominated.cover other member
    · rw [same]
      exact onTop top dominates ⟨other, member, same⟩
    · exact (onTop top dominates depends.exists_mem).trans (depends.cons irob)
  have below : ∀ other ∈ irob :: inserted, other.id = after.lastAnonIrobId ∨
      Depends (irob :: inserted) after.lastAnonIrobId other.id := by
    intro other member
    rw [last]
    rcases List.mem_cons.mp member with rfl | old
    · exact .inl rfl
    · exact .inr (onAll other old)
  refine ⟨⟨?_, fun other member => ⟨_, .inl rfl, below other member⟩,
    fun other member _ => below other member,
    fun _ dominator member => (none dominator member).elim⟩, fun other member _ => onAll other member⟩
  exact List.forall_mem_cons.mpr ⟨nonneg, dominated.nonneg⟩

/-- A named IROB that replaces the dominators it depends on keeps everything
dominated, and depends on all anonymous IROBs. -/
theorem insert_named (dominated : Dominated lattice inserted) (nonneg : (0 : Int) ≤ irob.id)
    (named : irob.anonymous = false) (last : after.lastAnonIrobId = lattice.lastAnonIrobId)
    {replaced : IrobId → Prop} (subset : ∀ query, replaced query → query ∈ irob.deps)
    (dominators : ∀ query, query ∈ after.minDominatorSet ↔
      query = irob.id ∨ (query ∈ lattice.minDominatorSet ∧ ¬replaced query))
    (linked : (0 : Int) ≤ lattice.lastAnonIrobId → lattice.lastAnonIrobId ∈ irob.deps ∨
      ∃ dominator ∈ lattice.minDominatorSet, dominator ∈ irob.deps) :
    Dominated after (irob :: inserted) ∧ Inferred (irob :: inserted) irob inserted := by
  have onLast : (0 : Int) ≤ lattice.lastAnonIrobId →
      Depends (irob :: inserted) irob.id lattice.lastAnonIrobId := by
    intro some'
    rcases linked some' with listed | ⟨dominator, member, listed⟩
    · exact .head listed
    · exact (Depends.head listed).trans ((dominated.above some' dominator member).cons irob)
  refine ⟨⟨?_, ?_, ?_, ?_⟩, ?_⟩
  · exact List.forall_mem_cons.mpr ⟨nonneg, dominated.nonneg⟩
  · intro other member
    rcases List.mem_cons.mp member with rfl | old
    · exact ⟨other.id, .inr ((dominators _).mpr (.inl rfl)), .inl rfl⟩
    · obtain ⟨top, dominates, below⟩ := dominated.cover other old
      have belowNow : other.id = top ∨ Depends (irob :: inserted) top other.id :=
        below.imp_right (.cons irob)
      rcases dominates with rfl | dominates
      · exact ⟨_, .inl last.symm, belowNow⟩
      · by_cases gone : replaced top
        · refine ⟨irob.id, .inr ((dominators _).mpr (.inl rfl)), .inr ?_⟩
          rcases belowNow with same | depends
          · rw [same]
            exact .head (subset top gone)
          · exact (Depends.head (subset top gone)).trans depends
        · exact ⟨top, .inr ((dominators _).mpr (.inr ⟨dominates, gone⟩)), belowNow⟩
  · intro other member anonymous
    rw [last]
    rcases List.mem_cons.mp member with rfl | old
    · cases named.symm.trans anonymous
    · exact (dominated.anonymous other old anonymous).imp_right (.cons irob)
  · intro some' dominator member
    rw [last] at some' ⊢
    rcases (dominators dominator).mp member with rfl | ⟨old, -⟩
    · exact onLast some'
    · exact (dominated.above some' dominator old).cons irob
  · intro other member anonymous
    have older := anonymous.resolve_left (by rw [named]; exact Bool.false_ne_true)
    have below := dominated.anonymous other member older
    have reaches := onLast (dominated.last_nonneg below ⟨other, member, rfl⟩)
    rcases below with same | depends
    · rw [same]
      exact reaches
    · exact reaches.trans (depends.cons irob)

variable [IrobClass α]

/-- Inserting an IROB with inference. -/
theorem insert (dominated : Dominated lattice inserted) (nonneg : (0 : Int) ≤ irob.id)
    (real : irob.placeholder = false) {kept : PendingIrob α}
    (inserting : lattice.insert irob true = some (after, some kept)) :
    Dominated after (kept :: inserted) ∧ Inferred (kept :: inserted) kept inserted := by
  rcases IrobLattice.insert_cases inserting with ⟨-, refused⟩ |
    ⟨placed, -, placing, ⟨holder, -⟩ | ⟨-, result, linking⟩⟩
  · cases refused
  · cases real.symm.trans holder
  obtain ⟨sameId, -, -, -, -, -⟩ := IrobLattice.place_links placing
  have rest := IrobLattice.place_rest placing
  have start : Dominated placed.1 inserted := dominated.congr rest.lastAnon rest.dominators
  have linked := IrobLattice.linkDeps_rest linking
  obtain ⟨deps, shape⟩ := IrobLattice.correctDeps_kept placed.1 placed.2 true
  have keptShape : kept = (placed.1.correctDeps placed.2 true).2 := Option.some.inj result
  have keptNonneg : (0 : Int) ≤ kept.id := by
    rw [keptShape, shape, sameId]
    exact nonneg
  have keptId : kept.id = placed.2.id := by rw [keptShape, shape]
  have keptKind : kept.anonymous = placed.2.anonymous := by rw [keptShape, shape]
  cases anonymous : placed.2.anonymous with
  | true =>
      obtain ⟨last, none, dominators, alone⟩ :=
        IrobLattice.correctDeps_anonymous placed.1 anonymous
      apply start.insert_anonymous keptNonneg (keptKind.trans anonymous)
      · exact linked.lastAnon.trans (last.trans keptId.symm)
      · rw [linked.dominators]
        exact none
      · rw [keptShape]
        exact dominators
      · rw [keptShape]
        exact alone
  | false =>
      obtain ⟨last, dominators, reaches⟩ :=
        IrobLattice.correctDeps_named placed.1 anonymous
      have subset : ∀ dep ∈ placed.2.deps, dep ∈ kept.deps := by
        rw [keptShape]
        exact fun _ listed => IrobLattice.correctDeps_subset listed
      apply start.insert_named keptNonneg (keptKind.trans anonymous) (linked.lastAnon.trans last)
        subset
      · rw [linked.dominators, keptId]
        exact dominators
      · intro some'
        rcases reaches some' with listed | ⟨dominator, member, listed⟩
        · exact .inl (keptShape ▸ listed)
        · exact .inr ⟨dominator, member, subset dominator listed⟩

end Dominated

/-! ### Runs of the outgoing lattice -/

/-- A lattice with the IROBs ever inserted into it, newest first and with the
dependencies `correct_deps` gave them. -/
structure InferenceRun (α : Type) where
  lattice : IrobLattice α
  inserted : List (PendingIrob α)

/-- An IROB is inserted, anonymous when it has data, or one is erased. -/
inductive InferenceEvent (α : Type) where
  | insert (id : IrobId) (deps : List IrobId) (data : List Byte) (sendLabels : Nat) (own : α)
  | erase (id : IrobId)

namespace InferenceRun

/-- Insertions with inference and erasures at the sender. A refused insertion inserts
nothing. Nothing is asked of the dependencies the application names. -/
def machine [IrobClass α] : Machine (InferenceRun α) (InferenceEvent α) where
  initial run := run = ⟨.empty, []⟩
  permitted _ event := match event with
    | .insert id _ _ _ _ => (0 : Int) ≤ id
    | .erase _ => True
  step run event := match event with
    | .insert id deps data sendLabels own =>
        (run.lattice.insert (.mkReal id deps data sendLabels own) true).map fun result =>
          ⟨result.1, result.2.toList ++ run.inserted⟩
    | .erase id => some { run with lattice := (run.lattice.erase id false).1 }

instance [IrobClass α] : ∀ (run : InferenceRun α) event, Decidable (machine.permitted run event)
  | _, .insert id _ _ _ _ => inferInstanceAs (Decidable ((0 : Int) ≤ id))
  | _, .erase _ => .isTrue trivial

/-- Everything is dominated, and every insertion inferred what it had to. -/
structure Sound (run : InferenceRun α) : Prop where
  dominated : Dominated run.lattice run.inserted
  inferred : ∀ newer irob older, run.inserted = newer ++ irob :: older →
    Inferred run.inserted irob older

theorem Sound.initial : Sound ⟨(.empty : IrobLattice α), []⟩ := by
  refine ⟨⟨?_, ?_, ?_, ?_⟩, fun newer irob older shape => ?_⟩
  · exact fun _ member => (List.not_mem_nil member).elim
  · exact fun _ member => (List.not_mem_nil member).elim
  · exact fun _ member => (List.not_mem_nil member).elim
  · exact fun _ dominator member => (OrderedSet.not_mem_empty dominator member).elim
  · cases newer <;> cases shape

/-- Inserting one more IROB keeps what was inferred before. -/
theorem Sound.insert {run : InferenceRun α} {after : IrobLattice α} {kept : PendingIrob α}
    (sound : run.Sound)
    (next : Dominated after (kept :: run.inserted) ∧
      Inferred (kept :: run.inserted) kept run.inserted) :
    Sound ⟨after, kept :: run.inserted⟩ := by
  refine ⟨next.1, fun newer irob older shape => ?_⟩
  cases newer with
  | nil =>
      cases shape
      exact next.2
  | cons first rest =>
      obtain ⟨-, before⟩ := List.cons.inj shape
      intro other member kinds
      exact (sound.inferred rest irob older before other member kinds).mono
        fun _ listed => List.mem_cons_of_mem _ listed

theorem sound_of_reachable [IrobClass α] {run : InferenceRun α} (reached : machine.Reachable run) :
    run.Sound := by
  apply reached.induct
  · rintro first rfl
    exact .initial
  · intro before after event _ sound permitted moved
    cases event with
    | insert id deps data sendLabels own =>
        obtain ⟨⟨lattice, kept⟩, inserting, rfl⟩ := Option.map_eq_some_iff.mp moved
        cases kept with
        | some kept =>
            have nonneg : (0 : Int) ≤ (PendingIrob.mkReal id deps data sendLabels own).id := permitted
            exact sound.insert (sound.dominated.insert nonneg rfl inserting)
        | none =>
            rcases IrobLattice.insert_cases inserting with ⟨-, same⟩ |
              ⟨placed, -, -, ⟨-, same⟩ | ⟨-, same, -⟩⟩
            · cases same
              exact sound
            · cases same
            · cases same
    | erase id =>
        cases moved
        refine ⟨sound.dominated.congr ?_ ?_, sound.inferred⟩
        · exact (IrobLattice.erase_sender before.lattice id).1
        · exact (IrobLattice.erase_sender before.lattice id).2

/-- Dependency inference at the sender: whatever was inserted and erased before, an
anonymous IROB depends on every IROB inserted before it, a named one on every
anonymous one inserted before it, and every inserted IROB is the last anonymous one,
in `min_dominator_set`, or a dependency of one of these. -/
theorem dependencies_inferred [IrobClass α] {run : InferenceRun α}
    (reached : machine.Reachable run) :
    (∀ newer irob older, run.inserted = newer ++ irob :: older →
      (irob.anonymous = true → ∀ other ∈ older, Depends run.inserted irob.id other.id) ∧
      (irob.anonymous = false → ∀ other ∈ older, other.anonymous = true →
        Depends run.inserted irob.id other.id)) ∧
    ∀ irob ∈ run.inserted, irob.id = run.lattice.lastAnonIrobId ∨
      irob.id ∈ run.lattice.minDominatorSet ∨
      ∃ top, (top = run.lattice.lastAnonIrobId ∨ top ∈ run.lattice.minDominatorSet) ∧
        Depends run.inserted top irob.id := by
  have sound := sound_of_reachable reached
  refine ⟨fun newer irob older shape => ?_, fun irob member => ?_⟩
  · have inferred := sound.inferred newer irob older shape
    exact ⟨fun anonymous other member => inferred other member (.inl anonymous),
      fun _ other member anonymous => inferred other member (.inr anonymous)⟩
  · obtain ⟨top, dominates, same | depends⟩ := sound.dominated.cover irob member
    · exact dominates.elim (fun last => .inl (same.trans last)) fun dominator =>
        .inr (.inl (same ▸ dominator))
    · exact .inr (.inr ⟨top, dominates, depends⟩)

/-- An anonymous IROB, two named ones of which the first is acknowledged, and a
second anonymous IROB. -/
def mixedEvents : List (InferenceEvent (Option SenderPart)) :=
  [.insert 0 [] [1] 0 (some (.initial 1)), .insert 1 [] [] 0 (some (.initial 0)),
    .insert 2 [0] [] 0 (some (.initial 0)), .erase 1, .insert 3 [] [2] 0 (some (.initial 1))]

theorem dependencies_inferred_mixed : ∃ run : InferenceRun (Option SenderPart),
    machine.Reachable run ∧ run.inserted.map (·.id) = [3, 2, 1, 0] ∧
      Depends run.inserted 3 0 := by
  have ran : ∃ (run : InferenceRun (Option SenderPart)) (irob : OutgoingIrob)
      (older : List OutgoingIrob), machine.run ⟨.empty, []⟩ mixedEvents = some run ∧
      run.inserted = [] ++ irob :: older ∧ irob.anonymous = true ∧
      irob.id = 3 ∧ older.map (·.id) = [2, 1, 0] := ⟨_, _, _, rfl, rfl, rfl, rfl, rfl⟩
  obtain ⟨run, irob, older, ran, shape, anonymous, named, others⟩ := ran
  have reached := Machine.Reachable.run (.initial rfl) ran
  have below := ((dependencies_inferred reached).1 [] irob older shape).1 anonymous
  obtain ⟨other, member, first⟩ := List.mem_map.mp
    (show (0 : IrobId) ∈ older.map (·.id) by rw [others]; decide)
  refine ⟨run, reached, ?_, ?_⟩
  · rw [shape, List.nil_append, List.map_cons, named, others]
  · rw [← named, ← first]
    exact below other member

end InferenceRun

end Libcmm
