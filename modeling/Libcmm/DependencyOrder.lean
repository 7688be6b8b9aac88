import Libcmm.ReceiverSteps

/-! # Dependency order at the receiver

Whatever messages arrive and in whatever order, the bytes of an IROB are handed
over only after everything its `Begin_IROB` depends on has been delivered and
erased. The dependency set of a pending IROB loses an identifier in two places
only, when the IROB is inserted and when the other IROB is erased, and in both
that identifier is in `past_irobs`.
-/

namespace Libcmm

open Lib

/-! ### What quiet changes keep -/

namespace Quiet

variable {before after : IrobLattice ReceiverPart}

theorem past_eq (quiet : Quiet before after) : after.pastIrobs = before.pastIrobs := by
  induction quiet with
  | refl => rfl
  | write id write _ _ ih => exact ih
  | hold _ _ inserted ih => exact (IrobLattice.insert_past inserted).trans ih

/-- A property of identifier, dependencies and kind that placeholders have is kept. -/
theorem every {property : ReceiverIrob → Prop} (quiet : Quiet before after)
    (links : ∀ first second : ReceiverIrob, first.id = second.id → first.deps = second.deps →
      first.placeholder = second.placeholder → property second → property first)
    (holders : ∀ irob : ReceiverIrob, irob.placeholder = true → property irob)
    (held : before.Every property) : after.Every property := by
  induction quiet with
  | refl => exact held
  | write id write _ same ih =>
      exact ih.update fun irob found own =>
        links _ _ (same irob found).links.id (same irob found).links.deps
          (same irob found).links.placeholder own
  | hold _ _ inserted ih =>
      refine ih.insert inserted (fun dep => holders _ rfl)
        (fun other own => links _ other rfl rfl rfl own) fun placed placing _ => ?_
      have holder : placed.2.placeholder = true := (IrobLattice.place_links placing).2.2.2.2.1
      refine ⟨holders _ holder, holders _ ?_⟩
      obtain ⟨deps, kept⟩ := IrobLattice.correctDeps_kept placed.1 placed.2 false
      rw [kept]
      exact holder

end Quiet

/-! ### The order invariant -/

/-- An IROB that is no placeholder was begun by an accepted `Begin_IROB`, and each
dependency named there is still in its set or past. -/
def Justified (past : IntSet) (history : List Observation) (irob : ReceiverIrob) : Prop :=
  irob.placeholder = true ∨ ∃ deps, .begun irob.id deps ∈ history ∧
    ∀ dep ∈ deps, dep ∈ irob.deps ∨ past.contains dep = true

/-- An IROB whose last byte was handed over. -/
def Finished (history : List Observation) (id : IrobId) : Prop :=
  ∃ delivery, .delivered delivery ∈ history ∧ delivery.id = id ∧ delivery.left = 0

/-- Whatever was past at a delivery in the history is past now. -/
def PastGrows (history : List Observation) (past : IntSet) : Prop :=
  ∀ delivery, .delivered delivery ∈ history → ∀ id, delivery.past.contains id = true →
    past.contains id = true

/-- A delivery comes after the accepted `Begin_IROB` of its IROB, whose
dependencies are all past, and after the end of every past IROB. -/
structure InOrder (delivery : Delivery) (older : List Observation) : Prop where
  begun : ∃ deps, .begun delivery.id deps ∈ older ∧
    ∀ dep ∈ deps, delivery.past.contains dep = true
  finished : ∀ id, delivery.past.contains id = true → Finished older id
  grows : PastGrows older delivery.past

/-- The invariant of dependency order, on a lattice and what was observed of it. -/
structure Ordered (irobs : IrobLattice ReceiverPart) (history : List Observation) : Prop where
  justified : irobs.Every (Justified irobs.pastIrobs history)
  finished : ∀ id, irobs.pastIrobs.contains id = true → Finished history id
  grows : PastGrows history irobs.pastIrobs
  inOrder : ∀ newer delivery older, history = newer ++ .delivered delivery :: older →
    InOrder delivery older

theorem Justified.mono {past later : IntSet} {history longer : List Observation}
    {irob : ReceiverIrob} (justified : Justified past history irob)
    (grows : ∀ id, past.contains id = true → later.contains id = true)
    (subset : ∀ seen ∈ history, seen ∈ longer) : Justified later longer irob := by
  rcases justified with holder | ⟨deps, begun, satisfied⟩
  · exact .inl holder
  · exact .inr ⟨deps, subset _ begun, fun dep member =>
      (satisfied dep member).imp_right (grows dep)⟩

theorem Justified.congr {past : IntSet} {history : List Observation} (first second : ReceiverIrob)
    (id : first.id = second.id) (deps : first.deps = second.deps)
    (placeholder : first.placeholder = second.placeholder)
    (justified : Justified past history second) : Justified past history first := by
  unfold Justified at *
  rw [id, deps, placeholder]
  exact justified

namespace Ordered

variable {irobs after : IrobLattice ReceiverPart} {history : List Observation}

theorem quiet (ordered : Ordered irobs history) (quiet : Quiet irobs after) :
    Ordered after history := by
  refine ⟨?_, ?_, ?_, ordered.inOrder⟩
  · rw [quiet.past_eq]
    exact quiet.every Justified.congr (fun _ holder => .inl holder) ordered.justified
  · rw [quiet.past_eq]
    exact ordered.finished
  · rw [quiet.past_eq]
    exact ordered.grows

/-- Observing something that is no delivery. -/
theorem observe (ordered : Ordered irobs history) (seen : List Observation)
    (silent : ∀ delivery, .delivered delivery ∉ seen) : Ordered irobs (seen ++ history) := by
  refine ⟨ordered.justified.mono fun irob justified => justified.mono (fun _ => id)
    fun _ member => List.mem_append_right _ member, fun id contained => ?_, ?_, ?_⟩
  · obtain ⟨delivery, member, named⟩ := ordered.finished id contained
    exact ⟨delivery, List.mem_append_right _ member, named⟩
  · intro delivery member
    rcases List.mem_append.mp member with new | old
    · exact (silent delivery new).elim
    · exact ordered.grows delivery old
  · intro newer delivery older shape
    rcases List.append_eq_append_iff.mp shape with ⟨rest, -, later⟩ | ⟨rest, parts, -⟩
    · exact ordered.inOrder rest delivery older later
    · cases rest with
      | nil => exact ordered.inOrder [] delivery older (by simp_all)
      | cons head others =>
          refine (silent delivery ?_).elim
          simp_all

/-- The IROB of an accepted `Begin_IROB` is inserted. -/
theorem begun {id : IrobId} {deps : List IrobId} {sendLabels : Nat} {kept : ReceiverIrob}
    (ordered : Ordered irobs history)
    (inserted : irobs.insert (ReceiverIrob.mkBegun id deps sendLabels) false =
      some (after, some kept)) : Ordered after (.begun id deps :: history) := by
  have longer := ordered.observe [.begun id deps] (by simp)
  have past := IrobLattice.insert_past inserted
  refine ⟨?_, ?_, ?_, longer.inOrder⟩
  · simp only at past
    rw [past]
    refine longer.justified.insert inserted (fun dep => .inl rfl)
      (fun other own => own.congr _ _ rfl rfl rfl) fun placed placing _ => ?_
    obtain ⟨named, -, sameDeps, -⟩ := IrobLattice.place_links placing
    have placedPast : placed.1.pastIrobs = irobs.pastIrobs := by
      rw [(IrobLattice.place_cases placing).1]
    have listed : Observation.begun placed.2.id deps ∈ [.begun id deps] ++ history := by
      rw [named]
      exact List.mem_cons_self
    constructor
    · refine .inr ⟨deps, listed, fun dep member => .inl ?_⟩
      rw [sameDeps]
      exact OrderedSet.mem_ofList.mpr member
    · refine .inr ⟨deps, listed, fun dep member => ?_⟩
      cases contained : irobs.pastIrobs.contains dep with
      | true => exact .inr rfl
      | false =>
          refine .inl (OrderedSet.mem_filter.mpr ⟨?_, ?_⟩)
          · rw [sameDeps]
            exact OrderedSet.mem_ofList.mpr member
          · rw [placedPast, contained]
            rfl
  · simp only at past
    rw [past]
    exact longer.finished
  · simp only at past
    rw [past]
    exact longer.grows

/-- A ready IROB is delivered from. -/
theorem delivered {id : IrobId} {irob : ReceiverIrob} {delivery : Delivery}
    (ordered : Ordered irobs history) (found : irobs.find id = some irob)
    (real : irob.placeholder = false) (satisfied : irob.deps.isEmpty = true)
    (named : delivery.id = irob.id) (past : delivery.past = irobs.pastIrobs) :
    Ordered irobs (.delivered delivery :: history) := by
  have subset : ∀ seen ∈ history, seen ∈ .delivered delivery :: history :=
    fun _ member => List.mem_cons_of_mem _ member
  refine ⟨ordered.justified.mono fun irob justified => justified.mono (fun _ kept => kept) subset,
    fun query contained => ?_, ?_, ?_⟩
  · obtain ⟨earlier, member, rest⟩ := ordered.finished query contained
    exact ⟨earlier, subset _ member, rest⟩
  · intro other member query contained
    rcases List.mem_cons.mp member with now | old
    · cases now
      rwa [past] at contained
    · exact ordered.grows other old query contained
  · intro newer other older shape
    cases newer with
    | cons head rest => exact ordered.inOrder rest other older (List.cons.inj shape).2
    | nil =>
        cases shape
        refine ⟨?_, fun query contained => ordered.finished query (past ▸ contained),
          past ▸ ordered.grows⟩
        rcases ordered.justified.find found with holder | ⟨deps, begun, each⟩
        · rw [real] at holder
          cases holder
        · refine ⟨deps, named ▸ begun, fun dep member => ?_⟩
          rw [past]
          exact (each dep member).resolve_left
            (OrderedSet.isEmpty_iff.mp satisfied dep)

/-- An IROB is erased after its last byte was handed over. -/
theorem erased {id : IrobId} (ordered : Ordered irobs history) (finished : Finished history id) :
    Ordered (irobs.erase id true).1 history := by
  have contains : ∀ query, (irobs.erase id true).1.pastIrobs.contains query = true →
      query = id ∨ irobs.pastIrobs.contains query = true := by
    intro query contained
    rw [IrobLattice.erase_past] at contained
    split_ifs at contained
    · simpa using contained
    · exact .inr contained
  have grows : ∀ query, irobs.pastIrobs.contains query = true →
      (irobs.erase id true).1.pastIrobs.contains query = true := by
    intro query contained
    rw [IrobLattice.erase_past]
    split_ifs
    · rw [IntSet.contains_insert, contained, Bool.or_true]
    · exact contained
  refine ⟨?_, fun query contained => ?_, fun other member query contained =>
    grows query (ordered.grows other member query contained), ordered.inOrder⟩
  · cases found : irobs.find id with
    | none =>
        rw [IrobLattice.erase_absent found]
        exact ordered.justified
    | some victim =>
        have now : (irobs.erase id true).1.pastIrobs.contains id = true := by
          rw [IrobLattice.erase_past, found]
          simp
        refine IrobLattice.Every.erase (ordered.justified.mono fun irob justified =>
          justified.mono grows fun _ member => member) (fun irob justified => ?_) true
        rcases justified with holder | ⟨deps, begun, each⟩
        · exact .inl holder
        · refine .inr ⟨deps, begun, fun dep member => ?_⟩
          by_cases same : dep = id
          · exact .inr (same ▸ now)
          · exact (each dep member).imp_left fun own => OrderedSet.mem_erase.mpr ⟨own, same⟩
  · rcases contains query contained with same | before
    · exact same ▸ finished
    · exact ordered.finished query before

/-- One turn of the loop of `recv`. -/
theorem passBytes {state next : ReceiverLattice} {id : IrobId} {irob : ReceiverIrob} {len : Nat}
    {flags : RecvFlags} {delivery : Delivery} {done : Bool} (noPeek : flags.peek = false)
    (ordered : Ordered state.irobs history) (found : state.irobs.find id = some irob)
    (passing : state.passBytes id irob len flags = some (next, delivery, done)) :
    Ordered next.irobs (Receiver.handed flags [delivery] ++ history) := by
  rw [Receiver.handed_singleton noPeek]
  obtain ⟨real, satisfied, named, past, changes⟩ :=
    ReceiverLattice.passBytes_cases found passing
  have reads := ordered.delivered found real satisfied named past
  rcases changes with quiet | ⟨stored, quiet, onward, none⟩
  · exact reads.quiet quiet
  · exact ((reads.quiet quiet).erased ⟨delivery, List.mem_cons_self, named, none⟩).quiet onward

/-- Any message. -/
theorem dispatch {state : ReceiverLattice} {message : Message} {handled : Handled}
    (ordered : Ordered state.irobs history) (inRange : message.id.InRange)
    (handling : state.dispatch message = some handled) :
    Ordered handled.after.irobs (Receiver.observed message handled ++ history) := by
  have silent : ∀ delivery, .delivered delivery ∉ Receiver.observed message handled := by
    intro delivery member
    rcases Receiver.mem_observed member with ⟨acked, -⟩ | ⟨_, _, _, -, -, begun⟩
    · cases acked
    · cases begun
  rcases ReceiverLattice.dispatch_cases inRange handling with
    ⟨id, deps, sendLabels, irobs, kept, rfl, taken, inserted, quiet⟩ | ⟨quiet, -⟩
  · unfold Receiver.observed
    rw [taken, List.append_assoc]
    refine ((ordered.begun inserted).quiet quiet).observe _ ?_
    intro delivery member
    split_ifs at member <;> simp at member
  · exact (ordered.quiet quiet).observe _ silent

end Ordered

/-! ### One `Begin_IROB` for each IROB

While the identifiers in dependency arrays are in range, the lattice is well
formed and knows every IROB that was begun: it is past, or pending and real. So a
second `Begin_IROB` is refused.
-/

/-- The IROB is past, or pending with its `Begin_IROB` here; a `whole` one with
everything else, too. -/
def Known (whole : Prop) (irobs : IrobLattice ReceiverPart) (id : IrobId) : Prop :=
  irobs.pastIrobs.contains id = true ∨
    ∃ irob, irobs.find id = some irob ∧ irob.placeholder = false ∧
      (whole → ReceiverIrob.isComplete irob = some true)

/-- A lattice that stays well formed and forgets nothing of an IROB. -/
structure Keeps (before after : IrobLattice ReceiverPart) : Prop where
  wf : after.WellFormed
  known : ∀ whole (id : IrobId), id.InRange → Known whole before id → Known whole after id

namespace Keeps

variable {before middle after : IrobLattice ReceiverPart} {id : IrobId}

theorem trans (left : Keeps before middle) (right : Keeps middle after) : Keeps before after :=
  ⟨right.wf, fun whole id inRange known =>
    right.known whole id inRange (left.known whole id inRange known)⟩

theorem write {write : ReceiverIrob → ReceiverIrob} (wf : before.WellFormed)
    (kept : ∀ irob, before.find id = some irob → ReceiverIrob.Kept (write irob) irob) :
    Keeps before (before.update id write) := by
  refine ⟨wf.update fun irob found => ⟨(kept irob found).links.id, ?_⟩,
    fun whole query inRange known => ?_⟩
  · rw [(kept irob found).links.dependents]
    exact (wf.stored _ irob found).2
  · rcases known with past | ⟨irob, found, real, complete⟩
    · exact .inl past
    · unfold Known
      rw [wf.find_update_key inRange]
      split_ifs with same
      · have held : before.find id = some irob := by
          rw [IrobLattice.find, ← same, ← wf.find_eq inRange]
          exact found
        exact .inr ⟨write irob, by rw [held]; rfl, (kept irob held).links.placeholder.trans real,
          fun all => (kept irob held).complete (complete all)⟩
      · exact .inr ⟨irob, found, real, complete⟩

theorem hold {kept : ReceiverIrob} (wf : before.WellFormed) (inRange : id.InRange)
    (inserted : before.insert (makePlaceholder id) false = some (after, some kept)) :
    Keeps before after := by
  rcases IrobLattice.insert_cases inserted with ⟨-, shape⟩ | ⟨placed, accepted, placing, shapes⟩
  · cases shape
  rcases shapes with ⟨-, shape⟩ | ⟨real, -⟩
  · cases shape
    obtain ⟨placedWf, finds⟩ := wf.find_place inRange
      (fun other member => (OrderedSet.not_mem_empty other member).elim) placing
    have past : placed.1.pastIrobs = before.pastIrobs := by
      rw [(IrobLattice.place_cases placing).1]
    have absent : before.find id = none := by
      rcases (IrobLattice.place_cases placing).2 with ⟨absent, -⟩ | ⟨present, -, -, real, -⟩
      · exact absent
      · cases real
    refine ⟨placedWf, fun whole query queryRange known => ?_⟩
    rcases known with contained | ⟨irob, found, known⟩
    · exact .inl (past ▸ contained)
    · refine .inr ⟨irob, ?_, known⟩
      rw [finds query queryRange, if_neg]
      · exact found
      · intro same
        cases found.symm.trans ((congrArg before.find same).trans absent)
  · cases real

theorem quiet (quiet : Quiet before after) (wf : before.WellFormed) : Keeps before after := by
  induction quiet with
  | refl => exact ⟨wf, fun _ _ _ known => known⟩
  | write id write _ links ih => exact ih.trans (.write ih.wf links)
  | hold _ inRange inserted ih => exact ih.trans (.hold ih.wf inRange inserted)

/-- The insertion of a begun IROB keeps what is known and makes the IROB known. -/
theorem begun {deps : List IrobId} {sendLabels : Nat} {kept : ReceiverIrob}
    (wf : before.WellFormed) (inRange : id.InRange) (depsRange : ∀ dep ∈ deps, dep.InRange)
    (inserted : before.insert (ReceiverIrob.mkBegun id deps sendLabels) false =
      some (after, some kept)) :
    Keeps before after ∧ Known False after id ∧ ∀ whole, ¬Known whole before id := by
  rcases IrobLattice.insert_cases inserted with ⟨-, shape⟩ | ⟨placed, accepted, placing, -⟩
  · cases shape
  obtain ⟨-, -, sameDeps, -, kind, -⟩ := IrobLattice.place_links placing
  obtain ⟨linked, inserting, linkedWf, -, finds⟩ := wf.insert_placed inRange
    (fun other member => (OrderedSet.not_mem_empty other member).elim) rfl accepted false placing
    (by
      intro dep member
      have own := (OrderedSet.mem_filter.mp member).1
      rw [sameDeps] at own
      exact depsRange dep (OrderedSet.mem_ofList.mp own))
  cases inserted.symm.trans inserting
  have past := IrobLattice.insert_past inserted
  have real : (placed.1.correctDeps placed.2 false).2.placeholder = false := kind
  generalize (placed.1.correctDeps placed.2 false).2 = stored at *
  have itself : Known False after id := by
    refine .inr ?_
    rw [finds id inRange]
    simp only [ReceiverIrob.mkBegun, PendingIrob.mkReal, ↓reduceIte, Option.getD_some]
    split_ifs
    · exact ⟨_, rfl, real, False.elim⟩
    · exact ⟨_, rfl, real, False.elim⟩
  have unknown : ∀ whole, ¬Known whole before id := by
    unfold IrobLattice.rejects at accepted
    obtain ⟨fresh, free⟩ := Bool.or_eq_false_iff.mp accepted
    rintro whole (contained | ⟨irob, found, begun, -⟩)
    · cases contained.symm.trans fresh
    · have taken : before.find (ReceiverIrob.mkBegun id deps sendLabels).id = some irob := found
      rw [taken] at free
      simp only [begun] at free
      cases free
  refine ⟨⟨linkedWf, fun whole query queryRange known => ?_⟩, itself, unknown⟩
  have other : ¬query = (ReceiverIrob.mkBegun id deps sendLabels).id := by
    rintro rfl
    exact unknown whole known
  rcases known with contained | ⟨irob, found, known⟩
  · exact .inl (past ▸ contained)
  · refine .inr ?_
    rw [finds query queryRange]
    simp only [other, ↓reduceIte, found, Option.getD_some]
    split_ifs
    · exact ⟨_, rfl, known⟩
    · exact ⟨_, rfl, known⟩

theorem erase (wf : before.WellFormed) (inRange : id.InRange) :
    Keeps before (before.erase id true).1 := by
  cases found : before.find id with
  | none =>
      rw [IrobLattice.erase_absent found]
      exact ⟨wf, fun _ _ _ known => known⟩
  | some victim =>
      obtain ⟨-, erasedWf, past, finds⟩ := wf.find_erase inRange found true
      refine ⟨erasedWf, fun whole query queryRange known => ?_⟩
      unfold Known
      rw [past, IntSet.contains_insert, finds query queryRange]
      by_cases same : query = id
      · exact .inl (by rw [decide_eq_true same, Bool.true_or])
      · simp only [same, decide_false, Bool.false_or, ↓reduceIte, true_and]
        apply known.imp_right
        rintro ⟨irob, irobFound, known⟩
        rw [irobFound]
        split_ifs
        · exact ⟨_, rfl, known⟩
        · exact ⟨_, rfl, known⟩

/-- A handled message. -/
theorem dispatch {state : ReceiverLattice} {message : Message} {handled : Handled}
    (wf : state.irobs.WellFormed) (inRange : message.id.InRange)
    (ranged : ∀ id deps sendLabels, message = .beginIrob id deps sendLabels →
      ∀ dep ∈ deps, IrobId.InRange dep)
    (handling : state.dispatch message = some handled) :
    Keeps state.irobs handled.after.irobs := by
  rcases ReceiverLattice.dispatch_cases inRange handling with
    ⟨id, deps, sendLabels, irobs, kept, rfl, -, inserted, quiet⟩ | ⟨quiet, -⟩
  · obtain ⟨keeps, -, -⟩ := Keeps.begun wf inRange (ranged id deps sendLabels rfl) inserted
    exact keeps.trans (.quiet quiet keeps.wf)
  · exact .quiet quiet wf

/-- A turn of the loop of `recv`. -/
theorem passBytes {state next : ReceiverLattice} {irob : ReceiverIrob} {len : Nat}
    {flags : RecvFlags} {delivery : Delivery} {done : Bool} (wf : state.irobs.WellFormed)
    (found : state.irobs.find id = some irob)
    (passing : state.passBytes id irob len flags = some (next, delivery, done)) :
    Keeps state.irobs next.irobs := by
  have inRange := (wf.find_of_get found).1
  obtain ⟨-, -, -, -, changes⟩ := ReceiverLattice.passBytes_cases found passing
  rcases changes with quiet | ⟨stored, quiet, onward, -⟩
  · exact .quiet quiet wf
  · have first := Keeps.quiet quiet wf
    have second := Keeps.erase first.wf inRange
    exact (first.trans second).trans (.quiet onward second.wf)

/-- A call of `recv`. -/
theorem recv {state next : ReceiverLattice} {len : Nat} {flags : RecvFlags}
    {deliveries : List Delivery} (wf : state.irobs.WellFormed)
    (looping : state.recv len flags = some (next, deliveries)) :
    Keeps state.irobs next.irobs :=
  ReceiverLattice.recvLoop_keeps (motive := fun irobs _ => Keeps state.irobs irobs)
    (fun _ _ _ _ _ _ _ _ held found passing => held.trans (.passBytes held.wf found passing))
    [] looping ⟨wf, fun _ _ _ known => known⟩

end Keeps

/-- The identifiers that were begun, newest first. -/
def begunIds : List Observation → List IrobId
  | [] => []
  | .begun id _ :: older => id :: begunIds older
  | .delivered _ :: older => begunIds older
  | .acknowledged _ :: older => begunIds older

theorem begunIds_append (seen history : List Observation) :
    begunIds (seen ++ history) = begunIds seen ++ begunIds history := by
  induction seen with
  | nil => rfl
  | cons first rest ih =>
      cases first with
      | begun id deps => exact congrArg (id :: ·) ih
      | delivered delivery => exact ih
      | acknowledged id => exact ih

theorem mem_begunIds {history : List Observation} {id : IrobId} :
    id ∈ begunIds history ↔ ∃ deps, .begun id deps ∈ history := by
  induction history with
  | nil => simp [begunIds]
  | cons first rest ih =>
      cases first with
      | begun other deps =>
          simp only [begunIds, List.mem_cons, ih, Observation.begun.injEq]
          constructor
          · rintro (rfl | ⟨others, member⟩)
            · exact ⟨deps, .inl ⟨rfl, rfl⟩⟩
            · exact ⟨others, .inr member⟩
          · rintro ⟨others, ⟨rfl, -⟩ | member⟩
            · exact .inl rfl
            · exact .inr ⟨others, member⟩
      | delivered delivery => simp [begunIds, ih]
      | acknowledged other => simp [begunIds, ih]

/-- The dependency arrays accepted so far name identifiers in range. -/
def DepsInRange (history : List Observation) : Prop :=
  ∀ id deps, .begun id deps ∈ history → ∀ dep ∈ deps, dep.InRange

/-- Every begun IROB is known, and was begun once. -/
structure Registered (irobs : IrobLattice ReceiverPart) (history : List Observation) : Prop where
  wf : irobs.WellFormed
  known : ∀ id ∈ begunIds history, id.InRange ∧ Known False irobs id
  once : (begunIds history).Nodup

namespace Registered

variable {irobs after : IrobLattice ReceiverPart} {history : List Observation}

theorem keeps (registered : Registered irobs history) (keeps : Keeps irobs after)
    {longer : List Observation} (same : begunIds longer = begunIds history) :
    Registered after longer := by
  refine ⟨keeps.wf, fun id member => ?_, same ▸ registered.once⟩
  rw [same] at member
  obtain ⟨inRange, known⟩ := registered.known id member
  exact ⟨inRange, keeps.known False id inRange known⟩

theorem dispatch {state : ReceiverLattice} {message : Message} {handled : Handled}
    (registered : Registered state.irobs history) (inRange : message.id.InRange)
    (handling : state.dispatch message = some handled)
    (ranged : DepsInRange (Receiver.observed message handled ++ history)) :
    Registered handled.after.irobs (Receiver.observed message handled ++ history) := by
  rcases ReceiverLattice.dispatch_cases inRange handling with
    ⟨id, deps, sendLabels, irobs, kept, rfl, taken, inserted, quiet⟩ | ⟨quiet, unheard⟩
  · have heard : begunIds (Receiver.observed (.beginIrob id deps sendLabels) handled) = [id] := by
      unfold Receiver.observed
      rw [taken]
      split_ifs <;> rfl
    have depsRange : ∀ dep ∈ deps, dep.InRange := by
      apply ranged id deps
      apply List.mem_append_left
      unfold Receiver.observed
      rw [taken]
      exact List.mem_append_right _ List.mem_cons_self
    obtain ⟨keeps, known, unknown⟩ := Keeps.begun registered.wf inRange depsRange inserted
    have onward := Keeps.quiet quiet keeps.wf
    refine ⟨onward.wf, ?_, ?_⟩ <;> rw [begunIds_append, heard, List.singleton_append]
    · intro query member
      rcases List.mem_cons.mp member with rfl | older
      · exact ⟨inRange, onward.known False query inRange known⟩
      · obtain ⟨queryRange, before⟩ := registered.known query older
        exact ⟨queryRange, (keeps.trans onward).known False query queryRange before⟩
    · apply List.nodup_cons.mpr
      exact ⟨fun older => unknown False (registered.known id older).2, registered.once⟩
  · refine registered.keeps (.quiet quiet registered.wf) ?_
    have none : begunIds (Receiver.observed message handled) = [] := by
      apply List.eq_nil_iff_forall_not_mem.mpr
      intro id member
      obtain ⟨deps, begun⟩ := mem_begunIds.mp member
      exact unheard id deps begun
    rw [begunIds_append, none, List.nil_append]

theorem passBytes {state next : ReceiverLattice} {id : IrobId} {irob : ReceiverIrob} {len : Nat}
    {flags : RecvFlags} {delivery : Delivery} {done : Bool} (noPeek : flags.peek = false)
    (registered : Registered state.irobs history) (found : state.irobs.find id = some irob)
    (passing : state.passBytes id irob len flags = some (next, delivery, done)) :
    Registered next.irobs (Receiver.handed flags [delivery] ++ history) := by
  rw [Receiver.handed_singleton noPeek]
  exact registered.keeps (.passBytes registered.wf found passing) rfl

end Registered

namespace Receiver

variable {receiver : Receiver}

theorem ordered_of_reachable (reached : machine.Reachable receiver) :
    Ordered receiver.lattice.irobs receiver.history := by
  apply reached.induct (motive := fun receiver =>
    Ordered receiver.lattice.irobs receiver.history)
  · rintro first rfl
    refine ⟨.empty, fun id contained => ?_, fun _ member => (List.not_mem_nil member).elim,
      fun newer delivery older shape => ?_⟩
    · cases contained.symm.trans (IntSet.contains_empty id)
    · cases newer <;> cases shape
  · intro before after event _ ordered permitted moved
    cases event with
    | message message =>
        obtain ⟨result, receiving, rfl⟩ := Option.map_eq_some_iff.mp moved
        obtain ⟨handled, handling, rfl⟩ := Option.map_eq_some_iff.mp receiving
        exact ordered.dispatch permitted handling
    | recv len flags =>
        obtain ⟨result, reading, rfl⟩ := Option.map_eq_some_iff.mp moved
        exact ReceiverLattice.recvLoop_keeps (fun _ _ _ _ _ _ _ _ held found passing =>
          Ordered.passBytes permitted held found passing) _ reading ordered

theorem registered_of_reachable (reached : machine.Reachable receiver) :
    DepsInRange receiver.history → Registered receiver.lattice.irobs receiver.history := by
  apply reached.induct (motive := fun receiver =>
    DepsInRange receiver.history → Registered receiver.lattice.irobs receiver.history)
  · rintro first rfl -
    exact ⟨.empty, fun id member => (List.not_mem_nil member).elim, List.nodup_nil⟩
  · intro before after event _ registered permitted moved ranged
    cases event with
    | message message =>
        obtain ⟨result, receiving, rfl⟩ := Option.map_eq_some_iff.mp moved
        obtain ⟨handled, handling, rfl⟩ := Option.map_eq_some_iff.mp receiving
        have rangedBefore : DepsInRange before.history := fun id deps member =>
          ranged id deps (List.mem_append_right _ member)
        exact (registered rangedBefore).dispatch permitted handling ranged
    | recv len flags =>
        obtain ⟨result, reading, rfl⟩ := Option.map_eq_some_iff.mp moved
        have rangedBefore : DepsInRange before.history := fun id deps member =>
          ranged id deps (List.mem_append_right _ member)
        exact ReceiverLattice.recvLoop_keeps (fun _ _ _ _ _ _ _ _ held found passing =>
          Registered.passBytes permitted held found passing) _ reading (registered rangedBefore)

/-- An IROB that was begun once has one dependency array. -/
theorem begun_deps_unique {history : List Observation} {id : IrobId} {first second : List IrobId}
    (once : (begunIds history).Nodup) (one : .begun id first ∈ history)
    (two : .begun id second ∈ history) : first = second := by
  induction history with
  | nil => cases one
  | cons head rest ih =>
      have absent : ∀ {other : IrobId} {deps : List IrobId}, head = .begun other deps →
          other ∉ begunIds rest := by
        rintro other deps rfl
        exact (List.nodup_cons.mp once).1
      have restOnce : (begunIds rest).Nodup := by
        cases head with
        | begun other deps => exact (List.nodup_cons.mp once).2
        | delivered delivery => exact once
        | acknowledged other => exact once
      rcases List.mem_cons.mp one with now | later
      · rcases List.mem_cons.mp two with again | older
        · cases now.trans again.symm
          rfl
        · exact (absent now.symm (mem_begunIds.mpr ⟨second, older⟩)).elim
      · rcases List.mem_cons.mp two with again | older
        · exact (absent again.symm (mem_begunIds.mpr ⟨first, later⟩)).elim
        · exact ih restOnce later older

/-- Receiver-side dependency order. Whenever `recv` hands over bytes of an IROB, a
`Begin_IROB` was accepted for it before, every identifier in its dependency array is
in `past_irobs`, and every IROB in `past_irobs` had its last byte handed over before.
Where dependency arrays keep to the identifiers the protocol uses, that `Begin_IROB`
is the only one ever accepted for the IROB. -/
theorem delivered_after_dependencies (reached : machine.Reachable receiver)
    {newer older : List Observation} {delivery : Delivery}
    (shape : receiver.history = newer ++ .delivered delivery :: older) :
    (∃ deps, .begun delivery.id deps ∈ older ∧
      ∀ dep ∈ deps, delivery.past.contains dep = true) ∧
    (∀ id, delivery.past.contains id = true → ∃ earlier, .delivered earlier ∈ older ∧
      earlier.id = id ∧ earlier.left = 0) ∧
    ((∀ id deps, .begun id deps ∈ receiver.history → ∀ dep ∈ deps, dep.InRange) →
      ∀ deps, .begun delivery.id deps ∈ receiver.history →
        ∀ dep ∈ deps, delivery.past.contains dep = true) := by
  obtain ⟨begins, finished, -⟩ := (ordered_of_reachable reached).inOrder newer delivery older shape
  refine ⟨begins, finished, fun ranged deps begun => ?_⟩
  obtain ⟨accepted, before, satisfied⟩ := begins
  have listed : .begun delivery.id accepted ∈ receiver.history := by
    rw [shape]
    exact List.mem_append_right _ (List.mem_cons_of_mem _ before)
  have once := (registered_of_reachable reached ranged).once
  rw [begun_deps_unique once begun listed]
  exact satisfied

/-- The messages of two IROBs, the second dependent on the first and complete before
it, and two reads. -/
def chainEvents : List ReceiverEvent :=
  [.message (.beginIrob 1 [0] 0), .message (.irobChunk 1 0 0 [3]), .message (.endIrob 1 1 1),
    .recv 4 ⟨false, false⟩, .message (.beginIrob 0 [] 0), .message (.irobChunk 0 0 0 [1]),
    .message (.endIrob 0 1 1), .recv 4 ⟨true, false⟩]

theorem chain_run : ∃ receiver newer older delivery,
    machine.run empty chainEvents = some receiver ∧
      receiver.history = newer ++ .delivered delivery :: older ∧ newer = [] ∧
      delivery.id = 1 ∧ delivery.bytes = [3] := ⟨_, [], _, _, rfl, rfl, rfl, rfl, rfl⟩

theorem delivered_after_dependencies_chain : ∃ receiver newer older delivery,
    machine.Reachable receiver ∧ receiver.history = newer ++ .delivered delivery :: older ∧
      delivery.id = 1 ∧ delivery.bytes = [3] ∧
      ∃ deps, .begun 1 deps ∈ older ∧ ∀ dep ∈ deps, delivery.past.contains dep = true := by
  obtain ⟨receiver, newer, older, delivery, ran, shape, -, named, bytes⟩ := chain_run
  have reached := Machine.Reachable.run (.initial rfl) ran
  exact ⟨receiver, newer, older, delivery, reached, shape, named, bytes,
    named ▸ (delivered_after_dependencies reached shape).1⟩

end Receiver

end Libcmm
