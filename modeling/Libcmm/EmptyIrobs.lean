import Libcmm.Confluence
import Libcmm.DependencyOrder

/-! # IROBs without data

`recv` tells the sentinel of `get_ready_irob` from an IROB by its number of bytes: one without
bytes that is not the sentinel fails an `ASSERT`. A sender announces such an IROB when the
application ends it before it adds data, and at the receiver it is complete as soon as its
`End_IROB` arrives. So no call of `recv` fails exactly when every IROB without data is never
ready: it is never ended, or waits forever for one on which it depends.
-/

namespace Libcmm

open Lib

/-! ### The end of a call -/

/-- What a turn of the loop of `recv` reads of the socket when no IROB is ready. -/
structure ReadMode where
  nonBlocking : Bool
  timeoutExpired : Bool
  deriving DecidableEq

/-- How a call of `recv` ends: it returns the bytes it has passed, or fails with `EWOULDBLOCK`,
or waits for an IROB. -/
inductive RecvEnd where
  | passed
  | wouldBlock
  | waiting
  deriving DecidableEq

namespace ReceiverLattice

/-- What `get_ready_irob` does when `ready_irobs` is empty, and `recv` with the sentinel that
it returns. The clock does not go back between the two checks of the timeout. -/
def noneReady (mode : ReadMode) (bytesPassed : Nat) (flags : RecvFlags) : Option RecvEnd :=
  let blockForData := decide (bytesPassed = 0) || flags.waitall
  if !blockForData || mode.nonBlocking || mode.timeoutExpired then
    -- empty_sentinel_irob
    if bytesPassed = 0 then
      -- ASSERT(0): get_ready_irob would have blocked
      if mode.nonBlocking || mode.timeoutExpired then some .wouldBlock else none
    else some .passed
  else some .waiting

/-- The loop of `recv` on a socket, with the mode in which each turn finds it. -/
def recvLoopOn (mode : Nat → ReadMode) : Nat → ReceiverLattice → Nat → Nat → RecvFlags →
    Option (ReceiverLattice × List Delivery × RecvEnd)
  | _, state, _, 0, _ => some (state, [], .passed)
  | 0, _, _, _ + 1, _ => none
  | turns + 1, state, bytesPassed, len + 1, flags => do
      let (ready, popped) ← state.getReadyIrob
      match ready with
      | none =>
          let ending ← noneReady (mode turns) bytesPassed flags
          some (popped, [], ending)
      | some (id, irob) =>
          let (next, delivery, done) ← popped.passBytes id irob (len + 1) flags
          if done && !flags.waitall then some (next, [delivery], .passed)
          else
            let (last, others, ending) ← recvLoopOn mode turns next
              (bytesPassed + delivery.bytes.length) (len + 1 - delivery.bytes.length) flags
            some (last, delivery :: others, ending)

/-- The sentinel is returned without bytes only to a call that may return without. -/
theorem noneReady_isSome (mode : ReadMode) (bytesPassed : Nat) (flags : RecvFlags) :
    ∃ ending, noneReady mode bytesPassed flags = some ending := by
  unfold noneReady
  by_cases first : bytesPassed = 0
  · simp only [first, decide_true, Bool.true_or, Bool.not_true, Bool.false_or, ↓reduceIte]
    split_ifs
    · exact ⟨_, rfl⟩
    · exact ⟨_, rfl⟩
  · simp only [first, ↓reduceIte]
    split_ifs
    · exact ⟨_, rfl⟩
    · exact ⟨_, rfl⟩

/-- The mode of the socket decides how a call ends, not what it passes or whether it fails. -/
theorem recvLoopOn_eq (mode : Nat → ReadMode) (turns : Nat) (state : ReceiverLattice)
    (bytesPassed len : Nat) (flags : RecvFlags) :
    (recvLoopOn mode turns state bytesPassed len flags).map (fun result => (result.1, result.2.1)) =
      recvLoop turns state len flags := by
  induction turns generalizing state bytesPassed len with
  | zero => cases len <;> rfl
  | succ turns ih =>
      cases len with
      | zero => rfl
      | succ len =>
          unfold recvLoopOn recvLoop
          simp only [Option.bind_eq_bind, Option.map_bind]
          congr 1
          funext ⟨ready, popped⟩
          cases ready with
          | none =>
              obtain ⟨ending, ended⟩ := noneReady_isSome (mode turns) bytesPassed flags
              simp only [Function.comp_apply, ended, Option.bind_some, Option.map_some]
          | some found =>
              simp only [Function.comp_apply, Option.map_bind]
              congr 1
              funext ⟨next, delivery, done⟩
              simp only
              split_ifs
              · rfl
              · rw [← ih next (bytesPassed + delivery.bytes.length), Option.map_bind,
                  Option.bind_map]
                rfl

end ReceiverLattice

/-! ### Deliverable IROBs -/

/-- An IROB that ends, and waits only for IROBs that do. -/
inductive Contents.Deliverable (contents : Contents) : IrobId → Prop where
  | intro {id : IrobId} : id.InRange → (contents id).final = true →
      (∀ dep ∈ (contents id).deps, Deliverable contents dep) → Deliverable contents id

/-- What is observed under conforming messages is true, and only deliverable IROBs with bytes
are delivered. -/
structure Grounded (contents : Contents) (history : List Observation) : Prop where
  begun : ∀ id deps, .begun id deps ∈ history → deps = (contents id).deps
  delivered : ∀ delivery, .delivered delivery ∈ history →
    contents.Deliverable delivery.id ∧ (contents delivery.id).bytes ≠ []

namespace Grounded

open ReceiverLattice ReceiverIrob

variable {contents : Contents} {state : ReceiverLattice} {history : List Observation}
  {id : IrobId}

/-- What is past has been delivered. -/
theorem of_past (grounded : Grounded contents history) (ordered : Ordered state.irobs history)
    (past : state.irobs.pastIrobs.contains id = true) :
    contents.Deliverable id ∧ (contents id).bytes ≠ [] := by
  obtain ⟨delivery, member, rfl, -⟩ := ordered.finished id past
  exact grounded.delivered delivery member

/-- A ready IROB is deliverable: its dependencies have been delivered. -/
theorem of_ready (grounded : Grounded contents history) (ordered : Ordered state.irobs history)
    {hand : Option IrobId} (sound : Sound contents (fun _ => False) hand state history)
    (inRange : id.InRange) {irob : ReceiverIrob} (found : state.irobs.find id = some irob)
    (ready : Ready irob) : contents.Deliverable id := by
  have named := sound.wf.find_id inRange found
  have final := ((sound.pending id irob inRange found).2.phase.toReading ready.2.1).1.final
  rcases ordered.justified _ irob found with holder | ⟨deps, begun, satisfied⟩
  · cases ready.1.symm.trans holder
  · rw [named] at begun
    refine .intro inRange final fun dep listed => ?_
    rw [← grounded.begun id deps begun] at listed
    have past := (satisfied dep listed).resolve_left
      (OrderedSet.isEmpty_iff.mp ready.2.2 dep)
    exact (grounded.of_past ordered past).1

theorem observe (grounded : Grounded contents history) {message : Message}
    (conforms : contents.Conforms message) (handled : Handled) :
    Grounded contents (Receiver.observed message handled ++ history) := by
  refine ⟨fun id deps member => ?_, fun delivery member => ?_⟩
  · rcases List.mem_append.mp member with new | old
    · rcases Receiver.mem_observed new with ⟨acked, -⟩ | ⟨_, _, _, rfl, -, same⟩
      · cases acked
      · cases same
        exact conforms.1
    · exact grounded.begun id deps old
  · rcases List.mem_append.mp member with new | old
    · rcases Receiver.mem_observed new with ⟨acked, -⟩ | ⟨_, _, _, -, -, same⟩
      · cases acked
      · cases same
    · exact grounded.delivered delivery old

/-- A turn of the loop of `recv` delivers a ready IROB. -/
theorem deliver (grounded : Grounded contents history) {delivery : Delivery}
    (deliverable : contents.Deliverable delivery.id)
    (someBytes : (contents delivery.id).bytes ≠ []) :
    Grounded contents (.delivered delivery :: history) := by
  refine ⟨fun id deps member => ?_, fun other member => ?_⟩
  · rcases List.mem_cons.mp member with new | old
    · cases new
    · exact grounded.begun id deps old
  · rcases List.mem_cons.mp member with new | old
    · cases new
      exact ⟨deliverable, someBytes⟩
    · exact grounded.delivered other old

/-- A call of `recv` in a state that only knows what is true: it ends, unless it meets a
deliverable IROB without bytes. -/
theorem recvLoop (grounded : Grounded contents history) (ordered : Ordered state.irobs history)
    (sound : Sound contents (fun _ => False) none state history) {flags : RecvFlags}
    (noPeek : flags.peek = false) {turns len : Nat} (enough : len ≤ turns) :
    ((∃ id, contents.Deliverable id ∧ (contents id).bytes = []) ∧
      ReceiverLattice.recvLoop turns state len flags = none) ∨
    ∃ next deliveries, ReceiverLattice.recvLoop turns state len flags = some (next, deliveries) ∧
      Ordered next.irobs (Receiver.handed flags deliveries ++ history) ∧
      Grounded contents (Receiver.handed flags deliveries ++ history) := by
  have turn : ∀ (state next : ReceiverLattice) (history : List Observation) (id : IrobId)
      (irob : ReceiverIrob) (len : Nat) (delivery : Delivery) (done : Bool),
      Ordered state.irobs history ∧ Grounded contents history →
      Sound contents (fun _ => False) (some id) state history →
      id.InRange → state.irobs.find id = some irob → Ready irob → (contents id).bytes ≠ [] →
      state.passBytes id irob len flags = some (next, delivery, done) →
        Ordered next.irobs (Receiver.handed flags [delivery] ++ history) ∧
          Grounded contents (Receiver.handed flags [delivery] ++ history) := by
    rintro state next history id irob len delivery done ⟨ordered, grounded⟩ inHand inRange found
      ready someBytes passing
    obtain ⟨-, -, named, -⟩ := passBytes_cases found passing
    have same : delivery.id = id := named.trans (inHand.wf.find_id inRange found)
    refine ⟨ordered.passBytes noPeek found passing, ?_⟩
    rw [Receiver.handed_singleton noPeek]
    apply grounded.deliver
    · rw [same]
      exact grounded.of_ready ordered inHand inRange found ready
    · rw [same]
      exact someBytes
  rcases sound.recvLoop_keeping
    (motive := fun irobs history => Ordered irobs history ∧ Grounded contents history)
    flags turn ⟨ordered, grounded⟩ enough with
    ⟨met, late, id, irob, kept, lateSound, inRange, found, ready, empty, trapped⟩ |
    ⟨next, deliveries, looping, -, -, kept⟩
  · exact .inl ⟨⟨id, kept.2.of_ready kept.1 lateSound inRange found ready, empty⟩, trapped⟩
  · exact .inr ⟨next, deliveries, looping, kept⟩

end Grounded

namespace Receiver

open ReceiverLattice ReceiverIrob

variable {contents : Contents} {receiver : Receiver} {id : IrobId}

/-- In a conforming run only deliverable IROBs with bytes are delivered. -/
theorem grounded_of_reachable (valid : contents.Valid)
    (reached : (conforming contents).Reachable receiver) : Grounded contents receiver.history := by
  apply reached.induct (motive := fun receiver => Grounded contents receiver.history)
  · rintro first rfl
    exact ⟨fun _ _ member => (List.not_mem_nil member).elim,
      fun _ member => (List.not_mem_nil member).elim⟩
  · intro before after event sofar grounded permitted moved
    cases event with
    | message message =>
        obtain ⟨result, receiving, rfl⟩ := Option.map_eq_some_iff.mp moved
        obtain ⟨handled, handling, rfl⟩ := Option.map_eq_some_iff.mp receiving
        exact grounded.observe permitted.2 handled
    | recv len flags =>
        obtain ⟨⟨lattice, deliveries⟩, reading, rfl⟩ := Option.map_eq_some_iff.mp moved
        rcases grounded.recvLoop (ordered_of_reachable sofar.of_restrict)
          (sound_of_reachable valid sofar) permitted.1 (le_refl len) with
          ⟨-, trapped⟩ | ⟨next, others, looping, -, kept⟩
        · cases trapped.symm.trans reading
        · cases looping.symm.trans reading
          exact kept

end Receiver

/-! ### Runs that deliver -/

namespace ReceiverLattice

open ReceiverIrob

variable {contents : Contents} {state next : ReceiverLattice} {history : List Observation}
  {id : IrobId} {message : Message}

/-- Only placeholders are pending, but for one IROB. -/
def ClearBut (state : ReceiverLattice) (id : IrobId) : Prop :=
  ∀ (query : IrobId) (irob : ReceiverIrob), query.InRange → query ≠ id →
    state.irobs.find query = some irob → irob.placeholder = true

/-- Only placeholders are pending. -/
def Clear (state : ReceiverLattice) : Prop :=
  ∀ (query : IrobId) (irob : ReceiverIrob), query.InRange →
    state.irobs.find query = some irob → irob.placeholder = true

/-- A message makes no other IROB real. -/
theorem ClearBut.dispatch {handling : Handled} (clear : state.ClearBut message.id)
    (wf : state.irobs.WellFormed) (ranged : message.IdsInRange)
    (dispatched : state.dispatch message = some handling) :
    handling.after.ClearBut message.id := by
  rcases dispatch_effect wf ranged dispatched with
    ⟨-, same⟩ | ⟨irobs, irob, ready, stores, -, after⟩
  · rw [same]
    exact clear
  · have stored : ∀ (query : IrobId) (irob : ReceiverIrob), query.InRange → query ≠ message.id →
        irobs.find query = some irob → irob.placeholder = true := by
      intro query other queryRange differ found
      rcases stores.others query queryRange differ with same | ⟨-, -, grown⟩
      · exact clear query other queryRange differ (same ▸ found)
      · cases grown.symm.trans found
        change ((state.irobs.find query).getD (makePlaceholder query)).placeholder = true
        cases before : state.irobs.find query with
        | none => rfl
        | some present => exact clear query present queryRange differ before
    rw [after]
    unfold releasing
    intro query other queryRange differ found
    split_ifs at found
    · rw [stores.wf.find_write ranged.id stores.found _ queryRange, if_neg differ] at found
      exact stored query other queryRange differ found
    · exact stored query other queryRange differ found

/-- Nothing else becomes real while an IROB is read. -/
theorem ClearBut.passBytes (clear : state.ClearBut id) {irob : ReceiverIrob} {len : Nat}
    {flags : RecvFlags} {delivery : Delivery} {done : Bool} (wf : state.irobs.WellFormed)
    (nextWf : next.irobs.WellFormed) (found : state.irobs.find id = some irob)
    (passing : state.passBytes id irob len flags = some (next, delivery, done)) :
    next.ClearBut id := by
  have others : state.irobs.Every fun irob => irob.placeholder = true ∨ irob.id = id := by
    intro key other used
    obtain ⟨inRange, held⟩ := wf.find_of_get used
    by_cases same : other.id = id
    · exact .inr same
    · exact .inl (clear other.id other inRange same held)
  have kept : ∀ {before after : IrobLattice ReceiverPart}, Quiet before after →
      before.Every (fun irob => irob.placeholder = true ∨ irob.id = id) →
        after.Every fun irob => irob.placeholder = true ∨ irob.id = id := by
    intro before after quiet every
    refine quiet.every (fun first second sameId _ sameKind own => ?_) (fun _ holder => .inl holder)
      every
    rw [sameId, sameKind]
    exact own
  have nextOthers : next.irobs.Every fun irob => irob.placeholder = true ∨ irob.id = id := by
    obtain ⟨-, -, -, -, quiet | ⟨stored, quiet, onward, -⟩⟩ := passBytes_cases found passing
    · exact kept quiet others
    · exact kept onward ((kept quiet others).erase (fun _ own => own) true)
  intro query other queryRange differ held
  refine (nextOthers _ other held).resolve_right fun same => differ ?_
  rw [← nextWf.find_id queryRange held, same]

/-- An IROB that is ready, and the only real one, is the next that `recv` reads. -/
theorem Sound.getReadyIrob_only (sound : Sound contents (fun _ => False) none state history)
    (clear : state.ClearBut id) (inRange : id.InRange) {irob : ReceiverIrob}
    (found : state.irobs.find id = some irob) (ready : Ready irob) :
    ∃ popped, state.getReadyIrob = some (some (id, irob), popped) ∧ popped.irobs = state.irobs ∧
      popped.partiallyReadIrob = none ∧
      Sound contents (fun _ => False) (some id) popped history := by
  obtain ⟨taken, popped, getting, held⟩ := sound.getReadyIrob
  have same := (getReadyIrob_cases getting).1
  cases taken with
  | none =>
      -- the IROB is released, so it is queued
      have flag := ((sound.pending id irob inRange found).2.released ready).resolve_right not_false
      obtain ⟨drained, noHalf⟩ := getReadyIrob_none getting
      have queued := (held.queued.places id).mpr ⟨inRange, irob, same ▸ found, flag⟩
      rw [readyIds, drained, noHalf] at queued
      rcases queued with listed | half | hand
      · cases listed
      · cases half
      · cases hand
  | some pair =>
      obtain ⟨other, next⟩ := pair
      obtain ⟨otherRange, otherFound, otherReady, noHalf, inHand⟩ := held
      have own : other = id := by
        by_contra differ
        have holder := clear other next otherRange differ (same ▸ otherFound)
        cases holder.symm.trans otherReady.1
      subst own
      cases (same ▸ otherFound).symm.trans found
      exact ⟨popped, getting, same, noHalf, inHand⟩

end ReceiverLattice

namespace Receiver

open ReceiverLattice ReceiverIrob

variable {contents : Contents} {receiver : Receiver} {id : IrobId}

/-- The messages of an IROB may arrive one after another. -/
theorem reachable_dispatchAll (reached : (conforming contents).Reachable receiver)
    {messages : List Message} {last : ReceiverLattice}
    (conform : ∀ message ∈ messages, message.id.InRange ∧ contents.Conforms message)
    (ran : receiver.lattice.dispatchAll messages = some last) :
    ∃ history, (conforming contents).Reachable ⟨last, history⟩ ∧
      deliveredBytes history = deliveredBytes receiver.history := by
  induction messages generalizing receiver with
  | nil =>
      cases ran
      exact ⟨receiver.history, reached, rfl⟩
  | cons message rest ih =>
      obtain ⟨middle, dispatched, onward⟩ := Option.bind_eq_some_iff.mp ran
      obtain ⟨handling, handled, rfl⟩ := Option.map_eq_some_iff.mp dispatched
      have moved : (conforming contents).step receiver (.message message) =
          some ⟨handling.after, observed message handling ++ receiver.history⟩ := by
        change (receiver.receive message).map Prod.fst = _
        rw [receive, handled]
        rfl
      have permitted : (conforming contents).permitted receiver (.message message) :=
        conform message List.mem_cons_self
      have next := reached.step permitted moved
      obtain ⟨history, lastReached, undelivered⟩ :=
        ih next (fun other member => conform other (List.mem_cons_of_mem _ member)) onward
      exact ⟨history, lastReached, undelivered.trans
        (deliveredBytes_observed message handling receiver.history)⟩

/-- Only one IROB becomes real while its messages arrive. -/
theorem clearBut_dispatchAll (valid : contents.Valid)
    (reached : (conforming contents).Reachable receiver) {messages : List Message}
    {last : ReceiverLattice}
    (conform : ∀ message ∈ messages, message.id = id ∧ contents.Conforms message)
    (inRange : id.InRange) (clear : receiver.lattice.ClearBut id)
    (ran : receiver.lattice.dispatchAll messages = some last) : last.ClearBut id := by
  induction messages generalizing receiver with
  | nil =>
      cases ran
      exact clear
  | cons message rest ih =>
      obtain ⟨middle, dispatched, onward⟩ := Option.bind_eq_some_iff.mp ran
      obtain ⟨handling, handled, rfl⟩ := Option.map_eq_some_iff.mp dispatched
      obtain ⟨rfl, conforms⟩ := conform message List.mem_cons_self
      have sound : ReceiverLattice.Sound contents (fun _ => False) none receiver.lattice
        receiver.history := sound_of_reachable valid reached
      have single : receiver.lattice.dispatchAll [message] = some handling.after := by
        unfold dispatchAll
        rw [List.foldlM_cons, handled]
        rfl
      obtain ⟨history, next, -⟩ := reachable_dispatchAll reached
        (fun other member => by
          cases List.mem_singleton.mp member
          exact ⟨inRange, conforms⟩) single
      exact ih next (fun other member => conform other (List.mem_cons_of_mem _ member))
        (clear.dispatch sound.wf (idsInRange_of_conforms valid inRange conforms) handled) onward

/-- An IROB of which all dependencies are past is ready once its messages have arrived. -/
theorem reach_ready (valid : contents.Valid) (reached : (conforming contents).Reachable receiver)
    (clear : receiver.lattice.Clear) (inRange : id.InRange) (final : (contents id).final = true)
    (fresh : receiver.lattice.irobs.pastIrobs.contains id = false)
    (satisfied : ∀ dep ∈ (contents id).deps,
      receiver.lattice.irobs.pastIrobs.contains dep = true) :
    ∃ next irob, (conforming contents).Reachable next ∧
      next.lattice.irobs.pastIrobs = receiver.lattice.irobs.pastIrobs ∧
      next.lattice.ClearBut id ∧ next.lattice.irobs.find id = some irob ∧ Ready irob ∧
      deliveredBytes next.history id = [] := by
  have members : ∀ message ∈ (contents id).messages id, message ∈ (contents id).messages id :=
    fun _ member => member
  have conform : ∀ message ∈ (contents id).messages id,
      message.id = id ∧ contents.Conforms message :=
    fun _ member => IrobContent.conforms_of_mem final member
  obtain ⟨last, marks, ran, gathers, receiving, all⟩ := gathers valid reached inRange final fresh
    (fun irob found => clear id irob inRange found) members
  obtain ⟨history, next, silent⟩ := reachable_dispatchAll reached (fun message member =>
    ⟨(conform message member).1 ▸ inRange, (conform message member).2⟩) ran
  have undelivered : deliveredBytes history id = [] := by
    have sound : ReceiverLattice.Sound contents (fun _ => False) none receiver.lattice
      receiver.history := sound_of_reachable valid reached
    rw [silent]
    exact sound.undelivered_of_unbegun inRange fresh fun irob found => clear id irob inRange found
  have clearBut := clearBut_dispatchAll valid reached conform inRange
    (fun query irob queryRange _ found => clear query irob queryRange found) ran
  have named : (receiver.lattice.irobAt id).id = id :=
    ReceiverLattice.Sound.irobAt_id (sound_of_reachable valid reached) inRange
  obtain ⟨real, complete⟩ := gathers.marked.whole receiving (by rwa [named])
  refine ⟨⟨last, history⟩, last.irobAt id, next, gathers.past, clearBut, find_of_real real,
    ⟨real, complete, ?_⟩, undelivered⟩
  -- no dependency is left: all are past
  obtain ⟨dependents, shape⟩ := linked_cases receiver.lattice.irobs.pastIrobs
    { mkBegun (receiver.lattice.irobAt id).id (contents id).deps (contents id).sendLabels with
      dependents := (mkBegun (receiver.lattice.irobAt id).id (contents id).deps
        (contents id).sendLabels).dependents.insertAll
          (receiver.lattice.irobAt id).dependents.toList }
  rw [(gathers.marked.begun real).deps, shape, OrderedSet.isEmpty_iff]
  intro dep listed
  obtain ⟨own, waiting⟩ := OrderedSet.mem_filter.mp listed
  have past := satisfied dep (OrderedSet.mem_ofList.mp own)
  simp only [past, Bool.not_true, Bool.false_eq_true] at waiting

/-- A ready IROB that is the only real one is delivered by one call of `recv`. -/
theorem reach_delivered (valid : contents.Valid)
    (reached : (conforming contents).Reachable receiver) (clear : receiver.lattice.ClearBut id)
    (inRange : id.InRange) {irob : ReceiverIrob}
    (found : receiver.lattice.irobs.find id = some irob) (ready : Ready irob)
    (undelivered : deliveredBytes receiver.history id = [])
    (someBytes : (contents id).bytes ≠ []) :
    ∃ next, (conforming contents).Reachable next ∧ next.lattice.Clear ∧
      next.lattice.irobs.pastIrobs.contains id = true ∧
      ∀ query, receiver.lattice.irobs.pastIrobs.contains query = true →
        next.lattice.irobs.pastIrobs.contains query = true := by
  have sound : ReceiverLattice.Sound contents (fun _ => False) none receiver.lattice
    receiver.history := sound_of_reachable valid reached
  obtain ⟨popped, getting, same, noHalf, inHand⟩ :=
    sound.getReadyIrob_only clear inRange found ready
  have poppedFound : popped.irobs.find id = some irob := same ▸ found
  obtain ⟨len, length⟩ : ∃ len, (contents id).bytes.length = len + 1 :=
    Nat.exists_eq_succ_of_ne_zero fun none => someBytes (List.length_eq_zero_iff.mp none)
  have wanted : 0 < len + 1 := Nat.succ_pos len
  obtain ⟨after, delivery, done, passing, -⟩ :=
    inHand.passBytes inRange poppedFound ready someBytes noHalf wanted ⟨false, false⟩
  obtain ⟨-, -, named, past, -⟩ := passBytes_cases poppedFound passing
  have own : delivery.id = id := named.trans (inHand.wf.find_id inRange poppedFound)
  -- the call asks for all bytes, and gets them
  have whole : delivery.bytes = (contents id).bytes := by
    obtain ⟨reading, -⟩ := (sound.pending id irob inRange found).2.phase.toReading ready.2.1
    have copied := reading.readData_eq wanted
    have bytes := reading.bytes
    rw [undelivered, List.nil_append] at bytes
    rw [(passBytes_delivery passing).1, bytes, ← length, List.take_length] at copied
    exact Option.some.inj copied
  have reading : (conforming contents).step receiver (.recv (len + 1) ⟨false, false⟩) =
      some ⟨after, .delivered delivery :: receiver.history⟩ := by
    have looping : recvLoop (len + 1) receiver.lattice (len + 1) ⟨false, false⟩ =
        some (after, [delivery]) := by
      unfold recvLoop
      simp only [getting, Option.bind_eq_bind, Option.bind_some, passing, whole, length,
        Nat.sub_self]
      split_ifs
      · rfl
      · cases len <;> rfl
    change receiver.read (len + 1) ⟨false, false⟩ = _
    unfold read ReceiverLattice.recv
    rw [looping]
    rfl
  have permitted : (conforming contents).permitted receiver (.recv (len + 1) ⟨false, false⟩) :=
    ⟨rfl, trivial⟩
  have next := reached.step permitted reading
  have nextSound : ReceiverLattice.Sound contents (fun _ => False) none after
    (.delivered delivery :: receiver.history) := sound_of_reachable valid next
  have delivered : deliveredBytes (.delivered delivery :: receiver.history) id =
      (contents id).bytes := by
    rw [deliveredBytes_own _ _ own, undelivered, whole, List.nil_append]
  have gone : after.irobs.find id = none := by
    cases held : after.irobs.find id with
    | none => rfl
    | some left =>
        have phase := (nextSound.pending id left inRange held).2.phase
        rw [delivered] at phase
        cases phase with
        | receiving start _ => exact (someBytes start).elim
        | reading _ reading _ left =>
            exact (left (List.append_cancel_left (reading.bytes.trans
              (List.append_nil _).symm))).elim
  have afterClear : after.ClearBut id :=
    ClearBut.passBytes (fun query other => same ▸ clear query other) inHand.wf nextSound.wf
      poppedFound passing
  refine ⟨_, next, fun query other queryRange held => ?_, ?_, fun query contained => ?_⟩
  · by_cases equal : query = id
    · rw [equal, gone] at held
      cases held
    · exact afterClear query other queryRange equal held
  · by_contra fresh
    rw [Bool.not_eq_true] at fresh
    have none := nextSound.unseen id (fun _ => gone) fresh
    exact someBytes (delivered.symm.trans none)
  · refine (ordered_of_reachable next.of_restrict).grows delivery List.mem_cons_self query ?_
    rw [past, same]
    exact contained

/-- IROBs that some run delivers each are delivered one after another. -/
theorem reach_each {deps : List IrobId}
    (one : ∀ dep ∈ deps, ∀ receiver, (conforming contents).Reachable receiver →
      receiver.lattice.Clear → ∃ next, (conforming contents).Reachable next ∧
        next.lattice.Clear ∧ next.lattice.irobs.pastIrobs.contains dep = true ∧
        ∀ query, receiver.lattice.irobs.pastIrobs.contains query = true →
          next.lattice.irobs.pastIrobs.contains query = true)
    (reached : (conforming contents).Reachable receiver) (clear : receiver.lattice.Clear) :
    ∃ next, (conforming contents).Reachable next ∧ next.lattice.Clear ∧
      (∀ dep ∈ deps, next.lattice.irobs.pastIrobs.contains dep = true) ∧
      ∀ query, receiver.lattice.irobs.pastIrobs.contains query = true →
        next.lattice.irobs.pastIrobs.contains query = true := by
  induction deps generalizing receiver with
  | nil =>
      exact ⟨receiver, reached, clear, fun _ member => (List.not_mem_nil member).elim,
        fun _ contained => contained⟩
  | cons dep rest ih =>
      obtain ⟨middle, middleReached, middleClear, past, grows⟩ :=
        one dep List.mem_cons_self receiver reached clear
      obtain ⟨next, nextReached, nextClear, restPast, restGrows⟩ :=
        ih (fun other member => one other (List.mem_cons_of_mem _ member)) middleReached
          middleClear
      refine ⟨next, nextReached, nextClear, fun other member => ?_, fun query contained =>
        restGrows query (grows query contained)⟩
      rcases List.mem_cons.mp member with rfl | later
      · exact restGrows other past
      · exact restPast other later

/-- An IROB without bytes that is ready makes `recv` fail. -/
theorem bytes_ne_nil_of_total (valid : contents.Valid) (total : (conforming contents).Total)
    (reached : (conforming contents).Reachable receiver) (clear : receiver.lattice.Clear)
    (inRange : id.InRange) (final : (contents id).final = true)
    (satisfied : ∀ dep ∈ (contents id).deps,
      receiver.lattice.irobs.pastIrobs.contains dep = true) : (contents id).bytes ≠ [] := by
  intro empty
  by_cases past : receiver.lattice.irobs.pastIrobs.contains id = true
  · exact ((grounded_of_reachable valid reached).of_past
      (ordered_of_reachable reached.of_restrict) past).2 empty
  · rw [Bool.not_eq_true] at past
    obtain ⟨last, irob, lastReached, -, lastClear, found, ready, -⟩ :=
      reach_ready valid reached clear inRange final past satisfied
    have sound : ReceiverLattice.Sound contents (fun _ => False) none last.lattice
      last.history := sound_of_reachable valid lastReached
    obtain ⟨popped, getting, same, -, inHand⟩ :=
      sound.getReadyIrob_only lastClear inRange found ready
    obtain ⟨after, moved⟩ := total last (.recv 1 ⟨false, false⟩) lastReached ⟨rfl, trivial⟩
    have trapped : last.lattice.recv 1 ⟨false, false⟩ = none := by
      unfold ReceiverLattice.recv recvLoop
      simp only [getting, Option.bind_eq_bind, Option.bind_some,
        inHand.passBytes_empty inRange (same ▸ found) ready empty, Option.bind_none]
    obtain ⟨result, returned, -⟩ := Option.map_eq_some_iff.mp moved
    cases trapped.symm.trans returned

/-- What can be delivered is delivered in some run, if no step of a run fails. -/
theorem reach_past (valid : contents.Valid) (total : (conforming contents).Total)
    (deliverable : contents.Deliverable id) :
    (contents id).bytes ≠ [] ∧ ∀ receiver, (conforming contents).Reachable receiver →
      receiver.lattice.Clear → ∃ next, (conforming contents).Reachable next ∧
        next.lattice.Clear ∧ next.lattice.irobs.pastIrobs.contains id = true ∧
        ∀ query, receiver.lattice.irobs.pastIrobs.contains query = true →
          next.lattice.irobs.pastIrobs.contains query = true := by
  induction deliverable with
  | @intro id inRange final _ ih =>
      have someBytes : (contents id).bytes ≠ [] := by
        obtain ⟨next, reached, clear, satisfied, -⟩ := reach_each (fun dep listed =>
          (ih dep listed).2) (.initial rfl : (conforming contents).Reachable Receiver.empty)
          fun query irob _ found => nomatch found.symm.trans (IrobLattice.find_empty query)
        exact bytes_ne_nil_of_total valid total reached clear inRange final satisfied
      refine ⟨someBytes, fun receiver reached clear => ?_⟩
      obtain ⟨next, nextReached, nextClear, satisfied, grows⟩ :=
        reach_each (fun dep listed => (ih dep listed).2) reached clear
      by_cases past : next.lattice.irobs.pastIrobs.contains id = true
      · exact ⟨next, nextReached, nextClear, past, grows⟩
      · rw [Bool.not_eq_true] at past
        obtain ⟨last, irob, lastReached, same, lastClear, found, ready, undelivered⟩ :=
          reach_ready valid nextReached nextClear inRange final past satisfied
        obtain ⟨final, finalReached, finalClear, delivered, finalGrows⟩ :=
          reach_delivered valid lastReached lastClear inRange found ready undelivered someBytes
        exact ⟨final, finalReached, finalClear, delivered, fun query contained =>
          finalGrows query (same ▸ grows query contained)⟩

/-! ### No failing call -/

/-- The application reads from a socket. -/
def readOn (receiver : Receiver) (mode : Nat → ReadMode) (len : Nat) (flags : RecvFlags) :
    Option Receiver :=
  (receiver.lattice.recvLoopOn mode len 0 len flags).map fun result =>
    ⟨result.1, handed flags result.2.1 ++ receiver.history⟩

/-- The receiver under conforming messages, with the modes in which `recv` finds the socket. -/
def serving (contents : Contents) : Machine Receiver (ReceiverEvent × (Nat → ReadMode)) where
  initial := (conforming contents).initial
  permitted receiver event := (conforming contents).permitted receiver event.1
  step receiver event := match event.1 with
    | .message message => (receiver.receive message).map Prod.fst
    | .recv len flags => receiver.readOn event.2 len flags

theorem readOn_eq (receiver : Receiver) (mode : Nat → ReadMode) (len : Nat) (flags : RecvFlags) :
    receiver.readOn mode len flags = receiver.read len flags := by
  unfold readOn read ReceiverLattice.recv
  rw [← recvLoopOn_eq mode len receiver.lattice 0 len flags, Option.map_map]
  rfl

theorem serving_step (receiver : Receiver) (event : ReceiverEvent) (mode : Nat → ReadMode) :
    (serving contents).step receiver (event, mode) =
      (conforming contents).step receiver event := by
  cases event with
  | message message => rfl
  | recv len flags => exact readOn_eq receiver mode len flags

theorem serving_reachable : (serving contents).Reachable receiver ↔
    (conforming contents).Reachable receiver := by
  constructor
  · intro reached
    induction reached with
    | initial first => exact .initial first
    | @step before after event _ permitted moved ih =>
        exact ih.step permitted ((serving_step before event.1 event.2).symm.trans moved)
  · intro reached
    induction reached with
    | initial first => exact .initial first
    | @step before after event _ permitted moved ih =>
        have mode : Nat → ReadMode := fun _ => ⟨false, false⟩
        have allowed : (serving contents).permitted before (event, mode) := permitted
        exact ih.step allowed ((serving_step before event mode).trans moved)

/-- No `ASSERT` fails in any run exactly if every IROB that can be delivered has bytes. -/
theorem serving_total_iff (valid : contents.Valid) : (serving contents).Total ↔
    ∀ id, contents.Deliverable id → (contents id).bytes ≠ [] := by
  constructor
  · intro total id deliverable
    refine (reach_past valid (fun receiver event reached permitted => ?_) deliverable).1
    have mode : Nat → ReadMode := fun _ => ⟨false, false⟩
    obtain ⟨after, moved⟩ :=
      total receiver (event, mode) (serving_reachable.mpr reached) permitted
    exact ⟨after, (serving_step receiver event mode).symm.trans moved⟩
  · rintro someBytes receiver ⟨event, mode⟩ served permitted
    have reached := serving_reachable.mp served
    have sound := sound_of_reachable valid reached
    rw [serving_step]
    cases event with
    | message message =>
        obtain ⟨next, verdict, receiving, -⟩ := sound.receive valid permitted.1 permitted.2
        refine ⟨next, ?_⟩
        change (receiver.receive message).map Prod.fst = some next
        rw [receiving]
        rfl
    | recv len flags =>
        rcases (grounded_of_reachable valid reached).recvLoop
          (ordered_of_reachable reached.of_restrict) sound permitted.1 (le_refl len) with
          ⟨⟨id, deliverable, empty⟩, -⟩ | ⟨next, deliveries, looping, -⟩
        · exact (someBytes id deliverable empty).elim
        · exact ⟨_, Option.map_eq_some_iff.mpr ⟨(next, deliveries), looping, rfl⟩⟩

/-- Two IROBs with bytes, the second of which depends on the first. -/
theorem serving_total_iff_chain : chainContents.Valid ∧ ((serving chainContents).Total ↔
    ∀ id, chainContents.Deliverable id → (chainContents id).bytes ≠ []) :=
  ⟨chain_valid, serving_total_iff chain_valid⟩

/-- One IROB that was ended before any data was added. -/
def emptyContents : Contents := fun id => ⟨[], 0, [], decide (id = 0)⟩

/-- Begun and ended with 0 bytes and 0 chunks, an IROB is ready, and the next `recv` fails an
`ASSERT`. -/
theorem empty_irob_trapped : emptyContents.Valid ∧ ∃ receiver,
    (serving emptyContents).Reachable receiver ∧
    (serving emptyContents).permitted receiver (.recv 1 ⟨false, false⟩, fun _ => ⟨false, false⟩) ∧
    (serving emptyContents).step receiver (.recv 1 ⟨false, false⟩, fun _ => ⟨false, false⟩) =
      none := by
  refine ⟨⟨fun id block member => (List.not_mem_nil member).elim,
    fun id dep member => (List.not_mem_nil member).elim⟩, ?_⟩
  have ran : ∃ receiver, (conforming emptyContents).run empty
      [.message (.beginIrob 0 [] 0), .message (.endIrob 0 0 0)] = some receiver ∧
      receiver.lattice.recv 1 ⟨false, false⟩ = none := ⟨_, rfl, rfl⟩
  obtain ⟨receiver, reached, trapped⟩ := ran
  refine ⟨receiver, serving_reachable.mpr (Machine.Reachable.run (.initial rfl) reached),
    ⟨rfl, trivial⟩, ?_⟩
  rw [serving_step]
  change receiver.read 1 ⟨false, false⟩ = none
  unfold read
  rw [trapped]
  rfl

end Receiver

end Libcmm
