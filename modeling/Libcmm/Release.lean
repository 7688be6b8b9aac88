import Libcmm.Incoming

/-! # Release and delivery

`recv` takes released IROBs, hands their bytes over and, when an IROB is used up,
erases it and releases the dependents that this made ready. Under conforming
messages the invariant of the receiving side holds between any two steps of a run
and no step fails an `ASSERT` or throws. From it follow the guarantees of a run:
the ready IROBs are exactly those queued for `recv`, each queued once, and the
bytes `recv` returns of an IROB are the beginning of its bytes, each returned
once.
-/

namespace Libcmm

open Lib

namespace ReceiverLattice

open ReceiverIrob

/-! ### One turn of `recv` -/

section

variable {state : ReceiverLattice} {content : IrobContent} {taken : List Byte} {len : Nat}
  {flags : RecvFlags} {irob after : ReceiverIrob}

/-- What `remove_bytes` has made of an IROB from which a turn takes up to `len` bytes. -/
structure Removed (content : IrobContent) (taken : List Byte) (len : Nat)
    (irob after : ReceiverIrob) : Prop where
  reading : Reading content (taken ++ irob.unread.take len) after
  links : PendingIrob.SameLinks after irob
  released : after.own.released = irob.own.released
  left : after.own.numBytes = (irob.unread.length - len : Nat)

theorem Removed.unread_eq_nil (removed : Removed content taken len irob after)
    (usedUp : after.own.numBytes = 0) : after.unread = [] := by
  have counted := removed.reading.counted
  rw [usedUp] at counted
  exact List.length_eq_zero_iff.mp (Int.ofNat_eq_zero.mp counted.symm)

theorem Removed.ready (removed : Removed content taken len irob after) (ready : Ready irob) :
    Ready after := by
  refine ⟨removed.links.placeholder.trans ready.1, removed.reading.isComplete_eq, ?_⟩
  rw [removed.links.deps]
  exact ready.2.2

theorem isReady_of_ready (ready : Ready irob) : irob.isReady = true := by
  rw [isReady, ready.1, ready.2.2]
  rfl

theorem numBytes_ne_zero (reading : Reading content taken irob) (unread : irob.unread ≠ []) :
    irob.own.numBytes ≠ 0 := by
  have some' := List.length_pos_iff.mpr unread
  rw [reading.counted]
  omega

/-- A turn that peeks removes nothing: the IROB is put back as it is. -/
theorem passBytes_peek (reading : Reading content taken irob) (ready : Ready irob)
    (unread : irob.unread ≠ []) (found : state.irobs.find irob.id = some irob)
    (noHalf : state.partiallyReadIrob = none) (wanted : 0 < len) (peek : flags.peek = true) :
    state.passBytes irob.id irob len flags = some ({ state with partiallyReadIrob := some irob.id },
      ⟨irob.id, irob.sendLabels, irob.unread.take len, irob.own.numBytes, state.irobs.pastIrobs⟩,
      false) := by
  unfold ReceiverLattice.passBytes
  simp only [ready.2.1, numBytes_ne_zero reading unread, isReady_of_ready ready,
    reading.readData_eq wanted, peek, Option.bind_eq_bind, Option.bind_some, Bool.true_eq_false,
    or_self, ↓reduceIte, Bool.true_and, decide_false, Bool.false_eq_true, noHalf,
    Option.isSome_none, IrobLattice.update_same found]

/-- A turn that reads removes what it copies; an IROB that is used up is erased and its
dependents are released. -/
theorem passBytes_taken (reading : Reading content taken irob) (ready : Ready irob)
    (unread : irob.unread ≠ []) (noHalf : state.partiallyReadIrob = none) (wanted : 0 < len)
    (plain : flags.peek = false) :
    ∃ after, Removed content taken len irob after ∧
      state.passBytes irob.id irob len flags =
        if after.own.numBytes = 0 then
          (releaseDependents { state with irobs :=
            ((state.irobs.update irob.id fun _ => after).erase irob.id true).1 }
              after.dependents.toList).map (·, ⟨irob.id, irob.sendLabels, irob.unread.take len,
                after.own.numBytes, state.irobs.pastIrobs⟩, true)
        else
          some ({ state with
              irobs := state.irobs.update irob.id fun _ => after
              partiallyReadIrob := some irob.id },
            ⟨irob.id, irob.sendLabels, irob.unread.take len, after.own.numBytes,
              state.irobs.pastIrobs⟩, false) := by
  have some' := List.length_pos_iff.mpr unread
  have count : (irob.unread.take len).length = min len irob.unread.length := List.length_take
  have retake : irob.unread.take (irob.unread.take len).length = irob.unread.take len := by
    rw [count, ← List.take_eq_take_min]
  obtain ⟨after, removing, next⟩ :=
    reading.removeBytes_eq (show 0 < (irob.unread.take len).length by omega)
  rw [retake] at next
  have same := removeBytes_sameButRead removing
  have left : after.own.numBytes = (irob.unread.length - len : Nat) := by
    have total := congrArg List.length (next.bytes.trans reading.bytes.symm)
    simp only [List.length_append, List.length_take] at total
    rw [next.counted]
    congr 1
    omega
  refine ⟨after, ⟨next, same.kept.links, same.released, left⟩, ?_⟩
  unfold ReceiverLattice.passBytes
  simp only [ready.2.1, numBytes_ne_zero reading unread, isReady_of_ready ready,
    reading.readData_eq wanted, plain, removing, next.isComplete_eq, Option.bind_eq_bind,
    Option.bind_some, Bool.true_eq_false, Bool.false_eq_true, or_self, ↓reduceIte, Bool.true_and,
    decide_eq_true_eq, noHalf, Option.isSome_none]
  split_ifs
  · rw [Option.map_eq_bind]
    rfl
  · rfl

end

namespace Sound

variable {contents : Contents} {hand : Option IrobId} {state : ReceiverLattice}
  {history : List Observation} {id : IrobId}

/-- `get_ready_irob` takes a released IROB in hand, or finds none. -/
theorem getReadyIrob (sound : Sound contents (fun _ => False) none state history) :
    ∃ ready popped, state.getReadyIrob = some (ready, popped) ∧ match ready with
      | none => Sound contents (fun _ => False) none popped history
      | some (id, irob) => id.InRange ∧ popped.irobs.find id = some irob ∧ Ready irob ∧
          popped.partiallyReadIrob = none ∧
          Sound contents (fun _ => False) (some id) popped history := by
  unfold ReceiverLattice.getReadyIrob
  cases half : state.partiallyReadIrob with
  | some id =>
      obtain ⟨inRange, irob, found, flag⟩ := (sound.queued.places id).mp (.inr (.inl half))
      have ready := (sound.pending id irob inRange found).2.ready flag
      simp only [found, Option.bind_eq_bind, Option.bind_some, ready.2.1, ↓reduceIte]
      refine ⟨_, _, rfl, inRange, found, ready, rfl, sound.wf,
        sound.pending, sound.unseen, sound.past, ⟨fun query => ?_, sound.queued.nodup, ?_⟩⟩
      · rw [← sound.queued.places query, half]
        simp only [reduceCtorEq, or_false, false_or]
        rfl
      · rintro query (none | held)
        · cases none
        · cases held
          exact sound.queued.apart _ (.inl half)
  | none =>
      simp only
      cases tasks : state.readyIrobs.tasks with
      | nil =>
          exact ⟨none, _, rfl, sound.wf, sound.pending, sound.unseen, sound.past,
            sound.queued.congr (by rw [popReady, ← tasks]) half.symm fun _ _ => Iff.rfl⟩
      | cons task rest =>
          have ids : state.readyIds = task.id :: rest.map (·.id) := by
            rw [readyIds, tasks, List.map_cons]
          have nodup := sound.queued.nodup
          rw [ids] at nodup
          obtain ⟨unlisted, restNodup⟩ := List.nodup_cons.mp nodup
          obtain ⟨inRange, irob, found, flag⟩ := (sound.queued.places task.id).mp
            (.inl (by rw [ids]; exact List.mem_cons_self))
          have ready := (sound.pending task.id irob inRange found).2.ready flag
          simp only [popReady, found]
          refine ⟨_, _, rfl, inRange, found, ready, rfl, sound.wf,
            sound.pending, sound.unseen, sound.past, ⟨fun query => ?_, restNodup, ?_⟩⟩
          · rw [← sound.queued.places query, ids, half]
            simp only [readyIds, reduceCtorEq, or_false, false_or, List.mem_cons,
              Option.some.injEq]
            rw [or_comm, eq_comm]
          · rintro query (none | held)
            · cases none
            · cases held
              exact unlisted

/-- The IROB in hand is put back, to be read on from by the next call. -/
theorem putBack (sound : Sound contents (fun _ => False) (some id) state history)
    (noHalf : state.partiallyReadIrob = none) :
    Sound contents (fun _ => False) none { state with partiallyReadIrob := some id } history := by
  refine ⟨sound.wf, sound.pending, sound.unseen, sound.past, ⟨fun query => ?_,
    sound.queued.nodup, ?_⟩⟩
  · rw [← sound.queued.places query, noHalf]
    simp only [reduceCtorEq, or_false, false_or]
    rfl
  · rintro query (held | none)
    · exact sound.queued.apart query (.inr held)
    · cases none

/-- The IROB in hand is used up and erased: its dependents may have become ready. -/
theorem erase (sound : Sound contents (fun _ => False) (some id) state history)
    (inRange : id.InRange) {irob after : ReceiverIrob} (found : state.irobs.find id = some irob)
    (links : PendingIrob.SameLinks after irob) (noHalf : state.partiallyReadIrob = none)
    (later : List Observation) (final : (contents id).final = true)
    (delivered : deliveredBytes later id = (contents id).bytes)
    (undelivered : ∀ query, query ≠ id →
      deliveredBytes later query = deliveredBytes history query) :
    Sound contents (fun query => query ∈ after.dependents) none
      { state with irobs := ((state.irobs.update id fun _ => after).erase id true).1 } later := by
  obtain ⟨erasedWf, past, erasedFind⟩ := sound.wf.find_write_erase inRange found links
  have pastIff : ∀ query, ((state.irobs.update id fun _ => after).erase id true).1.pastIrobs.contains
      query = (decide (query = id) || state.irobs.pastIrobs.contains query) := by
    intro query
    rw [past, IntSet.contains_insert]
  refine ⟨erasedWf, ?_, ?_, ?_, ⟨fun query => ?_, sound.queued.nodup, ?_⟩⟩
  · intro query other queryRange held
    rw [erasedFind query queryRange] at held
    by_cases same : query = id
    · rw [if_pos same] at held
      cases held
    rw [if_neg same] at held
    simp only [pastIff, same, decide_false, Bool.false_or, undelivered query same]
    split_ifs at held with dependent
    · obtain ⟨before, beforeFound, rfl⟩ := Option.map_eq_some_iff.mp held
      obtain ⟨fresh, pending⟩ := sound.pending query before queryRange beforeFound
      have data : SameData (before.depSatisfied id) before := ⟨rfl, rfl, rfl, rfl, rfl⟩
      refine ⟨fresh, pending.phase.congr data, fun flag => ?_, fun _ => .inr dependent⟩
      obtain ⟨real, complete, satisfied⟩ := pending.ready flag
      refine ⟨real, data.isComplete_eq.trans complete, ?_⟩
      rw [OrderedSet.isEmpty_iff] at satisfied ⊢
      exact fun dep member => satisfied dep (OrderedSet.mem_erase.mp member).1
    · obtain ⟨fresh, pending⟩ := sound.pending query other queryRange held
      exact ⟨fresh, pending.phase, pending.ready, fun ready =>
        (pending.released ready).imp_right False.elim⟩
  · intro query absent fresh
    simp only [pastIff, Bool.or_eq_false_iff, decide_eq_false_iff_not] at fresh
    rw [undelivered query fresh.1]
    refine sound.unseen query (fun queryRange => ?_) fresh.2
    have none := absent queryRange
    rw [erasedFind query queryRange, if_neg fresh.1] at none
    split_ifs at none
    · exact Option.map_eq_none_iff.mp none
    · exact none
  · intro query contained
    simp only [pastIff, Bool.or_eq_true, decide_eq_true_eq] at contained
    by_cases same : query = id
    · subst same
      exact ⟨final, delivered⟩
    · rw [undelivered query same]
      exact sound.past query (contained.resolve_left same)
  · have placesBefore := sound.queued.places query
    rw [noHalf] at placesBefore
    simp only [reduceCtorEq, false_or, Option.some.injEq] at placesBefore
    simp only [noHalf, reduceCtorEq, or_false]
    change query ∈ state.readyIds ↔ _
    by_cases same : query = id
    · subst same
      refine iff_of_false (sound.queued.apart query (.inr rfl)) ?_
      rintro ⟨queryRange, irob, held, -⟩
      rw [erasedFind query queryRange, if_pos rfl] at held
      cases held
    · rw [eq_comm, or_iff_left same] at placesBefore
      rw [placesBefore]
      refine and_congr_right fun queryRange => ?_
      unfold ReleasedAt
      rw [erasedFind query queryRange, if_neg same]
      split_ifs
      · constructor
        · rintro ⟨held, heldEq, flag⟩
          exact ⟨held.depSatisfied id, by rw [heldEq]; rfl, flag⟩
        · rintro ⟨held, heldEq, flag⟩
          obtain ⟨before, beforeFound, rfl⟩ := Option.map_eq_some_iff.mp heldEq
          exact ⟨before, beforeFound, flag⟩
      · exact Iff.rfl
  · rintro query (held | none)
    · rw [show state.partiallyReadIrob = some query from held] at noHalf
      cases noHalf
    · cases none

/-- An IROB without bytes fails an `ASSERT` of the loop of `recv`. -/
theorem passBytes_empty {irob : ReceiverIrob}
    (sound : Sound contents (fun _ => False) (some id) state history) (inRange : id.InRange)
    (found : state.irobs.find id = some irob) (ready : Ready irob)
    (empty : (contents id).bytes = []) (len : Nat) (flags : RecvFlags) :
    state.passBytes id irob len flags = none := by
  obtain ⟨-, pending⟩ := sound.pending id irob inRange found
  obtain ⟨reading, -⟩ := pending.phase.toReading ready.2.1
  have bytes := reading.bytes
  rw [empty] at bytes
  have none : irob.own.numBytes = 0 := by
    rw [reading.counted, (List.append_eq_nil_iff.mp bytes).2]
    rfl
  unfold ReceiverLattice.passBytes
  rw [ready.2.1]
  exact if_pos (.inl none)

/-- One turn of the loop of `recv` hands over the next bytes of the IROB in hand. -/
theorem passBytes {irob : ReceiverIrob}
    (sound : Sound contents (fun _ => False) (some id) state history) (inRange : id.InRange)
    (found : state.irobs.find id = some irob) (ready : Ready irob)
    (someBytes : (contents id).bytes ≠ [])
    (noHalf : state.partiallyReadIrob = none) {len : Nat} (wanted : 0 < len) (flags : RecvFlags) :
    ∃ next delivery done, state.passBytes id irob len flags = some (next, delivery, done) ∧
      0 < delivery.bytes.length ∧ delivery.bytes.length ≤ len ∧
      delivery.past.contains delivery.id = false ∧
      Sound contents (fun _ => False) none next (Receiver.handed flags [delivery] ++ history) := by
  have named := sound.wf.find_id inRange found
  subst named
  obtain ⟨fresh, pending⟩ := sound.pending irob.id irob inRange found
  obtain ⟨reading, left⟩ := pending.phase.toReading ready.2.1
  have unread : irob.unread ≠ [] := left.resolve_left someBytes
  have some' : 0 < irob.unread.length := List.length_pos_iff.mpr unread
  have count : (irob.unread.take len).length = min len irob.unread.length := List.length_take
  have copied : 0 < (irob.unread.take len).length := by omega
  have atMost : (irob.unread.take len).length ≤ len := by omega
  by_cases peek : flags.peek = true
  · refine ⟨_, _, _, passBytes_peek reading ready unread found noHalf wanted peek, copied, atMost,
      fresh, ?_⟩
    rw [Receiver.handed, if_pos peek, List.nil_append]
    exact putBack sound noHalf
  rw [Bool.not_eq_true] at peek
  simp only [Receiver.handed_singleton peek]
  obtain ⟨after, removed, turn⟩ := passBytes_taken reading ready unread noHalf wanted peek
  by_cases done : after.own.numBytes = 0
  · rw [if_pos done] at turn
    have all := removed.reading.bytes
    rw [removed.unread_eq_nil done, List.append_nil] at all
    have erased := sound.erase inRange found removed.links noHalf
      (.delivered ⟨irob.id, irob.sendLabels, irob.unread.take len, after.own.numBytes,
        state.irobs.pastIrobs⟩ :: history) reading.final
      ((deliveredBytes_own _ _ rfl).trans all) fun _ other => deliveredBytes_other _ _ other
    have ranged : ∀ dependent ∈ after.dependents.toList, dependent.InRange := by
      rw [removed.links.dependents]
      exact sound.wf.find_dependents inRange found
    obtain ⟨last, releasing, lastSound⟩ := erased.releaseDependents ranged
    rw [releasing] at turn
    exact ⟨_, _, _, turn, copied, atMost, fresh,
      lastSound.weaken fun query open' => open'.1 open'.2⟩
  · rw [if_neg done] at turn
    refine ⟨_, _, _, turn, copied, atMost, fresh, ?_⟩
    have own := deliveredBytes_own ⟨irob.id, irob.sendLabels, irob.unread.take len,
      after.own.numBytes, state.irobs.pastIrobs⟩ history rfl
    have more : after.unread ≠ [] := by
      intro none
      rw [removed.reading.counted, none] at done
      exact done rfl
    have begun : deliveredBytes history irob.id ++ irob.unread.take len ≠ [] :=
      List.append_ne_nil_of_right_ne_nil _ (List.ne_nil_of_length_pos copied)
    have still := removed.ready ready
    have flag : after.own.released = true :=
      removed.released.trans ((pending.released ready).resolve_right id)
    refine putBack (sound.update _ inRange found removed.links removed.released
      ⟨.reading still.1 ?_ ?_ more, fun _ => still, fun _ => .inl flag⟩
      (fun _ _ => id) fun _ other => deliveredBytes_other _ _ other) noHalf
    · rw [own]
      exact removed.reading
    · rw [own]
      exact begun

/-- The loop of `recv` ends, unless it meets an IROB without bytes. What its turns keep besides
the invariant holds at its end, or when it meets that IROB. -/
theorem recvLoop_keeping {motive : IrobLattice ReceiverPart → List Observation → Prop}
    (sound : Sound contents (fun _ => False) none state history) (flags : RecvFlags)
    (turn : ∀ (state next : ReceiverLattice) (history : List Observation) (id : IrobId)
      (irob : ReceiverIrob) (len : Nat) (delivery : Delivery) (done : Bool),
      motive state.irobs history → Sound contents (fun _ => False) (some id) state history →
      id.InRange → state.irobs.find id = some irob → Ready irob → (contents id).bytes ≠ [] →
      state.passBytes id irob len flags = some (next, delivery, done) →
        motive next.irobs (Receiver.handed flags [delivery] ++ history))
    (start : motive state.irobs history) {turns len : Nat} (enough : len ≤ turns) :
    (∃ met late id irob, motive met.irobs late ∧
      Sound contents (fun _ => False) (some id) met late ∧ id.InRange ∧
      met.irobs.find id = some irob ∧ Ready irob ∧ (contents id).bytes = [] ∧
      ReceiverLattice.recvLoop turns state len flags = none) ∨
    ∃ next deliveries, ReceiverLattice.recvLoop turns state len flags = some (next, deliveries) ∧
      (∀ delivery ∈ deliveries, delivery.past.contains delivery.id = false) ∧
      Sound contents (fun _ => False) none next (Receiver.handed flags deliveries ++ history) ∧
      motive next.irobs (Receiver.handed flags deliveries ++ history) := by
  have ended : ∀ {state : ReceiverLattice} {history : List Observation},
      Sound contents (fun _ => False) none state history → motive state.irobs history →
        Sound contents (fun _ => False) none state (Receiver.handed flags [] ++ history) ∧
          motive state.irobs (Receiver.handed flags [] ++ history) := by
    intro state history held kept
    rw [Receiver.handed_nil, List.nil_append]
    exact ⟨held, kept⟩
  have none : ∀ delivery ∈ ([] : List Delivery), delivery.past.contains delivery.id = false :=
    fun _ member => (List.not_mem_nil member).elim
  induction turns generalizing state history len with
  | zero =>
      cases Nat.le_zero.mp enough
      exact .inr ⟨state, [], rfl, none, ended sound start⟩
  | succ turns ih =>
      cases len with
      | zero => exact .inr ⟨state, [], rfl, none, ended sound start⟩
      | succ len =>
          unfold ReceiverLattice.recvLoop
          obtain ⟨ready, popped, getting, held⟩ := sound.getReadyIrob
          have kept : motive popped.irobs history := (getReadyIrob_cases getting).1 ▸ start
          simp only [getting, Option.bind_eq_bind, Option.bind_some]
          cases ready with
          | none => exact .inr ⟨popped, [], rfl, none, ended held kept⟩
          | some found =>
              obtain ⟨id, irob⟩ := found
              obtain ⟨inRange, found, isReady', noHalf, inHand⟩ := held
              by_cases empty : (contents id).bytes = []
              · refine .inl ⟨popped, history, id, irob, kept, inHand, inRange, found, isReady',
                  empty, ?_⟩
                simp only [inHand.passBytes_empty inRange found isReady' empty, Option.bind_none]
              obtain ⟨next, delivery, done, passing, some', bound, fresh, nextSound⟩ :=
                inHand.passBytes inRange found isReady' empty noHalf (Nat.succ_pos len) flags
              have nextKept := turn popped next history id irob _ delivery done kept inHand inRange
                found isReady' empty passing
              simp only [passing, Option.bind_some]
              split_ifs with stop
              · refine .inr ⟨next, [delivery], rfl, fun other member => ?_, nextSound, nextKept⟩
                rw [List.mem_singleton.mp member]
                exact fresh
              · rcases ih nextSound nextKept
                  (show len + 1 - delivery.bytes.length ≤ turns by omega) with
                  ⟨met, late, id, irob, lateKept, lateSound, lateRange, lateFound, lateReady,
                    lateEmpty, trapped⟩ |
                  ⟨last, others, looping, othersFresh, lastSound, lastKept⟩
                · refine .inl ⟨met, late, id, irob, lateKept, lateSound, lateRange, lateFound,
                    lateReady, lateEmpty, ?_⟩
                  simp only [trapped, Option.bind_none]
                · simp only [looping, Option.bind_some]
                  refine .inr ⟨last, delivery :: others, rfl, fun other member => ?_, ?_⟩
                  · rcases List.mem_cons.mp member with rfl | later
                    · exact fresh
                    · exact othersFresh other later
                  · rw [Receiver.handed_cons]
                    exact ⟨lastSound, lastKept⟩

/-- The loop of `recv` ends, unless there is an IROB without bytes. -/
theorem recvLoop (sound : Sound contents (fun _ => False) none state history) (flags : RecvFlags)
    {turns len : Nat} (enough : len ≤ turns) :
    ((∃ id, (contents id).final = true ∧ (contents id).bytes = []) ∧
      ReceiverLattice.recvLoop turns state len flags = none) ∨
    ∃ next deliveries, ReceiverLattice.recvLoop turns state len flags = some (next, deliveries) ∧
      (∀ delivery ∈ deliveries, delivery.past.contains delivery.id = false) ∧
      Sound contents (fun _ => False) none next (Receiver.handed flags deliveries ++ history) := by
  rcases sound.recvLoop_keeping (motive := fun _ _ => True) flags
    (fun _ _ _ _ _ _ _ _ _ _ _ _ _ _ _ => trivial) trivial enough with
    ⟨met, late, id, irob, -, lateSound, inRange, found, ready, empty, trapped⟩ |
    ⟨next, deliveries, looping, fresh, nextSound, -⟩
  · have phase := (lateSound.pending id irob inRange found).2.phase
    exact .inl ⟨⟨id, (phase.toReading ready.2.1).1.final, empty⟩, trapped⟩
  · exact .inr ⟨next, deliveries, looping, fresh, nextSound⟩

end Sound

end ReceiverLattice

namespace Receiver

open ReceiverLattice ReceiverIrob

/-- The invariant between two steps. -/
def Sound (contents : Contents) (receiver : Receiver) : Prop :=
  ReceiverLattice.Sound contents (fun _ => False) none receiver.lattice receiver.history

variable {contents : Contents} {receiver : Receiver}

/-- A conforming message is taken, and acknowledged only if the receiver holds its
IROB. -/
theorem Sound.receive (sound : receiver.Sound contents) (valid : contents.Valid)
    {message : Message} (inRange : message.id.InRange) (conforms : contents.Conforms message) :
    ∃ next verdict, receiver.receive message = some (next, verdict) ∧ next.Sound contents ∧
      (verdict = .taken ∨ verdict = .duplicate) := by
  obtain ⟨handled, handling, handles⟩ := ReceiverLattice.Sound.dispatch sound valid inRange conforms
  refine ⟨_, _, Option.map_eq_some_iff.mpr ⟨handled, handling, rfl⟩, ?_, handles.clean⟩
  exact handles.sound.history_congr (deliveredBytes_observed message handled receiver.history)

/-- A call of `recv` that returns. -/
theorem Sound.of_read (sound : receiver.Sound contents) {len : Nat} {flags : RecvFlags}
    {next : Receiver} (reading : receiver.read len flags = some next) : next.Sound contents := by
  obtain ⟨⟨lattice, deliveries⟩, looping, rfl⟩ := Option.map_eq_some_iff.mp reading
  rcases ReceiverLattice.Sound.recvLoop sound flags (le_refl len) with
    ⟨-, trapped⟩ | ⟨last, others, ran, -, kept⟩
  · cases trapped.symm.trans looping
  · cases ran.symm.trans looping
    exact kept

/-- A call of `recv` returns. -/
theorem Sound.read (sound : receiver.Sound contents) (valid : contents.Valid)
    (nonempty : contents.Nonempty) (len : Nat) (flags : RecvFlags) :
    ∃ next, receiver.read len flags = some next := by
  rcases ReceiverLattice.Sound.recvLoop sound flags (le_refl len) with
    ⟨⟨id, final, empty⟩, -⟩ | ⟨next, deliveries, looping, -, -⟩
  · obtain ⟨block, member⟩ := List.exists_mem_of_ne_nil _ (nonempty id final)
    exact (valid.blocks id block member (List.flatten_eq_nil_iff.mp empty block member)).elim
  · exact ⟨_, Option.map_eq_some_iff.mpr ⟨(next, deliveries), looping, rfl⟩⟩

/-- The receiver when every message conforms to fixed contents. -/
def conforming (contents : Contents) : Machine Receiver ReceiverEvent :=
  machine.restrict fun _ event => match event with
    | .message message => contents.Conforms message
    | .recv _ _ => True

instance : ∀ receiver event, Decidable ((conforming contents).permitted receiver event)
  | _, .message message =>
      inferInstanceAs (Decidable (message.id.InRange ∧ contents.Conforms message))
  | _, .recv _ flags => inferInstanceAs (Decidable (flags.peek = false ∧ True))

theorem sound_of_reachable (valid : contents.Valid)
    (reached : (conforming contents).Reachable receiver) : receiver.Sound contents := by
  refine reached.induct ?_ ?_
  · rintro first rfl
    exact ReceiverLattice.Sound.empty contents
  · rintro before after event - sound ⟨permitted, conforms⟩ moved
    cases event with
    | message message =>
        obtain ⟨next, verdict, receiving, nextSound, -⟩ := sound.receive valid permitted conforms
        change (before.receive message).map Prod.fst = some after at moved
        rw [receiving] at moved
        cases moved
        exact nextSound
    | recv len flags => exact sound.of_read moved

/-- No step fails an `ASSERT`. -/
theorem conforming_total (valid : contents.Valid) (nonempty : contents.Nonempty) :
    (conforming contents).Total := by
  rintro state event reached ⟨permitted, conforms⟩
  have sound := sound_of_reachable valid reached
  cases event with
  | message message =>
      obtain ⟨next, verdict, receiving, -⟩ := sound.receive valid permitted conforms
      refine ⟨next, ?_⟩
      change (state.receive message).map Prod.fst = some next
      rw [receiving]
      rfl
  | recv len flags =>
      obtain ⟨next, reading⟩ := sound.read valid nonempty len flags
      exact ⟨next, reading⟩

/-- What is delivered of an IROB is the beginning of its bytes. -/
theorem Sound.delivered_beginning (sound : receiver.Sound contents) (id : IrobId) :
    deliveredBytes receiver.history id <+: (contents id).bytes := by
  by_cases past : receiver.lattice.irobs.pastIrobs.contains id = true
  · exact (ReceiverLattice.Sound.past sound id past).2 ▸ List.prefix_rfl
  · rw [Bool.not_eq_true] at past
    by_cases inRange : id.InRange
    · cases found : receiver.lattice.irobs.find id with
      | none =>
          rw [ReceiverLattice.Sound.unseen sound id (fun _ => found) past]
          exact List.nil_prefix
      | some irob =>
          cases (ReceiverLattice.Sound.pending sound id irob inRange found).2.phase with
          | receiving start _ =>
              rw [start]
              exact List.nil_prefix
          | reading _ reading _ _ => exact ⟨_, reading.bytes⟩
    · rw [ReceiverLattice.Sound.unseen sound id (fun ranged => (inRange ranged).elim) past]
      exact List.nil_prefix

/-- No lost and no double release: in every state of a conforming run the IROBs
that are ready are released and queued exactly once, nothing else is queued, what
`recv` has returned of an IROB is the beginning of its bytes, and no step traps. -/
theorem ready_released_once (valid : contents.Valid) (nonempty : contents.Nonempty)
    (reached : (conforming contents).Reachable receiver) :
    (receiver.lattice.irobs.Every fun irob => Ready irob → irob.own.released = true ∧
      ((receiver.lattice.readyIds.count irob.id = 1 ∧
          receiver.lattice.partiallyReadIrob ≠ some irob.id) ∨
        (receiver.lattice.readyIds.count irob.id = 0 ∧
          receiver.lattice.partiallyReadIrob = some irob.id))) ∧
    (∀ id ∈ receiver.lattice.readyIds, ∃ irob,
      receiver.lattice.irobs.find id = some irob ∧ Ready irob) ∧
    (∀ id, deliveredBytes receiver.history id <+: (contents id).bytes) ∧
    ∀ event, (conforming contents).permitted receiver event →
      ∃ next, (conforming contents).step receiver event = some next := by
  have sound := sound_of_reachable valid reached
  have queued := ReceiverLattice.Sound.queued sound
  refine ⟨fun key irob used ready => ?_, fun id listed => ?_, sound.delivered_beginning,
    fun event => conforming_total valid nonempty receiver event reached⟩
  · obtain ⟨inRange, found⟩ := (ReceiverLattice.Sound.wf sound).find_of_get used
    have released := ((ReceiverLattice.Sound.pending sound irob.id irob inRange found).2.released
      ready).resolve_right id
    refine ⟨released, ?_⟩
    rcases (queued.places irob.id).mpr ⟨inRange, irob, found, released⟩ with listed | half | none
    · exact .inl ⟨List.count_eq_one_of_mem queued.nodup listed, fun half =>
        queued.apart irob.id (.inl half) listed⟩
    · exact .inr ⟨List.count_eq_zero.mpr (queued.apart irob.id (.inl half)), half⟩
    · cases none
  · obtain ⟨inRange, irob, found, flag⟩ := (queued.places id).mp (.inl listed)
    exact ⟨irob, found, (ReceiverLattice.Sound.pending sound id irob inRange found).2.ready flag⟩

/-- Two IROBs, the second of which depends on the first. -/
def pairContents : Contents := fun id =>
  if id = 0 then ⟨[], 0, [[1], [2]], true⟩
  else if id = 1 then ⟨[0], 0, [[3]], true⟩
  else ⟨[], 0, [], false⟩

/-- Their messages out of order, then a read of one byte. -/
def pairEvents : List ReceiverEvent :=
  [.message (.irobChunk 1 0 0 [3]), .message (.beginIrob 1 [0] 0), .message (.endIrob 1 1 1),
    .message (.irobChunk 0 1 1 [2]), .message (.endIrob 0 2 2), .message (.beginIrob 0 [] 0),
    .message (.irobChunk 0 0 0 [1]), .recv 1 ⟨false, false⟩]

theorem pair_valid : pairContents.Valid ∧ pairContents.Nonempty := by
  refine ⟨⟨fun id => ?_, fun id => ?_⟩, fun id => ?_⟩ <;> unfold pairContents <;>
    split_ifs <;> simp [IrobId.InRange]

theorem pair_run : ∃ receiver, (conforming pairContents).run empty pairEvents = some receiver ∧
    receiver.lattice.partiallyReadIrob = some 0 := ⟨_, rfl, rfl⟩

theorem ready_released_once_pair : ∃ receiver, (conforming pairContents).Reachable receiver ∧
    receiver.lattice.partiallyReadIrob = some 0 ∧
    deliveredBytes receiver.history 0 <+: [1, 2] := by
  obtain ⟨receiver, ran, half⟩ := pair_run
  have reached := Machine.Reachable.run (.initial rfl) ran
  exact ⟨receiver, reached, half,
    (ready_released_once pair_valid.1 pair_valid.2 reached).2.2.1 0⟩

end Receiver

end Libcmm
