import Libcmm.Steady

/-! # Peeking

With `MSG_PEEK` the loop of `recv` copies bytes without removing them, and puts the IROB back
as the one partially read. That is a look-ahead as long as it wants no more than this IROB
holds: the call returns what a reading call would, and later calls find the same IROB first.
If it wants more, the loop picks the same IROB up again and copies its bytes once more, where a
reading call would have returned.
-/

namespace Libcmm

open Lib

namespace ReceiverLattice

open ReceiverIrob

/-- What a call of `recv` returns: the bytes it has passed, and the labels of the first IROB. -/
def returned (deliveries : List Delivery) : List Byte × Option Nat :=
  (deliveries.flatMap Delivery.bytes, deliveries.head?.map Delivery.sendLabels)

/-- What calls of `recv` return one after another. A failed `ASSERT` is the last. -/
def recvAll (state : ReceiverLattice) :
    List (Nat × RecvFlags) → List (Option (List Byte × Option Nat))
  | [] => []
  | (len, flags) :: rest =>
      match state.recv len flags with
      | none => [none]
      | some (next, deliveries) => some (returned deliveries) :: recvAll next rest

/-- The bytes left in the IROB that `get_ready_irob` returns next. -/
def nextBytes (state : ReceiverLattice) : Int :=
  match state.partiallyReadIrob with
  | some id => ((state.irobs.find id).map (·.own.numBytes)).getD 0
  | none => ((popReady state.irobs state.readyIrobs.tasks).1.map (·.2.own.numBytes)).getD 0

/-- `recv(len, MSG_PEEK)` returns what `recv(len, 0)` would, and later calls return what they
would have without it. -/
def PeekFaithful (state : ReceiverLattice) (len : Nat) : Prop :=
  ∃ peeked deliveries next others,
    state.recv len ⟨false, true⟩ = some (peeked, deliveries) ∧
    state.recv len ⟨false, false⟩ = some (next, others) ∧
    returned deliveries = returned others ∧ ∀ calls, peeked.recvAll calls = state.recvAll calls

variable {state popped : ReceiverLattice} {id : IrobId} {irob : ReceiverIrob}

/-- Calls of `recv` see of the lattice what `get_ready_irob` returns. -/
theorem recvAll_congr {first second : ReceiverLattice}
    (same : first.getReadyIrob = second.getReadyIrob) (calls : List (Nat × RecvFlags)) :
    first.recvAll calls = second.recvAll calls := by
  induction calls with
  | nil => rfl
  | cons call rest ih =>
      obtain ⟨len, flags⟩ := call
      cases len with
      | zero =>
          change some (returned []) :: first.recvAll rest = some (returned []) :: second.recvAll rest
          rw [ih]
      | succ len =>
          have calls : first.recv (len + 1) flags = second.recv (len + 1) flags := by
            unfold recv recvLoop
            rw [same]
          unfold recvAll
          rw [calls]

theorem nextBytes_eq (getting : state.getReadyIrob = some (some (id, irob), popped)) :
    state.nextBytes = irob.own.numBytes := by
  unfold getReadyIrob at getting
  unfold nextBytes
  cases half : state.partiallyReadIrob with
  | some id =>
      simp only [half] at getting
      obtain ⟨present, found, onward⟩ := Option.bind_eq_some_iff.mp getting
      obtain ⟨complete, -, onward⟩ := Option.bind_eq_some_iff.mp onward
      split_ifs at onward
      cases onward
      simp only [found, Option.map_some, Option.getD_some]
  | none =>
      simp only [half, Option.some.injEq, Prod.mk.injEq] at getting
      simp only [getting.1, Option.map_some, Option.getD_some]

/-- An IROB that was put back is the next again. -/
theorem getReadyIrob_putBack (found : popped.irobs.find id = some irob)
    (complete : irob.isComplete = some true) (noHalf : popped.partiallyReadIrob = none) :
    getReadyIrob { popped with partiallyReadIrob := some id } = some (some (id, irob), popped) := by
  unfold getReadyIrob
  simp only [found, Option.bind_eq_bind, Option.bind_some, complete, ↓reduceIte]
  rw [← noHalf]

/-- A peeking call copies the bytes of one IROB over and over until it has what it wants. -/
theorem peekLoop (steady : Steady (fun _ => False) (some id) popped) (inRange : id.InRange)
    (found : popped.irobs.find id = some irob) (ready : Ready irob)
    (noHalf : popped.partiallyReadIrob = none) (someBytes : irob.own.numBytes ≠ 0)
    {turns len : Nat} (enough : len ≤ turns)
    (getting : state.getReadyIrob = some (some (id, irob), popped)) (wanted : 0 < len) :
    ∃ delivery others, recvLoop turns state len ⟨false, true⟩ =
        some ({ popped with partiallyReadIrob := some id }, delivery :: others) ∧
      delivery.sendLabels = irob.sendLabels ∧ delivery.bytes = irob.unread.take len ∧
      ((delivery :: others).flatMap Delivery.bytes).length = len := by
  induction turns generalizing state len with
  | zero => exact absurd enough (Nat.not_le.mpr wanted)
  | succ turns ih =>
      obtain ⟨len, rfl⟩ := Nat.exists_eq_succ_of_ne_zero (Nat.ne_of_gt wanted)
      obtain ⟨next, delivery, done, passing, turn⟩ :=
        steady.passBytes inRange found ready noHalf someBytes wanted ⟨false, true⟩
      obtain ⟨rfl, rfl⟩ := turn.peeked rfl
      have copied : 0 < delivery.bytes.length := by
        obtain ⟨content, taken, reading⟩ :=
          (steady.stored id irob inRange found).1.toReading ready.2.1
        have counted := reading.counted
        rw [turn.bytes, List.length_take]
        omega
      have bound : delivery.bytes.length ≤ len + 1 := by
        rw [turn.bytes]
        exact List.length_take_le _ _
      unfold recvLoop
      simp only [getting, Option.bind_eq_bind, Option.bind_some, passing, Bool.false_and,
        Bool.false_eq_true, ↓reduceIte]
      cases left : len + 1 - delivery.bytes.length with
      | zero =>
          refine ⟨delivery, [], ?_, turn.sendLabels, turn.bytes, ?_⟩
          · cases turns <;> rfl
          · rw [List.flatMap_singleton]
            omega
      | succ more =>
          obtain ⟨again, others, looping, -, -, total⟩ := ih
            (show more + 1 ≤ turns by omega)
            (getReadyIrob_putBack found ready.2.1 noHalf) (Nat.succ_pos more)
          refine ⟨delivery, again :: others, ?_, turn.sendLabels, turn.bytes, ?_⟩
          · rw [looping]
            rfl
          · rw [List.flatMap_cons, List.length_append, total]
            omega

/-- A reading call without `MSG_WAITALL` returns after one turn. -/
theorem readLoop (steady : Steady (fun _ => False) (some id) popped) (inRange : id.InRange)
    (found : popped.irobs.find id = some irob) (ready : Ready irob)
    (noHalf : popped.partiallyReadIrob = none) (someBytes : irob.own.numBytes ≠ 0)
    {turns len : Nat} (enough : len ≤ turns)
    (getting : state.getReadyIrob = some (some (id, irob), popped)) (wanted : 0 < len) :
    ∃ next delivery, recvLoop turns state len ⟨false, false⟩ = some (next, [delivery]) ∧
      delivery.sendLabels = irob.sendLabels ∧ delivery.bytes = irob.unread.take len := by
  obtain ⟨len, rfl⟩ := Nat.exists_eq_succ_of_ne_zero (Nat.ne_of_gt wanted)
  obtain ⟨turns, rfl⟩ := Nat.exists_eq_succ_of_ne_zero (show turns ≠ 0 by omega)
  obtain ⟨next, delivery, done, passing, turn⟩ :=
    steady.passBytes inRange found ready noHalf someBytes wanted ⟨false, false⟩
  refine ⟨next, delivery, ?_, turn.sendLabels, turn.bytes⟩
  unfold recvLoop
  simp only [getting, Option.bind_eq_bind, Option.bind_some, passing]
  cases stopped : done with
  | true => rfl
  | false =>
      -- the IROB has more than was wanted
      have more : ¬irob.unread.length ≤ len + 1 := fun fits => by
        rw [(turn.consumed rfl).mpr fits] at stopped
        cases stopped
      have all : len + 1 - delivery.bytes.length = 0 := by
        rw [turn.bytes, List.length_take]
        omega
      simp only [Bool.false_and, Bool.false_eq_true, ↓reduceIte]
      rw [all]
      cases turns <;> rfl

end ReceiverLattice

namespace Receiver

open ReceiverLattice ReceiverIrob

/-- `MSG_PEEK` is a faithful look-ahead exactly when it wants no more than the next IROB
holds. -/
theorem peek_faithful_iff {receiver : Receiver} (reached : unscripted.Reachable receiver)
    (ready : ∃ (id : IrobId) (irob : ReceiverIrob), id.InRange ∧
      receiver.lattice.irobs.find id = some irob ∧ Ready irob ∧ irob.own.numBytes ≠ 0)
    {len : Nat} (wanted : 1 ≤ len) :
    receiver.lattice.PeekFaithful len ↔ (len : Int) ≤ receiver.lattice.nextBytes := by
  have steady := steady_of_reachable reached
  obtain ⟨taken, popped, getting, same, noHalf, held⟩ := steady.getReadyIrob
  cases taken with
  | none =>
      obtain ⟨id, irob, inRange, found, isReady, -⟩ := ready
      exact (held.2 id irob inRange found isReady).elim
  | some pair =>
      obtain ⟨id, irob⟩ := pair
      obtain ⟨inRange, found, isReady, inHand⟩ := held
      have poppedFound : popped.irobs.find id = some irob := same ▸ found
      rw [nextBytes_eq getting]
      by_cases empty : irob.own.numBytes = 0
      · -- an IROB without bytes fails an ASSERT of either call
        refine iff_of_false ?_ (by omega)
        rintro ⟨peeked, deliveries, -, -, peeking, -⟩
        obtain ⟨len, rfl⟩ := Nat.exists_eq_succ_of_ne_zero (Nat.ne_of_gt wanted)
        unfold ReceiverLattice.recv recvLoop at peeking
        have refused : popped.passBytes id irob (len + 1) ⟨false, true⟩ = none := by
          unfold passBytes
          rw [isReady.2.1]
          exact if_pos (.inl empty)
        simp only [getting, Option.bind_eq_bind, Option.bind_some, refused, Option.bind_none,
          reduceCtorEq] at peeking
      · obtain ⟨content, read, reading⟩ :=
          (inHand.stored id irob inRange poppedFound).1.toReading isReady.2.1
        have counted := reading.counted
        obtain ⟨first, others, peeking, labels, bytes, total⟩ := peekLoop inHand inRange poppedFound
          isReady noHalf empty (le_refl len) getting wanted
        obtain ⟨next, delivery, plain, plainLabels, plainBytes⟩ := readLoop inHand inRange
          poppedFound isReady noHalf empty (le_refl len) getting wanted
        constructor
        · rintro ⟨peeked, deliveries, after, passed, peeks, reads, equal, -⟩
          cases peeking.symm.trans peeks
          cases plain.symm.trans reads
          have lengths := congrArg (fun result => result.1.length) equal
          unfold returned at lengths
          simp only [total, List.flatMap_singleton, plainBytes, List.length_take] at lengths
          omega
        · intro fits
          have none : others.flatMap Delivery.bytes = [] := by
            rw [List.flatMap_cons, List.length_append, bytes, List.length_take] at total
            apply List.length_eq_zero_iff.mp
            omega
          refine ⟨_, _, next, _, peeking, plain, ?_, fun calls => ?_⟩
          · unfold returned
            rw [List.flatMap_cons, none, List.append_nil, List.flatMap_singleton, bytes, plainBytes]
            simp only [List.head?_cons, Option.map_some, labels, plainLabels]
          · exact recvAll_congr
              ((getReadyIrob_putBack poppedFound isReady.2.1 noHalf).trans getting.symm) calls

/-- One IROB of one byte arrives. -/
def oneByteEvents : List ReceiverEvent :=
  [.message (.beginIrob 0 [] 5), .message (.irobChunk 0 0 0 [7]), .message (.endIrob 0 1 1)]

theorem one_byte_run : ∃ receiver, unscripted.run empty oneByteEvents = some receiver ∧
    (∃ irob : ReceiverIrob, receiver.lattice.irobs.find 0 = some irob ∧
      irob.placeholder = false ∧ irob.isComplete = some true ∧ irob.deps.isEmpty = true ∧
      irob.own.numBytes = 1) ∧
    receiver.lattice.nextBytes = 1 ∧
    (receiver.lattice.recv 2 ⟨false, true⟩).map (fun result => returned result.2) =
      some ([7, 7], some 5) ∧
    (receiver.lattice.recv 2 ⟨false, false⟩).map (fun result => returned result.2) =
      some ([7], some 5) :=
  ⟨_, rfl, ⟨_, rfl, rfl, rfl, rfl, rfl⟩, rfl, rfl, rfl⟩

theorem peek_faithful_iff_one_byte : ∃ receiver, unscripted.Reachable receiver ∧
    receiver.lattice.PeekFaithful 1 := by
  obtain ⟨receiver, ran, ⟨irob, found, real, complete, satisfied, bytes⟩, next, -⟩ := one_byte_run
  have reached : unscripted.Reachable receiver := Machine.Reachable.run (.initial rfl) ran
  refine ⟨receiver, reached, (peek_faithful_iff reached
    ⟨0, irob, by decide, found, ⟨real, complete, satisfied⟩, ?_⟩ (le_refl 1)).mpr ?_⟩
  · rw [bytes]
    exact one_ne_zero
  · rw [next]
    exact le_refl _

/-- A call that peeks at two bytes of an IROB of one byte returns this byte twice. -/
theorem peek_repeats : ∃ receiver, unscripted.Reachable receiver ∧
    (∃ irob : ReceiverIrob, receiver.lattice.irobs.find 0 = some irob ∧ Ready irob ∧
      irob.own.numBytes ≠ 0) ∧ ¬receiver.lattice.PeekFaithful 2 := by
  obtain ⟨receiver, ran, ⟨irob, found, real, complete, satisfied, bytes⟩, -, peeks, reads⟩ :=
    one_byte_run
  refine ⟨receiver, Machine.Reachable.run (.initial rfl) ran,
    ⟨irob, found, ⟨real, complete, satisfied⟩, by rw [bytes]; exact one_ne_zero⟩, ?_⟩
  rintro ⟨peeked, deliveries, next, others, peeking, reading, same, -⟩
  rw [peeking] at peeks
  rw [reading] at reads
  have both := (Option.some.inj peeks).symm.trans (same.trans (Option.some.inj reads))
  exact absurd both (by decide)

end Receiver

end Libcmm
