import Libcmm.Selecting

/-! # What a select returns (`cmm_socket_impl.cpp`)

A set that the kernel reports is mapped back: the descriptors of the caller's multisockets in it are
those that are ready, and they become the multisockets. So the three sets are right, and so is their
number of bits, in every call that gets to the kernel with a bound that none of the multisockets in
its sets exceeds, unless the kernel leaves bits beyond those that it examines.
-/

namespace Libcmm

namespace Selecting

section Back

variable {hash : SockHash} {nfds : Int} {reading writing : Bool} {given : Option FdSet}
variable {pairs : List (Int × Int)} {moved after reported : FdSet} {ready : Int → Prop}
variable {occurs : Multisocket → Prop}

/-- What becomes of a set that the kernel reports: the pairs' descriptors in it are those that are
ready, and they are mapped back to the multisockets. -/
structure MappedBack (hash : SockHash) (nfds : Int) (reading writing : Bool)
    (given : Option FdSet) (ready : Int → Prop) (reported : FdSet) (pairs : List (Int × Int))
    (moved after : FdSet) : Prop where
  listed : pairs = pairsOf hash reading writing (given.getD ∅) (numbers nfds)
  asked : ∀ fd ∈ moved, Kept hash nfds (given.getD ∅) fd ∨ ∃ pair ∈ pairs, pair.2 = fd
  waits : ∀ pair ∈ pairs, pair.2 ∈ moved ↔ ready pair.2
  others : ∀ fd, (∀ s sk, hash.table s = some sk → fd ∉ sk.underlying) →
    (fd ∈ moved ↔ fd ∈ reported)
  mapped : ∀ fd, fd ∈ after ↔ (fd ∈ moved ∧ ∀ pair ∈ pairs, pair.2 ≠ fd) ∨
    ∃ pair ∈ pairs, pair.1 = fd ∧ pair.2 ∈ moved

namespace MappedBack

/-- A pair is of a requested multisocket and of a descriptor that is waited for. -/
theorem mem_pairs
    (back : MappedBack hash nfds reading writing given ready reported pairs moved after)
    {pair : Int × Int} : pair ∈ pairs ↔ ∃ sk, Requested hash nfds (given.getD ∅) pair.1 sk ∧
      pair.2 ∈ waitsFor reading writing sk := by
  rw [back.listed]
  exact mem_pairsOf_numbers

/-- A pair's descriptor belongs to a multisocket. -/
theorem underlying
    (back : MappedBack hash nfds reading writing given ready reported pairs moved after)
    {pair : Int × Int} (member : pair ∈ pairs) :
    ∃ sk, hash.table pair.1 = some sk ∧ pair.2 ∈ sk.underlying := by
  rw [back.listed] at member
  exact underlying_of_pairsOf member

/-- A multisocket is no descriptor of one. -/
theorem not_underlying {s : Int} {sk : Multisocket} (held : hash.table s = some sk) (t : Int)
    (other : Multisocket) (heldToo : hash.table t = some other) : s ∉ other.underlying :=
  fun belongs =>
    Option.some_ne_none sk (held.symm.trans (hash.notNumbers t other heldToo s belongs))

/-- Nothing is left for a null pointer. -/
theorem returned_eq
    (back : MappedBack hash nfds reading writing given ready reported pairs moved after) :
    (given.map fun _ => after).getD ∅ = after := by
  cases given with
  | some fds => rfl
  | none =>
      have noPairs : ∀ pair, pair ∉ pairs := fun pair member => by
        obtain ⟨sk, requested, _⟩ := back.mem_pairs.mp member
        exact FdSet.not_mem_empty requested.1
      refine (FdSet.eq_empty fun fd member => ?_).symm
      rcases (back.mapped fd).mp member with ⟨reported, _⟩ | ⟨pair, listed, _⟩
      · rcases back.asked fd reported with kept | ⟨pair, listed, _⟩
        · exact FdSet.not_mem_empty kept.1
        · exact noPairs pair listed
      · exact noPairs pair listed

/-- A multisocket below the bound is in the set exactly if one of its descriptors is ready. -/
theorem mem_multisocket
    (back : MappedBack hash nfds reading writing given ready reported pairs moved after)
    {s : Int} {sk : Multisocket} (held : hash.table s = some sk)
    (bound : s ∈ reported → s < nfds) : s ∈ after ↔ Requested hash nfds (given.getD ∅) s sk ∧
      ∃ fd ∈ waitsFor reading writing sk, ready fd := by
  have notUnderlying := not_underlying held
  have notMoved : ¬(s ∈ moved ∧ ∀ pair ∈ pairs, pair.2 ≠ s) := by
    rintro ⟨member, differs⟩
    rcases back.asked s member with kept | ⟨pair, listed, same⟩
    · have below := bound ((back.others s notUnderlying).mp member)
      exact kept.2 ⟨below, held ▸ rfl⟩
    · exact differs pair listed same
  rw [back.mapped, or_iff_right notMoved]
  constructor
  · rintro ⟨pair, listed, rfl, member⟩
    obtain ⟨other, requested, waited⟩ := back.mem_pairs.mp listed
    obtain rfl : sk = other := Option.some.inj (held.symm.trans requested.2.2)
    exact ⟨requested, pair.2, waited, (back.waits pair listed).mp member⟩
  · rintro ⟨requested, fd, waited, isReady⟩
    have listed : (s, fd) ∈ pairs := back.mem_pairs.mpr ⟨sk, requested, waited⟩
    exact ⟨(s, fd), listed, rfl, (back.waits _ listed).mpr isReady⟩

theorem mem_plain
    (back : MappedBack hash nfds reading writing given ready reported pairs moved after)
    {fd : Int} (plain : hash.table fd = none)
    (alone : ∀ s sk, hash.table s = some sk → fd ∉ sk.underlying) :
    fd ∈ after ↔ fd ∈ reported := by
  rw [back.mapped, ← back.others fd alone, or_iff_left, and_iff_left]
  · rintro pair listed rfl
    obtain ⟨sk, held, belongs⟩ := back.underlying listed
    exact alone pair.1 sk held belongs
  · rintro ⟨pair, listed, rfl, _⟩
    obtain ⟨sk, held, _⟩ := back.underlying listed
    exact Option.some_ne_none sk (held.symm.trans plain)

theorem not_mem_underlying
    (back : MappedBack hash nfds reading writing given ready reported pairs moved after)
    (apart : Apart hash given) {s fd : Int} {sk : Multisocket} (held : hash.table s = some sk)
    (belongs : fd ∈ sk.underlying) : fd ∉ after := by
  rw [back.mapped]
  rintro (⟨member, differs⟩ | ⟨pair, listed, rfl, _⟩)
  · rcases back.asked fd member with kept | ⟨pair, listed, same⟩
    · exact apart s sk held fd belongs kept.1
    · exact differs pair listed same
  · obtain ⟨other, heldToo, _⟩ := back.underlying listed
    exact not_underlying heldToo s sk held belongs

/-- A set is returned right exactly if no multisocket beyond the bound of the call is reported in
it. -/
theorem setExact_iff
    (back : MappedBack hash nfds reading writing given ready reported pairs moved after)
    (apart : Apart hash given)
    (occurs_iff : ∀ sk, occurs sk ↔ ∃ fd ∈ waitsFor reading writing sk, ready fd) :
    SetExact hash nfds given (given.map fun _ => after) reported occurs ↔
      Bounded hash nfds reported := by
  constructor
  · intro exact s member present
    obtain ⟨sk, held⟩ := Option.isSome_iff_exists.mp present
    have inAfter : s ∈ after := by
      refine (back.mapped s).mpr (.inl ⟨?_, ?_⟩)
      · exact (back.others s (not_underlying held)).mpr member
      · rintro pair listed rfl
        obtain ⟨other, heldToo, belongs⟩ := back.underlying listed
        exact not_underlying held pair.1 other heldToo belongs
    rw [← back.returned_eq] at inAfter
    exact ((exact.multisockets s sk held).mp inAfter).1.2.1
  · intro bounded
    exact {
      null := Option.isSome_map
      multisockets := fun s sk held => by
        rw [back.returned_eq, occurs_iff]
        exact back.mem_multisocket held fun member => bounded s member (held ▸ rfl)
      plain := fun fd plain alone => by
        rw [back.returned_eq]
        exact back.mem_plain plain alone
      hidden := fun s sk held fd belongs => by
        rw [back.returned_eq]
        exact back.not_mem_underlying apart held belongs }

end MappedBack

end Back

/-! ### The call of the kernel -/

section Call

variable {hash : SockHash} {nfds : Int} {sets : Sets} {prepared : Prepared}

/-- A call of the kernel is prepared from three translated sets. -/
structure PreparedBy (hash : SockHash) (nfds : Int) (sets : Sets) (prepared : Prepared)
    (except write read : Real) : Prop where
  forExcept : Translated hash nfds false false sets.exceptfds (nfds - 1) except
  forWrite : Translated hash nfds false true sets.writefds except.maxosfd write
  forRead : Translated hash nfds true false sets.readfds write.maxosfd read
  exceptList : prepared.exceptList = except.osfdList
  writeList : prepared.writeList = write.osfdList
  readList : prepared.readList = read.osfdList
  exceptfds : prepared.exceptfds = except.fds
  writefds : ∀ fd, fd ∈ prepared.writefds ↔
    fd ∈ write.fds ∧ ∀ pair ∈ write.osfdList, pair.2 ≠ fd
  readfds : ∀ fd, fd ∈ prepared.readfds ↔ fd ∈ read.fds ∨ ∃ pair ∈ write.osfdList, pair.2 = fd
  maxosfd : prepared.maxosfd = read.maxosfd

theorem Translated.nodup_snd {reading writing : Bool} {given : Option FdSet} {maxosfd : Int}
    {real : Real} (translated : Translated hash nfds reading writing given maxosfd real) :
    (real.osfdList.map Prod.snd).Nodup :=
  translated.pairs ▸ nodup_snd_pairsOf nodup_numbers

theorem Translated.swappable {reading writing : Bool} {given : Option FdSet} {maxosfd : Int}
    {real : Real} (translated : Translated hash nfds reading writing given maxosfd real) :
    Swappable real.osfdList :=
  translated.pairs ▸ swappable_pairsOf _ _

/-- The kernel is called where all the multisockets of the caller's can be waited for. -/
def Callable (hash : SockHash) (nfds : Int) (sets : Sets) : Prop :=
  ((sets.exceptfds.isSome → nfds ≤ fdSetSize) ∧
    Translates hash nfds false false sets.exceptfds) ∧
  ((sets.writefds.isSome → nfds ≤ fdSetSize) ∧ Translates hash nfds false true sets.writefds) ∧
  (sets.readfds.isSome → nfds ≤ fdSetSize) ∧ Translates hash nfds true false sets.readfds

theorem prepare_spec : ((prepare hash nfds sets).isSome ↔ Callable hash nfds sets) ∧
    ∀ prepared, prepare hash nfds sets = some prepared →
      ∃ except write read, PreparedBy hash nfds sets prepared except write read := by
  obtain ⟨exceptIff, exceptSpec⟩ := @makeRealFdSet_spec hash nfds false false
    (fun both => Bool.false_ne_true both.1) sets.exceptfds (nfds - 1)
  unfold prepare Callable
  rw [← exceptIff]
  cases exceptReal : makeRealFdSet hash nfds sets.exceptfds (nfds - 1) false false with
  | none =>
      refine ⟨iff_of_false Bool.false_ne_true fun all => Bool.false_ne_true all.1, ?_⟩
      exact fun prepared same => (Option.some_ne_none prepared same.symm).elim
  | some except =>
      obtain ⟨writeIff, writeSpec⟩ := @makeRealFdSet_spec hash nfds false true
        (fun both => Bool.false_ne_true both.1) sets.writefds except.maxosfd
      rw [Option.bind_some, ← writeIff, and_iff_right Option.isSome_some]
      cases writeReal : makeRealFdSet hash nfds sets.writefds except.maxosfd false true with
      | none =>
          refine ⟨iff_of_false Bool.false_ne_true fun all => Bool.false_ne_true all.1, ?_⟩
          exact fun prepared same => (Option.some_ne_none prepared same.symm).elim
      | some write =>
          obtain ⟨readIff, readSpec⟩ := @makeRealFdSet_spec hash nfds true false
            (fun both => Bool.false_ne_true both.2) sets.readfds write.maxosfd
          rw [Option.bind_some, ← readIff, and_iff_right Option.isSome_some]
          cases readReal : makeRealFdSet hash nfds sets.readfds write.maxosfd true false with
          | none =>
              refine ⟨iff_of_false Bool.false_ne_true Bool.false_ne_true, ?_⟩
              exact fun prepared same => (Option.some_ne_none prepared same.symm).elim
          | some read =>
              have translated := writeSpec write writeReal
              obtain ⟨moved, moves, writes, reads⟩ := moveWrites_spec translated.nodup_snd
                write.fds read.fds fun pair member =>
                  (translated.members pair.2).mpr (.inr ⟨pair, member, rfl⟩)
              rw [Option.bind_some, moves, Option.map_some]
              refine ⟨iff_of_true rfl rfl, fun prepared same => ?_⟩
              cases same
              exact ⟨except, write, read, {
                forExcept := exceptSpec except exceptReal
                forWrite := translated
                forRead := readSpec read readReal
                exceptList := rfl
                writeList := rfl
                readList := rfl
                exceptfds := rfl
                writefds := writes
                readfds := reads
                maxosfd := rfl }⟩

variable {except write read : Real} {ready : Readiness} {kernel : Kernel}

/-- The greatest descriptor bounds the examined ones. -/
theorem PreparedBy.le_maxosfd_iff
    (origin : PreparedBy hash nfds sets prepared except write read) (fd : Int) :
    fd ≤ prepared.maxosfd ↔ Examined hash nfds sets fd := by
  rw [origin.maxosfd, origin.forRead.most, origin.forWrite.most, origin.forExcept.most, Examined,
    or_assoc, or_assoc, Int.le_sub_one_iff]

theorem Translated.reachedBy_of_mem {reading writing : Bool} {given : Option FdSet} {maxosfd : Int}
    {real : Real} (translated : Translated hash nfds reading writing given maxosfd real)
    {pair : Int × Int} (member : pair ∈ real.osfdList) :
    ReachedBy hash nfds reading writing given pair.2 :=
  reachedBy_iff.mpr ⟨pair, translated.pairs ▸ member, le_rfl⟩

/-- A write-ready pipe is no select pipe. -/
theorem PreparedBy.readList_ne_writeList
    (origin : PreparedBy hash nfds sets prepared except write read) {pair other : Int × Int}
    (reads : pair ∈ read.osfdList) (writes : other ∈ write.osfdList) : other.2 ≠ pair.2 := by
  intro same
  rw [origin.forRead.pairs] at reads
  rw [origin.forWrite.pairs] at writes
  obtain ⟨sk, ⟨_, _, held⟩, waited⟩ := mem_pairsOf_numbers.mp reads
  obtain ⟨owner, ⟨_, _, heldToo⟩, waitedToo⟩ := mem_pairsOf_numbers.mp writes
  have number : pair.1 = other.1 := SockHash.eq_of_mem_underlying held heldToo
    (waitsFor_subset _ _ _ waited) (same ▸ waitsFor_subset _ _ _ waitedToo)
  obtain rfl : sk = owner := Option.some.inj (held.symm.trans (number ▸ heldToo))
  have selects : pair.2 = sk.selectPipe := List.mem_singleton.mp waited
  have sends : other.2 = sk.writeReadyPipe := List.mem_singleton.mp waitedToo
  exact SockHash.selectPipe_ne held (selects.symm.trans (same.symm.trans sends))

/-- What is left of the kernel's set of reads is for the caller's set of reads. -/
theorem PreparedBy.readsBack (origin : PreparedBy hash nfds sets prepared except write read)
    (selects : Selects prepared ready kernel) {moved after : FdSet}
    (mem_moved : ∀ fd, fd ∈ moved ↔
      fd ∈ kernel.readfds ∧ ∀ pair ∈ write.osfdList, pair.2 ≠ fd)
    (mapped : ∀ fd, fd ∈ after ↔ (fd ∈ moved ∧ ∀ pair ∈ read.osfdList, pair.2 ≠ fd) ∨
      ∃ pair ∈ read.osfdList, pair.1 = fd ∧ pair.2 ∈ moved) :
    MappedBack hash nfds true false sets.readfds ready.readable kernel.readfds read.osfdList moved
      after where
  listed := origin.forRead.pairs
  asked fd member := by
    obtain ⟨reported, differs⟩ := (mem_moved fd).mp member
    have asked := (origin.readfds fd).mp (selects.readfds.asked fd reported)
    exact (origin.forRead.members fd).mp (asked.resolve_right fun ⟨pair, listed, same⟩ =>
      differs pair listed same)
  waits pair listed := by
    have isAsked : pair.2 ∈ prepared.readfds :=
      (origin.readfds _).mpr (.inl ((origin.forRead.members _).mpr (.inr ⟨pair, listed, rfl⟩)))
    have most : pair.2 ≤ prepared.maxosfd :=
      (origin.le_maxosfd_iff _).mpr (.inr (.inr (.inr (origin.forRead.reachedBy_of_mem listed))))
    rw [mem_moved, selects.readfds.examined _ most, and_iff_right isAsked]
    exact and_iff_left fun other writes => origin.readList_ne_writeList listed writes
  others fd alone := by
    rw [mem_moved]
    refine and_iff_left fun pair listed same => ?_
    rw [origin.forWrite.pairs] at listed
    obtain ⟨sk, held, belongs⟩ := underlying_of_pairsOf listed
    exact alone pair.1 sk held (same ▸ belongs)
  mapped := mapped

/-- The pipes that are moved back are for the caller's set of writes. -/
theorem PreparedBy.writesBack (origin : PreparedBy hash nfds sets prepared except write read)
    (selects : Selects prepared ready kernel) {moved after : FdSet}
    (mem_moved : ∀ fd, fd ∈ moved ↔ fd ∈ kernel.writefds ∨
      fd ∈ kernel.readfds ∧ ∃ pair ∈ write.osfdList, pair.2 = fd)
    (mapped : ∀ fd, fd ∈ after ↔ (fd ∈ moved ∧ ∀ pair ∈ write.osfdList, pair.2 ≠ fd) ∨
      ∃ pair ∈ write.osfdList, pair.1 = fd ∧ pair.2 ∈ moved) :
    MappedBack hash nfds false true sets.writefds ready.readable kernel.writefds write.osfdList
      moved after where
  listed := origin.forWrite.pairs
  asked fd member := by
    rcases (mem_moved fd).mp member with reported | ⟨_, second⟩
    · have asked := (origin.writefds fd).mp (selects.writefds.asked fd reported)
      exact (origin.forWrite.members fd).mp asked.1
    · exact .inr second
  waits pair listed := by
    have isAsked : pair.2 ∈ prepared.readfds := (origin.readfds _).mpr (.inr ⟨pair, listed, rfl⟩)
    have most : pair.2 ≤ prepared.maxosfd :=
      (origin.le_maxosfd_iff _).mpr (.inr (.inr (.inl (origin.forWrite.reachedBy_of_mem listed))))
    have notWritten : pair.2 ∉ kernel.writefds := fun reported =>
      ((origin.writefds _).mp (selects.writefds.asked _ reported)).2 pair listed rfl
    rw [mem_moved, or_iff_right notWritten, and_iff_left ⟨pair, listed, rfl⟩,
      selects.readfds.examined _ most, and_iff_right isAsked]
  others fd alone := by
    rw [mem_moved]
    refine or_iff_left ?_
    rintro ⟨_, pair, listed, same⟩
    rw [origin.forWrite.pairs] at listed
    obtain ⟨sk, held, belongs⟩ := underlying_of_pairsOf listed
    exact alone pair.1 sk held (same ▸ belongs)
  mapped := mapped

theorem PreparedBy.exceptsBack (origin : PreparedBy hash nfds sets prepared except write read)
    (selects : Selects prepared ready kernel) {after : FdSet}
    (mapped : ∀ fd, fd ∈ after ↔
      (fd ∈ kernel.exceptfds ∧ ∀ pair ∈ except.osfdList, pair.2 ≠ fd) ∨
        ∃ pair ∈ except.osfdList, pair.1 = fd ∧ pair.2 ∈ kernel.exceptfds) :
    MappedBack hash nfds false false sets.exceptfds ready.exceptional kernel.exceptfds
      except.osfdList kernel.exceptfds after where
  listed := origin.forExcept.pairs
  asked fd member := by
    have asked := selects.exceptfds.asked fd member
    rw [origin.exceptfds] at asked
    exact (origin.forExcept.members fd).mp asked
  waits pair listed := by
    have isAsked : pair.2 ∈ prepared.exceptfds := by
      rw [origin.exceptfds]
      exact (origin.forExcept.members _).mpr (.inr ⟨pair, listed, rfl⟩)
    have most : pair.2 ≤ prepared.maxosfd :=
      (origin.le_maxosfd_iff _).mpr (.inr (.inl (origin.forExcept.reachedBy_of_mem listed)))
    rw [selects.exceptfds.examined _ most, and_iff_right isAsked]
  others _ _ := Iff.rfl
  mapped := mapped

/-- Where each number has a bit and no reader among those that are set was interrupted, no interrupt
is detected. -/
theorem interrupts_eq_false {ss : List Int} {readfds : FdSet}
    (fits : ∀ s ∈ ss, Representable s) (quiet : ∀ s ∈ ss, s ∈ readfds →
      ∀ sk, hash.table s = some sk → sk.willBlockOnRead = false) :
    interrupts hash ss readfds = some false := by
  induction ss with
  | nil => rfl
  | cons s rest ih =>
      obtain ⟨fitsHere, fitsRest⟩ := List.forall_mem_cons.mp fits
      obtain ⟨quietHere, quietRest⟩ := List.forall_mem_cons.mp quiet
      have here : (decide (s ∈ readfds) &&
          (hash.table s).any Multisocket.willBlockOnRead) = false := by
        by_cases member : s ∈ readfds
        · rw [decide_eq_true member, Bool.true_and]
          cases held : hash.table s with
          | none => rfl
          | some sk => exact quietHere member sk held
        · rw [decide_eq_false member, Bool.false_and]
      rw [interrupts, FdSet.isSet_of fitsHere, Option.bind_some, ih fitsRest quietRest,
        Option.map_some, here, Bool.false_or]

/-- What the kernel reports is mapped back to the three sets of the caller, and the count is
corrected by as many as the bits have become fewer. -/
theorem PreparedBy.finish_spec (origin : PreparedBy hash nfds sets prepared except write read)
    (selects : Selects prepared ready kernel) (bound : nfds ≤ fdSetSize)
    (uninterrupted : Uninterrupted hash nfds sets ready) :
    ∃ readMoved writeMoved reads writes excepts : FdSet,
      MappedBack hash nfds true false sets.readfds ready.readable kernel.readfds read.osfdList
        readMoved reads ∧
      MappedBack hash nfds false true sets.writefds ready.readable kernel.writefds write.osfdList
        writeMoved writes ∧
      MappedBack hash nfds false false sets.exceptfds ready.exceptional kernel.exceptfds
        except.osfdList kernel.exceptfds excepts ∧
      ∃ rc, finish hash nfds sets prepared kernel = some (rc,
        ⟨sets.readfds.map fun _ => reads, sets.writefds.map fun _ => writes,
          sets.exceptfds.map fun _ => excepts⟩) ∧
        rc + (kernel.readfds.card + kernel.writefds.card + kernel.exceptfds.card) =
          kernel.rc + (reads.card + writes.card + excepts.card) := by
  have notWritten : ∀ pair ∈ write.osfdList, pair.2 ∉ kernel.writefds := fun pair listed reported =>
    ((origin.writefds _).mp (selects.writefds.asked _ reported)).2 pair listed rfl
  obtain ⟨⟨writeMoved, readMoved⟩, movesBack, mem_writeMoved, mem_readMoved, movedCount⟩ :=
    moveBack_spec origin.forWrite.nodup_snd kernel.writefds kernel.readfds origin.forWrite.fits
      notWritten
  obtain ⟨⟨reads, readDups⟩, mapsReads, mem_reads, readCount⟩ := makeMcFdSet_spec
    origin.forRead.swappable origin.forRead.nodup_snd origin.forRead.fits readMoved 0
  obtain ⟨⟨writes, writeDups⟩, mapsWrites, mem_writes, writeCount⟩ := makeMcFdSet_spec
    origin.forWrite.swappable origin.forWrite.nodup_snd origin.forWrite.fits writeMoved 0
  obtain ⟨⟨excepts, exceptDups⟩, mapsExcepts, mem_excepts, exceptCount⟩ := makeMcFdSet_spec
    origin.forExcept.swappable origin.forExcept.nodup_snd origin.forExcept.fits kernel.exceptfds 0
  have readsBack := origin.readsBack selects mem_readMoved mem_reads
  have quiet : interrupts hash (numbers nfds).reverse reads = some false := by
    refine interrupts_eq_false (fun s member => ?_) fun s listed member sk held => ?_
    · exact forall_numbers_representable.mpr bound s (List.mem_reverse.mp member)
    · have below := (mem_numbers.mp (List.mem_reverse.mp listed)).2
      obtain ⟨requested, fd, waited, isReady⟩ :=
        (readsBack.mem_multisocket held fun _ => below).mp member
      obtain rfl : fd = sk.selectPipe := List.mem_singleton.mp waited
      exact uninterrupted s sk requested isReady
  refine ⟨readMoved, writeMoved, reads, writes, excepts, readsBack,
    origin.writesBack selects mem_writeMoved mem_writes, origin.exceptsBack selects mem_excepts,
    kernel.rc - readDups - writeDups - exceptDups, ?_, ?_⟩
  · rw [finish, origin.writeList, movesBack, Option.bind_some, origin.readList, mapsReads,
      Option.bind_some, mapsWrites, Option.bind_some, origin.exceptList, mapsExcepts,
      Option.bind_some, quiet, Option.map_some, if_neg Bool.false_ne_true]
  · simp only at movedCount readCount writeCount exceptCount
    omega

/-- The kernel counts all the bits that it leaves exactly if it examined all of them. -/
theorem PreparedBy.count_iff (origin : PreparedBy hash nfds sets prepared except write read)
    (selects : Selects prepared ready kernel) :
    kernel.rc = kernel.readfds.card + kernel.writefds.card + kernel.exceptfds.card ↔
      AllExamined hash nfds sets kernel := by
  have readsLe := kernel.readfds.cardUpTo_le prepared.maxosfd
  have writesLe := kernel.writefds.cardUpTo_le prepared.maxosfd
  have exceptsLe := kernel.exceptfds.cardUpTo_le prepared.maxosfd
  have each : kernel.rc = kernel.readfds.card + kernel.writefds.card + kernel.exceptfds.card ↔
      kernel.readfds.cardUpTo prepared.maxosfd = kernel.readfds.card ∧
      kernel.writefds.cardUpTo prepared.maxosfd = kernel.writefds.card ∧
      kernel.exceptfds.cardUpTo prepared.maxosfd = kernel.exceptfds.card := by
    rw [selects.count]
    omega
  rw [each, FdSet.cardUpTo_eq_card_iff, FdSet.cardUpTo_eq_card_iff, FdSet.cardUpTo_eq_card_iff]
  simp only [origin.le_maxosfd_iff]
  constructor
  · rintro ⟨reads, writes, excepts⟩ fd (member | member | member)
    · exact reads fd member
    · exact writes fd member
    · exact excepts fd member
  · exact fun all => ⟨fun fd member => all fd (.inl member),
      fun fd member => all fd (.inr (.inl member)), fun fd member => all fd (.inr (.inr member))⟩

/-- Nothing is asked for a null pointer. -/
theorem Translated.of_none {reading writing : Bool} {maxosfd : Int} {real : Real}
    (translated : Translated hash nfds reading writing none maxosfd real) :
    (∀ pair, pair ∉ real.osfdList) ∧ ∀ fd, fd ∉ real.fds := by
  have noPairs : ∀ pair, pair ∉ real.osfdList := fun pair member => by
    rw [translated.pairs, Option.getD_none, pairsOf_empty] at member
    exact List.not_mem_nil member
  refine ⟨noPairs, fun fd member => ?_⟩
  rcases (translated.members fd).mp member with kept | ⟨pair, listed, _⟩
  · exact FdSet.not_mem_empty kept.1
  · exact noPairs pair listed

/-- Where something is reported, a set was given, so each number has a bit. -/
theorem bound_of_callable (callable : Callable hash nfds sets)
    (origin : PreparedBy hash nfds sets prepared except write read)
    (selects : Selects prepared ready kernel) (positive : 0 < kernel.rc) : nfds ≤ fdSetSize := by
  by_contra beyond
  obtain ⟨⟨exceptBound, _⟩, ⟨writeBound, _⟩, readBound, _⟩ := callable
  have noExcepts : sets.exceptfds = none :=
    Option.not_isSome_iff_eq_none.mp fun given => beyond (exceptBound given)
  have noWrites : sets.writefds = none :=
    Option.not_isSome_iff_eq_none.mp fun given => beyond (writeBound given)
  have noReads : sets.readfds = none :=
    Option.not_isSome_iff_eq_none.mp fun given => beyond (readBound given)
  obtain ⟨_, exceptEmpty⟩ := (noExcepts ▸ origin.forExcept).of_none
  obtain ⟨writePairs, writeEmpty⟩ := (noWrites ▸ origin.forWrite).of_none
  obtain ⟨_, readEmpty⟩ := (noReads ▸ origin.forRead).of_none
  have readsNone : kernel.readfds = ∅ := FdSet.eq_empty fun fd member => by
    rcases (origin.readfds fd).mp (selects.readfds.asked fd member) with reads | ⟨pair, listed, _⟩
    · exact readEmpty fd reads
    · exact writePairs pair listed
  have writesNone : kernel.writefds = ∅ := FdSet.eq_empty fun fd member =>
    writeEmpty fd ((origin.writefds fd).mp (selects.writefds.asked fd member)).1
  have exceptsNone : kernel.exceptfds = ∅ := FdSet.eq_empty fun fd member =>
    exceptEmpty fd (origin.exceptfds ▸ selects.exceptfds.asked fd member)
  have count := selects.count
  rw [readsNone, writesNone, exceptsNone] at count
  rw [count] at positive
  exact Int.lt_irrefl 0 positive

end Call

/-- Where descriptors are reported and no interrupt is detected, `mc_select` returns the right sets
and their number exactly if no null bootstrapper is followed, every number and every descriptor
that it sets has a bit, no multisocket beyond its bound is reported, and no bit is left that the
kernel did not examine. -/
theorem mcSelect_exact_iff (hash : SockHash) (nfds : Int) (sets : Sets) (ready : Readiness)
    (kernel : Kernel)
    (apart : Apart hash sets.readfds ∧ Apart hash sets.writefds ∧ Apart hash sets.exceptfds)
    (selects : ∀ prepared, prepare hash nfds sets = some prepared →
      Selects prepared ready kernel)
    (positive : 0 < kernel.rc) (uninterrupted : Uninterrupted hash nfds sets ready) :
    Exact hash nfds sets ready kernel (mcSelect hash nfds sets kernel) ↔
      (nfds ≤ fdSetSize ∧ Translates hash nfds true false sets.readfds ∧
        Translates hash nfds false true sets.writefds ∧
        Translates hash nfds false false sets.exceptfds) ∧
      (Bounded hash nfds kernel.readfds ∧ Bounded hash nfds kernel.writefds ∧
        Bounded hash nfds kernel.exceptfds) ∧ AllExamined hash nfds sets kernel := by
  have translatesIf : nfds ≤ fdSetSize → (Callable hash nfds sets ↔
      Translates hash nfds true false sets.readfds ∧
        Translates hash nfds false true sets.writefds ∧
        Translates hash nfds false false sets.exceptfds) := fun bound =>
    ⟨fun ⟨except, write, read⟩ => ⟨read.2, write.2, except.2⟩, fun ⟨read, write, except⟩ =>
      ⟨⟨fun _ => bound, except⟩, ⟨fun _ => bound, write⟩, fun _ => bound, read⟩⟩
  obtain ⟨prepares, prepareSpec⟩ := @prepare_spec hash nfds sets
  unfold mcSelect
  cases prepared : prepare hash nfds sets with
  | none =>
      rw [prepared] at prepares
      refine iff_of_false id fun ⟨⟨bound, translates⟩, _⟩ => ?_
      exact Bool.false_ne_true (prepares.mpr ((translatesIf bound).mpr translates))
  | some call =>
      have callable : Callable hash nfds sets := prepares.mp (prepared ▸ rfl)
      obtain ⟨except, write, read, origin⟩ := prepareSpec call prepared
      have selected := selects call prepared
      have bound := bound_of_callable callable origin selected positive
      obtain ⟨readMoved, writeMoved, reads, writes, excepts, readsBack, writesBack, exceptsBack,
        rc, finishes, counted⟩ := origin.finish_spec selected bound uninterrupted
      rw [and_iff_right (And.intro bound ((translatesIf bound).mp callable))]
      simp only [if_neg (Int.not_le.mpr positive), finishes]
      have counts : rc = reads.card + writes.card + excepts.card ↔
          AllExamined hash nfds sets kernel := by
        rw [← origin.count_iff selected]
        omega
      rw [and_assoc, and_assoc]
      refine and_congr (readsBack.setExact_iff apart.1 fun sk => ?_) (and_congr
        (writesBack.setExact_iff apart.2.1 fun sk => ?_) (and_congr
          (exceptsBack.setExact_iff apart.2.2 fun sk => Iff.rfl) ?_))
      · exact ⟨fun isReady => ⟨_, List.mem_singleton_self _, isReady⟩, fun ⟨_, member, isReady⟩ =>
          List.mem_singleton.mp member ▸ isReady⟩
      · exact ⟨fun isReady => ⟨_, List.mem_singleton_self _, isReady⟩, fun ⟨_, member, isReady⟩ =>
          List.mem_singleton.mp member ▸ isReady⟩
      · rw [readsBack.returned_eq, writesBack.returned_eq, exceptsBack.returned_eq]
        exact counts

/-- One connected multisocket with two csockets, one for which `cmm_connect` was not called, and
another connected one. -/
def threeTable (s : Int) : Option Multisocket :=
  if s = 5 then some ⟨10, 12, [13, 14], some 0, false⟩
  else if s = 6 then some ⟨16, 18, [], none, false⟩
  else if s = 9 then some ⟨20, 22, [], some 0, false⟩
  else none

theorem threeTable_cases {s : Int} {sk : Multisocket} (held : threeTable s = some sk) :
    (s = 5 ∧ sk = ⟨10, 12, [13, 14], some 0, false⟩) ∨ (s = 6 ∧ sk = ⟨16, 18, [], none, false⟩) ∨
      (s = 9 ∧ sk = ⟨20, 22, [], some 0, false⟩) := by
  unfold threeTable at held
  split_ifs at held with first second third
  · exact .inl ⟨first, (Option.some.inj held).symm⟩
  · exact .inr (.inl ⟨second, (Option.some.inj held).symm⟩)
  · exact .inr (.inr ⟨third, (Option.some.inj held).symm⟩)

theorem nodup_threeTable (s : Int) (sk : Multisocket) (held : threeTable s = some sk) :
    sk.underlying.Nodup := by
  rcases threeTable_cases held with ⟨-, rfl⟩ | ⟨-, rfl⟩ | ⟨-, rfl⟩ <;> decide

theorem apart_threeTable (s t : Int) (sk other : Multisocket) (held : threeTable s = some sk)
    (heldToo : threeTable t = some other) (different : s ≠ t) :
    ∀ fd ∈ sk.underlying, fd ∉ other.underlying := by
  rcases threeTable_cases held with ⟨rfl, rfl⟩ | ⟨rfl, rfl⟩ | ⟨rfl, rfl⟩ <;>
    rcases threeTable_cases heldToo with ⟨rfl, rfl⟩ | ⟨rfl, rfl⟩ | ⟨rfl, rfl⟩ <;>
    first | exact absurd rfl different | decide

theorem underlying_threeTable (s : Int) (sk : Multisocket) (held : threeTable s = some sk) :
    ∀ fd ∈ sk.underlying, threeTable fd = none := by
  rcases threeTable_cases held with ⟨-, rfl⟩ | ⟨-, rfl⟩ | ⟨-, rfl⟩ <;> decide

def threeMultisockets : SockHash :=
  ⟨threeTable, nodup_threeTable, apart_threeTable, underlying_threeTable⟩

/-- The descriptors that a kernel reports, as those that are ready. -/
def Kernel.readiness (kernel : Kernel) : Readiness where
  readable fd := fd ∈ kernel.readfds
  writable fd := fd ∈ kernel.writefds
  exceptional fd := fd ∈ kernel.exceptfds

/-- What is reported was asked for. -/
theorem selects_readiness {prepared : Prepared} {kernel : Kernel}
    (readfds : ∀ fd ∈ kernel.readfds, fd ∈ prepared.readfds)
    (writefds : ∀ fd ∈ kernel.writefds, fd ∈ prepared.writefds)
    (exceptfds : ∀ fd ∈ kernel.exceptfds, fd ∈ prepared.exceptfds)
    (count : kernel.rc = kernel.readfds.cardUpTo prepared.maxosfd +
      kernel.writefds.cardUpTo prepared.maxosfd + kernel.exceptfds.cardUpTo prepared.maxosfd) :
    Selects prepared kernel.readiness kernel where
  readfds := ⟨fun fd _ => (and_iff_right_of_imp (readfds fd)).symm, readfds⟩
  writefds := ⟨fun fd _ => (and_iff_right_of_imp (writefds fd)).symm, writefds⟩
  exceptfds := ⟨fun fd _ => (and_iff_right_of_imp (exceptfds fd)).symm, exceptfds⟩
  count := count

/-- Sets of small numbers hold no descriptor of the multisockets. -/
theorem apart_of_small {given : Option FdSet} (small : ∀ fd ∈ given.getD ∅, fd < 10) :
    Apart threeMultisockets given := by
  intro s sk held fd belongs member
  have bound := small fd member
  rcases threeTable_cases held with ⟨-, rfl⟩ | ⟨-, rfl⟩ | ⟨-, rfl⟩ <;>
    simp only [Multisocket.underlying, List.mem_cons, List.not_mem_nil, or_false] at belongs <;>
    omega

/-- None of the multisockets has interrupted waiters. -/
theorem willBlockOnRead_eq_false {s : Int} {sk : Multisocket}
    (held : threeMultisockets.table s = some sk) : sk.willBlockOnRead = false := by
  rcases threeTable_cases held with ⟨-, rfl⟩ | ⟨-, rfl⟩ | ⟨-, rfl⟩ <;> rfl

/-- A wait to write to the multisocket that is not connected. -/
def unconnectedSets : Sets := ⟨none, some ⟨{6}, by decide⟩, none⟩

/-- A wait to read, with a multisocket beyond the bound 7 of the call. -/
def beyondSets : Sets := ⟨some ⟨{5, 9}, by decide⟩, none, none⟩

/-- A kernel that reports the number of that multisocket, but not its select pipe. -/
def beyondKernel : Kernel := ⟨1, ⟨{9}, by decide⟩, ∅, ∅⟩

/-- A wait to read from two plain descriptors, the second far beyond the bound 4 of the call. -/
def staleSets : Sets := ⟨some ⟨{3, 1000}, by decide⟩, none, none⟩

/-- The first is readable; a kernel that clears no bit beyond what it examines leaves the second. -/
def staleKernel : Kernel := ⟨1, ⟨{3, 1000}, by decide⟩, ∅, ∅⟩

/-- Sets of plain descriptors hold no descriptor of the multisockets. -/
theorem apart_stale : Apart threeMultisockets staleSets.readfds := by
  intro s sk held fd belongs member
  have plain : fd = 3 ∨ fd = 1000 := by
    simpa only [Finset.mem_insert, Finset.mem_singleton] using
      show fd ∈ ({3, 1000} : Finset Int) from member
  rcases threeTable_cases held with ⟨-, rfl⟩ | ⟨-, rfl⟩ | ⟨-, rfl⟩ <;>
    simp only [Multisocket.underlying, List.mem_cons, List.not_mem_nil, or_false] at belongs <;>
    omega

/-- A call for a multisocket that is not connected traps; a call returns a multisocket beyond its
bound of which no pipe is readable; and a call returns two bits and counts one of them. -/
theorem unconnected_and_beyond :
    (Apart threeMultisockets unconnectedSets.writefds ∧ ∀ ready kernel,
      ¬Exact threeMultisockets 7 unconnectedSets ready kernel
        (mcSelect threeMultisockets 7 unconnectedSets kernel)) ∧
    (Apart threeMultisockets beyondSets.readfds ∧
      (∀ prepared, prepare threeMultisockets 7 beyondSets = some prepared →
        Selects prepared beyondKernel.readiness beyondKernel) ∧ 0 < beyondKernel.rc ∧
      Uninterrupted threeMultisockets 7 beyondSets beyondKernel.readiness ∧
      ¬Exact threeMultisockets 7 beyondSets beyondKernel.readiness beyondKernel
        (mcSelect threeMultisockets 7 beyondSets beyondKernel)) ∧
    Apart threeMultisockets staleSets.readfds ∧
      (∀ prepared, prepare threeMultisockets 4 staleSets = some prepared →
        Selects prepared staleKernel.readiness staleKernel) ∧ 0 < staleKernel.rc ∧
      Uninterrupted threeMultisockets 4 staleSets staleKernel.readiness ∧
      ¬Exact threeMultisockets 4 staleSets staleKernel.readiness staleKernel
        (mcSelect threeMultisockets 4 staleSets staleKernel) := by
  refine ⟨⟨apart_of_small (by decide), fun ready kernel => ?_⟩, ⟨apart_of_small (by decide), ?_,
    by decide, ?_, ?_⟩, apart_stale, ?_, by decide, ?_, ?_⟩
  · have trapped : mcSelect threeMultisockets 7 unconnectedSets kernel = .trapped := rfl
    rw [trapped]
    exact not_false
  · intro prepared prepares
    cases prepares.symm.trans (rfl : prepare threeMultisockets 7 beyondSets = some _)
    exact selects_readiness (by decide) (by decide) (by decide) (by decide)
  · exact fun s sk requested _ => willBlockOnRead_eq_false requested.2.2
  · obtain ⟨after, returned, member⟩ : ∃ after, mcSelect threeMultisockets 7 beyondSets
        beyondKernel = .returned 1 ⟨some after, none, none⟩ ∧ (9 : Int) ∈ after :=
      ⟨_, rfl, by decide⟩
    rw [returned]
    intro exact
    have requested := ((exact.1.multisockets 9 _ rfl).mp member).1
    exact absurd requested.2.1 (by decide)
  · intro prepared prepares
    cases prepares.symm.trans (rfl : prepare threeMultisockets 4 staleSets = some _)
    exact selects_readiness (by decide) (by decide) (by decide) (by decide)
  · exact fun s sk requested _ => willBlockOnRead_eq_false requested.2.2
  · obtain ⟨after, returned, two⟩ : ∃ after, mcSelect threeMultisockets 4 staleSets
        staleKernel = .returned 1 ⟨some after, none, none⟩ ∧ after.card = 2 :=
      ⟨_, rfl, by decide⟩
    rw [returned]
    intro exact
    have counted : (1 : Int) = after.card + FdSet.card ∅ + FdSet.card ∅ := exact.2.2.2
    rw [two] at counted
    exact absurd counted (by decide)

/-- A wait for a plain descriptor and in all three ways for the connected multisocket. -/
def mixedSets : Sets :=
  ⟨some ⟨{3, 5}, by decide⟩, some ⟨{5}, by decide⟩, some ⟨{5}, by decide⟩⟩

/-- A kernel that reports all that belongs to these. -/
def mixedKernel : Kernel := ⟨5, ⟨{3, 10, 12}, by decide⟩, ∅, ⟨{13, 14}, by decide⟩⟩

/-- The connected multisocket can be waited for. -/
theorem translates {reading writing : Bool} {given : Option FdSet}
    (small : ∀ fd ∈ given.getD ∅, fd < 6) :
    Translates threeMultisockets 7 reading writing given := by
  rintro s sk ⟨member, -, held⟩
  have bound := small s member
  rcases threeTable_cases held with ⟨-, rfl⟩ | ⟨rfl, -⟩ | ⟨rfl, -⟩
  · refine ⟨fun _ => rfl, fun fd waited => ?_⟩
    have belongs := waitsFor_subset reading writing _ waited
    simp only [Multisocket.underlying, List.mem_cons, List.not_mem_nil, or_false] at belongs
    unfold Representable fdSetSize
    omega
  · exact absurd bound (by decide)
  · exact absurd bound (by decide)

/-- The kernel looks at the descriptors of the multisocket. -/
theorem allExamined_mixed : AllExamined threeMultisockets 7 mixedSets mixedKernel := by
  have small : ∀ fd ∈ mixedKernel.readfds, fd ≤ 14 := by decide
  have smallToo : ∀ fd ∈ mixedKernel.exceptfds, fd ≤ 14 := by decide
  have requested : Requested threeMultisockets 7 (mixedSets.exceptfds.getD ∅) 5
      ⟨10, 12, [13, 14], some 0, false⟩ := ⟨by decide, by decide, rfl⟩
  have reached : ∀ fd : Int, fd ≤ 14 → Examined threeMultisockets 7 mixedSets fd := fun fd le =>
    .inr (.inl ⟨5, _, requested, 14, by decide, le⟩)
  rintro fd (member | member | member)
  · exact reached fd (small fd member)
  · exact absurd member FdSet.not_mem_empty
  · exact reached fd (smallToo fd member)

theorem mcSelect_exact_iff_mixed : ∃ rc after,
    mcSelect threeMultisockets 7 mixedSets mixedKernel = .returned rc after ∧
    Exact threeMultisockets 7 mixedSets mixedKernel.readiness mixedKernel (.returned rc after) ∧
    rc = 4 := by
  have exact := (mcSelect_exact_iff threeMultisockets 7 mixedSets mixedKernel.readiness mixedKernel
    ⟨apart_of_small (by decide), apart_of_small (by decide), apart_of_small (by decide)⟩ (by
      intro prepared prepares
      cases prepares.symm.trans (rfl : prepare threeMultisockets 7 mixedSets = some _)
      exact selects_readiness (by decide) (by decide) (by decide) (by decide))
    (by decide) fun s sk requested _ => willBlockOnRead_eq_false requested.2.2).mpr
      ⟨⟨by decide, translates (by decide), translates (by decide), translates (by decide)⟩,
        ⟨by unfold Bounded; decide, by unfold Bounded; decide, by unfold Bounded; decide⟩,
        allExamined_mixed⟩
  exact ⟨_, _, rfl, exact, rfl⟩

end Selecting

end Libcmm
