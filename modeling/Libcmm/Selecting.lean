import Libcmm.FdSets
import Libcmm.Multisockets

/-! # Selecting (`cmm_socket_impl.cpp`)

A select of multisockets is a select of the descriptors that belong to them. Those for writes are
pipes too, which are readable when the multisocket can be written to; so they are moved to the set
of reads for the kernel and back. Several descriptors of one multisocket that are reported become
one, and the count of the kernel is corrected for that.
-/

namespace Libcmm

namespace Selecting

variable (hash : SockHash) (nfds : Int)

/-- The numbers of the first loop of `make_real_fd_set`, the greatest first. -/
def numbers : List Int := (List.range nfds.toNat).reverse.map Int.ofNat

/-- The first loop of `make_real_fd_set`. -/
def swapOut (reading writing : Bool) :
    List Int → FdSet → List (Int × Int) → Option (FdSet × List (Int × Int))
  | [], fds, osfdList => some (fds, osfdList)
  | s :: rest, fds, osfdList =>
      (fds.isSet s).bind fun isSet =>
        match if isSet then hash.table s else none with
        | none => swapOut reading writing rest fds osfdList
        | some sk =>
            (fds.clr s).bind fun fds =>
            (sk.getFdsForSelect s reading writing).bind fun added =>
              swapOut reading writing rest fds (osfdList ++ added)

/-- The second loop of `make_real_fd_set`. -/
def swapIn : List (Int × Int) → FdSet → Int → Option (FdSet × Int)
  | [], fds, maxosfd => some (fds, maxosfd)
  | pair :: rest, fds, maxosfd =>
      (fds.clr pair.1).bind fun fds =>
      (fds.set pair.2).bind fun fds =>
        swapIn rest fds (max maxosfd pair.2)

/-- A set of descriptors, the pairs of a multisocket and a descriptor of it that is in the set, and
the greatest descriptor so far. -/
structure Real where
  fds : FdSet
  osfdList : List (Int × Int)
  maxosfd : Int

/-- `CMMSocketImpl::make_real_fd_set`, where the caller of `mc_select` gave a set; without one
nothing is done. -/
def makeRealFdSet (given : Option FdSet) (maxosfd : Int) (reading writing : Bool) : Option Real :=
  match given with
  | none => some ⟨∅, [], maxosfd⟩
  | some fds =>
      (swapOut hash reading writing (numbers nfds) fds []).bind fun out =>
      (swapIn out.2 out.1 maxosfd).map fun swapped => ⟨swapped.1, out.2, swapped.2⟩

/-- `CMMSocketImpl::make_mc_fd_set`, with the duplicates so far. -/
def makeMcFdSet : List (Int × Int) → FdSet → Nat → Option (FdSet × Nat)
  | [], fds, dups => some (fds, dups)
  | pair :: rest, fds, dups =>
      (fds.isSet pair.2).bind fun isSet =>
        if isSet then
          (fds.clr pair.2).bind fun fds =>
          (fds.isSet pair.1).bind fun already =>
            if already then makeMcFdSet rest fds (dups + 1)
            else (fds.set pair.1).bind fun fds => makeMcFdSet rest fds dups
        else makeMcFdSet rest fds dups

/-- The loop of `mc_select` that moves the pipes for writes to the set of reads. An assertion may
fire. -/
def moveWrites : List (Int × Int) → FdSet → FdSet → Option (FdSet × FdSet)
  | [], writefds, readfds => some (writefds, readfds)
  | pair :: rest, writefds, readfds =>
      (writefds.isSet pair.2).bind fun isSet =>
        if isSet then
          (writefds.clr pair.2).bind fun writefds =>
          (readfds.set pair.2).bind fun readfds => moveWrites rest writefds readfds
        else none

/-- The loop of `mc_select` that moves them back. -/
def moveBack : List (Int × Int) → FdSet → FdSet → Option (FdSet × FdSet)
  | [], writefds, readfds => some (writefds, readfds)
  | pair :: rest, writefds, readfds =>
      (readfds.isSet pair.2).bind fun isSet =>
        if isSet then
          (writefds.set pair.2).bind fun writefds =>
          (readfds.clr pair.2).bind fun readfds => moveBack rest writefds readfds
        else moveBack rest writefds readfds

/-- The last loop of `mc_select`: whether an interrupt is detected. -/
def interrupts : List Int → FdSet → Option Bool
  | [], _ => some false
  | i :: rest, readfds =>
      (readfds.isSet i).bind fun isSet =>
      (interrupts rest readfds).map fun later =>
        isSet && (hash.table i).any Multisocket.willBlockOnRead || later

/-- What `mc_select` calls `select` with, and the lists for the way back. -/
structure Prepared where
  readfds : FdSet
  writefds : FdSet
  exceptfds : FdSet
  maxosfd : Int
  readList : List (Int × Int)
  writeList : List (Int × Int)
  exceptList : List (Int × Int)

/-- The sets of a call; null pointers are none. -/
structure Sets where
  readfds : Option FdSet
  writefds : Option FdSet
  exceptfds : Option FdSet

/-- `mc_select` up to the call of `select`. -/
def prepare (sets : Sets) : Option Prepared :=
  (makeRealFdSet hash nfds sets.exceptfds (nfds - 1) false false).bind fun except =>
  (makeRealFdSet hash nfds sets.writefds except.maxosfd false true).bind fun write =>
  (makeRealFdSet hash nfds sets.readfds write.maxosfd true false).bind fun read =>
  (moveWrites write.osfdList write.fds read.fds).map fun moved =>
    ⟨moved.2, moved.1, except.fds, read.maxosfd, read.osfdList, write.osfdList, except.osfdList⟩

/-- What `select` returns, and the sets afterwards. -/
structure Kernel where
  rc : Int
  readfds : FdSet
  writefds : FdSet
  exceptfds : FdSet

/-- What a call comes to. -/
inductive Outcome where
  | trapped
  | returned (rc : Int) (sets : Sets)

/-- `mc_select` after a call of `select` that reports descriptors. -/
def finish (sets : Sets) (prepared : Prepared) (kernel : Kernel) : Option (Int × Sets) :=
  (moveBack prepared.writeList kernel.writefds kernel.readfds).bind fun moved =>
  (makeMcFdSet prepared.readList moved.2 0).bind fun read =>
  (makeMcFdSet prepared.writeList moved.1 0).bind fun write =>
  (makeMcFdSet prepared.exceptList kernel.exceptfds 0).bind fun except =>
  (interrupts hash (numbers nfds).reverse read.1).map fun interrupted =>
    (if interrupted then -1 else kernel.rc - read.2 - write.2 - except.2,
      ⟨sets.readfds.map fun _ => read.1, sets.writefds.map fun _ => write.1,
        sets.exceptfds.map fun _ => except.1⟩)

/-- `CMMSocketImpl::mc_select`. -/
def mcSelect (sets : Sets) (kernel : Kernel) : Outcome :=
  match prepare hash nfds sets with
  | none => .trapped
  | some prepared =>
      if kernel.rc ≤ 0 then .returned kernel.rc sets
      else match finish hash nfds sets prepared kernel with
        | none => .trapped
        | some result => .returned result.1 result.2

/-! ### What is asked of the kernel -/

/-- The descriptors that a wait for a multisocket waits for. -/
def waitsFor (reading writing : Bool) (sk : Multisocket) : List Int :=
  if reading then [sk.selectPipe] else if writing then [sk.writeReadyPipe] else sk.osfds

/-- No null bootstrapper is followed. -/
def Ready (writing : Bool) (sk : Multisocket) : Prop :=
  writing = true → sk.bootstrapper.isSome = true

/-- A multisocket is in a set, below the bound of the call. -/
def Requested (fds : FdSet) (s : Int) (sk : Multisocket) : Prop :=
  s ∈ fds ∧ s < nfds ∧ hash.table s = some sk

/-- The pairs for the multisockets in a set, from some numbers. -/
def pairsOf (reading writing : Bool) (fds : FdSet) (ss : List Int) : List (Int × Int) :=
  ss.flatMap fun s =>
    if s ∈ fds then
      (hash.table s).elim [] fun sk => (waitsFor reading writing sk).map (s, ·)
    else []

/-- The multisockets in a set of the caller's can be waited for. -/
def Translates (reading writing : Bool) (given : Option FdSet) : Prop :=
  ∀ s sk, Requested hash nfds (given.getD ∅) s sk →
    Ready writing sk ∧ ∀ fd ∈ waitsFor reading writing sk, Representable fd

/-- A descriptor in a set is left as it is. -/
def Kept (fds : FdSet) (fd : Int) : Prop := fd ∈ fds ∧ ¬(fd < nfds ∧ (hash.table fd).isSome = true)

/-- What is ready when the kernel looks. -/
structure Readiness where
  readable : Int → Prop
  writable : Int → Prop
  exceptional : Int → Prop

/-- What `select` may do with a set: up to the greatest descriptor it leaves those that are ready.
Beyond it, it need not clear a bit, and sets none. -/
structure Examines (maxosfd : Int) (asked reported : FdSet) (ready : Int → Prop) : Prop where
  examined : ∀ fd ≤ maxosfd, fd ∈ reported ↔ fd ∈ asked ∧ ready fd
  asked : ∀ fd ∈ reported, fd ∈ asked

/-- What `select` may do: it returns how many of the descriptors up to the greatest are ready. -/
structure Selects (prepared : Prepared) (ready : Readiness) (kernel : Kernel) : Prop where
  readfds : Examines prepared.maxosfd prepared.readfds kernel.readfds ready.readable
  writefds : Examines prepared.maxosfd prepared.writefds kernel.writefds ready.writable
  exceptfds : Examines prepared.maxosfd prepared.exceptfds kernel.exceptfds ready.exceptional
  count : kernel.rc = kernel.readfds.cardUpTo prepared.maxosfd +
    kernel.writefds.cardUpTo prepared.maxosfd + kernel.exceptfds.cardUpTo prepared.maxosfd

/-- A set of the caller's holds no descriptor of a multisocket. -/
def Apart (given : Option FdSet) : Prop :=
  ∀ s sk, hash.table s = some sk → ∀ fd ∈ sk.underlying, fd ∉ given.getD ∅

/-- None of the readable multisockets is one whose waiters were interrupted. -/
def Uninterrupted (sets : Sets) (ready : Readiness) : Prop :=
  ∀ s sk, Requested hash nfds (sets.readfds.getD ∅) s sk → ready.readable sk.selectPipe →
    sk.willBlockOnRead = false

/-- A set is returned right: none for a null pointer, and else one with the requested multisockets
for which the event occurs, with the other descriptors that the kernel reports, and with no
descriptor of a multisocket. -/
structure SetExact (given after : Option FdSet) (reported : FdSet) (occurs : Multisocket → Prop) :
    Prop where
  null : after.isSome = given.isSome
  multisockets : ∀ s sk, hash.table s = some sk →
    (s ∈ after.getD ∅ ↔ Requested hash nfds (given.getD ∅) s sk ∧ occurs sk)
  plain : ∀ fd, hash.table fd = none → (∀ s sk, hash.table s = some sk → fd ∉ sk.underlying) →
    (fd ∈ after.getD ∅ ↔ fd ∈ reported)
  hidden : ∀ s sk, hash.table s = some sk → ∀ fd ∈ sk.underlying, fd ∉ after.getD ∅

/-- A call returns the three sets right, and the number of their bits. -/
def Exact (sets : Sets) (ready : Readiness) (kernel : Kernel) : Outcome → Prop
  | .trapped => False
  | .returned rc after =>
      SetExact hash nfds sets.readfds after.readfds kernel.readfds
        (fun sk => ready.readable sk.selectPipe) ∧
      SetExact hash nfds sets.writefds after.writefds kernel.writefds
        (fun sk => ready.readable sk.writeReadyPipe) ∧
      SetExact hash nfds sets.exceptfds after.exceptfds kernel.exceptfds
        (fun sk => ∃ fd ∈ sk.osfds, ready.exceptional fd) ∧
      rc = (after.readfds.getD ∅).card + (after.writefds.getD ∅).card +
        (after.exceptfds.getD ∅).card

/-- No multisocket beyond the bound of the call is reported. -/
def Bounded (reported : FdSet) : Prop := ∀ s ∈ reported, (hash.table s).isSome = true → s < nfds

/-- One of the descriptors that are waited for in a set of the caller's is not less. -/
def ReachedBy (reading writing : Bool) (given : Option FdSet) (fd : Int) : Prop :=
  ∃ s sk, Requested hash nfds (given.getD ∅) s sk ∧ ∃ other ∈ waitsFor reading writing sk, fd ≤ other

/-- A descriptor is below the bound of the call, or not beyond one that is waited for. -/
def Examined (sets : Sets) (fd : Int) : Prop :=
  fd < nfds ∨ ReachedBy hash nfds false false sets.exceptfds fd ∨
    ReachedBy hash nfds false true sets.writefds fd ∨ ReachedBy hash nfds true false sets.readfds fd

/-- The kernel leaves only bits that it examined. -/
def AllExamined (sets : Sets) (kernel : Kernel) : Prop :=
  ∀ fd, fd ∈ kernel.readfds ∨ fd ∈ kernel.writefds ∨ fd ∈ kernel.exceptfds →
    Examined hash nfds sets fd

/-- A multisocket is waited for in one way at a time. -/
abbrev Exclusive (reading writing : Bool) : Prop := ¬(reading = true ∧ writing = true)

section SwapOut

variable {hash : SockHash} {nfds : Int} {reading writing : Bool}

theorem mem_numbers {s : Int} : s ∈ numbers nfds ↔ 0 ≤ s ∧ s < nfds := by
  rw [numbers, List.mem_map]
  constructor
  · rintro ⟨index, member, rfl⟩
    rw [List.mem_reverse, List.mem_range] at member
    exact ⟨Int.natCast_nonneg _, by simp only [Int.ofNat_eq_natCast]; omega⟩
  · intro ⟨nonneg, below⟩
    refine ⟨s.toNat, ?_, Int.toNat_of_nonneg nonneg⟩
    rw [List.mem_reverse, List.mem_range]
    omega

theorem nodup_numbers : (numbers nfds).Nodup :=
  (List.nodup_reverse.mpr List.nodup_range).map fun _ _ same => Int.ofNat_inj.mp same

theorem getFdsForSelect_of_ready (exclusive : Exclusive reading writing) {sk : Multisocket}
    (ready : Ready writing sk) (s : Int) : sk.getFdsForSelect s reading writing =
      some ((waitsFor reading writing sk).map (s, ·)) := by
  unfold Multisocket.getFdsForSelect waitsFor
  split_ifs with reads writes writes
  · exact absurd ⟨reads, writes⟩ exclusive
  · rfl
  · obtain ⟨status, present⟩ := Option.isSome_iff_exists.mp (ready writes)
    rw [present]
    rfl
  · rfl

theorem getFdsForSelect_of_not (exclusive : Exclusive reading writing) {sk : Multisocket}
    (null : ¬Ready writing sk) (s : Int) : sk.getFdsForSelect s reading writing = none := by
  unfold Ready at null
  push Not at null
  obtain ⟨writes, missing⟩ := null
  have reads : ¬reading = true := fun reads => exclusive ⟨reads, writes⟩
  rw [Multisocket.getFdsForSelect, if_neg reads, if_pos writes,
    Option.not_isSome_iff_eq_none.mp missing]
  rfl

/-- Other numbers do not depend on a number that was cleared. -/
theorem pairsOf_congr {fds after : FdSet} {ss : List Int}
    (same : ∀ s ∈ ss, s ∈ after ↔ s ∈ fds) :
    pairsOf hash reading writing after ss = pairsOf hash reading writing fds ss :=
  List.flatMap_congr fun s member => by rw [if_congr (same s member) rfl rfl]

theorem pairsOf_cons (fds : FdSet) (s : Int) (rest : List Int) :
    pairsOf hash reading writing fds (s :: rest) = (if s ∈ fds then
      (hash.table s).elim [] fun sk => (waitsFor reading writing sk).map (s, ·) else []) ++
        pairsOf hash reading writing fds rest :=
  List.flatMap_cons

section Step

variable {s : Int} {rest : List Int} {fds : FdSet} {osfdList : List (Int × Int)} {sk : Multisocket}

/-- A number that is no multisocket in the set is passed over. -/
theorem swapOut_cons_of_plain (representable : Representable s)
    (plain : s ∈ fds → hash.table s = none) :
    swapOut hash reading writing (s :: rest) fds osfdList =
      swapOut hash reading writing rest fds osfdList := by
  have skipped : (if decide (s ∈ fds) then hash.table s else none) = none := by
    split_ifs with member
    · exact plain (of_decide_eq_true member)
    · rfl
  rw [swapOut, FdSet.isSet_of representable, Option.bind_some, skipped]

/-- A multisocket in the set is taken out, and its pairs are appended. -/
theorem swapOut_cons_of_ready (exclusive : Exclusive reading writing) (member : s ∈ fds)
    (held : hash.table s = some sk) (ready : Ready writing sk) :
    ∃ cleared, swapOut hash reading writing (s :: rest) fds osfdList =
        swapOut hash reading writing rest cleared
          (osfdList ++ (waitsFor reading writing sk).map (s, ·)) ∧
      ∀ fd, fd ∈ cleared ↔ fd ≠ s ∧ fd ∈ fds := by
  have representable := FdSet.representable_of_mem member
  obtain ⟨cleared, clr, erased⟩ := FdSet.exists_clr fds representable
  refine ⟨cleared, ?_, fun fd => FdSet.mem_of_erase erased⟩
  rw [swapOut, FdSet.isSet_of representable, Option.bind_some, if_pos (decide_eq_true member),
    held]
  simp only [clr, Option.bind_some, getFdsForSelect_of_ready exclusive ready]

/-- A null bootstrapper is followed. -/
theorem swapOut_cons_of_not (exclusive : Exclusive reading writing) (member : s ∈ fds)
    (held : hash.table s = some sk) (null : ¬Ready writing sk) :
    swapOut hash reading writing (s :: rest) fds osfdList = none := by
  have representable := FdSet.representable_of_mem member
  obtain ⟨cleared, clr, _⟩ := FdSet.exists_clr fds representable
  rw [swapOut, FdSet.isSet_of representable, Option.bind_some, if_pos (decide_eq_true member),
    held]
  simp only [clr, Option.bind_some, getFdsForSelect_of_not exclusive null, Option.bind_none]

end Step

/-- What the first loop comes to: it traps where a number has no bit or a null bootstrapper is
followed. Else it takes the multisockets out of the set, and collects the pairs for them. -/
structure SwapsOut (hash : SockHash) (reading writing : Bool) (ss : List Int) (fds : FdSet)
    (osfdList : List (Int × Int)) (result : Option (FdSet × List (Int × Int))) : Prop where
  isSome_iff : result.isSome ↔ ∀ s ∈ ss, Representable s ∧
    (s ∈ fds → ∀ sk, hash.table s = some sk → Ready writing sk)
  pairs : ∀ out ∈ result, out.2 = osfdList ++ pairsOf hash reading writing fds ss
  members : ∀ out ∈ result, ∀ fd, fd ∈ out.1 ↔
    fd ∈ fds ∧ ¬(fd ∈ ss ∧ (hash.table fd).isSome = true)

theorem SwapsOut.of_none {ss : List Int} {fds : FdSet} {osfdList : List (Int × Int)}
    (trapped : ¬∀ s ∈ ss, Representable s ∧
      (s ∈ fds → ∀ sk, hash.table s = some sk → Ready writing sk)) :
    SwapsOut hash reading writing ss fds osfdList none where
  isSome_iff := iff_of_false Bool.false_ne_true trapped
  pairs _ same := (Option.not_mem_none _ same).elim
  members _ same := (Option.not_mem_none _ same).elim

theorem SwapsOut.cons_plain {s : Int} {rest : List Int} {fds : FdSet}
    {osfdList : List (Int × Int)} {result : Option (FdSet × List (Int × Int))}
    (later : SwapsOut hash reading writing rest fds osfdList result)
    (representable : Representable s) (plain : s ∈ fds → hash.table s = none) :
    SwapsOut hash reading writing (s :: rest) fds osfdList result where
  isSome_iff := by
    rw [later.isSome_iff, List.forall_mem_cons, and_iff_right]
    refine ⟨representable, fun member sk held => ?_⟩
    exact (Option.some_ne_none sk (held.symm.trans (plain member))).elim
  pairs out same := by
    rw [later.pairs out same, pairsOf_cons]
    split_ifs with member
    · rw [plain member]
      rfl
    · rfl
  members out same fd := by
    rw [later.members out same, List.mem_cons]
    refine and_congr_right fun member => not_congr (and_congr_left fun present => ?_)
    refine (or_iff_right fun here => ?_).symm
    rw [here, plain (here ▸ member)] at present
    exact Bool.false_ne_true present

theorem SwapsOut.cons_ready {s : Int} {rest : List Int} {fds cleared : FdSet}
    {osfdList : List (Int × Int)} {sk : Multisocket}
    {result : Option (FdSet × List (Int × Int))}
    (later : SwapsOut hash reading writing rest cleared
      (osfdList ++ (waitsFor reading writing sk).map (s, ·)) result)
    (mem_cleared : ∀ fd, fd ∈ cleared ↔ fd ≠ s ∧ fd ∈ fds) (fresh : s ∉ rest) (member : s ∈ fds)
    (held : hash.table s = some sk) (ready : Ready writing sk) :
    SwapsOut hash reading writing (s :: rest) fds osfdList result := by
  have same_rest : ∀ t ∈ rest, t ∈ cleared ↔ t ∈ fds := fun t listed => by
    rw [mem_cleared, and_iff_right]
    exact fun equal => fresh (equal ▸ listed)
  refine ⟨?_, fun out same => ?_, fun out same fd => ?_⟩
  · rw [later.isSome_iff, List.forall_mem_cons, and_iff_right]
    · exact forall₂_congr fun t listed => and_congr_right fun _ =>
        imp_congr (same_rest t listed) Iff.rfl
    · refine ⟨FdSet.representable_of_mem member, fun _ other heldToo => ?_⟩
      rwa [Option.some.inj (heldToo.symm.trans held)]
  · rw [later.pairs out same, pairsOf_congr same_rest, pairsOf_cons, if_pos member, held,
      Option.elim_some, List.append_assoc]
  · rw [later.members out same, mem_cleared, List.mem_cons]
    by_cases here : fd = s
    · subst here
      refine iff_of_false (fun both => both.1.1 rfl) fun both => both.2 ⟨.inl rfl, ?_⟩
      rw [held]
      rfl
    · rw [and_iff_right here, or_iff_right here]

theorem swapOut_spec (exclusive : Exclusive reading writing) {ss : List Int} (distinct : ss.Nodup)
    (fds : FdSet) (osfdList : List (Int × Int)) :
    SwapsOut hash reading writing ss fds osfdList
      (swapOut hash reading writing ss fds osfdList) := by
  induction ss generalizing fds osfdList with
  | nil =>
      refine ⟨iff_of_true rfl fun s member => absurd member List.not_mem_nil, ?_, ?_⟩
      · intro out same
        cases same
        exact (List.append_nil _).symm
      · intro out same fd
        cases same
        exact (and_iff_left fun listed => List.not_mem_nil listed.1).symm
  | cons s rest ih =>
      obtain ⟨fresh, distinctRest⟩ := List.nodup_cons.mp distinct
      by_cases member : s ∈ fds
      · cases held : hash.table s with
        | none =>
            rw [swapOut_cons_of_plain (FdSet.representable_of_mem member) fun _ => held]
            exact (ih distinctRest fds osfdList).cons_plain (FdSet.representable_of_mem member)
              fun _ => held
        | some sk =>
            by_cases ready : Ready writing sk
            · obtain ⟨cleared, taken, mem_cleared⟩ :=
                @swapOut_cons_of_ready hash reading writing s rest fds osfdList sk exclusive member
                  held ready
              rw [taken]
              exact (ih distinctRest cleared _).cons_ready mem_cleared fresh member held ready
            · rw [swapOut_cons_of_not exclusive member held ready]
              exact .of_none fun all => ready ((all s List.mem_cons_self).2 member sk held)
      · by_cases representable : Representable s
        · rw [swapOut_cons_of_plain representable fun inSet => absurd inSet member]
          exact (ih distinctRest fds osfdList).cons_plain representable fun inSet =>
            absurd inSet member
        · rw [swapOut, FdSet.isSet, if_neg representable, Option.bind_none]
          exact .of_none fun all => representable (all s List.mem_cons_self).1

end SwapOut

/-! ### The pairs -/

section Pairs

variable {hash : SockHash} {reading writing : Bool} {fds : FdSet} {ss : List Int} {sk : Multisocket}
variable {s : Int} {pair other : Int × Int}

theorem waitsFor_subset (reading writing : Bool) (sk : Multisocket) :
    waitsFor reading writing sk ⊆ sk.underlying := by
  unfold waitsFor Multisocket.underlying
  split_ifs
  · exact List.cons_subset_cons _ (List.nil_subset _)
  · exact List.subset_cons_of_subset _ (List.cons_subset_cons _ (List.nil_subset _))
  · exact List.subset_cons_of_subset _ (List.subset_cons_self _ _)

theorem nodup_waitsFor (held : hash.table s = some sk) : (waitsFor reading writing sk).Nodup := by
  have distinct := hash.distinct s sk held
  unfold waitsFor
  split_ifs
  · exact List.nodup_singleton _
  · exact List.nodup_singleton _
  · exact distinct.of_cons.of_cons

/-- A pair is of a multisocket in the set and of a descriptor that is waited for. -/
theorem mem_pairsOf : pair ∈ pairsOf hash reading writing fds ss ↔ pair.1 ∈ ss ∧ pair.1 ∈ fds ∧
    ∃ sk, hash.table pair.1 = some sk ∧ pair.2 ∈ waitsFor reading writing sk := by
  obtain ⟨t, fd⟩ := pair
  rw [pairsOf, List.mem_flatMap]
  constructor
  · rintro ⟨s, listed, member⟩
    split_ifs at member with inSet
    · cases held : hash.table s with
      | none =>
          rw [held] at member
          exact absurd member List.not_mem_nil
      | some sk =>
          rw [held, Option.elim_some, List.mem_map] at member
          obtain ⟨waited, present, same⟩ := member
          cases same
          exact ⟨listed, inSet, sk, held, present⟩
    · exact absurd member List.not_mem_nil
  · rintro ⟨listed, inSet, sk, held, present⟩
    refine ⟨t, listed, ?_⟩
    rw [if_pos inSet, held, Option.elim_some, List.mem_map]
    exact ⟨fd, present, rfl⟩

/-- A pair's descriptor belongs to its multisocket. -/
theorem underlying_of_pairsOf (member : pair ∈ pairsOf hash reading writing fds ss) :
    ∃ sk, hash.table pair.1 = some sk ∧ pair.2 ∈ sk.underlying := by
  obtain ⟨_, _, sk, held, waited⟩ := mem_pairsOf.mp member
  exact ⟨sk, held, waitsFor_subset reading writing sk waited⟩

/-- No multisocket is a descriptor of one. -/
theorem fst_ne_snd {otherSet : FdSet} {otherReading otherWriting : Bool}
    (member : pair ∈ pairsOf hash reading writing fds ss)
    (memberToo : other ∈ pairsOf hash otherReading otherWriting otherSet ss) :
    pair.1 ≠ other.2 := by
  intro same
  obtain ⟨sk, held, _⟩ := underlying_of_pairsOf member
  obtain ⟨owner, heldToo, belongs⟩ := underlying_of_pairsOf memberToo
  rw [same, hash.notNumbers _ owner heldToo _ belongs] at held
  exact Option.some_ne_none sk held.symm

/-- No descriptor is in two pairs. -/
theorem nodup_snd_pairsOf (distinct : ss.Nodup) :
    ((pairsOf hash reading writing fds ss).map Prod.snd).Nodup := by
  induction ss with
  | nil => exact List.nodup_nil
  | cons s rest ih =>
      obtain ⟨fresh, distinctRest⟩ := List.nodup_cons.mp distinct
      rw [pairsOf_cons]
      split_ifs with inSet
      · cases held : hash.table s with
        | none => exact ih distinctRest
        | some sk =>
            rw [Option.elim_some, List.map_append, List.map_map]
            refine List.Nodup.append ?_ (ih distinctRest) fun fd here later => ?_
            · exact (List.map_id _).symm ▸ nodup_waitsFor held
            · rw [List.mem_map] at here later
              obtain ⟨_, waited, rfl⟩ := here
              obtain ⟨pair, member, same⟩ := later
              obtain ⟨owner, heldToo, belongs⟩ := underlying_of_pairsOf member
              have number : pair.1 = s := SockHash.eq_of_mem_underlying heldToo held belongs
                (same ▸ waitsFor_subset reading writing sk waited)
              exact fresh (number ▸ (mem_pairsOf.mp member).1)
      · exact ih distinctRest

end Pairs

/-! ### One set there and back -/

section Loops

variable {pairs : List (Int × Int)} {fds readfds writefds : FdSet}

/-- What holds of the pairs of a set: each multisocket has a bit and differs from each descriptor.
-/
structure Swappable (pairs : List (Int × Int)) : Prop where
  representable : ∀ pair ∈ pairs, Representable pair.1
  differ : ∀ pair ∈ pairs, ∀ other ∈ pairs, pair.1 ≠ other.2

theorem Swappable.of_cons {pair : Int × Int} (swappable : Swappable (pair :: pairs)) :
    Swappable pairs where
  representable other member := swappable.representable other (List.mem_cons_of_mem _ member)
  differ one member other memberToo :=
    swappable.differ one (List.mem_cons_of_mem _ member) other (List.mem_cons_of_mem _ memberToo)

/-- The second loop traps where a descriptor has no bit. Else it puts the descriptors into the
set. -/
theorem swapIn_spec (swappable : Swappable pairs) (fds : FdSet) (maxosfd : Int)
    (gone : ∀ pair ∈ pairs, pair.1 ∉ fds) :
    ((swapIn pairs fds maxosfd).isSome ↔ ∀ pair ∈ pairs, Representable pair.2) ∧
    ∀ out, swapIn pairs fds maxosfd = some out →
      (∀ fd, fd ∈ out.1 ↔ fd ∈ fds ∨ ∃ pair ∈ pairs, pair.2 = fd) ∧
      ∀ fd, fd ≤ out.2 ↔ fd ≤ maxosfd ∨ ∃ pair ∈ pairs, fd ≤ pair.2 := by
  induction pairs generalizing fds maxosfd with
  | nil =>
      refine ⟨iff_of_true rfl fun pair member => absurd member List.not_mem_nil, fun out same => ?_⟩
      cases same
      constructor
      all_goals exact fun fd => ⟨.inl, fun either => either.elim id fun ⟨_, member, _⟩ =>
        absurd member List.not_mem_nil⟩
  | cons pair rest ih =>
      obtain ⟨cleared, clr, erased⟩ :=
        FdSet.exists_clr fds (swappable.representable pair List.mem_cons_self)
      rw [swapIn, clr, Option.bind_some]
      by_cases fits : Representable pair.2
      · obtain ⟨after, set, inserted⟩ := FdSet.exists_set cleared fits
        have mem_after : ∀ fd, fd ∈ after ↔ fd = pair.2 ∨ fd ∈ fds := fun fd => by
          rw [FdSet.mem_of_insert inserted, FdSet.mem_of_erase erased]
          refine or_congr_right (and_iff_right_of_imp fun member same => ?_)
          exact gone pair List.mem_cons_self (same ▸ member)
        have goneRest : ∀ other ∈ rest, other.1 ∉ after := fun other member => by
          rw [mem_after, not_or]
          exact ⟨swappable.differ other (List.mem_cons_of_mem _ member) pair List.mem_cons_self,
            gone other (List.mem_cons_of_mem _ member)⟩
        obtain ⟨iff, spec⟩ := ih swappable.of_cons after (max maxosfd pair.2) goneRest
        rw [set, Option.bind_some, List.forall_mem_cons, and_iff_right fits]
        refine ⟨iff, fun out same => ?_⟩
        obtain ⟨members, most⟩ := spec out same
        refine ⟨fun fd => ?_, fun fd => ?_⟩
        · rw [members, mem_after, List.exists_mem_cons_iff, or_left_comm, or_assoc, eq_comm]
        · rw [most, le_max_iff, List.exists_mem_cons_iff, or_assoc]
      · rw [FdSet.set, dif_neg fits, Option.bind_none]
        refine ⟨iff_of_false Bool.false_ne_true fun all => ?_, fun out same => ?_⟩
        · exact fits (all pair List.mem_cons_self)
        · exact (Option.some_ne_none out same.symm).elim

/-- Where all the descriptors of the pairs are in the set of writes, they move to that of reads. -/
theorem moveWrites_spec (distinct : (pairs.map Prod.snd).Nodup) (writefds readfds : FdSet)
    (present : ∀ pair ∈ pairs, pair.2 ∈ writefds) :
    ∃ out, moveWrites pairs writefds readfds = some out ∧
      (∀ fd, fd ∈ out.1 ↔ fd ∈ writefds ∧ ∀ pair ∈ pairs, pair.2 ≠ fd) ∧
      ∀ fd, fd ∈ out.2 ↔ fd ∈ readfds ∨ ∃ pair ∈ pairs, pair.2 = fd := by
  induction pairs generalizing writefds readfds with
  | nil =>
      refine ⟨_, rfl, fun fd => ⟨fun member => ⟨member, ?_⟩, And.left⟩, fun fd => ⟨.inl, ?_⟩⟩
      · exact fun pair member => absurd member List.not_mem_nil
      · exact fun either => either.elim id fun ⟨_, member, _⟩ => absurd member List.not_mem_nil
  | cons pair rest ih =>
      obtain ⟨fresh, distinctRest⟩ := List.nodup_cons.mp distinct
      have member : pair.2 ∈ writefds := present pair List.mem_cons_self
      have fits := FdSet.representable_of_mem member
      obtain ⟨cleared, clr, erased⟩ := FdSet.exists_clr writefds fits
      obtain ⟨added, set, inserted⟩ := FdSet.exists_set readfds fits
      have presentRest : ∀ other ∈ rest, other.2 ∈ cleared := fun other listed => by
        rw [FdSet.mem_of_erase erased]
        refine ⟨fun same => fresh ?_, present other (List.mem_cons_of_mem _ listed)⟩
        exact same ▸ List.mem_map_of_mem listed
      obtain ⟨out, moved, writes, reads⟩ := ih distinctRest cleared added presentRest
      refine ⟨out, ?_, fun fd => ?_, fun fd => ?_⟩
      · rw [moveWrites, FdSet.isSet_of fits, Option.bind_some, if_pos (decide_eq_true member), clr,
          Option.bind_some, set, Option.bind_some, moved]
      · rw [writes, FdSet.mem_of_erase erased, List.forall_mem_cons, ne_comm, and_left_comm,
          and_assoc]
      · rw [reads, FdSet.mem_of_insert inserted, List.exists_mem_cons_iff, or_left_comm, or_assoc,
          eq_comm]

/-- Those of the pairs' descriptors that are in the set of reads move to that of writes. -/
theorem moveBack_spec (distinct : (pairs.map Prod.snd).Nodup) (writefds readfds : FdSet)
    (fits : ∀ pair ∈ pairs, Representable pair.2) (absent : ∀ pair ∈ pairs, pair.2 ∉ writefds) :
    ∃ out, moveBack pairs writefds readfds = some out ∧
      (∀ fd, fd ∈ out.1 ↔ fd ∈ writefds ∨ fd ∈ readfds ∧ ∃ pair ∈ pairs, pair.2 = fd) ∧
      (∀ fd, fd ∈ out.2 ↔ fd ∈ readfds ∧ ∀ pair ∈ pairs, pair.2 ≠ fd) ∧
      out.1.card + out.2.card = writefds.card + readfds.card := by
  induction pairs generalizing writefds readfds with
  | nil =>
      refine ⟨_, rfl, fun fd => ⟨.inl, ?_⟩, fun fd => ⟨fun member => ⟨member, ?_⟩, And.left⟩, rfl⟩
      · exact fun either => either.elim id fun ⟨_, _, member, _⟩ =>
          absurd member List.not_mem_nil
      · exact fun pair member => absurd member List.not_mem_nil
  | cons pair rest ih =>
      obtain ⟨fresh, distinctRest⟩ := List.nodup_cons.mp distinct
      obtain ⟨fitsHere, fitsRest⟩ := List.forall_mem_cons.mp fits
      obtain ⟨absentHere, absentRest⟩ := List.forall_mem_cons.mp absent
      have differ : ∀ other ∈ rest, other.2 ≠ pair.2 := fun other listed same =>
        fresh (same ▸ List.mem_map_of_mem listed)
      rw [moveBack, FdSet.isSet_of fitsHere, Option.bind_some]
      by_cases member : pair.2 ∈ readfds
      · obtain ⟨added, set, inserted⟩ := FdSet.exists_set writefds fitsHere
        obtain ⟨cleared, clr, erased⟩ := FdSet.exists_clr readfds fitsHere
        have absentAfter : ∀ other ∈ rest, other.2 ∉ added := fun other listed => by
          rw [FdSet.mem_of_insert inserted, not_or]
          exact ⟨differ other listed, absentRest other listed⟩
        obtain ⟨out, moved, writes, reads, count⟩ :=
          ih distinctRest added cleared fitsRest absentAfter
        refine ⟨out, ?_, fun fd => ?_, fun fd => ?_, ?_⟩
        · rw [if_pos (decide_eq_true member), set, Option.bind_some, clr, Option.bind_some, moved]
        · rw [writes, FdSet.mem_of_insert inserted, FdSet.mem_of_erase erased,
            List.exists_mem_cons_iff]
          by_cases here : fd = pair.2
          · exact iff_of_true (.inl (.inl here)) (.inr ⟨here ▸ member, .inl here.symm⟩)
          · rw [or_iff_right here, and_iff_right here, or_iff_right (Ne.symm here)]
        · rw [reads, FdSet.mem_of_erase erased, List.forall_mem_cons, ne_comm, and_left_comm,
            and_assoc]
        · have grew := FdSet.card_of_insert inserted absentHere
          have shrank := FdSet.card_of_erase erased member
          omega
      · obtain ⟨out, moved, writes, reads, count⟩ :=
          ih distinctRest writefds readfds fitsRest absentRest
        refine ⟨out, ?_, fun fd => ?_, fun fd => ?_, count⟩
        · rw [if_neg (by rwa [decide_eq_true_iff]), moved]
        · rw [writes, List.exists_mem_cons_iff]
          refine or_congr_right (and_congr_right fun reported => (or_iff_right fun same => ?_).symm)
          exact member (same ▸ reported)
        · rw [reads, List.forall_mem_cons]
          refine and_congr_right fun reported => (and_iff_right fun same => ?_).symm
          exact member (same ▸ reported)

/-- A pair's descriptor that was reported becomes its multisocket, or a duplicate of it. -/
theorem makeMcFdSet_cons {pair : Int × Int} (fitsFirst : Representable pair.1)
    (fits : Representable pair.2) (rest : List (Int × Int)) (fds : FdSet) (dups : Nat) :
    ∃ after dupsAfter, makeMcFdSet (pair :: rest) fds dups = makeMcFdSet rest after dupsAfter ∧
      (∀ fd, fd ∈ after ↔ fd ≠ pair.2 ∧ fd ∈ fds ∨ pair.1 = fd ∧ pair.2 ∈ fds) ∧
      after.card + dupsAfter = fds.card + dups := by
  rw [makeMcFdSet, FdSet.isSet_of fits, Option.bind_some]
  by_cases member : pair.2 ∈ fds
  · obtain ⟨cleared, clr, erased⟩ := FdSet.exists_clr fds fits
    have shrank := FdSet.card_of_erase erased member
    rw [if_pos (decide_eq_true member), clr, Option.bind_some, FdSet.isSet_of fitsFirst,
      Option.bind_some]
    by_cases already : pair.1 ∈ cleared
    · refine ⟨cleared, dups + 1, if_pos (decide_eq_true already), fun fd => ?_, by omega⟩
      rw [FdSet.mem_of_erase erased]
      refine (or_iff_left_of_imp fun ⟨same, _⟩ => ?_).symm
      rw [← same, ← FdSet.mem_of_erase erased]
      exact already
    · obtain ⟨added, set, inserted⟩ := FdSet.exists_set cleared fitsFirst
      have grew := FdSet.card_of_insert inserted already
      refine ⟨added, dups, ?_, fun fd => ?_, by omega⟩
      · rw [if_neg (by rwa [decide_eq_true_iff]), set, Option.bind_some]
      · rw [FdSet.mem_of_insert inserted, FdSet.mem_of_erase erased, and_iff_left member, or_comm,
          eq_comm]
  · refine ⟨fds, dups, if_neg (by rwa [decide_eq_true_iff]), fun fd => ?_, rfl⟩
    rw [or_iff_left fun both => member both.2]
    refine (and_iff_right_of_imp fun reported same => ?_).symm
    exact member (same ▸ reported)

/-- The descriptors of the pairs become their multisockets, and each that was reported is still
counted, as a bit or as a duplicate. -/
theorem makeMcFdSet_spec (swappable : Swappable pairs) (distinct : (pairs.map Prod.snd).Nodup)
    (fits : ∀ pair ∈ pairs, Representable pair.2) (fds : FdSet) (dups : Nat) :
    ∃ out, makeMcFdSet pairs fds dups = some out ∧
      (∀ fd, fd ∈ out.1 ↔ (fd ∈ fds ∧ ∀ pair ∈ pairs, pair.2 ≠ fd) ∨
        ∃ pair ∈ pairs, pair.1 = fd ∧ pair.2 ∈ fds) ∧
      out.1.card + out.2 = fds.card + dups := by
  induction pairs generalizing fds dups with
  | nil =>
      refine ⟨_, rfl, fun fd => ⟨fun member => .inl ⟨member, ?_⟩, ?_⟩, rfl⟩
      · exact fun pair member => absurd member List.not_mem_nil
      · exact fun either => either.elim And.left fun ⟨_, member, _⟩ =>
          absurd member List.not_mem_nil
  | cons pair rest ih =>
      obtain ⟨fresh, distinctRest⟩ := List.nodup_cons.mp distinct
      obtain ⟨fitsHere, fitsRest⟩ := List.forall_mem_cons.mp fits
      have differs : ∀ other ∈ rest, pair.1 ≠ other.2 := fun other listed =>
        swappable.differ pair List.mem_cons_self other (List.mem_cons_of_mem _ listed)
      obtain ⟨after, dupsAfter, step, mem_after, count⟩ := makeMcFdSet_cons
        (swappable.representable pair List.mem_cons_self) fitsHere rest fds dups
      obtain ⟨out, mapped, members, total⟩ :=
        ih swappable.of_cons distinctRest fitsRest after dupsAfter
      refine ⟨out, step.trans mapped, fun fd => ?_, total.trans count⟩
      -- The step leaves the other pairs' descriptors as they were.
      have untouched : ∀ other ∈ rest, other.2 ∈ after ↔ other.2 ∈ fds := fun other listed => by
        rw [mem_after, or_iff_left fun both => differs other listed both.1, and_iff_right]
        exact fun same => fresh (same ▸ List.mem_map_of_mem listed)
      have later : (∃ other ∈ rest, other.1 = fd ∧ other.2 ∈ after) ↔
          ∃ other ∈ rest, other.1 = fd ∧ other.2 ∈ fds :=
        exists_congr fun other => and_congr_right fun listed =>
          and_congr_right fun _ => untouched other listed
      have first : (pair.1 = fd ∧ pair.2 ∈ fds) ∧ (∀ other ∈ rest, other.2 ≠ fd) ↔
          pair.1 = fd ∧ pair.2 ∈ fds :=
        and_iff_left_of_imp fun both other listed => both.1 ▸ (differs other listed).symm
      rw [members, later, mem_after, List.forall_mem_cons, List.exists_mem_cons_iff, or_and_right,
        first, or_assoc, ne_comm, and_assoc, and_left_comm]

end Loops

section OneSet

variable {hash : SockHash} {nfds : Int} {reading writing : Bool}

theorem forall_numbers_representable :
    (∀ s ∈ numbers nfds, Representable s) ↔ nfds ≤ fdSetSize := by
  constructor
  · intro all
    by_cases some : 0 < nfds
    · have last := (all (nfds - 1) (mem_numbers.mpr ⟨by omega, by omega⟩)).2
      omega
    · unfold fdSetSize
      omega
  · intro bound s member
    obtain ⟨nonneg, below⟩ := mem_numbers.mp member
    exact ⟨nonneg, Int.lt_of_lt_of_le below bound⟩

theorem swappable_pairsOf (fds : FdSet) (ss : List Int) :
    Swappable (pairsOf hash reading writing fds ss) where
  representable _ member := FdSet.representable_of_mem (mem_pairsOf.mp member).2.1
  differ _ member _ memberToo := fst_ne_snd member memberToo

/-- A multisocket is in a pair exactly if it is requested. -/
theorem mem_pairsOf_numbers {fds : FdSet} {pair : Int × Int} :
    pair ∈ pairsOf hash reading writing fds (numbers nfds) ↔
      ∃ sk, Requested hash nfds fds pair.1 sk ∧ pair.2 ∈ waitsFor reading writing sk := by
  rw [mem_pairsOf, mem_numbers]
  constructor
  · rintro ⟨⟨_, below⟩, member, sk, held, waited⟩
    exact ⟨sk, ⟨member, below, held⟩, waited⟩
  · rintro ⟨sk, ⟨member, below, held⟩, waited⟩
    exact ⟨⟨(FdSet.representable_of_mem member).1, below⟩, member, sk, held, waited⟩

/-- The descriptors that are waited for are those of the pairs. -/
theorem reachedBy_iff {given : Option FdSet} {fd : Int} :
    ReachedBy hash nfds reading writing given fd ↔
      ∃ pair ∈ pairsOf hash reading writing (given.getD ∅) (numbers nfds), fd ≤ pair.2 := by
  constructor
  · rintro ⟨s, sk, requested, other, waited, most⟩
    exact ⟨(s, other), mem_pairsOf_numbers.mpr ⟨sk, requested, waited⟩, most⟩
  · rintro ⟨pair, member, most⟩
    obtain ⟨sk, requested, waited⟩ := mem_pairsOf_numbers.mp member
    exact ⟨pair.1, sk, requested, pair.2, waited, most⟩

/-- A translated set: the multisockets below the bound are replaced by their descriptors, which are
listed and count for the greatest. -/
structure Translated (hash : SockHash) (nfds : Int) (reading writing : Bool)
    (given : Option FdSet) (maxosfd : Int) (real : Real) : Prop where
  pairs : real.osfdList = pairsOf hash reading writing (given.getD ∅) (numbers nfds)
  members : ∀ fd, fd ∈ real.fds ↔
    Kept hash nfds (given.getD ∅) fd ∨ ∃ pair ∈ real.osfdList, pair.2 = fd
  most : ∀ fd, fd ≤ real.maxosfd ↔
    fd ≤ maxosfd ∨ ReachedBy hash nfds reading writing given fd
  fits : ∀ pair ∈ real.osfdList, Representable pair.2

theorem pairsOf_empty (ss : List Int) : pairsOf hash reading writing ∅ ss = [] :=
  List.eq_nil_iff_forall_not_mem.mpr fun _ member =>
    FdSet.not_mem_empty (mem_pairsOf.mp member).2.1

/-- The first loop gets to its end where each number has a bit and no null pointer is followed. -/
theorem forall_numbers_ready {fds : FdSet} : (∀ s ∈ numbers nfds, Representable s ∧
      (s ∈ fds → ∀ sk, hash.table s = some sk → Ready writing sk)) ↔
    nfds ≤ fdSetSize ∧ ∀ s sk, Requested hash nfds fds s sk → Ready writing sk := by
  rw [← forall_numbers_representable]
  constructor
  · intro all
    refine ⟨fun s member => (all s member).1, fun s sk ⟨member, below, held⟩ => ?_⟩
    have nonneg := (FdSet.representable_of_mem member).1
    exact (all s (mem_numbers.mpr ⟨nonneg, below⟩)).2 member sk held
  · rintro ⟨bits, ready⟩ s member
    refine ⟨bits s member, fun inSet sk held => ?_⟩
    exact ready s sk ⟨inSet, (mem_numbers.mp member).2, held⟩

/-- The descriptors of the pairs have bits exactly if those that are waited for have. -/
theorem forall_pairsOf_representable {fds : FdSet} :
    (∀ pair ∈ pairsOf hash reading writing fds (numbers nfds), Representable pair.2) ↔
      ∀ s sk, Requested hash nfds fds s sk →
        ∀ fd ∈ waitsFor reading writing sk, Representable fd := by
  constructor
  · intro fits s sk requested fd waited
    exact fits (s, fd) (mem_pairsOf_numbers.mpr ⟨sk, requested, waited⟩)
  · intro fits pair member
    obtain ⟨sk, requested, waited⟩ := mem_pairsOf_numbers.mp member
    exact fits pair.1 sk requested pair.2 waited

/-- The first loop leaves what is kept. -/
theorem SwapsOut.mem_iff_kept {fds : FdSet} {osfdList : List (Int × Int)}
    {result : Option (FdSet × List (Int × Int))}
    (swapsOut : SwapsOut hash reading writing (numbers nfds) fds osfdList result)
    {out : FdSet × List (Int × Int)} (same : out ∈ result) (fd : Int) :
    fd ∈ out.1 ↔ Kept hash nfds fds fd := by
  rw [swapsOut.members out same, mem_numbers]
  refine and_congr_right fun member => not_congr (and_congr_left fun _ => ?_)
  exact and_iff_right (FdSet.representable_of_mem member).1

/-- For a null pointer there is nothing to translate. -/
theorem translated_none (maxosfd : Int) :
    Translated hash nfds reading writing none maxosfd ⟨∅, [], maxosfd⟩ where
  pairs := (pairsOf_empty _).symm
  members fd := by
    refine iff_of_false FdSet.not_mem_empty fun either => ?_
    rcases either with kept | ⟨_, member, _⟩
    · exact FdSet.not_mem_empty kept.1
    · exact List.not_mem_nil member
  most fd := (or_iff_left fun ⟨_, _, requested, _⟩ => FdSet.not_mem_empty requested.1).symm
  fits _ member := absurd member List.not_mem_nil

/-- A set can be translated exactly if the multisockets in it can be waited for. -/
theorem makeRealFdSet_spec (exclusive : Exclusive reading writing) (given : Option FdSet)
    (maxosfd : Int) :
    ((makeRealFdSet hash nfds given maxosfd reading writing).isSome ↔
      (given.isSome → nfds ≤ fdSetSize) ∧ Translates hash nfds reading writing given) ∧
    ∀ real, makeRealFdSet hash nfds given maxosfd reading writing = some real →
      Translated hash nfds reading writing given maxosfd real := by
  cases given with
  | none =>
      refine ⟨iff_of_true rfl ⟨fun absent => absurd absent Bool.false_ne_true, ?_⟩, ?_⟩
      · exact fun s sk requested => absurd requested.1 FdSet.not_mem_empty
      · intro real same
        cases same
        exact translated_none maxosfd
  | some fds =>
      have swapsOut := @swapOut_spec hash _ _ exclusive _ (@nodup_numbers nfds) fds []
      have outIff := swapsOut.isSome_iff.trans forall_numbers_ready
      rw [makeRealFdSet]
      cases swapped : swapOut hash reading writing (numbers nfds) fds [] with
      | none =>
          rw [swapped] at outIff
          refine ⟨iff_of_false Bool.false_ne_true fun ⟨bound, translates⟩ => ?_, ?_⟩
          · exact Bool.false_ne_true (outIff.mpr ⟨bound rfl, fun s sk requested =>
              (translates s sk requested).1⟩)
          · exact fun real same => (Option.some_ne_none real same.symm).elim
      | some out =>
          obtain ⟨bound, ready⟩ := outIff.mp (swapped ▸ rfl)
          have kept := swapsOut.mem_iff_kept swapped
          have pairs : out.2 = pairsOf hash reading writing fds (numbers nfds) :=
            (swapsOut.pairs out swapped).trans (List.nil_append _)
          have gone : ∀ pair ∈ out.2, pair.1 ∉ out.1 := fun pair member inSet => by
            rw [pairs] at member
            obtain ⟨sk, ⟨_, below, held⟩, _⟩ := mem_pairsOf_numbers.mp member
            exact ((kept pair.1).mp inSet).2 ⟨below, held ▸ rfl⟩
          have reached : ∀ fd, (∃ pair ∈ out.2, fd ≤ pair.2) ↔
              ReachedBy hash nfds reading writing (some fds) fd := fun fd => by
            rw [pairs]
            exact (@reachedBy_iff hash nfds reading writing (some fds) fd).symm
          obtain ⟨swapsIn, inSpec⟩ :=
            swapIn_spec (pairs ▸ swappable_pairsOf fds _) out.1 maxosfd gone
          rw [Option.bind_some, Option.isSome_map]
          refine ⟨?_, fun real same => ?_⟩
          · rw [swapsIn, pairs, forall_pairsOf_representable]
            exact ⟨fun fits => ⟨fun _ => bound, fun s sk requested =>
              ⟨ready s sk requested, fits s sk requested⟩⟩,
              fun both s sk requested => (both.2 s sk requested).2⟩
          · obtain ⟨result, swappedIn, rfl⟩ := Option.map_eq_some_iff.mp same
            obtain ⟨membersIn, most⟩ := inSpec result swappedIn
            exact {
              pairs := pairs
              members := fun fd => (membersIn fd).trans (or_congr_left (kept fd))
              most := fun fd => (most fd).trans (or_congr_right (reached fd))
              fits := swapsIn.mp (swappedIn ▸ rfl) }

end OneSet

end Selecting

end Libcmm
